import RecordLog.Bytes
import RecordLog.Text.Blank
import RecordLog.Text.Letters
import RecordLog.Text.Utf8
import RecordLog.Text.Unprintable
import RecordLog.Text.Quoted
import RecordLog.Number.Decimal
import RecordLog.Number.Integer
import RecordLog.Number.Binary.Basic
import RecordLog.Number.Binary.Rounding
import RecordLog.Number.Binary.Reader
import RecordLog.Number.Binary.Printer
import RecordLog.Types.IntKind
import RecordLog.Types.DataType
import RecordLog.Types.Value
import RecordLog.Fault
import RecordLog.Types.Name
import RecordLog.Types.Packing
import RecordLog.Types.Written
import RecordLog.Schema.Column
import RecordLog.Schema.Builder
import RecordLog.Schema.Basic
import RecordLog.Schema.Declaration
import RecordLog.Schema.Packing
import RecordLog.Record
import RecordLog.Batch.Basic
import RecordLog.Batch.Builder
import RecordLog.Wire
import RecordLog.Service
import RecordLog.Stream.Pager
import RecordLog.Stream.Records
import RecordLog.Stream.Alerts
import RecordLog.Client.Basic
import RecordLog.Client.Logs
import RecordLog.Client.Append
import RecordLog.Client.Read
import RecordLog.Client.Query
import RecordLog.Proofs.Text.Utf8
import RecordLog.Proofs.Number.Rounding
import RecordLog.Proofs.Number.Conversion
import RecordLog.Proofs.Types.Packing
import RecordLog.Proofs.Schema.Packing
import RecordLog.Proofs.Stream.Script
import RecordLog.Proofs.Stream.Rounds
import RecordLog.Proofs.Stream.Lines
import RecordLog.Proofs.Stream.Alerts
import RecordLog.Proofs.Stream.Records
import RecordLog.Proofs.Stream.Protocol
import RecordLog.Proofs.Schema.Fields
import RecordLog.Proofs.Schema.Unpacking
import RecordLog.Proofs.Number.DecimalRounding
import RecordLog.Proofs.Number.Numerals
import RecordLog.Proofs.Number.Canonical
import RecordLog.Proofs.Number.Order
import RecordLog.Proofs.Number.DoubleRounding
import RecordLog.Proofs.Number.Nearest
import RecordLog.Proofs.Number.Shortest
import RecordLog.Proofs.Number.Texts
import RecordLog.Proofs.Types.Written
import RecordLog.Proofs.Schema.Written
import RecordLog.Proofs.Batch.Grouping
import RecordLog.Proofs.Batch.Validation
import RecordLog.Proofs.Batch.Collection
import RecordLog.Proofs.Schema.Grammar
import RecordLog.Proofs.Schema.Declaration
import RecordLog.Proofs.Text.Names
import RecordLog.Proofs.Schema.Lookup
import RecordLog.Proofs.Schema.Building
import RecordLog.Proofs.Wire.Conversion
import RecordLog.Proofs.Wire.Layout
import RecordLog.Proofs.Client.Actions
import RecordLog.Proofs.Client.Operations
import RecordLog.Proofs.Client.Requests
import RecordLog.Proofs.Client.Checks
import RecordLog.Proofs.Client.Connection
import RecordLog.Proofs.Client.Reading
import RecordLog.Proofs.Store.Logs
import RecordLog.Proofs.Store.ReadBack
import RecordLog.Proofs.Types.Name
import RecordLog.Proofs.Schema.Rendering
import RecordLog.Proofs.Batch.Refusals
import RecordLog.Proofs.Schema.Decoding
import RecordLog.Proofs.Client.Agreement
import RecordLog.Proofs.Types.Acceptance
import RecordLog.Proofs.Number.Readings
import RecordLog.Proofs.Types.Narrowing
import RecordLog.Proofs.Types.FloatTexts
import RecordLog.Proofs.Types.IntegerNumerals
import RecordLog.Proofs.Types.IntegerOrder
import RecordLog.Proofs.Client.IntegerRows
import RecordLog.Proofs.Schema.TextRows
import RecordLog.Proofs.Schema.Mixing
import RecordLog.Proofs.Schema.Recasing
