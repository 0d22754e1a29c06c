import RecordLog.Proofs.Client.Actions

/-!
# Operations of a client

Everything that can be done with a connected client is listed here, with the requests that it may
make of the service. A stream holds on to the client that it was opened with, so a query is one
operation together with all pulls from the stream that it opens.
-/

namespace RecordLog

/-- What a client can be asked to do. -/
inductive Operation where
  | disconnect
  | create (name : String) (schema : Schema)
  | createIn (mode : StorageMode) (name : String) (schema : Schema)
  | load (name : String)
  | select (name : String)
  | remove (h : Handle)
  | addIndex (h : Handle) (field : String)
  | addIndexOf (bucketSize : Number.Double) (h : Handle) (field : String)
  | removeIndex (h : Handle) (field : String)
  | addFilter (h : Handle) (name expression : String)
  | removeFilter (h : Handle) (name : String)
  | addAggregate (h : Handle) (name filter expression : String)
  | removeAggregate (h : Handle) (name : String)
  | addTrigger (h : Handle) (name expression : String)
  | removeTrigger (h : Handle) (name : String)
  | archive (h : Handle) (offset : Option UInt64)
  | appendPacked (h : Handle) (record : Bytes)
  | append (h : Handle) (now : UInt64) (values : List Value)
  | appendTexts (h : Handle) (now : UInt64) (texts : List String)
  | appendBatch (h : Handle) (batch : Batch)
  | readPacked (h : Handle) (offset : UInt64)
  | read (h : Handle) (offset : UInt64)
  | readMany (h : Handle) (offset count : UInt64)
  | readTexts (h : Handle) (offset : UInt64)
  | readManyTexts (h : Handle) (offset count : UInt64)
  | aggregate (h : Handle) (name : String) (start finish : Int64)
  | aggregateOf (h : Handle) (expression filter : String)
  | filter (h : Handle) (expression : String) (asked : List Pull)
  | filtered (h : Handle) (name : String) (start finish : Int64) (asked : List Pull)
  | refined (h : Handle) (name expression : String) (start finish : Int64) (asked : List Pull)
  | alerts (h : Handle) (start finish : Int64) (asked : List Pull)
  | alertsOf (h : Handle) (trigger : String) (start finish : Int64) (asked : List Pull)
  | count (h : Handle)

namespace Operation

/-- What an operation results in if it succeeds. -/
@[reducible] def Answer : Operation → Type
  | .create .. | .createIn .. | .load .. | .select .. => Handle
  | .appendPacked .. | .append .. | .appendTexts .. | .appendBatch .. | .count .. => UInt64
  | .readPacked .. => Bytes
  | .read .. => Record
  | .readMany .. => List Record
  | .readTexts .. => List String
  | .readManyTexts .. => List (List String)
  | .aggregate .. | .aggregateOf .. => String
  | .filter .. | .filtered .. | .refined .. => List (Reply Record)
  | .alerts .. | .alertsOf .. => List (Reply String)
  | .disconnect | .remove .. | .addIndex .. | .addIndexOf .. | .removeIndex .. | .addFilter ..
  | .removeFilter .. | .addAggregate .. | .removeAggregate .. | .addTrigger ..
  | .removeTrigger .. | .archive .. => Unit

variable {σ : Type} [Service σ]

/-- The action that carries an operation out. -/
def act : (op : Operation) → Action σ op.Answer
  | .disconnect => Client.disconnect
  | .create name schema => Client.create name schema
  | .createIn mode name schema => Client.createIn mode name schema
  | .load name => Client.load name
  | .select name => Client.select name
  | .remove h => Client.remove h
  | .addIndex h field => Client.addIndex h field
  | .addIndexOf bucketSize h field => Client.addIndexOf bucketSize h field
  | .removeIndex h field => Client.removeIndex h field
  | .addFilter h name expression => Client.addFilter h name expression
  | .removeFilter h name => Client.removeFilter h name
  | .addAggregate h name predicate expression => Client.addAggregate h name predicate expression
  | .removeAggregate h name => Client.removeAggregate h name
  | .addTrigger h name expression => Client.addTrigger h name expression
  | .removeTrigger h name => Client.removeTrigger h name
  | .archive h offset => Client.archive h offset
  | .appendPacked h record => Client.appendPacked h record
  | .append h now values => Client.append h now values
  | .appendTexts h now texts => Client.appendTexts h now texts
  | .appendBatch h batch => Client.appendBatch h batch
  | .readPacked h offset => Client.readPacked h offset
  | .read h offset => Client.read h offset
  | .readMany h offset limit => Client.readMany h offset limit
  | .readTexts h offset => Client.readTexts h offset
  | .readManyTexts h offset limit => Client.readManyTexts h offset limit
  | .aggregate h name start finish => Client.aggregate h name start finish
  | .aggregateOf h expression predicate => Client.aggregateOf h expression predicate
  | .filter h expression asked => do
    Client.pullAll RecordStream.ask asked (← Client.filter h expression)
  | .filtered h name start finish asked => do
    Client.pullAll RecordStream.ask asked (← Client.filtered h name start finish)
  | .refined h name expression start finish asked => do
    Client.pullAll RecordStream.ask asked (← Client.refined h name expression start finish)
  | .alerts h start finish asked => do
    Client.pullAll AlertStream.ask asked (← Client.alerts h start finish)
  | .alertsOf h trigger start finish asked => do
    Client.pullAll AlertStream.ask asked (← Client.alertsOf h trigger start finish)
  | .count h => Client.count h

end Operation

/-- The requests that an operation of a client with a certain setup may make. Each was checked as
far as the operation can. -/
inductive Allowed (config : Config) : Operation → Request → Prop where
  | deregister : Allowed config .disconnect .deregister
  | close : Allowed config .disconnect .close
  | create {name : String} {schema : Schema} :
      Allowed config (.create name schema) (.create name schema.toWire config.mode)
  | createIn {mode : StorageMode} {name : String} {schema : Schema} :
      Allowed config (.createIn mode name schema) (.create name schema.toWire mode)
  | load {name : String} : Allowed config (.load name) (.load name)
  | loadInfo {name : String} : Allowed config (.load name) (.info name)
  | select {name : String} : Allowed config (.select name) (.info name)
  | remove {h : Handle} : Allowed config (.remove h) (.remove h.id)
  | addIndex {h : Handle} {field : String} (hsize : config.bucketSize.isPositive = true) :
      Allowed config (.addIndex h field) (.addIndex h.id field config.bucketSize)
  | addIndexOf {bucketSize : Number.Double} {h : Handle} {field : String}
      (hsize : bucketSize.isPositive = true) :
      Allowed config (.addIndexOf bucketSize h field) (.addIndex h.id field bucketSize)
  | removeIndex {h : Handle} {field : String} :
      Allowed config (.removeIndex h field) (.removeIndex h.id field)
  | addFilter {h : Handle} {name expression : String} :
      Allowed config (.addFilter h name expression) (.addFilter h.id name expression)
  | removeFilter {h : Handle} {name : String} :
      Allowed config (.removeFilter h name) (.removeFilter h.id name)
  | addAggregate {h : Handle} {name filter expression : String} :
      Allowed config (.addAggregate h name filter expression)
        (.addAggregate h.id name filter expression)
  | removeAggregate {h : Handle} {name : String} :
      Allowed config (.removeAggregate h name) (.removeAggregate h.id name)
  | addTrigger {h : Handle} {name expression : String} :
      Allowed config (.addTrigger h name expression) (.addTrigger h.id name expression)
  | removeTrigger {h : Handle} {name : String} :
      Allowed config (.removeTrigger h name) (.removeTrigger h.id name)
  | archiveAll {h : Handle} : Allowed config (.archive h none) (.archive h.id (-1))
  | archive {h : Handle} {requested : UInt64} {offset : Int64}
      (hoffset : wireOffset requested = .ok offset) :
      Allowed config (.archive h (some requested)) (.archive h.id offset)
  | appendPacked {h : Handle} {record : Bytes} (hsize : record.length = h.schema.recordSize) :
      Allowed config (.appendPacked h record) (.append h.id record)
  | append {h : Handle} {now : UInt64} {values : List Value} {record : Bytes}
      (hpack : h.schema.pack now values = .ok record)
      (hsize : record.length = h.schema.recordSize) :
      Allowed config (.append h now values) (.append h.id record)
  | appendTexts {h : Handle} {now : UInt64} {texts : List String} {record : Bytes}
      (hpack : h.schema.packTexts now texts = .ok record)
      (hsize : record.length = h.schema.recordSize) :
      Allowed config (.appendTexts h now texts) (.append h.id record)
  | appendBatch {h : Handle} {batch : Batch}
      (hvalid : batch.validate h.schema.recordSize = .ok ()) :
      Allowed config (.appendBatch h batch) (.appendBatch h.id batch)
  | readPacked {h : Handle} {requested : UInt64} {offset : Int64}
      (hoffset : wireOffset requested = .ok offset) :
      Allowed config (.readPacked h requested) (.read h.id offset 1)
  | read {h : Handle} {requested : UInt64} {offset : Int64}
      (hoffset : wireOffset requested = .ok offset) :
      Allowed config (.read h requested) (.read h.id offset 1)
  | readMany {h : Handle} {requested count : UInt64} {offset : Int64}
      (hoffset : wireOffset requested = .ok offset) :
      Allowed config (.readMany h requested count) (.read h.id offset count)
  | readTexts {h : Handle} {requested : UInt64} {offset : Int64}
      (hoffset : wireOffset requested = .ok offset) :
      Allowed config (.readTexts h requested) (.read h.id offset 1)
  | readManyTexts {h : Handle} {requested count : UInt64} {offset : Int64}
      (hoffset : wireOffset requested = .ok offset) :
      Allowed config (.readManyTexts h requested count) (.read h.id offset count)
  | aggregate {h : Handle} {name : String} {start finish : Int64} (hwindow : start ≤ finish) :
      Allowed config (.aggregate h name start finish) (.aggregate h.id name start finish)
  | aggregateOf {h : Handle} {expression filter : String} :
      Allowed config (.aggregateOf h expression filter) (.aggregateOf h.id expression filter)
  | filter {h : Handle} {expression : String} {asked : List Pull} :
      Allowed config (.filter h expression asked) (.select h.id expression)
  | filterPage {h : Handle} {expression : String} {asked : List Pull} {d : Descriptor} :
      Allowed config (.filter h expression asked) (.nextPage h.id d)
  | filtered {h : Handle} {name : String} {start finish : Int64} {asked : List Pull}
      (hwindow : start ≤ finish) :
      Allowed config (.filtered h name start finish asked) (.filtered h.id name start finish)
  | filteredPage {h : Handle} {name : String} {start finish : Int64} {asked : List Pull}
      {d : Descriptor} :
      Allowed config (.filtered h name start finish asked) (.nextPage h.id d)
  | refined {h : Handle} {name expression : String} {start finish : Int64} {asked : List Pull}
      (hwindow : start ≤ finish) :
      Allowed config (.refined h name expression start finish asked)
        (.refined h.id name expression start finish)
  /-- A blank expression refines nothing. -/
  | unrefined {h : Handle} {name expression : String} {start finish : Int64} {asked : List Pull}
      (hblank : Text.trim expression = "") (hwindow : start ≤ finish) :
      Allowed config (.refined h name expression start finish asked)
        (.filtered h.id name start finish)
  | refinedPage {h : Handle} {name expression : String} {start finish : Int64}
      {asked : List Pull} {d : Descriptor} :
      Allowed config (.refined h name expression start finish asked) (.nextPage h.id d)
  | alerts {h : Handle} {start finish : Int64} {asked : List Pull} (hwindow : start ≤ finish) :
      Allowed config (.alerts h start finish asked) (.alerts h.id start finish)
  | alertsPage {h : Handle} {start finish : Int64} {asked : List Pull} {d : Descriptor} :
      Allowed config (.alerts h start finish asked) (.nextPage h.id d)
  | alertsOf {h : Handle} {trigger : String} {start finish : Int64} {asked : List Pull}
      (hwindow : start ≤ finish) :
      Allowed config (.alertsOf h trigger start finish asked) (.alertsOf h.id trigger start finish)
  | alertsOfPage {h : Handle} {trigger : String} {start finish : Int64} {asked : List Pull}
      {d : Descriptor} :
      Allowed config (.alertsOf h trigger start finish asked) (.nextPage h.id d)
  | count {h : Handle} : Allowed config (.count h) (.count h.id)

/-! ## What the actions make of it -/

namespace Client

variable {σ : Type} [Service σ] {P : Request → Prop} {h : Handle}

theorem makes_createIn {mode : StorageMode} {name : String} {schema : Schema}
    (hcreate : P (.create name schema.toWire mode)) (c : Client σ) :
    Makes P (createIn mode name schema) c :=
  .bind (.request hcreate c) fun _ _ => .silent rfl

theorem makes_load {name : String} (hload : P (.load name)) (hinfo : P (.info name))
    (c : Client σ) : Makes P (load name) c :=
  .bind (.request hload c) fun _ _ => .bind (.request hinfo _) fun _ _ =>
    .bind_lift fun _ _ => .silent rfl

theorem makes_select {name : String} (hinfo : P (.info name)) (c : Client σ) :
    Makes P (select name) c :=
  .bind (.request hinfo c) fun _ _ => .bind_lift fun _ _ => .silent rfl

theorem makes_addIndexOf {bucketSize : Number.Double} {field : String}
    (hindex : bucketSize.isPositive = true → P (.addIndex h.id field bucketSize))
    (c : Client σ) : Makes P (addIndexOf bucketSize h field) c := by
  unfold addIndexOf
  split
  · next hsize => exact .request (hindex hsize) c
  · exact .silent rfl

theorem makes_archive {offset : Option UInt64} (hall : offset = none → P (.archive h.id (-1)))
    (hsome : ∀ requested sent, offset = some requested → wireOffset requested = .ok sent →
      P (.archive h.id sent)) (c : Client σ) : Makes P (archive h offset) c := by
  unfold archive
  cases offset with
  | none => exact .request (hall rfl) c
  | some requested =>
    apply Makes.bind_lift
    intro sent hsent
    exact .request (hsome requested sent rfl hsent) c

theorem makes_appendPacked {record : Bytes}
    (hsent : record.length = h.schema.recordSize → P (.append h.id record)) (c : Client σ) :
    Makes P (appendPacked h record) c := by
  unfold appendPacked
  split
  · exact .silent rfl
  · next hsize => exact .request_lift (hsent (Decidable.not_not.mp hsize)) _ c

theorem makes_appendBatch {batch : Batch}
    (hsent : batch.validate h.schema.recordSize = .ok () → P (.appendBatch h.id batch))
    (c : Client σ) : Makes P (appendBatch h batch) c := by
  apply Makes.bind_lift
  intro _ hvalid
  cases hchecked : batch.validate h.schema.recordSize with
  | error cause =>
    rw [hchecked] at hvalid
    cases hvalid
  | ok => exact .request_lift (hsent hchecked) _ c

theorem makes_readBytes {requested count : UInt64}
    (hread : ∀ offset, wireOffset requested = .ok offset → P (.read h.id offset count))
    (c : Client σ) : Makes P (readBytes h requested count) c := by
  apply Makes.bind .ensureConnected
  intro _ _
  apply Makes.bind_lift
  intro offset hoffset
  exact .request (hread offset hoffset) _

theorem makes_readPacked {requested : UInt64}
    (hread : ∀ offset, wireOffset requested = .ok offset → P (.read h.id offset 1))
    (c : Client σ) : Makes P (readPacked h requested) c := by
  apply Makes.bind (makes_readBytes hread c)
  intro data _
  dsimp only
  split <;> exact .silent rfl

theorem makes_read {requested : UInt64}
    (hread : ∀ offset, wireOffset requested = .ok offset → P (.read h.id offset 1))
    (c : Client σ) : Makes P (read h requested) c :=
  .bind (makes_readPacked hread c) fun _ _ => .bind_lift fun _ _ => .silent rfl

theorem makes_readMany {requested count : UInt64}
    (hread : ∀ offset, wireOffset requested = .ok offset → P (.read h.id offset count))
    (c : Client σ) : Makes P (readMany h requested count) c := by
  apply Makes.bind (makes_readBytes hread c)
  intro data _
  split <;> exact .silent rfl

theorem le_of_checkWindow {start finish : Int64} (hwindow : checkWindow start finish = .ok ()) :
    start ≤ finish := by
  unfold checkWindow at hwindow
  split at hwindow
  · cases hwindow
  · next hle => exact Int64.not_lt.mp hle

/-- A query over a window of time, and what is made of its first page. -/
theorem makes_window {α : Type} {start finish : Int64} {r : Request} {next : r.Answer → Action σ α}
    (hquery : start ≤ finish → P r) (hsilent : ∀ first d, ((next first).run d).2 = d)
    (c : Client σ) :
    Makes P (lift (checkWindow start finish) >>= fun _ => request r >>= next) c := by
  apply Makes.bind_lift
  intro _ hwindow
  exact .bind (.request (hquery (le_of_checkWindow hwindow)) c) fun first _ =>
    .silent (hsilent first _)

theorem makes_filtered {name : String} {start finish : Int64}
    (hquery : start ≤ finish → P (.filtered h.id name start finish)) (c : Client σ) :
    Makes P (filtered h name start finish) c :=
  makes_window hquery (fun _ _ => rfl) c

theorem makes_refined {name expression : String} {start finish : Int64}
    (hblank : Text.trim expression = "" → start ≤ finish → P (.filtered h.id name start finish))
    (hquery : start ≤ finish → P (.refined h.id name expression start finish)) (c : Client σ) :
    Makes P (refined h name expression start finish) c := by
  unfold refined
  split
  · next htrim => exact makes_filtered (hblank htrim) c
  · exact makes_window hquery (fun _ _ => rfl) c

/-! ## Queries and their streams -/

theorem log_of_start {log : Int64} {s : Schema} {first : Page} {r : RecordStream}
    (hstart : RecordStream.start log s first = .ok r) : r.pager.log = log := by
  unfold RecordStream.start at hstart
  cases hcheck : RecordStream.checkPage s first.data with
  | error fault =>
    rw [hcheck] at hstart
    cases hstart
  | ok =>
    rw [hcheck] at hstart
    obtain rfl := Except.ok.inj hstart
    rfl

theorem ok_of_window {α : Type} {start finish : Int64} {r : Request}
    {next : r.Answer → Action σ α} {c : Client σ} {result : α}
    (hok : ((lift (checkWindow start finish) >>= fun _ => request r >>= next).run c).1 =
      .ok result) :
    ∃ first d, ((next first).run d).1 = .ok result := by
  obtain ⟨_, -, hasked⟩ := ok_of_bind hok
  obtain ⟨first, -, hresult⟩ := ok_of_bind hasked
  exact ⟨first, _, hresult⟩

theorem log_of_filter {expression : String} {c : Client σ} {r : RecordStream}
    (hok : ((filter h expression).run c).1 = .ok r) : r.pager.log = h.id := by
  obtain ⟨first, -, hstart⟩ := ok_of_bind hok
  exact log_of_start hstart

theorem log_of_filtered {name : String} {start finish : Int64} {c : Client σ} {r : RecordStream}
    (hok : ((filtered h name start finish).run c).1 = .ok r) : r.pager.log = h.id := by
  obtain ⟨_, _, hstart⟩ := ok_of_window hok
  exact log_of_start hstart

theorem log_of_refined {name expression : String} {start finish : Int64} {c : Client σ}
    {r : RecordStream} (hok : ((refined h name expression start finish).run c).1 = .ok r) :
    r.pager.log = h.id := by
  unfold refined at hok
  split at hok
  · exact log_of_filtered hok
  · obtain ⟨_, _, hstart⟩ := ok_of_window hok
    exact log_of_start hstart

theorem log_of_alerts {start finish : Int64} {c : Client σ} {a : AlertStream}
    (hok : ((alerts h start finish).run c).1 = .ok a) : a.pager.log = h.id := by
  obtain ⟨_, _, hstart⟩ := ok_of_window hok
  obtain rfl := Except.ok.inj hstart
  rfl

theorem log_of_alertsOf {trigger : String} {start finish : Int64} {c : Client σ} {a : AlertStream}
    (hok : ((alertsOf h trigger start finish).run c).1 = .ok a) : a.pager.log = h.id := by
  obtain ⟨_, _, hstart⟩ := ok_of_window hok
  obtain rfl := Except.ok.inj hstart
  rfl

end Client

/-- Any operation but the end of the connection makes no requests but those that it may make. -/
theorem Operation.makes {σ : Type} [Service σ] {op : Operation} (hop : op ≠ .disconnect)
    (c : Client σ) : Client.Makes (Allowed c.config op) op.act c := by
  cases op with
  | disconnect => exact absurd rfl hop
  | create name schema =>
    apply Client.Makes.bind_get
    exact Client.makes_createIn .create c
  | createIn mode name schema => exact Client.makes_createIn .createIn c
  | load name => exact Client.makes_load .load .loadInfo c
  | select name => exact Client.makes_select .select c
  | remove h => exact .request .remove c
  | addIndex h field =>
    apply Client.Makes.bind_get
    exact Client.makes_addIndexOf .addIndex c
  | addIndexOf bucketSize h field => exact Client.makes_addIndexOf .addIndexOf c
  | removeIndex h field => exact .request .removeIndex c
  | addFilter h name expression => exact .request .addFilter c
  | removeFilter h name => exact .request .removeFilter c
  | addAggregate h name filter expression => exact .request .addAggregate c
  | removeAggregate h name => exact .request .removeAggregate c
  | addTrigger h name expression => exact .request .addTrigger c
  | removeTrigger h name => exact .request .removeTrigger c
  | archive h offset =>
    apply Client.makes_archive
    · rintro rfl
      exact .archiveAll
    · rintro requested sent rfl hsent
      exact .archive hsent
  | appendPacked h record => exact Client.makes_appendPacked .appendPacked c
  | append h now values =>
    apply Client.Makes.bind_lift
    intro record hpack
    exact Client.makes_appendPacked (.append hpack) c
  | appendTexts h now texts =>
    apply Client.Makes.bind_lift
    intro record hpack
    exact Client.makes_appendPacked (.appendTexts hpack) c
  | appendBatch h batch => exact Client.makes_appendBatch .appendBatch c
  | readPacked h offset => exact Client.makes_readPacked (fun _ => .readPacked) c
  | read h offset => exact Client.makes_read (fun _ => .read) c
  | readMany h offset limit => exact Client.makes_readMany (fun _ => .readMany) c
  | readTexts h offset =>
    exact .bind (Client.makes_read (fun _ => .readTexts) c) fun _ _ => .silent rfl
  | readManyTexts h offset limit =>
    exact .bind (Client.makes_readMany (fun _ => .readManyTexts) c) fun _ _ => .silent rfl
  | aggregate h name start finish =>
    apply Client.Makes.bind_lift
    intro _ hwindow
    exact .request (.aggregate (Client.le_of_checkWindow hwindow)) c
  | aggregateOf h expression predicate => exact .request .aggregateOf c
  -- A query makes its own request, and the pulls those for pages of the log that was queried.
  | filter h expression asked =>
    have hquery : Client.Makes (Allowed c.config (.filter h expression asked))
        (Client.filter h expression) c := .request_lift .filter _ c
    apply Client.makes_pulls RecordStream.pager RecordStream.ask_pages hquery
    · exact fun _ => Client.log_of_filter
    · exact fun _ => .filterPage
  | filtered h name start finish asked =>
    apply Client.makes_pulls RecordStream.pager RecordStream.ask_pages
    · exact Client.makes_filtered .filtered c
    · exact fun _ => Client.log_of_filtered
    · exact fun _ => .filteredPage
  | refined h name expression start finish asked =>
    apply Client.makes_pulls RecordStream.pager RecordStream.ask_pages
    · exact Client.makes_refined .unrefined .refined c
    · exact fun _ => Client.log_of_refined
    · exact fun _ => .refinedPage
  | alerts h start finish asked =>
    have hquery : Client.Makes (Allowed c.config (.alerts h start finish asked))
        (Client.alerts h start finish) c := Client.makes_window .alerts (fun _ _ => rfl) c
    apply Client.makes_pulls AlertStream.pager AlertStream.ask_pages hquery
    · exact fun _ => Client.log_of_alerts
    · exact fun _ => .alertsPage
  | alertsOf h trigger start finish asked =>
    have hquery : Client.Makes (Allowed c.config (.alertsOf h trigger start finish asked))
        (Client.alertsOf h trigger start finish) c :=
      Client.makes_window .alertsOf (fun _ _ => rfl) c
    apply Client.makes_pulls AlertStream.pager AlertStream.ask_pages hquery
    · exact fun _ => Client.log_of_alertsOf
    · exact fun _ => .alertsOfPage
  | count h =>
    apply Client.Makes.bind (.request .count c)
    intro n _
    split <;> exact .silent rfl

end RecordLog
