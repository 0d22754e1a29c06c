import RecordLog.Proofs.Client.Requests
import RecordLog.Proofs.Schema.Packing

/-!
# Checks come before requests

An operation that addresses the service begins with one request, if its arguments pass. They are
looked at before the connection is, but for the offset of a read, which is looked at behind it. So
an operation whose arguments are refused, or whose client is disconnected, leaves the client as it
is; any other makes its request, and passes on the fault that it may be answered with.
-/

namespace RecordLog

variable {σ : Type} {α : Type}

/-- Whether a fault is about the arguments of an operation. -/
def Fault.IsRefusal : Fault → Prop
  | .schema _ | .encoding _ | .argument _ => True
  | .type _ | .decoding _ | .disconnected | .transport _ | .server _ | .io _ => False

namespace Operation

/-- A request over a window of time, which must not end before it begins. -/
def inWindow (start finish : Int64) (r : Request) : Except Fault Request :=
  if start ≤ finish then .ok r else .error (.argument (.window start finish))

/-- A request for an index, whose bucket size has to be a number above zero. -/
def withBuckets (bucketSize : Number.Double) (h : Handle) (field : String) :
    Except Fault Request :=
  if bucketSize.isPositive then .ok (.addIndex h.id field bucketSize)
  else .error (.argument (.bucketSize bucketSize))

/-- A request that carries an offset. -/
def atOffset (offset : UInt64) (r : Int64 → Request) : Except Fault Request :=
  if offset.toNat < UInt64.size / 2 then .ok (r (Int64.ofNat offset.toNat))
  else .error (.argument (.offset offset))

/-- A request that carries one record. -/
def withRecord (h : Handle) (record : Bytes) : Except Fault Request :=
  if record.length = h.schema.recordSize then .ok (.append h.id record)
  else .error (.argument (.recordSize h.schema.recordSize record.length))

/-- A request that carries a batch. -/
def withBatch (h : Handle) (batch : Batch) : Except Fault Request :=
  match batch.validate h.schema.recordSize with
  | .ok _ => .ok (.appendBatch h.id batch)
  | .error cause => .error (.argument cause)

/-- The request that an operation begins with for a client with a certain setup, or the fault that
its arguments are refused with. -/
def opening (config : Config) : Operation → Except Fault Request
  | .disconnect => .ok .deregister
  | .create name schema => .ok (.create name schema.toWire config.mode)
  | .createIn mode name schema => .ok (.create name schema.toWire mode)
  | .load name => .ok (.load name)
  | .select name => .ok (.info name)
  | .remove h => .ok (.remove h.id)
  | .addIndex h field => withBuckets config.bucketSize h field
  | .addIndexOf bucketSize h field => withBuckets bucketSize h field
  | .removeIndex h field => .ok (.removeIndex h.id field)
  | .addFilter h name expression => .ok (.addFilter h.id name expression)
  | .removeFilter h name => .ok (.removeFilter h.id name)
  | .addAggregate h name predicate expression =>
    .ok (.addAggregate h.id name predicate expression)
  | .removeAggregate h name => .ok (.removeAggregate h.id name)
  | .addTrigger h name expression => .ok (.addTrigger h.id name expression)
  | .removeTrigger h name => .ok (.removeTrigger h.id name)
  | .archive h none => .ok (.archive h.id (-1))
  | .archive h (some offset) => atOffset offset (.archive h.id)
  | .appendPacked h record => withRecord h record
  | .append h now values => (h.schema.pack now values).map (.append h.id)
  | .appendTexts h now texts => (h.schema.packTexts now texts).map (.append h.id)
  | .appendBatch h batch => withBatch h batch
  | .readPacked h offset | .read h offset | .readTexts h offset =>
    atOffset offset fun start => .read h.id start 1
  | .readMany h offset limit | .readManyTexts h offset limit =>
    atOffset offset fun start => .read h.id start limit
  | .aggregate h name start finish =>
    inWindow start finish (.aggregate h.id name start finish)
  | .aggregateOf h expression predicate => .ok (.aggregateOf h.id expression predicate)
  | .filter h expression _ => .ok (.select h.id expression)
  | .filtered h name start finish _ =>
    inWindow start finish (.filtered h.id name start finish)
  | .refined h name expression start finish _ =>
    inWindow start finish
      (if Text.trim expression = "" then .filtered h.id name start finish
      else .refined h.id name expression start finish)
  | .alerts h start finish _ => inWindow start finish (.alerts h.id start finish)
  | .alertsOf h trigger start finish _ =>
    inWindow start finish (.alertsOf h.id trigger start finish)
  | .count h => .ok (.count h.id)

/-- The fault of an operation of a client that is disconnected. The offset of a read is not looked
at any more. -/
def faultDisconnected (config : Config) (op : Operation) : Fault :=
  match op.opening config, op.readsAt? with
  | .error fault, none => fault
  | _, _ => .disconnected

/-- What an operation does behind the answer to its first request. A log that was loaded is asked
about; a query asks for further pages of its result, but only if it is pulled from; and no other
operation asks for anything. -/
def GoesOn [Service σ] (op : Operation) (d : Client σ) (out : Except Fault α × Client σ) : Prop :=
  match op with
  | .load name =>
    let (info, session) := d.session.call (.info name)
    out.2 = { d with session } ∧ ∀ fault, info = .error fault → out.1 = .error fault
  | .filter h _ asked | .filtered h _ _ _ asked | .refined h _ _ _ _ asked | .alerts h _ _ asked
  | .alertsOf h _ _ _ asked =>
    (asked = [] → out.2 = d) ∧ out.2.config = d.config ∧ out.2.connected = d.connected ∧
      d.session.Extends (Request.IsPageOf h.id) out.2.session
  | _ => out.2 = d

end Operation

namespace Client

variable [Service σ] {c : Client σ} {β : Type}

/-- The client as an action found it, whatever the action ends in. -/
def Quiet (d : Client σ) (out : Except Fault α × Client σ) : Prop := out.2 = d

/-- What an action makes of its arguments: it refuses them, or makes the request that they are for
and goes on from the answer. A late check comes behind that of the connection. -/
inductive Follows (act : Action σ α) (opening : Except Fault Request) (late : Bool)
    (goesOn : Client σ → Except Fault α × Client σ → Prop) (c : Client σ) : Prop where
  | refused {fault : Fault} (hopening : opening = .error fault)
      (hrun : act.run c = (.error (if late && !c.connected then .disconnected else fault), c))
  | asked {r : Request} (next : r.Answer → Action σ α) (hopening : opening = .ok r)
      (hrun : act.run c = (request r >>= next).run c)
      (hnext : ∀ a d, d.connected = true → goesOn d ((next a).run d))

/-- What comes of an action that goes on from what another one ended in. -/
def resume (next : α → Action σ β) : Except Fault α × Client σ → Except Fault β × Client σ
  | (.ok a, d) => (next a).run d
  | (.error fault, d) => (.error fault, d)

omit [Service σ] in
theorem run_bind_eq_resume (first : Action σ α) (next : α → Action σ β) (c : Client σ) :
    (first >>= next).run c = resume next (first.run c) := by
  rw [run_bind]
  rcases first.run c with ⟨_ | _, _⟩ <;> rfl

theorem run_request_of_connected (hconnected : c.connected = true) (r : Request) :
    (request r).run c =
      ((c.session.call r).1, { c with session := (c.session.call r).2 }) := if_pos hconnected

theorem run_request_of_disconnected (hdisconnected : c.connected = false) (r : Request) :
    (request r).run c = (.error .disconnected, c) := if_neg (Bool.eq_false_iff.mp hdisconnected)

theorem run_request_bind_of_connected (hconnected : c.connected = true) {r : Request}
    (next : r.Answer → Action σ α) :
    (request r >>= next).run c =
      match c.session.call r with
      | (.error fault, session) => (.error fault, { c with session })
      | (.ok a, session) => (next a).run { c with session } := by
  rw [run_bind_eq_resume, run_request_of_connected hconnected]
  rcases c.session.call r with ⟨_ | _, _⟩ <;> rfl

theorem run_request_bind_of_disconnected (hdisconnected : c.connected = false) {r : Request}
    (next : r.Answer → Action σ α) :
    (request r >>= next).run c = (.error .disconnected, c) := by
  rw [run_bind_eq_resume, run_request_of_disconnected hdisconnected]
  rfl

namespace Follows

variable {goesOn : Client σ → Except Fault α × Client σ → Prop} {late : Bool} {act : Action σ α}
  {opening : Except Fault Request}

theorem request (r : Request) : Follows (Client.request r) (.ok r) late Quiet c := by
  refine .asked pure rfl ?_ fun _ _ _ => rfl
  rw [bind_pure]

theorem of_run_eq {act' : Action σ α} (h : Follows act opening late goesOn c)
    (hact : act'.run c = act.run c) : Follows act' opening late goesOn c := by
  cases h with
  | refused hopening hrun => exact .refused hopening (hact.trans hrun)
  | asked next hopening hrun hnext => exact .asked next hopening (hact.trans hrun) hnext

/-- What comes behind an action comes behind its request. -/
theorem bind {goesOn' : Client σ → Except Fault β × Client σ → Prop}
    (h : Follows act opening late goesOn c) (next : α → Action σ β)
    (hnext : ∀ d out, goesOn d out → goesOn' d (resume next out)) :
    Follows (act >>= next) opening late goesOn' c := by
  cases h with
  | refused hopening hrun =>
    refine .refused hopening ?_
    rw [run_bind_eq_resume, hrun]
    rfl
  | asked behind hopening hrun hbehind =>
    refine .asked (fun a => behind a >>= next) hopening ?_ ?_
    · rw [run_bind_eq_resume, hrun, ← run_bind_eq_resume, bind_assoc]
    · intro a d hconnected
      rw [run_bind_eq_resume]
      exact hnext d _ (hbehind a d hconnected)

theorem bind_quiet (h : Follows act opening late Quiet c) {next : α → Action σ β}
    (hnext : ∀ a d, Quiet d ((next a).run d)) : Follows (act >>= next) opening late Quiet c := by
  apply h.bind
  rintro d ⟨_ | a, e⟩ hquiet
  · exact hquiet
  · obtain rfl : e = d := hquiet
    exact hnext a e

end Follows

variable {h : Handle}

/-- A log that was loaded is asked about, and its schema is read from the answer. -/
theorem goesOn_load {name : String} {id : Int64} {d : Client σ} (hconnected : d.connected = true) :
    (Operation.load name).GoesOn d
      ((request (.info name) >>= fun info => lift (Schema.ofWire info.columns) >>= fun schema =>
        pure (⟨id, name, schema⟩ : Handle)).run d) := by
  rw [run_request_bind_of_connected hconnected]
  simp only [Operation.GoesOn]
  rcases d.session.call (.info name) with ⟨fault | info, session⟩
  · refine ⟨rfl, ?_⟩
    rintro _ ⟨⟩
    rfl
  · refine ⟨?_, fun fault hfault => by cases hfault⟩
    dsimp only
    cases Schema.ofWire info.columns <;> rfl

theorem follows_createIn {mode : StorageMode} {name : String} {schema : Schema} :
    Follows (createIn mode name schema) (.ok (.create name schema.toWire mode)) false Quiet c :=
  (Follows.request _).bind_quiet fun _ _ => rfl

theorem follows_addIndexOf {bucketSize : Number.Double} {field : String} :
    Follows (addIndexOf bucketSize h field) (Operation.withBuckets bucketSize h field) false Quiet
      c := by
  unfold addIndexOf Operation.withBuckets
  split
  · exact .request _
  · exact .refused rfl rfl

theorem follows_archive {offset : UInt64} :
    Follows (archive h (some offset)) (Operation.atOffset offset (.archive h.id)) false Quiet
      c := by
  change Follows (lift (wireOffset offset) >>= _) _ _ _ _
  unfold wireOffset Operation.atOffset
  split
  · exact .request _
  · exact .refused rfl rfl

theorem follows_appendPacked {record : Bytes} :
    Follows (appendPacked h record) (Operation.withRecord h record) false Quiet c := by
  unfold appendPacked Operation.withRecord
  by_cases hsize : record.length = h.schema.recordSize
  · rw [if_pos hsize, if_neg (not_not_intro hsize)]
    exact (Follows.request _).bind_quiet fun _ _ => rfl
  · rw [if_neg hsize, if_pos hsize]
    exact .refused rfl rfl

/-- Whatever is packed has the right size, so nothing that was packed is refused for it. -/
theorem follows_packed {packed : Except Fault Bytes}
    (hsize : ∀ record, packed = .ok record → record.length = h.schema.recordSize) :
    Follows (lift packed >>= fun record => appendPacked h record) (packed.map (.append h.id)) false
      Quiet c := by
  cases packed with
  | error fault => exact .refused rfl rfl
  | ok record =>
    have happend : Follows (appendPacked h record) (Operation.withRecord h record) false Quiet c :=
      follows_appendPacked
    rw [Operation.withRecord, if_pos (hsize record rfl)] at happend
    exact happend

theorem follows_appendBatch {batch : Batch} :
    Follows (appendBatch h batch) (Operation.withBatch h batch) false Quiet c := by
  unfold appendBatch Operation.withBatch
  cases batch.validate h.schema.recordSize with
  | error cause => exact .refused rfl rfl
  | ok =>
    have hsent : Follows (Client.request (.appendBatch h.id batch)) (.ok (.appendBatch h.id batch))
        false Quiet c := .request _
    exact hsent.bind_quiet fun _ _ => rfl

theorem run_readBytes (h : Handle) (offset limit : UInt64) (c : Client σ) :
    (readBytes h offset limit).run c =
      if c.connected then
        (lift (wireOffset offset) >>= fun start => request (.read h.id start limit)).run c
      else (.error .disconnected, c) := by
  rw [readBytes, run_bind_eq_resume]
  by_cases hconnected : c.connected
  · have hensure : ensureConnected.run c = (.ok (), c) := if_pos hconnected
    rw [if_pos hconnected, hensure]
    rfl
  · have hensure : ensureConnected.run c = (.error .disconnected, c) := if_neg hconnected
    rw [if_neg hconnected, hensure]
    rfl

/-- The offset of a read is only looked at by a client that is connected. -/
theorem follows_readBytes {offset limit : UInt64} :
    Follows (readBytes h offset limit)
      (Operation.atOffset offset fun start => .read h.id start limit) true Quiet c := by
  unfold Operation.atOffset
  split
  · next hoffset =>
    have hwire : wireOffset offset = .ok (Int64.ofNat offset.toNat) := if_pos hoffset
    have hread : (readBytes h offset limit).run c =
        (Client.request (.read h.id (Int64.ofNat offset.toNat) limit)).run c := by
      rw [run_readBytes, hwire]
      by_cases hconnected : c.connected
      · rw [if_pos hconnected]
        rfl
      · rw [if_neg hconnected]
        exact (if_neg hconnected).symm
    have hsent : Follows (Client.request (.read h.id (Int64.ofNat offset.toNat) limit))
        (.ok (.read h.id (Int64.ofNat offset.toNat) limit)) true Quiet c := .request _
    exact hsent.of_run_eq hread
  · next hoffset =>
    have hwire : wireOffset offset = .error (.argument (.offset offset)) := if_neg hoffset
    refine .refused rfl ?_
    rw [run_readBytes, hwire]
    cases hconnected : c.connected <;> rfl

theorem follows_readPacked {offset : UInt64} :
    Follows (readPacked h offset) (Operation.atOffset offset fun start => .read h.id start 1) true
      Quiet c := by
  apply follows_readBytes.bind_quiet
  intro data d
  dsimp only
  split <;> rfl

theorem follows_read {offset : UInt64} :
    Follows (read h offset) (Operation.atOffset offset fun start => .read h.id start 1) true
      Quiet c := by
  apply follows_readPacked.bind_quiet
  intro data d
  cases (h.schema.own data).mapError Fault.decoding <;> rfl

theorem follows_readMany {offset limit : UInt64} :
    Follows (readMany h offset limit)
      (Operation.atOffset offset fun start => .read h.id start limit) true Quiet c := by
  apply follows_readBytes.bind_quiet
  intro data d
  split <;> rfl

/-! ## Queries -/

/-- A client as an action found it, and a stream over the pages of a log if the action opened
one. -/
def Opened {τ : Type} (pager : τ → Pager) (log : Int64) (d : Client σ)
    (out : Except Fault τ × Client σ) : Prop :=
  out.2 = d ∧ ∀ stream, out.1 = .ok stream → (pager stream).log = log

theorem follows_filter {expression : String} :
    Follows (filter h expression) (.ok (.select h.id expression)) false
      (Opened RecordStream.pager h.id) c :=
  .asked _ rfl rfl fun _ _ _ => ⟨rfl, fun _ => log_of_start⟩

/-- A query over a window of time. -/
theorem follows_window {start finish : Int64} {r : Request} {next : r.Answer → Action σ α}
    {goesOn : Client σ → Except Fault α × Client σ → Prop}
    (hnext : ∀ a d, goesOn d ((next a).run d)) :
    Follows (lift (checkWindow start finish) >>= fun _ => request r >>= next)
      (Operation.inWindow start finish r) false goesOn c := by
  unfold checkWindow Operation.inWindow
  by_cases hwindow : start ≤ finish
  · rw [if_pos hwindow, if_neg (Int64.not_lt.mpr hwindow)]
    exact .asked next rfl rfl fun a d _ => hnext a d
  · rw [if_neg hwindow, if_pos (Int64.not_le.mp hwindow)]
    exact .refused rfl rfl

theorem follows_aggregate {name : String} {start finish : Int64} :
    Follows (aggregate h name start finish)
      (Operation.inWindow start finish (.aggregate h.id name start finish)) false Quiet c := by
  have hwindow : Follows (lift (checkWindow start finish) >>= fun _ =>
      request (.aggregate h.id name start finish) >>= pure)
      (Operation.inWindow start finish (.aggregate h.id name start finish)) false Quiet c :=
    follows_window fun _ _ => rfl
  rw [bind_pure] at hwindow
  exact hwindow

theorem follows_filtered {name : String} {start finish : Int64} :
    Follows (filtered h name start finish)
      (Operation.inWindow start finish (.filtered h.id name start finish)) false
      (Opened RecordStream.pager h.id) c :=
  follows_window fun _ _ => ⟨rfl, fun _ => log_of_start⟩

theorem follows_refined {name expression : String} {start finish : Int64} :
    Follows (refined h name expression start finish)
      (Operation.inWindow start finish
        (if Text.trim expression = "" then .filtered h.id name start finish
        else .refined h.id name expression start finish)) false
      (Opened RecordStream.pager h.id) c := by
  unfold refined
  split
  · exact follows_filtered
  · exact follows_window fun _ _ => ⟨rfl, fun _ => log_of_start⟩

theorem follows_alerts {start finish : Int64} :
    Follows (alerts h start finish)
      (Operation.inWindow start finish (.alerts h.id start finish)) false
      (Opened AlertStream.pager h.id) c := by
  apply follows_window
  intro first d
  refine ⟨rfl, ?_⟩
  rintro _ ⟨⟩
  rfl

theorem follows_alertsOf {trigger : String} {start finish : Int64} :
    Follows (alertsOf h trigger start finish)
      (Operation.inWindow start finish (.alertsOf h.id trigger start finish)) false
      (Opened AlertStream.pager h.id) c := by
  apply follows_window
  intro first d
  refine ⟨rfl, ?_⟩
  rintro _ ⟨⟩
  rfl

/-- Pulls from the stream that a query opens ask for nothing but pages. -/
def Pulled (log : Int64) (asked : List Pull) (d : Client σ) (out : Except Fault α × Client σ) :
    Prop :=
  (asked = [] → out.2 = d) ∧ out.2.config = d.config ∧ out.2.connected = d.connected ∧
    d.session.Extends (Request.IsPageOf log) out.2.session

theorem Follows.pulls {τ : Type} {ask : Pull → τ → Session σ → Reply α × τ × Session σ}
    {asked : List Pull} {pager : τ → Pager} {log : Int64} {late : Bool} {query : Action σ τ}
    {opening : Except Fault Request}
    (hask : ∀ {s : Session σ} (p : Pull) {t : τ} {u : Session σ}, Pages log s (pager t) u →
      Pages log s (pager (ask p t u).2.1) (ask p t u).2.2)
    (h : Follows query opening late (Opened pager log) c) :
    Follows (query >>= pullAll ask asked) opening late (Pulled log asked) c := by
  apply h.bind
  rintro d ⟨_ | stream, e⟩ ⟨hquiet, hlog⟩
  · obtain rfl : e = d := hquiet
    exact ⟨fun _ => rfl, rfl, rfl, .refl _⟩
  · obtain rfl : e = d := hquiet
    -- A pull asks for pages only, and the stream holds on to the log that was queried.
    have hpages := pulls_keep (P := fun t u => Pages log e.session (pager t) u)
      (fun p _ _ => hask p) asked ⟨hlog stream rfl, .refl _⟩
    refine ⟨?_, rfl, rfl, hpages.2⟩
    rintro rfl
    rfl

end Client

/-- Any operation but the end of the connection refuses its arguments, or makes the request that
they are for. -/
theorem Operation.follows [Service σ] {op : Operation} (hop : op ≠ .disconnect) (c : Client σ) :
    Client.Follows op.act (op.opening c.config) op.readsAt?.isSome op.GoesOn c := by
  cases op with
  | disconnect => exact absurd rfl hop
  | create name schema => exact Client.follows_createIn.of_run_eq rfl
  | createIn mode name schema => exact Client.follows_createIn
  | load name =>
    refine .asked _ rfl rfl ?_
    intro id d hconnected
    exact Client.goesOn_load hconnected
  | select name =>
    refine .asked _ rfl rfl ?_
    intro info d _
    cases Schema.ofWire info.columns <;> rfl
  | remove h => exact .request _
  | addIndex h field => exact Client.follows_addIndexOf.of_run_eq rfl
  | addIndexOf bucketSize h field => exact Client.follows_addIndexOf
  | removeIndex h field => exact .request _
  | addFilter h name expression => exact .request _
  | removeFilter h name => exact .request _
  | addAggregate h name predicate expression => exact .request _
  | removeAggregate h name => exact .request _
  | addTrigger h name expression => exact .request _
  | removeTrigger h name => exact .request _
  | archive h offset =>
    cases offset with
    | none => exact .request _
    | some offset => exact Client.follows_archive
  | appendPacked h record => exact Client.follows_appendPacked
  | append h now values => exact Client.follows_packed fun _ => Schema.length_of_pack
  | appendTexts h now texts => exact Client.follows_packed fun _ => Schema.length_of_packTexts
  | appendBatch h batch => exact Client.follows_appendBatch
  | readPacked h offset => exact Client.follows_readPacked
  | read h offset => exact Client.follows_read
  | readMany h offset limit => exact Client.follows_readMany
  | readTexts h offset => exact Client.follows_read.bind_quiet fun _ _ => rfl
  | readManyTexts h offset limit => exact Client.follows_readMany.bind_quiet fun _ _ => rfl
  | aggregate h name start finish => exact Client.follows_aggregate
  | aggregateOf h expression predicate => exact .request _
  | filter h expression asked => exact Client.follows_filter.pulls RecordStream.ask_pages
  | filtered h name start finish asked =>
    exact Client.follows_filtered.pulls RecordStream.ask_pages
  | refined h name expression start finish asked =>
    exact Client.follows_refined.pulls RecordStream.ask_pages
  | alerts h start finish asked => exact Client.follows_alerts.pulls AlertStream.ask_pages
  | alertsOf h trigger start finish asked =>
    exact Client.follows_alertsOf.pulls AlertStream.ask_pages
  | count h =>
    refine .asked _ rfl rfl ?_
    intro n d _
    split <;> rfl

/-! ## Refusals -/

theorem Fault.isRefusal_of_ite {p : Prop} [Decidable p] {r : Request} {cause : ArgumentFault}
    {fault : Fault} (h : (if p then .ok r else .error (.argument cause)) = Except.error fault) :
    fault.IsRefusal := by
  split at h
  · cases h
  · cases h
    trivial

theorem Fault.eq_error_of_map {packed : Except Fault Bytes} {r : Bytes → Request} {fault : Fault}
    (h : packed.map r = .error fault) : packed = .error fault := by
  cases packed with
  | error cause =>
    cases h
    rfl
  | ok => cases h

namespace Schema

variable {s : Schema} {now : UInt64} {fault : Fault}

theorem isRefusal_of_mapError {x : Except EncodingFault α}
    (h : x.mapError .encoding = .error fault) : fault.IsRefusal := by
  cases x with
  | error cause =>
    cases h
    trivial
  | ok => cases h

/-- A row is not packed for its arity or for a value in it. -/
theorem isRefusal_of_pack {values : List Value} (h : s.pack now values = .error fault) :
    fault.IsRefusal := by
  unfold pack at h
  split at h
  · exact isRefusal_of_mapError h
  · split at h
    · cases h
      trivial
    · split at h
      · split at h
        · cases h
          trivial
        · exact isRefusal_of_mapError h
      · cases h
        trivial

theorem isRefusal_of_packTexts {texts : List String} (h : s.packTexts now texts = .error fault) :
    fault.IsRefusal := by
  unfold packTexts at h
  split at h
  · cases h
    trivial
  · split at h
    · cases h
      trivial
    · exact isRefusal_of_pack h

end Schema

/-- What an operation is refused for is in its arguments. -/
theorem Operation.isRefusal_of_opening {op : Operation} {config : Config} {fault : Fault}
    (hfault : op.opening config = .error fault) : fault.IsRefusal := by
  cases op with
  | addIndex | addIndexOf | appendPacked | readPacked | read | readMany | readTexts | readManyTexts
  | aggregate | filtered | refined | alerts | alertsOf => exact Fault.isRefusal_of_ite hfault
  | archive h offset =>
    cases offset with
    | none => cases hfault
    | some offset => exact Fault.isRefusal_of_ite hfault
  | append h now values => exact Schema.isRefusal_of_pack (Fault.eq_error_of_map hfault)
  | appendTexts h now texts => exact Schema.isRefusal_of_packTexts (Fault.eq_error_of_map hfault)
  | appendBatch h batch =>
    rw [opening, withBatch] at hfault
    split at hfault
    · cases hfault
    · cases hfault
      trivial
  | _ => cases hfault

/-- A client that is disconnected is left as it is by any operation, which makes no request; the
fault is that of the arguments if these are refused before the connection is looked at. A client
that is connected is left as it is if the arguments are refused. Otherwise the operation makes the
request that it begins with; a fault of the service is passed on, and no other request is made but
for what a log that was loaded is, and for the pages that are pulled from the result of a query. -/
theorem Operation.refused_or_asked [Service σ] (op : Operation) (hop : op ≠ .disconnect)
    (c : Client σ) :
    (∀ fault, op.opening c.config = .error fault → fault.IsRefusal) ∧
    (c.connected = false → op.act.run c = (.error (op.faultDisconnected c.config), c)) ∧
    (c.connected = true →
      match op.opening c.config with
      | .error fault => op.act.run c = (.error fault, c)
      | .ok r =>
        match c.session.call r with
        | (.error fault, session) => op.act.run c = (.error fault, { c with session })
        | (.ok _, session) => op.GoesOn { c with session } (op.act.run c)) := by
  refine ⟨fun fault => isRefusal_of_opening, ?_, ?_⟩
  · intro hdisconnected
    cases follows hop c with
    | refused hopening hrun =>
      rw [hrun, faultDisconnected, hopening, hdisconnected]
      cases op.readsAt? <;> rfl
    | asked next hopening hrun =>
      rw [hrun, faultDisconnected, hopening,
        Client.run_request_bind_of_disconnected hdisconnected]
  · intro hconnected
    cases follows hop c with
    | refused hopening hrun =>
      rw [hconnected, Bool.not_true, Bool.and_false] at hrun
      rw [hopening]
      exact hrun
    | asked next hopening hrun hnext =>
      rw [hopening, hrun, Client.run_request_bind_of_connected hconnected]
      dsimp only
      split
      · rfl
      · exact hnext _ _ hconnected

/-- An offset that cannot be exchanged is refused before the connection is looked at if a log is
archived, and behind it if a record is read. Loading a log makes two requests, and a fault of the
service is passed on. -/
theorem Operation.refused_or_asked_of_offsets :
    let h : Handle := ⟨0, "log", ⟨.timestamp, [], rfl, rfl, rfl, rfl, trivial⟩⟩
    let offset : UInt64 := 0xFFFFFFFFFFFFFFFF
    let live : Client Client.Granting := ⟨{}, true, ⟨.granting, []⟩⟩
    let closed : Client Client.Granting := ⟨{}, false, ⟨.granting, []⟩⟩
    let lost : Client Script := ⟨{}, true, ⟨⟨[], .transport "lost"⟩, []⟩⟩
    (archive h (some offset)).act.run closed = (.error (.argument (.offset offset)), closed) ∧
      (readPacked h offset).act.run closed = (.error .disconnected, closed) ∧
      (readPacked h offset).act.run live = (.error (.argument (.offset offset)), live) ∧
      ((load "log").act.run live).2.session.calls = [.load "log", .info "log"] ∧
      (count h).act.run lost =
        (.error (.transport "lost"), ⟨{}, true, ⟨⟨[], .transport "lost"⟩, [.count 0]⟩⟩) := by
  intro h offset live closed lost
  refine ⟨?_, ?_, ?_, ?_, ?_⟩
  · exact (refused_or_asked (.archive h (some offset)) (by simp) closed).2.1 rfl
  · exact (refused_or_asked (.readPacked h offset) (by simp) closed).2.1 rfl
  · exact (refused_or_asked (.readPacked h offset) (by simp) live).2.2 rfl
  · have hload := (refused_or_asked (.load "log") (by simp) live).2.2 rfl
    exact congrArg (fun d : Client Client.Granting => d.session.calls) hload.1
  · exact (refused_or_asked (.count h) (by simp) lost).2.2 rfl

end RecordLog
