import RecordLog.Proofs.Batch.Validation
import RecordLog.Proofs.Client.Runs
import RecordLog.Proofs.Number.DecimalRounding

/-!
# Requests are well formed

Whatever a client is asked to do, and whatever the service answers, no request leaves the client
that the checks of its operation would not pass. An offset is exchanged as the number that it is:
those that would turn into a negative one are refused, so none is taken for -1, which stands for
all of a log.
-/

namespace RecordLog

attribute [local instance (high)] Zero.ofOfNat0

namespace Operation

/-- The handle of the log that an operation addresses. -/
def handle? : Operation → Option Handle
  | .disconnect | .create .. | .createIn .. | .load .. | .select .. => none
  | .remove h | .addIndex h .. | .addIndexOf _ h .. | .removeIndex h .. | .addFilter h ..
  | .removeFilter h .. | .addAggregate h .. | .removeAggregate h .. | .addTrigger h ..
  | .removeTrigger h .. | .archive h .. | .appendPacked h .. | .append h .. | .appendTexts h ..
  | .appendBatch h .. | .readPacked h .. | .read h .. | .readMany h .. | .readTexts h ..
  | .readManyTexts h .. | .aggregate h .. | .aggregateOf h .. | .filter h .. | .filtered h ..
  | .refined h .. | .alerts h .. | .alertsOf h .. | .count h => some h

/-- The offset that an operation is asked to read at. -/
def readsAt? : Operation → Option UInt64
  | .readPacked _ offset | .read _ offset | .readMany _ offset _ | .readTexts _ offset
  | .readManyTexts _ offset _ => some offset
  | _ => none

end Operation

/-- The window of time that a request is about. -/
def Request.window? : Request → Option (Int64 × Int64)
  | .aggregate _ _ start finish | .filtered _ _ start finish | .refined _ _ _ start finish
  | .alerts _ start finish | .alertsOf _ _ start finish => some (start, finish)
  | _ => none

/-- What is promised of a request that is made for an operation. -/
structure WellFormed (op : Operation) (r : Request) : Prop where
  append : ∀ log record, r = .append log record →
    ∃ h, op.handle? = some h ∧ log = h.id ∧ record.length = h.schema.recordSize
  appendBatch : ∀ log batch, r = .appendBatch log batch →
    ∃ h, op.handle? = some h ∧ log = h.id ∧
      (∀ block ∈ batch.blocks, block.data.length = block.count.toNat * h.schema.recordSize) ∧
      batch.count.toNat = (batch.blocks.map (·.count.toNat)).sum
  window : ∀ start finish, r.window? = some (start, finish) → start ≤ finish
  bucketSize : ∀ log field size, r = .addIndex log field size →
    size.isNaN = false ∧ size.negative = false ∧ 0 < Number.Format.double.magnitude size.rank
  read : ∀ log offset count, r = .read log offset count →
    ∃ requested, op.readsAt? = some requested ∧ offset.toInt = requested.toNat
  archive : ∀ log offset, r = .archive log offset →
    ∃ h requested, op = .archive h requested ∧ log = h.id ∧
      (offset = -1 ↔ requested = none) ∧ ∀ n, requested = some n → offset.toInt = n.toNat

theorem toInt_of_wireOffset {requested : UInt64} {offset : Int64}
    (h : wireOffset requested = .ok offset) : offset.toInt = requested.toNat := by
  unfold wireOffset at h
  split at h
  · next hsmall =>
    obtain rfl := Except.ok.inj h
    exact Int64.toInt_ofNat_of_lt hsmall
  · cases h

theorem ne_neg_one_of_wireOffset {requested : UInt64} {offset : Int64}
    (h : wireOffset requested = .ok offset) : offset ≠ -1 := by
  rintro rfl
  have hint := toInt_of_wireOffset h
  have hneg : (-1 : Int64).toInt = -1 := by decide
  omega

/-- A number is above zero in the sense of the check if its value is. -/
theorem Number.Binary.of_isPositive {f : Number.Format} {x : Number.Binary f}
    (h : x.isPositive = true) :
    x.isNaN = false ∧ x.negative = false ∧ 0 < f.magnitude x.rank := by
  simp only [isPositive, isZero, Bool.and_eq_true, Bool.not_eq_true', decide_eq_false_iff_not] at h
  obtain ⟨⟨hnegative, hzero⟩, hnan⟩ := h
  refine ⟨hnan, hnegative, ?_⟩
  rw [← f.magnitude_zero]
  exact f.magnitude_strictMono (Nat.pos_of_ne_zero hzero)

namespace Allowed

variable {config : Config} {op : Operation} {r : Request}

theorem wellFormed (h : Allowed config op r) : WellFormed op r where
  append := by
    rintro log record rfl
    cases h with
    | appendPacked hsize => exact ⟨_, rfl, rfl, hsize⟩
    | append _ hsize => exact ⟨_, rfl, rfl, hsize⟩
    | appendTexts _ hsize => exact ⟨_, rfl, rfl, hsize⟩
  appendBatch := by
    rintro log batch rfl
    cases h with
    | appendBatch hvalid =>
      obtain ⟨hfilled, hsum⟩ := Batch.validate_eq_ok_iff.mp hvalid
      exact ⟨_, rfl, rfl, fun block hblock => (hfilled block hblock).1, hsum.symm⟩
  window := by
    intro start finish hsome
    cases h with
    | aggregate hwindow | filtered hwindow | refined hwindow | unrefined _ hwindow
    | alerts hwindow | alertsOf hwindow =>
      cases hsome
      exact hwindow
    | _ => cases hsome
  bucketSize := by
    rintro log field size rfl
    cases h with
    | addIndex hsize => exact Number.Binary.of_isPositive hsize
    | addIndexOf hsize => exact Number.Binary.of_isPositive hsize
  read := by
    rintro log offset count rfl
    cases h with
    | readPacked hoffset | read hoffset | readMany hoffset | readTexts hoffset
    | readManyTexts hoffset => exact ⟨_, rfl, toInt_of_wireOffset hoffset⟩
  archive := by
    rintro log offset rfl
    cases h with
    | archiveAll =>
      refine ⟨_, none, rfl, rfl, iff_of_true rfl rfl, ?_⟩
      rintro n ⟨⟩
    | @archive _ requested _ hoffset =>
      refine ⟨_, some requested, rfl, rfl, ?_, ?_⟩
      · exact iff_of_false (ne_neg_one_of_wireOffset hoffset) (Option.some_ne_none requested)
      · rintro _ ⟨⟩
        exact toInt_of_wireOffset hoffset

end Allowed

namespace Client

/-- From connecting until the client is given up, every request is one of the two that connect it
or is made for an operation, the last of which ends the connection; and what is made for an
operation is well formed. A client that cannot be connected makes no other requests. -/
theorem requests_wellFormed {σ : Type} [Service σ] (config : Config) (service : σ)
    (ops : List Operation) :
    match connect config ⟨service, []⟩ with
    | .error (_, s) =>
      ∀ r ∈ s.calls, r = .connect config.host config.port ∨ r = .register ∨ r = .close
    | .ok c =>
      (c.after ops).drop.session.calls =
          [.connect config.host config.port, .register] ++
            (c.made (ops ++ [.disconnect])).map Prod.snd ∧
        ∀ op r, (op, r) ∈ c.made (ops ++ [.disconnect]) → WellFormed op r := by
  have hconnected := connect_connected config (⟨service, []⟩ : Session σ)
  generalize connect config ⟨service, []⟩ = outcome at hconnected
  cases hconnected with
  | unopened hopen =>
    intro r hr
    rw [Session.calls_of_call hopen] at hr
    exact .inl (List.mem_singleton.mp hr)
  | unregistered hopen hregister =>
    intro r hr
    rw [Session.call_calls, Session.calls_of_call hregister, Session.calls_of_call hopen] at hr
    simpa using hr
  | @registered t u hopen hregister =>
    obtain ⟨hmade, hall⟩ := made_allowed ⟨config, true, u⟩ (ops ++ [.disconnect])
    have hcalls : u.calls = [.connect config.host config.port, .register] := by
      rw [Session.calls_of_call hregister, Session.calls_of_call hopen]
      rfl
    refine ⟨?_, fun op r hr => (hall op r hr).wellFormed⟩
    rw [drop_after, hmade, hcalls]

/-- A service that grants everything but further pages, of which it has none. -/
inductive Granting where
  | granting

namespace Granting

def answer : (r : Request) → Except Fault r.Answer
  | .connect .. | .close | .register | .deregister | .remove .. | .addIndex ..
  | .removeIndex .. | .addFilter .. | .removeFilter .. | .addAggregate ..
  | .removeAggregate .. | .addTrigger .. | .removeTrigger .. | .archive .. => .ok ()
  | .create .. | .load .. | .append .. | .appendBatch .. | .count .. => .ok 0
  | .info .. => .ok ⟨0, []⟩
  | .read .. => .ok []
  | .aggregate .. | .aggregateOf .. => .ok ""
  | .select .. | .filtered .. | .refined .. | .alerts .. | .alertsOf .. =>
    .ok ⟨⟨0, 0, 0, 0⟩, [], false⟩
  | .nextPage .. => .error .disconnected

instance : Service Granting where
  answer r s := (answer r, s)
  backlog _ := 0
  backlog_lt _ _ _ _ h := by cases h

end Granting

/-- Requests are not made for a record that is too short, an offset that would be taken for all of
the log, and a window that ends before it begins. -/
theorem requests_wellFormed_of_refusals :
    let h : Handle := ⟨0, "log", ⟨.timestamp, [], rfl, rfl, rfl, rfl, trivial⟩⟩
    let ops : List Operation := [.appendPacked h [1, 2, 3], .append h 7 [],
      .archive h (some 0xFFFFFFFFFFFFFFFF), .archive h none, .aggregate h "a" 2 1, .readPacked h 16]
    let made : List (Operation × Request) := [(.append h 7 [], .append 0 [7, 0, 0, 0, 0, 0, 0, 0]),
      (.archive h none, .archive 0 (-1)), (.readPacked h 16, .read 0 16 1),
      (.disconnect, .deregister), (.disconnect, .close)]
    ∃ c, connect {} ⟨Granting.granting, []⟩ = .ok c ∧
      (c.after ops).drop.session.calls =
        [.connect "localhost" 9090, .register] ++ made.map Prod.snd ∧
      ∀ op r, (op, r) ∈ made → WellFormed op r := by
  intro h ops made
  let c : Client Granting := ⟨{}, true, ⟨.granting, [.connect "localhost" 9090, .register]⟩⟩
  have hmade : c.made (ops ++ [.disconnect]) = made := by rfl
  have hrun := requests_wellFormed {} Granting.granting ops
  have hconnect : connect {} ⟨Granting.granting, []⟩ = .ok c := rfl
  rw [hconnect] at hrun
  dsimp only at hrun
  rw [hmade] at hrun
  exact ⟨c, hconnect, hrun⟩

end Client

end RecordLog
