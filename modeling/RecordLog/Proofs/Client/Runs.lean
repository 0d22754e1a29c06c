import RecordLog.Proofs.Client.Operations

/-!
# Runs of a client

A run begins with connecting, carries out operations one after the other, and ends when the client
is given up. Every request of it is one of those that connect the client, or is made for one of
the operations.
-/

namespace RecordLog

namespace Client

variable {σ : Type} [Service σ]

/-! ## Connecting -/

/-- What may come of connecting. A client that cannot be registered closes the connection. -/
inductive Connected (config : Config) (s : Session σ) :
    Except (Fault × Session σ) (Client σ) → Prop where
  | unopened {fault : Fault} {t : Session σ}
      (hopen : s.call (.connect config.host config.port) = (.error fault, t)) :
      Connected config s (.error (fault, t))
  | unregistered {fault : Fault} {t u : Session σ}
      (hopen : s.call (.connect config.host config.port) = (.ok (), t))
      (hregister : t.call .register = (.error fault, u)) :
      Connected config s (.error (fault, (u.call .close).2))
  | registered {t u : Session σ}
      (hopen : s.call (.connect config.host config.port) = (.ok (), t))
      (hregister : t.call .register = (.ok (), u)) : Connected config s (.ok ⟨config, true, u⟩)

theorem connect_connected (config : Config) (s : Session σ) :
    Connected config s (connect config s) := by
  rcases hopen : s.call (.connect config.host config.port) with ⟨fault | _, t⟩
  · have hconnect : connect config s = .error (fault, t) := by rw [connect, hopen]
    rw [hconnect]
    exact .unopened hopen
  · rcases hregister : t.call .register with ⟨fault | _, u⟩
    · have hconnect : connect config s = .error (fault, (u.call .close).2) := by
        simp only [connect, hopen, hregister]
      rw [hconnect]
      exact .unregistered hopen hregister
    · have hconnect : connect config s = .ok ⟨config, true, u⟩ := by
        simp only [connect, hopen, hregister]
      rw [hconnect]
      exact .registered hopen hregister

/-! ## Operations one after the other -/

/-- The client behind an operation, whether it succeeded or not. -/
def perform (c : Client σ) (op : Operation) : Client σ := (op.act.run c).2

/-- The client behind operations that are carried out one after the other. -/
def after (c : Client σ) (ops : List Operation) : Client σ := ops.foldl perform c

/-- The requests that operations make, each with the operation that it is made for. -/
def made : Client σ → List Operation → List (Operation × Request)
  | _, [] => []
  | c, op :: rest =>
    let requests := (c.perform op).session.calls.drop c.session.calls.length
    (requests.map fun r => (op, r)) ++ made (c.perform op) rest

theorem disconnect_allowed (c : Client σ) :
    (c.perform .disconnect).config = c.config ∧
      c.session.Extends (Allowed c.config .disconnect) (c.perform .disconnect).session := by
  by_cases hconnected : c.connected
  · have hrun : c.perform .disconnect =
        ⟨c.config, false, (((c.session.call .deregister).2).call .close).2⟩ :=
      congrArg Prod.snd (if_pos hconnected)
    rw [hrun]
    exact ⟨rfl, (Session.Extends.call .deregister _).trans (.call .close _)⟩
  · have hrun : c.perform .disconnect = c := congrArg Prod.snd (if_neg hconnected)
    rw [hrun]
    exact ⟨rfl, .refl c.session⟩

/-- An operation makes no requests but those that it may make. -/
theorem perform_allowed (c : Client σ) (op : Operation) :
    (c.perform op).config = c.config ∧
      c.session.Extends (Allowed c.config op) (c.perform op).session := by
  by_cases hop : op = .disconnect
  · rw [hop]
    exact c.disconnect_allowed
  · have hmakes := Operation.makes hop c
    exact ⟨hmakes.config, hmakes.session⟩

/-- All requests of a run are made for its operations, each for one that may make it. -/
theorem made_allowed (c : Client σ) (ops : List Operation) :
    (c.after ops).session.calls = c.session.calls ++ (c.made ops).map Prod.snd ∧
      ∀ op r, (op, r) ∈ c.made ops → Allowed c.config op r := by
  induction ops generalizing c with
  | nil => exact ⟨(List.append_nil _).symm, fun _ _ h => absurd h List.not_mem_nil⟩
  | cons op rest ih =>
    obtain ⟨hconfig, requests, hcalls, hall⟩ := c.perform_allowed op
    obtain ⟨hrest, hallRest⟩ := ih (c.perform op)
    -- What the session has behind the calls from before is just what the operation added.
    have hmade : c.made (op :: rest) =
        (requests.map fun r => (op, r)) ++ (c.perform op).made rest := by
      rw [made, hcalls, List.drop_left]
    have hnames : (requests.map fun r => (op, r)).map Prod.snd = requests := by
      rw [List.map_map]
      exact List.map_id requests
    constructor
    · rw [hmade, List.map_append, hnames, ← List.append_assoc, ← hcalls]
      exact hrest
    · intro op' r hr
      rw [hmade, List.mem_append] at hr
      rcases hr with hfirst | hlater
      · obtain ⟨q, hq, heq⟩ := List.mem_map.mp hfirst
        obtain ⟨rfl, rfl⟩ := Prod.mk.inj heq
        exact hall q hq
      · rw [← hconfig]
        exact hallRest op' r hlater

/-- To give a client up is to end its connection. -/
theorem drop_after (c : Client σ) (ops : List Operation) :
    (c.after ops).drop = c.after (ops ++ [.disconnect]) := by
  rw [after, after, List.foldl_append]
  rfl

end Client

end RecordLog
