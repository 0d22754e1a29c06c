import RecordLog.Proofs.Client.Checks

/-!
# The life of a connection

A client is connected from its registration until it is disconnected or given up. The first of
these ends the connection, and a fault of the service does not keep it from doing so; a client whose
connection was ended makes no more requests.
-/

namespace RecordLog

/-- Whether a request is for the connection itself. -/
def Request.IsConnection : Request → Prop
  | .connect .. | .close | .register | .deregister => True
  | _ => False

def Operation.isDisconnect : Operation → Bool
  | .disconnect => true
  | _ => false

theorem Operation.isDisconnect_iff {op : Operation} :
    op.isDisconnect = true ↔ op = .disconnect := by
  cases op <;> simp [isDisconnect]

/-- Only the end of the connection makes requests for the connection itself. -/
theorem Allowed.not_isConnection {config : Config} {op : Operation} {r : Request}
    (h : Allowed config op r) (hop : op ≠ .disconnect) : ¬ r.IsConnection := by
  intro hconnection
  cases h with
  | deregister | close => exact hop rfl
  | _ => exact hconnection

namespace Client

variable {σ : Type} [Service σ] {c : Client σ}

/-- What the service answers when it is asked to close the connection, behind having been asked to
deregister the client, whatever it answered to that. -/
def closing (c : Client σ) : Except Fault Unit × Session σ :=
  (c.session.call .deregister).2.call .close

/-- The client behind the end of its connection. -/
def ended (c : Client σ) : Client σ := ⟨c.config, false, c.closing.2⟩

theorem ended_calls (c : Client σ) :
    c.ended.session.calls = c.session.calls ++ [.deregister, .close] := by
  have hclose : c.ended.session.calls = (c.session.call .deregister).2.calls ++ [.close] :=
    Session.call_calls _ _
  rw [hclose, Session.call_calls, List.append_assoc]
  rfl

theorem run_disconnect_of_connected (h : c.connected = true) :
    disconnect.run c = (c.closing.1, c.ended) := if_pos h

theorem run_disconnect_of_disconnected (h : c.connected = false) :
    disconnect.run c = (.ok (), c) := if_neg (Bool.eq_false_iff.mp h)

theorem perform_of_disconnected (h : c.connected = false) (op : Operation) :
    c.perform op = c := by
  by_cases hop : op = .disconnect
  · rw [hop]
    exact congrArg Prod.snd (run_disconnect_of_disconnected h)
  · cases Operation.follows hop c with
    | refused _ hrun => exact congrArg Prod.snd hrun
    | asked next _ hrun =>
      rw [run_request_bind_of_disconnected h] at hrun
      exact congrArg Prod.snd hrun

theorem after_of_disconnected (h : c.connected = false) (ops : List Operation) :
    c.after ops = c := by
  induction ops with
  | nil => rfl
  | cons op rest ih =>
    have hcons : c.after (op :: rest) = (c.perform op).after rest := rfl
    rw [hcons, perform_of_disconnected h, ih]

/-- Operations other than the end of the connection leave it as it is. -/
theorem connected_after {ops : List Operation} (h : ∀ op ∈ ops, op ≠ .disconnect)
    (c : Client σ) : (c.after ops).connected = c.connected := by
  induction ops generalizing c with
  | nil => rfl
  | cons op rest ih =>
    have hfirst : (c.perform op).connected = c.connected :=
      (Operation.makes (h op List.mem_cons_self) c).connected
    have hrest := ih (fun op' hop' => h op' (List.mem_cons_of_mem op hop')) (c.perform op)
    exact hrest.trans hfirst

theorem mem_of_made {op : Operation} {r : Request} {ops : List Operation}
    (h : (op, r) ∈ c.made ops) : op ∈ ops := by
  induction ops generalizing c with
  | nil => exact absurd h List.not_mem_nil
  | cons first rest ih =>
    rcases List.mem_append.mp h with hfirst | hlater
    · obtain ⟨q, -, heq⟩ := List.mem_map.mp hfirst
      obtain rfl := congrArg Prod.fst heq
      exact List.mem_cons_self
    · exact List.mem_cons_of_mem first (ih hlater)

/-- The operations in front of the first that ends the connection. -/
def beforeEnd (ops : List Operation) : List Operation := ops.takeWhile (!·.isDisconnect)

theorem ne_disconnect_of_mem_beforeEnd {op : Operation} {ops : List Operation}
    (h : op ∈ beforeEnd ops) : op ≠ .disconnect := by
  rintro rfl
  cases List.all_eq_true.mp List.all_takeWhile _ h

theorem beforeEnd_cons_disconnect (rest : List Operation) :
    beforeEnd (.disconnect :: rest) = [] := List.takeWhile_cons_of_neg Bool.false_ne_true

theorem beforeEnd_cons {op : Operation} (h : op ≠ .disconnect) (rest : List Operation) :
    beforeEnd (op :: rest) = op :: beforeEnd rest := by
  have hkept : (!op.isDisconnect) = true := by
    rw [Bool.not_eq_true', ← Bool.not_eq_true]
    exact fun hend => h (Operation.isDisconnect_iff.mp hend)
  exact List.takeWhile_cons_of_pos hkept

theorem beforeEnd_of_not_mem {ops : List Operation} (h : .disconnect ∉ ops) :
    beforeEnd ops = ops := by
  induction ops with
  | nil => rfl
  | cons op rest ih =>
    obtain ⟨hop, hrest⟩ := List.ne_and_not_mem_of_not_mem_cons h
    rw [beforeEnd_cons (Ne.symm hop), ih hrest]

/-- A connection ends with the first operation that ends it. -/
theorem after_eq_ended (hconnected : c.connected = true) {ops : List Operation}
    (hend : .disconnect ∈ ops) : c.after ops = (c.after (beforeEnd ops)).ended := by
  induction ops generalizing c with
  | nil => exact absurd hend List.not_mem_nil
  | cons op rest ih =>
    have hcons : c.after (op :: rest) = (c.perform op).after rest := rfl
    by_cases hop : op = .disconnect
    · have hended : c.perform .disconnect = c.ended :=
        congrArg Prod.snd (run_disconnect_of_connected hconnected)
      have hsilent : c.ended.after rest = c.ended := after_of_disconnected rfl rest
      rw [hcons, hop, hended, hsilent, beforeEnd_cons_disconnect]
      rfl
    -- In front of the end the client stays connected, so the end finds a connection.
    · have hnext : (c.perform op).connected = true :=
        (Operation.makes hop c).connected.trans hconnected
      have hlater : .disconnect ∈ rest :=
        (List.mem_cons.mp hend).resolve_left (Ne.symm hop)
      rw [hcons, ih hnext hlater, beforeEnd_cons hop]
      rfl

/-- A client that is given up has its connection ended, if that was not done before. -/
theorem drop_after_eq_ended (hconnected : c.connected = true) (ops : List Operation) :
    (c.after ops).drop = (c.after (beforeEnd ops)).ended := by
  by_cases hend : .disconnect ∈ ops
  · rw [after_eq_ended hconnected hend]
    exact congrArg Prod.snd (run_disconnect_of_disconnected rfl)
  · have hbefore : (c.after ops).connected = true :=
      (connected_after (fun _ hop => ne_of_mem_of_not_mem hop hend) c).trans hconnected
    rw [beforeEnd_of_not_mem hend]
    exact congrArg Prod.snd (run_disconnect_of_connected hbefore)

/-- If the connection cannot be opened, nothing else is asked of the service, and if the client
cannot be registered, the connection is closed again; what the service answers to that is left out
of account. Otherwise the requests that connect the client are followed by those of its operations
up to the first that ends the connection or, if there is none, until the client is given up. There
it is deregistered and the connection closed, and nothing else is asked of the service. Neither of
the two has to succeed for the client to be disconnected from then on. -/
theorem connection_life_cycle (config : Config) (service : σ) (ops : List Operation) :
    let opened := (⟨service, []⟩ : Session σ).call (.connect config.host config.port)
    let registered := opened.2.call .register
    let opening := [.connect config.host config.port, .register]
    match opened.1, registered.1 with
    | .error fault, _ => ∃ s, connect config ⟨service, []⟩ = .error (fault, s) ∧
        s.calls = [.connect config.host config.port]
    | .ok _, .error fault => ∃ s, connect config ⟨service, []⟩ = .error (fault, s) ∧
        s.calls = opening ++ [.close]
    | .ok _, .ok _ => ∃ c, connect config ⟨service, []⟩ = .ok c ∧
        let before := beforeEnd ops
        let last := c.after before
        last.connected = true ∧ last.ended.connected = false ∧
          (∀ op r, (op, r) ∈ c.made before → op ∈ before ∧ ¬ r.IsConnection) ∧
          (c.after ops).drop = last.ended ∧
          last.ended.session.calls =
            opening ++ (c.made before).map Prod.snd ++ [.deregister, .close] ∧
          disconnect.run last = (last.closing.1, last.ended) ∧
          disconnect.run last.ended = (.ok (), last.ended) ∧
          (.disconnect ∉ ops → c.after ops = last) ∧
          (.disconnect ∈ ops → c.after ops = last.ended) := by
  intro opened registered opening
  have hconnected := connect_connected config (⟨service, []⟩ : Session σ)
  generalize connect config ⟨service, []⟩ = outcome at hconnected
  cases hconnected with
  | @unopened fault t hopen =>
    have hopened : opened = (.error fault, t) := hopen
    rw [hopened]
    exact ⟨t, rfl, Session.calls_of_call hopen⟩
  | @unregistered fault t u hopen hregister =>
    have hopened : opened = (.ok (), t) := hopen
    have hregistered : registered = (.error fault, u) :=
      (congrArg (fun o => o.2.call .register) hopened).trans hregister
    rw [hopened, hregistered]
    refine ⟨_, rfl, ?_⟩
    rw [Session.call_calls, Session.calls_of_call hregister, Session.calls_of_call hopen]
    rfl
  | @registered t u hopen hregister =>
    have hopened : opened = (.ok (), t) := hopen
    have hregistered : registered = (.ok (), u) :=
      (congrArg (fun o => o.2.call .register) hopened).trans hregister
    rw [hopened, hregistered]
    let c : Client σ := ⟨config, true, u⟩
    have hcalls : u.calls = opening := by
      rw [Session.calls_of_call hregister, Session.calls_of_call hopen]
      rfl
    refine ⟨c, rfl, ?_⟩
    intro before last
    have hlast : last.connected = true :=
      connected_after (fun _ => ne_disconnect_of_mem_beforeEnd) c
    obtain ⟨hmade, hall⟩ := made_allowed c before
    refine ⟨hlast, rfl, ?_, drop_after_eq_ended rfl ops, ?_, run_disconnect_of_connected hlast,
      run_disconnect_of_disconnected rfl, ?_, after_eq_ended rfl⟩
    · intro op r hr
      have hop := mem_of_made hr
      exact ⟨hop, (hall op r hr).not_isConnection (ne_disconnect_of_mem_beforeEnd hop)⟩
    · rw [ended_calls, hmade]
      have hsession : c.session.calls = opening := hcalls
      rw [hsession]
    · intro hnever
      exact congrArg c.after (beforeEnd_of_not_mem hnever).symm

/-- A service that does not let go of its clients. -/
inductive Clinging where
  | clinging

namespace Clinging

def answer : (r : Request) → Except Fault r.Answer
  | .deregister => .error (.server (.reported "in use"))
  | .close => .error (.transport "lost")
  | r => Granting.answer r

instance : Service Clinging where
  answer r s := (answer r, s)
  backlog _ := 0
  backlog_lt _ _ _ _ h := by cases h

end Clinging

/-- The connection is ended though neither of its last requests succeeds, and only once. -/
theorem connection_life_cycle_of_faults :
    let h : Handle := ⟨0, "log", ⟨.timestamp, [], rfl, rfl, rfl, rfl, trivial⟩⟩
    let ops : List Operation := [.count h, .disconnect, .count h, .disconnect]
    ∃ c : Client Clinging, connect {} ⟨.clinging, []⟩ = .ok c ∧
      let last := c.after [.count h]
      (disconnect.run last).1 = .error (.transport "lost") ∧
        (c.after ops).drop = last.ended ∧ last.ended.connected = false ∧
        last.ended.session.calls =
          [.connect "localhost" 9090, .register, .count 0, .deregister, .close] := by
  intro h ops
  obtain ⟨c, hconnect, -, hended, -, hdrop, hcalls, hfirst, -⟩ :=
    connection_life_cycle {} Clinging.clinging ops
  obtain rfl : ⟨{}, true, ⟨.clinging, [.connect "localhost" 9090, .register]⟩⟩ = c :=
    Except.ok.inj hconnect
  exact ⟨_, hconnect, congrArg Prod.fst hfirst, hdrop, hended, hcalls⟩

end Client

end RecordLog
