import SwarmDb.Pbft.ReplicaRuns

/-!
# What a replica sends

Every effect of a step is one of a few kinds, each with what was checked before
it (`Emitted`): the messages of the protocol, the advance of an operation and
its execution. The rest is outside the protocol. The same holds of what is sent
by a step in which the process ends (`Step.log`, `Crash.log`).
-/

namespace SwarmDb

open Lib Program

/-- The message of the protocol that an effect sends to every peer. -/
def Effect.said? (node : Node) : Effect → Option PbftMsg
  | multicast env =>
    match env.payload with
    | .pbft text => node.wire.pbftMsg.parse text
    | _ => none
  | _ => none

/-- The messages of the protocol that the processes of a machine have sent. -/
def Machine.said (node : Node) (m : Machine) : List PbftMsg := m.log.filterMap (Effect.said? node)

theorem Effect.said?_eq_some {node : Node} {e : Effect} {msg : PbftMsg} (h : e.said? node = some msg) :
    ∃ env text, e = .multicast env ∧ env.payload = .pbft text ∧ node.wire.pbftMsg.parse text = some msg := by
  unfold said? at h
  split at h
  · rename_i env
    split at h
    · rename_i text hpayload
      exact ⟨env, text, rfl, hpayload, h⟩
    · cases h
  · cases h

section

variable (node : Node) (outside : Outside) (ev : Event) (s₀ s : Replica)

/-- The messages of the protocol that a replica sends in the state `s`. -/
inductive Sends : PbftMsg → Prop
  | prepare (key : OperationKey)
      (accepted : s.pbft.acceptedPreprepares[(⟨key.view, key.sequence⟩ : LogKey)]? = some key)
      (view : key.view = s.pbft.view) (valid : s.pbft.viewIsValid = true) : Sends (commonMessageSetup key .prepare)
  | commit (key : OperationKey) (op : MemoryOperation) (held : s.pbft.operations[key]? = some op)
      (stage : op.stage = .commit) (view : key.view = s.pbft.view) (valid : s.pbft.viewIsValid = true) :
      Sends (commonMessageSetup key .commit)
  | preprepare (msg : PbftMsg) (orders : Orders node ev s₀ s msg) : Sends msg
  | viewchange (msg : PbftMsg) (type : msg.type = .viewchange) (next : s.pbft.lastViewSent < msg.view)
      (invalid : s.pbft.viewIsValid = false) (env : BznEnvelope) (makes : MakesViewchange node outside s msg.view env)
      (payload : env.payload = .pbft (node.wire.pbftMsg.serialize msg)) : Sends msg
  | newview (msg : PbftMsg) (type : msg.type = .newview) (makes : MakesNewview node outside ev s₀ s msg) : Sends msg

/-- The effects of a step from the state `s`. -/
inductive Emitted : Effect → Prop
  | quiet (e : Effect) (quiet : e.Quiet) : Emitted e
  | sends (env : BznEnvelope) (msg : PbftMsg) (payload : env.payload = .pbft (node.wire.pbftMsg.serialize msg))
      (sender : env.sender = node.uuid) (sends : Sends node outside ev s₀ s msg) : Emitted (.multicast env)
  | advanced (key : OperationKey) (stage : OperationStage) (op : MemoryOperation)
      (advances : (s.pbft.operations.find key).advanceOperationStage stage node.swarmSize = .ok op) :
      Emitted (.advanced key stage)
  | applied (key : OperationKey) (op : MemoryOperation) (held : s.pbft.operations[key]? = some op)
      (stage : op.stage = .execute) (key' : OperationKey) (request : BznEnvelope)
      (posts : Posts node key op key' request) : Emitted (.applyOperation key' request)

end

section

variable {node : Node} {outside : Outside} {ev : Event} {s₀ s s' : Replica}

variable {msg : PbftMsg} {env : BznEnvelope} {view : UInt64}

/-- What is said by an effect of a step was checked before it. -/
theorem Emitted.sent {e : Effect} (h : Emitted node outside ev s₀ s e) (hsaid : e.said? node = some msg) :
    Sends node outside ev s₀ s msg := by
  obtain ⟨env, text, rfl, hpayload, hparse⟩ := Effect.said?_eq_some hsaid
  cases h with
  | quiet _ quiet => exact absurd hpayload (quiet text)
  | sends _ _ payload _ sends =>
    rw [payload] at hpayload
    cases hpayload
    rw [Codec.parse_serialize] at hparse
    cases hparse
    exact sends

theorem Emitted.sender (h : Emitted node outside ev s₀ s (.multicast env))
    (hsaid : (Effect.multicast env).said? node = some msg) : env.sender = node.uuid := by
  obtain ⟨_, text, ⟨⟩, hpayload, -⟩ := Effect.said?_eq_some hsaid
  cases h with
  | quiet _ quiet => exact absurd hpayload (quiet text)
  | sends _ _ _ sender => exact sender

/-- What was checked before a message of a type is sent. -/
theorem Sends.checked (h : Sends node outside ev s₀ s msg) :
    match msg.type with
    | .preprepare => Orders node ev s₀ s msg
    | .prepare => s.pbft.acceptedPreprepares[msg.logKey]? = some msg.operationKey ∧
        msg.view = s.pbft.view ∧ s.pbft.viewIsValid = true
    | .commit => (∃ op, s.pbft.operations[msg.operationKey]? = some op ∧ op.stage = .commit) ∧
        msg.view = s.pbft.view ∧ s.pbft.viewIsValid = true
    | .viewchange => s.pbft.viewIsValid = false ∧ ∃ env, MakesViewchange node outside s msg.view env ∧
        env.payload = .pbft (node.wire.pbftMsg.serialize msg)
    | .newview => MakesNewview node outside ev s₀ s msg
    | _ => False := by
  cases h with
  | prepare _ accepted view valid => exact ⟨accepted, view, valid⟩
  | commit _ op held stage view valid => exact ⟨⟨op, held, stage⟩, view, valid⟩
  | preprepare _ orders =>
    rw [orders.type]
    exact orders
  | viewchange _ type _ invalid env makes payload =>
    rw [type]
    exact ⟨invalid, env, makes, payload⟩
  | newview _ type makes =>
    rw [type]
    exact makes

/-- A message that a node has not signed yet leaves it in its own name. -/
theorem Broadcasts.sender {env' : BznEnvelope} (h : Broadcasts node outside env env') (hsender : env.sender = [])
    (hsignature : env.signature = []) : env'.sender = node.uuid := by
  unfold Broadcasts Node.maybeSigned at h
  split at h
  · dsimp only at h
    rw [if_pos hsignature] at h
    obtain ⟨signature, rfl⟩ := cryptoSign_ok h
    exact if_pos hsender
  · cases h
    rfl

theorem MakesViewchange.sender (h : MakesViewchange node outside s view env) : env.sender = node.uuid := by
  obtain ⟨env', hmake, hb⟩ := h
  obtain ⟨proofs, -, hmake⟩ := except_bind_eq_ok.mp hmake
  cases hmake
  exact hb.sender rfl rfl

theorem MakesViewchange.payload (h : MakesViewchange node outside s view env) :
    ∃ msg, env.payload = .pbft (node.wire.pbftMsg.serialize msg) ∧ msg.type = .viewchange ∧ msg.view = view := by
  obtain ⟨env', hmake, hb⟩ := h
  obtain ⟨proofs, -, hmake⟩ := except_bind_eq_ok.mp hmake
  cases hmake
  exact ⟨_, hb.payload, rfl, rfl⟩

theorem MakesNewview.type {nv : PbftMsg} (h : MakesNewview node outside ev s₀ s nv) : nv.type = .newview := by
  obtain ⟨_, _, -, -, -, -, _, _, -, hbuild⟩ := h.stored
  obtain ⟨_, _, rfl, -⟩ := buildNewview_eq_ok hbuild
  rfl

/-- The effects of a step: one, or some that are outside the protocol. -/
theorem Step.log (h : Step node outside ev s₀ s s') :
    ∃ l, s'.log = s.log ++ l ∧ (∀ e ∈ l, Emitted node outside ev s₀ s e) ∧ ((∃ e, l = [e]) ∨ ∀ e ∈ l, e.Quiet) := by
  have hnone : ∀ {q : Process}, q.log = s.log → ∃ l, q.log = s.log ++ l ∧ (∀ e ∈ l, Emitted node outside ev s₀ s e) ∧
      ((∃ e, l = [e]) ∨ ∀ e ∈ l, e.Quiet) := fun {q} hq => ⟨[], hq.trans (List.append_nil _).symm, by simp⟩
  have hone : ∀ {q : Process} {e : Effect}, s.toProcess.Emits q e → Emitted node outside ev s₀ s e →
      ∃ l, q.log = s.log ++ l ∧ (∀ e ∈ l, Emitted node outside ev s₀ s e) ∧ ((∃ e, l = [e]) ∨ ∀ e ∈ l, e.Quiet) :=
    fun {q e} hq he => ⟨[e], hq.log, by simpa using he, .inl ⟨e, rfl⟩⟩
  cases h with
  | memory | executed | request | recordPreprepare | recordVote | saveNewview | deleteOperations => exact hnone rfl
  | nextIssued _ _ _ writes | accept _ _ _ _ _ writes | storeViewchange _ _ _ _ _ _ _ _ writes
  | invalidate _ writes | adoptView _ _ _ _ _ _ _ writes => exact hnone writes.log
  | newview _ _ _ _ _ _ writes _ writes' => exact hnone (writes'.log.trans writes.log)
  | call _ _ _ _ _ frame =>
    obtain ⟨l, hl, he⟩ := frame.log
    exact ⟨l, hl, fun e hmem => .quiet e (he e hmem).quiet, .inr fun e hmem => (he e hmem).quiet⟩
  | emit e quiet _ emits => exact hone emits (.quiet e quiet)
  | broadcastPrepare key accepted view valid env broadcasts _ emits =>
    exact hone emits (.sends env _ broadcasts.payload (broadcasts.sender rfl rfl) (.prepare key accepted view valid))
  | advance key stage _ _ op advances _ emits => exact hone emits (.advanced key stage op advances)
  | broadcastCommit key op held stage view valid env broadcasts _ emits =>
    exact hone emits (.sends env _ broadcasts.payload (broadcasts.sender rfl rfl)
      (.commit key op held stage view valid))
  | apply key op held stage key' request posts _ emits =>
    exact hone emits (.applied key op held stage key' request posts)
  | broadcastPreprepare msg orders _ env broadcasts _ emits =>
    exact hone emits (.sends env msg broadcasts.payload (broadcasts.sender rfl rfl) (.preprepare msg orders))
  | sendViewchange _ next invalid env makes _ emits _ writes =>
    obtain ⟨msg, hpayload, htype, rfl⟩ := makes.payload
    obtain ⟨l, hl, he⟩ := hone emits (.sends env msg hpayload makes.sender
      (.viewchange msg htype next invalid env makes hpayload))
    exact ⟨l, writes.log.trans hl, he⟩
  | sendNewview nv makes env broadcasts _ emits =>
    exact hone emits (.sends env nv broadcasts.payload (broadcasts.sender rfl rfl) (.newview nv makes.type makes))

/-- The effects of a step in which the process ends. -/
theorem Crash.log (h : Crash node outside ev s₀ s s') :
    ∃ l, s'.log = s.log ++ l ∧ (∀ e ∈ l, Emitted node outside ev s₀ s e) ∧ ((∃ e, l = [e]) ∨ ∀ e ∈ l, e.Quiet) := by
  cases h with
  | quiet frame =>
    obtain ⟨l, hl, he⟩ := frame.log
    exact ⟨l, hl, fun e hmem => .quiet e (he e hmem), .inr he⟩
  | enter _ _ _ _ writes => exact ⟨[], writes.log.trans (List.append_nil _).symm, by simp⟩
  | viewchange _ next invalid env makes emits =>
    obtain ⟨msg, hpayload, htype, rfl⟩ := makes.payload
    have hemitted : Emitted node outside ev s₀ s (.multicast env) :=
      .sends env msg hpayload makes.sender (.viewchange msg htype next invalid env makes hpayload)
    exact ⟨[_], emits.log, by simpa using hemitted, .inl ⟨_, rfl⟩⟩

theorem Effect.Quiet.said? {e : Effect} (h : e.Quiet) : e.said? node = none := by
  cases hsaid : e.said? node with
  | none => rfl
  | some =>
    obtain ⟨env, text, rfl, hpayload, -⟩ := Effect.said?_eq_some hsaid
    exact absurd hpayload (h text)

end

end SwarmDb
