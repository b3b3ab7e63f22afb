import SwarmDb.Pbft.Actions
import SwarmDb.Pbft.NewviewContent

/-!
# How an operation advances

The actions of `maybe_advance_operation_state`, for a replica whose process goes on:
none of them fails, and they change nothing but the operation and the log. The stage
that an operation ends in, and how often it broadcast a COMMIT and was posted on the
way, follow from what it has heard.
-/

namespace SwarmDb

open Lib Program

/-! ## Actions that do not fail -/

/-- The operations of `s'` may differ from those of `s` under a key, where `op` is then,
and its log goes on with `es`. -/
structure Replica.MovesTo (key : OperationKey) (s s' : Replica) (es : List Effect) (op : MemoryOperation) : Prop where
  process : s'.toProcess = { s.toProcess with log := s.log ++ es }
  ops : s'.Ops s.pbft
  find : s'.pbft.operations.find key = op

namespace Replica.MovesTo

variable {key : OperationKey} {s s' s'' : Replica} {es es' : List Effect} {op op' : MemoryOperation}

theorem refl (key : OperationKey) (s : Replica) : s.MovesTo key s [] (s.pbft.operations.find key) where
  process := by rw [List.append_nil]
  ops := rfl
  find := rfl

theorem trans (h : s.MovesTo key s' es op) (h' : s'.MovesTo key s'' es' op') : s.MovesTo key s'' (es ++ es') op' where
  process := by rw [h'.process, h.process, List.append_assoc]
  ops := by
    show s''.pbft = _
    rw [h'.ops, h.ops]
  find := h'.find

theorem lifetime (h : s.MovesTo key s' es op) : s'.lifetime = s.lifetime := by rw [h.process]

theorem log (h : s.MovesTo key s' es op) : s'.log = s.log ++ es := by rw [h.process]

theorem withOperation (key : OperationKey) (s : Replica) (op : MemoryOperation) :
    s.MovesTo key (s.withOperation key op) [] op where
  process := by
    rw [List.append_nil]
    rfl
  ops := rfl
  find := by
    show HeldOperations.find (s.pbft.operations.insert key op) key = op
    rw [HeldOperations.find, Map.lookup_insert, if_pos rfl]
    rfl

end Replica.MovesTo

section

variable {node : Node} {outside : Outside} {key : OperationKey} {s : Replica}

theorem emit_moves (h : s.lifetime = none) (key : OperationKey) (e : Effect) :
    ∃ s', (onReplica (emit e)).runFrom s = (.ok (), s') ∧ s.MovesTo key s' [e] (s.pbft.operations.find key) := by
  have hemit : ∀ p : Process, p.lifetime = none → (emit e).runFrom p = (.ok (), { p with log := p.log ++ [e] }) := by
    rintro ⟨storage, initializedContainers, log, lifetime⟩ rfl
    rfl
  refine ⟨s.withProcess { s.toProcess with log := s.log ++ [e] }, ?_, rfl, rfl, rfl⟩
  rw [runFrom_eq, result_onReplica, final_onReplica, result, final, hemit s.toProcess h]

variable (node outside) in
/-- An envelope with a payload is signed and sent. -/
theorem asyncSignedBroadcast_moves (h : s.lifetime = none) (key : OperationKey) (env : BznEnvelope)
    (henv : env.payload ≠ .notSet) :
    ∃ s' env', env'.payload = env.payload ∧
      (asyncSignedBroadcast node outside env).runFrom s = (.ok (), s') ∧
      s.MovesTo key s' [.multicast env'] (s.pbft.operations.find key) := by
  obtain ⟨env', hsigned⟩ : ∃ env', node.maybeSigned { env with timestamp := outside.now } = .ok env' :=
    node.maybeSigned_isOk henv
  obtain ⟨s', hs', hmoves⟩ := emit_moves h key (.multicast env')
  refine ⟨s', env', by rw [Node.maybeSigned_payload hsigned], ?_, hmoves⟩
  rw [← hs', asyncSignedBroadcast, Node.multicast, hsigned]
  rfl

variable (node outside) in
theorem broadcastPbftMsg_moves (h : s.lifetime = none) (key : OperationKey) (msg : PbftMsg) :
    ∃ s' env, env.payload = .pbft (node.wire.pbftMsg.serialize msg) ∧
      (broadcastPbftMsg node outside msg).runFrom s = (.ok (), s') ∧
      s.MovesTo key s' [.multicast env] (s.pbft.operations.find key) :=
  asyncSignedBroadcast_moves node outside h key (node.pbftEnvelope msg) (by simp [Node.pbftEnvelope])

theorem runFrom_modifyOperation (key : OperationKey) (f : MemoryOperation → MemoryOperation) (s : Replica) :
    (modifyOperation key f).runFrom s = (.ok (), s.withOperation key (f (s.pbft.operations.find key))) := rfl

theorem runFrom_findOrConstruct (key : OperationKey) (s : Replica) :
    (findOrConstruct key).runFrom s = (.ok (), s.withOperation key (s.pbft.operations.find key)) := rfl

theorem changeOperation_moves {f : MemoryOperation → Except Fault MemoryOperation} {op : MemoryOperation}
    (h : f (s.pbft.operations.find key) = .ok op) :
    (changeOperation key f).runFrom s = (.ok (), s.withOperation key op) := by
  rw [changeOperation, runFrom_bind, runFrom_read]
  dsimp only
  rw [runFrom_bind, runFrom_lift, h]
  rfl

/-! ## Advancing -/

variable (node key) in
/-- The broadcast of a COMMIT for an operation. -/
def Effect.commits : Effect → Bool
  | .multicast env => decide (env.payload = .pbft (node.wire.pbftMsg.serialize (commonMessageSetup key .commit)))
  | _ => false

variable (key) in
/-- The posting of an operation for execution, or of one that does nothing in its place. -/
def Effect.posts : Effect → Bool
  | .applyOperation posted _ => decide (posted.view = key.view ∧ posted.sequence = key.sequence)
  | _ => false

@[simp] theorem Effect.commits_advanced (k : OperationKey) (stage : OperationStage) :
    Effect.commits node key (.advanced k stage) = false := rfl

@[simp] theorem Effect.posts_advanced (k : OperationKey) (stage : OperationStage) :
    Effect.posts key (.advanced k stage) = false := rfl

@[simp] theorem Effect.posts_multicast (env : BznEnvelope) : Effect.posts key (.multicast env) = false := rfl

/-- The stage of an operation that has gone on as far as it can. -/
def stageOf (prepared committed : Bool) : OperationStage :=
  if prepared then if committed then .execute else .commit else .prepare

/-- Enough commits were seen. -/
def MemoryOperation.hasCommits (peers : Nat) (op : MemoryOperation) : Bool :=
  decide (op.commitsSeen.card ≥ honestMajoritySize peers)

variable {op : MemoryOperation}

theorem advanceOperation_moves (hlife : s.lifetime = none) {stage : OperationStage} {op' : MemoryOperation}
    (hfind : s.pbft.operations.find key = op) (hop : op.advanceOperationStage stage node.swarmSize = .ok op') :
    ∃ s', (advanceOperation node key stage).runFrom s = (.ok (), s') ∧ s.MovesTo key s' [.advanced key stage] op' := by
  have hmoves := Replica.MovesTo.withOperation key s op'
  obtain ⟨s', hs', hmoves'⟩ := emit_moves (hmoves.lifetime.trans hlife) key (.advanced key stage)
  refine ⟨s', ?_, hmoves.find ▸ hmoves.trans hmoves'⟩
  rw [← hfind] at hop
  rw [advanceOperation, runFrom_bind_ok (changeOperation_moves hop)]
  exact hs'

variable (outside) in
theorem doPrepared_moves (hlife : s.lifetime = none) (hfind : s.pbft.operations.find key = op)
    (hstage : op.stage = .prepare) (hready : op.isReadyForCommit node.swarmSize = true) :
    ∃ s' es, (doPrepared node outside key).runFrom s = (.ok (), s') ∧
      s.MovesTo key s' es { op with stage := .commit } ∧
      es.countP (Effect.commits node key) = 1 ∧ es.countP (Effect.posts key) = 0 := by
  have hop : op.advanceOperationStage .commit node.swarmSize = .ok { op with stage := .commit } := by
    rw [MemoryOperation.advanceOperationStage, if_neg]
    simp [hready, hstage]
  obtain ⟨s₁, hs₁, hmoves₁⟩ := advanceOperation_moves hlife hfind hop
  obtain ⟨s₂, env, henv, hs₂, hmoves₂⟩ := broadcastPbftMsg_moves node outside
    (hmoves₁.lifetime.trans hlife) key (commonMessageSetup key .commit)
  refine ⟨s₂, _, ?_, hmoves₁.find ▸ hmoves₁.trans hmoves₂, ?_, ?_⟩
  · rw [doPrepared, runFrom_bind_ok hs₁]
    exact hs₂
  · simp [Effect.commits, henv]
  · simp

theorem attachSession_moves (hfind : s.pbft.operations.find key = op) :
    ∃ s' session?, (attachSession key).runFrom s = (.ok (), s') ∧
      s.MovesTo key s' [] { op with session? := session? } := by
  rw [attachSession, runFrom_bind, runFrom_read]
  dsimp only
  cases s.pbft.sessionsWaitingOnForwardedRequests[key.requestHash]? with
  | none => exact ⟨s, op.session?, rfl, hfind ▸ .refl key s⟩
  | some session =>
    dsimp only
    rw [runFrom_modifyOperation, hfind]
    refine ⟨_, if op.session?.isNone then some session else op.session?, rfl, ?_⟩
    have hmoves := Replica.MovesTo.withOperation key s
      (if op.session?.isNone then { op with session? := some session } else op)
    refine ⟨hmoves.process, hmoves.ops, hmoves.find.trans ?_⟩
    split <;> rfl

variable (node) in
/-- Exactly one operation is handed to the service. -/
theorem postOperation_moves (hlife : s.lifetime = none) (key : OperationKey) :
    ∃ s' e, (postOperation node key).runFrom s = (.ok (), s') ∧ s.MovesTo key s' [e] (s.pbft.operations.find key) ∧
      Effect.commits node key e = false ∧ Effect.posts key e = true := by
  rw [postOperation, runFrom_bind, runFrom_read]
  dsimp only
  split
  · obtain ⟨s', hs', hmoves⟩ := emit_moves hlife key (.applyOperation key _)
    exact ⟨s', _, hs', hmoves, rfl, by simp [Effect.posts]⟩
  · obtain ⟨hash, hhash⟩ := node.hash_nullRequest
    obtain ⟨s', hs', hmoves⟩ := emit_moves hlife key (.applyOperation ⟨key.view, key.sequence, hash⟩ node.nullRequest)
    refine ⟨s', _, ?_, hmoves, rfl, by simp [Effect.posts]⟩
    rw [hhash]
    exact hs'

variable (outside) in
theorem doCommitted_moves (hlife : s.lifetime = none) (hfind : s.pbft.operations.find key = op)
    (hstage : op.stage = .commit) (hcommits : op.hasCommits node.swarmSize = true) :
    ∃ s' es session?, (doCommitted node outside key).runFrom s = (.ok (), s') ∧
      s.MovesTo key s' es { op with stage := .execute, session? := session? } ∧
      es.countP (Effect.commits node key) = 0 ∧ es.countP (Effect.posts key) = 1 := by
  have hop : op.advanceOperationStage .execute node.swarmSize = .ok { op with stage := .execute } := by
    rw [MemoryOperation.hasCommits] at hcommits
    rw [MemoryOperation.advanceOperationStage, if_neg]
    simp only [MemoryOperation.isReadyForExecute, MemoryOperation.isPrepared, hcommits, hstage]
    decide
  obtain ⟨s₁, hs₁, hmoves₁⟩ := advanceOperation_moves hlife hfind hop
  obtain ⟨s₂, session?, hs₂, hmoves₂⟩ := attachSession_moves hmoves₁.find
  have hmoves := hmoves₁.trans hmoves₂
  rw [doCommitted, runFrom_bind_ok hs₁, runFrom_bind_ok hs₂]
  dsimp only
  split
  · obtain ⟨s₃, env, henv, hs₃, hmoves₃⟩ := asyncSignedBroadcast_moves node outside (hmoves.lifetime.trans hlife) key
      { (default : BznEnvelope) with payload := .audit (node.wire.auditMessage.serialize
        (.pbftCommit key.requestHash key.sequence node.uuid)) } (by simp)
    rw [hmoves.find] at hmoves₃
    have hmoves := hmoves.trans hmoves₃
    obtain ⟨s₄, e, hs₄, hmoves₄, hcommits', hposts⟩ := postOperation_moves node (hmoves.lifetime.trans hlife) key
    rw [hmoves.find] at hmoves₄
    refine ⟨s₄, _, session?, ?_, hmoves.trans hmoves₄, ?_, ?_⟩
    · rw [broadcastAudit, runFrom_bind_ok hs₃]
      exact hs₄
    · have haudit : Effect.commits node key (.multicast env) = false := by simp [Effect.commits, henv]
      simp [haudit, hcommits']
    · simp [hposts]
  · obtain ⟨s₃, e, hs₃, hmoves₃, hcommits', hposts⟩ := postOperation_moves node (hmoves.lifetime.trans hlife) key
    rw [hmoves.find] at hmoves₃
    refine ⟨s₃, _, session?, hs₃, hmoves.trans hmoves₃, ?_, ?_⟩
    · simp [hcommits']
    · simp [hposts]

variable (node outside) in
theorem executeIfReady_moves (hlife : s.lifetime = none) (hfind : s.pbft.operations.find key = op) :
    ∃ s' es session?, (do
      let s ← read
      let op := s.pbft.operations.find key
      if op.stage = .commit ∧ op.isReadyForExecute node.swarmSize then doCommitted node outside key :
        Program Fault Replica Unit).runFrom s = (.ok (), s') ∧
      s.MovesTo key s' es { op with
        stage := if op.stage = .commit ∧ op.hasCommits node.swarmSize then .execute else op.stage
        session? := session? } ∧
      es.countP (Effect.commits node key) = 0 ∧
      es.countP (Effect.posts key) = if op.stage = .commit ∧ op.hasCommits node.swarmSize then 1 else 0 := by
  have hready : op.stage = .commit ∧ op.isReadyForExecute node.swarmSize = true ↔
      op.stage = .commit ∧ op.hasCommits node.swarmSize = true := by
    refine and_congr_right fun hstage => ?_
    rw [MemoryOperation.isReadyForExecute, MemoryOperation.isPrepared, hstage]
    rfl
  rw [runFrom_bind, runFrom_read]
  dsimp only
  rw [hfind]
  by_cases h : op.stage = .commit ∧ op.hasCommits node.swarmSize = true
  · obtain ⟨s', es, session?, hs', hmoves, hcommits, hposts⟩ := doCommitted_moves outside hlife hfind h.1 h.2
    refine ⟨s', es, session?, ?_, ?_, hcommits, ?_⟩
    · rw [if_pos (hready.mpr h)]
      exact hs'
    · rw [if_pos h]
      exact hmoves
    · rw [if_pos h]
      exact hposts
  · refine ⟨s, [], op.session?, ?_, ?_, rfl, ?_⟩
    · rw [if_neg fun hexecute => h (hready.mp hexecute)]
      rfl
    · rw [if_neg h]
      exact hfind ▸ .refl key s
    · rw [if_neg h]
      rfl

theorem stageOf_execute (committed enough : Bool) (h : committed = true → enough = true) :
    (if stageOf true committed = .commit ∧ enough = true then .execute else stageOf true committed) =
        stageOf true enough ∧
      (if stageOf true committed = .commit ∧ enough = true then 1 else 0) + committed.toNat = enough.toNat := by
  cases committed with
  | false => cases enough <;> exact ⟨rfl, rfl⟩
  | true =>
    rw [h rfl]
    exact ⟨rfl, rfl⟩

/-- An operation that had gone on as far as it could goes on as far as it can now. -/
theorem maybeAdvanceOperationState_moves (hlife : s.lifetime = none) (hfind : s.pbft.operations.find key = op)
    {prepared committed : Bool} (hstage : op.stage = stageOf prepared committed)
    (hprepared : prepared = true → op.isReadyForCommit node.swarmSize = true)
    (hcommitted : committed = true → op.hasCommits node.swarmSize = true) :
    ∃ s' es session?, (maybeAdvanceOperationState node outside key).runFrom s = (.ok (), s') ∧
      s.MovesTo key s' es { op with
        stage := stageOf (op.isReadyForCommit node.swarmSize) (op.hasCommits node.swarmSize)
        session? := session? } ∧
      es.countP (Effect.commits node key) + prepared.toNat = (op.isReadyForCommit node.swarmSize).toNat ∧
      es.countP (Effect.posts key) + (prepared && committed).toNat =
        (op.isReadyForCommit node.swarmSize && op.hasCommits node.swarmSize).toNat := by
  rw [maybeAdvanceOperationState, runFrom_bind, runFrom_read]
  dsimp only
  rw [hfind]
  cases hready : op.isReadyForCommit node.swarmSize with
  | false =>
    -- nothing was prepared before, and nothing is now
    have hnot : prepared = false := by
      cases prepared with
      | false => rfl
      | true => exact absurd (hprepared rfl) (by simp [hready])
    subst hnot
    rw [if_neg (by simp)]
    obtain ⟨s', es, session?, hs', hmoves, hcommits, hposts⟩ := executeIfReady_moves node outside hlife hfind
    rw [hstage] at hmoves hposts
    exact ⟨s', es, session?, hs', hmoves, by rw [hcommits]; rfl, by rw [hposts]; rfl⟩
  | true =>
    cases prepared with
    | false =>
      rw [if_pos ⟨hstage, rfl⟩]
      obtain ⟨s₁, es₁, hs₁, hmoves₁, hcommits₁, hposts₁⟩ := doPrepared_moves outside hlife hfind hstage hready
      obtain ⟨s₂, es₂, session?, hs₂, hmoves₂, hcommits₂, hposts₂⟩ :=
        executeIfReady_moves node outside (hmoves₁.lifetime.trans hlife) hmoves₁.find
      have hexecute := stageOf_execute false (op.hasCommits node.swarmSize) (by simp)
      refine ⟨s₂, es₁ ++ es₂, session?, ?_, ?_, ?_, ?_⟩
      · rw [runFrom_bind_ok hs₁]
        exact hs₂
      · rw [← hexecute.1]
        exact hmoves₁.trans hmoves₂
      · rw [List.countP_append, hcommits₁, hcommits₂]
        rfl
      · rw [List.countP_append, hposts₁, hposts₂, Nat.zero_add, Bool.true_and, ← hexecute.2]
        rfl
    | true =>
      have hnot : ¬ (op.stage = .prepare ∧ true = true) := by
        rw [hstage]
        cases committed <;> decide
      rw [if_neg hnot]
      obtain ⟨s', es, session?, hs', hmoves, hcommits, hposts⟩ := executeIfReady_moves node outside hlife hfind
      have hexecute := stageOf_execute committed _ hcommitted
      rw [hstage] at hmoves hposts
      refine ⟨s', es, session?, hs', ?_, ?_, ?_⟩
      · rw [← hexecute.1]
        exact hmoves
      · rw [hcommits]
        rfl
      · rw [hposts, Bool.true_and, Bool.true_and, hexecute.2]

end

end SwarmDb
