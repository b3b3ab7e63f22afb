import SwarmDb.Pbft.ReplicaStorage

/-!
# The actions of a replica, as steps

One lemma for each of the small actions that the handlers are made of: which
step of `SwarmDb.Pbft.Steps` it takes and what it leaves as it is. Most actions
change the operations of the replica only; `Replica.Ops b` says that the rest of
its `pbft` is still that of `b`.
-/

namespace SwarmDb

open Lib Program

/-- The replica differs from one with `b` in its operations only. -/
def Replica.Ops (b : Pbft) (s : Replica) : Prop := s.pbft = { b with operations := s.pbft.operations }

namespace Replica.Ops

variable {b : Pbft} {s : Replica}

theorem refl (s : Replica) : s.Ops s.pbft := rfl

theorem view (h : s.Ops b) : s.pbft.view = b.view := by rw [h]
theorem viewIsValid (h : s.Ops b) : s.pbft.viewIsValid = b.viewIsValid := by rw [h]
theorem acceptedPreprepares (h : s.Ops b) : s.pbft.acceptedPreprepares = b.acceptedPreprepares := by rw [h]

theorem withOperation (h : s.Ops b) (key : OperationKey) (op : MemoryOperation) : (s.withOperation key op).Ops b := by
  show { s.pbft with operations := s.pbft.operations.insert key op } =
    { b with operations := s.pbft.operations.insert key op }
  rw [h]

end Replica.Ops

theorem MemoryOperation.SameVotes.refl (op : MemoryOperation) : op.SameVotes op := ⟨rfl, rfl, rfl, rfl, rfl, rfl⟩

theorem MemoryOperation.binds_recordRequest {node : Node} {env : BznEnvelope} {key : OperationKey}
    (h : node.hash env = .ok key.requestHash) (op : MemoryOperation) :
    op.Binds node key (op.recordRequest node.wire env) := by
  unfold MemoryOperation.recordRequest
  split
  · exact .inr ⟨env, rfl, h⟩
  · exact .inl rfl

theorem MemoryOperation.sameVotes_recordRequest (wire : Wire) (env : BznEnvelope) (op : MemoryOperation) :
    op.SameVotes (op.recordRequest wire env) := by
  unfold MemoryOperation.recordRequest
  split
  · exact ⟨rfl, rfl, rfl, rfl, rfl, rfl⟩
  · exact .refl op

/-- An operation moves from one stage to the next, with the votes of enough peers. -/
theorem MemoryOperation.advanceOperationStage_ok {op op' : MemoryOperation} {stage : OperationStage} {peers : Nat}
    (h : op.advanceOperationStage stage peers = .ok op') : op' = { op with stage := stage } ∧
      (stage = .commit ∧ op.isReadyForCommit peers = true ∧ op.stage = .prepare ∨
        stage = .execute ∧ op.isReadyForExecute peers = true ∧ op.stage = .commit) := by
  cases stage with
  | prepare => cases h
  | commit | execute =>
    rw [advanceOperationStage] at h
    split at h
    · cases h
    · rename_i hready
      cases h
      simpa using hready

theorem emit_ok {e : Effect} {p : Process} (h : (emit e).result p = .ok ()) : p.Emits ((emit e).final p) e := by
  obtain ⟨l, hl⟩ := act_ok h
  rw [emit, hl]
  exact ⟨rfl, rfl, rfl⟩

theorem Node.multicast_ok {node : Node} {msg : BznEnvelope} {p : Process} (h : (node.multicast msg).result p = .ok ()) :
    ∃ msg', node.maybeSigned msg = .ok msg' ∧ p.Emits ((node.multicast msg).final p) (.multicast msg') := by
  unfold multicast at h ⊢
  cases hm : node.maybeSigned msg with
  | error => rw [hm] at h; cases h
  | ok msg' =>
    rw [hm] at h
    rw [final_lift_bind]
    exact ⟨msg', rfl, emit_ok h⟩

variable {e : Fault}

theorem Node.multicast_error {node : Node} {msg : BznEnvelope} {p : Process}
    (h : (node.multicast msg).result p = .error e) : (node.multicast msg).final p = p := by
  unfold multicast at h ⊢
  cases hm : node.maybeSigned msg with
  | error => rfl
  | ok =>
    rw [hm] at h
    rw [final_lift_bind]
    exact act_error h

variable {α : Type}

theorem result_onReplica (m : Program Fault Process α) (s : Replica) :
    (onReplica m).result s = m.result s.toProcess := rfl

theorem final_onReplica (m : Program Fault Process α) (s : Replica) :
    (onReplica m).final s = s.withProcess (m.final s.toProcess) := rfl

theorem result_assignMember (c : Conversion α) (name : Bytes) (put : α → Pbft → Pbft) (value : α)
    (s : Replica) : (assignMember c name put value).result s = (assign c value name []).result s.toProcess := rfl

theorem final_assignMember (c : Conversion α) (name : Bytes) (put : α → Pbft → Pbft) (value : α)
    (s : Replica) : (assignMember c name put value).final s =
      (s.withProcess ((assign c value name []).final s.toProcess)).withPbft (put value s.pbft) := rfl

variable {s : Replica}

theorem assignMember_ok {c : Conversion α} {name : Bytes} {put : α → Pbft → Pbft} {value : α}
    (h : (assignMember c name put value).result s = .ok ()) :
    ∃ q, s.toProcess.Writes q (persistentKey name []) (some (c.toString value)) ∧
      (assignMember c name put value).final s = (s.withProcess q).withPbft (put value s.pbft) :=
  ⟨_, assign_ok h, rfl⟩

theorem assignMember_error {c : Conversion α} {name : Bytes} {put : α → Pbft → Pbft} {value : α}
    (h : (assignMember c name put value).result s = .error e) :
    ((assignMember c name put value).final s).toProcess = s.toProcess := by
  rw [result_assignMember] at h
  rw [final_assignMember, assign_error h]
  rfl

theorem setView_error {v : UInt64} (h : (setView v).result s = .error e) :
    ((setView v).final s).toProcess = s.toProcess := assignMember_error h

theorem setViewIsValid_error {v : Bool} (h : (setViewIsValid v).result s = .error e) :
    ((setViewIsValid v).final s).toProcess = s.toProcess := assignMember_error h

theorem setView_ok {v : UInt64} (h : (setView v).result s = .ok ()) :
    ∃ q, s.toProcess.Writes q (persistentKey viewKey []) (some (Conversion.uint64.toString v)) ∧
      (setView v).final s = (s.withProcess q).withPbft { s.pbft with view := v } := assignMember_ok h

theorem setViewIsValid_ok {v : Bool} (h : (setViewIsValid v).result s = .ok ()) :
    ∃ q, s.toProcess.Writes q (persistentKey viewIsValidKey []) (some (Conversion.bool.toString v)) ∧
      (setViewIsValid v).final s = (s.withProcess q).withPbft { s.pbft with viewIsValid := v } := assignMember_ok h

section

variable {node : Node} {outside : Outside} {ev : Event} {s₀ : Replica} {Q : Unit → Replica → Prop} {P : Replica → Prop}
  {key : OperationKey}

/-- Memory alone leaves no trace. -/
theorem Crash.of_toProcess {s s' : Replica} (h : s'.toProcess = s.toProcess) : Crash node outside ev s₀ s s' :=
  .quiet (by rw [h]; exact .refl s.toProcess)

/-! ## Effects -/

theorem emit_spec {e : Effect}
    (h : ∀ s q, P s → s.toProcess.Emits q e → Step node outside ev s₀ s (s.withProcess q) ∧ Q () (s.withProcess q)) :
    Spec (moves node outside ev s₀) P (onReplica (emit e)) Q :=
  .single (fun s _ _ hs hr => h s _ hs (emit_ok hr)) fun _ _ _ _ hr => .of_toProcess (act_error hr)

theorem emitQuiet_spec {e : Effect} (quiet : e.Quiet)
    (hP : ∀ s q, P s → P (s.withProcess q)) :
    Spec (moves node outside ev s₀) P (onReplica (emit e)) fun _ => P :=
  emit_spec fun s q hs hq => ⟨.emit e quiet q hq, hP s q hs⟩

theorem asyncSignedBroadcast_spec {env : BznEnvelope}
    (h : ∀ s q env', P s → Broadcasts node outside env env' → s.toProcess.Emits q (.multicast env') →
      Step node outside ev s₀ s (s.withProcess q) ∧ Q () (s.withProcess q)) :
    Spec (moves node outside ev s₀) P (asyncSignedBroadcast node outside env) Q := by
  refine .single (fun s _ _ hs hr => ?_) fun _ _ _ _ hr => .of_toProcess (Node.multicast_error hr)
  obtain ⟨env', hb, he⟩ := Node.multicast_ok hr
  exact h s _ env' hs hb he

theorem Broadcasts.payload {env env' : BznEnvelope} (h : Broadcasts node outside env env') :
    env'.payload = env.payload := by
  have hp := Node.maybeSigned_payload h
  exact hp

theorem broadcastAudit_spec (msg : AuditMessage) (hP : ∀ s q, P s → P (s.withProcess q)) :
    Spec (moves node outside ev s₀) P (broadcastAudit node outside msg) fun _ => P := by
  refine asyncSignedBroadcast_spec fun s q env' hs hb he => ⟨.emit _ (fun text ht => ?_) q he, hP s q hs⟩
  rw [hb.payload] at ht
  cases ht

/-! ## Members -/

theorem assignMember_spec {α : Type} {c : Conversion α} {name : Bytes}
    {put : α → Pbft → Pbft} {value : α}
    (h : ∀ s q, P s → s.toProcess.Writes q (persistentKey name []) (some (c.toString value)) →
      Step node outside ev s₀ s ((s.withProcess q).withPbft (put value s.pbft)) ∧
        Q () ((s.withProcess q).withPbft (put value s.pbft))) :
    Spec (moves node outside ev s₀) P (assignMember c name put value) Q :=
  .single (fun s _ _ hs hr => h s _ hs (assign_ok hr)) fun _ _ _ _ hr => .of_toProcess (assign_error hr)

theorem setNextIssuedSequenceNumber_spec {v : UInt64}
    (hv : ∀ s, P s → Numbers node outside ev s₀ s v)
    (h : ∀ s q, P s → s.toProcess.Writes q (persistentKey nextIssuedSequenceNumberKey [])
      (some (Conversion.uint64.toString v)) →
      Q () ((s.withProcess q).withPbft { s.pbft with nextIssuedSequenceNumber := v })) :
    Spec (moves node outside ev s₀) P (setNextIssuedSequenceNumber v) Q :=
  assignMember_spec fun s q hs hw => ⟨.nextIssued v (hv s hs) q hw, h s q hs hw⟩

theorem invalidate_spec
    (h : ∀ s q, P s → Q () ((s.withProcess q).withPbft { s.pbft with viewIsValid := false })) :
    Spec (moves node outside ev s₀) P (setViewIsValid false) Q :=
  assignMember_spec fun s q hs hw => ⟨.invalidate q hw, h s q hs⟩

theorem memory_spec {f : Pbft → Pbft}
    (hf : ∀ b : Pbft, b.SameProtocol (f b)) (h : ∀ s, P s → Q () (s.withPbft (f s.pbft))) :
    Spec (moves node outside ev s₀) P (modifyPbft f) Q :=
  .update fun s _ hs => ⟨.memory _ (hf s.pbft), h s hs⟩

/-! ## Operations -/

theorem modifyOperation_spec {b : Pbft} {f : MemoryOperation → MemoryOperation}
    (hf : ∀ op : MemoryOperation, op.SameVotes (f op) ∧ op.Binds node key (f op)) :
    Spec (moves node outside ev s₀) (Replica.Ops b) (modifyOperation key f) fun _ => Replica.Ops b :=
  .update fun _ _ hs => ⟨.request key _ (hf _).1 (hf _).2, hs.withOperation key _⟩

theorem findOrConstruct_spec {b : Pbft} :
    Spec (moves node outside ev s₀) (Replica.Ops b) (findOrConstruct key) fun _ => Replica.Ops b :=
  modifyOperation_spec fun op => ⟨.refl op, .inl rfl⟩

theorem changeOperation_runFrom (key : OperationKey) (f : MemoryOperation → Except Fault MemoryOperation)
    (s : Replica) :
    (∃ op, f (s.pbft.operations.find key) = .ok op ∧
      (changeOperation key f).runFrom s = (.ok (), s.withOperation key op)) ∨
    ∃ e, (changeOperation key f).runFrom s = (.error e, s) := by
  simp only [changeOperation, runFrom_bind, runFrom_read, runFrom_lift]
  cases f (s.pbft.operations.find key) with
  | ok op => exact .inl ⟨op, rfl, rfl⟩
  | error e => exact .inr ⟨e, rfl⟩

theorem changeOperation_spec
    {f : MemoryOperation → Except Fault MemoryOperation}
    (h : ∀ s op, P s → f (s.pbft.operations.find key) = .ok op →
      Step node outside ev s₀ s (s.withOperation key op) ∧ Q () (s.withOperation key op)) :
    Spec (moves node outside ev s₀) P (changeOperation key f) Q := by
  refine .singleRun fun s _ hs => ?_
  rcases changeOperation_runFrom key f s with ⟨op, hf, hr⟩ | ⟨e, hr⟩
  · exact .inl ⟨(), _, hr, h s op hs hf⟩
  · exact .inr ⟨e, s, hr, .of_toProcess rfl⟩

/-- An operation that is held at a stage. -/
def Pbft.AtStage (b : Pbft) (key : OperationKey) (stage : OperationStage) : Prop :=
  ∃ op, b.operations[key]? = some op ∧ op.stage = stage

theorem advanceOperation_spec {b : Pbft} {stage : OperationStage} (hview : key.view = b.view)
    (hvalid : b.viewIsValid = true) :
    Spec (moves node outside ev s₀) (Replica.Ops b) (advanceOperation node key stage) fun _ s =>
      s.Ops b ∧ s.pbft.AtStage key stage := by
  refine .singleRun fun s _ hs => ?_
  simp only [advanceOperation, runFrom_bind]
  rcases changeOperation_runFrom key (fun op => op.advanceOperationStage stage node.swarmSize) s
    with ⟨op, hop, hr⟩ | ⟨e, hr⟩
  · rw [hr]
    dsimp only
    rw [runFrom_eq, result_onReplica]
    cases he : (emit (.advanced key stage)).result (s.withOperation key op).toProcess with
    | error e => exact .inr ⟨e, _, rfl, .of_toProcess (act_error he)⟩
    | ok u =>
      refine .inl ⟨u, _, rfl, .advance key stage (hview.trans hs.view.symm) (hs.viewIsValid.trans hvalid) op hop _
        (emit_ok he), hs.withOperation key op, op, ?_, congrArg _ (MemoryOperation.advanceOperationStage_ok hop).1⟩
      show (s.pbft.operations.insert key op)[key]? = some op
      rw [Map.lookup_insert, if_pos rfl]
  · rw [hr]
    exact .inr ⟨e, s, rfl, .of_toProcess rfl⟩

/-! ## The three phases -/

section

variable {b : Pbft} {key : OperationKey}

theorem doPreprepared_spec (hview : key.view = b.view) (hvalid : b.viewIsValid = true)
    (haccepted : b.acceptedPreprepares[(⟨key.view, key.sequence⟩ : LogKey)]? = some key) :
    Spec (moves node outside ev s₀) (Replica.Ops b) (doPreprepared node outside key) fun _ => Replica.Ops b := by
  refine asyncSignedBroadcast_spec fun s q env hs hb he => ⟨?_, hs⟩
  exact .broadcastPrepare key (by rw [hs.acceptedPreprepares, haccepted]) (hview.trans hs.view.symm)
    (hs.viewIsValid.trans hvalid) env hb q he

theorem doPrepared_spec (hview : key.view = b.view) (hvalid : b.viewIsValid = true) :
    Spec (moves node outside ev s₀) (Replica.Ops b) (doPrepared node outside key) fun _ => Replica.Ops b := by
  refine (advanceOperation_spec hview hvalid).bind fun _ => asyncSignedBroadcast_spec ?_
  rintro s q env ⟨hs, op, hop, hstage⟩ hb he
  exact ⟨.broadcastCommit key op hop hstage (hview.trans hs.view.symm) (hs.viewIsValid.trans hvalid) env hb q he, hs⟩

theorem attachSession_spec {stage : OperationStage} :
    Spec (moves node outside ev s₀) (fun s => s.Ops b ∧ s.pbft.AtStage key stage) (attachSession key) fun _ s =>
      s.Ops b ∧ s.pbft.AtStage key stage := by
  have hf : ∀ (session : Nat) (op : MemoryOperation),
      op.SameVotes (if op.session?.isNone then { op with session? := some session } else op) ∧
      (if op.session?.isNone then { op with session? := some session } else op).request? = op.request? := by
    intro session op
    split
    · exact ⟨⟨rfl, rfl, rfl, rfl, rfl, rfl⟩, rfl⟩
    · exact ⟨.refl op, rfl⟩
  refine .bind_read fun s _ hs => ?_
  split
  · rename_i session _
    refine .update fun s' _ h => ?_
    subst h
    obtain ⟨hops, op, hop, hstage⟩ := hs
    have hfind : s'.pbft.operations.find key = op := by rw [HeldOperations.find, hop]; rfl
    refine ⟨.request key _ (hf session _).1 (.inl (hf session _).2), hops.withOperation key _, _,
      (Map.lookup_insert ..).trans (if_pos rfl), ?_⟩
    exact (hf session _).1.stage.trans (hfind ▸ hstage)
  · exact .pure fun _ h => h ▸ hs

variable (node key) in
/-- The end of `doCommitted`: the request goes to the service, or a null request in its place. -/
def postOperation : Program Fault Replica Unit := do
  let s ← read
  match (s.pbft.operations.find key).request? with
  | some ⟨swarmId, sender, signature, timestamp, piggybacked, .databaseMsg text⟩ =>
    onReplica (emit (.applyOperation key ⟨swarmId, sender, signature, timestamp, piggybacked, .databaseMsg text⟩))
  | _ => do
    let hash ← lift (node.hash node.nullRequest)
    onReplica (emit (.applyOperation ⟨key.view, key.sequence, hash⟩ node.nullRequest))

theorem postOperation_spec : Spec (moves node outside ev s₀) (fun s => s.Ops b ∧ s.pbft.AtStage key .execute)
    (postOperation node key) fun _ => Replica.Ops b := by
  refine .bind_read fun s _ ⟨hops, op, hop, hstage⟩ => ?_
  have hfind : s.pbft.operations.find key = op := by rw [HeldOperations.find, hop]; rfl
  rw [hfind]
  split
  · rename_i heq
    refine emit_spec fun s' q h he => ?_
    subst h
    exact ⟨.apply key op hop hstage _ _ (.request _ heq _ rfl) q he, hops⟩
  · rename_i hother
    have hdatabase : ∀ request text, op.request? = some request → request.payload ≠ .databaseMsg text := by
      rintro ⟨swarmId, sender, signature, timestamp, piggybacked, payload⟩ text hrequest rfl
      exact hother _ _ _ _ _ _ hrequest
    refine .bind_lift fun hash hhash => emit_spec fun s' q h he => ?_
    subst h
    exact ⟨.apply key op hop hstage _ _ (.null hdatabase hash hhash) q he, hops⟩

theorem doCommitted_spec (hview : key.view = b.view) (hvalid : b.viewIsValid = true) :
    Spec (moves node outside ev s₀) (Replica.Ops b) (doCommitted node outside key) fun _ => Replica.Ops b := by
  refine (advanceOperation_spec hview hvalid).bind fun _ => attachSession_spec.bind fun _ => ?_
  exact .iteBind (fun _ => broadcastAudit_spec _ fun _ _ h => h) (fun _ _ h => h) postOperation_spec

theorem maybeAdvanceOperationState_spec (hview : key.view = b.view) (hvalid : b.viewIsValid = true) :
    Spec (moves node outside ev s₀) (Replica.Ops b) (maybeAdvanceOperationState node outside key) fun _ =>
      Replica.Ops b := by
  refine .bind_read fun s _ hs => .iteBind (R := Replica.Ops b) (fun _ => ?_) (fun _ _ h => h ▸ hs) ?_
  · exact (doPrepared_spec hview hvalid).pre fun _ h => h ▸ hs
  · refine .bind_read fun s' _ hs' => .ite (fun _ => ?_) fun _ => .pure fun _ h => h ▸ hs'
    exact (doCommitted_spec hview hvalid).pre fun _ h => h ▸ hs'

theorem maybeRecordRequest_spec (requestEnv : BznEnvelope) :
    Spec (moves node outside ev s₀) (Replica.Ops b) (maybeRecordRequest node requestEnv key) fun _ =>
      Replica.Ops b := by
  refine .ite (fun _ => .pure fun _ h => h) fun _ => .bind_lift fun hash hhash =>
    .ite (fun _ => .pure fun _ h => h) fun hsame => modifyOperation_spec fun op => ?_
  rw [ne_eq, not_not] at hsame
  exact ⟨op.sameVotes_recordRequest node.wire requestEnv, op.binds_recordRequest (hsame ▸ hhash)⟩

end

end

/-! ## What leaves a part of `pbft` as it is -/

section

variable {τ α : Type} {g : Pbft → τ}

theorem onReplica_keeps (m : Program Fault Process α) : Keeps (fun s : Replica => g s.pbft) (onReplica m) :=
  fun _ => rfl

theorem modifyPbft_keeps {f : Pbft → Pbft} (hf : ∀ b, g (f b) = g b) :
    Keeps (fun s : Replica => g s.pbft) (modifyPbft f) := fun s => hf s.pbft

theorem assignMember_keeps (c : Conversion α) (name : Bytes) {put : α → Pbft → Pbft} (hput : ∀ v b, g (put v b) = g b)
    (v : α) : Keeps (fun s : Replica => g s.pbft) (assignMember c name put v) :=
  .bind (modifyPbft_keeps (hput v)) fun _ => onReplica_keeps _

end

end SwarmDb
