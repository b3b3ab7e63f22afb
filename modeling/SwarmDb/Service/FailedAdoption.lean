import SwarmDb.Crud.FailedRequests
import SwarmDb.Pbft.ReplicaRuns
import SwarmDb.Service.DatabaseService

/-!
# States that cannot be decoded

`handle_set_state` hands the state to the service and does not look at the result. Where the state cannot be decoded,
`load_snapshot` has already replaced the stores by what it could read, and the replica goes on with the view of the
NEWVIEW. `failed_adoption_iff` says when nothing is changed.
-/

namespace SwarmDb

open Lib Program

/-! ## The service under the replica -/

/-- `crud` over a `mem_storage`, as the service sees it. -/
def Crud.base (cfg : Crud.Config) (env : Crud.Env) (archive : MemStorage.Archive) (codec : Codec Crud.Request) :
    CrudBase Crud.Request Crud where
  codec := codec
  setRequestHash hash request := { request with header := { request.header with requestHash := hash } }
  handleRequest caller request session := Crud.handleRequest cfg env caller request session
  saveState s := some (archive.save s.storage.kvStore)
  loadState data s :=
    let r := s.storage.loadSnapshot archive data
    (r.1, { s with storage := r.2 })

/-- The states that were handed to the service. -/
def stateCalls (l : List Effect) : List (UInt64 × Bytes) :=
  l.filterMap fun e => match e with
    | .setServiceState sequence data => some (sequence, data)
    | _ => none

theorem stateCalls_append (l l' : List Effect) : stateCalls (l ++ l') = stateCalls l ++ stateCalls l' :=
  List.filterMap_append

/-- The service after the states that were handed to it. -/
def DatabaseService.afterStates {ρ σ : Type} [Inhabited ρ] (crud : CrudBase ρ σ) (uuid : Uuid)
    (l : List (UInt64 × Bytes)) (d : DatabaseService ρ σ) : DatabaseService ρ σ :=
  l.foldl (fun d call => (setServiceState crud uuid call.1 call.2).final d) d

/-! ## What `handle_set_state` does -/

/-- The effects since a state hand no state to the service. -/
def Silent (s s' : Replica) : Prop := ∃ l, s'.log = s.log ++ l ∧ stateCalls l = []

instance : Std.Refl Silent := ⟨fun s => ⟨[], by simp, rfl⟩⟩

instance : IsTrans Replica Silent := ⟨fun _ _ _ ⟨l, hl, hc⟩ ⟨l', hl', hc'⟩ =>
  ⟨l ++ l', by rw [hl', hl, List.append_assoc], by rw [stateCalls_append, hc, hc', List.append_nil]⟩⟩

theorem Silent.of_frame {names : List Bytes} {E : Effect → Prop} {s s' : Replica}
    (h : s.toProcess.Frame names E s'.toProcess) (hE : ∀ e, E e → stateCalls [e] = []) : Silent s s' := by
  obtain ⟨l, hl, he⟩ := h.log
  refine ⟨l, hl, ?_⟩
  rw [stateCalls, List.filterMap_eq_nil_iff]
  intro e hmem
  have h := hE e (he e hmem)
  rw [stateCalls, List.filterMap_eq_nil_iff] at h
  exact h e (List.mem_singleton_self e)

section

variable (node : Node) (outside : Outside)

/-- The loop over the checkpoint messages of a state. -/
def handleProof (msg : PbftMembershipMsg) : Program Fault Replica Unit :=
  forEach msg.checkpointProof fun env => onManager (handleCheckpointMessage node outside env)

/-- The state is for the latest stable checkpoint, once the messages that came
with it were handled, and the replica does not have it or a newer one. -/
def Adopts (msg : PbftMembershipMsg) (s : Replica) : Prop :=
  adoptsState (s.manager.afterProof node msg.checkpointProof) ⟨msg.sequence, msg.stateHash⟩ = true

/-- The NEWVIEW that came with a state, where it can be parsed. -/
def PbftMembershipMsg.newview? (msg : PbftMembershipMsg) : Option (PbftMsg × BznEnvelope) :=
  msg.newviewMsg?.bind fun env => (node.wire.pbftMsg.parse env.pbft).map fun nv => (nv, env)

end

section

variable {node : Node} {outside : Outside}

theorem handleProof_silent (msg : PbftMembershipMsg) : Within Silent (handleProof node outside msg) :=
  .forEach fun env _ => .zoom fun s => by
    have hframe : Within (ManagerFrame (Effect.OfCheckpoints node none)) (handleCheckpointMessage node outside env) :=
      handleCheckpointMessage_emits (fun _ => trivial) env
    refine .of_frame (hframe s.toCheckpointProcess) fun e he => ?_
    cases e <;> first | rfl | cases he

theorem handleProof_pbft (msg : PbftMembershipMsg) : Keeps Replica.pbft (handleProof node outside msg) :=
  .forEach fun _ _ => .zoom fun _ => rfl

theorem assignMember_silent {α : Type} {c : Conversion α} {name : Bytes} {put : α → Pbft → Pbft} (value : α) :
    Within Silent (assignMember c name put value) :=
  .bind (.update fun _ => ⟨[], by simp, rfl⟩) fun _ => .zoom fun s => by
    refine @Silent.of_frame [name] (fun _ => False) _ _ ?_ fun e he => he.elim
    exact Process.Frame.assign (List.mem_singleton_self _) s.toProcess

theorem initiateViewchange_silent (view : Option UInt64) : Within Silent (initiateViewchange node outside view) := by
  refine .bind .read fun s => .ite (.bind (assignMember_silent _) fun _ => .bind (.lift _) fun env =>
    .bind (.zoom fun s => ?_) fun _ => assignMember_silent _) (.pure _)
  refine @Silent.of_frame [] (fun e => ∃ m, e = .multicast m) _ _ ?_ ?_
  · exact Node.multicast_frame (fun msg' _ => ⟨msg', rfl⟩) s.toProcess
  · rintro _ ⟨m, rfl⟩
    rfl

/-- The view and the primary. -/
def Replica.viewAndPrimary (s : Replica) : UInt64 × Option PeerAddress := (s.pbft.view, s.pbft.pinnedPrimary)

theorem onReplica_viewAndPrimary {α : Type} (m : Program Fault Process α) :
    Keeps Replica.viewAndPrimary (onReplica m) := fun _ => rfl

theorem modifyPbft_viewAndPrimary {f : Pbft → Pbft} (hview : ∀ p, (f p).view = p.view)
    (hprimary : ∀ p, (f p).pinnedPrimary = p.pinnedPrimary) : Keeps Replica.viewAndPrimary (modifyPbft f) :=
  fun s => Prod.ext (hview s.pbft) (hprimary s.pbft)

theorem initiateViewchange_viewAndPrimary (view : Option UInt64) :
    Keeps Replica.viewAndPrimary (initiateViewchange node outside view) := by
  have hassign {α : Type} {c : Conversion α} {name : Bytes} {put : α → Pbft → Pbft} (value : α)
      (hview : ∀ p, (put value p).view = p.view) (hprimary : ∀ p, (put value p).pinnedPrimary = p.pinnedPrimary) :
      Keeps Replica.viewAndPrimary (assignMember c name put value) :=
    .bind (modifyPbft_viewAndPrimary hview hprimary) fun _ => onReplica_viewAndPrimary _
  exact .bind .read fun s => .ite
    (.bind (hassign _ (fun _ => rfl) fun _ => rfl) fun _ => .bind (.lift _) fun env =>
      .bind (onReplica_viewAndPrimary _) fun _ => hassign _ (fun _ => rfl) fun _ => rfl) (.pure _)

theorem adoptNewview_silent (env : BznEnvelope) : Within Silent (adoptNewview node outside env) := by
  unfold adoptNewview
  split
  · exact .pure _
  · refine .bind (assignMember_silent _) fun _ => ?_
    unfold setPrimaryFromNewview
    split
    · exact .bind (.update fun _ => ⟨[], by simp, rfl⟩) fun _ => initiateViewchange_silent none
    · exact .update fun _ => ⟨[], by simp, rfl⟩

theorem setPrimaryFromNewview_viewAndPrimary (env : BznEnvelope) (s : Replica) :
    ((setPrimaryFromNewview node outside env).final s).viewAndPrimary = (s.pbft.view, node.peerByUuid env.sender) := by
  unfold setPrimaryFromNewview
  cases node.peerByUuid env.sender with
  | none =>
    rw [modifyPbft, final_update_bind, initiateViewchange_viewAndPrimary]
    rfl
  | some peer => rfl

/-- The view is set first; where it cannot be stored, the primary stays. -/
theorem adoptNewview_viewAndPrimary {env : BznEnvelope} {nv : PbftMsg}
    (hparse : node.wire.pbftMsg.parse env.pbft = some nv)
    (s : Replica) : ((adoptNewview node outside env).final s).viewAndPrimary = (nv.view, node.peerByUuid env.sender) ∨
      ((adoptNewview node outside env).final s).viewAndPrimary = (nv.view, s.pbft.pinnedPrimary) ∧
        (adoptNewview node outside env).result s ≠ .ok () := by
  rw [adoptNewview, hparse]
  cases h : (setView nv.view).result s with
  | ok u =>
    rw [final_bind_ok h, setPrimaryFromNewview_viewAndPrimary]
    exact .inl rfl
  | error e =>
    rw [final_bind_error h, result_bind_error h]
    exact .inr ⟨rfl, by simp⟩

variable {s : Replica}

/-- The loop over the messages of a state, where the storage is in step. -/
theorem handleProof_ok (msg : PbftMembershipMsg) (hs : Mirrors s.toProcess s.manager)
    (h : (handleProof node outside msg).result s = .ok ()) :
    ((handleProof node outside msg).final s).manager = s.manager.afterProof node msg.checkpointProof := by
  unfold handleProof at h ⊢
  unfold CheckpointManager.afterProof
  generalize msg.checkpointProof = l at h ⊢
  induction l generalizing s with
  | nil => rfl
  | cons env l ih =>
    obtain ⟨u, hu, h⟩ := result_bind_eq_ok h
    obtain ⟨hman, hmir⟩ := handleCheckpointMessage_endsAt hs env hu
    rw [forEach, final_bind_ok hu, List.foldl_cons, ← hman]
    exact ih (hman ▸ hmir) h

/-- What a state leaves of the view and the primary. -/
def PbftMembershipMsg.viewAndPrimary (msg : PbftMembershipMsg) (node : Node) (s : Replica) :
    UInt64 × Option PeerAddress :=
  match msg.newview? node with
  | none => s.viewAndPrimary
  | some (nv, env) => (nv.view, node.peerByUuid env.sender)

/-- The part of `handle_set_state` for the NEWVIEW. -/
theorem adoptState_viewAndPrimary (node : Node) (outside : Outside) (msg : PbftMembershipMsg) (s : Replica) :
    let m : Program Fault Replica Unit := match msg.newviewMsg? with
      | none => pure ()
      | some newviewMsg => adoptNewview node outside newviewMsg
    Silent s (m.final s) ∧ ((m.final s).viewAndPrimary = msg.viewAndPrimary node s ∨ m.result s ≠ .ok ()) ∧
      (msg.viewAndPrimary node s = s.viewAndPrimary → (m.final s).viewAndPrimary = s.viewAndPrimary) := by
  unfold PbftMembershipMsg.viewAndPrimary PbftMembershipMsg.newview?
  cases msg.newviewMsg? with
  | none => exact ⟨Std.Refl.refl s, .inl rfl, id⟩
  | some env =>
    cases hparse : node.wire.pbftMsg.parse env.pbft with
    | none =>
      have hpure : adoptNewview node outside env = pure () := by rw [adoptNewview, hparse]
      simp only [hpure, final_pure, Option.bind_some, hparse, Option.map_none]
      exact ⟨Std.Refl.refl s, .inl trivial, fun _ => trivial⟩
    | some nv =>
      simp only [Option.bind_some, hparse]
      refine ⟨adoptNewview_silent env s, ?_, fun he => ?_⟩
      · exact (adoptNewview_viewAndPrimary hparse s).imp_right And.right
      · rcases adoptNewview_viewAndPrimary hparse s with h | ⟨h, -⟩
        · exact h.trans he
        · have hview : nv.view = s.pbft.view := congrArg Prod.fst he
          rw [h, hview]
          rfl

/-- `handle_set_state`: the service gets the state where it is adopted, and the
view and the primary are those of its NEWVIEW. -/
theorem handleSetState_spec (node : Node) (outside : Outside) (msg : PbftMembershipMsg)
    (hs : Mirrors s.toProcess s.manager) :
    let s' := (handleSetState node outside msg).final s
    (Silent s s' ∧ s'.viewAndPrimary = s.viewAndPrimary ∧
      ((handleSetState node outside msg).result s = .ok () → ¬ Adopts node msg s)) ∨
    (Adopts node msg s ∧ (∃ l, s'.log = s.log ++ l ∧ stateCalls l = [(msg.sequence, msg.stateData)]) ∧
      (s'.viewAndPrimary = msg.viewAndPrimary node s ∨ (handleSetState node outside msg).result s ≠ .ok ()) ∧
      (msg.viewAndPrimary node s = s.viewAndPrimary → s'.viewAndPrimary = s.viewAndPrimary)) := by
  have hloop : handleSetState node outside msg = (do
      handleProof node outside msg
      let s ← read
      if !adoptsState s.manager ⟨msg.sequence, msg.stateHash⟩ then pure ()
      else do
        onReplica (emit (.setServiceState msg.sequence msg.stateData))
        match msg.newviewMsg? with
        | none => pure ()
        | some newviewMsg => adoptNewview node outside newviewMsg) := rfl
  rw [hloop]
  have hsilent : Silent s ((handleProof node outside msg).final s) := handleProof_silent msg s
  have hpbft : ((handleProof node outside msg).final s).pbft = s.pbft := handleProof_pbft msg s
  have hvap : ((handleProof node outside msg).final s).viewAndPrimary = s.viewAndPrimary := by
    unfold Replica.viewAndPrimary
    rw [hpbft]
  cases hr : (handleProof node outside msg).result s with
  | error e =>
    rw [final_bind_error hr, result_bind_error hr]
    exact .inl ⟨hsilent, hvap, fun h => (by cases h)⟩
  | ok u =>
    have hman := handleProof_ok msg hs hr
    rw [final_bind_ok hr, result_bind_ok hr, final_read_bind, result_read_bind, hman]
    split
    · rename_i hn
      refine .inl ⟨hsilent, hvap, fun _ ha => ?_⟩
      rw [Adopts] at ha
      simp [ha] at hn
    · rename_i hn
      have hadopts : Adopts node msg s := by simpa [Adopts] using hn
      generalize (handleProof node outside msg).final s = s₁ at *
      cases he : (onReplica (emit (.setServiceState msg.sequence msg.stateData))).result s₁ with
      | error e =>
        rw [final_bind_error he, result_bind_error he]
        refine .inl ⟨?_, hvap, fun h => (by cases h)⟩
        have hsame : (onReplica (emit (.setServiceState msg.sequence msg.stateData))).final s₁ = s₁ := by
          show s₁.withProcess ((emit _).final s₁.toProcess) = s₁
          rw [emit, act_error he]
          rfl
        rwa [hsame]
      | ok u =>
        rw [final_bind_ok he, result_bind_ok he]
        obtain ⟨lifetime, hl⟩ := act_ok he
        refine .inr ⟨hadopts, ?_⟩
        have hlog : ((onReplica (emit (.setServiceState msg.sequence msg.stateData))).final s₁).log =
            s₁.log ++ [.setServiceState msg.sequence msg.stateData] := by
          show ((emit _).final s₁.toProcess).log = _
          rw [emit, hl]
        have hv : ((onReplica (emit (.setServiceState msg.sequence msg.stateData))).final s₁).viewAndPrimary =
          s.viewAndPrimary := hvap
        generalize (onReplica (emit (.setServiceState msg.sequence msg.stateData))).final s₁ = s₂ at hlog hv ⊢
        obtain ⟨⟨l₂, hl₂, hc₂⟩, hres, hkeep⟩ := adoptState_viewAndPrimary node outside msg s₂
        have hmsg : msg.viewAndPrimary node s₂ = msg.viewAndPrimary node s := by
          unfold PbftMembershipMsg.viewAndPrimary
          rw [hv]
        rw [hmsg] at hres hkeep
        rw [hv] at hkeep
        obtain ⟨l, hl, hc⟩ := hsilent
        refine ⟨⟨l ++ [.setServiceState msg.sequence msg.stateData] ++ l₂, ?_, ?_⟩, hres, hkeep⟩
        · rw [hl₂, hlog, hl]
          simp only [List.append_assoc]
        · rw [stateCalls_append, stateCalls_append, hc, hc₂]
          rfl

end

/-! ## When nothing is changed -/

/-- The databases, the snapshot, the counters, the view and the primary are
what they were. -/
structure Unaffected (s s' : Replica) (d d' : DatabaseService Crud.Request Crud) : Prop where
  databases : d'.store.storage = d.store.storage
  snapshot : d'.snapshot = d.snapshot
  nextRequestSequence : d'.nextRequestSequence = d.nextRequestSequence
  lastCheckpoint : d'.lastCheckpoint = d.lastCheckpoint
  view : s'.pbft.view = s.pbft.view
  pinnedPrimary : s'.pbft.pinnedPrimary = s.pbft.pinnedPrimary

/-- The state does no harm: the service does not need it, or reading it does not
get as far as to clear the databases, or it finds just what is there; and its
NEWVIEW, if it has one, is for the view and the primary that the replica has. -/
structure Harmless (node : Node) (archive : MemStorage.Archive) (msg : PbftMembershipMsg) (s : Replica)
    (d : DatabaseService Crud.Request Crud) : Prop where
  databases : msg.sequence < d.nextRequestSequence ∨ archive.opens msg.stateData = false ∨
    archive.loaded msg.stateData = d.store.storage
  newview : ∀ nv env, msg.newview? node = some (nv, env) →
    nv.view = s.pbft.view ∧ node.peerByUuid env.sender = s.pbft.pinnedPrimary

section

variable {node : Node} {outside : Outside} {cfg : Crud.Config} {env : Crud.Env} {archive : MemStorage.Archive}
  {codec : Codec Crud.Request} {uuid : Uuid}

/-- `set_service_state` with a state that cannot be decoded: at most the
databases change. -/
theorem setServiceState_undecodable {data : Bytes} (hdata : archive.decodes data = false) (n : UInt64)
    (d : DatabaseService Crud.Request Crud) :
    let d' := (DatabaseService.setServiceState (Crud.base cfg env archive codec) uuid n data).final d
    d'.snapshot = d.snapshot ∧ d'.nextRequestSequence = d.nextRequestSequence ∧
      d'.lastCheckpoint = d.lastCheckpoint ∧
      (d'.store.storage = d.store.storage ↔
        n < d.nextRequestSequence ∨ archive.opens data = false ∨ archive.loaded data = d.store.storage) := by
  rw [DatabaseService.setServiceState, final_read_bind]
  split
  · rename_i hn
    exact ⟨rfl, rfl, rfl, fun _ => .inl hn, fun _ => rfl⟩
  · rename_i hn
    have hfail : ((Crud.base cfg env archive codec).loadState data d.store).1 = false := hdata
    have hstore : ((Crud.base cfg env archive codec).loadState data d.store).2.storage =
      if archive.opens data then archive.loaded data else d.store.storage := rfl
    rw [final_update_bind, hfail]
    refine ⟨rfl, rfl, rfl, ?_⟩
    simp only [Bool.not_false, if_true, final_pure, hstore]
    split
    · rename_i hopens
      exact ⟨fun h => .inr (.inr h), fun h => (h.resolve_left hn).resolve_left (by simp [hopens])⟩
    · rename_i hopens
      exact ⟨fun _ => .inr (.inl (Bool.not_eq_true _ ▸ hopens)), fun _ => rfl⟩

theorem harmless_newview_iff (msg : PbftMembershipMsg) (s : Replica) :
    msg.viewAndPrimary node s = s.viewAndPrimary ↔ ∀ nv env, msg.newview? node = some (nv, env) →
      nv.view = s.pbft.view ∧ node.peerByUuid env.sender = s.pbft.pinnedPrimary := by
  unfold PbftMembershipMsg.viewAndPrimary Replica.viewAndPrimary
  cases msg.newview? node with
  | none => simp
  | some x => simp [Prod.ext_iff]

/-- The replica and its service after a SET_STATE whose state cannot be decoded:
everything is as it was where the state is not adopted or does no harm, and only
there, as far as the handler returns. -/
theorem failed_adoption_iff (msg : PbftMembershipMsg) (s : Replica) (d : DatabaseService Crud.Request Crud)
    (hs : Mirrors s.toProcess s.manager) (hdata : archive.decodes msg.stateData = false) :
    let s' := (handleSetState node outside msg).final s
    let d' := d.afterStates (Crud.base cfg env archive codec) uuid (stateCalls (s'.log.drop s.log.length))
    ((Adopts node msg s → Harmless node archive msg s d) → Unaffected s s' d d') ∧
      ((handleSetState node outside msg).result s = .ok () → Unaffected s s' d d' →
        Adopts node msg s → Harmless node archive msg s d) := by
  dsimp only
  rcases handleSetState_spec node outside msg hs with
    ⟨⟨l, hl, hc⟩, hv, hadopts⟩ | ⟨hadopts, ⟨l, hl, hc⟩, hv, hkeep⟩
  · rw [hl, List.drop_left, hc]
    refine ⟨fun _ => ?_, fun hr _ ha => absurd ha (hadopts hr)⟩
    exact ⟨rfl, rfl, rfl, rfl, congrArg Prod.fst hv, congrArg Prod.snd hv⟩
  · rw [hl, List.drop_left, hc]
    have hd : d.afterStates (Crud.base cfg env archive codec) uuid [(msg.sequence, msg.stateData)] =
      (DatabaseService.setServiceState (Crud.base cfg env archive codec) uuid msg.sequence msg.stateData).final d := rfl
    obtain ⟨hsnap, hnext, hlast, hdb⟩ := setServiceState_undecodable hdata msg.sequence d
    rw [hd]
    constructor
    · intro h
      have hv' := hkeep ((harmless_newview_iff msg s).mpr (h hadopts).newview)
      exact ⟨hdb.mpr (h hadopts).databases, hsnap, hnext, hlast, congrArg Prod.fst hv', congrArg Prod.snd hv'⟩
    · intro hr h _
      refine ⟨hdb.mp h.databases, (harmless_newview_iff msg s).mp ?_⟩
      rw [← hv.resolve_right (not_not_intro hr)]
      exact Prod.ext h.view h.pinnedPrimary

end

/-! ## A state that is adopted and cannot be decoded -/

instance encodableUInt8 : Encodable UInt8 := .ofLeftInverse UInt8.toNat UInt8.ofNat fun _ => UInt8.ofNat_toNat
instance encodableUInt32 : Encodable UInt32 := .ofLeftInverse UInt32.toNat UInt32.ofNat fun _ => UInt32.ofNat_toNat
instance encodableUInt64 : Encodable UInt64 := .ofLeftInverse UInt64.toNat UInt64.ofNat fun _ => UInt64.ofNat_toNat

deriving instance Encodable for Crud.Header, Crud.KeyValue, Crud.EvictionPolicyType, Crud.CreateDb, Crud.Msg,
  Crud.Request

namespace MemStorage.Archive

private def store : Format (Bytes × UInt32 × Map Bytes Bytes) :=
  .pair .bytes (.pair (.ofRetract .word UInt64.toUInt32 UInt32.toUInt64 UInt32.toUInt32_toUInt64)
    (.ofRetract (.list (.pair .bytes .bytes)) (fun l => l.foldl (fun m e => m.insertIfNew e.1 e.2) ∅)
      Std.ExtTreeMap.toList Map.foldl_toList))

private def entriesOf (data : Bytes) : List (Bytes × UInt32 × Map Bytes Bytes) × Bool :=
  Format.scanList store.get (data.length + 1) data

private theorem entriesOf_put (m : Map Bytes (UInt32 × Map Bytes Bytes)) :
    entriesOf ((Format.list store).put m.toList) = (m.toList, true) := by
  have h := (Format.list store).get_put m.toList []
  rw [List.append_nil] at h
  exact Format.scanList_of_getList h

/-- A plain archive: one store after the other, and an end mark. -/
def plain : Archive where
  save m := (Format.list store).put m.toList
  opens data := data ≠ []
  entries data := (entriesOf data).1
  complete data := (entriesOf data).2
  opens_save m := decide_eq_true ((Format.list store).put_ne_nil _)
  entries_save m := by rw [entriesOf_put]
  complete_save m := by rw [entriesOf_put]

end MemStorage.Archive

/-- A checkpoint message of a peer of the sample swarm. -/
def sampleCheckpoint (sender : String) (sequence : UInt64) : BznEnvelope :=
  { (default : BznEnvelope) with
    sender := ascii sender
    payload := .checkpointMsg (Wire.plain.checkpointMsg.serialize ⟨sequence, []⟩) }

/-- A state for checkpoint 100, with a proof of it and a NEWVIEW for view 6. -/
def sampleState (data : Bytes) : PbftMembershipMsg :=
  { (default : PbftMembershipMsg) with
    type := .setState
    sequence := 100
    stateData := data
    checkpointProof := [sampleCheckpoint "A" 100, sampleCheckpoint "B" 100]
    newviewMsg? := some { (default : BznEnvelope) with
      sender := ascii "C"
      payload := .pbft (Wire.plain.pbftMsg.serialize { (default : PbftMsg) with view := 6 }) } }

/-- A service whose database holds one key. -/
def sampleService : DatabaseService Crud.Request Crud :=
  .blank default (Crud.serve Crud.openConfig Crud.smallDatabase Crud.empty) []

/-- A plain `crud`. -/
def sampleCrud : CrudBase Crud.Request Crud :=
  Crud.base Crud.openConfig ⟨0, fun _ => true⟩ .plain (.ofEncodable Crud.Request)

theorem failed_adoption_first :
    let node := sampleNode fourPeers "A"
    let s := sampleReplica node
    let s' := (handleSetState node sampleOutside (sampleState [])).final s
    let d' := sampleService.afterStates sampleCrud [] (stateCalls (s'.log.drop s.log.length))
    MemStorage.Archive.plain.decodes [] = false ∧
      ((Adopts node (sampleState []) s → Harmless node .plain (sampleState []) s sampleService) →
        Unaffected s s' sampleService d') ∧
      ((handleSetState node sampleOutside (sampleState [])).result s = .ok () → Unaffected s s' sampleService d' →
        Adopts node (sampleState []) s → Harmless node .plain (sampleState []) s sampleService) := by
  have hstart : replicaOver (sampleNode fourPeers "A") none default =
    (.ok (sampleReplica (sampleNode fourPeers "A")), (newPbft (sampleNode fourPeers "A")).final (.start default)) := rfl
  have hs := (replicaOver_default hstart).1
  exact ⟨by decide, failed_adoption_iff (sampleState []) _ sampleService hs.manager (by decide)⟩

/-- A replica with stable checkpoint 100 adopts a state for it that breaks off:
the database is gone, and the view and the primary are those of the NEWVIEW. -/
theorem failed_adoption_clears :
    let node := sampleNode fourPeers "A"
    let s := (handleProof node sampleOutside (sampleState [])).final (sampleReplica node)
    let s' := (handleSetState node sampleOutside (sampleState [1])).final s
    let d' := sampleService.afterStates sampleCrud [] (stateCalls (s'.log.drop s.log.length))
    MemStorage.Archive.plain.decodes [1] = false ∧
      s.manager.latestStableCheckpoint = ⟨(sampleState [1]).sequence, (sampleState [1]).stateHash⟩ ∧
      sampleService.store.storage.read (ascii "db") (ascii "k") = some (ascii "value") ∧
      d'.store.storage.read (ascii "db") (ascii "k") = none ∧
      s.pbft.view = 1 ∧ s'.pbft.view = 6 ∧
      s.pbft.pinnedPrimary = some (samplePeer "B") ∧ s'.pbft.pinnedPrimary = some (samplePeer "C") := by
  decide +kernel

end SwarmDb
