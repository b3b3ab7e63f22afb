import SwarmDb.Pbft.CheckpointManager

/-!
# The checkpoint manager and its storage

`Mirrors`: the storage holds exactly what the manager holds in memory. Every
call that returns keeps it, and the manager it leaves is the one that
`CheckpointCall.after` says (`call_endsAt`). Every call, also one that throws,
writes under the manager's own names only (`call_within`).
-/

namespace SwarmDb

open Lib Program

/-! ## What the calls do to the manager -/

namespace CheckpointManager

variable (node : Node) (m : CheckpointManager)

/-- The manager after a checkpoint became stable: its partial proof is the
stable proof, and the partial proofs that are not newer are gone. -/
def stabilized (cp : Checkpoint) : CheckpointManager where
  latestStableCheckpoint := cp
  latestStableCheckpointProof := m.partialCheckpointProofs.getD cp ∅
  latestLocalCheckpoint := m.latestLocalCheckpoint
  partialCheckpointProofs := m.partialCheckpointProofs.filter fun c _ => c.sequence > cp.sequence

/-- The manager with a message as evidence for its stable checkpoint. -/
def withEvidence (sender : Uuid) (text : Bytes) : CheckpointManager :=
  { m with latestStableCheckpointProof := m.latestStableCheckpointProof.insertIfNew sender text }

/-- The manager with a message in the partial proof of a checkpoint. -/
def withPartial (cp : Checkpoint) (sender : Uuid) (text : Bytes) : CheckpointManager :=
  { m with partialCheckpointProofs :=
      m.partialCheckpointProofs.insert cp ((m.partialCheckpointProofs.getD cp ∅).insertIfNew sender text) }

/-- The manager after a checkpoint was made stable, if enough peers support it. -/
def maybeStabilized (cp : Checkpoint) : CheckpointManager :=
  if checkpointAttestants node m cp ≥ honestMemberSize node.swarmSize then m.stabilized cp else m

/-- The manager after a checkpoint message. -/
def handled (msg : BznEnvelope) : CheckpointManager :=
  match node.wire.checkpointMsg.parse msg.checkpointMsg with
  | none => m
  | some inner =>
    let cp : Checkpoint := ⟨inner.sequence, inner.stateHash⟩
    let text := node.wire.envelope.serialize msg
    if cp.sequence < m.latestLocalCheckpoint.sequence then m
    else if cp.sequence = m.latestStableCheckpoint.sequence then
      if cp = m.latestStableCheckpoint then m.withEvidence msg.sender text else m
    else (m.withPartial cp msg.sender text).maybeStabilized node cp

/-- The manager after a local checkpoint. -/
def reached (cp : Checkpoint) : CheckpointManager := { m with latestLocalCheckpoint := cp }

end CheckpointManager

/-- The manager after a call. -/
def CheckpointCall.after (node : Node) (m : CheckpointManager) : CheckpointCall → CheckpointManager
  | handleCheckpointMessage _ msg => m.handled node msg
  | localCheckpointReached _ cp => m.reached cp

/-! ## The storage in step with the manager -/

/-- The sub-keys under which a partial proof is written. -/
def partialSubkeys (x : Checkpoint × Uuid) : List Bytes := [Conversion.checkpoint.toString x.1, x.2]

/-- The storage of `p` holds what the manager `m` holds. -/
structure Mirrors (p : Process) (m : CheckpointManager) : Prop where
  stable : Stored p .checkpoint latestStableCheckpointKey m.latestStableCheckpoint
  localCp : Stored p .checkpoint latestLocalCheckpointKey m.latestLocalCheckpoint
  proof : Container p .string stableCheckpointProofKey (fun u : Uuid => [u])
    fun u => m.latestStableCheckpointProof[u]?
  partialProofs : Container p .string partialCheckpointProofsKey partialSubkeys
    fun x => Map.lookup2 m.partialCheckpointProofs x.1 x.2

theorem partialSubkeys_injective : Function.Injective partialSubkeys := by
  rintro ⟨cp, u⟩ ⟨cp', u'⟩ h
  simp only [partialSubkeys, List.cons.injEq, and_true] at h
  rw [Conversion.checkpoint_injective h.1, h.2]

theorem proofSubkeys_injective : Function.Injective fun u : Uuid => [u] := fun _ _ h => List.singleton_inj.mp h

theorem string_faithful : Conversion.string.Faithful := Conversion.faithful_of_total fun _ => rfl

/-- The names under which the manager stores. -/
def checkpointNames : List Bytes :=
  [latestStableCheckpointKey, latestLocalCheckpointKey, stableCheckpointProofKey, partialCheckpointProofsKey]

section

variable {p p' : Process} {m : CheckpointManager} {E : Effect → Prop}

/-- Writes under other names leave the manager and its storage in step. -/
theorem Mirrors.frame (h : Mirrors p m) {names : List Bytes} (hf : p.Frame names E p')
    (hnames : ∀ name ∈ checkpointNames, name ∉ names) : Mirrors p' m :=
  ⟨h.stable.frame hf (hnames _ (by decide)), h.localCp.frame hf (hnames _ (by decide)),
    h.proof.frame hf (hnames _ (by decide)), h.partialProofs.frame hf (hnames _ (by decide))⟩

variable {cp : Checkpoint}

theorem Mirrors.writes_stable (h : Mirrors p m)
    (hw : p.Writes p' (persistentKey latestStableCheckpointKey []) (some (Conversion.checkpoint.toString cp))) :
    Mirrors p' { m with latestStableCheckpoint := cp } :=
  have hf : p.Frame [latestStableCheckpointKey] (fun _ => True) p' := .of_writes (List.mem_singleton_self _) hw
  ⟨.writes hw, h.localCp.frame hf (by decide), h.proof.frame hf (by decide), h.partialProofs.frame hf (by decide)⟩

theorem Mirrors.writes_local (h : Mirrors p m)
    (hw : p.Writes p' (persistentKey latestLocalCheckpointKey []) (some (Conversion.checkpoint.toString cp))) :
    Mirrors p' { m with latestLocalCheckpoint := cp } :=
  have hf : p.Frame [latestLocalCheckpointKey] (fun _ => True) p' := .of_writes (List.mem_singleton_self _) hw
  ⟨h.stable.frame hf (by decide), .writes hw, h.proof.frame hf (by decide), h.partialProofs.frame hf (by decide)⟩

/-- The stable proof, replaced in storage and in memory. -/
theorem Mirrors.replace_proof (h : Mirrors p m) (hf : p.Frame [stableCheckpointProofKey] E p')
    {proof : Map Uuid Bytes}
    (hp : Container p' .string stableCheckpointProofKey (fun u : Uuid => [u]) fun u => proof[u]?) :
    Mirrors p' { m with latestStableCheckpointProof := proof } :=
  ⟨h.stable.frame hf (by decide), h.localCp.frame hf (by decide), hp, h.partialProofs.frame hf (by decide)⟩

/-- The partial proofs, replaced in storage and in memory. -/
theorem Mirrors.replace_partialProofs (h : Mirrors p m) (hf : p.Frame [partialCheckpointProofsKey] E p')
    {proofs : Map Checkpoint (Map Uuid Bytes)}
    (hp : Container p' .string partialCheckpointProofsKey partialSubkeys fun x => Map.lookup2 proofs x.1 x.2) :
    Mirrors p' { m with partialCheckpointProofs := proofs } :=
  ⟨h.stable.frame hf (by decide), h.localCp.frame hf (by decide), h.proof.frame hf (by decide), hp⟩

end

/-- Where `m` returns from `s`, it leaves this manager, with the storage in
step. -/
def EndsAt (m : Program Fault CheckpointProcess Unit) (s : CheckpointProcess) (manager : CheckpointManager) : Prop :=
  m.result s = .ok () → (m.final s).manager = manager ∧ Mirrors (m.final s).toProcess manager

namespace EndsAt

variable {m k : Program Fault CheckpointProcess Unit} {s : CheckpointProcess} {manager manager' : CheckpointManager}

theorem bind (hm : EndsAt m s manager)
    (hk : ∀ s' : CheckpointProcess, s'.manager = manager → Mirrors s'.toProcess manager → EndsAt k s' manager') :
    EndsAt (do m; k) s manager' := by
  intro h
  obtain ⟨u, hu, h⟩ := result_bind_eq_ok h
  rw [final_bind_ok hu]
  obtain ⟨hman, hmir⟩ := hm hu
  exact hk _ hman hmir h

theorem bind_read {f : CheckpointProcess → Program Fault CheckpointProcess Unit} (h : EndsAt (f s) s manager) :
    EndsAt (read >>= f) s manager := by
  intro hr
  exact h hr

theorem ite {c : Prop} [Decidable c] (hm : c → EndsAt m s manager) (hk : ¬ c → EndsAt k s manager) :
    EndsAt (if c then m else k) s manager := by
  split
  · exact hm ‹_›
  · exact hk ‹_›

theorem pure (hs : Mirrors s.toProcess s.manager) : EndsAt (pure ()) s s.manager := fun _ => ⟨rfl, hs⟩

end EndsAt

/-! ## The parts of `stabilize_checkpoint` -/

section

variable {s : CheckpointProcess} (hs : Mirrors s.toProcess s.manager) (cp : Checkpoint)

include hs

theorem setLatestStableCheckpoint_endsAt :
    EndsAt (setLatestStableCheckpoint cp) s { s.manager with latestStableCheckpoint := cp } := by
  intro h
  simp only [setLatestStableCheckpoint, modifyManager, result_update_bind, final_update_bind, result_onProcess,
    final_onProcess] at h ⊢
  exact ⟨trivial, hs.writes_stable (assign_ok h)⟩

theorem clearStableCheckpointProof_endsAt :
    EndsAt clearStableCheckpointProof s { s.manager with latestStableCheckpointProof := ∅ } := by
  intro h
  simp only [clearStableCheckpointProof, result_read_bind, final_read_bind] at h ⊢
  obtain ⟨u, hd, -⟩ := result_bind_eq_ok h
  obtain ⟨hres, hfin⟩ := forEach_onProcess (s.manager.latestStableCheckpointProof.toList.map Prod.fst)
    (fun sender => destroy stableCheckpointProofKey [sender]) s
  rw [final_bind_ok hd, hfin]
  rw [hres] at hd
  have hf : Within (Process.Frame [stableCheckpointProofKey] fun _ => True)
      (forEach (s.manager.latestStableCheckpointProof.toList.map Prod.fst)
        fun sender => destroy stableCheckpointProofKey [sender]) :=
    .forEach fun _ _ => .destroy (List.mem_singleton_self _)
  refine ⟨rfl, hs.replace_proof (hf _) ?_⟩
  convert hs.proof.destroyAll_ok proofSubkeys_injective _ hd using 2 with u
  split
  · rfl
  · rename_i hu
    rw [Map.mem_keys_iff, Option.not_isSome_iff_eq_none] at hu
    exact hu.symm

/-- A message saved in the stable proof, if it is the sender's first there. -/
theorem addEvidence_endsAt (pair : Uuid × Bytes) :
    EndsAt (do
      let value ← onProcess (persistent .string pair.2 stableCheckpointProofKey [pair.1])
      modifyManager fun m =>
        { m with latestStableCheckpointProof := m.latestStableCheckpointProof.insert pair.1 value }) s
      (s.manager.withEvidence pair.1 pair.2) := by
  intro h
  obtain ⟨value, hv, -⟩ := result_bind_eq_ok h
  rw [final_bind_ok hv]
  simp only [final_onProcess, modifyManager, final_update] at hv ⊢
  obtain ⟨hval, hcont⟩ := hs.proof.persistent_ok proofSubkeys_injective string_faithful hv
  have hproof : s.manager.latestStableCheckpointProof.insert pair.1 value =
      s.manager.latestStableCheckpointProof.insertIfNew pair.1 pair.2 := by
    refine Map.ext_lookup fun u => ?_
    rw [Map.lookup_insert, Map.lookup_insertIfNew, hval]
    by_cases hu : pair.1 = u
    · subst hu
      cases s.manager.latestStableCheckpointProof[pair.1]? <;> simp
    · simp [hu]
  rw [hproof]
  have hf : Within (Process.Frame [stableCheckpointProofKey] fun _ => True)
      (persistent .string pair.2 stableCheckpointProofKey [pair.1]) := .persistent (List.mem_singleton_self _)
  refine ⟨rfl, hs.replace_proof (hf s.toProcess) ?_⟩
  rw [← hproof]
  convert hcont using 2 with u
  rw [Map.lookup_insert, Function.update_apply]
  simp only [eq_comm]

/-- The loop of `copyStableCheckpointProof` over a list of messages. -/
theorem copyLoop_endsAt (l : List (Uuid × Bytes)) :
    EndsAt (forEach l fun pair => do
      let value ← onProcess (persistent .string pair.2 stableCheckpointProofKey [pair.1])
      modifyManager fun m =>
        { m with latestStableCheckpointProof := m.latestStableCheckpointProof.insert pair.1 value }) s
      { s.manager with
        latestStableCheckpointProof :=
          l.foldl (fun m e => m.insertIfNew e.1 e.2) s.manager.latestStableCheckpointProof } := by
  induction l generalizing s with
  | nil => exact .pure hs
  | cons pair _ ih =>
    refine (addEvidence_endsAt hs pair).bind fun s' hman hmir => ?_
    rw [← hman] at hmir
    have := ih hmir
    rwa [hman] at this

theorem copyStableCheckpointProof_endsAt (hempty : s.manager.latestStableCheckpointProof = ∅) :
    EndsAt (copyStableCheckpointProof cp) s
      { s.manager with latestStableCheckpointProof := s.manager.partialCheckpointProofs.getD cp ∅ } := by
  intro h
  have hl : (s.manager.partialCheckpointProofs.getD cp ∅).toList.foldl (fun m e => m.insertIfNew e.1 e.2)
      s.manager.latestStableCheckpointProof = s.manager.partialCheckpointProofs.getD cp ∅ := by
    rw [hempty]
    exact Map.foldl_toList _
  have hcopy := copyLoop_endsAt hs _ h
  rw [hl] at hcopy
  exact hcopy

theorem clearPartialCheckpointProofs_endsAt :
    EndsAt (clearPartialCheckpointProofs cp) s { s.manager with
      partialCheckpointProofs := s.manager.partialCheckpointProofs.filter fun c _ => c.sequence > cp.sequence } := by
  intro h
  simp only [clearPartialCheckpointProofs, result_read_bind, final_read_bind] at h ⊢
  -- the two loops as one, over the entries of the proofs that are not newer
  have hloop : ∀ l : List (Checkpoint × Map Uuid Bytes),
      (forEach l fun mapPair => forEach (mapPair.2.toList.map Prod.fst) fun sender =>
        onProcess (destroy partialCheckpointProofsKey [Conversion.checkpoint.toString mapPair.1, sender])) =
      forEach (l.flatMap fun mapPair => mapPair.2.toList.map fun e => (mapPair.1, e.1)) fun x =>
        onProcess (destroy partialCheckpointProofsKey (partialSubkeys x)) := by
    intro l
    simp only [forEach_flatMap, forEach_map, partialSubkeys]
  rw [hloop] at h ⊢
  obtain ⟨u, hd, -⟩ := result_bind_eq_ok h
  rw [final_bind_ok hd]
  generalize hl : (List.flatMap _ _ : List (Checkpoint × Uuid)) = l at hd ⊢
  obtain ⟨hres, hfin⟩ := forEach_onProcess l (fun x => destroy partialCheckpointProofsKey (partialSubkeys x)) s
  rw [hfin]
  rw [hres] at hd
  have hf : Within (Process.Frame [partialCheckpointProofsKey] fun _ => True)
      (forEach l fun x => destroy partialCheckpointProofsKey (partialSubkeys x)) :=
    .forEach fun _ _ => .destroy (List.mem_singleton_self _)
  refine ⟨rfl, hs.replace_partialProofs (hf _) ?_⟩
  convert hs.partialProofs.destroyAll_ok partialSubkeys_injective l hd using 2 with x
  have hmem : x ∈ l ↔ ¬ x.1.sequence > cp.sequence ∧
      (Map.lookup2 s.manager.partialCheckpointProofs x.1 x.2).isSome := by
    obtain ⟨c, v⟩ := x
    simp only [← hl, List.mem_flatMap, List.mem_filter, decide_eq_true_eq, List.mem_map, Prod.exists,
      Map.mem_toList_iff, Prod.mk.injEq, Map.lookup2_isSome_iff]
    constructor
    · rintro ⟨c', i, ⟨hi, hc⟩, v', t, ht, rfl, rfl⟩
      exact ⟨hc, i, t, hi, ht⟩
    · rintro ⟨hc, i, t, hi, ht⟩
      exact ⟨c, i, ⟨hi, hc⟩, v, t, ht, rfl, rfl⟩
  rw [Map.lookup2_filter]
  by_cases hc : x.1.sequence > cp.sequence
  · simp [hmem, hc]
  · cases hx : Map.lookup2 s.manager.partialCheckpointProofs x.1 x.2 <;> simp [hmem, hc, hx]

/-- Making a checkpoint stable. -/
theorem stabilizeCheckpoint_endsAt : EndsAt (stabilizeCheckpoint cp) s (s.manager.stabilized cp) := by
  refine (setLatestStableCheckpoint_endsAt hs cp).bind fun s₁ h₁ hm₁ => ?_
  rw [← h₁] at hm₁
  refine (clearStableCheckpointProof_endsAt hm₁).bind fun s₂ h₂ hm₂ => ?_
  rw [← h₂] at hm₂
  refine (copyStableCheckpointProof_endsAt hm₂ cp (by rw [h₂])).bind fun s₃ h₃ hm₃ => ?_
  rw [← h₃] at hm₃
  have h₄ := clearPartialCheckpointProofs_endsAt hm₃ cp
  rw [h₃, h₂, h₁] at h₄
  exact h₄

end

/-! ## What the manager sends -/

/-- The effects of the manager: a checkpoint message where a local checkpoint
was reached, state requests and the timer of a delayed state request. -/
def Effect.OfCheckpoints (node : Node) (reached : Option Checkpoint) : Effect → Prop
  | multicast msg => ∃ cp, reached = some cp ∧
      msg.payload = .checkpointMsg (node.wire.checkpointMsg.serialize ⟨cp.sequence, cp.hash⟩)
  | send _ msg => ∃ text, msg.payload = .pbftMembership text
  | triggerCatchup _ => True
  | _ => False

/-- The local checkpoint that a call reaches. -/
def CheckpointCall.reached? : CheckpointCall → Option Checkpoint
  | handleCheckpointMessage _ _ => none
  | localCheckpointReached _ cp => some cp

namespace Node

variable {node : Node} {names : List Bytes} {E : Effect → Prop} {msg : BznEnvelope}

theorem maybeSigned_payload {msg' : BznEnvelope} (h : node.maybeSigned msg = .ok msg') :
    msg'.payload = msg.payload := by
  unfold maybeSigned at h
  split at h
  · dsimp only at h
    split at h
    · obtain ⟨signature, rfl⟩ := cryptoSign_ok h
      rfl
    · cases h; rfl
  · cases h; rfl

/-- A message with a payload is signed without a throw. -/
theorem maybeSigned_isOk (node : Node) (h : msg.payload ≠ .notSet) :
    ∃ msg', node.maybeSigned msg = .ok msg' := by
  unfold maybeSigned
  split
  · dsimp only
    split
    · exact cryptoSign_isOk node.ssl node.options h
    · exact ⟨_, rfl⟩
  · exact ⟨_, rfl⟩

theorem multicast_frame (hE : ∀ msg', node.maybeSigned msg = .ok msg' → E (.multicast msg')) :
    Within (Process.Frame names E) (node.multicast msg) :=
    .bind_lift fun msg' h => .emit (hE msg' h)

theorem sendMaybeSigned_frame {peer : Uuid}
    (hE : ∀ msg', node.maybeSigned msg = .ok msg' → E (.send peer msg')) :
    Within (Process.Frame names E) (node.sendMaybeSigned peer msg) :=
  .ite (.bind_lift fun msg' h => .emit (hE msg' h)) (.pure _)

end Node

/-! ## The comparisons -/

theorem keeps_onProcess {α τ : Type} (f : CheckpointManager → τ) (m : Program Fault Process α) :
    Keeps (fun s : CheckpointProcess => f s.manager) (onProcess m) := Within.zoom fun _ => rfl

section

variable {node : Node} {outside : Outside} {cp : Checkpoint} {s : CheckpointProcess}

theorem stabilizeCheckpoint_stable : ((stabilizeCheckpoint cp).final s).manager.latestStableCheckpoint = cp := by
  -- everything after the first assignment keeps it
  have hset : Keeps (fun s : CheckpointProcess => s.manager.latestStableCheckpoint)
      (onProcess (assign .checkpoint cp latestStableCheckpointKey [])) :=
    keeps_onProcess CheckpointManager.latestStableCheckpoint _
  have hrest : Keeps (fun s : CheckpointProcess => s.manager.latestStableCheckpoint) (do
      clearStableCheckpointProof
      copyStableCheckpointProof cp
      clearPartialCheckpointProofs cp) := by
    refine .bind (.bind .read fun s => .bind (.forEach fun _ _ => keeps_onProcess _ _) fun _ => .update fun _ => rfl)
      fun _ => .bind (.bind .read fun s => .forEach fun _ _ => ?_)
      fun _ => .bind .read fun s => .bind (.forEach fun _ _ => .forEach fun _ _ => keeps_onProcess _ _)
      fun _ => .update fun _ => rfl
    exact .bind (keeps_onProcess _ _) fun _ => .update fun _ => rfl
  rw [stabilizeCheckpoint]
  cases h : (setLatestStableCheckpoint cp).result s with
  | ok =>
    rw [final_bind_ok h]
    refine (hrest _).trans ?_
    rw [setLatestStableCheckpoint, modifyManager, final_update_bind]
    exact hset _
  | error =>
    rw [final_bind_error h, setLatestStableCheckpoint, modifyManager, final_update_bind]
    exact hset _

variable (node outside cp)

/-- The comparison after a checkpoint became stable is of that checkpoint with itself. -/
theorem maybeStabilizeCheckpoint_eq : maybeStabilizeCheckpoint node outside cp = (do
    let s ← read
    if checkpointAttestants node s.manager cp ≥ honestMemberSize node.swarmSize then do
      stabilizeCheckpoint cp
      let s ← read
      if s.manager.latestLocalCheckpoint.sequence < cp.sequence then sendDelayedStateRequest cp else pure ()
    else pure ()) := by
  refine eq_of_runFrom fun s => ?_
  rw [maybeStabilizeCheckpoint, runFrom_bind_ok (runFrom_read s), runFrom_bind_ok (runFrom_read s)]
  split
  · refine runFrom_bind_congr fun _ _ => ?_
    rw [runFrom_bind_ok (runFrom_read _), runFrom_bind_ok (runFrom_read _)]
    split
    · rfl
    · rw [if_neg]
      rw [stabilizeCheckpoint_stable]
      exact fun h => h.2 rfl
  · rfl

/-- The comparison after a local checkpoint is of that checkpoint with itself. -/
theorem localCheckpointReached_eq : localCheckpointReached node outside cp = (do
    let s ← read
    if cp.sequence ≤ s.manager.latestLocalCheckpoint.sequence then
      raise (s!"reached a checkpoint at {cp.sequence} which is not newer than the previous checkpoint at " ++
        s!"{s.manager.latestLocalCheckpoint.sequence}")
    else do
      modifyManager fun m => { m with latestLocalCheckpoint := cp }
      onProcess (assign .checkpoint cp latestLocalCheckpointKey [])
      onProcess (node.multicast { (default : BznEnvelope) with
        payload := .checkpointMsg (node.wire.checkpointMsg.serialize ⟨cp.sequence, cp.hash⟩) })) := by
  refine eq_of_runFrom fun s => ?_
  rw [localCheckpointReached, runFrom_bind_ok (runFrom_read s), runFrom_bind_ok (runFrom_read s)]
  split
  · rfl
  · rw [modifyManager, runFrom_bind_ok (runFrom_update _ _), runFrom_bind_ok (runFrom_update _ _)]
    refine runFrom_bind_congr fun _ _ => ?_
    rw [← bind_pure (onProcess (node.multicast _)), bind_assoc]
    refine runFrom_bind_congr fun _ _ => ?_
    rw [pure_bind, runFrom_bind_ok (runFrom_read _), if_neg]
    exact fun h => h.2 rfl

end

/-- A run of the manager, also one that throws, that writes under its own names and has
effects in `E` only. -/
def ManagerFrame (E : Effect → Prop) (s s' : CheckpointProcess) : Prop :=
  s.toProcess.Frame checkpointNames E s'.toProcess

section

variable {node : Node} {outside : Outside} {cp : Checkpoint} {E : Effect → Prop}

instance : Std.Refl (ManagerFrame E) := ⟨fun s => .refl s.toProcess⟩

instance : IsTrans CheckpointProcess (ManagerFrame E) := ⟨fun _ _ _ => Process.Frame.trans⟩

theorem onProcess_frame {α : Type} {m : Program Fault Process α} (h : Within (Process.Frame checkpointNames E) m) :
    Within (ManagerFrame E) (onProcess m) :=
  fun s => h s.toProcess

theorem modifyManager_frame (f : CheckpointManager → CheckpointManager) : Within (ManagerFrame E) (modifyManager f) :=
  fun s => .refl s.toProcess

theorem stabilizeCheckpoint_frame (cp : Checkpoint) : Within (ManagerFrame E) (stabilizeCheckpoint cp) := by
  refine .bind (.bind (modifyManager_frame _) fun _ => onProcess_frame (.assign (by decide))) fun _ =>
    .bind (.bind .read fun s => .bind (.forEach fun _ _ => onProcess_frame (.destroy (by decide))) fun _ =>
      modifyManager_frame _) fun _ =>
    .bind (.bind .read fun s => .forEach fun _ _ => .bind (onProcess_frame (.persistent (by decide))) fun _ =>
      modifyManager_frame _) fun _ =>
    .bind .read fun s => .bind (.forEach fun _ _ => .forEach fun _ _ =>
      onProcess_frame (.destroy (by decide))) fun _ => modifyManager_frame _

theorem addStableCheckpointEvidence_frame (msg : BznEnvelope) :
    Within (ManagerFrame E) (addStableCheckpointEvidence node msg) :=
  .bind (onProcess_frame (.persistent (by decide))) fun _ => modifyManager_frame _

theorem addPartialCheckpointProof_frame (cp : Checkpoint) (msg : BznEnvelope) :
    Within (ManagerFrame E) (addPartialCheckpointProof node cp msg) :=
  .bind (modifyManager_frame _) fun _ => .bind .read fun _ =>
    .ite (.bind (onProcess_frame (.persistent (by decide))) fun _ => modifyManager_frame _) (.pure _)

theorem handleCheckpointMessage_emits (hE : ∀ cp, E (.triggerCatchup cp)) (msg : BznEnvelope) :
    Within (ManagerFrame E) (handleCheckpointMessage node outside msg) := by
  have hmaybe : ∀ cp, Within (ManagerFrame E) (maybeStabilizeCheckpoint node outside cp) := by
    intro cp
    rw [maybeStabilizeCheckpoint_eq]
    exact .bind .read fun _ => .ite (.bind (stabilizeCheckpoint_frame cp) fun _ => .bind .read fun _ =>
      .ite (onProcess_frame (.emit (hE cp))) (.pure _)) (.pure _)
  unfold handleCheckpointMessage
  split
  · exact .pure _
  · exact .bind .read fun _ => .ite (.pure _) <| .ite (.ite (addStableCheckpointEvidence_frame msg) (.pure _))
      (.bind (addPartialCheckpointProof_frame _ msg) fun _ => hmaybe _)

theorem localCheckpointReached_emits (hE : ∀ msg : BznEnvelope, msg.payload = .checkpointMsg
    (node.wire.checkpointMsg.serialize ⟨cp.sequence, cp.hash⟩) → E (.multicast msg)) :
    Within (ManagerFrame E) (localCheckpointReached node outside cp) := by
  rw [localCheckpointReached_eq]
  exact .bind .read fun _ => .ite (.fail _) <| .bind (modifyManager_frame _) fun _ =>
    .bind (onProcess_frame (.assign (by decide))) fun _ =>
      onProcess_frame (Node.multicast_frame fun msg h => hE msg (Node.maybeSigned_payload h))

theorem call_emits {call : CheckpointCall} (hcatchup : ∀ cp, E (.triggerCatchup cp))
    (hmulticast : ∀ msg cp, call.reached? = some cp → msg.payload = .checkpointMsg
      (node.wire.checkpointMsg.serialize ⟨cp.sequence, cp.hash⟩) → E (.multicast msg)) :
    Within (ManagerFrame E) (call.program node) := by
  cases call with
  | handleCheckpointMessage _ msg => exact handleCheckpointMessage_emits hcatchup msg
  | localCheckpointReached _ cp => exact localCheckpointReached_emits fun msg => hmulticast msg cp rfl

theorem handleCatchupTimeout_emits (hE : ∀ peer (msg : BznEnvelope) text, msg.payload = .pbftMembership text →
    E (.send peer msg)) (cp : Checkpoint) : Within (ManagerFrame E) (handleCatchupTimeout node outside cp) := by
  refine .bind .read fun _ => .ite (.bind .read fun s => ?_) (.pure _)
  dsimp only
  split
  · exact onProcess_frame (Node.sendMaybeSigned_frame fun msg h => hE _ msg _ (Node.maybeSigned_payload h))
  · exact .fail _

end

/-- What a run of the manager, also one that throws, may change outside it. -/
def CheckpointFrame (node : Node) (reached : Option Checkpoint) (s s' : CheckpointProcess) : Prop :=
  s.toProcess.Frame checkpointNames (Effect.OfCheckpoints node reached) s'.toProcess

theorem call_within {node : Node} (call : CheckpointCall) :
    Within (CheckpointFrame node call.reached?) (call.program node) :=
  call_emits (E := Effect.OfCheckpoints node call.reached?) (fun _ => trivial) fun _ cp hcp hmsg => ⟨cp, hcp, hmsg⟩

/-! ## The calls -/

section

variable {node : Node} {outside : Outside} {s : CheckpointProcess} (hs : Mirrors s.toProcess s.manager)

include hs

theorem onProcess_endsAt {m : Program Fault Process Unit} (hf : Within (Process.Frame [] fun _ => True) m) :
    EndsAt (onProcess m) s s.manager :=
  fun _ => ⟨rfl, hs.frame (hf s.toProcess) fun _ _ => List.not_mem_nil⟩

theorem sendStateRequest_endsAt : EndsAt (sendStateRequest node outside) s s.manager := by
  intro h
  simp only [sendStateRequest, result_read_bind, final_read_bind] at h ⊢
  split at h
  · exact onProcess_endsAt hs (Node.sendMaybeSigned_frame fun _ _ => trivial) h
  · cases h

theorem maybeStabilizeCheckpoint_endsAt (cp : Checkpoint) :
    EndsAt (maybeStabilizeCheckpoint node outside cp) s (s.manager.maybeStabilized node cp) := by
  rw [maybeStabilizeCheckpoint_eq]
  refine .bind_read ?_
  rw [CheckpointManager.maybeStabilized]
  split
  · refine (stabilizeCheckpoint_endsAt hs cp).bind fun s' hman hmir => .bind_read ?_
    rw [← hman] at hmir ⊢
    exact .ite (fun _ => onProcess_endsAt hmir (.emit trivial)) fun _ => .pure hmir
  · exact .pure hs

theorem addStableCheckpointEvidence_endsAt (msg : BznEnvelope) :
    EndsAt (addStableCheckpointEvidence node msg) s
      (s.manager.withEvidence msg.sender (node.wire.envelope.serialize msg)) :=
  addEvidence_endsAt hs (msg.sender, node.wire.envelope.serialize msg)

theorem addPartialCheckpointProof_endsAt (cp : Checkpoint) (msg : BznEnvelope) :
    EndsAt (addPartialCheckpointProof node cp msg) s
      (s.manager.withPartial cp msg.sender (node.wire.envelope.serialize msg)) := by
  intro h
  simp only [addPartialCheckpointProof, modifyManager, result_update_bind, final_update_bind, result_read_bind,
    final_read_bind, Map.lookup2_insertIfNew] at h ⊢
  split at h
  · rename_i hfirst
    rw [if_pos hfirst]
    obtain ⟨value, hv, -⟩ := result_bind_eq_ok h
    rw [final_bind_ok hv]
    simp only [final_onProcess, final_update] at hv ⊢
    obtain ⟨hval, hcont⟩ :=
      hs.partialProofs.persistent_ok partialSubkeys_injective string_faithful (x := (cp, msg.sender)) hv
    rw [Option.isNone_iff_eq_none] at hfirst
    rw [hfirst] at hval
    subst hval
    rw [CheckpointManager.withPartial, Map.insert_getD_insertIfNew_of_none hfirst, Map.insert2_insertIfNew]
    have hf : Within (Process.Frame [partialCheckpointProofsKey] fun _ => True)
        (persistent .string (node.wire.envelope.serialize msg) partialCheckpointProofsKey
          [Conversion.checkpoint.toString cp, msg.sender]) := .persistent (List.mem_singleton_self _)
    refine ⟨rfl, hs.replace_partialProofs (hf s.toProcess) ?_⟩
    have hlookup : (fun x : Checkpoint × Uuid => Map.lookup2 (Map.insert2 s.manager.partialCheckpointProofs cp
          msg.sender (node.wire.envelope.serialize msg)) x.1 x.2) =
        Function.update (fun x => Map.lookup2 s.manager.partialCheckpointProofs x.1 x.2) (cp, msg.sender)
          (some (node.wire.envelope.serialize msg)) := by
      funext x
      rw [Map.lookup2_insert2, Function.update_apply]
      simp only [Prod.ext_iff, eq_comm]
    rw [hlookup]
    exact hcont
  · rename_i hseen
    rw [if_neg hseen]
    rw [Option.isNone_iff_eq_none] at hseen
    obtain ⟨hsame, hnew⟩ := Map.insert_getD_insertIfNew_of_isSome (Option.isSome_iff_ne_none.mpr hseen)
      (node.wire.envelope.serialize msg)
    rw [CheckpointManager.withPartial, hsame, hnew]
    exact ⟨rfl, hs⟩

/-- A checkpoint message that was handled. -/
theorem handleCheckpointMessage_endsAt (msg : BznEnvelope) :
    EndsAt (handleCheckpointMessage node outside msg) s (s.manager.handled node msg) := by
  unfold handleCheckpointMessage CheckpointManager.handled
  cases node.wire.checkpointMsg.parse msg.checkpointMsg with
  | none => exact .pure hs
  | some =>
    refine .bind_read ?_
    dsimp only
    split
    · exact .pure hs
    · split
      · split
        · exact addStableCheckpointEvidence_endsAt hs msg
        · exact .pure hs
      · refine (addPartialCheckpointProof_endsAt hs _ msg).bind fun s' hman hmir => ?_
        rw [← hman] at hmir ⊢
        exact maybeStabilizeCheckpoint_endsAt hmir _

/-- A local checkpoint that was reached. -/
theorem localCheckpointReached_endsAt (cp : Checkpoint) :
    EndsAt (localCheckpointReached node outside cp) s (s.manager.reached cp) := by
  rw [localCheckpointReached_eq]
  refine .bind_read (.ite (fun _ h => by cases h) fun _ => ?_)
  have hassign : EndsAt (do
      modifyManager fun m => { m with latestLocalCheckpoint := cp }
      onProcess (assign .checkpoint cp latestLocalCheckpointKey [])) s (s.manager.reached cp) := by
    intro h
    simp only [modifyManager, result_update_bind, final_update_bind, result_onProcess, final_onProcess] at h ⊢
    exact ⟨rfl, hs.writes_local (assign_ok h)⟩
  rw [← bind_assoc]
  refine hassign.bind fun s' hman hmir => ?_
  rw [← hman] at hmir ⊢
  exact onProcess_endsAt hmir (Node.multicast_frame fun _ _ => trivial)

/-- A call that returned. -/
theorem call_endsAt (call : CheckpointCall) : EndsAt (call.program node) s (call.after node s.manager) := by
  cases call with
  | handleCheckpointMessage _ msg => exact handleCheckpointMessage_endsAt hs msg
  | localCheckpointReached _ cp => exact localCheckpointReached_endsAt hs cp

end

end SwarmDb
