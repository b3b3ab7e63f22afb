import SwarmDb.Pbft.CheckpointStorage
import SwarmDb.Pbft.Sample

/-!
# When the stable checkpoint moves back

A message for a checkpoint below the stable one is taken up as long as it is
not below the local one, and enough of them make the older checkpoint stable
again. `stableSequence_monotone_iff` says that this is the only way in which the
sequence of the stable checkpoint can decrease.
-/

namespace SwarmDb

open Lib Program

/-! ## The stable checkpoint after a call -/

theorem keeps_addStableCheckpointEvidence (node : Node) (msg : BznEnvelope) :
    Keeps (fun s : CheckpointProcess => s.manager.latestStableCheckpoint) (addStableCheckpointEvidence node msg) :=
  .bind (keeps_onProcess _ _) fun _ => .update fun _ => rfl

variable {s : CheckpointProcess} {cp : Checkpoint} {node : Node} {msg : BznEnvelope}

/-- Whether a message makes a checkpoint stable: it can be parsed, is not below
the local checkpoint and not at the stable one, and with it enough peers have
sent one for this checkpoint. -/
def Stabilizes (node : Node) (m : CheckpointManager) (msg : BznEnvelope) (cp : Checkpoint) : Prop :=
  node.wire.checkpointMsg.parse msg.checkpointMsg = some ⟨cp.sequence, cp.hash⟩ ∧
  m.latestLocalCheckpoint.sequence ≤ cp.sequence ∧ cp.sequence ≠ m.latestStableCheckpoint.sequence ∧
  honestMemberSize node.swarmSize ≤
    (((m.partialCheckpointProofs.getD cp ∅).insert msg.sender []).toList.map Prod.fst |>.filter node.isPeer).length

theorem maybeStabilizeCheckpoint_stable (node : Node) (outside : Outside) (cp : Checkpoint) (s : CheckpointProcess) :
    ((maybeStabilizeCheckpoint node outside cp).final s).manager.latestStableCheckpoint =
      if checkpointAttestants node s.manager cp ≥ honestMemberSize node.swarmSize then cp
      else s.manager.latestStableCheckpoint := by
  rw [maybeStabilizeCheckpoint_eq, final_read_bind]
  split
  · have hrest : Keeps (fun s : CheckpointProcess => s.manager.latestStableCheckpoint) (do
        let s ← read
        if s.manager.latestLocalCheckpoint.sequence < cp.sequence then sendDelayedStateRequest cp else pure ()) :=
      .bind .read fun s => .ite (keeps_onProcess _ _) (.pure _)
    cases h : (stabilizeCheckpoint cp).result s with
    | ok => rw [final_bind_ok h]; exact (hrest _).trans stabilizeCheckpoint_stable
    | error => rw [final_bind_error h]; exact stabilizeCheckpoint_stable
  · rfl

/-- The messages on record for a checkpoint once that of a sender is added. -/
theorem checkpointAttestants_insert2 (node : Node) (m : CheckpointManager) (cp : Checkpoint) (sender : Uuid)
    (partialProofs : Map Checkpoint (Map Uuid Bytes))
    (h : ∀ u, (Map.lookup2 partialProofs cp u).isSome =
      ((m.partialCheckpointProofs.getD cp ∅).insert sender [])[u]?.isSome) :
    checkpointAttestants node { m with partialCheckpointProofs := partialProofs } cp =
      ((((m.partialCheckpointProofs.getD cp ∅).insert sender []).toList.map Prod.fst).filter node.isPeer).length := by
  have hkeys : (partialProofs.getD cp ∅).toList.map Prod.fst =
      ((m.partialCheckpointProofs.getD cp ∅).insert sender []).toList.map Prod.fst :=
    Map.keys_eq fun u => by rw [Map.lookup_getD]; exact h u
  rw [checkpointAttestants, ← hkeys, List.filter_map, List.length_map]
  rfl

theorem addPartialCheckpointProof_ok (h : (addPartialCheckpointProof node cp msg).result s = .ok ()) :
    ∃ partialProofs, ((addPartialCheckpointProof node cp msg).final s).manager =
      { s.manager with partialCheckpointProofs := partialProofs } ∧
      ∀ u, (Map.lookup2 partialProofs cp u).isSome =
        ((s.manager.partialCheckpointProofs.getD cp ∅).insert msg.sender [])[u]?.isSome := by
  rw [addPartialCheckpointProof, modifyManager] at h ⊢
  simp only [result_update_bind, final_update_bind, result_read_bind, final_read_bind,
    Map.lookup2_insertIfNew] at h ⊢
  split at h
  · rename_i hfirst
    rw [if_pos hfirst]
    obtain ⟨value, hv, -⟩ := result_bind_eq_ok h
    rw [final_bind_ok hv]
    refine ⟨Map.insert2 (s.manager.partialCheckpointProofs.insertIfNew cp ∅) cp msg.sender value, rfl, fun u => ?_⟩
    rw [Map.lookup2_insert2, Map.lookup2_insertIfNew, Map.lookup_insert, Map.lookup_getD]
    by_cases hu : msg.sender = u
    · simp [hu]
    · simp [hu]
  · rename_i hseen
    rw [if_neg hseen]
    refine ⟨_, rfl, fun u => ?_⟩
    rw [Map.lookup2_insertIfNew, Map.lookup_insert, Map.lookup_getD]
    split
    · rename_i hu
      subst hu
      simpa [Option.isSome_iff_ne_none] using hseen
    · rfl

/-- A message that is handled moves the stable checkpoint exactly when it
stabilizes one. -/
theorem handleCheckpointMessage_stable {outside : Outside}
    (h : (handleCheckpointMessage node outside msg).result s = .ok ()) :
    (∀ cp, Stabilizes node s.manager msg cp →
      ((handleCheckpointMessage node outside msg).final s).manager.latestStableCheckpoint = cp) ∧
    ((∀ cp, ¬ Stabilizes node s.manager msg cp) →
      ((handleCheckpointMessage node outside msg).final s).manager.latestStableCheckpoint =
        s.manager.latestStableCheckpoint) := by
  unfold handleCheckpointMessage at h ⊢
  cases hp : node.wire.checkpointMsg.parse msg.checkpointMsg with
  | none => exact ⟨fun cp hs => (by rw [Stabilizes, hp] at hs; cases hs.1), fun _ => rfl⟩
  | some inner =>
    rw [hp] at h
    simp only [result_read_bind, final_read_bind] at h ⊢
    -- the only checkpoint the message can stabilize is its own
    have hown : ∀ cp, Stabilizes node s.manager msg cp → cp = ⟨inner.sequence, inner.stateHash⟩ := by
      intro cp hs
      have := hp.symm.trans hs.1
      simp only [Option.some.injEq] at this
      rw [this]
    split
    · rename_i hold
      refine ⟨fun cp hs => ?_, fun _ => rfl⟩
      rw [hown cp hs] at hs
      exact absurd hs.2.1 (UInt64.not_le.mpr hold)
    · rename_i hold
      rw [if_neg hold] at h
      split
      · rename_i heq
        refine ⟨fun cp hs => ?_, fun _ => ?_⟩
        · rw [hown cp hs] at hs
          exact absurd heq hs.2.2.1
        · split
          · exact keeps_addStableCheckpointEvidence node msg s
          · rfl
      · rename_i hne
        rw [if_neg hne] at h
        obtain ⟨u, hadd, -⟩ := result_bind_eq_ok h
        obtain ⟨partialProofs, hm, hsome⟩ := addPartialCheckpointProof_ok hadd
        rw [final_bind_ok hadd, maybeStabilizeCheckpoint_stable, hm,
          checkpointAttestants_insert2 node s.manager _ msg.sender partialProofs hsome]
        refine ⟨fun cp hs => ?_, fun hno => ?_⟩
        · obtain rfl := hown cp hs
          rw [if_pos hs.2.2.2]
        · rw [if_neg]
          exact fun hq => hno _ ⟨hp, UInt64.not_lt.mp hold, hne, hq⟩

/-! ## Runs -/

/-- A call that makes a checkpoint below the stable one stable. -/
def Regresses (node : Node) (s : CheckpointProcess) : CheckpointCall → Prop
  | .handleCheckpointMessage _ msg => ∃ cp, Stabilizes node s.manager msg cp ∧
      cp.sequence < s.manager.latestStableCheckpoint.sequence
  | .localCheckpointReached _ _ => False

theorem localCheckpointReached_stable (node : Node) (outside : Outside) (cp : Checkpoint) (s : CheckpointProcess) :
    ((localCheckpointReached node outside cp).final s).manager.latestStableCheckpoint =
      s.manager.latestStableCheckpoint := by
  have hkeeps : Keeps (fun s : CheckpointProcess => s.manager.latestStableCheckpoint)
      (localCheckpointReached node outside cp) := by
    rw [localCheckpointReached_eq]
    exact .bind .read fun _ => .ite (.fail _) <| .bind (.update fun _ => rfl) fun _ =>
      .bind (keeps_onProcess _ _) fun _ => keeps_onProcess _ _
  exact hkeeps s

/-- A call that returns moves the stable checkpoint back exactly when it
stabilizes an older one. -/
theorem call_lt_iff_regresses {call : CheckpointCall} (h : (call.program node).result s = .ok ()) :
    ((call.program node).final s).manager.latestStableCheckpoint.sequence <
      s.manager.latestStableCheckpoint.sequence ↔ Regresses node s call := by
  cases call with
  | localCheckpointReached =>
    simp only [CheckpointCall.program, localCheckpointReached_stable, Regresses, UInt64.lt_irrefl]
  | handleCheckpointMessage _ msg =>
    obtain ⟨hyes, hno⟩ := handleCheckpointMessage_stable h
    by_cases hs : ∃ cp, Stabilizes node s.manager msg cp
    · obtain ⟨cp, hcp⟩ := hs
      rw [CheckpointCall.program, hyes cp hcp]
      constructor
      · intro hlt
        exact ⟨cp, hcp, hlt⟩
      · rintro ⟨cp', hcp', hlt⟩
        rwa [← hyes cp' hcp', hyes cp hcp] at hlt
    · rw [CheckpointCall.program, hno fun cp hcp => hs ⟨cp, hcp⟩]
      constructor
      · intro hlt
        exact absurd hlt (UInt64.lt_irrefl _)
      · rintro ⟨cp, hcp, -⟩
        exact absurd ⟨cp, hcp⟩ hs

/-- The sequence of the stable checkpoint never decreases along a run. -/
def StableSequenceMonotone (node : Node) (s : CheckpointProcess) (calls : List CheckpointCall) : Prop :=
  ∀ i j, i ≤ j → j ≤ calls.length →
    (stateAfter node s (calls.take i)).manager.latestStableCheckpoint.sequence ≤
      (stateAfter node s (calls.take j)).manager.latestStableCheckpoint.sequence

/-- No call of a run makes an older checkpoint stable again. -/
def NeverRegresses (node : Node) (s : CheckpointProcess) (calls : List CheckpointCall) : Prop :=
  ∀ i (hi : i < calls.length), ¬ Regresses node (stateAfter node s (calls.take i)) (calls[i])

/-- Along a run of calls that return, the sequence of the stable checkpoint
never decreases exactly when no call makes an older checkpoint stable again. -/
theorem stableSequence_monotone_iff (node : Node) (s : CheckpointProcess) (calls : List CheckpointCall)
    (h : allReturn node s calls) :
    StableSequenceMonotone node s calls ↔ NeverRegresses node s calls := by
  have hstep : ∀ i (hi : i < calls.length),
      ¬ Regresses node (stateAfter node s (calls.take i)) (calls[i]) ↔
      (stateAfter node s (calls.take i)).manager.latestStableCheckpoint.sequence ≤
        (stateAfter node s (calls.take (i + 1))).manager.latestStableCheckpoint.sequence := by
    intro i hi
    rw [stateAfter_take_succ node s calls hi, ← call_lt_iff_regresses (allReturn_getElem h hi), UInt64.not_lt]
  constructor
  · intro hmono i hi
    exact (hstep i hi).mpr (hmono i (i + 1) (Nat.le_succ i) hi)
  · intro hno i j hij
    -- from step to step, up to `j`
    induction j, hij using Nat.le_induction with
    | base => exact fun _ => UInt64.le_refl _
    | succ j hij ih =>
      intro hj
      exact UInt64.le_trans (ih (by omega)) ((hstep j (by omega)).mp (hno j (by omega)))

/-! ## A run that moves back -/

/-- A manager of the sample swarm, built over an empty storage. -/
def sampleManager : CheckpointProcess :=
  ⟨newCheckpointManager.final (.start default), ⟨⟨0, initialCheckpointHash⟩, ∅, ⟨0, initialCheckpointHash⟩, ∅⟩⟩

/-- A checkpoint message of a peer of the sample swarm. -/
def sampleCheckpointMessage (sender : String) (sequence : UInt64) : CheckpointCall :=
  .handleCheckpointMessage sampleOutside { (default : BznEnvelope) with
    sender := ascii sender, payload := .checkpointMsg (Wire.plain.checkpointMsg.serialize ⟨sequence, []⟩) }

theorem stableSequence_monotone_inOrder :
    allReturn (sampleNode fourPeers "A") sampleManager
        [sampleCheckpointMessage "A" 100, sampleCheckpointMessage "B" 100] = true ∧
      (StableSequenceMonotone (sampleNode fourPeers "A") sampleManager
          [sampleCheckpointMessage "A" 100, sampleCheckpointMessage "B" 100] ↔
        NeverRegresses (sampleNode fourPeers "A") sampleManager
          [sampleCheckpointMessage "A" 100, sampleCheckpointMessage "B" 100]) :=
  ⟨by decide +kernel, stableSequence_monotone_iff _ _ _ (by decide +kernel)⟩

/-- Two messages for a checkpoint, and two delayed ones for an older one. -/
def delayedCheckpointMessages : List CheckpointCall :=
  [sampleCheckpointMessage "A" 200, sampleCheckpointMessage "B" 200,
    sampleCheckpointMessage "A" 100, sampleCheckpointMessage "B" 100]

/-- Delayed messages for checkpoint 100 replace the stable checkpoint 200. -/
theorem stableSequence_decreases :
    (checkpointProcessOver default).toOption.map (·.manager.latestStableCheckpoint) =
        some sampleManager.manager.latestStableCheckpoint ∧
      allReturn (sampleNode fourPeers "A") sampleManager delayedCheckpointMessages = true ∧
      ¬ StableSequenceMonotone (sampleNode fourPeers "A") sampleManager delayedCheckpointMessages := by
  refine ⟨by decide +kernel, by decide +kernel, fun h => ?_⟩
  have h200 : (stateAfter (sampleNode fourPeers "A") sampleManager
    (delayedCheckpointMessages.take 2)).manager.latestStableCheckpoint.sequence = 200 := by decide +kernel
  have h100 : (stateAfter (sampleNode fourPeers "A") sampleManager
    (delayedCheckpointMessages.take 4)).manager.latestStableCheckpoint.sequence = 100 := by decide +kernel
  have := h 2 4 (by decide) (by decide)
  rw [h200, h100] at this
  revert this
  decide

end SwarmDb
