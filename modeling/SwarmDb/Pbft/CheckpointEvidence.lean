import SwarmDb.Pbft.CheckpointStorage

/-!
# The messages behind the checkpoints

`CheckpointManager.Supported`: every text that the manager holds is a message
of the sender it is filed under, for the checkpoint it is filed under, and a
stable checkpoint other than one at sequence 0 has messages of enough peers.
The calls keep it (`handled_supported`, `reached_supported`).
-/

namespace SwarmDb

open Lib Program

/-- An envelope with a checkpoint message. -/
def BznEnvelope.IsCheckpoint (env : BznEnvelope) : Prop := ∃ text, env.payload = .checkpointMsg text

/-- The text of a message with `P`, of a sender and for a checkpoint. -/
def Evidence (node : Node) (P : BznEnvelope → Prop) (cp : Checkpoint) (sender : Uuid) (text : Bytes) : Prop :=
  ∃ msg, text = node.wire.envelope.serialize msg ∧ msg.sender = sender ∧
    node.wire.checkpointMsg.parse msg.checkpointMsg = some ⟨cp.sequence, cp.hash⟩ ∧ P msg

namespace CheckpointManager

/-- `f + 1` peers have sent a message for the stable checkpoint. -/
def Enough (node : Node) (m : CheckpointManager) : Prop :=
  honestMemberSize node.swarmSize ≤ (m.latestStableCheckpointProof.toList.filter fun pair => node.isPeer pair.1).length

/-- What the manager holds is evidence, and enough of it. -/
structure Supported (node : Node) (P : BznEnvelope → Prop) (m : CheckpointManager) : Prop where
  noEmpty : Map.NoEmpty m.partialCheckpointProofs
  partialProofs : ∀ cp u text, Map.lookup2 m.partialCheckpointProofs cp u = some text → Evidence node P cp u text
  proof : ∀ (u : Uuid) (text : Bytes), m.latestStableCheckpointProof[u]? = some text →
    Evidence node P m.latestStableCheckpoint u text
  enough : m.latestStableCheckpoint.sequence = 0 ∨
    honestMemberSize node.swarmSize ≤ (m.latestStableCheckpointProof.toList.filter fun pair =>
      node.isPeer pair.1).length

/-- The manager that starts without any message. -/
def initial : CheckpointManager := ⟨⟨0, initialCheckpointHash⟩, ∅, ⟨0, initialCheckpointHash⟩, ∅⟩

variable {node : Node} {P : BznEnvelope → Prop} {m : CheckpointManager}

theorem initial_supported : initial.Supported node P where
  noEmpty := Map.noEmpty_empty
  partialProofs cp u text h := by simp [initial, Map.lookup2] at h
  proof u text h := by simp [initial] at h
  enough := .inl rfl

theorem reached_supported (h : m.Supported node P) (cp : Checkpoint) : (m.reached cp).Supported node P :=
  ⟨h.noEmpty, h.partialProofs, h.proof, h.enough⟩

/-- No entry of a proof is lost when another is added. -/
theorem withEvidence_enough (h : m.Enough node) (sender : Uuid) (text : Bytes) :
    (m.withEvidence sender text).Enough node := by
  refine h.trans (List.Nodup.subperm ((Map.nodup_toList _).filter _) fun pair hpair => ?_).length_le
  rw [List.mem_filter, Map.mem_toList_iff] at hpair ⊢
  rw [withEvidence, Map.lookup_insertIfNew, hpair.1]
  exact ⟨rfl, hpair.2⟩

variable {sender : Uuid} {text : Bytes} {cp : Checkpoint}

theorem withEvidence_supported (h : m.Supported node P) (he : Evidence node P m.latestStableCheckpoint sender text) :
    (m.withEvidence sender text).Supported node P where
  noEmpty := h.noEmpty
  partialProofs := h.partialProofs
  proof u t ht := by
    rw [withEvidence, Map.lookup_insertIfNew, Option.or_eq_some_iff] at ht
    rcases ht with ht | ⟨-, ht⟩
    · exact h.proof u t ht
    · split at ht
      · rename_i hu
        cases ht
        exact hu ▸ he
      · cases ht
  enough := h.enough.imp_right fun hq => withEvidence_enough hq sender text

theorem withPartial_supported (h : m.Supported node P) (he : Evidence node P cp sender text) :
    (m.withPartial cp sender text).Supported node P where
  noEmpty := by
    cases hs : Map.lookup2 m.partialCheckpointProofs cp sender with
    | none =>
      rw [withPartial, Map.insert_getD_insertIfNew_of_none hs]
      exact Map.noEmpty_insert2 h.noEmpty cp sender text
    | some t =>
      rw [withPartial, (Map.insert_getD_insertIfNew_of_isSome (by rw [hs]; rfl) text).1]
      exact h.noEmpty
  partialProofs c u t ht := by
    cases hs : Map.lookup2 m.partialCheckpointProofs cp sender with
    | none =>
      rw [withPartial, Map.insert_getD_insertIfNew_of_none hs, Map.lookup2_insert2] at ht
      split at ht
      · rename_i hx
        cases ht
        rw [← hx.1, ← hx.2]
        exact he
      · exact h.partialProofs c u t ht
    | some t' =>
      rw [withPartial, (Map.insert_getD_insertIfNew_of_isSome (by rw [hs]; rfl) text).1] at ht
      exact h.partialProofs c u t ht
  proof := h.proof
  enough := h.enough

theorem maybeStabilized_supported (h : m.Supported node P) (cp : Checkpoint) :
    (m.maybeStabilized node cp).Supported node P := by
  unfold maybeStabilized
  split
  · rename_i hq
    refine ⟨?_, fun c u t ht => ?_, fun u t ht => ?_, .inr hq⟩
    · intro c i hi
      rw [stabilized, Map.lookup_filter, Option.filter_eq_some_iff] at hi
      exact h.noEmpty c i hi.1
    · rw [stabilized, Map.lookup2_filter] at ht
      split at ht
      · exact h.partialProofs c u t ht
      · cases ht
    · rw [stabilized, Map.lookup_getD] at ht
      exact h.partialProofs cp u t ht
  · exact h

/-- A checkpoint that became stable has enough messages. -/
theorem maybeStabilized_enough (h : honestMemberSize node.swarmSize ≤ checkpointAttestants node m cp) :
      (m.maybeStabilized node cp).Enough node := by
  rw [maybeStabilized, if_pos h]
  exact h

/-- A stable checkpoint keeps enough messages. -/
theorem handled_enough (h : m.Enough node) (msg : BznEnvelope) : (m.handled node msg).Enough node := by
  unfold handled
  split
  · exact h
  · dsimp only
    split
    · exact h
    · split
      · split
        · exact withEvidence_enough h _ _
        · exact h
      · unfold maybeStabilized
        split
        · assumption
        · exact h

/-- A checkpoint message with `P` keeps the manager supported. -/
theorem handled_supported (h : m.Supported node P) {msg : BznEnvelope} (hmsg : P msg) :
    (m.handled node msg).Supported node P := by
  unfold handled
  cases hp : node.wire.checkpointMsg.parse msg.checkpointMsg with
  | none => exact h
  | some inner =>
    have he : Evidence node P ⟨inner.sequence, inner.stateHash⟩ msg.sender (node.wire.envelope.serialize msg) :=
      ⟨msg, rfl, rfl, hp, hmsg⟩
    dsimp only
    split
    · exact h
    · split
      · split
        · rename_i heq
          exact withEvidence_supported h (heq ▸ he)
        · exact h
      · exact maybeStabilized_supported (withPartial_supported h he) _

end CheckpointManager

end SwarmDb
