import SwarmDb.Pbft.Sample
import SwarmDb.Pbft.NewviewContent

/-!
# Filling the holes of a NEWVIEW

The loop of `fill_in_missing_pre_prepares`, iteration by iteration (`fillLoop_eq`). Its counter is an unsigned number of
64 bits: from a checkpoint at the greatest number it starts from zero, and up to a pre-prepare at the greatest number it
never ends (`fillLoop_ends_iff`, `fillLoop_never_ends`).
-/

namespace SwarmDb

open Lib Program

section

variable (node : Node) (outside : Outside)

/-- The last sequence that has a pre-prepare. -/
def lastSequenceNumber (prePrepares : Map UInt64 BznEnvelope) : UInt64 := (prePrepares.toList.map Prod.fst).foldl max 0

/-- One iteration: a pre-prepare of an operation that does nothing, for a sequence that has none. -/
def fillIn (newView : UInt64) (prePrepares : Map UInt64 BznEnvelope) (i : UInt64) :
    Except Fault (Map UInt64 BznEnvelope) := do
  if (prePrepares[i]?).isSome then pure prePrepares
  else pure (prePrepares.insert i (← nullPrePrepare node outside newView i))

/-- `fill_in_missing_pre_prepares` for at most a number of iterations; none where it is not at its end by then. -/
def fillLoop (iterations : Nat) (maxCheckpointSequence newView : UInt64) (prePrepares : Map UInt64 BznEnvelope) :
    Option (Except Fault (Map UInt64 BznEnvelope)) :=
  countUp (lastSequenceNumber prePrepares) (fillIn node outside newView) iterations
    (maxCheckpointSequence + 1) prePrepares

variable {node outside}

theorem fillIn_isOk (newView : UInt64) (prePrepares : Map UInt64 BznEnvelope) (i : UInt64) :
    ∃ prePrepares', fillIn node outside newView prePrepares i = .ok prePrepares' := by
  obtain ⟨hash, hhash⟩ := node.hash_nullRequest
  obtain ⟨env, henv, -⟩ := nullPrePrepare_isOk outside newView hhash i
  unfold fillIn
  split
  · exact ⟨_, rfl⟩
  · rw [henv]
    exact ⟨_, rfl⟩

/-- The iterations make what the function makes: where the loop ends, once there are enough of them. -/
theorem fillLoop_eq (iterations : Nat) (maxCheckpointSequence newView : UInt64) (prePrepares : Map UInt64 BznEnvelope) :
    fillLoop node outside iterations maxCheckpointSequence newView prePrepares =
      if lastSequenceNumber prePrepares ≠ 0 - 1 ∧
          (lastSequenceNumber prePrepares).toNat + 1 - (maxCheckpointSequence + 1).toNat ≤ iterations then
        some (fillInMissingPrePrepares node outside maxCheckpointSequence newView prePrepares)
      else none := by
  have hfill : fillInMissingPrePrepares node outside maxCheckpointSequence newView prePrepares =
      (sequencesBetween (maxCheckpointSequence + 1) (lastSequenceNumber prePrepares)).elim (.error .divergence)
        fun sequences => sequences.foldlM (fillIn node outside newView) prePrepares := by
    rw [fillInMissingPrePrepares, ← lastSequenceNumber]
    cases sequencesBetween (maxCheckpointSequence + 1) (lastSequenceNumber prePrepares) <;> rfl
  rw [fillLoop, countUp_eq (fillIn_isOk newView), hfill]
  generalize lastSequenceNumber prePrepares = last
  unfold sequencesBetween
  by_cases hlast : last = 0 - 1
  · rw [if_pos hlast, if_neg (fun h => h.1 hlast), Option.bind_none]
  · rw [if_neg hlast, Option.bind_some, List.length_map, List.length_range']
    simp only [hlast, ne_eq, not_false_eq_true, true_and, Option.elim_some]

variable (node outside) in
/-- The holes are filled after no more iterations than there are sequences above the checkpoint up to the last
pre-prepare, none where that is not above it, exactly where neither is the greatest number. -/
theorem fillLoop_ends_iff (maxCheckpointSequence newView : UInt64) (prePrepares : Map UInt64 BznEnvelope) :
    (∃ prePrepares', fillLoop node outside ((lastSequenceNumber prePrepares).toNat - maxCheckpointSequence.toNat)
        maxCheckpointSequence newView prePrepares = some (.ok prePrepares')) ↔
      lastSequenceNumber prePrepares ≠ 0 - 1 ∧ maxCheckpointSequence ≠ 0 - 1 := by
  rw [fillLoop_eq]
  constructor
  · rintro ⟨prePrepares', h⟩
    split at h
    · next hends =>
      refine ⟨hends.1, ?_⟩
      rintro rfl
      -- the counter starts from zero, so that there is an iteration
      have hzero : ((0 - 1 : UInt64) + 1).toNat = 0 := rfl
      have htop : (0 - 1 : UInt64).toNat = 2 ^ 64 - 1 := rfl
      have hlast := (lastSequenceNumber prePrepares).toNat_lt
      omega
    · cases h
  · rintro ⟨hlast, hmax⟩
    have hbound : (lastSequenceNumber prePrepares).toNat + 1 - (maxCheckpointSequence + 1).toNat ≤
        (lastSequenceNumber prePrepares).toNat - maxCheckpointSequence.toNat := by
      rw [toNat_add_one hmax]
      omega
    rw [if_pos ⟨hlast, hbound⟩]
    obtain ⟨hash, hhash⟩ := node.hash_nullRequest
    unfold fillInMissingPrePrepares
    cases hs : sequencesBetween (maxCheckpointSequence + 1) (lastSequenceNumber prePrepares) with
    | none => exact absurd (sequencesBetween_eq_none.mp hs) hlast
    | some sequences =>
      obtain ⟨prePrepares', hok, -⟩ := foldlM_fill outside newView hhash sequences prePrepares
      refine ⟨prePrepares', ?_⟩
      rw [lastSequenceNumber] at hs
      simp only [hs]
      exact congrArg some hok

end

/-- A pre-prepare at the greatest number, which a primary may have sent, keeps the loop going for ever.
From a checkpoint at the greatest number there is an iteration although no pre-prepare is above it. -/
theorem fillLoop_never_ends :
    (∀ iterations, fillLoop (sampleNode fourPeers "A") sampleOutside iterations 0 1
      ((∅ : Map UInt64 BznEnvelope).insert (0 - 1) default) = none) ∧
    fillLoop (sampleNode fourPeers "A") sampleOutside 0 (0 - 1) 1 (∅ : Map UInt64 BznEnvelope) = none := by
  have hlast : lastSequenceNumber ((∅ : Map UInt64 BznEnvelope).insert (0 - 1) default) = 0 - 1 := by decide +kernel
  refine ⟨fun iterations => ?_, ?_⟩
  · rw [fillLoop_eq, if_neg (fun h => h.1 hlast)]
  · rw [fillLoop_eq, if_neg (by decide +kernel)]

end SwarmDb
