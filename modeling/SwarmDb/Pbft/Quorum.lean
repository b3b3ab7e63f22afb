import SwarmDb.Lib.Quorum

/-!
# Quorum sizes

The sizes that `pbft` derives from the number of peers, for a swarm of at least
one peer, and what two sets of `honest_majority_size` peers have in common:
`honest_member_size` peers, less the remainder of the division that
`faulty_nodes_bound` truncates.
-/

namespace SwarmDb

/-- `f = floor((n - 1) / 3)` -/
def faultyNodesBound (swarmSize : Nat) : Nat := (swarmSize - 1) / 3

def honestMemberSize (swarmSize : Nat) : Nat := faultyNodesBound swarmSize + 1

def honestMajoritySize (swarmSize : Nat) : Nat := faultyNodesBound swarmSize * 2 + 1

section

variable {α : Type} [DecidableEq α] {n : Nat}

/-- Every two majorities of a set of peers have so many members in common. -/
def MajoritiesShare (peers : Finset α) (k : Nat) : Prop :=
  ∀ A B, A ⊆ peers → B ⊆ peers → A.card = honestMajoritySize peers.card →
    B.card = honestMajoritySize peers.card → k ≤ (A ∩ B).card

theorem honestMajoritySize_le (h : 1 ≤ n) : honestMajoritySize n ≤ n := by
  unfold honestMajoritySize faultyNodesBound
  omega

theorem two_mul_honestMajoritySize_sub (h : 1 ≤ n) :
    2 * honestMajoritySize n - n = honestMemberSize n - (n - 1) % 3 := by
  unfold honestMajoritySize honestMemberSize faultyNodesBound
  omega

/-- The least overlap of two majorities: `honest_member_size`, less the
remainder of the truncated division. It is `honest_member_size` itself exactly
in a swarm of `3f + 1` peers. -/
theorem majoritiesShare_iff (peers : Finset α) (h : 1 ≤ peers.card) :
    (∀ k, MajoritiesShare peers k ↔ k ≤ honestMemberSize peers.card - (peers.card - 1) % 3) ∧
    (MajoritiesShare peers (honestMemberSize peers.card) ↔ peers.card % 3 = 1) := by
  have hshare : ∀ k, MajoritiesShare peers k ↔ k ≤ honestMemberSize peers.card - (peers.card - 1) % 3 := by
    intro k
    rw [← two_mul_honestMajoritySize_sub h]
    constructor
    · intro hk
      obtain ⟨A, hA, B, hB, hAq, hBq, hcard⟩ := Lib.Quorum.exists_card_inter_eq peers (honestMajoritySize_le h)
      exact hcard ▸ hk A B hA hB hAq hBq
    · intro hk A B hA hB hAq hBq
      have := Lib.Quorum.card_add_card_le hA hB
      omega
  refine ⟨hshare, (hshare _).trans ?_⟩
  have : 0 < honestMemberSize peers.card := Nat.succ_pos _
  omega

theorem majoritiesShare_fourPeers : 1 ≤ (Finset.range 4).card ∧
    ((∀ k, MajoritiesShare (Finset.range 4) k ↔
        k ≤ honestMemberSize (Finset.range 4).card - ((Finset.range 4).card - 1) % 3) ∧
      (MajoritiesShare (Finset.range 4) (honestMemberSize (Finset.range 4).card) ↔ (Finset.range 4).card % 3 = 1)) :=
  ⟨by decide, majoritiesShare_iff _ (by decide)⟩

/-- In a swarm of two peers a majority is a single peer. -/
theorem majorities_disjoint_twoPeers :
    ¬ MajoritiesShare (Finset.range 2) (honestMemberSize (Finset.range 2).card) := by
  intro h
  have := h {0} {1} (by decide) (by decide) (by decide) (by decide)
  revert this
  decide

end

end SwarmDb
