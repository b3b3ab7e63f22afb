import Mathlib

/-!
# Intersections of quorums

How many members two sets of a given size must have in common: those that do
not fit next to each other (`card_add_card_le`), and no more
(`exists_card_inter_eq`). Where the faulty members are too few to make up the
intersection, a member that is not faulty is in both (`exists_common`).
-/

namespace SwarmDb.Lib.Quorum

variable {α : Type} [DecidableEq α] {S A B : Finset α}

theorem card_add_card_le (hA : A ⊆ S) (hB : B ⊆ S) : A.card + B.card ≤ (A ∩ B).card + S.card := by
  rw [← Finset.card_inter_add_card_union]
  exact Nat.add_le_add_left (Finset.card_le_card (Finset.union_subset hA hB)) _

/-- Two sets of a size that have no more members in common than they must. -/
theorem exists_card_inter_eq (S : Finset α) {q : Nat} (hq : q ≤ S.card) :
    ∃ A ⊆ S, ∃ B ⊆ S, A.card = q ∧ B.card = q ∧ (A ∩ B).card = 2 * q - S.card := by
  obtain ⟨A, hA, hAq⟩ := Finset.exists_subset_card_eq hq
  have hrest : (S \ A).card = S.card - q := by rw [Finset.card_sdiff_of_subset hA, hAq]
  by_cases hfit : q ≤ S.card - q
  · -- the other set fits beside the first one
    obtain ⟨B, hB, hBq⟩ := Finset.exists_subset_card_eq (hrest ▸ hfit : q ≤ (S \ A).card)
    refine ⟨A, hA, B, hB.trans Finset.sdiff_subset, hAq, hBq, ?_⟩
    have hdisj : Disjoint A B := (Finset.sdiff_disjoint.mono_left hB).symm
    rw [Finset.disjoint_iff_inter_eq_empty.mp hdisj, Finset.card_empty]
    omega
  · -- the other set is all that is beside the first one, and some of it
    obtain ⟨C, hC, hCq⟩ := Finset.exists_subset_card_eq (show 2 * q - S.card ≤ A.card by omega)
    have hdisj : Disjoint C (S \ A) := (Finset.sdiff_disjoint.mono_right hC).symm
    refine ⟨A, hA, C ∪ (S \ A), Finset.union_subset (hC.trans hA) Finset.sdiff_subset, hAq, ?_, ?_⟩
    · rw [Finset.card_union_of_disjoint hdisj, hCq, hrest]
      omega
    · rw [Finset.inter_union_distrib_left, Finset.inter_sdiff_self, Finset.union_empty,
        Finset.inter_eq_right.mpr hC, hCq]

/-- A member of both sets that is not faulty. -/
theorem exists_common {F : Finset α} {f q : Nat} (hS : S.card + f < 2 * q) (hF : F.card ≤ f)
    (hA : A ⊆ S) (hB : B ⊆ S) (hAq : q ≤ A.card) (hBq : q ≤ B.card) : ∃ x, x ∈ A ∧ x ∈ B ∧ x ∉ F := by
  have hcard := card_add_card_le hA hB
  obtain ⟨x, hx, hxF⟩ := Finset.exists_mem_notMem_of_card_lt_card (show F.card < (A ∩ B).card by omega)
  exact ⟨x, (Finset.mem_inter.mp hx).1, (Finset.mem_inter.mp hx).2, hxF⟩

end SwarmDb.Lib.Quorum
