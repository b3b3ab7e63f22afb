import SwarmDb.Lib.Map

/-!
# Sums over maps

The sum of a number for each entry of a map (`Map.total`), and how it changes
where one entry is written (`total_apart`) or some are erased (`total_erased`).
-/

namespace SwarmDb.Lib.Map

variable {κ ν : Type} [Ord κ] [Std.TransOrd κ]

/-- The sum of a number for each entry. -/
def total (f : κ → ν → Nat) (m : Map κ ν) : Nat := (m.toList.map fun e => f e.1 e.2).sum

/-- What a key adds to the sum. -/
def weight (f : κ → ν → Nat) (m : Map κ ν) (k : κ) : Nat := (m[k]?).elim 0 (f k)

variable {f : κ → ν → Nat} {m m' : Map κ ν}

@[simp] theorem total_empty : total f ∅ = 0 := by
  rw [total, List.map_eq_nil_iff.mpr, List.sum_nil]
  exact Std.ExtTreeMap.toList_eq_nil_iff.mpr rfl

theorem weight_congr {k : κ} (h : m'[k]? = m[k]?) : weight f m' k = weight f m k := by rw [weight, weight, h]

variable [Std.LawfulEqOrd κ] [DecidableEq κ]

/-- The sum over any set that has all keys of the map. -/
theorem total_eq_sum {s : Finset κ} (h : ∀ k : κ, (m[k]?).isSome → k ∈ s) : total f m = ∑ k ∈ s, weight f m k := by
  have hlist : total f m = ((m.toList.map Prod.fst).map (weight f m)).sum := by
    rw [total, List.map_map]
    refine congrArg List.sum (List.map_congr_left fun e he => ?_)
    rw [Function.comp, weight, mem_toList_iff.mp he]
    rfl
  rw [hlist, ← List.sum_toFinset _ m.keys_nodup]
  refine Finset.sum_subset (fun k hk => h k (mem_keys_iff.mp (List.mem_toFinset.mp hk))) fun k _ hk => ?_
  rw [List.mem_toFinset, mem_keys_iff, Option.not_isSome_iff_eq_none] at hk
  rw [weight, hk]
  rfl

theorem weight_le_total (k : κ) : weight f m k ≤ total f m := by
  have hsum : total f m = ∑ a ∈ insert k (m.toList.map Prod.fst).toFinset, weight f m a :=
    total_eq_sum fun _ hk => Finset.mem_insert_of_mem (List.mem_toFinset.mpr (mem_keys_iff.mpr hk))
  rw [hsum]
  exact Finset.single_le_sum (fun _ _ => Nat.zero_le _) (Finset.mem_insert_self k _)

/-- Maps that agree apart from one key. -/
theorem total_apart (k : κ) (h : ∀ a, a ≠ k → m'[a]? = m[a]?) :
    total f m' + weight f m k = total f m + weight f m' k := by
  let s := insert k (m.toList.map Prod.fst).toFinset
  have hm : ∀ a : κ, (m[a]?).isSome → a ∈ s := fun a ha =>
    Finset.mem_insert_of_mem (List.mem_toFinset.mpr (mem_keys_iff.mpr ha))
  have hm' : ∀ a : κ, (m'[a]?).isSome → a ∈ s := fun a ha => by
    by_cases hk : a = k
    · exact hk ▸ Finset.mem_insert_self ..
    · exact hm a (h a hk ▸ ha)
  have hrest : ∑ a ∈ s.erase k, weight f m' a = ∑ a ∈ s.erase k, weight f m a :=
    Finset.sum_congr rfl fun a ha => weight_congr (h a (Finset.ne_of_mem_erase ha))
  rw [total_eq_sum hm, total_eq_sum hm', ← Finset.add_sum_erase s _ (Finset.mem_insert_self k _),
    ← Finset.add_sum_erase s (weight f m) (Finset.mem_insert_self k _), hrest]
  omega

/-- A map without some of its keys. -/
theorem total_erased (keys : Finset κ) (h : ∀ a : κ, m'[a]? = if a ∈ keys then none else m[a]?) :
    total f m' + ∑ k ∈ keys, weight f m k = total f m := by
  let s := keys ∪ (m.toList.map Prod.fst).toFinset
  have hm : ∀ a : κ, (m[a]?).isSome → a ∈ s := fun a ha =>
    Finset.mem_union_right _ (List.mem_toFinset.mpr (mem_keys_iff.mpr ha))
  have hm' : ∀ a : κ, (m'[a]?).isSome → a ∈ s \ keys := fun a ha => by
    rw [h a] at ha
    split at ha
    · cases ha
    · rename_i hk
      exact Finset.mem_sdiff.mpr ⟨hm a ha, hk⟩
  have hrest : ∑ a ∈ s \ keys, weight f m' a = ∑ a ∈ s \ keys, weight f m a :=
    Finset.sum_congr rfl fun a ha => weight_congr (by rw [h a, if_neg (Finset.mem_sdiff.mp ha).2])
  rw [total_eq_sum hm, total_eq_sum hm', hrest, Finset.sum_sdiff Finset.subset_union_left]

end SwarmDb.Lib.Map
