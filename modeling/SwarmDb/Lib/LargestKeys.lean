import SwarmDb.Lib.Map

/-!
# Maps that keep their largest keys

A map that takes in entries one after another, the first one of each key, and erases its smallest keys beyond a given
number (`record`). Whatever their order, it holds the largest of all keys that came in, each with its first value
(`KeepsLargest.lookup_eq_some_iff`).
-/

namespace SwarmDb.Lib.Map

variable {κ ν : Type} [Ord κ] [Std.TransOrd κ]

theorem compare_self_ne_lt (k : κ) : compare k k ≠ .lt := fun h => by
  rw [Std.ReflOrd.compare_self] at h
  cases h

/-- A map without its smallest key. -/
def eraseFirst (m : Map κ ν) : Map κ ν :=
  match m.minKey? with
  | some k => m.erase k
  | none => m

theorem size_eraseFirst {m : Map κ ν} (h : 0 < m.size) : (eraseFirst m).size + 1 = m.size := by
  unfold eraseFirst
  split
  · rename_i k hk
    rw [Std.ExtTreeMap.size_erase, if_pos (Std.ExtTreeMap.contains_iff_mem.mpr (Std.ExtTreeMap.minKey?_mem hk))]
    omega
  · rename_i hk
    rw [Std.ExtTreeMap.minKey?_eq_none_iff.mp hk] at h
    exact absurd h (Nat.lt_irrefl 0)

/-- A map whose smallest keys are erased while it has more than `n`. -/
def trim (n : Nat) (m : Map κ ν) : Map κ ν := if n < m.size then trim n (eraseFirst m) else m
termination_by m.size
decreasing_by
  have := size_eraseFirst (m := m) (by omega)
  omega

theorem trim_of_le {n : Nat} {m : Map κ ν} (h : m.size ≤ n) : trim n m = m := by
  rw [trim, if_neg (Nat.not_lt.mpr h)]

/-- One key too many. -/
theorem trim_of_eq {n : Nat} {m : Map κ ν} (h : m.size = n + 1) : trim n m = eraseFirst m := by
  have hsize := size_eraseFirst (m := m) (by omega)
  rw [trim, if_pos (by omega), trim_of_le (by omega)]

/-- An entry is taken in where its key is not there. -/
def record (n : Nat) (m : Map κ ν) (k : κ) (v : ν) : Map κ ν := if m.contains k then m else trim n (m.insert k v)

variable [DecidableEq κ]

/-- The entries that came in and the map they left: the keys that are not in the map
are smaller than all in it, and then the map is full. -/
structure KeepsLargest (n : Nat) (seen : List (κ × ν)) (m : Map κ ν) : Prop where
  size_le : m.size ≤ n
  first : ∀ k v, m[k]? = some v → seen.lookup k = some v
  erased : ∀ a, (seen.lookup a).isSome → m[a]? = none → m.size = n ∧ ∀ k, (m[k]?).isSome → compare a k = .lt

variable {n : Nat} {seen : List (κ × ν)} {m : Map κ ν} {v : ν}

theorem KeepsLargest.empty : KeepsLargest n [] (∅ : Map κ ν) where
  size_le := Nat.zero_le n
  first k v h := by rw [lookup_empty] at h; cases h
  erased a h := by cases h

variable [Std.LawfulEqOrd κ]

/-- What is left of a map when its smallest key is erased. -/
theorem lookup_eraseFirst (h : 0 < m.size) :
    ∃ least, (m[least]?).isSome ∧ (∀ k : κ, (m[k]?).isSome → least ≠ k → compare least k = .lt) ∧
      ∀ k : κ, (eraseFirst m)[k]? = if least = k then none else m[k]? := by
  unfold eraseFirst
  split
  · rename_i least hleast
    obtain ⟨hmem, hle⟩ := Std.ExtTreeMap.minKey?_eq_some_iff_mem_and_forall.mp hleast
    refine ⟨least, Std.ExtTreeMap.mem_iff_isSome_getElem?.mp hmem, fun k hk hne => ?_, fun k => lookup_erase m least k⟩
    have hisLE := hle k (Std.ExtTreeMap.mem_iff_isSome_getElem?.mpr hk)
    rcases Ordering.isLE_iff_eq_lt_or_eq_eq.mp hisLE with hlt | heq
    · exact hlt
    · exact absurd (Std.LawfulEqOrd.compare_eq_iff_eq.mp heq) hne
  · rename_i hnone
    rw [Std.ExtTreeMap.minKey?_eq_none_iff.mp hnone] at h
    exact absurd h (Nat.lt_irrefl 0)

theorem lookup_concat (seen : List (κ × ν)) (k a : κ) (v : ν) :
    (seen ++ [(k, v)]).lookup a = (seen.lookup a).or (if k = a then some v else none) := by
  rw [List.lookup_append, List.lookup_cons, List.lookup_nil]
  by_cases hka : k = a
  · simp [hka]
  · simp [hka, beq_eq_false_iff_ne.mpr (Ne.symm hka)]

variable {k : κ}

section

variable (h : KeepsLargest n seen m)
include h

/-- An entry whose key came in before changes nothing. -/
theorem KeepsLargest.again (hk : (seen.lookup k).isSome) (v : ν) : KeepsLargest n (seen ++ [(k, v)]) m := by
  have hlookup : ∀ a, (seen ++ [(k, v)]).lookup a = seen.lookup a := fun a => by
    rw [lookup_concat]
    by_cases hka : k = a
    · obtain ⟨w, hw⟩ := Option.isSome_iff_exists.mp (hka ▸ hk)
      rw [hw]
      rfl
    · rw [if_neg hka, Option.or_none]
  refine ⟨h.size_le, fun a w ha => ?_, fun a ha => ?_⟩
  · rw [hlookup]
    exact h.first a w ha
  · rw [hlookup] at ha
    exact h.erased a ha

/-- A key that was erased is the smallest one when it comes in again. -/
theorem KeepsLargest.trim_insert_erased (hk : (seen.lookup k).isSome) (hnew : m[k]? = none)
    (hsize : (m.insert k v).size = m.size + 1) : trim n (m.insert k v) = m := by
  obtain ⟨hfull, hless⟩ := h.erased k hk hnew
  obtain ⟨least, hmem, hleast, hlookup⟩ := lookup_eraseFirst (m := m.insert k v) (by omega)
  have hleast : least = k := by
    by_contra hne
    rw [lookup_insert, if_neg (Ne.symm hne)] at hmem
    have hkey := hleast k (by rw [lookup_insert, if_pos rfl]; rfl) hne
    exact compare_self_ne_lt k (Std.TransCmp.lt_trans (hless least hmem) hkey)
  rw [trim_of_eq (by omega)]
  refine ext_lookup fun a => ?_
  rw [hlookup, hleast, lookup_insert]
  split
  · rename_i hka
    rw [← hka, hnew]
  · rfl

/-- A new key. -/
theorem KeepsLargest.trim_insert (hk : seen.lookup k = none) (v : ν) (hsize : (m.insert k v).size = m.size + 1) :
    KeepsLargest n (seen ++ [(k, v)]) (trim n (m.insert k v)) := by
  have hfirst : ∀ a w, (m.insert k v)[a]? = some w → (seen ++ [(k, v)]).lookup a = some w := fun a w ha => by
    rw [lookup_insert] at ha
    rw [lookup_concat]
    split at ha
    · rename_i hka
      rw [← hka, hk, if_pos rfl, ← ha]
      rfl
    · rw [h.first a w ha]
      rfl
  have hbefore : ∀ a, ((seen ++ [(k, v)]).lookup a).isSome → (m.insert k v)[a]? = none →
      m.size = n ∧ ∀ k', (m[k']?).isSome → compare a k' = .lt := fun a ha hnone => by
    rw [lookup_insert] at hnone
    split at hnone
    · cases hnone
    · rename_i hka
      rw [lookup_concat, if_neg hka, Option.or_none] at ha
      exact h.erased a ha hnone
  have hle := h.size_le
  by_cases hfull : m.size = n
  · obtain ⟨least, hmem, hleast, hlookup⟩ := lookup_eraseFirst (m := m.insert k v) (by omega)
    have hsize' := size_eraseFirst (m := m.insert k v) (by omega)
    have hkept : ∀ k' : κ, ((eraseFirst (m.insert k v))[k']?).isSome → least ≠ k' ∧ ((m.insert k v)[k']?).isSome :=
      fun k' hk' => by
        rw [hlookup] at hk'
        split at hk'
        · cases hk'
        · exact ⟨‹_›, hk'⟩
    rw [trim_of_eq (by omega)]
    refine ⟨by omega, fun a w ha => ?_, fun a ha hnone => ⟨by omega, fun k' hk' => ?_⟩⟩
    · rw [hlookup] at ha
      split at ha
      · cases ha
      · exact hfirst a w ha
    · obtain ⟨hne, hk'⟩ := hkept k' hk'
      rw [hlookup] at hnone
      split at hnone
      · rename_i hla
        exact hla ▸ hleast k' hk' hne
      · -- it was erased before, so it is smaller than the smallest key of then
        obtain ⟨-, hless⟩ := hbefore a ha hnone
        rw [lookup_insert] at hk'
        split at hk'
        · rename_i hkk'
          rw [lookup_insert, if_neg fun hkl => hne (hkl.symm.trans hkk')] at hmem
          refine Std.TransCmp.lt_trans (hless least hmem) (hleast k' ?_ hne)
          rw [lookup_insert, if_pos hkk']
          rfl
        · exact hless k' hk'
  · rw [trim_of_le (by omega)]
    exact ⟨by omega, hfirst, fun a ha hnone => absurd (hbefore a ha hnone).1 hfull⟩

/-- One entry more. -/
theorem KeepsLargest.record (k : κ) (v : ν) : KeepsLargest n (seen ++ [(k, v)]) (record n m k v) := by
  unfold Map.record
  split
  · rename_i hk
    obtain ⟨old, hold⟩ := Option.isSome_iff_exists.mp
      (Std.ExtTreeMap.mem_iff_isSome_getElem?.mp (Std.ExtTreeMap.contains_iff_mem.mp hk))
    exact h.again (Option.isSome_of_eq_some (h.first k old hold)) v
  · rename_i hk
    have hnew : m[k]? = none := by
      rw [← Option.not_isSome_iff_eq_none, ← Std.ExtTreeMap.mem_iff_isSome_getElem?]
      exact fun hmem => hk (Std.ExtTreeMap.contains_iff_mem.mpr hmem)
    have hsize : (m.insert k v).size = m.size + 1 := by rw [Std.ExtTreeMap.size_insert, if_neg hk]
    cases hseen : seen.lookup k with
    | none => exact h.trim_insert hseen v hsize
    | some old =>
      have hsome := Option.isSome_of_eq_some hseen
      rw [h.trim_insert_erased hsome hnew hsize]
      exact h.again hsome v

end

/-- The keys larger than a given one, of all that came in. -/
def largerKeys (seen : List (κ × ν)) (k : κ) : Finset κ :=
  (seen.map Prod.fst).toFinset.filter fun a => compare k a = .lt

theorem lookup_isSome_iff {a : κ} : (seen.lookup a).isSome ↔ a ∈ seen.map Prod.fst := by
  induction seen with
  | nil => simp
  | cons e seen ih =>
    rw [List.lookup_cons, List.map_cons, List.mem_cons, ← ih]
    by_cases hae : a = e.1
    · simp [hae]
    · simp [hae, beq_eq_false_iff_ne.mpr hae]

/-- The map has the first values of the `n` largest keys: those that have fewer than
`n` larger ones. -/
theorem KeepsLargest.lookup_eq_some_iff (h : KeepsLargest n seen m) (k : κ) (v : ν) :
    m[k]? = some v ↔ seen.lookup k = some v ∧ (largerKeys seen k).card < n := by
  have hcard : (m.toList.map Prod.fst).toFinset.card = m.size := by
    rw [List.toFinset_card_of_nodup (keys_nodup m), List.length_map, Std.ExtTreeMap.length_toList]
  have hmem : ∀ a, a ∈ (m.toList.map Prod.fst).toFinset ↔ (m[a]?).isSome := fun a => by
    rw [List.mem_toFinset, mem_keys_iff]
  constructor
  · intro hk
    refine ⟨h.first k v hk, ?_⟩
    -- the larger keys are all in the map, which has `k` besides
    have hsub : largerKeys seen k ⊆ (m.toList.map Prod.fst).toFinset.erase k := fun a ha => by
      obtain ⟨hseen, hlt⟩ := Finset.mem_filter.mp ha
      rw [List.mem_toFinset, ← lookup_isSome_iff] at hseen
      refine Finset.mem_erase.mpr ⟨fun hak => compare_self_ne_lt k (hak ▸ hlt), (hmem a).mpr ?_⟩
      by_contra hnot
      have hless := (h.erased a hseen (Option.not_isSome_iff_eq_none.mp hnot)).2 k (Option.isSome_of_eq_some hk)
      exact compare_self_ne_lt k (Std.TransCmp.lt_trans hlt hless)
    have hle := Finset.card_le_card hsub
    have hpos := Finset.card_pos.mpr ⟨k, (hmem k).mpr (Option.isSome_of_eq_some hk)⟩
    rw [Finset.card_erase_of_mem ((hmem k).mpr (Option.isSome_of_eq_some hk)), hcard] at hle
    have := h.size_le
    omega
  · rintro ⟨hfirst, hfew⟩
    cases hk : m[k]? with
    | some w => rw [← hfirst, h.first k w hk]
    | none =>
      obtain ⟨hfull, hless⟩ := h.erased k (Option.isSome_of_eq_some hfirst) hk
      have hsub : (m.toList.map Prod.fst).toFinset ⊆ largerKeys seen k := fun a ha => by
        obtain ⟨w, hw⟩ := Option.isSome_iff_exists.mp ((hmem a).mp ha)
        refine Finset.mem_filter.mpr ⟨?_, hless a ((hmem a).mp ha)⟩
        rw [List.mem_toFinset, ← lookup_isSome_iff, h.first a w hw]
        rfl
      have hle := Finset.card_le_card hsub
      omega

end SwarmDb.Lib.Map
