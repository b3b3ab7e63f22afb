import SwarmDb.Lib.Bytes
import SwarmDb.Lib.Map

/-!
# Scans of ordered stores

An ordered map as a key-value store shows it: an iterator is placed at the first key from a given one on (`seek`) and
moved on as long as the keys meet a condition (`scan`). A scan whose condition fails for good where it fails once is a
filter (`scan_eq_filter`).
-/

namespace SwarmDb.Lib

/-! ## The order of byte strings -/

variable {a b : Bytes}

theorem compare_eq_lt_iff : compare a b = .lt ↔ a < b := by
  induction a generalizing b with
  | nil =>
    cases b with
    | nil | cons => simp
  | cons _ _ ih =>
    cases b with
    | nil => simp
    | cons =>
      rw [List.compare_cons_cons, Ordering.then_eq_lt, List.cons_lt_cons_iff, ih, Std.compare_eq_lt,
        Std.compare_eq_iff_eq]

theorem append_lt_append_iff (p : Bytes) : p ++ a < p ++ b ↔ a < b := by
  induction p with
  | nil => rfl
  | cons x _ ih =>
    rw [List.cons_append, List.cons_append, List.cons_lt_cons_iff, ih]
    exact ⟨fun h => h.elim (fun h => absurd h (UInt8.lt_irrefl x)) And.right, fun h => .inr ⟨rfl, h⟩⟩

theorem not_append_lt_self (p a : Bytes) : ¬ p ++ a < p := List.not_lt.mpr List.le_append_left

/-- The strings with one beginning are an interval. -/
theorem prefix_of_between {p : Bytes} (hpa : ¬ a < p) (hab : a < b) (hpb : p <+: b) : p <+: a := by
  induction p generalizing a b with
  | nil => exact List.nil_prefix
  | cons x p ih =>
    obtain ⟨b, rfl⟩ := hpb
    cases a with
    | nil => exact absurd (List.nil_lt_cons x p) hpa
    | cons =>
      rw [List.cons_lt_cons_iff, not_or, not_and] at hpa
      rw [List.cons_append, List.cons_lt_cons_iff] at hab
      rcases hab with hlt | ⟨rfl, hlt⟩
      · exact absurd hlt hpa.1
      · exact List.cons_prefix_cons.mpr ⟨rfl, ih (hpa.2 rfl) hlt (List.prefix_append p b)⟩

/-- Two beginnings of one string begin with one another. -/
def Overlap (a b : Bytes) : Prop := a <+: b ∨ b <+: a

instance (a b : Bytes) : Decidable (Overlap a b) := inferInstanceAs (Decidable (_ ∨ _))

theorem Overlap.of_begins {s : Bytes} (ha : a <+: s) (hb : b <+: s) : Overlap a b :=
  List.prefix_or_prefix_of_prefix ha hb

/-- A string that begins with both. -/
theorem Overlap.exists_common (h : Overlap a b) : ∃ s, a <+: s ∧ b <+: s := by
  rcases h with h | h
  · exact ⟨b, h, List.prefix_rfl⟩
  · exact ⟨a, List.prefix_rfl, h⟩

theorem Overlap.of_append_left {p : Bytes} (h : Overlap (p ++ a) (p ++ b)) : Overlap a b :=
  h.imp (List.prefix_append_right_inj p).mp (List.prefix_append_right_inj p).mp

/-! ## Iterators -/

namespace Map

section

variable {κ ν : Type} [Ord κ]

/-- The entries from the first key on that is not before `start`. -/
def seek (m : Map κ ν) [Std.TransOrd κ] (start : κ) : List (κ × ν) :=
  m.toList.dropWhile fun e => (compare e.1 start).isLT

/-- The entries an iterator passes from `start` on, as long as the keys are valid. -/
def scan (m : Map κ ν) [Std.TransOrd κ] (start : κ) (valid : κ → Bool) : List (κ × ν) :=
  (m.seek start).takeWhile fun e => valid e.1

/-- The map without the keys from `first` up to, but not including, `last`. -/
def eraseRange (m : Map κ ν) [Std.TransOrd κ] (first last : κ) : Map κ ν :=
  m.filter fun k _ => !((compare k first).isGE && (compare k last).isLT)

end

variable {κ ν : Type} [Ord κ] [Std.TransOrd κ]

theorem takeWhile_eq_filter {α : Type} {p : α → Bool} {l : List α} (h : l.Pairwise fun a b => p b → p a) :
    l.takeWhile p = l.filter p := by
  induction h with
  | nil => rfl
  | @cons a l ha _ ih =>
    rw [List.takeWhile_cons, List.filter_cons, ih]
    split
    · rfl
    · rename_i hp
      exact (List.filter_eq_nil_iff.mpr fun b hb hpb => hp (ha b hb hpb)).symm

theorem dropWhile_eq_filter {α : Type} {p : α → Bool} {l : List α} (h : l.Pairwise fun a b => p b → p a) :
    l.dropWhile p = l.filter fun a => !p a := by
  induction h with
  | nil => rfl
  | @cons a l ha _ ih =>
    rw [List.dropWhile_cons, List.filter_cons]
    split
    · rename_i hp
      rw [ih, if_neg (by simp [hp])]
    · rename_i hp
      rw [if_pos (by simp [hp]), List.filter_eq_self.mpr]
      intro b hb
      rw [Bool.not_eq_true']
      exact eq_false_of_ne_true fun hpb => hp (ha b hb hpb)

theorem seek_eq_filter (m : Map κ ν) (start : κ) :
    m.seek start = m.toList.filter fun e => (compare e.1 start).isGE := by
  have hp : m.toList.Pairwise fun a b => (compare b.1 start).isLT → (compare a.1 start).isLT :=
    m.ordered_toList.imp fun hab hb => by
      rw [Ordering.isLT_iff_eq_lt] at hb ⊢
      exact Std.TransCmp.lt_trans hab hb
  rw [seek, dropWhile_eq_filter hp]
  congr 1
  funext e
  cases compare e.1 start <;> rfl

/-- A scan over an interval that begins at `start` passes what is in it. -/
theorem scan_eq_filter (m : Map κ ν) {start : κ} {valid : κ → Bool}
    (h : ∀ a b : κ, (compare a start).isGE → compare a b = .lt → valid b → valid a) :
    m.scan start valid = m.toList.filter fun e => (compare e.1 start).isGE && valid e.1 := by
  have hp : (m.toList.filter fun e => (compare e.1 start).isGE).Pairwise fun a b => valid b.1 → valid a.1 := by
    refine ((m.ordered_toList.filter _).imp_of_mem fun {a b} ha _ hab hb => ?_)
    exact h a.1 b.1 (List.mem_filter.mp ha).2 hab hb
  rw [scan, seek_eq_filter, takeWhile_eq_filter hp, List.filter_filter]
  congr 1
  funext e
  rw [Bool.and_comm]

variable [Std.LawfulEqOrd κ]

theorem lookup_eraseRange (m : Map κ ν) (first last k : κ) :
    (m.eraseRange first last)[k]? = if (compare k first).isGE ∧ (compare k last).isLT then none else m[k]? := by
  rw [eraseRange, lookup_filter]
  cases hk : m[k]? with
  | none => simp
  | some =>
    split
    · rename_i h
      simp [h.1, h.2]
    · rename_i h
      rw [not_and] at h
      cases hge : (compare k first).isGE with
      | true => simp [h hge]
      | false => simp

theorem lookup_foldl_erase [DecidableEq κ] (l : List (κ × ν)) (m : Map κ ν) (a : κ) :
    (l.foldl (fun m e => m.erase e.1) m)[a]? = if a ∈ l.map Prod.fst then none else m[a]? := by
  induction l generalizing m with
  | nil => rfl
  | cons e l ih =>
    simp only [List.foldl_cons, ih, lookup_erase, List.map_cons, List.mem_cons]
    by_cases ha : a ∈ l.map Prod.fst
    · rw [if_pos ha, if_pos (.inr ha)]
    · rw [if_neg ha]
      by_cases he : e.1 = a
      · rw [if_pos he, if_pos (.inl he.symm)]
      · rw [if_neg he, if_neg (not_or.mpr ⟨Ne.symm he, ha⟩)]

end Map

/-! ## Keys with a common beginning -/

theorem isGE_compare_iff : (compare a b).isGE ↔ ¬ a < b := by
  rw [← compare_eq_lt_iff]
  cases compare a b <;> simp

theorem isLT_compare_iff : (compare a b).isLT ↔ a < b := by
  rw [← compare_eq_lt_iff]
  cases compare a b <;> simp

namespace Map

variable {ν : Type}

/-- The entries whose keys begin with a string. -/
theorem scan_startingWith (m : Map Bytes ν) (p : Bytes) :
    m.scan p (fun k => p.isPrefixOf k) = m.toList.filter fun e => p.isPrefixOf e.1 := by
  rw [scan_eq_filter]
  · refine List.filter_congr fun e _ => ?_
    rw [Bool.eq_iff_iff, Bool.and_eq_true, isGE_compare_iff, and_iff_right_iff_imp]
    intro hp
    obtain ⟨t, ht⟩ := List.isPrefixOf_iff_prefix.mp hp
    rw [← ht]
    exact not_append_lt_self p t
  · intro a b ha hab hb
    rw [isGE_compare_iff] at ha
    rw [compare_eq_lt_iff] at hab
    exact List.isPrefixOf_iff_prefix.mpr (prefix_of_between ha hab (List.isPrefixOf_iff_prefix.mp hb))

/-- The entries with a beginning depend on no others. -/
theorem scan_startingWith_congr {m m' : Map Bytes ν} {p : Bytes} (h : ∀ k, p <+: k → m[k]? = m'[k]?) :
    m.scan p (fun k => p.isPrefixOf k) = m'.scan p fun k => p.isPrefixOf k := by
  have hfilter : m.filter (fun k _ => p.isPrefixOf k) = m'.filter fun k _ => p.isPrefixOf k := by
    refine ext_lookup fun k => ?_
    rw [lookup_filter, lookup_filter]
    cases hp : p.isPrefixOf k with
    | true => rw [h k (List.isPrefixOf_iff_prefix.mp hp)]
    | false => simp
  rw [scan_startingWith, scan_startingWith, ← toList_filter, ← toList_filter, hfilter]

/-- The entries with a beginning, without it, are those of a map that looks the
same there. -/
theorem map_drop_scan_startingWith {m m' : Map Bytes ν} {p : Bytes} (h : ∀ k : Bytes, m[p ++ k]? = m'[k]?) :
    (m.scan p fun k => p.isPrefixOf k).map (fun e => (e.1.drop p.length, e.2)) = m'.toList := by
  symm
  rw [scan_startingWith]
  refine toList_eq_of_ordered ?_ fun k v => ?_
  · rw [List.pairwise_map]
    refine ((m.ordered_toList.filter _).imp_of_mem fun {a b} ha hb hab => ?_)
    obtain ⟨s, hs⟩ := List.isPrefixOf_iff_prefix.mp (List.mem_filter.mp ha).2
    obtain ⟨t, ht⟩ := List.isPrefixOf_iff_prefix.mp (List.mem_filter.mp hb).2
    rw [compare_eq_lt_iff] at hab ⊢
    rw [← hs, ← ht, append_lt_append_iff] at hab
    rwa [← hs, ← ht, List.drop_left, List.drop_left]
  · rw [← h, ← mem_toList_iff, List.mem_map]
    constructor
    · rintro ⟨e, he, heq⟩
      obtain ⟨hmem, hp⟩ := List.mem_filter.mp he
      obtain ⟨s, hs⟩ := List.isPrefixOf_iff_prefix.mp hp
      cases heq
      rw [← hs, List.drop_left, hs]
      exact hmem
    · intro hmem
      refine ⟨(p ++ k, v), List.mem_filter.mpr ⟨hmem, List.isPrefixOf_iff_prefix.mpr (List.prefix_append p k)⟩, ?_⟩
      rw [List.drop_left]

end Map

end SwarmDb.Lib
