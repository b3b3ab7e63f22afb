import Mathlib

/-!
# Taking the heaviest first

A selection takes the elements of a list in order until their weights reach an amount (`selection`). In a list sorted by
falling weight the elements before one are all that are heavier, and maybe some of its weight (`heavier_le`); what may
be taken in some order of equal ones is taken in the order of some rank (`exists_rank`).
-/

namespace SwarmDb.Lib

variable {α : Type} (w : α → Nat)

/-- The sum of the weights. -/
def weightOf (l : List α) : Nat := (l.map w).sum

/-- The elements up to the one with which their weights reach `r`. -/
def selection : Nat → List α → Option (List α)
  | _, [] => none
  | r, x :: l => if r ≤ w x then some [x] else (selection (r - w x) l).map (x :: ·)

/-- The weight of the elements that are heavier than one. -/
def heavier (l : List α) (x : α) : Nat := weightOf w (l.filter fun y => w x < w y)

variable {w} {r : Nat} {l t : List α}

@[simp] theorem weightOf_nil : weightOf w [] = 0 := rfl

@[simp] theorem weightOf_cons (x : α) (l : List α) : weightOf w (x :: l) = w x + weightOf w l := List.sum_cons

@[simp] theorem weightOf_append (l l' : List α) : weightOf w (l ++ l') = weightOf w l + weightOf w l' := by
  rw [weightOf, List.map_append, List.sum_append, weightOf, weightOf]

variable {l' : List α} {x : α}

theorem weightOf_perm (h : l.Perm l') : weightOf w l = weightOf w l' := (h.map w).sum_eq

theorem weightOf_le_of_sublist (h : l.Sublist l') : weightOf w l ≤ weightOf w l' := by
  induction h with
  | slnil => exact Nat.le_refl _
  | cons x _ ih => rw [weightOf_cons]; omega
  | cons_cons x _ ih => rw [weightOf_cons, weightOf_cons]; omega

theorem heavier_perm (h : l.Perm l') (x : α) : heavier w l x = heavier w l' x :=
  weightOf_perm (h.filter _)

/-- There is a selection where there are elements and their weights reach the amount. -/
theorem selection_isSome_iff : (selection w r l).isSome ↔ l ≠ [] ∧ r ≤ weightOf w l := by
  induction l generalizing r with
  | nil => simp [selection]
  | cons x l ih =>
    rw [selection, weightOf_cons]
    split
    · simp only [Option.isSome_some, true_iff, ne_eq, reduceCtorEq, not_false_eq_true, true_and]
      omega
    · rename_i hmore
      have hl : r - w x ≤ weightOf w l → l ≠ [] := by
        rintro hle rfl
        rw [weightOf_nil] at hle
        omega
      rw [Option.isSome_map, ih, and_iff_right_of_imp hl, and_iff_right (List.cons_ne_nil x l)]
      omega

/-- A selection is the first part of the list, and its weights reach the amount. -/
theorem begins_of_selection (h : selection w r l = some t) : t <+: l ∧ r ≤ weightOf w t := by
  induction l generalizing r t with
  | nil => cases h
  | cons x l ih =>
    rw [selection] at h
    split at h
    · cases h
      exact ⟨⟨l, rfl⟩, by simpa⟩
    · obtain ⟨t', ht', rfl⟩ := Option.map_eq_some_iff.mp h
      obtain ⟨hbegins, hle⟩ := ih ht'
      refine ⟨List.cons_prefix_cons.mpr ⟨rfl, hbegins⟩, ?_⟩
      rw [weightOf_cons]
      omega

/-- What stands before an element of a selection does not reach the amount. One element
is taken even for none. -/
theorem exists_before_of_mem (h : selection w r l = some t) (hx : x ∈ t) :
    ∃ a b, l = a ++ x :: b ∧ weightOf w a < max r 1 := by
  induction l generalizing r t with
  | nil => cases h
  | cons y l ih =>
    rw [selection] at h
    split at h
    · cases h
      obtain rfl := List.mem_singleton.mp hx
      exact ⟨[], l, rfl, by rw [weightOf_nil]; omega⟩
    · obtain ⟨t', ht', rfl⟩ := Option.map_eq_some_iff.mp h
      rcases List.mem_cons.mp hx with rfl | hx
      · exact ⟨[], l, rfl, by rw [weightOf_nil]; omega⟩
      · obtain ⟨a, b, rfl, hlt⟩ := ih ht' hx
        refine ⟨y :: a, b, rfl, ?_⟩
        rw [weightOf_cons]
        omega

/-- An element is taken while what stands before it does not reach the amount. -/
theorem mem_selection_of_before {a b : List α} (h : selection w r (a ++ x :: b) = some t)
    (ha : weightOf w a < r ∨ a = []) : x ∈ t := by
  induction a generalizing r t with
  | nil =>
    rw [List.nil_append, selection] at h
    split at h
    · cases h
      exact List.mem_singleton_self x
    · obtain ⟨t', -, rfl⟩ := Option.map_eq_some_iff.mp h
      exact List.mem_cons_self ..
  | cons y a ih =>
    have hlt := ha.resolve_right (List.cons_ne_nil y a)
    rw [weightOf_cons] at hlt
    rw [List.cons_append, selection, if_neg (by omega)] at h
    obtain ⟨t', ht', rfl⟩ := Option.map_eq_some_iff.mp h
    exact List.mem_cons_of_mem y (ih ht' (.inl (by omega)))

/-- Nothing is taken beyond what reaches the amount. -/
theorem selection_begins_of_le {a b : List α} (hr : 0 < r) (h : selection w r (a ++ b) = some t)
    (ha : r ≤ weightOf w a) :
    t <+: a := by
  induction a generalizing r t with
  | nil => rw [weightOf_nil] at ha; omega
  | cons y a ih =>
    rw [weightOf_cons] at ha
    rw [List.cons_append, selection] at h
    split at h
    · cases h
      exact ⟨a, rfl⟩
    · obtain ⟨t', ht', rfl⟩ := Option.map_eq_some_iff.mp h
      exact List.cons_prefix_cons.mpr ⟨rfl, ih (by omega) ht' (by omega)⟩

/-! ## Sorted lists -/

/-- What is heavier than an element without weight is all that weighs. -/
theorem heavier_of_eq_zero (hx : w x = 0) (l : List α) : heavier w l x = weightOf w l := by
  rw [heavier, hx]
  induction l with
  | nil => rfl
  | cons y l ih =>
    rw [List.filter_cons]
    split
    · rw [weightOf_cons, weightOf_cons, ih]
    · rename_i hy
      rw [decide_eq_true_eq] at hy
      rw [weightOf_cons, ih]
      omega

/-- In a list of falling weights all that are heavier than an element stand before it. -/
theorem heavier_le {a b : List α} (h : (a ++ x :: b).Pairwise fun y z => w z ≤ w y) :
    heavier w (a ++ x :: b) x ≤ weightOf w a := by
  obtain ⟨-, hx, -⟩ := List.pairwise_append.mp h
  have hrest : (x :: b).filter (fun y => w x < w y) = [] := by
    refine List.filter_eq_nil_iff.mpr fun y hy => ?_
    rw [decide_eq_true_eq, Nat.not_lt]
    rcases List.mem_cons.mp hy with rfl | hy
    · exact Nat.le_refl _
    · exact (List.pairwise_cons.mp hx).1 y hy
  rw [heavier, List.filter_append, hrest, List.append_nil]
  exact weightOf_le_of_sublist List.filter_sublist

/-- What is taken is not behind enough of what is heavier. -/
theorem heavier_lt_of_mem (hl : l.Pairwise fun y z => w z ≤ w y) (h : selection w r l = some t) (hx : x ∈ t) :
    heavier w l x < max r 1 := by
  obtain ⟨a, b, rfl, hlt⟩ := exists_before_of_mem h hx
  exact Nat.lt_of_le_of_lt (heavier_le hl) hlt

/-- What is taken is at least as heavy as what is not. -/
theorem le_of_not_mem_selection {y : α} (hl : l.Pairwise fun y z => w z ≤ w y) (h : selection w r l = some t)
    (hx : x ∈ t) (hy : y ∈ l) (hnot : y ∉ t) : w y ≤ w x := by
  obtain ⟨⟨rest, rfl⟩, -⟩ := begins_of_selection h
  exact (List.pairwise_append.mp hl).2.2 x hx y ((List.mem_append.mp hy).resolve_left hnot)

/-- The order by falling weight, and by a rank where weights are equal. -/
def RankedBefore (w rank : α → Nat) (a b : α) : Prop := w b < w a ∨ (w a = w b ∧ rank a ≤ rank b)

instance (w rank : α → Nat) : DecidableRel (RankedBefore w rank) := fun _ _ => inferInstanceAs (Decidable (_ ∨ _))

instance (w rank : α → Nat) : Std.Total (RankedBefore w rank) := ⟨fun a b => by
  unfold RankedBefore
  omega⟩

instance (w rank : α → Nat) : IsTrans α (RankedBefore w rank) := ⟨fun a b c hab hbc => by
  unfold RankedBefore at *
  omega⟩

def sortBy (w rank : α → Nat) (l : List α) : List α := l.insertionSort (RankedBefore w rank)

theorem sortBy_perm (w rank : α → Nat) (l : List α) : (sortBy w rank l).Perm l := List.perm_insertionSort ..

theorem sortBy_sorted (w rank : α → Nat) (l : List α) : (sortBy w rank l).Pairwise (RankedBefore w rank) :=
  List.pairwise_insertionSort ..

theorem sortBy_falling (w rank : α → Nat) (l : List α) : (sortBy w rank l).Pairwise fun a b => w b ≤ w a :=
  (sortBy_sorted w rank l).imp fun h => by
    unfold RankedBefore at h
    omega

variable {rank : α → Nat}

/-- The element of the least rank is taken where what is heavier does not reach the amount. -/
theorem mem_selection_first (hfirst : ∀ y, rank y ≤ rank x → y = x) (hx : x ∈ l) (hlt : heavier w l x < max r 1)
    (h : selection w r (sortBy w rank l) = some t) : x ∈ t := by
  rw [← heavier_perm (sortBy_perm w rank l)] at hlt
  have hsorted := sortBy_sorted w rank l
  obtain ⟨a, b, hsplit, hnot⟩ := List.eq_append_cons_of_mem ((sortBy_perm w rank l).mem_iff.mpr hx)
  rw [hsplit] at h hlt hsorted
  -- all that stands before its first place is heavier
  have hbefore : ∀ y ∈ a, w x < w y := fun y hy => by
    rcases (List.pairwise_append.mp hsorted).2.2 y hy x (List.mem_cons_self ..) with hlt | ⟨-, hrank⟩
    · exact hlt
    · exact absurd (hfirst y hrank ▸ hy) hnot
  have hle : weightOf w a < max r 1 := by
    refine Nat.lt_of_le_of_lt ?_ hlt
    rw [heavier, List.filter_append, List.filter_eq_self.mpr fun y hy => decide_eq_true (hbefore y hy), weightOf_append]
    exact Nat.le_add_right ..
  refine mem_selection_of_before h ?_
  cases a with
  | nil => exact .inr rfl
  | cons y a =>
    have := hbefore y (List.mem_cons_self ..)
    rw [weightOf_cons] at hle ⊢
    exact .inl (by omega)

/-! ## Leaving some elements out -/

/-- The weight of what can be taken before any element with `p`: what has not, and is at
least as heavy as all that have. -/
def besides (w : α → Nat) (p : α → Bool) (l : List α) : Nat :=
  weightOf w (l.filter fun y => !p y && l.all fun z => !p z || w z ≤ w y)

variable {p : α → Bool}

@[simp] theorem besides_none (l : List α) : besides w (fun _ => false) l = weightOf w l := by
  rw [besides, List.filter_eq_self.mpr]
  intro y _
  rw [Bool.not_false, Bool.true_and, List.all_eq_true]
  exact fun _ _ => rfl

theorem besides_le (l : List α) : besides w p l ≤ weightOf w l := weightOf_le_of_sublist List.filter_sublist

theorem besides_perm (h : l.Perm l') : besides w p l = besides w p l' := by
  have hall : (fun y => !p y && l.all fun z => !p z || w z ≤ w y) = fun y => !p y && l'.all fun z =>
    !p z || w z ≤ w y :=
    funext fun y => by rw [h.all_eq]
  rw [besides, hall]
  exact weightOf_perm (h.filter _)

/-- A selection without elements with `p` is one of what can be taken before them. -/
theorem le_besides (hl : l.Pairwise fun y z => w z ≤ w y) (h : selection w r l = some t) (hnot : ∀ x ∈ t, p x = false) :
    r ≤ besides w p l := by
  obtain ⟨hbegins, hle⟩ := begins_of_selection h
  have hkept : t.filter (fun y => !p y && l.all fun z => !p z || w z ≤ w y) = t := by
    refine List.filter_eq_self.mpr fun y hy => ?_
    rw [hnot y hy, Bool.not_false, Bool.true_and, List.all_eq_true]
    intro z hz
    cases hpz : p z with
    | false => rfl
    | true =>
      have hzt : z ∉ t := fun hzt => by
        rw [hnot z hzt] at hpz
        cases hpz
      rw [Bool.not_true, Bool.false_or, decide_eq_true_eq]
      exact le_of_not_mem_selection hl h hy hz hzt
  refine le_trans hle ?_
  rw [besides, ← hkept]
  exact weightOf_le_of_sublist (hbegins.sublist.filter _)

/-- Elements of the greatest rank are left out where what can be taken before them
reaches the amount. -/
theorem not_mem_selection_last (hlast : ∀ y z, p y → rank y ≤ rank z → p z) (hr : 0 < r) (hle : r ≤ besides w p l)
    (h : selection w r (sortBy w rank l) = some t) : ∀ x ∈ t, p x = false := by
  rw [← besides_perm (sortBy_perm w rank l)] at hle
  have hsorted := sortBy_sorted w rank l
  generalize sortBy w rank l = sorted at h hle hsorted
  intro x hx
  by_contra hpx
  rw [Bool.not_eq_false] at hpx
  -- the first element with `p`
  obtain ⟨a, z, b, hsplit, hz, ha⟩ : ∃ a z b, sorted = a ++ z :: b ∧ p z ∧ ∀ y ∈ a, p y = false := by
    have hmem : ∃ y ∈ sorted, p y := ⟨x, (begins_of_selection h).1.subset hx, hpx⟩
    clear h hle hsorted
    induction sorted with
    | nil => simp at hmem
    | cons y l ih =>
      cases hy : p y with
      | true => exact ⟨[], y, l, rfl, hy, fun _ h => absurd h List.not_mem_nil⟩
      | false =>
        obtain ⟨v, hv, hpv⟩ := hmem
        have hvl : v ∈ l := (List.mem_cons.mp hv).resolve_left fun e => by rw [e, hy] at hpv; cases hpv
        obtain ⟨a, z, b, rfl, hz, ha⟩ := ih ⟨v, hvl, hpv⟩
        exact ⟨y :: a, z, b, rfl, hz, List.forall_mem_cons.mpr ⟨hy, ha⟩⟩
  subst hsplit
  have hbefore : besides w p (a ++ z :: b) ≤ weightOf w a := by
    have hrest : (z :: b).filter (fun y => !p y && (a ++ z :: b).all fun z => !p z || w z ≤ w y) = [] := by
      refine List.filter_eq_nil_iff.mpr fun y hy hkept => ?_
      rw [Bool.and_eq_true, List.all_eq_true] at hkept
      obtain ⟨hpy, hkept⟩ := hkept
      have hwz := hkept z (List.mem_append_right a (List.mem_cons_self ..))
      rw [hz, Bool.not_true, Bool.false_or, decide_eq_true_eq] at hwz
      rcases List.mem_cons.mp hy with rfl | hy
      · rw [hz] at hpy
        cases hpy
      · rcases (List.pairwise_cons.mp (List.pairwise_append.mp hsorted).2.1).1 y hy with hlt | ⟨-, hrank⟩
        · omega
        · rw [hlast z y hz hrank] at hpy
          cases hpy
    rw [besides, List.filter_append, hrest, List.append_nil]
    exact weightOf_le_of_sublist List.filter_sublist
  have hta := selection_begins_of_le hr h (le_trans hle hbefore)
  rw [ha x (hta.subset hx)] at hpx
  cases hpx

/-- What may be taken without some others is taken without them in one of the orders. -/
theorem exists_rank (hx : x ∈ l) (hpx : p x = false) (hlt : heavier w l x < max r 1) (hle : r ≤ besides w p l) :
    ∃ rank t, selection w r (sortBy w rank l) = some t ∧ x ∈ t ∧ ∀ y ∈ t, p y = false := by
  classical
  let rank : α → Nat := fun y => if y = x then 0 else if p y then 2 else 1
  have hperm := sortBy_perm w rank l
  have hsome : (selection w r (sortBy w rank l)).isSome := by
    rw [selection_isSome_iff, weightOf_perm hperm]
    exact ⟨List.ne_nil_of_mem (hperm.mem_iff.mpr hx), le_trans hle (besides_le l)⟩
  obtain ⟨t, ht⟩ := Option.isSome_iff_exists.mp hsome
  have hxt : x ∈ t := by
    refine mem_selection_first (fun y hy => ?_) hx hlt ht
    by_contra hne
    simp only [rank, if_neg hne, if_pos] at hy
    split at hy <;> omega
  refine ⟨rank, t, ht, hxt, ?_⟩
  rcases Nat.eq_zero_or_pos r with rfl | hr
  · -- the first is the only one
    obtain ⟨y, rest, hsorted⟩ := List.exists_cons_of_ne_nil (List.ne_nil_of_mem (hperm.mem_iff.mpr hx))
    rw [hsorted, selection, if_pos (Nat.zero_le _)] at ht
    cases ht
    obtain rfl := List.mem_singleton.mp hxt
    exact fun z hz => List.mem_singleton.mp hz ▸ hpx
  · refine not_mem_selection_last (fun y z hy hyz => ?_) hr hle ht
    have hyx : y ≠ x := fun e => by rw [e, hpx] at hy; cases hy
    by_contra hz
    simp only [rank, if_neg hyx, hy, if_true] at hyz
    split at hyz
    · omega
    · omega

end SwarmDb.Lib
