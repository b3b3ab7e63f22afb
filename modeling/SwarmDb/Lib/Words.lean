import Mathlib

/-!
# Loops over 64-bit counters

`sequencesBetween first last` is what a loop `for (i = first; i <= last; i++)`
over a 64-bit counter goes through. Where `last` is the greatest number the
counter wraps around and the loop never ends. `countUp` is the loop itself, and
`countUp_eq` says after how many iterations it ends.
-/

namespace SwarmDb.Lib

/-- The numbers from `first` to `last`; none where they never end. -/
def sequencesBetween (first last : UInt64) : Option (List UInt64) :=
  if last = 0 - 1 then none
  else some ((List.range' first.toNat (last.toNat + 1 - first.toNat)).map UInt64.ofNat)

variable {last first n a b : UInt64} {l : List UInt64}

theorem sequencesBetween_eq_none : sequencesBetween first last = none ↔ last = 0 - 1 := by
  unfold sequencesBetween
  split
  · exact ⟨fun _ => ‹_›, fun _ => rfl⟩
  · rename_i hne
    exact ⟨fun h => (by cases h), fun h => absurd h hne⟩

/-- A loop that ends goes through the numbers between its bounds. -/
theorem mem_sequencesBetween {i : UInt64} (h : sequencesBetween first last = some l) :
    i ∈ l ↔ first ≤ i ∧ i ≤ last := by
  unfold sequencesBetween at h
  split at h
  · cases h
  · cases h
    have hlast := last.toNat_lt
    simp only [List.mem_map, List.mem_range'_1, UInt64.le_iff_toNat_le]
    constructor
    · rintro ⟨n, hn, rfl⟩
      have hmod : (UInt64.ofNat n).toNat = n := by
        rw [UInt64.toNat_ofNat', Nat.mod_eq_of_lt (by omega)]
      rw [hmod]
      omega
    · rintro ⟨h₁, h₂⟩
      exact ⟨i.toNat, by omega, UInt64.ofNat_toNat⟩

/-- The successor of a number that is not the greatest one. -/
theorem toNat_add_one (h : n ≠ 0 - 1) : (n + 1).toNat = n.toNat + 1 := by
  have hn := n.toNat_lt
  have hne : n.toNat ≠ 2 ^ 64 - 1 := fun he => h (UInt64.toNat_inj.mp (by rw [he]; rfl))
  rw [UInt64.toNat_add, UInt64.toNat_one, Nat.mod_eq_of_lt (by omega)]

theorem ne_last_of_lt (h : a < b) : a ≠ 0 - 1 := by
  rintro rfl
  exact absurd (UInt64.lt_iff_toNat_lt.mp h) (Nat.not_lt.mpr (Nat.le_of_lt_succ b.toNat_lt))

theorem lt_add_one_iff (h : b ≠ 0 - 1) : a < b + 1 ↔ a ≤ b := by
  rw [UInt64.lt_iff_toNat_lt, toNat_add_one h, UInt64.le_iff_toNat_le, Nat.lt_succ_iff]

theorem not_lt_add_one (h : a < b) : ¬ b < a + 1 := by
  rw [lt_add_one_iff (ne_last_of_lt h)]
  exact UInt64.not_le.mpr h

theorem add_one_le (h : a < b) : a + 1 ≤ b :=
  UInt64.not_lt.mp (not_lt_add_one h)

/-! ## The loop, iteration by iteration -/

/-- The loop `for (i = first; i <= last; i++)` over a state, for at most a number of iterations: none where it needs
more. A body that throws ends it. -/
def countUp {ε σ : Type} (last : UInt64) (body : σ → UInt64 → Except ε σ) : Nat → UInt64 → σ → Option (Except ε σ)
  | 0, i, s => if i ≤ last then none else some (.ok s)
  | fuel + 1, i, s =>
    if i ≤ last then
      match body s i with
      | .ok s' => countUp last body fuel (i + 1) s'
      | .error e => some (.error e)
    else some (.ok s)

/-- What a loop goes through from a number within its bounds. -/
theorem sequencesBetween_of_le (h : first ≤ last) :
    sequencesBetween first last = (sequencesBetween (first + 1) last).map (first :: ·) := by
  unfold sequencesBetween
  split
  · rfl
  · next hlast =>
    have hne : first ≠ 0 - 1 := fun he => hlast (UInt64.le_antisymm (UInt64.le_iff_toNat_le.mpr (by
      have := last.toNat_lt
      exact Nat.le_of_lt_succ this)) (he ▸ h))
    have hle := UInt64.le_iff_toNat_le.mp h
    rw [toNat_add_one hne, show last.toNat + 1 - first.toNat = last.toNat + 1 - (first.toNat + 1) + 1 by omega,
      List.range'_succ, Option.map_some, List.map_cons, UInt64.ofNat_toNat]

theorem sequencesBetween_of_lt (h : last < first) : sequencesBetween first last = some [] := by
  have hlt := UInt64.lt_iff_toNat_lt.mp h
  rw [sequencesBetween, if_neg (ne_last_of_lt h), show last.toNat + 1 - first.toNat = 0 by omega]
  rfl

/-- A loop whose body does not throw: it ends after as many iterations as there are numbers to go through. -/
theorem countUp_eq {ε σ : Type} {body : σ → UInt64 → Except ε σ} (hbody : ∀ s i, ∃ s', body s i = .ok s') (fuel : Nat)
    (first : UInt64) (s : σ) :
    countUp last body fuel first s =
      (sequencesBetween first last).bind fun l => if l.length ≤ fuel then some (l.foldlM body s) else none := by
  induction fuel generalizing first s with
  | zero =>
    by_cases hle : first ≤ last
    · rw [countUp, if_pos hle, sequencesBetween_of_le hle]
      cases sequencesBetween (first + 1) last with
      | none => rfl
      | some l => simp
    · rw [countUp, if_neg hle, sequencesBetween_of_lt (UInt64.not_le.mp hle)]
      rfl
  | succ fuel ih =>
    by_cases hle : first ≤ last
    · obtain ⟨s', hs'⟩ := hbody s first
      rw [countUp, if_pos hle, hs', sequencesBetween_of_le hle]
      simp only [ih]
      cases sequencesBetween (first + 1) last with
      | none => rfl
      | some l =>
        simp only [Option.bind_some, Option.map_some, List.length_cons, Nat.succ_le_succ_iff, List.foldlM_cons, hs']
        rfl
    · rw [countUp, if_neg hle, sequencesBetween_of_lt (UInt64.not_le.mp hle)]
      rfl

/-! ## Counting -/

/-- A number counted up without wrapping around. -/
theorem toNat_add_ofNat {i : Nat} (h : n.toNat + i < 2 ^ 64) : (n + UInt64.ofNat i).toNat = n.toNat + i := by
  rw [UInt64.toNat_add, UInt64.toNat_ofNat', Nat.mod_eq_of_lt (show i < 2 ^ 64 by omega), Nat.mod_eq_of_lt h]

/-- An ascending list of all numbers above one up to another. -/
theorem toNat_eq_range (hl : l.Pairwise (· < ·)) (hmem : ∀ i, i ∈ l ↔ first < i ∧ i ≤ last) :
    l.map UInt64.toNat = List.range' (first.toNat + 1) (last.toNat - first.toNat) := by
  have hsorted : (l.map UInt64.toNat).Pairwise (· < ·) :=
    List.pairwise_map.mpr (hl.imp fun h => UInt64.lt_iff_toNat_lt.mp h)
  have hrange : (List.range' (first.toNat + 1) (last.toNat - first.toNat)).Pairwise (· < ·) := List.pairwise_lt_range'
  refine List.Perm.eq_of_pairwise (fun a b _ _ hab hba => absurd hab (Nat.lt_asymm hba)) hsorted hrange ?_
  rw [List.perm_ext_iff_of_nodup (hsorted.imp Nat.ne_of_lt) (hrange.imp Nat.ne_of_lt)]
  intro n
  rw [List.mem_map, List.mem_range'_1]
  constructor
  · rintro ⟨i, hi, rfl⟩
    obtain ⟨hfirst, hlast⟩ := (hmem i).mp hi
    rw [UInt64.lt_iff_toNat_lt] at hfirst
    rw [UInt64.le_iff_toNat_le] at hlast
    omega
  · intro hn
    have hlt := last.toNat_lt
    have hnat : (UInt64.ofNat n).toNat = n := UInt64.toNat_ofNat_of_lt' (Nat.lt_of_le_of_lt (by omega) hlt)
    refine ⟨UInt64.ofNat n, (hmem _).mpr ?_, hnat⟩
    rw [UInt64.lt_iff_toNat_lt, UInt64.le_iff_toNat_le, hnat]
    omega

/-- The numbers between two. -/
theorem card_between {window : UInt64} (hle : a ≤ b) (hwindow : window < b - a) :
    ∃ between : Finset UInt64, window.toNat ≤ between.card ∧ ∀ q ∈ between, a < q ∧ q < b := by
  have hb := b.toNat_lt
  rw [UInt64.lt_iff_toNat_lt, UInt64.toNat_sub_of_le _ _ hle] at hwindow
  have htoNat : ∀ n ∈ Finset.Ioo a.toNat b.toNat, (UInt64.ofNat n).toNat = n := fun n hn =>
    UInt64.toNat_ofNat_of_lt' (Nat.lt_trans (Finset.mem_Ioo.mp hn).2 hb)
  refine ⟨(Finset.Ioo a.toNat b.toNat).image UInt64.ofNat, ?_, fun q hq => ?_⟩
  · rw [Finset.card_image_of_injOn, Nat.card_Ioo]
    · omega
    · intro n hn n' hn' heq
      have h := congrArg UInt64.toNat heq
      rwa [htoNat n hn, htoNat n' hn'] at h
  · obtain ⟨n, hn, rfl⟩ := Finset.mem_image.mp hq
    rw [UInt64.lt_iff_toNat_lt, UInt64.lt_iff_toNat_lt, htoNat n hn]
    exact Finset.mem_Ioo.mp hn

/-! ## The greatest of a list -/

theorem foldl_max_le_iff : l.foldl max a ≤ b ↔ a ≤ b ∧ ∀ x ∈ l, x ≤ b := by
  induction l generalizing a with
  | nil => simp
  | cons x l ih =>
    rw [List.foldl_cons, ih, UInt64.le_iff_toNat_le, UInt64.toNat_max, List.forall_mem_cons, ← and_assoc]
    simp only [UInt64.le_iff_toNat_le, Nat.max_le]

theorem foldl_max_lt_iff : l.foldl max a < b ↔ a < b ∧ ∀ x ∈ l, x < b := by
  induction l generalizing a with
  | nil => simp
  | cons x l ih =>
    rw [List.foldl_cons, ih, UInt64.lt_iff_toNat_lt, UInt64.toNat_max, List.forall_mem_cons, ← and_assoc]
    simp only [UInt64.lt_iff_toNat_lt, Nat.max_lt]

theorem foldl_max_congr {l' : List UInt64} (h : ∀ x, x ∈ l ↔ x ∈ l') : l.foldl max 0 = l'.foldl max 0 := by
  apply UInt64.le_antisymm
  · rw [foldl_max_le_iff]
    exact ⟨UInt64.zero_le, fun x hx => (foldl_max_le_iff.mp UInt64.le_rfl).2 x ((h x).mp hx)⟩
  · rw [foldl_max_le_iff]
    exact ⟨UInt64.zero_le, fun x hx => (foldl_max_le_iff.mp UInt64.le_rfl).2 x ((h x).mpr hx)⟩

/-- The greatest number is that of a list where the list has it. -/
theorem foldl_max_eq_last_iff : l.foldl max 0 = 0 - 1 ↔ 0 - 1 ∈ l := by
  have hall : ∀ x : UInt64, x ≤ 0 - 1 := fun x => UInt64.le_iff_toNat_le.mpr (Nat.le_of_lt_succ x.toNat_lt)
  constructor
  · intro h
    by_contra hnot
    have hle : l.foldl max 0 ≤ 0 - 2 := by
      refine foldl_max_le_iff.mpr ⟨by decide, fun x hx => ?_⟩
      have hne : x.toNat ≠ 2 ^ 64 - 1 := fun he => hnot ((UInt64.toNat_inj.mp he : x = 0 - 1) ▸ hx)
      have hlt := x.toNat_lt
      rw [UInt64.le_iff_toNat_le]
      change x.toNat ≤ 2 ^ 64 - 2
      omega
    rw [h] at hle
    exact absurd hle (by decide)
  · intro h
    exact UInt64.le_antisymm (hall _) ((foldl_max_le_iff.mp UInt64.le_rfl).2 _ h)

end SwarmDb.Lib
