import SwarmDb.Lib.Program

/-!
# Lists and computations that may throw

What `mapM` and `filterM` over a list give where they do not throw.
-/

namespace SwarmDb.Lib

open Program

variable {ε α β γ : Type}

theorem map_mapM (f : α → Except ε β) (g : β → γ) (l : List α) :
    (l.mapM f).map (List.map g) = l.mapM fun x => (f x).map g := by
  induction l with
  | nil => rfl
  | cons x l ih =>
    rw [List.mapM_cons, List.mapM_cons]
    cases f x with
    | error e => rfl
    | ok a =>
      show (l.mapM f >>= fun as => pure (a :: as)).map (List.map g) = (l.mapM _ >>= fun bs => pure (g a :: bs))
      rw [← ih]
      cases l.mapM f <;> rfl

variable {l : List α} {l' : List β} {f : α → Except ε β} {R : α → β → Prop}

theorem forall₂_of_mapM (h : l.mapM f = .ok l') : List.Forall₂ (fun x y => f x = .ok y) l l' := by
  induction l generalizing l' with
  | nil =>
    cases h
    exact .nil
  | cons x l ih =>
    rw [List.mapM_cons] at h
    obtain ⟨y, hy, h⟩ := except_bind_eq_ok.mp h
    obtain ⟨ys, hys, h⟩ := except_bind_eq_ok.mp h
    cases h
    exact .cons hy (ih hys)

/-- Where no element throws, the list returned holds what they return. -/
theorem mapM_of_ok (h : ∀ x ∈ l, ∃ y, f x = .ok y) : ∃ l', l.mapM f = .ok l' ∧ ∀ y, y ∈ l' ↔ ∃ x ∈ l, f x = .ok y := by
  induction l with
  | nil => exact ⟨[], rfl, fun y => by simp⟩
  | cons x l ih =>
    obtain ⟨y, hy⟩ := h x (List.mem_cons_self ..)
    obtain ⟨l', hl', hmem⟩ := ih fun x hx => h x (List.mem_cons_of_mem _ hx)
    refine ⟨y :: l', ?_, fun z => ?_⟩
    · rw [List.mapM_cons, hy, except_ok_bind, hl', except_ok_bind]
      rfl
    · rw [List.mem_cons, hmem, List.exists_mem_cons_iff, hy, Except.ok.injEq, eq_comm]

theorem filterM_congr {f g : α → Except ε Bool} (h : ∀ x ∈ l, f x = g x) : l.filterM f = l.filterM g := by
  have haux : ∀ acc, l.filterAuxM f acc = l.filterAuxM g acc := by
    induction l with
    | nil => exact fun _ => rfl
    | cons x l ih =>
      intro acc
      rw [List.filterAuxM, List.filterAuxM, h x (List.mem_cons_self ..)]
      exact congrArg _ (funext fun b => ih (fun y hy => h y (List.mem_cons_of_mem _ hy)) _)
  rw [List.filterM, List.filterM, haux]

theorem filterM_of_ok {f : α → Except ε Bool} {p : α → Bool} (h : ∀ x ∈ l, f x = .ok (p x)) :
    l.filterM f = .ok (l.filter p) := by
  have haux : ∀ acc, l.filterAuxM f acc = .ok ((l.filter p).reverse ++ acc) := by
    induction l with
    | nil => exact fun _ => rfl
    | cons x l ih =>
      intro acc
      rw [List.filterAuxM, h x (List.mem_cons_self ..), except_ok_bind, ih fun y hy => h y (List.mem_cons_of_mem _ hy),
        List.filter_cons]
      cases p x with
      | false => rfl
      | true =>
        rw [if_pos rfl, List.reverse_cons, List.append_assoc]
        rfl
  rw [List.filterM, haux, except_ok_bind, List.append_nil, List.reverse_reverse]
  rfl

theorem sublist_of_filterM {p : α → Except ε Bool} {l' : List α} (h : l.filterM p = .ok l') :
    l'.Sublist l ∧ ∀ x ∈ l', p x = .ok true := by
  -- the loop collects what is kept in reverse
  have haux : ∀ acc r, l.filterAuxM p acc = .ok r →
      ∃ kept : List α, r = kept.reverse ++ acc ∧ kept.Sublist l ∧ ∀ x ∈ kept, p x = .ok true := by
    clear h
    induction l with
    | nil =>
      intro acc r hr
      cases hr
      exact ⟨[], rfl, List.Sublist.slnil, fun x hx => absurd hx List.not_mem_nil⟩
    | cons x l ih =>
      intro acc r hr
      obtain ⟨b, hb, hr⟩ := except_bind_eq_ok.mp hr
      obtain ⟨kept, rfl, hsub, hkept⟩ := ih _ _ hr
      cases b with
      | false => exact ⟨kept, rfl, hsub.cons x, hkept⟩
      | true =>
        refine ⟨x :: kept, ?_, hsub.cons_cons x, fun y hy => ?_⟩
        · rw [List.reverse_cons, List.append_assoc]
          rfl
        · rcases List.mem_cons.mp hy with rfl | hy
          · exact hb
          · exact hkept y hy
  obtain ⟨r, hr, h⟩ := except_bind_eq_ok.mp h
  obtain ⟨kept, rfl, hsub, hkept⟩ := haux _ _ hr
  cases h
  rw [List.append_nil, List.reverse_reverse]
  exact ⟨hsub, hkept⟩

theorem exists_of_forall₂ (h : List.Forall₂ R l l') {y : β} (hy : y ∈ l') : ∃ x ∈ l, R x y := by
  induction h with
  | nil => cases hy
  | cons hxy _ ih =>
    rcases List.mem_cons.mp hy with rfl | hy
    · exact ⟨_, List.mem_cons_self .., hxy⟩
    · obtain ⟨x, hx, hr⟩ := ih hy
      exact ⟨x, List.mem_cons_of_mem _ hx, hr⟩

/-- A relation between the elements of one list, seen on another list. -/
theorem pairwise_of_forall₂ {S : α → α → Prop} {T : β → β → Prop} (h : List.Forall₂ R l l') (hpair : l.Pairwise S)
    (hrel : ∀ x x' y y', S x x' → R x y → R x' y' → T y y') : l'.Pairwise T := by
  induction h with
  | nil => exact .nil
  | @cons x y l l' hxy hll' ih =>
    obtain ⟨hx, hpair⟩ := List.pairwise_cons.mp hpair
    refine List.pairwise_cons.mpr ⟨fun y' hy' => ?_, ih hpair⟩
    obtain ⟨x', hx', hx'y'⟩ := exists_of_forall₂ hll' hy'
    exact hrel x x' y y' (hx x' hx') hxy hx'y'

/-- The elements that contribute nothing can be left out. -/
theorem flatMap_eq_flatMap_filter {g : α → List β} (q : α → Bool) (h : ∀ a ∈ l, ¬ q a → g a = []) :
    l.flatMap g = (l.filter q).flatMap g := by
  induction l with
  | nil => rfl
  | cons a l ih =>
    rw [List.flatMap_cons, ih fun b hb => h b (List.mem_cons_of_mem a hb), List.filter_cons]
    split
    · rw [List.flatMap_cons]
    · rename_i hq
      rw [h a (List.mem_cons_self ..) hq, List.nil_append]

end SwarmDb.Lib
