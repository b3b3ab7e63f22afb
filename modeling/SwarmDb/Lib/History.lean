import Mathlib

/-!
# Histories

A history is the list of the events so far. `Justified P l` says of each event of `l` what `P` says of it and of the
events before it.

`Reach next allowed s₀ l s`: from `s₀` a system comes to `s` by the actions `l`, each allowed where it was taken. What
holds at `s₀` and is kept by every allowed action holds of all it comes to (`Reach.invariant`). `Allows` says of a list
of actions that it is a run (`reach_of_allows`); of concrete actions it is decided.
-/

namespace SwarmDb.Lib

variable {α : Type}

/-- Each event is justified by those before it. -/
def Justified (P : List α → α → Prop) (l : List α) : Prop := ∀ before e after, l = before ++ e :: after → P before e

theorem justified_nil (P : List α → α → Prop) : Justified P [] := by
  intro before e after h
  simp at h

theorem justified_concat {P : List α → α → Prop} {l : List α} {e : α} :
    Justified P (l ++ [e]) ↔ Justified P l ∧ P l e := by
  constructor
  · intro h
    exact ⟨fun before e' after hl => h before e' (after ++ [e]) (by rw [hl]; simp), h l e [] rfl⟩
  · rintro ⟨hl, he⟩ before e' after heq
    rcases List.eq_nil_or_concat after with rfl | ⟨after', e'', rfl⟩
    · obtain ⟨rfl, hee⟩ := List.append_inj' heq rfl
      cases hee
      exact he
    · have heq' : l ++ [e] = (before ++ e' :: after') ++ [e''] := by rw [heq]; simp
      exact hl before e' after' (List.append_inj_left' heq' rfl)

/-- Events that need no justification. -/
theorem Justified.append {P : List α → α → Prop} {l l' : List α} (h : Justified P l)
    (h' : ∀ before, ∀ e ∈ l', P before e) : Justified P (l ++ l') := by
  induction l' using List.reverseRecOn with
  | nil => rwa [List.append_nil]
  | append_singleton l' e ih =>
    rw [← List.append_assoc, justified_concat]
    exact ⟨ih fun before e' he' => h' before e' (List.mem_append_left _ he'), h' _ e (by simp)⟩

/-! ## Runs -/

variable {σ : Type} {next : σ → α → σ} {allowed : σ → α → Prop} {s₀ : σ}

/-- The states that a system comes to, with the actions that led there. -/
inductive Reach (next : σ → α → σ) (allowed : σ → α → Prop) (s₀ : σ) : List α → σ → Prop
  | start : Reach next allowed s₀ [] s₀
  | act {l : List α} {s : σ} (before : Reach next allowed s₀ l s) (a : α) (permitted : allowed s a) :
      Reach next allowed s₀ (l ++ [a]) (next s a)

theorem Reach.invariant {I : List α → σ → Prop} (hstart : I [] s₀)
    (hact : ∀ l s a, Reach next allowed s₀ l s → I l s → allowed s a → I (l ++ [a]) (next s a)) {l : List α} {s : σ}
    (h : Reach next allowed s₀ l s) : I l s := by
  induction h with
  | start => exact hstart
  | act before a permitted ih => exact hact _ _ a before ih permitted

/-- The actions determine where a run ends. -/
theorem Reach.eq_foldl {l : List α} {s : σ} (h : Reach next allowed s₀ l s) : s = l.foldl next s₀ := by
  induction h with
  | start => rfl
  | act before a permitted ih => rw [List.foldl_append, ← ih]; rfl

/-- A run that goes on by one action. -/
theorem reach_foldl_concat {l : List α} (h : Reach next allowed s₀ l (l.foldl next s₀)) {a : α}
    (ha : allowed (l.foldl next s₀) a) : Reach next allowed s₀ (l ++ [a]) ((l ++ [a]).foldl next s₀) := by
  rw [List.foldl_append]
  exact h.act a ha

/-- Each action of a list is allowed where those before it lead to. -/
def Allows (next : σ → α → σ) (allowed : σ → α → Prop) : σ → List α → Prop
  | _, [] => True
  | s, a :: l => allowed s a ∧ Allows next allowed (next s a) l

instance decidableAllows [∀ s a, Decidable (allowed s a)] : (s : σ) → (l : List α) → Decidable (Allows next allowed s l)
  | _, [] => .isTrue trivial
  | s, a :: l =>
    have : Decidable (Allows next allowed (next s a) l) := decidableAllows (next s a) l
    inferInstanceAs (Decidable (allowed s a ∧ Allows next allowed (next s a) l))

theorem Allows.mono {allowed' : σ → α → Prop} (h : ∀ s a, allowed s a → allowed' s a) {s : σ} {l : List α}
    (hl : Allows next allowed s l) : Allows next allowed' s l := by
  induction l generalizing s with
  | nil => trivial
  | cons a l ih => exact ⟨h s a hl.1, ih hl.2⟩

theorem Reach.of_allows {l l' : List α} {s : σ} (h : Reach next allowed s₀ l s) (h' : Allows next allowed s l') :
    Reach next allowed s₀ (l ++ l') (l'.foldl next s) := by
  induction l' generalizing l s with
  | nil => rwa [List.append_nil]
  | cons a l' ih =>
    have hnext := ih (h.act a h'.1) h'.2
    rwa [List.append_assoc, List.singleton_append] at hnext

/-- Actions that are allowed one after the other are a run. -/
theorem reach_of_allows {l : List α} (h : Allows next allowed s₀ l) : Reach next allowed s₀ l (l.foldl next s₀) :=
  Reach.of_allows .start h

/-- Where every action is allowed, every list of actions is a run. -/
theorem reach_foldl (h : ∀ s a, allowed s a) (l : List α) : Reach next allowed s₀ l (l.foldl next s₀) := by
  induction l using List.reverseRecOn with
  | nil => exact .start
  | append_singleton l a ih => exact reach_foldl_concat ih (h _ a)

end SwarmDb.Lib
