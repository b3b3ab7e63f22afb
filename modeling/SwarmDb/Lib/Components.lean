import SwarmDb.Lib.History

/-!
# Systems of components

A system of components, each with a state of its own, that act one at a time. A
run of the system is a run of each component by its own actions
(`Reach.component`), whatever the order in which they act. `Reach.found` looks
back at the state in which an action found the system.
-/

namespace SwarmDb.Lib

/-- In a run whose states go on by `R`, each action found a state from which it went on to the last one. -/
theorem Reach.found {σ α : Type} {next : σ → α → σ} {allowed : σ → α → Prop} {s₀ : σ} {R : σ → σ → Prop}
    (htrans : ∀ s t u, R s t → R t u → R s u)
    (hnext : ∀ l s a, Reach next allowed s₀ l s → allowed s a → R s (next s a)) {l : List α} {s : σ}
    (h : Reach next allowed s₀ l s) {a : α} (ha : a ∈ l) : ∃ t, allowed t a ∧ R t s := by
  induction h with
  | start => cases ha
  | act before a' permitted ih =>
    have hlast := hnext _ _ a' before permitted
    rcases List.mem_append.mp ha with ha | ha
    · obtain ⟨t, hallowed, ht⟩ := ih ha
      exact ⟨t, hallowed, htrans _ _ _ ht hlast⟩
    · rw [List.mem_singleton.mp ha]
      exact ⟨_, permitted, hlast⟩

variable {ι σ α : Type} [DecidableEq ι]

/-- An action of one component. -/
def stepAt (step : ι → σ → α → σ) (s : ι → σ) (e : ι × α) : ι → σ := Function.update s e.1 (step e.1 (s e.1) e.2)

/-- The actions of one component. -/
def own (l : List (ι × α)) (i : ι) : List α := (l.filter fun e => e.1 = i).map Prod.snd

variable {l : List (ι × α)}

theorem mem_own {i : ι} {a : α} : a ∈ own l i ↔ (i, a) ∈ l := by
  simp [own]

theorem own_concat (l : List (ι × α)) (e : ι × α) (i : ι) :
    own (l ++ [e]) i = if e.1 = i then own l i ++ [e.2] else own l i := by
  unfold own
  rw [List.filter_append, List.map_append]
  split
  · rename_i h
    simp [h]
  · rename_i h
    simp [h]

theorem Reach.component {step : ι → σ → α → σ} {allowed : (ι → σ) → ι × α → Prop} {s₀ : ι → σ}
    (allowed' : ι → σ → α → Prop) (hallowed : ∀ s i a, allowed s (i, a) → allowed' i (s i) a) {s : ι → σ}
    (h : Reach (stepAt step) allowed s₀ l s) (i : ι) : Reach (step i) (allowed' i) (s₀ i) (own l i) (s i) := by
  induction h with
  | start => exact .start
  | act before e permitted ih =>
    obtain ⟨j, a⟩ := e
    rw [own_concat, stepAt]
    by_cases hj : j = i
    · subst hj
      rw [if_pos rfl, Function.update_self]
      exact ih.act a (hallowed _ j a permitted)
    · rw [if_neg hj, Function.update_of_ne fun h => hj h.symm]
      exact ih

end SwarmDb.Lib
