import SwarmDb.Lib.Program

/-!
# Two runs

`Agree R s₁ s₂ m₁ m₂`: the run of `m₁` from `s₁` and that of `m₂` from `s₂` return or throw the same, and end in states
related by `R`. There is one rule for each way of building a program.
-/

namespace SwarmDb.Lib.Program

variable {ε σ α β : Type} {R : σ → σ → Prop} {s₁ s₂ : σ}

/-- Two runs with the same outcome that end in related states. -/
structure Agree (R : σ → σ → Prop) (s₁ s₂ : σ) (m₁ m₂ : Program ε σ α) : Prop where
  result : m₁.result s₁ = m₂.result s₂
  final : R (m₁.final s₁) (m₂.final s₂)

namespace Agree

variable {m₁ m₂ : Program ε σ α} {k₁ k₂ : α → Program ε σ β}

theorem pure (h : R s₁ s₂) (a : α) : Agree R s₁ s₂ (pure a : Program ε σ α) (Pure.pure a) := ⟨rfl, h⟩

theorem fail (h : R s₁ s₂) (e : ε) : Agree R s₁ s₂ (fail e : Program ε σ α) (Program.fail e) := ⟨rfl, h⟩

theorem update {g₁ g₂ : σ → σ} (h : R (g₁ s₁) (g₂ s₂)) :
    Agree R s₁ s₂ (update g₁ : Program ε σ Unit) (Program.update g₂) := ⟨rfl, h⟩

theorem bind (hm : Agree R s₁ s₂ m₁ m₂)
    (hk : ∀ a s₁' s₂', R s₁' s₂' → Agree R s₁' s₂' (k₁ a) (k₂ a)) : Agree R s₁ s₂ (m₁ >>= k₁) (m₂ >>= k₂) := by
  cases h : m₁.result s₁ with
  | error e =>
    have h₂ := hm.result.symm.trans h
    refine ⟨?_, ?_⟩
    · rw [result_bind_error h, result_bind_error h₂]
    · rw [final_bind_error h, final_bind_error h₂]
      exact hm.final
  | ok a =>
    have h₂ := hm.result.symm.trans h
    have hrest := hk a _ _ hm.final
    refine ⟨?_, ?_⟩
    · rw [result_bind_ok h, result_bind_ok h₂]
      exact hrest.result
    · rw [final_bind_ok h, final_bind_ok h₂]
      exact hrest.final

theorem bind_read {k₁ k₂ : σ → Program ε σ β} (h : Agree R s₁ s₂ (k₁ s₁) (k₂ s₂)) :
    Agree R s₁ s₂ (read >>= k₁) (read >>= k₂) := ⟨h.result, h.final⟩

/-- A computation that reads no state, and has the same outcome in both runs. -/
theorem bind_lift {x₁ x₂ : Except ε α} (hR : R s₁ s₂) (hx : x₁ = x₂)
    (hk : ∀ a, x₁ = .ok a → Agree R s₁ s₂ (k₁ a) (k₂ a)) : Agree R s₁ s₂ (lift x₁ >>= k₁) (lift x₂ >>= k₂) := by
  subst hx
  cases x₁ with
  | error e => exact ⟨rfl, hR⟩
  | ok a => exact ⟨(hk a rfl).result, (hk a rfl).final⟩

theorem ite {c₁ c₂ : Prop} [Decidable c₁] [Decidable c₂] {n₁ n₂ : Program ε σ α} (hc : c₁ ↔ c₂)
    (ht : c₁ → Agree R s₁ s₂ m₁ m₂) (he : ¬ c₁ → Agree R s₁ s₂ n₁ n₂) :
    Agree R s₁ s₂ (if c₁ then m₁ else n₁) (if c₂ then m₂ else n₂) := by
  by_cases h : c₁
  · rw [if_pos h, if_pos (hc.mp h)]
    exact ht h
  · rw [if_neg h, if_neg fun h' => h (hc.mpr h')]
    exact he h

/-- A loop over a list whose body agrees in any two related states. -/
theorem forEach {γ : Type} {f₁ f₂ : γ → Program ε σ Unit} {l : List γ} (hR : R s₁ s₂)
    (h : ∀ x ∈ l, ∀ s₁ s₂, R s₁ s₂ → Agree R s₁ s₂ (f₁ x) (f₂ x)) :
    Agree R s₁ s₂ (Program.forEach l f₁) (Program.forEach l f₂) := by
  induction l generalizing s₁ s₂ with
  | nil => exact .pure hR ()
  | cons x l ih =>
    exact .bind (h x (List.mem_cons_self ..) s₁ s₂ hR) fun _ s₁' s₂' hR' =>
      ih hR' fun y hy => h y (List.mem_cons_of_mem _ hy)

end Agree

end SwarmDb.Lib.Program
