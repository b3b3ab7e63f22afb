import Mathlib

/-!
# Programs with a state that may throw

A `Program ε σ α` runs on a state `σ` and returns a value or throws; what it
did to the state before it threw stays done, as with exceptions over mutable
objects. Three notions say what a program may do:

* `Spec M P m Q`: every run of `m` from a state satisfying `P` goes by the
  steps of `M`; where it returns `a` it ends in a state satisfying `Q a`, and
  where it throws it leaves what a crash leaves. What the steps keep is then
  kept by every program built from them (`Moves.inv_run`).
* `Within R m`: every run of `m` ends where `R` allows, and `Keeps f m`: no run
  of `m` changes the part `f` of the state.
* `Throws E m`: a run of `m` throws nothing but what is in `E`.

Each has one rule for each way of building a program (`bind`, branches, loops
over lists, `zoom` to a part of the state).
-/

namespace SwarmDb.Lib

/-- A program over states `σ` that may throw an `ε`. -/
abbrev Program (ε σ α : Type) := ExceptT ε (StateM σ) α

namespace Program

variable {ε σ τ α β : Type} {f : α → Program ε σ β} {m : Program ε σ α} {s : σ}

/-- The outcome and the final state of a run from `s`. -/
def runFrom (m : Program ε σ α) (s : σ) : Except ε α × σ := (ExceptT.run m).run s

/-- The final state of a run from `s`, also where it throws. -/
def final (m : Program ε σ α) (s : σ) : σ := (m.runFrom s).2

/-- What a run from `s` returns or throws. -/
def result (m : Program ε σ α) (s : σ) : Except ε α := (m.runFrom s).1

/-- A computation that reads no state, as a program. -/
def lift (x : Except ε α) : Program ε σ α := ExceptT.mk (pure x)

/-- Reading the state. -/
def read : Program ε σ σ := ExceptT.mk fun s => (.ok s, s)

/-- Changing the state. -/
def update (f : σ → σ) : Program ε σ Unit := ExceptT.mk fun s => (.ok (), f s)

/-- Throwing. -/
def fail (e : ε) : Program ε σ α := ExceptT.mk fun s => (.error e, s)

/-- A program on a part of the state. -/
def zoom (get : σ → τ) (put : τ → σ → σ) (m : Program ε τ α) : Program ε σ α :=
  ExceptT.mk fun s => ((m.runFrom (get s)).1, put (m.runFrom (get s)).2 s)

/-- A loop over a list. -/
def forEach {γ : Type} : List γ → (γ → Program ε σ Unit) → Program ε σ Unit
  | [], _ => pure ()
  | x :: l, f => do f x; forEach l f

/-- A loop over a list that collects what its body returns. -/
def collect {γ : Type} : List γ → (γ → Program ε σ α) → Program ε σ (List α)
  | [], _ => pure []
  | x :: l, f => do
    let a ← f x
    let as ← collect l f
    pure (a :: as)

theorem except_ok_bind (a : α) (f : α → Except ε β) : ((.ok a : Except ε α) >>= f) = f a := rfl

variable {b : β} {x : Except ε α} {a : α} {γ : Type}

/-- A computation that returns, seen through its first part. -/
theorem except_bind_eq_ok {f : α → Except ε β} : (x >>= f) = .ok b ↔ ∃ a, x = .ok a ∧ f a = .ok b := by
  cases x <;> simp [bind, Except.bind]

/-- A check of all elements that may throw: it returns true where each of them
returns true. -/
theorem allM_eq_ok_true {f : α → Except ε Bool} {l : List α} : l.allM f = .ok true ↔ ∀ x ∈ l, f x = .ok true := by
  induction l with
  | nil => simp [Pure.pure, Except.pure]
  | cons x l ih =>
    simp only [List.allM, except_bind_eq_ok, List.forall_mem_cons]
    constructor
    · rintro ⟨b, hb, h⟩
      cases b with
      | true => exact ⟨hb, ih.mp h⟩
      | false => cases h
    · rintro ⟨hx, hl⟩
      exact ⟨true, hx, ih.mpr hl⟩

/-! ## Checks

A check gives `false` where it finds something wrong, and goes on otherwise. -/

section

variable {P : Prop} [Decidable P] {x y : Except ε Bool}

theorem pure_eq_ok_true {b : Bool} : (pure b : Except ε Bool) = .ok true ↔ b = true := by
  simp [Pure.pure, Except.pure]

theorem unless_eq_ok_true : (if P then pure false else y) = .ok true ↔ ¬ P ∧ y = .ok true := by
  by_cases h : P <;> simp [h, pure_eq_ok_true]

theorem bind_unless_eq_ok_true : (x >>= fun b => if b then pure false else y) = .ok true ↔
    x = .ok false ∧ y = .ok true := by
  simp [except_bind_eq_ok, Bool.exists_bool, pure_eq_ok_true]

theorem bind_when_eq_ok_true : (x >>= fun b => if b then y else pure false) = .ok true ↔
    x = .ok true ∧ y = .ok true := by
  simp [except_bind_eq_ok, Bool.exists_bool, pure_eq_ok_true]

end

/-! ## Running -/

theorem runFrom_eq (m : Program ε σ α) (s : σ) : m.runFrom s = (m.result s, m.final s) := rfl

theorem runFrom_pure (a : α) (s : σ) : (pure a : Program ε σ α).runFrom s = (.ok a, s) := rfl

theorem runFrom_lift (x : Except ε α) (s : σ) : (lift x : Program ε σ α).runFrom s = (x, s) := rfl

theorem runFrom_read (s : σ) : (read : Program ε σ σ).runFrom s = (.ok s, s) := rfl

theorem runFrom_update (f : σ → σ) (s : σ) : (update f : Program ε σ Unit).runFrom s = (.ok (), f s) := rfl

theorem runFrom_zoom (get : σ → τ) (put : τ → σ → σ) (m : Program ε τ α) (s : σ) :
    (zoom get put m).runFrom s = ((m.runFrom (get s)).1, put (m.runFrom (get s)).2 s) := rfl

theorem runFrom_bind (m : Program ε σ α) (f : α → Program ε σ β) (s : σ) :
    (m >>= f).runFrom s =
      match m.runFrom s with
      | (.ok a, s') => (f a).runFrom s'
      | (.error e, s') => (.error e, s') := by
  unfold runFrom StateT.run ExceptT.run
  simp only [bind, ExceptT.bind, ExceptT.mk, StateT.bind]
  rcases m s with ⟨r | r, s'⟩ <;> rfl

theorem runFrom_bind_ok {s' : σ} (h : m.runFrom s = (.ok a, s')) : (m >>= f).runFrom s = (f a).runFrom s' := by
  rw [runFrom_bind, h]

/-- Two continuations that agree where the first part returns. -/
theorem runFrom_bind_congr {g : α → Program ε σ β}
    (h : ∀ a, m.result s = .ok a → (f a).runFrom (m.final s) = (g a).runFrom (m.final s)) :
    (m >>= f).runFrom s = (m >>= g).runFrom s := by
  rw [runFrom_bind, runFrom_bind, runFrom_eq]
  cases hm : m.result s with
  | error e => rfl
  | ok a => exact h a hm

/-- Programs with the same runs are the same. -/
theorem eq_of_runFrom {m' : Program ε σ α} (h : ∀ s, m.runFrom s = m'.runFrom s) : m = m' := funext h

@[simp] theorem result_pure (a : α) (s : σ) : (pure a : Program ε σ α).result s = .ok a := rfl
@[simp] theorem final_pure (a : α) (s : σ) : (pure a : Program ε σ α).final s = s := rfl
@[simp] theorem result_lift (x : Except ε α) (s : σ) : (lift x : Program ε σ α).result s = x := rfl
@[simp] theorem final_lift (x : Except ε α) (s : σ) : (lift x : Program ε σ α).final s = s := rfl
@[simp] theorem final_update (f : σ → σ) (s : σ) : (update f : Program ε σ Unit).final s = f s := rfl

@[simp] theorem final_zoom (get : σ → τ) (put : τ → σ → σ) (m : Program ε τ α) (s : σ) :
    (zoom get put m).final s = put (m.final (get s)) s := rfl

theorem result_bind_ok (h : m.result s = .ok a) : (m >>= f).result s = (f a).result (m.final s) := by
  simp only [result, final, runFrom_bind] at h ⊢
  rcases hm : m.runFrom s with ⟨r, s'⟩
  rw [hm] at h; cases h; rfl

theorem final_bind_ok (h : m.result s = .ok a) : (m >>= f).final s = (f a).final (m.final s) := by
  simp only [result, final, runFrom_bind] at h ⊢
  rcases hm : m.runFrom s with ⟨r, s'⟩
  rw [hm] at h; cases h; rfl

theorem result_bind_error {e : ε}
    (h : m.result s = .error e) : (m >>= f).result s = .error e := by
  simp only [result, runFrom_bind] at h ⊢
  rcases hm : m.runFrom s with ⟨r, s'⟩
  rw [hm] at h; cases h; rfl

theorem final_bind_error {e : ε}
    (h : m.result s = .error e) : (m >>= f).final s = m.final s := by
  simp only [result, final, runFrom_bind] at h ⊢
  rcases hm : m.runFrom s with ⟨r, s'⟩
  rw [hm] at h; cases h; rfl

@[simp] theorem result_read_bind (f : σ → Program ε σ β) (s : σ) :
    (read >>= f).result s = (f s).result s := result_bind_ok rfl
@[simp] theorem final_read_bind (f : σ → Program ε σ β) (s : σ) :
    (read >>= f).final s = (f s).final s := final_bind_ok rfl
@[simp] theorem result_update_bind (g : σ → σ) (f : Unit → Program ε σ β) (s : σ) :
    (update g >>= f).result s = (f ()).result (g s) := result_bind_ok rfl
@[simp] theorem final_update_bind (g : σ → σ) (f : Unit → Program ε σ β) (s : σ) :
    (update g >>= f).final s = (f ()).final (g s) := final_bind_ok rfl

@[simp] theorem final_lift_bind (a : α) (f : α → Program ε σ β) (s : σ) :
    (lift (.ok a) >>= f).final s = (f a).final s := final_bind_ok rfl

/-- Where a run ends that starts with a computation that reads no state. -/
theorem final_lift_bind_of {P : σ → Prop} (herr : P s) (hok : ∀ a, x = .ok a → P ((f a).final s)) :
    P ((lift x >>= f).final s) := by
  cases x with
  | error e => exact herr
  | ok a =>
    exact hok a rfl

theorem final_ite_of {P : σ → Prop} {c : Prop} [Decidable c] {m₁ m₂ : Program ε σ α}
    (hthen : c → P (m₁.final s)) (helse : ¬ c → P (m₂.final s)) : P ((if c then m₁ else m₂).final s) := by
  split
  · exact hthen ‹_›
  · exact helse ‹_›

/-- Parts that leave a state as it is. -/
theorem final_bind_pure (m : Program ε σ α) (g : α → β) (s : σ) : (m >>= fun a => pure (g a)).final s = m.final s := by
  cases h : m.result s with
  | ok => rw [final_bind_ok h, final_pure]
  | error => rw [final_bind_error h]

theorem final_bind_eq_self (hm : m.final s = s)
    (hf : ∀ a, (f a).final s = s) : (m >>= f).final s = s := by
  cases h : m.result s with
  | ok a => rw [final_bind_ok h, hm, hf]
  | error e => rw [final_bind_error h, hm]

theorem final_collect_eq_self {f : γ → Program ε σ α} {l : List γ} (h : ∀ x ∈ l, (f x).final s = s) :
    (collect l f).final s = s := by
  induction l with
  | nil => rfl
  | cons x l ih =>
    refine final_bind_eq_self (h x (List.mem_cons_self ..)) fun _ => final_bind_eq_self ?_ fun _ => rfl
    exact ih fun y hy => h y (List.mem_cons_of_mem _ hy)

/-- A run that returns, seen through its first part. -/
theorem result_bind_eq_ok (h : (m >>= f).result s = .ok b) :
    ∃ a, m.result s = .ok a ∧ (f a).result (m.final s) = .ok b := by
  cases hm : m.result s with
  | error e => rw [result_bind_error hm] at h; cases h
  | ok a => exact ⟨a, rfl, by rwa [result_bind_ok hm] at h⟩

/-- What each part of a loop returns, where the parts that return keep an invariant. -/
theorem forall₂_of_collect {R : γ → α → Prop} {I : σ → Prop} {f : γ → Program ε σ α} {l : List γ} {as : List α}
    (hf : ∀ x s a, I s → (f x).result s = .ok a → R x a ∧ I ((f x).final s)) (hs : I s)
    (h : (collect l f).result s = .ok as) : List.Forall₂ R l as := by
  induction l generalizing s as with
  | nil =>
    cases h
    exact .nil
  | cons x _ ih =>
    obtain ⟨a, ha, h⟩ := result_bind_eq_ok h
    obtain ⟨_, has, h⟩ := result_bind_eq_ok h
    cases h
    obtain ⟨hR, hI⟩ := hf x s a hs ha
    exact .cons hR (ih hI has)

/-- A loop returns where each part does and keeps an invariant. -/
theorem collect_returns {I : σ → Prop} {f : γ → Program ε σ α} {l : List γ}
    (hf : ∀ x ∈ l, ∀ s, I s → ∃ a s', (f x).runFrom s = (.ok a, s') ∧ I s') (hs : I s) :
    ∃ as s', (collect l f).runFrom s = (.ok as, s') ∧ I s' := by
  induction l generalizing s with
  | nil => exact ⟨[], s, rfl, hs⟩
  | cons x _ ih =>
    obtain ⟨a, s₁, ha, hs₁⟩ := hf x List.mem_cons_self s hs
    obtain ⟨as, s₂, has, hs₂⟩ := ih (fun y hy => hf y (List.mem_cons_of_mem _ hy)) hs₁
    refine ⟨a :: as, s₂, ?_, hs₂⟩
    rw [collect, runFrom_bind_ok ha, runFrom_bind_ok has]
    rfl

theorem runFrom_bind_eq_ok {s' : σ} (h : (m >>= f).runFrom s = (.ok b, s')) :
    ∃ a s₁, m.runFrom s = (.ok a, s₁) ∧ (f a).runFrom s₁ = (.ok b, s') := by
  rw [runFrom_bind] at h
  rcases hm : m.runFrom s with ⟨e | a, s₁⟩
  · rw [hm] at h
    cases h
  · rw [hm] at h
    exact ⟨a, s₁, rfl, h⟩

/-- A loop of programs on a part of the state is one on that part. -/
theorem forEach_zoom (get : σ → τ) (put : τ → σ → σ) (hget : ∀ t s, get (put t s) = t)
    (hput : ∀ t t' s, put t' (put t s) = put t' s) (hself : ∀ s, put (get s) s = s) (l : List γ)
    (m : γ → Program ε τ Unit) (s : σ) :
    (forEach l fun x => zoom get put (m x)).result s = (forEach l m).result (get s) ∧
    (forEach l fun x => zoom get put (m x)).final s = put ((forEach l m).final (get s)) s := by
  induction l generalizing s with
  | nil => exact ⟨rfl, (hself s).symm⟩
  | cons x l ih =>
    rw [forEach, forEach]
    cases h : (m x).result (get s) with
    | ok u =>
      have hz : (zoom get put (m x)).result s = .ok u := h
      rw [result_bind_ok hz, final_bind_ok hz, result_bind_ok h, final_bind_ok h, (ih _).1, (ih _).2, final_zoom, hget,
        hput]
      exact ⟨rfl, rfl⟩
    | error e =>
      have hz : (zoom get put (m x)).result s = .error e := h
      rw [result_bind_error hz, final_bind_error hz, result_bind_error h, final_bind_error h]
      exact ⟨rfl, rfl⟩

theorem forEach_append (l l' : List γ) (m : γ → Program ε σ Unit) :
    forEach (l ++ l') m = (do forEach l m; forEach l' m) := by
  induction l with
  | nil => simp [forEach]
  | cons x l ih => simp [forEach, ih]

theorem forEach_map {δ : Type} (g : γ → δ) (l : List γ) (m : δ → Program ε σ Unit) :
    forEach (l.map g) m = forEach l fun x => m (g x) := by
  induction l with
  | nil => rfl
  | cons x l ih => simp [forEach, ih]

/-- A loop in a loop is one loop. -/
theorem forEach_flatMap {δ : Type} (l : List γ) (g : γ → List δ) (m : δ → Program ε σ Unit) :
    forEach (l.flatMap g) m = forEach l fun x => forEach (g x) m := by
  induction l with
  | nil => rfl
  | cons x l ih => simp [forEach, forEach_append, ih]

/-! ## Steps -/

/-- What programs over `σ` are built from: the steps they take, an invariant of
the steps, and how the state a throw leaves behind may differ from the one the
last step led to. -/
structure Moves (σ : Type) where
  /-- One step of a run. -/
  step : σ → σ → Prop
  /-- What a throw may lose. -/
  crash : σ → σ → Prop
  inv : σ → Prop
  crash_refl : ∀ s, crash s s
  inv_step : ∀ s s', inv s → step s s' → inv s'

theorem Moves.inv_run (M : Moves σ) {s' : σ} (h : Relation.ReflTransGen M.step s s') (hs : M.inv s) : M.inv s' := by
  induction h with
  | refl => exact hs
  | tail _ hst ih => exact M.inv_step _ _ ih hst

/-- Every run of `m` from a state satisfying `P` goes by steps of `M`. A run
that returns `a` ends in a state satisfying `Q a`; a run that throws leaves
what a crash leaves of the state its steps led to. -/
def Spec (M : Moves σ) (P : σ → Prop) (m : Program ε σ α) (Q : α → σ → Prop) : Prop :=
  ∀ s, M.inv s → P s →
    (∀ a, m.result s = .ok a → Relation.ReflTransGen M.step s (m.final s) ∧ Q a (m.final s)) ∧
    (∀ e, m.result s = .error e → ∃ s', Relation.ReflTransGen M.step s s' ∧ M.crash s' (m.final s))

namespace Spec

variable {M : Moves σ} {P P' : σ → Prop} {m : Program ε σ α} {Q Q' : α → σ → Prop} {T : β → σ → Prop}

theorem conseq (h : Spec M P m Q) (hP : ∀ s, M.inv s → P' s → P s) (hQ : ∀ a s, M.inv s → Q a s → Q' a s) :
    Spec M P' m Q' := by
  intro s hi hs
  obtain ⟨hok, herr⟩ := h s hi (hP s hi hs)
  exact ⟨fun a ha => ⟨(hok a ha).1, hQ a _ (M.inv_run (hok a ha).1 hi) (hok a ha).2⟩, herr⟩

theorem pre (h : Spec M P m Q) (hP : ∀ s, P' s → P s) : Spec M P' m Q := h.conseq (fun s _ => hP s) fun _ _ _ => id

theorem post (h : Spec M P m Q) (hQ : ∀ a s, Q a s → Q' a s) : Spec M P m Q' :=
  h.conseq (fun _ _ => id) fun a s _ => hQ a s

theorem pure {a : α} (h : ∀ s, P s → Q a s) : Spec M P (pure a : Program ε σ α) Q :=
  fun s _ hs => ⟨fun b hb => by cases hb; exact ⟨.refl, h s hs⟩, fun e he => by cases he⟩

theorem fail (e : ε) : Spec M P (fail e : Program ε σ α) Q :=
  fun s _ _ => ⟨fun _ h => (by cases h), fun _ _ => ⟨s, .refl, M.crash_refl s⟩⟩

theorem update {f : σ → σ} {Q : Unit → σ → Prop} (h : ∀ s, M.inv s → P s → M.step s (f s) ∧ Q () (f s)) :
    Spec M P (update f : Program ε σ Unit) Q :=
  fun s hi hs => ⟨fun _ _ => ⟨.single (h s hi hs).1, (h s hi hs).2⟩, fun e he => by cases he⟩

/-- One step, taken by a run that returns. -/
theorem single (hok : ∀ s a, M.inv s → P s → m.result s = .ok a → M.step s (m.final s) ∧ Q a (m.final s))
    (herr : ∀ s e, M.inv s → P s → m.result s = .error e → M.crash s (m.final s)) : Spec M P m Q :=
  fun s hi hs => ⟨fun a ha => ⟨.single (hok s a hi hs ha).1, (hok s a hi hs ha).2⟩,
    fun e he => ⟨s, .refl, herr s e hi hs he⟩⟩

/-- The same, for a program whose runs are known. -/
theorem singleRun (h : ∀ s, M.inv s → P s → (∃ a s', m.runFrom s = (.ok a, s') ∧ M.step s s' ∧ Q a s') ∨
    ∃ e s', m.runFrom s = (.error e, s') ∧ M.crash s s') : Spec M P m Q := by
  refine single (fun s a hi hs hr => ?_) fun s e hi hs hr => ?_
  · rcases h s hi hs with ⟨b, s', h, hst, hq⟩ | ⟨e, s', h, -⟩
    · rw [result, h] at hr
      cases hr
      rw [final, h]
      exact ⟨hst, hq⟩
    · rw [result, h] at hr
      cases hr
  · rcases h s hi hs with ⟨b, s', h, -⟩ | ⟨e, s', h, hc⟩
    · rw [result, h] at hr
      cases hr
    · rwa [final, h]

/-- A program that takes some steps and goes on as another one, or returns or
throws after them. -/
theorem runThen {m' : Program ε σ α} (hm' : Spec M P' m' Q)
    (h : ∀ s, M.inv s → P s → ∃ s', Relation.ReflTransGen M.step s s' ∧
      ((P' s' ∧ m.runFrom s = m'.runFrom s') ∨ (∃ a, m.runFrom s = (.ok a, s') ∧ Q a s') ∨
        ∃ e s'', m.runFrom s = (.error e, s'') ∧ M.crash s' s'')) : Spec M P m Q := by
  intro s hi hs
  obtain ⟨s', hst, ⟨hP', hr⟩ | ⟨a, hr, hq⟩ | ⟨e, s'', hr, hc⟩⟩ := h s hi hs
  · obtain ⟨hok, herr⟩ := hm' s' (M.inv_run hst hi) hP'
    rw [result, final, hr]
    refine ⟨fun a ha => ⟨hst.trans (hok a ha).1, (hok a ha).2⟩, fun e he => ?_⟩
    obtain ⟨s'', hs'', hc⟩ := herr e he
    exact ⟨s'', hst.trans hs'', hc⟩
  · rw [result, final, hr]
    exact ⟨fun b hb => by cases hb; exact ⟨hst, hq⟩, fun e he => (by cases he)⟩
  · rw [result, final, hr]
    exact ⟨fun b hb => (by cases hb), fun _ _ => ⟨s', hst, hc⟩⟩

/-- One step or none, taken by a run that returns. -/
theorem atMostOne
    (hok : ∀ s a, M.inv s → P s → m.result s = .ok a → (m.final s = s ∨ M.step s (m.final s)) ∧ Q a (m.final s))
    (herr : ∀ s e, M.inv s → P s → m.result s = .error e → M.crash s (m.final s)) : Spec M P m Q := by
  refine fun s hi hs => ⟨fun a ha => ⟨?_, (hok s a hi hs ha).2⟩, fun e he => ⟨s, .refl, herr s e hi hs he⟩⟩
  rcases (hok s a hi hs ha).1 with h | h
  · rw [h]
  · exact .single h

theorem bind (hm : Spec M P m Q) (hf : ∀ a, Spec M (Q a) (f a) T) : Spec M P (m >>= f) T := by
  intro s hi hs
  obtain ⟨hok, herr⟩ := hm s hi hs
  cases h : m.result s with
  | ok a =>
    obtain ⟨hr, hq⟩ := hok a h
    obtain ⟨hok', herr'⟩ := hf a _ (M.inv_run hr hi) hq
    rw [final_bind_ok h, result_bind_ok h]
    refine ⟨fun b hb => ⟨hr.trans (hok' b hb).1, (hok' b hb).2⟩, fun e he => ?_⟩
    obtain ⟨s', hs', hc⟩ := herr' e he
    exact ⟨s', hr.trans hs', hc⟩
  | error e =>
    rw [final_bind_error h, result_bind_error h]
    exact ⟨fun _ h' => (by cases h'), fun _ _ => herr e h⟩

/-- Reading the state and running a program that depends on it. -/
theorem bind_read {f : σ → Program ε σ β}
    (hf : ∀ s₀, M.inv s₀ → P s₀ → Spec M (fun s => s = s₀) (f s₀) T) : Spec M P (Program.read >>= f) T := by
  intro s hi hs
  simpa using hf s hi hs s hi rfl

/-- A computation that reads no state and a program that depends on it. -/
theorem bind_lift {x : Except ε α} (hf : ∀ a, x = .ok a → Spec M P (f a) T) : Spec M P (Program.lift x >>= f) T := by
  cases x with
  | error e => exact fail e
  | ok a => exact hf a rfl

theorem ite {c : Prop} [Decidable c] {m₁ m₂ : Program ε σ α} (h₁ : c → Spec M P m₁ Q)
    (h₂ : ¬ c → Spec M P m₂ Q) : Spec M P (if c then m₁ else m₂) Q := by
  split
  · exact h₁ ‹_›
  · exact h₂ ‹_›

/-- A branch without an alternative, and what comes after it. -/
theorem iteBind {c : Prop} [Decidable c] {m : Program ε σ Unit} {k : Unit → Program ε σ β} {R : σ → Prop}
    (hm : c → Spec M P m fun _ => R) (hn : ¬ c → ∀ s, P s → R s) (hk : Spec M R (k ()) T) :
    Spec M P (if c then m >>= k else k ()) T := by
  split
  · exact (hm ‹_›).bind fun _ => hk
  · exact hk.pre (hn ‹_›)

/-- A program that goes by steps also where it throws. -/
theorem ofRun (hsteps : ∀ s, P s → Relation.ReflTransGen M.step s (m.final s))
    (hQ : ∀ s a, P s → m.result s = .ok a → Q a (m.final s)) : Spec M P m Q :=
  fun s _ hs => ⟨fun a ha => ⟨hsteps s hs, hQ s a hs ha⟩, fun _ _ => ⟨_, hsteps s hs, M.crash_refl _⟩⟩

/-- A loop over a list with an invariant. -/
theorem forEach {γ : Type} {f : γ → Program ε σ Unit} {l : List γ} {I : σ → Prop}
    (h : ∀ x ∈ l, Spec M I (f x) fun _ => I) : Spec M I (Program.forEach l f) fun _ => I := by
  induction l with
  | nil => exact pure fun _ => id
  | cons x l ih =>
    exact bind (h x (List.mem_cons_self ..)) fun _ => ih fun y hy => h y (List.mem_cons_of_mem _ hy)

/-- A loop over a list with an invariant of the part already done. -/
theorem forEach_taken {γ : Type} {f : γ → Program ε σ Unit} {l : List γ} (I : List γ → σ → Prop)
    (h : ∀ xs x ys, l = xs ++ x :: ys → Spec M (I xs) (f x) fun _ => I (xs ++ [x])) :
    Spec M (I []) (Program.forEach l f) fun _ => I l := by
  suffices ∀ ys xs, l = xs ++ ys → Spec M (I xs) (Program.forEach ys f) fun _ => I l from this l [] rfl
  intro ys
  induction ys with
  | nil => intro xs e; rw [List.append_nil] at e; subst e; exact pure fun _ => id
  | cons y ys ih =>
    intro xs e
    exact bind (h xs y ys e) fun _ => ih (xs ++ [y]) (by simp [e])

/-- More steps, and more that a throw may lose. -/
theorem mono {M' : Moves σ} (h : Spec M P m Q) (hstep : ∀ s s', M.step s s' → M'.step s s')
    (hcrash : ∀ s s', M.crash s s' → M'.crash s s') (hinv : ∀ s, M'.inv s → M.inv s) : Spec M' P m Q := by
  intro s hi hs
  obtain ⟨hok, herr⟩ := h s (hinv s hi) hs
  have hmono : ∀ s', Relation.ReflTransGen M.step s s' → Relation.ReflTransGen M'.step s s' := by
    intro s' hr
    induction hr with
    | refl => exact .refl
    | tail _ hst ih => exact ih.tail (hstep _ _ hst)
  refine ⟨fun a ha => ⟨hmono _ (hok a ha).1, (hok a ha).2⟩, fun e he => ?_⟩
  obtain ⟨s', hr, hc⟩ := herr e he
  exact ⟨s', hmono s' hr, hcrash _ _ hc⟩

end Spec

/-! ## What every run keeps -/

/-- Every run of `m`, one that throws as well, ends where `R` allows. -/
def Within (R : σ → σ → Prop) (m : Program ε σ α) : Prop := ∀ s, R s (m.final s)

namespace Within

variable {R : σ → σ → Prop} {m : Program ε σ α}

theorem update {g : σ → σ} (h : ∀ s, R s (g s)) : Within R (update g : Program ε σ Unit) := h

theorem zoom {ρ : Type} {get : σ → ρ} {put : ρ → σ → σ} {m : Program ε ρ α}
    (h : ∀ s, R s (put (m.final (get s)) s)) : Within R (zoom get put m) := h

theorem mono {R' : σ → σ → Prop} (h : Within R m) (hR : ∀ s s', R s s' → R' s s') : Within R' m :=
  fun s => hR _ _ (h s)

theorem ite {c : Prop} [Decidable c] {m₁ m₂ : Program ε σ α} (h₁ : Within R m₁) (h₂ : Within R m₂) :
    Within R (if c then m₁ else m₂) := by
  split <;> assumption

variable {k : α → Program ε σ β} {γ : Type}

theorem bind [IsTrans σ R] (hm : Within R m) (hk : ∀ a, Within R (k a)) : Within R (m >>= k) := by
  intro s
  cases h : m.result s with
  | ok a => rw [final_bind_ok h]; exact IsTrans.trans _ _ _ (hm s) (hk a _)
  | error e => rw [final_bind_error h]; exact hm s

variable [Std.Refl R]

theorem pure (a : α) : Within R (pure a : Program ε σ α) := fun s => Std.Refl.refl s
theorem fail (e : ε) : Within R (fail e : Program ε σ α) := fun s => Std.Refl.refl s
theorem lift (x : Except ε α) : Within R (lift x : Program ε σ α) := fun s => Std.Refl.refl s
theorem read : Within R (read : Program ε σ σ) := fun s => Std.Refl.refl s

theorem bind_lift {x : Except ε α} (hk : ∀ a, x = .ok a → Within R (k a)) : Within R (Program.lift x >>= k) := by
  cases x with
  | error e => exact fun s => Std.Refl.refl s
  | ok a => exact hk a rfl

theorem forEach [IsTrans σ R] {k : γ → Program ε σ Unit} {l : List γ} (h : ∀ x ∈ l, Within R (k x)) :
    Within R (Program.forEach l k) := by
  induction l with
  | nil => exact pure _
  | cons x l ih =>
    exact bind (h x (List.mem_cons_self ..)) fun _ => ih fun y hy => h y (List.mem_cons_of_mem _ hy)

theorem foldlM [IsTrans σ R] {k : α → γ → Program ε σ α} (h : ∀ a x, Within R (k a x)) (l : List γ) (a : α) :
    Within R (l.foldlM k a) := by
  induction l generalizing a with
  | nil => exact pure a
  | cons x l ih =>
    exact bind (h a x) ih

theorem collect [IsTrans σ R] {k : γ → Program ε σ α} (h : ∀ x, Within R (k x)) (l : List γ) :
    Within R (Program.collect l k) := by
  induction l with
  | nil => exact pure _
  | cons x l ih => exact bind (h x) fun a => bind ih fun _ => pure _

end Within

/-- No run of `m` changes the part `f` of the state. -/
abbrev Keeps (f : σ → τ) (m : Program ε σ α) : Prop := Within (fun s s' => f s' = f s) m

instance (f : σ → τ) : Std.Refl fun s s' : σ => f s' = f s := ⟨fun _ => rfl⟩

instance (f : σ → τ) : IsTrans σ fun s s' : σ => f s' = f s := ⟨fun _ _ _ h h' => h'.trans h⟩

/-! ## What is thrown -/

/-- Whatever a run of `m` throws is in `E`. -/
def Throws (E : ε → Prop) (m : Program ε σ α) : Prop := ∀ s e, m.result s = .error e → E e

namespace Throws

variable {E : ε → Prop} {m : Program ε σ α}

theorem pure (a : α) : Throws E (pure a : Program ε σ α) := fun _ _ h => (by cases h)
theorem read : Throws E (read : Program ε σ σ) := fun _ _ h => (by cases h)
theorem update (f : σ → σ) : Throws E (update f : Program ε σ Unit) := fun _ _ h => (by cases h)

theorem fail {e : ε} (h : E e) : Throws E (fail e : Program ε σ α) := fun _ _ h' => by cases h'; exact h

theorem lift {x : Except ε α} (h : ∀ e, x = .error e → E e) : Throws E (lift x : Program ε σ α) := fun _ e he => h e he

theorem zoom {get : σ → τ} {put : τ → σ → σ} {m : Program ε τ α} (h : Throws E m) : Throws E (zoom get put m) :=
  fun s e he => h (get s) e he

theorem bind {k : α → Program ε σ β} (hm : Throws E m) (hk : ∀ a, Throws E (k a)) : Throws E (m >>= k) := by
  intro s e he
  cases h : m.result s with
  | ok a =>
    rw [result_bind_ok h] at he
    exact hk a _ e he
  | error e' =>
    rw [result_bind_error h] at he
    cases he
    exact hm s _ h

theorem ite {c : Prop} [Decidable c] {m₁ m₂ : Program ε σ α} (h₁ : Throws E m₁) (h₂ : Throws E m₂) :
    Throws E (if c then m₁ else m₂) := by
  split <;> assumption

theorem forEach {γ : Type} {k : γ → Program ε σ Unit} (h : ∀ x, Throws E (k x)) (l : List γ) :
    Throws E (Program.forEach l k) := by
  induction l with
  | nil => exact pure _
  | cons x l ih => exact bind (h x) fun _ => ih

end Throws

end Program

end SwarmDb.Lib
