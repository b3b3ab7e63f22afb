import SwarmDb.Service.ServiceRuns

/-!
# The counter of the service and its backlog

`next_request_sequence` is kept in memory and in the unstable storage. The loop saves it after each round;
`set_service_state` moves it and does not save it (`progress_durable_iff`). The requests in storage and the operations
in memory are meant to be those that still wait: `backlog_ahead` says in which runs nothing is left behind the
counter.
-/

namespace SwarmDb

open Lib Program

namespace DatabaseService

variable {ρ σ : Type} {uuid : Uuid} {s s' : DatabaseService ρ σ} {st : MemStorage}

/-- What a round does to the counter and the backlog. -/
structure PassedOn (uuid : Uuid) (s s' : DatabaseService ρ σ) : Prop where
  taken : (s.stored uuid s.nextRequestSequence).isSome
  next : s'.nextRequestSequence = s.nextRequestSequence + 1
  operations : s'.operationsAwaitingResult = s.operationsAwaitingResult
  stored : s'.stored uuid = Function.update (s.stored uuid) s.nextRequestSequence none
  persisted : s'.persistedNext uuid = (s.persistedNext uuid).map fun _ => sequenceKey (s.nextRequestSequence + 1)

/-! ## The counter in storage -/

/-- The text in storage is the counter. -/
def Persisted (uuid : Uuid) (s : DatabaseService ρ σ) : Prop :=
  s.persistedNext uuid = some (sequenceKey s.nextRequestSequence)

/-- The text in storage is some number. -/
def Written (uuid : Uuid) (st : MemStorage) : Prop :=
  ∃ n, st.read uuid nextRequestSequenceKey = some (sequenceKey n)

/-- The process is killed and starts again, with any store and arguments: it
goes on with the same counter. -/
def Resumes (uuid : Uuid) (s : DatabaseService ρ σ) : Prop :=
  ∀ (store : σ) (nextIssued : UInt64) (trace : List (ServiceEvent ρ)), ∃ s',
    (start uuid nextIssued).runFrom (blank s.unstableStorage store trace) = (.ok (), s') ∧
    s'.nextRequestSequence = s.nextRequestSequence

theorem Persisted.written (h : Persisted uuid s) : Written uuid s.unstableStorage :=
  ⟨_, h⟩

theorem PassedOn.persistedNext (h : PassedOn uuid s s')
    (hs : Written uuid s.unstableStorage) : Persisted uuid s' := by
  obtain ⟨n, hn⟩ := hs
  rw [Persisted, h.persisted, h.next, DatabaseService.persistedNext, hn]
  rfl

/-- The constructor over a storage with a number. -/
theorem start_written {n : UInt64}
    (h : st.read uuid nextRequestSequenceKey = some (sequenceKey n)) (store : σ) (nextIssued : UInt64)
    (trace : List (ServiceEvent ρ)) :
    (start uuid nextIssued).runFrom (blank st store trace) =
      (.ok (), { blank st store trace with
        nextRequestSequence := n
        nextCheckpoint := (nextIssued / 100 + 1) * 100 }) := by
  rw [start, runFrom_bind, loadNextRequestSequence, runFrom_bind, runFrom_read]
  dsimp only [blank]
  rw [h]
  dsimp only
  rw [sequenceKey, lexicalCast_decimal]
  rfl

theorem resumes_iff (h : Written uuid s.unstableStorage) : Resumes uuid s ↔ Persisted uuid s := by
  obtain ⟨n, hn⟩ := h
  constructor
  · intro hr
    obtain ⟨s', hstart, hnext⟩ := hr s.store 1 s.trace
    rw [start_written hn] at hstart
    cases hstart
    rw [Persisted, persistedNext, hn, ← hnext]
  · intro hp store nextIssued trace
    have heq := sequenceKey_injective (Option.some.inj (hn.symm.trans hp))
    exact ⟨_, start_written hn store nextIssued trace, heq⟩

variable {trace : List (ServiceEvent ρ)}

theorem start_persisted {store : σ} {nextIssued : UInt64}
    (h : (start uuid nextIssued).runFrom (blank st store trace) = (.ok (), s))
    (hst : st.read uuid nextRequestSequenceKey = none ∨ Written uuid st) : Persisted uuid s := by
  obtain ⟨hstart, -, -, hread⟩ := start_ok h
  rw [Persisted, hread]
  rcases hst with hnone | ⟨n, hn⟩
  · rcases hstart.next with ⟨-, hnext⟩ | ⟨text, htext, -⟩
    · rw [hnone, hnext]
      rfl
    · rw [hnone] at htext
      cases htext
  · rw [start_written hn] at h
    cases h
    rw [hn]
    rfl

/-! ## The backlog -/

/-- What the loop keeps: some number up to each operation in memory has no
request, so that the loop ends before it gets there. -/
structure Spaced (uuid : Uuid) (s : DatabaseService ρ σ) : Prop where
  stored : ∀ n, (s.stored uuid n).isSome → s.nextRequestSequence ≤ n
  gap : ∀ n op, s.operationsAwaitingResult[n]? = some op →
    ∃ k, s.nextRequestSequence ≤ k ∧ k ≤ n ∧ s.stored uuid k = none

theorem Spaced.operations (h : Spaced uuid s) (n : UInt64) (op : ServiceOperation ρ)
    (hop : s.operationsAwaitingResult[n]? = some op) : s.nextRequestSequence ≤ n := by
  obtain ⟨k, hk, hn, -⟩ := h.gap n op hop
  exact UInt64.le_trans hk hn

theorem PassedOn.spaced (h : PassedOn uuid s s') (hs : Spaced uuid s) :
    Spaced uuid s' := by
  refine ⟨fun n hn => ?_, fun n op hop => ?_⟩
  · rw [h.stored, Function.update_apply] at hn
    split at hn
    · cases hn
    · rename_i hne
      rw [h.next]
      exact add_one_le (UInt64.lt_of_le_of_ne (hs.stored n hn) (Ne.symm hne))
  · rw [h.operations] at hop
    obtain ⟨k, hk, hkn, hfree⟩ := hs.gap n op hop
    have hne : k ≠ s.nextRequestSequence := by
      rintro rfl
      have := h.taken
      rw [hfree] at this
      cases this
    refine ⟨k, ?_, hkn, ?_⟩
    · rw [h.next]
      exact add_one_le (UInt64.lt_of_le_of_ne hk hne.symm)
    · rw [h.stored, Function.update_of_ne hne]
      exact hfree

/-! ## What a call does to the counter -/

variable [Inhabited ρ] {crud : CrudBase ρ σ} {c : ServiceCall ρ}

theorem Round.passedOn (h : Round crud uuid s s') : PassedOn uuid s s' := by
  cases h with
  | skip _ _ _ stored _ _ holds | execute _ _ _ _ _ stored _ _ _ holds =>
    exact ⟨Option.isSome_of_eq_some stored, rfl, rfl, funext holds.stored, holds.next⟩

/-- The loop has run to its end. -/
structure Looped (crud : CrudBase ρ σ) (uuid : Uuid) (s s' : DatabaseService ρ σ) : Prop where
  rounds : Relation.ReflTransGen (Round crud uuid) s s'
  idle : s'.stored uuid s'.nextRequestSequence = none

theorem looped_of_run
    (h : (processAwaitingOperations crud uuid).runFrom s = (.ok (), s')) : Looped crud uuid s s' := by
  obtain ⟨hresult, hfinal⟩ := Prod.mk.inj h
  obtain ⟨rounds, idle⟩ := (processAwaitingOperations_spec s trivial trivial).1 () hresult
  exact hfinal ▸ ⟨rounds, idle⟩

/-- A call that leaves the counter and the backlog alone. -/
def Idle (crud : CrudBase ρ σ) (uuid : Uuid) (s : DatabaseService ρ σ) : ServiceCall ρ → Prop
  | .apply op => (s.stored uuid op.sequence).isSome
  | .setState n data => n < s.nextRequestSequence ∨ (crud.loadState data s.store).1 = false
  | .runPosted _ => True

/-- What a call that returns does to the counter and the backlog. -/
inductive Returned (crud : CrudBase ρ σ) (uuid : Uuid) (s : DatabaseService ρ σ) :
    ServiceCall ρ → DatabaseService ρ σ → Prop where
  | kept {c : ServiceCall ρ} {s' : DatabaseService ρ σ} (idle : Idle crud uuid s c)
      (storage : s'.unstableStorage = s.unstableStorage) (next : s'.nextRequestSequence = s.nextRequestSequence)
      (operations : s'.operationsAwaitingResult = s.operationsAwaitingResult) : Returned crud uuid s c s'
  | accepted (op : ServiceOperation ρ) {st : MemStorage} {s' : DatabaseService ρ σ}
      (free : s.stored uuid op.sequence = none)
      (holds : HoldsRequests uuid st
        (Function.update (s.stored uuid) op.sequence (some (crud.codec.serialize op.databaseMsg)))
        (s.persistedNext uuid))
      (loop : Looped crud uuid (s.accepted op st) s') : Returned crud uuid s (.apply op) s'
  | loaded (n : UInt64) (data : Bytes) {st : MemStorage} {s' : DatabaseService ρ σ} (ahead : s.nextRequestSequence ≤ n)
      (ends : n ≠ 0 - 1) (loads : (crud.loadState data s.store).1 = true)
      (holds : HoldsRequests uuid st
        (fun m => if s.nextRequestSequence ≤ m ∧ m ≤ n then none else s.stored uuid m) (s.persistedNext uuid))
      (loop : Looped crud uuid (s.loadedState n data (crud.loadState data s.store).2 st) s') :
      Returned crud uuid s (.setState n data) s'

theorem returned_of_run
    (h : (c.program crud uuid).runFrom s = (.ok (), s')) : Returned crud uuid s c s' := by
  cases c with
  | apply op =>
    rcases applyOperation_cases crud uuid op s with ⟨taken, hr⟩ | ⟨free, -, st, holds, hr⟩ | ⟨-, what, hr⟩
    · cases hr.symm.trans h
      exact .kept taken rfl rfl rfl
    · exact .accepted op free holds (looped_of_run (hr.symm.trans h))
    · cases hr.symm.trans h
  | setState n data =>
    rw [ServiceCall.program, runFrom_bind] at h
    rcases setServiceState_cases crud uuid n data s with
      ⟨old, hr⟩ | ⟨-, failed, hr⟩ | ⟨-, -, -, hr⟩ | ⟨ahead, loads, ends, st, holds, hr⟩
    · rw [hr] at h
      cases h
      exact .kept (.inl old) rfl rfl rfl
    · rw [hr] at h
      cases h
      exact .kept (.inr failed) rfl rfl rfl
    · rw [hr] at h
      cases h
    · rw [hr, runFrom_bind] at h
      refine .loaded n data ahead ends loads holds (looped_of_run ?_)
      rcases hp : (processAwaitingOperations crud uuid).runFrom
        (s.loadedState n data (crud.loadState data s.store).2 st) with ⟨⟨⟩ | ⟨⟩, s₁⟩
      · rw [hp] at h
        cases h
      · rw [hp] at h
        cases h
        rfl
  | runPosted i =>
    rw [ServiceCall.program, runPosted_run] at h
    cases h
    cases s.posted[i]? with
    | none => exact .kept trivial rfl rfl rfl
    | some =>
      dsimp only [Option.map_some]
      rw [handled]
      split <;> exact .kept trivial rfl rfl rfl

/-! ## Calls that save the counter -/

/-- The calls after which storage and memory agree: a state that is loaded has
to be followed by a request that was waiting, whose round saves the counter. -/
def Saves (crud : CrudBase ρ σ) (uuid : Uuid) (s : DatabaseService ρ σ) : ServiceCall ρ → Prop
  | .setState n data =>
    n < s.nextRequestSequence ∨ (crud.loadState data s.store).1 = false ∨ (s.stored uuid (n + 1)).isSome
  | _ => True

/-- After the loop the counter is saved, if there was a round. -/
theorem Looped.persisted_iff (h : Looped crud uuid s s')
    (hs : Written uuid s.unstableStorage) :
    Persisted uuid s' ↔ Persisted uuid s ∨ (s.stored uuid s.nextRequestSequence).isSome := by
  rcases h.rounds.cases_head with rfl | ⟨s₁, hfirst, hrest⟩
  · rw [h.idle]
    simp
  · have hs' : Persisted uuid s' := by
      clear h
      induction hrest with
      | refl => exact hfirst.passedOn.persistedNext hs
      | tail _ hround ih => exact hround.passedOn.persistedNext ih.written
    exact iff_of_true hs' (.inr hfirst.passedOn.taken)

theorem Looped.written (h : Looped crud uuid s s') (hs : Written uuid s.unstableStorage) :
    Written uuid s'.unstableStorage := by
  obtain ⟨rounds, -⟩ := h
  induction rounds with
  | refl => exact hs
  | tail _ hround ih => exact (hround.passedOn.persistedNext ih).written

theorem Returned.written (h : Returned crud uuid s c s')
    (hs : Written uuid s.unstableStorage) : Written uuid s'.unstableStorage := by
  cases h with
  | kept _ storage => rwa [storage]
  | accepted _ _ holds loop | loaded _ _ _ _ _ holds loop => exact loop.written (hs.imp fun _ hn => holds.next.trans hn)

theorem Returned.persisted_iff (h : Returned crud uuid s c s')
    (hs : Persisted uuid s) : Persisted uuid s' ↔ Saves crud uuid s c := by
  cases h with
  | kept idle storage next =>
    have hs' : Persisted uuid s' := by
      rw [Persisted, persistedNext, storage, next]
      exact hs
    refine iff_of_true hs' ?_
    cases c with
    | setState => exact idle.imp_right .inl
    | apply | runPosted => trivial
  | @accepted op st _ free holds loop =>
    have hsaved : Persisted uuid (s.accepted op st) := holds.next.trans hs
    exact iff_of_true ((loop.persisted_iff hsaved.written).mpr (.inl hsaved)) trivial
  | @loaded n data st _ ahead ends loads holds loop =>
    have hlt : s.nextRequestSequence < n + 1 := (lt_add_one_iff ends).mpr ahead
    have hread : (s.loadedState n data (crud.loadState data s.store).2 st).persistedNext uuid =
        some (sequenceKey s.nextRequestSequence) := holds.next.trans hs
    -- the text is still that of the counter before
    have hstale : ¬ Persisted uuid (s.loadedState n data (crud.loadState data s.store).2 st) := by
      intro hp
      have heq := sequenceKey_injective (Option.some.inj (hread.symm.trans hp))
      exact UInt64.ne_of_lt hlt heq
    have hnext : (s.loadedState n data (crud.loadState data s.store).2 st).stored uuid (n + 1) =
        s.stored uuid (n + 1) := by
      refine (holds.stored _).trans (if_neg fun hm => ?_)
      exact UInt64.not_le.mpr ((lt_add_one_iff ends).mpr (UInt64.le_refl n)) hm.2
    rw [loop.persisted_iff ⟨_, hread⟩, or_iff_right hstale]
    show ((s.loadedState n data (crud.loadState data s.store).2 st).stored uuid (n + 1)).isSome = true ↔ _
    rw [hnext, Saves, loads, or_iff_right (UInt64.not_lt.mpr ahead), or_iff_right (by decide)]

/-- No step leaves a text that is not a number. -/
theorem Step.written {Arrives : ServiceOperation ρ → Prop} (h : Step crud uuid Arrives s s')
    (hs : Written uuid s.unstableStorage) : Written uuid s'.unstableStorage := by
  cases h with
  | duplicate | refuse => exact hs
  | accept _ _ _ _ holds | load _ _ _ _ _ _ holds => exact hs.imp fun _ hn => holds.next.trans hn
  | round h => exact (h.passedOn.persistedNext hs).written

/-- Whatever way a process ends, it leaves a number. -/
theorem Left.written {Calls : DatabaseService ρ σ → ServiceCall ρ → Prop} (h : Left crud uuid Calls s st trace)
    (hs : Written uuid s.unstableStorage) : Written uuid st := by
  cases h with
  | stopped =>
    obtain ⟨n, hn⟩ := hs
    have holds : HoldsRequests uuid s.unstableStorage (s.stored uuid) (some (sequenceKey n)) := ⟨fun _ => rfl, hn⟩
    exact ⟨_, (holds.save s.nextRequestSequence).next⟩
  | killed => exact hs
  | thrown c e _ throws =>
    have harrives : ∀ op, c = .apply op → (fun _ : ServiceOperation ρ => True) op := fun _ _ => trivial
    rcases program_steps crud uuid c harrives with hspec | ⟨i, rfl⟩
    · obtain ⟨s₁, hr, hi⟩ := (hspec s trivial trivial).2 e throws
      rw [hi.storage]
      clear hi
      induction hr with
      | refl => exact hs
      | tail _ hstep ih => exact hstep.written ih
    · rw [result, ServiceCall.program, runPosted_run] at throws
      cases throws

theorem Reached.persisted {Restarts : MemStorage → List (ServiceEvent ρ) → Prop}
    (h : Reached crud uuid (Saves crud uuid) Restarts s) : Persisted uuid s := by
  induction h with
  | first _ _ _ empty starts => exact start_persisted starts (.inl (empty _))
  | call _ _ allowed returns ih =>
    exact ((returned_of_run (Prod.ext returns rfl)).persisted_iff ih).mpr allowed
  | restart _ left _ _ _ starts ih => exact start_persisted starts (.inr (left.written ih.written))

/-- After a run whose calls all saved the counter: a further call that returns
leaves it in storage, and a restart goes on with it, exactly if the call is one
that saves it. -/
theorem progress_durable_iff {Restarts : MemStorage → List (ServiceEvent ρ) → Prop} {s s' : DatabaseService ρ σ}
    (h : Reached crud uuid (Saves crud uuid) Restarts s) {c : ServiceCall ρ}
    (returns : (c.program crud uuid).runFrom s = (.ok (), s')) :
    (s'.persistedNext uuid = some (sequenceKey s'.nextRequestSequence) ↔ Saves crud uuid s c) ∧
    (Resumes uuid s' ↔ Saves crud uuid s c) := by
  have hreturned := returned_of_run returns
  have hsaved := hreturned.persisted_iff h.persisted
  exact ⟨hsaved, (resumes_iff (hreturned.written h.persisted.written)).trans hsaved⟩

/-- The service after a first operation, with the second one waiting. -/
theorem progress_durable_iff_first :
    ((ServiceCall.program idleCrud [] (.apply (idleOperation 1))).final idleWaiting).persistedNext [] =
      some (sequenceKey 3) := by
  have hwaiting : Reached idleCrud [] (Saves idleCrud []) (fun _ _ => True) idleWaiting :=
    .call _ (idleStart_reached _ _) trivial rfl
  exact (progress_durable_iff hwaiting (c := .apply (idleOperation 1)) rfl).1.mpr trivial

set_option maxRecDepth 8000 in
/-- A state for sequence 100 is loaded, and no request waits: the counter is
101, the text in storage is still that of 1, and so is the counter after a
restart. -/
theorem restarts_behind :
    Reached idleCrud [] (fun _ _ => True) (fun _ _ => True) idleStart ∧
    ∃ s : DatabaseService Unit Unit,
      (ServiceCall.program idleCrud [] (.setState 100 [])).runFrom idleStart = (.ok (), s) ∧
      s.nextRequestSequence = 101 ∧ s.persistedNext [] = some (sequenceKey 1) ∧
      ((start [] 1).final (blank s.unstableStorage () s.trace)).nextRequestSequence = 1 := by
  refine ⟨idleStart_reached _ _, _, rfl, rfl, ?_, ?_⟩
  · decide +kernel
  · decide +kernel

/-! ## Calls that leave nothing behind -/

/-- The calls that leave nothing behind: an operation after the counter, which
has to wait, and a state after which each operation in memory still has to
wait for some number. -/
def Waits (crud : CrudBase ρ σ) (uuid : Uuid) (s : DatabaseService ρ σ) : ServiceCall ρ → Prop
  | .apply op => (s.stored uuid op.sequence).isSome ∨ s.nextRequestSequence < op.sequence
  | .setState n data =>
    n < s.nextRequestSequence ∨ (crud.loadState data s.store).1 = false ∨
      ∀ m op, s.operationsAwaitingResult[m]? = some op → ∃ k, n < k ∧ k ≤ m ∧ s.stored uuid k = none
  | .runPosted _ => True

theorem Looped.spaced (h : Looped crud uuid s s') (hs : Spaced uuid s) :
    Spaced uuid s' := by
  obtain ⟨rounds, -⟩ := h
  induction rounds with
  | refl => exact hs
  | tail _ hround ih => exact hround.passedOn.spaced ih

/-- A call that is waited for keeps the gaps, and the loop has nothing to do
after it. -/
theorem Returned.spaced (h : Returned crud uuid s c s')
    (hs : Spaced uuid s) (idle : s.stored uuid s.nextRequestSequence = none) (allowed : Waits crud uuid s c) :
    Spaced uuid s' ∧ s'.stored uuid s'.nextRequestSequence = none := by
  cases h with
  | kept _ storage next operations =>
    have hstored : s'.stored uuid = s.stored uuid := by
      funext n
      rw [stored, storage]
      rfl
    refine ⟨⟨?_, ?_⟩, ?_⟩
    · rw [hstored, next]
      exact hs.stored
    · rw [hstored, next, operations]
      exact hs.gap
    · rw [hstored, next]
      exact idle
  | @accepted op st _ free holds loop =>
    have hstored : (s.accepted op st).stored uuid =
        Function.update (s.stored uuid) op.sequence (some (crud.codec.serialize op.databaseMsg)) := funext holds.stored
    have hlt : s.nextRequestSequence < op.sequence :=
      allowed.resolve_left (by rw [free]; exact Bool.false_ne_true)
    refine ⟨loop.spaced ⟨fun n hn => ?_, fun n op' hop => ?_⟩, loop.idle⟩
    · rw [hstored, Function.update_apply] at hn
      split at hn
      · rename_i heq
        rw [heq]
        exact UInt64.le_of_lt hlt
      · exact hs.stored n hn
    · -- the counter itself is free
      refine ⟨s.nextRequestSequence, UInt64.le_refl _, ?_, ?_⟩
      · rw [DatabaseService.accepted, Map.lookup_insert] at hop
        split at hop
        · rename_i heq
          rw [← heq]
          exact UInt64.le_of_lt hlt
        · exact hs.operations n op' hop
      · rw [hstored, Function.update_of_ne (UInt64.ne_of_lt hlt)]
        exact idle
  | @loaded n data st _ ahead ends loads holds loop =>
    have hgap := (allowed.resolve_left (UInt64.not_lt.mpr ahead)).resolve_left (by rw [loads]; exact Bool.noConfusion)
    have hstored : (s.loadedState n data (crud.loadState data s.store).2 st).stored uuid =
        fun m => if s.nextRequestSequence ≤ m ∧ m ≤ n then none else s.stored uuid m := funext holds.stored
    refine ⟨loop.spaced ⟨fun m hm => ?_, fun m op hop => ?_⟩, loop.idle⟩
    · rw [hstored] at hm
      dsimp only at hm
      split at hm
      · cases hm
      · rename_i hout
        exact add_one_le (UInt64.not_le.mp fun hle => hout ⟨hs.stored m hm, hle⟩)
    · obtain ⟨k, hk, hkm, hfree⟩ := hgap m op hop
      refine ⟨k, add_one_le hk, hkm, ?_⟩
      rw [hstored]
      dsimp only
      rw [hfree, ite_self]

/-- In a run whose calls all leave nothing behind, no request in storage and no
operation in memory is behind the counter. -/
theorem backlog_ahead {s : DatabaseService ρ σ} (h : Reached crud uuid (Waits crud uuid) (fun _ _ => False) s) :
    (∀ n, (s.stored uuid n).isSome → s.nextRequestSequence ≤ n) ∧
    ∀ n op, s.operationsAwaitingResult[n]? = some op → s.nextRequestSequence ≤ n := by
  have hs : Spaced uuid s ∧ s.stored uuid s.nextRequestSequence = none := by
    induction h with
    | first st store nextIssued empty starts =>
      have hstart := (start_ok starts).1
      have hnone : ∀ n, DatabaseService.stored uuid _ n = none := fun n => (hstart.stored n).trans (empty _)
      refine ⟨⟨fun n hn => ?_, fun n op hop => ?_⟩, hnone _⟩
      · rw [hnone] at hn
        cases hn
      · rw [hstart.operations] at hop
        simp at hop
    | call c _ allowed returns ih => exact (returned_of_run (Prod.ext returns rfl)).spaced ih.1 ih.2 allowed
    | restart _ _ allowed => exact allowed.elim
  exact ⟨hs.1.stored, hs.1.operations⟩

theorem backlog_ahead_waiting :
    idleWaiting.nextRequestSequence ≤ 2 ∧ (idleWaiting.stored [] 2).isSome = true := by
  have hwaiting : Reached idleCrud [] (Waits idleCrud []) (fun _ _ => False) idleWaiting :=
    .call _ (idleStart_reached _ _) (.inr (by decide)) rfl
  have hstored : (idleWaiting.stored [] 2).isSome = true := by decide +kernel
  exact ⟨(backlog_ahead hwaiting).1 2 hstored, hstored⟩

/-- The first operation is applied, and once more after it was executed: the
counter is 2, the operation is still in memory and its request is stored
again. -/
theorem left_behind :
    ∃ s : DatabaseService Unit Unit, Reached idleCrud [] (fun _ _ => True) (fun _ _ => False) s ∧
      s.nextRequestSequence = 2 ∧ (s.stored [] 1).isSome = true ∧
      (s.operationsAwaitingResult[(1 : UInt64)]?).isSome = true := by
  have hfirst : Reached idleCrud [] (fun _ _ => True) (fun _ _ => False)
      ((ServiceCall.program idleCrud [] (.apply (idleOperation 1))).final idleStart) :=
    .call _ (idleStart_reached _ _) trivial rfl
  refine ⟨_, .call (.apply (idleOperation 1)) hfirst trivial rfl, ?_, ?_, ?_⟩
  · rfl
  · decide +kernel
  · decide +kernel

end DatabaseService

end SwarmDb
