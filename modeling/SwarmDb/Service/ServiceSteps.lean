import SwarmDb.Service.DatabaseService

/-!
# The steps of the database service

`Step` lists what the calls of the service do to it; `applyOperation_spec`
and `setServiceState_spec` say that they take these steps and no others. What
the service keeps is then read off the steps.
-/

namespace SwarmDb

open Lib Program

namespace DatabaseService

variable {ρ σ : Type} {s : DatabaseService ρ σ}

/-- The text of `next_request_sequence` in storage. -/
def persistedNext (uuid : Uuid) (s : DatabaseService ρ σ) : Option Bytes :=
  s.unstableStorage.read uuid nextRequestSequenceKey

/-- The storage `st` holds these requests, and this text of
`next_request_sequence`. -/
structure HoldsRequests (uuid : Uuid) (st : MemStorage) (stored : UInt64 → Option Bytes) (next : Option Bytes) :
    Prop where
  stored : ∀ n, st.read uuid (sequenceKey n) = stored n
  next : st.read uuid nextRequestSequenceKey = next

theorem sequenceKey_injective : Function.Injective sequenceKey :=
  fun _ _ h => UInt64.toNat_inj.mp (decimal_injective h)

/-- A number is no name. -/
theorem sequenceKey_ne_next (n : UInt64) : sequenceKey n ≠ nextRequestSequenceKey := by
  intro h
  have hmem : (110 : UInt8) ∈ sequenceKey n := by rw [h]; decide
  have := decimal_range hmem
  revert this
  decide

theorem length_sequenceKey (n : UInt64) : (sequenceKey n).length ≤ 20 := by
  have hn := n.toNat_lt
  exact length_decimal_le (by decide) (by omega)

/-- The storage without the requests of a list. -/
def discarded (uuid : Uuid) (sequences : List UInt64) (st : MemStorage) : MemStorage :=
  sequences.foldl (fun st seq => (st.remove uuid (sequenceKey seq)).2) st

section Storage

variable {uuid : Uuid} {st : MemStorage} {stored : UInt64 → Option Bytes} {next : Option Bytes}

section

variable (h : HoldsRequests uuid st stored next)
include h

theorem HoldsRequests.create {n : UInt64} {text : Bytes} (hc : (st.create uuid (sequenceKey n) text).1 = .ok) :
    HoldsRequests uuid (st.create uuid (sequenceKey n) text).2 (Function.update stored n (some text)) next where
  stored m := by
    rw [MemStorage.read_create hc, h.stored, Function.update_apply]
    simp only [true_and, sequenceKey_injective.eq_iff, eq_comm]
  next := by rw [MemStorage.read_create hc, if_neg fun hk => sequenceKey_ne_next n hk.2, h.next]

theorem HoldsRequests.remove (n : UInt64) :
    HoldsRequests uuid (st.remove uuid (sequenceKey n)).2 (Function.update stored n none) next where
  stored m := by
    rw [MemStorage.read_remove, h.stored, Function.update_apply]
    simp only [true_and, sequenceKey_injective.eq_iff, eq_comm]
  next := by rw [MemStorage.read_remove, if_neg fun hk => sequenceKey_ne_next n hk.2, h.next]

/-- Removing the requests of a list. -/
theorem HoldsRequests.removeAll (l : List UInt64) :
    HoldsRequests uuid (discarded uuid l st)
      (fun n => if n ∈ l then none else stored n) next := by
  induction l generalizing st stored with
  | nil => exact ⟨fun m => (h.stored m).trans (by simp), h.next⟩
  | cons n _ ih =>
    have hn := ih (h.remove n)
    refine ⟨fun m => (hn.stored m).trans ?_, hn.next⟩
    by_cases hm : m = n
    · subst hm
      simp
    · simp [hm]

/-- `save_next_request_sequence`: an update fails where there is no text yet. -/
theorem HoldsRequests.save (n : UInt64) :
    HoldsRequests uuid (st.update uuid nextRequestSequenceKey (sequenceKey n)).2 stored
      (next.map fun _ => sequenceKey n) := by
  have hlen : (sequenceKey n).length ≤ maxValueSize :=
    (length_sequenceKey n).trans (by decide)
  cases hn : next with
  | none =>
    have hne : (st.update uuid nextRequestSequenceKey (sequenceKey n)).1 ≠ .ok := by
      rw [ne_eq, MemStorage.update_result_iff, h.next, hn]
      simp
    rw [MemStorage.update_eq_of_ne_ok hne]
    exact ⟨h.stored, by rw [h.next, hn]; rfl⟩
  | some =>
    have hok : (st.update uuid nextRequestSequenceKey (sequenceKey n)).1 = .ok :=
      (MemStorage.update_result_iff ..).mpr ⟨hlen, by rw [h.next, hn]; rfl⟩
    refine ⟨fun m => ?_, ?_⟩
    · rw [MemStorage.read_update hok, if_neg fun hk => sequenceKey_ne_next m hk.2.symm, h.stored]
    · rw [MemStorage.read_update hok, if_pos ⟨rfl, rfl⟩]
      rfl

end

end Storage

/-! ## Steps -/

/-- The state after the loop has moved on, with the storage it leaves. -/
def movedOn (text : Bytes) (st : MemStorage) (s : DatabaseService ρ σ) : DatabaseService ρ σ :=
  { s with
    unstableStorage := st
    nextRequestSequence := s.nextRequestSequence + 1
    trace := s.trace ++ [.passed s.nextRequestSequence text] }

/-- The storage that a round leaves. -/
def RequestRemoved (uuid : Uuid) (s : DatabaseService ρ σ) (st : MemStorage) : Prop :=
  HoldsRequests uuid st (Function.update (s.stored uuid) s.nextRequestSequence none)
    ((s.persistedNext uuid).map fun _ => sequenceKey (s.nextRequestSequence + 1))

/-- The storage after `remove` and `save_next_request_sequence`. -/
def removedStorage (uuid : Uuid) (s : DatabaseService ρ σ) : MemStorage :=
  ((s.unstableStorage.remove uuid (sequenceKey s.nextRequestSequence)).2.update uuid nextRequestSequenceKey
    (sequenceKey (s.nextRequestSequence + 1))).2

theorem requestRemoved (uuid : Uuid) (s : DatabaseService ρ σ) : s.RequestRemoved uuid (s.removedStorage uuid) :=
  have holds : HoldsRequests uuid s.unstableStorage (s.stored uuid) (s.persistedNext uuid) := ⟨fun _ => rfl, rfl⟩
  (holds.remove s.nextRequestSequence).save (s.nextRequestSequence + 1)

variable {text : Bytes}

theorem removeRequest_run {uuid : Uuid} (h : s.stored uuid s.nextRequestSequence = some text) :
    (removeRequest uuid text).runFrom s = (.ok (), s.movedOn text (s.removedStorage uuid)) := by
  have hr : (s.unstableStorage.remove uuid (sequenceKey s.nextRequestSequence)).1 = .ok := by
    rw [stored] at h
    rw [MemStorage.remove, h]
  rw [removeRequest, runFrom_eq, result_read_bind, final_read_bind, if_pos hr]
  rfl

/-- The keys of the service's storage: as many rounds the loop has at most. -/
def keyCount (uuid : Uuid) (s : DatabaseService ρ σ) : Nat := (s.unstableStorage.inner uuid).2.toList.length

theorem length_removedStorage {uuid : Uuid} (h : s.stored uuid s.nextRequestSequence = some text) :
    ((s.removedStorage uuid).inner uuid).2.toList.length + 1 = s.keyCount uuid := by
  rw [removedStorage, MemStorage.length_update]
  exact MemStorage.length_remove (Option.isSome_of_eq_some h)

/-- The state with a new operation, and the storage it is stored in. -/
def accepted (op : ServiceOperation ρ) (st : MemStorage) (s : DatabaseService ρ σ) : DatabaseService ρ σ :=
  { s with
    unstableStorage := st
    operationsAwaitingResult := s.operationsAwaitingResult.insert op.sequence op
    trace := s.trace ++ [.applied op] }

/-- The state after a state was loaded, and the storage it leaves. -/
def loadedState (n : UInt64) (data : Bytes) (store : σ) (st : MemStorage) (s : DatabaseService ρ σ) :
    DatabaseService ρ σ :=
  { s with
    unstableStorage := st
    store := store
    snapshot := some data
    lastCheckpoint := n
    nextRequestSequence := n + 1
    trace := s.trace ++ [.loaded n] }

/-- The state after a posted handler has run. -/
def handled (i : Nat) (op : ServiceOperation ρ) (s : DatabaseService ρ σ) : DatabaseService ρ σ :=
  if op.sequence % 100 = 0 then
    { s with
      posted := s.posted.eraseIdx i
      nextCheckpoint := op.sequence + 100
      trace := s.trace ++ [.announced op.sequence] }
  else { s with posted := s.posted.eraseIdx i }

theorem runPosted_run (i : Nat) (s : DatabaseService ρ σ) :
    (runPosted i).runFrom s = (.ok (), ((s.posted[i]?).map fun op => s.handled i op).getD s) := by
  rw [runPosted, runFrom_bind, runFrom_read]
  dsimp only
  cases s.posted[i]? with
  | none => rfl
  | some =>
    dsimp only [Option.map_some]
    rw [runFrom_bind, runFrom_update, executeHandler, handled]
    dsimp only
    split <;> rfl

variable [Inhabited ρ]

/-- The snapshot that is taken after a request, where one is due and succeeds. -/
def dueSnapshot (crud : CrudBase ρ σ) (store : σ) (s : DatabaseService ρ σ) : Option Bytes :=
  if s.nextRequestSequence = s.nextCheckpoint then crud.saveState store else none

/-- What is recorded of the snapshot after a request. -/
def savedEvents (crud : CrudBase ρ σ) (store : σ) (s : DatabaseService ρ σ) : List (ServiceEvent ρ) :=
  if (s.dueSnapshot crud store).isSome then [.saved s.nextRequestSequence] else []

theorem eq_of_mem_savedEvents {crud : CrudBase ρ σ} {store : σ} {e : ServiceEvent ρ}
    (h : e ∈ s.savedEvents crud store) : e = .saved s.nextRequestSequence := by
  rw [savedEvents] at h
  split at h
  · exact List.mem_singleton.mp h
  · cases h

/-- The state after `crud` has returned from the request of an operation. -/
def executed (crud : CrudBase ρ σ) (op : ServiceOperation ρ) (request : ρ) (store : σ) (s : DatabaseService ρ σ) :
    DatabaseService ρ σ :=
  { s with
    store := store
    snapshot := s.dueSnapshot crud store <|> s.snapshot
    lastCheckpoint := if (s.dueSnapshot crud store).isSome then s.nextRequestSequence else s.lastCheckpoint
    posted := s.posted ++ [op]
    trace :=
      s.trace ++ .executed s.nextRequestSequence op.sender (crud.setRequestHash op.requestHash request) ::
        s.savedEvents crud store }

/-- One round of the loop. -/
inductive Round (crud : CrudBase ρ σ) (uuid : Uuid) (s : DatabaseService ρ σ) : DatabaseService ρ σ → Prop where
  /-- A stored request without an operation in memory is passed. -/
  | skip (text : Bytes) (st : MemStorage) (request : ρ) (stored : s.stored uuid s.nextRequestSequence = some text)
      (parses : crud.codec.parse text = some request)
      (idle : s.operationsAwaitingResult[s.nextRequestSequence]? = none) (holds : s.RequestRemoved uuid st) :
      Round crud uuid s (s.movedOn text st)
  /-- A stored request with an operation in memory is executed and passed. -/
  | execute (text : Bytes) (st : MemStorage) (request : ρ) (op : ServiceOperation ρ) (store : σ)
      (stored : s.stored uuid s.nextRequestSequence = some text) (parses : crud.codec.parse text = some request)
      (held : s.operationsAwaitingResult[s.nextRequestSequence]? = some op)
      (handled : (crud.handleRequest op.sender
        (crud.setRequestHash op.requestHash request) op.session).runFrom s.store =
        (.ok (), store))
      (holds : s.RequestRemoved uuid st) :
      Round crud uuid s ((s.executed crud op request store).movedOn text st)

/-- What the calls of the service do to it, where the operations that arrive
are those of `Arrives`. -/
inductive Step (crud : CrudBase ρ σ) (uuid : Uuid) (Arrives : ServiceOperation ρ → Prop) (s : DatabaseService ρ σ) :
    DatabaseService ρ σ → Prop where
  /-- An operation arrives whose sequence has a stored request. -/
  | duplicate (op : ServiceOperation ρ) (arrives : Arrives op) (taken : (s.stored uuid op.sequence).isSome) :
      Step crud uuid Arrives s { s with trace := s.trace ++ [.applied op] }
  /-- An operation arrives, and its request is stored. -/
  | accept (op : ServiceOperation ρ) (st : MemStorage) (arrives : Arrives op)
      (free : s.stored uuid op.sequence = none)
      (holds : HoldsRequests uuid st
        (Function.update (s.stored uuid) op.sequence (some (crud.codec.serialize op.databaseMsg)))
        (s.persistedNext uuid)) :
      Step crud uuid Arrives s (s.accepted op st)
  | round {s' : DatabaseService ρ σ} (h : Round crud uuid s s') : Step crud uuid Arrives s s'
  /-- A state that does not load. -/
  | refuse (data : Bytes) (failed : (crud.loadState data s.store).1 = false) :
      Step crud uuid Arrives s { s with store := (crud.loadState data s.store).2 }
  /-- A state is loaded, and the requests it covers are dropped. -/
  | load (n : UInt64) (data : Bytes) (st : MemStorage) (ahead : s.nextRequestSequence ≤ n) (ends : n ≠ 0 - 1)
      (loads : (crud.loadState data s.store).1 = true)
      (holds : HoldsRequests uuid st
        (fun m => if s.nextRequestSequence ≤ m ∧ m ≤ n then none else s.stored uuid m) (s.persistedNext uuid)) :
      Step crud uuid Arrives s (s.loadedState n data (crud.loadState data s.store).2 st)

/-- What a throw leaves of the state before it: the storage, and what was
recorded, where the last event may be of the call that threw. -/
structure Interrupted (s s' : DatabaseService ρ σ) : Prop where
  storage : s'.unstableStorage = s.unstableStorage
  trace : s'.trace = s.trace ∨
    (∃ op, s'.trace = s.trace ++ [.applied op]) ∨
    ∃ caller request, s'.trace = s.trace ++ [.executed s.nextRequestSequence caller request]

def rounds (crud : CrudBase ρ σ) (uuid : Uuid) : Moves (DatabaseService ρ σ) where
  step := Round crud uuid
  crash := Interrupted
  inv _ := True
  crash_refl _ := ⟨rfl, .inl rfl⟩
  inv_step _ _ _ _ := trivial

def moves (crud : CrudBase ρ σ) (uuid : Uuid) (Arrives : ServiceOperation ρ → Prop) :
    Moves (DatabaseService ρ σ) where
  step := Step crud uuid Arrives
  crash := Interrupted
  inv _ := True
  crash_refl _ := ⟨rfl, .inl rfl⟩
  inv_step _ _ _ _ := trivial

/-! ## The loop -/

section Loop

variable {crud : CrudBase ρ σ} {uuid : Uuid} {Arrives : ServiceOperation ρ → Prop} {I : DatabaseService ρ σ → Prop}

theorem executeOperation_run (op : ServiceOperation ρ) (request : ρ) (s : DatabaseService ρ σ) :
    (executeOperation crud op request).runFrom s =
      match (crud.handleRequest op.sender (crud.setRequestHash op.requestHash request) op.session).runFrom s.store with
      | (.ok (), store) => (.ok (), s.executed crud op request store)
      | (.error e, store) => (.error e, { s with
          store := store
          trace := s.trace ++
            [.executed s.nextRequestSequence op.sender (crud.setRequestHash op.requestHash request)] }) := by
  simp only [executeOperation, record, onStore, runFrom_bind, runFrom_read, runFrom_update, runFrom_zoom]
  rcases (crud.handleRequest op.sender (crud.setRequestHash op.requestHash request) op.session).runFrom s.store with
    ⟨⟨⟩ | ⟨⟩, store⟩
  · rfl
  · dsimp only
    rw [executed, savedEvents, dueSnapshot]
    split
    · rw [takeSnapshot]
      cases crud.saveState store with
      | none => rfl
      | some => simp
    · rfl

variable {text : Bytes}

/-- One round of the loop. -/
theorem processRequest_run (h : s.stored uuid s.nextRequestSequence = some text) :
    (processRequest crud uuid text).runFrom s =
      match crud.codec.parse text with
      | none => (.error (.runtimeError "Failed to create pbft_request from database read!"), s)
      | some request =>
        match s.operationsAwaitingResult[s.nextRequestSequence]? with
        | none => (.ok (), s.movedOn text (s.removedStorage uuid))
        | some op =>
          match (crud.handleRequest op.sender (crud.setRequestHash op.requestHash request) op.session).runFrom
            s.store with
          | (.ok (), store) => (.ok (), (s.executed crud op request store).movedOn text (s.removedStorage uuid))
          | (.error e, store) => (.error e, { s with
              store := store
              trace := s.trace ++
                [.executed s.nextRequestSequence op.sender (crud.setRequestHash op.requestHash request)] }) := by
  rw [processRequest, runFrom_bind, runFrom_read]
  cases crud.codec.parse text with
  | none => rfl
  | some request =>
    dsimp only
    cases s.operationsAwaitingResult[s.nextRequestSequence]? with
    | none => exact removeRequest_run h
    | some op =>
      dsimp only
      rw [runFrom_bind, executeOperation_run]
      rcases (crud.handleRequest op.sender (crud.setRequestHash op.requestHash request) op.session).runFrom s.store
        with ⟨⟨⟩ | ⟨⟩, store⟩
      · rfl
      · have h' : (s.executed crud op request store).stored uuid
          (s.executed crud op request store).nextRequestSequence =
            some text := h
        exact removeRequest_run h'

theorem keyCount_processRequest {s' : DatabaseService ρ σ} (h : s.stored uuid s.nextRequestSequence = some text)
    (hr : (processRequest crud uuid text).runFrom s = (.ok (), s')) : s'.keyCount uuid + 1 = s.keyCount uuid := by
  rw [processRequest_run h] at hr
  split at hr
  · cases hr
  · split at hr
    · cases hr
      exact length_removedStorage h
    · split at hr
      · cases hr
        exact length_removedStorage h
      · cases hr

/-- Each round of the loop returns, and keeps `I`. -/
def RoundsReturn (crud : CrudBase ρ σ) (uuid : Uuid) (I : DatabaseService ρ σ → Prop) : Prop :=
  ∀ s text, I s → s.stored uuid s.nextRequestSequence = some text →
    ∃ s', (processRequest crud uuid text).runFrom s = (.ok (), s') ∧ I s'

/-- The loop returns where each of its rounds does: there are no more rounds
than keys. -/
theorem processAwaitingOperations_total (hI : RoundsReturn crud uuid I) (s : DatabaseService ρ σ) (hs : I s) :
    ∃ s', (processAwaitingOperations crud uuid).runFrom s = (.ok (), s') ∧ I s' ∧
      s'.stored uuid s'.nextRequestSequence = none := by
  suffices ∀ n s, I s → s.keyCount uuid ≤ n → ∃ s', (processRounds crud uuid n).runFrom s = (.ok (), s') ∧ I s' ∧
      s'.stored uuid s'.nextRequestSequence = none from this _ s hs le_rfl
  intro n
  induction n with
  | zero =>
    intro s hs hn
    rw [processRounds, runFrom_bind, runFrom_read]
    dsimp only
    cases h : s.stored uuid s.nextRequestSequence with
    | none => exact ⟨s, rfl, hs, h⟩
    | some =>
      have := length_removedStorage h
      omega
  | succ _ ih =>
    intro s hs hn
    rw [processRounds, runFrom_bind, runFrom_read]
    dsimp only
    cases h : s.stored uuid s.nextRequestSequence with
    | none => exact ⟨s, rfl, hs, h⟩
    | some text =>
      obtain ⟨s₁, hr, hs₁⟩ := hI s text hs h
      have hlt := keyCount_processRequest h hr
      rw [runFrom_bind, hr]
      exact ih s₁ hs₁ (by omega)

/-- One round of the loop is one step. -/
theorem processRequest_spec (text : Bytes) :
    Spec (rounds crud uuid) (fun s => s.stored uuid s.nextRequestSequence = some text) (processRequest crud uuid text)
      fun _ _ => True := by
  refine .singleRun fun s _ hs => ?_
  rw [processRequest_run hs]
  cases hp : crud.codec.parse text with
  | none => exact .inr ⟨_, _, rfl, rfl, .inl rfl⟩
  | some request =>
    cases ho : s.operationsAwaitingResult[s.nextRequestSequence]? with
    | none => exact .inl ⟨_, _, rfl, .skip text _ request hs hp ho (requestRemoved uuid s), trivial⟩
    | some op =>
      dsimp only
      rcases hc : (crud.handleRequest op.sender (crud.setRequestHash op.requestHash request) op.session).runFrom s.store
        with ⟨⟨⟩ | ⟨⟩, store⟩
      · exact .inr ⟨_, _, rfl, rfl, .inr (.inr ⟨_, _, rfl⟩)⟩
      · exact .inl ⟨_, _, rfl, .execute text _ request op store hs hp ho hc (requestRemoved uuid s), trivial⟩

theorem processRounds_spec (n : Nat) :
    Spec (rounds crud uuid) (fun _ => True) (processRounds crud uuid n) fun _ s =>
      s.stored uuid s.nextRequestSequence = none := by
  induction n with
  | zero =>
    refine .bind_read fun s₀ _ _ => ?_
    cases h : s₀.stored uuid s₀.nextRequestSequence with
    | none => exact .pure fun s hs => hs ▸ h
    | some => exact .fail _
  | succ _ ih =>
    refine .bind_read fun s₀ _ _ => ?_
    cases h : s₀.stored uuid s₀.nextRequestSequence with
    | none => exact .pure fun s hs => hs ▸ h
    | some text => exact ((processRequest_spec text).pre fun s hs => hs ▸ h).bind fun _ => ih

theorem processAwaitingOperations_spec :
    Spec (rounds crud uuid) (fun _ => True) (processAwaitingOperations crud uuid) fun _ s =>
      s.stored uuid s.nextRequestSequence = none :=
  .bind_read fun _ _ _ => (processRounds_spec _).pre fun _ _ => trivial

theorem processAwaitingOperations_steps :
    Spec (moves crud uuid Arrives) (fun _ => True) (processAwaitingOperations crud uuid) fun _ _ => True :=
  (processAwaitingOperations_spec.post fun _ _ _ => trivial).mono (fun _ _ => Step.round) (fun _ _ => id) fun _ => id

/-- An operation arrives: its sequence has a stored request, or its request is
stored and the loop runs, or it is too large. -/
theorem applyOperation_cases (crud : CrudBase ρ σ) (uuid : Uuid) (op : ServiceOperation ρ) (s : DatabaseService ρ σ) :
    ((s.stored uuid op.sequence).isSome ∧
      (applyOperation crud uuid op).runFrom s = (.ok (), { s with trace := s.trace ++ [.applied op] })) ∨
    (s.stored uuid op.sequence = none ∧ (crud.codec.serialize op.databaseMsg).length ≤ maxValueSize ∧
      ∃ st, HoldsRequests uuid st
          (Function.update (s.stored uuid) op.sequence (some (crud.codec.serialize op.databaseMsg)))
          (s.persistedNext uuid) ∧
        (applyOperation crud uuid op).runFrom s = (processAwaitingOperations crud uuid).runFrom (s.accepted op st)) ∨
    (maxValueSize < (crud.codec.serialize op.databaseMsg).length ∧
      ∃ what, (applyOperation crud uuid op).runFrom s =
        (.error (.runtimeError what), { s with trace := s.trace ++ [.applied op] })) := by
  have holds : HoldsRequests uuid s.unstableStorage (s.stored uuid) (s.persistedNext uuid) := ⟨fun _ => rfl, rfl⟩
  have hkey : (sequenceKey op.sequence).length ≤ maxKeySize := (length_sequenceKey _).trans (by decide)
  simp only [applyOperation, record, runFrom_bind, runFrom_read, runFrom_update]
  by_cases hfits : maxValueSize < (crud.codec.serialize op.databaseMsg).length
  · refine .inr (.inr ⟨hfits, s!"Failed to store pbft request! ({StorageResult.valueTooLarge.code})", ?_⟩)
    rw [MemStorage.create, if_pos hfits]
    rfl
  · cases hread : s.stored uuid op.sequence with
    | some =>
      refine .inl ⟨rfl, ?_⟩
      rw [stored] at hread
      rw [MemStorage.create, if_neg hfits, if_neg (by omega), hread]
      rfl
    | none =>
      have hok := (MemStorage.create_result_iff s.unstableStorage uuid (sequenceKey op.sequence)
        (crud.codec.serialize op.databaseMsg)).mpr ⟨by omega, hkey, hread⟩
      refine .inr (.inl ⟨rfl, by omega, _, holds.create hok, ?_⟩)
      rw [hok]
      rfl

/-- An operation whose request can be stored: the call returns where the
rounds of the loop do. -/
theorem applyOperation_total (hI : RoundsReturn crud uuid I) {op : ServiceOperation ρ}
    (free : s.stored uuid op.sequence = none) (fits : (crud.codec.serialize op.databaseMsg).length ≤ maxValueSize)
    (hs : ∀ st, HoldsRequests uuid st
      (Function.update (s.stored uuid) op.sequence (some (crud.codec.serialize op.databaseMsg)))
        (s.persistedNext uuid) →
      I (s.accepted op st)) :
    ∃ s', (applyOperation crud uuid op).runFrom s = (.ok (), s') ∧ I s' ∧
      s'.stored uuid s'.nextRequestSequence = none := by
  rcases applyOperation_cases crud uuid op s with ⟨htaken, -⟩ | ⟨-, -, st, holds, hr⟩ | ⟨hlarge, -⟩
  · rw [free] at htaken
    cases htaken
  · rw [hr]
    exact processAwaitingOperations_total hI _ (hs st holds)
  · omega

theorem applyOperation_spec (op : ServiceOperation ρ) (arrives : Arrives op) :
    Spec (moves crud uuid Arrives) (fun _ => True) (applyOperation crud uuid op) fun _ _ => True := by
  refine .runThen processAwaitingOperations_steps fun s _ _ => ?_
  rcases applyOperation_cases crud uuid op s with ⟨taken, hr⟩ | ⟨free, -, st, holds, hr⟩ | ⟨-, what, hr⟩
  · exact ⟨_, .single (.duplicate op arrives taken), .inr (.inl ⟨_, hr, trivial⟩)⟩
  · exact ⟨_, .single (.accept op st arrives free holds), .inl ⟨trivial, hr⟩⟩
  · exact ⟨s, .refl, .inr (.inr ⟨_, _, hr, rfl, .inr (.inl ⟨op, rfl⟩)⟩)⟩

/-- A state arrives: it is old, or does not load, or the loop that drops what
it covers never ends, or it is loaded and the loop runs. -/
theorem setServiceState_cases (crud : CrudBase ρ σ) (uuid : Uuid) (n : UInt64) (data : Bytes)
    (s : DatabaseService ρ σ) :
    (n < s.nextRequestSequence ∧ (setServiceState crud uuid n data).runFrom s = (.ok true, s)) ∨
    (s.nextRequestSequence ≤ n ∧ (crud.loadState data s.store).1 = false ∧
      (setServiceState crud uuid n data).runFrom s = (.ok false, { s with store := (crud.loadState data s.store).2 })) ∨
    (s.nextRequestSequence ≤ n ∧ (crud.loadState data s.store).1 = true ∧ n = 0 - 1 ∧
      (setServiceState crud uuid n data).runFrom s =
        (.error .divergence, { s with
          store := (crud.loadState data s.store).2
          snapshot := some data
          lastCheckpoint := n })) ∨
    (s.nextRequestSequence ≤ n ∧ (crud.loadState data s.store).1 = true ∧ n ≠ 0 - 1 ∧
      ∃ st, HoldsRequests uuid st
          (fun m => if s.nextRequestSequence ≤ m ∧ m ≤ n then none else s.stored uuid m) (s.persistedNext uuid) ∧
        (setServiceState crud uuid n data).runFrom s =
          (do processAwaitingOperations crud uuid; Pure.pure true).runFrom
            (s.loadedState n data (crud.loadState data s.store).2 st)) := by
  have holds : HoldsRequests uuid s.unstableStorage (s.stored uuid) (s.persistedNext uuid) := ⟨fun _ => rfl, rfl⟩
  rw [setServiceState, runFrom_bind, runFrom_read]
  dsimp only
  by_cases hnext : s.nextRequestSequence > n
  · rw [if_pos hnext]
    exact .inl ⟨hnext, rfl⟩
  · have hle := UInt64.not_lt.mp hnext
    rw [if_neg hnext]
    cases hload : (crud.loadState data s.store).1 with
    | false => exact .inr (.inl ⟨hle, rfl, rfl⟩)
    | true =>
      simp only [discardUntil, runFrom_bind, runFrom_read, runFrom_update, Bool.not_true, Bool.false_eq_true, if_false]
      cases hl : sequencesBetween s.nextRequestSequence n with
      | none => exact .inr (.inr (.inl ⟨hle, trivial, sequencesBetween_eq_none.mp hl, rfl⟩))
      | some sequences =>
        have hends : n ≠ 0 - 1 := fun hn => by rw [sequencesBetween_eq_none.mpr hn] at hl; cases hl
        have hdrop := holds.removeAll sequences
        simp only [mem_sequencesBetween hl] at hdrop
        exact .inr (.inr (.inr ⟨hle, trivial, hends, _, hdrop, rfl⟩))

/-- A state that is ahead and loads: the call returns where the rounds of the
loop do. -/
theorem setServiceState_total (hI : RoundsReturn crud uuid I) {n : UInt64} {data : Bytes}
    (ahead : s.nextRequestSequence ≤ n) (ends : n ≠ 0 - 1) (loads : (crud.loadState data s.store).1 = true)
    (hs : ∀ st, HoldsRequests uuid st
      (fun m => if s.nextRequestSequence ≤ m ∧ m ≤ n then none else s.stored uuid m) (s.persistedNext uuid) →
      I (s.loadedState n data (crud.loadState data s.store).2 st)) :
    ∃ s', (setServiceState crud uuid n data).runFrom s = (.ok true, s') ∧ I s' ∧
      s'.stored uuid s'.nextRequestSequence = none := by
  rcases setServiceState_cases crud uuid n data s with ⟨hlt, -⟩ | ⟨-, hfails, -⟩ | ⟨-, -, hlast, -⟩ |
    ⟨-, -, -, st, holds, hr⟩
  · exact absurd ahead (UInt64.not_le.mpr hlt)
  · rw [loads] at hfails
    cases hfails
  · exact absurd hlast ends
  · obtain ⟨s', hp, h⟩ := processAwaitingOperations_total hI _ (hs st holds)
    rw [hr, runFrom_bind, hp]
    exact ⟨s', rfl, h⟩

theorem setServiceState_spec (n : UInt64) (data : Bytes) :
    Spec (moves crud uuid Arrives) (fun _ => True) (setServiceState crud uuid n data) fun _ _ => True := by
  have hrest : Spec (moves crud uuid Arrives) (fun _ => True) (do processAwaitingOperations crud uuid; Pure.pure true)
      fun _ _ => True := processAwaitingOperations_steps.bind fun _ => .pure fun _ _ => trivial
  refine .runThen hrest fun s _ _ => ?_
  rcases setServiceState_cases crud uuid n data s with
    ⟨-, hr⟩ | ⟨-, failed, hr⟩ | ⟨-, -, -, hr⟩ | ⟨ahead, loads, ends, st, holds, hr⟩
  · exact ⟨s, .refl, .inr (.inl ⟨_, hr, trivial⟩)⟩
  · exact ⟨_, .single (.refuse data failed), .inr (.inl ⟨_, hr, trivial⟩)⟩
  · exact ⟨s, .refl, .inr (.inr ⟨_, _, hr, rfl, .inl rfl⟩)⟩
  · exact ⟨_, .single (.load n data st ahead ends loads holds), .inl ⟨trivial, hr⟩⟩

end Loop

end DatabaseService

end SwarmDb
