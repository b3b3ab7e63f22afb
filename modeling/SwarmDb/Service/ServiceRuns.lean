import SwarmDb.Lib.History
import SwarmDb.Service.ServiceSteps

/-!
# Runs of the database service

A run starts over a storage without keys and goes on by calls of the service, by the handlers it posted, and by restarts
over the storage it left (`Reached`). `passed_accounted` says when a request is executed before the service moves past
it although the operations in memory are lost by a restart.
-/

namespace SwarmDb

open Lib Program DatabaseService

/-- The calls of a service, and the runs of the handlers it posted. -/
inductive ServiceCall (ρ : Type) where
  | apply (op : ServiceOperation ρ)
  | setState (sequenceNumber : UInt64) (data : Bytes)
  | runPosted (i : Nat)

namespace DatabaseService

variable {ρ σ : Type}

/-- The constructors of the service and of `pbft`, as far as the service goes. -/
def start (uuid : Uuid) (nextIssued : UInt64) : Program Fault (DatabaseService ρ σ) Unit := do
  loadNextRequestSequence uuid
  saveServiceStateAt ((nextIssued / 100 + 1) * 100)

/-- What the constructors leave, over a storage. -/
structure Started (uuid : Uuid) (st : MemStorage) (trace : List (ServiceEvent ρ)) (s : DatabaseService ρ σ) :
    Prop where
  stored : ∀ n, s.stored uuid n = st.read uuid (sequenceKey n)
  next : (st.read uuid nextRequestSequenceKey = none ∧ s.nextRequestSequence = 1) ∨
    ∃ text, st.read uuid nextRequestSequenceKey = some text ∧ lexicalCast text = some s.nextRequestSequence
  trace : s.trace = trace
  operations : s.operationsAwaitingResult = ∅
  posted : s.posted = []

theorem start_ok {uuid : Uuid} {nextIssued : UInt64} {st : MemStorage} {store : σ} {trace : List (ServiceEvent ρ)}
    {s : DatabaseService ρ σ} (h : (start uuid nextIssued).runFrom (blank st store trace) = (.ok (), s)) :
    Started uuid st trace s ∧ s.nextCheckpoint = (nextIssued / 100 + 1) * 100 ∧ s.store = store ∧
      s.persistedNext uuid = some ((st.read uuid nextRequestSequenceKey).getD (sequenceKey 1)) := by
  rw [start, runFrom_bind, loadNextRequestSequence, runFrom_bind, runFrom_read] at h
  dsimp only [blank] at h
  cases hr : st.read uuid nextRequestSequenceKey with
  | none =>
    rw [hr] at h
    dsimp only at h
    split at h
    · rename_i hc
      split at hc
      · rename_i hok
        cases hc
        cases h
        refine ⟨⟨fun n => ?_, .inl ⟨hr, rfl⟩, rfl, rfl, rfl⟩, rfl, rfl, ?_⟩
        · exact (MemStorage.read_create hok uuid _).trans (if_neg fun hk => sequenceKey_ne_next n hk.2.symm)
        · exact (MemStorage.read_create hok uuid _).trans (if_pos ⟨rfl, rfl⟩)
      · cases hc
    · cases h
  | some text =>
    rw [hr] at h
    dsimp only at h
    cases hl : lexicalCast text with
    | none =>
      rw [hl] at h
      cases h
    | some =>
      rw [hl] at h
      cases h
      exact ⟨⟨fun _ => rfl, .inr ⟨text, hr, hl⟩, rfl, rfl, rfl⟩, rfl, rfl, hr⟩

end DatabaseService

open DatabaseService

variable {ρ σ : Type} [Inhabited ρ]

def ServiceCall.program (crud : CrudBase ρ σ) (uuid : Uuid) : ServiceCall ρ → Program Fault (DatabaseService ρ σ) Unit
  | apply op => applyOperation crud uuid op
  | setState n data => do
    let _ ← setServiceState crud uuid n data
    pure ()
  | runPosted i => DatabaseService.runPosted i

namespace DatabaseService

section Runs

variable (crud : CrudBase ρ σ) (uuid : Uuid) (Calls : DatabaseService ρ σ → ServiceCall ρ → Prop)
  (Restarts : MemStorage → List (ServiceEvent ρ) → Prop)

/-- How a process ends between calls or by one that throws, and the storage it
leaves. A call that never ends leaves nothing. -/
inductive Left (s : DatabaseService ρ σ) : MemStorage → List (ServiceEvent ρ) → Prop where
  /-- The destructor saves `next_request_sequence`. -/
  | stopped : Left s ((saveNextRequestSequence uuid).final s).unstableStorage s.trace
  | killed : Left s s.unstableStorage s.trace
  | thrown (c : ServiceCall ρ) (e : Fault) (allowed : Calls s c) (throws : (c.program crud uuid).result s = .error e)
      (ends : e ≠ .divergence) :
      Left s ((c.program crud uuid).final s).unstableStorage ((c.program crud uuid).final s).trace

/-- The states of a run whose calls are in `Calls` and whose restarts are over
storages in `Restarts`. -/
inductive Reached : DatabaseService ρ σ → Prop where
  | first (st : MemStorage) (store : σ) (nextIssued : UInt64) {s : DatabaseService ρ σ}
      (empty : ∀ key, st.read uuid key = none)
      (starts : (start uuid nextIssued).runFrom (blank st store []) = (.ok (), s)) : Reached s
  | call {s : DatabaseService ρ σ} (c : ServiceCall ρ) (reached : Reached s) (allowed : Calls s c)
      (returns : (c.program crud uuid).result s = .ok ()) : Reached ((c.program crud uuid).final s)
  | restart {s : DatabaseService ρ σ} {st : MemStorage} {trace : List (ServiceEvent ρ)} (reached : Reached s)
      (left : Left crud uuid Calls s st trace) (allowed : Restarts st trace) (store : σ) (nextIssued : UInt64)
      {s' : DatabaseService ρ σ} (starts : (start uuid nextIssued).runFrom (blank st store trace) = (.ok (), s')) :
      Reached s'

end Runs

section Invariants

variable {crud : CrudBase ρ σ} {uuid : Uuid} {Calls : DatabaseService ρ σ → ServiceCall ρ → Prop}
  {Restarts : MemStorage → List (ServiceEvent ρ) → Prop} {Arrives : ServiceOperation ρ → Prop}

variable {s : DatabaseService ρ σ}

theorem Reached.of_run {s' : DatabaseService ρ σ} {c : ServiceCall ρ} (h : Reached crud uuid Calls Restarts s)
    (allowed : Calls s c) (hr : (c.program crud uuid).runFrom s = (.ok (), s')) :
      Reached crud uuid Calls Restarts s' := by
  have hreached := h.call c allowed (congrArg Prod.fst hr)
  rwa [final, hr] at hreached

theorem program_setState {s' : DatabaseService ρ σ} {n : UInt64} {data : Bytes} {b : Bool}
    (h : (setServiceState crud uuid n data).runFrom s = (.ok b, s')) :
    (ServiceCall.program crud uuid (.setState n data)).runFrom s = (.ok (), s') := by
  rw [ServiceCall.program, runFrom_bind, h]
  rfl

/-- A call that returns or throws goes by steps; or it is a handler, which
returns. -/
theorem program_steps (crud : CrudBase ρ σ) (uuid : Uuid) (c : ServiceCall ρ)
    (arrives : ∀ op, c = .apply op → Arrives op) :
    Spec (moves crud uuid Arrives) (fun _ => True) (c.program crud uuid) (fun _ _ => True) ∨
    ∃ i, c = .runPosted i := by
  cases c with
  | apply op => exact .inl (applyOperation_spec op (arrives op rfl))
  | setState n data => exact .inl ((setServiceState_spec n data).bind fun _ => .pure fun _ _ => trivial)
  | runPosted i => exact .inr ⟨i, rfl⟩

theorem program_runPosted_final (i : Nat) (s : DatabaseService ρ σ) :
    (ServiceCall.program crud uuid (.runPosted i)).final s = ((s.posted[i]?).map fun op => s.handled i op).getD s :=
  congrArg Prod.snd (runPosted_run i s)

/-- What a process leaves: the requests of some state it reached, and what was
recorded until then, and perhaps an event of a call that threw. -/
theorem Left.of_step {st : MemStorage} {trace : List (ServiceEvent ρ)}
    (arrives : ∀ s op, Calls s (.apply op) → Arrives op) (h : Left crud uuid Calls s st trace) :
    ∃ s₁, Relation.ReflTransGen (Step crud uuid Arrives) s s₁ ∧
      (∀ n, st.read uuid (sequenceKey n) = s₁.stored uuid n) ∧
      (trace = s₁.trace ∨ (∃ op, trace = s₁.trace ++ [.applied op]) ∨
        ∃ caller request, trace = s₁.trace ++ [.executed s₁.nextRequestSequence caller request]) := by
  cases h with
  | stopped =>
    have holds : HoldsRequests uuid s.unstableStorage (s.stored uuid) (s.persistedNext uuid) := ⟨fun _ => rfl, rfl⟩
    exact ⟨s, .refl, (holds.save s.nextRequestSequence).stored, .inl rfl⟩
  | killed => exact ⟨s, .refl, fun _ => rfl, .inl rfl⟩
  | thrown c e allowed throws =>
    rcases program_steps crud uuid c fun op hc => arrives s op (hc ▸ allowed) with hspec | ⟨i, rfl⟩
    · obtain ⟨s₁, hr, hi⟩ := (hspec s trivial trivial).2 e throws
      exact ⟨s₁, hr, fun n => by rw [hi.storage]; rfl, hi.trace⟩
    · rw [result, ServiceCall.program, runPosted_run] at throws
      cases throws

/-- What every start establishes and every step keeps holds in every state
that is reached; `J` is what is left over a restart. -/
theorem Reached.invariant (arrives : ∀ s op, Calls s (.apply op) → Arrives op) {I : DatabaseService ρ σ → Prop}
    {J : (UInt64 → Option Bytes) → List (ServiceEvent ρ) → Prop}
    (hfirst : ∀ st s, (∀ key, st.read uuid key = none) → Started uuid st [] s → I s)
    (hstep : ∀ s s', I s → Step crud uuid Arrives s s' → I s')
    (hhandle : ∀ s i op, I s → s.posted[i]? = some op → I (s.handled i op))
    (hkilled : ∀ s, I s → J (s.stored uuid) s.trace)
    (hthrown : ∀ s op, I s → J (s.stored uuid) (s.trace ++ [.applied op]))
    (hexecuting : ∀ s caller request, I s →
      J (s.stored uuid) (s.trace ++ [.executed s.nextRequestSequence caller request]))
    (hrestart : ∀ st trace s, J (fun n => st.read uuid (sequenceKey n)) trace → Restarts st trace →
      Started uuid st trace s → I s) (h : Reached crud uuid Calls Restarts s) : I s := by
  have hrun : ∀ {s s'}, Relation.ReflTransGen (Step crud uuid Arrives) s s' → I s → I s' := by
    intro s s' hr hs
    induction hr with
    | refl => exact hs
    | tail _ hst ih => exact hstep _ _ ih hst
  induction h with
  | first st _ _ empty starts => exact hfirst st _ empty (start_ok starts).1
  | @call s c _ allowed returns ih =>
    rcases program_steps crud uuid c fun op hc => arrives s op (hc ▸ allowed) with hspec | ⟨i, rfl⟩
    · exact hrun ((hspec s trivial trivial).1 _ returns).1 ih
    · rw [program_runPosted_final]
      cases hp : s.posted[i]? with
      | none => exact ih
      | some op => exact hhandle s i op ih hp
  | restart _ left allowed _ _ starts ih =>
    obtain ⟨s₁, hr, hstored, htrace⟩ := left.of_step arrives
    have hs₁ := hrun hr ih
    refine hrestart _ _ _ ?_ allowed (start_ok starts).1
    rw [funext hstored]
    rcases htrace with rfl | ⟨op, rfl⟩ | ⟨caller, request, rfl⟩
    · exact hkilled s₁ hs₁
    · exact hthrown s₁ op hs₁
    · exact hexecuting s₁ caller request hs₁

end Invariants

/-! ## Requests that are passed -/

section Passed

variable {crud : CrudBase ρ σ} {uuid : Uuid}

/-- The request of a text was handed to `crud` for a sequence, or a loaded
state covers the sequence. -/
def Accounted (crud : CrudBase ρ σ) (trace : List (ServiceEvent ρ)) (n : UInt64) (text : Bytes) : Prop :=
  (∃ request hash caller, crud.codec.parse text = some request ∧
    .executed n caller (crud.setRequestHash hash request) ∈ trace) ∨
  ∃ m, n ≤ m ∧ .loaded m ∈ trace

variable {text : Bytes} {s : DatabaseService ρ σ}

theorem Accounted.append {trace : List (ServiceEvent ρ)} {n : UInt64} (h : Accounted crud trace n text)
    (l : List (ServiceEvent ρ)) : Accounted crud (trace ++ l) n text := by
  rcases h with ⟨request, hash, caller, hp, hm⟩ | ⟨m, hn, hm⟩
  · exact .inl ⟨request, hash, caller, hp, List.mem_append_left l hm⟩
  · exact .inr ⟨m, hn, List.mem_append_left l hm⟩

/-- A passed request is accounted for. -/
def PassedAccounted (crud : CrudBase ρ σ) (before : List (ServiceEvent ρ)) : ServiceEvent ρ → Prop
  | .passed n text => Accounted crud before n text
  | _ => True

/-- What keeps the service from passing a request that was not executed: the
requests ahead have their operations in memory. -/
structure Backed (crud : CrudBase ρ σ) (uuid : Uuid) (s : DatabaseService ρ σ) : Prop where
  accounted : Justified (PassedAccounted crud) s.trace
  backlog : ∀ n text, s.stored uuid n = some text → s.nextRequestSequence ≤ n →
    (s.operationsAwaitingResult[n]?).isSome ∨ Accounted crud s.trace n text
  bounded : s.stored uuid (0 - 1) = none

/-- A round keeps it, once the request it passes is accounted for. -/
theorem Backed.round {s' : DatabaseService ρ σ} {st : MemStorage} {l : List (ServiceEvent ρ)} (hs : Backed crud uuid s)
    (stored : s.stored uuid s.nextRequestSequence = some text) (holds : s.RequestRemoved uuid st)
    (hstorage : s'.unstableStorage = st) (hnext : s'.nextRequestSequence = s.nextRequestSequence + 1)
    (hops : s'.operationsAwaitingResult = s.operationsAwaitingResult)
    (htrace : s'.trace = (s.trace ++ l) ++ [.passed s.nextRequestSequence text])
    (hl : Justified (PassedAccounted crud) (s.trace ++ l))
    (hpassed : Accounted crud (s.trace ++ l) s.nextRequestSequence text) : Backed crud uuid s' := by
  have hread : ∀ n, s'.stored uuid n = Function.update (s.stored uuid) s.nextRequestSequence none n := by
    intro n
    rw [DatabaseService.stored, hstorage, holds.stored]
  have hlt : s.nextRequestSequence ≠ 0 - 1 := by
    intro he
    rw [he, hs.bounded] at stored
    cases stored
  refine ⟨?_, fun n t hn hle => ?_, ?_⟩
  · rw [htrace]
    exact justified_concat.mpr ⟨hl, hpassed⟩
  · rw [hread, Function.update_apply] at hn
    split at hn
    · cases hn
    · have hge : s.nextRequestSequence ≤ n := by
        rw [UInt64.le_iff_toNat_le] at hle ⊢
        rw [hnext, toNat_add_one hlt] at hle
        omega
      rw [hops, htrace]
      exact (hs.backlog n t hn hge).imp id fun h => (h.append l).append _
  · rw [hread, Function.update_of_ne hlt.symm]
    exact hs.bounded

theorem Step.backed {s' : DatabaseService ρ σ} (h : Step crud uuid (fun op => op.sequence ≠ 0 - 1) s s')
    (hs : Backed crud uuid s) : Backed crud uuid s' := by
  cases h with
  | duplicate =>
    exact ⟨justified_concat.mpr ⟨hs.accounted, trivial⟩,
      fun n text hn hle => (hs.backlog n text hn hle).imp id fun h => h.append _, hs.bounded⟩
  | accept _ _ arrives _ holds =>
    refine ⟨justified_concat.mpr ⟨hs.accounted, trivial⟩, fun n text hn hle => ?_, ?_⟩
    · have hn' := (holds.stored n).symm.trans hn
      rw [Function.update_apply] at hn'
      split at hn'
      · rename_i heq
        subst heq
        exact .inl (by simp [accepted])
      · refine (hs.backlog n text hn' hle).imp (fun h => ?_) fun h => h.append _
        simp only [accepted, Map.lookup_insert]
        split
        · rfl
        · exact h
    · exact (holds.stored _).trans ((Function.update_of_ne (Ne.symm arrives) _ _).trans hs.bounded)
  | round h =>
    cases h with
    | skip _ _ _ stored _ idle holds =>
      have hpassed := (hs.backlog _ _ stored (UInt64.le_refl _)).resolve_left (by simp [idle])
      refine hs.round (l := []) stored holds rfl rfl rfl (by rw [List.append_nil]; rfl) ?_ ?_
      · rw [List.append_nil]
        exact hs.accounted
      · exact hpassed.append []
    | execute _ _ request op _ stored parses _ _ holds =>
      refine hs.round stored holds rfl rfl rfl rfl ?_ ?_
      · refine hs.accounted.append fun before e he => ?_
        simp only [List.mem_cons] at he
        rcases he with rfl | he
        · trivial
        · rw [eq_of_mem_savedEvents he]
          trivial
      · exact .inl ⟨request, op.requestHash, op.sender, parses, by simp⟩
  | refuse => exact ⟨hs.accounted, hs.backlog, hs.bounded⟩
  | load _ _ _ ahead ends _ holds =>
    refine ⟨justified_concat.mpr ⟨hs.accounted, trivial⟩, fun m text hm hle => ?_, ?_⟩
    · have hm' := (holds.stored m).symm.trans hm
      split at hm'
      · cases hm'
      · have hge : s.nextRequestSequence ≤ m := by
          rw [UInt64.le_iff_toNat_le] at hle ahead ⊢
          have := toNat_add_one ends
          simp only [loadedState] at hle
          omega
        exact (hs.backlog m text hm' hge).imp id fun h => h.append _
    · refine (holds.stored _).trans ?_
      split
      · rfl
      · exact hs.bounded

theorem Backed.handled (hs : Backed crud uuid s) (i : Nat) (op : ServiceOperation ρ) :
    Backed crud uuid (s.handled i op) := by
  rw [DatabaseService.handled]
  split
  · exact ⟨justified_concat.mpr ⟨hs.accounted, trivial⟩,
      fun n text hn hle => (hs.backlog n text hn hle).imp id fun h => h.append _, hs.bounded⟩
  · exact ⟨hs.accounted, hs.backlog, hs.bounded⟩

/-- Over a storage, each request at or above `next_request_sequence` is
accounted for. -/
def BacklogAccounted (crud : CrudBase ρ σ) (uuid : Uuid) (st : MemStorage) (trace : List (ServiceEvent ρ)) : Prop :=
  ∀ n text, st.read uuid (sequenceKey n) = some text →
    (∀ t m, st.read uuid nextRequestSequenceKey = some t → lexicalCast t = some m → m ≤ n) →
    Accounted crud trace n text

/-- No request is skipped, in a run whose restarts leave no request behind that
was neither executed nor covered, and with no operation for the last sequence. -/
theorem passed_accounted {s : DatabaseService ρ σ}
    (h : Reached crud uuid (fun _ c => ∀ op, c = .apply op → op.sequence ≠ 0 - 1) (BacklogAccounted crud uuid) s)
    {before after : List (ServiceEvent ρ)} {n : UInt64} {text : Bytes}
    (hpassed : s.trace = before ++ .passed n text :: after) : Accounted crud before n text := by
  have hs : Backed crud uuid s := by
    refine h.invariant (J := fun stored trace => Justified (PassedAccounted crud) trace ∧ stored (0 - 1) = none)
      (fun _ op hc => hc op rfl) ?_ (fun _ _ hs hst => hst.backed hs)
      (fun _ i op hs _ => hs.handled i op) ?_ ?_ ?_ ?_
    · intro st s hempty hstart
      have hnone : ∀ n, s.stored uuid n = none := fun n => (hstart.stored n).trans (hempty _)
      refine ⟨?_, fun n text hn => ?_, hnone _⟩
      · rw [hstart.trace]
        exact justified_nil _
      · rw [hnone] at hn
        cases hn
    · exact fun s hs => ⟨hs.accounted, hs.bounded⟩
    · exact fun s op hs => ⟨justified_concat.mpr ⟨hs.accounted, trivial⟩, hs.bounded⟩
    · exact fun s caller request hs => ⟨justified_concat.mpr ⟨hs.accounted, trivial⟩, hs.bounded⟩
    · rintro st trace s ⟨htrace, hbound⟩ hallowed hstart
      refine ⟨by rwa [hstart.trace], fun n text hn hle => .inr ?_, (hstart.stored _).trans hbound⟩
      rw [hstart.trace]
      refine hallowed n text ((hstart.stored n).symm.trans hn) fun t m ht hm => ?_
      rcases hstart.next with ⟨hnone, -⟩ | ⟨t', ht', hm'⟩
      · rw [hnone] at ht
        cases ht
      · rw [ht'] at ht
        cases ht
        rw [hm'] at hm
        cases hm
        exact hle
  exact hs.accounted before _ after hpassed

end Passed

/-! ## A service that records its requests -/

/-- A `crud` whose store is the texts of its requests, one after the other. -/
def recordingCrud : CrudBase Bytes Bytes where
  codec := ⟨id, fun _ => true, id, fun _ => rfl, fun _ => rfl, rfl, rfl⟩
  setRequestHash _ request := request
  handleRequest _ request _ := update (· ++ request)
  saveState store := some store
  loadState data _ := (true, data)

/-- The operation for a sequence, whose request is the text of the sequence. -/
def recordedOperation (n : UInt64) : ServiceOperation Bytes := ⟨n, [], sequenceKey n, [], none⟩

/-- The service after its first start. -/
def recordingStart : DatabaseService Bytes Bytes := (start [] 1).final (blank default [] [])

/-- Calls to the service, one after the other. -/
def calls (l : List (ServiceCall Bytes)) : Program Fault (DatabaseService Bytes Bytes) Unit :=
  forEach l (ServiceCall.program recordingCrud [])

theorem recordingStart_reached (Calls : DatabaseService Bytes Bytes → ServiceCall Bytes → Prop)
    (Restarts : MemStorage → List (ServiceEvent Bytes) → Prop) :
      Reached recordingCrud [] Calls Restarts recordingStart :=
  .first default [] 1 (MemStorage.read_default []) rfl

/-- Calls that return, none of them for the last sequence. -/
theorem Reached.calls {Restarts : MemStorage → List (ServiceEvent Bytes) → Prop} {s : DatabaseService Bytes Bytes}
    (h : Reached recordingCrud [] (fun _ c => ∀ op, c = .apply op → op.sequence ≠ 0 - 1) Restarts s)
    {l : List (ServiceCall Bytes)} (hl : ∀ c ∈ l, ∀ op, c = .apply op → op.sequence ≠ 0 - 1)
    (hok : (calls l).result s = .ok ()) :
    Reached recordingCrud [] (fun _ c => ∀ op, c = .apply op → op.sequence ≠ 0 - 1) Restarts ((calls l).final s) := by
  induction l generalizing s with
  | nil => exact h
  | cons c l ih =>
    rw [List.forall_mem_cons] at hl
    obtain ⟨u, hc, hrest⟩ := result_bind_eq_ok hok
    rw [DatabaseService.calls, forEach, final_bind_ok hc]
    exact ih (h.call c hl.1 hc) hl.2 hrest

/-- Two operations have arrived, the later one first. -/
def recordingPair : DatabaseService Bytes Bytes :=
  (calls [.apply (recordedOperation 2), .apply (recordedOperation 1)]).final recordingStart

/-- The process is killed and starts again, and two more arrive, the later one first. -/
def recordingResumed : DatabaseService Bytes Bytes :=
  (calls [.apply (recordedOperation 4), .apply (recordedOperation 3)]).final
    ((start [] 1).final (blank recordingPair.unstableStorage recordingPair.store recordingPair.trace))

theorem passed_accounted_resumed :
    ∃ before after, recordingResumed.trace = before ++ .passed 4 (sequenceKey 4) :: after ∧
      Accounted recordingCrud before 4 (sequenceKey 4) := by
  have hkeys : recordingPair.unstableStorage.getKeys [] = [nextRequestSequenceKey] := by decide +kernel
  have hbacklog : BacklogAccounted recordingCrud [] recordingPair.unstableStorage recordingPair.trace := by
    intro n text hn
    have hmem : sequenceKey n ∈ recordingPair.unstableStorage.getKeys [] := by
      rw [MemStorage.mem_getKeys, hn]
      rfl
    rw [hkeys, List.mem_singleton] at hmem
    exact absurd hmem (sequenceKey_ne_next n)
  have hpair : Reached recordingCrud [] _ (BacklogAccounted recordingCrud []) recordingPair :=
    (recordingStart_reached _ _).calls (by simp [recordedOperation]; decide) rfl
  have hresumed : Reached recordingCrud [] _ (BacklogAccounted recordingCrud []) recordingResumed :=
    (hpair.restart .killed hbacklog recordingPair.store 1 rfl).calls (by simp [recordedOperation]; decide) rfl
  have htrace : recordingResumed.trace = recordingResumed.trace.dropLast ++ .passed 4 (sequenceKey 4) :: [] := rfl
  exact ⟨_, _, htrace, passed_accounted hresumed htrace⟩

/-! ## A service whose requests do nothing -/

/-- A `crud` whose requests do nothing. -/
def idleCrud : CrudBase Unit Unit where
  codec := ⟨fun _ => [], fun _ => true, fun _ => (), fun _ => rfl, fun _ => rfl, rfl, rfl⟩
  setRequestHash _ request := request
  handleRequest _ _ _ := pure ()
  saveState _ := some []
  loadState _ store := (true, store)

def idleOperation (n : UInt64) : ServiceOperation Unit := ⟨n, [], (), [], none⟩

/-- The service after its first start. -/
def idleStart : DatabaseService Unit Unit := (start [] 1).final (blank default () [])

theorem idleStart_reached (Calls : DatabaseService Unit Unit → ServiceCall Unit → Prop)
    (Restarts : MemStorage → List (ServiceEvent Unit) → Prop) : Reached idleCrud [] Calls Restarts idleStart :=
  .first default () 1 (MemStorage.read_default []) rfl

/-- One round of the idle service. -/
theorem idle_round {s : DatabaseService Unit Unit} {text : Bytes} {op : ServiceOperation Unit}
    (hstored : s.stored [] s.nextRequestSequence = some text)
    (hop : s.operationsAwaitingResult[s.nextRequestSequence]? = some op) :
    (processRequest idleCrud [] text).runFrom s =
      (.ok (), (s.executed idleCrud op () ()).movedOn text (s.removedStorage [])) := by
  rw [processRequest_run hstored, hop]
  rfl

/-- The second operation has arrived and the first one has not. -/
def idleWaiting : DatabaseService Unit Unit :=
  (ServiceCall.program idleCrud [] (.apply (idleOperation 2))).final idleStart

/-- The process is killed and starts again, and the first operation arrives. -/
def idleResumed : DatabaseService Unit Unit :=
  (ServiceCall.program idleCrud [] (.apply (idleOperation 1))).final
    ((start [] 1).final (blank idleWaiting.unstableStorage () idleWaiting.trace))

/-- The second request is passed and was never executed. -/
theorem passed_unaccounted :
    Reached idleCrud [] (fun _ _ => True) (fun _ _ => True) idleResumed ∧
    ∃ before after, idleResumed.trace = before ++ .passed 2 [] :: after ∧ ¬ Accounted idleCrud before 2 [] := by
  have hwaiting : Reached idleCrud [] (fun _ _ => True) (fun _ _ => True) idleWaiting :=
    .call _ (idleStart_reached _ _) trivial rfl
  have htrace : idleResumed.trace =
      [.applied (idleOperation 2), .applied (idleOperation 1), .executed 1 [] (), .passed 1 []] ++
        .passed 2 [] :: [] := by rfl
  refine ⟨.call _ (.restart hwaiting .killed trivial () 1 rfl) trivial rfl, _, _, htrace, ?_⟩
  rintro (⟨request, hash, caller, -, h⟩ | ⟨m, -, h⟩) <;> simp at h

end DatabaseService

end SwarmDb
