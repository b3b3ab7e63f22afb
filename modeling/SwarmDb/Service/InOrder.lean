import SwarmDb.Service.ServiceRuns

/-!
# Requests are executed in order

In one lifetime of the process the sequences that are executed are consecutive but for the states that are loaded, and
each request is the first one that arrived for its sequence (`executed_inOrder`), as long as no operation has the last
sequence: after it the counter starts again at zero (`executed_wrapsAround`).
-/

namespace SwarmDb.DatabaseService

open Lib Program

variable {ρ σ : Type}

/-- The sequence that is executed next, after a history. -/
def expectedNext (trace : List (ServiceEvent ρ)) : UInt64 :=
  trace.foldl (fun next e =>
    match e with
    | .executed n _ _ => n + 1
    | .loaded n => n + 1
    | _ => next) 1

/-- The operation of an arrival for a sequence. -/
def appliedFor (n : UInt64) : ServiceEvent ρ → Option (ServiceOperation ρ)
  | .applied op => if op.sequence = n then some op else none
  | _ => none

/-- The first operation that arrived for a sequence. -/
def firstApplied (n : UInt64) (trace : List (ServiceEvent ρ)) : Option (ServiceOperation ρ) :=
  trace.findSome? (appliedFor n)

theorem firstApplied_append (n : UInt64) (l l' : List (ServiceEvent ρ)) :
    firstApplied n (l ++ l') = (firstApplied n l).or (firstApplied n l') :=
  List.findSome?_append

theorem firstApplied_concat_applied (n : UInt64) (l : List (ServiceEvent ρ)) (op : ServiceOperation ρ) :
    firstApplied n (l ++ [.applied op]) = (firstApplied n l).or (if op.sequence = n then some op else none) := by
  rw [firstApplied_append]
  simp [firstApplied, appliedFor]

/-- An event that is no arrival, no execution and no loaded state. -/
def Quiet : ServiceEvent ρ → Prop
  | .passed _ _ | .saved _ | .announced _ => True
  | _ => False

variable {l : List (ServiceEvent ρ)}

theorem expectedNext_append_quiet (trace : List (ServiceEvent ρ)) (hl : ∀ e ∈ l, Quiet e) :
    expectedNext (trace ++ l) = expectedNext trace := by
  induction l using List.reverseRecOn with
  | nil => rw [List.append_nil]
  | append_singleton _ e ih =>
    have he := hl e (by simp)
    rw [← List.append_assoc, expectedNext, List.foldl_append, ← expectedNext,
      ih fun e' he' => hl e' (List.mem_append_left _ he')]
    cases e <;> first | rfl | exact he.elim

theorem firstApplied_append_quiet (n : UInt64) (trace : List (ServiceEvent ρ)) (hl : ∀ e ∈ l, Quiet e) :
    firstApplied n (trace ++ l) = firstApplied n trace := by
  have hnone : firstApplied n l = none := by
    refine List.findSome?_eq_none_iff.mpr fun e he => ?_
    have hq := hl e he
    cases e <;> first | rfl | exact hq.elim
  rw [firstApplied_append, hnone, Option.or_none]

variable [Inhabited ρ]

/-- An executed request is the next one, comes after all that were executed
before, and is the first one that arrived. -/
def ExecutedInOrder (crud : CrudBase ρ σ) (before : List (ServiceEvent ρ)) : ServiceEvent ρ → Prop
  | .executed n caller request =>
    n = expectedNext before ∧ (∀ m caller' request', .executed m caller' request' ∈ before → m < n) ∧
      ∃ op, firstApplied n before = some op ∧ caller = op.sender ∧
        request = crud.setRequestHash op.requestHash op.databaseMsg
  | _ => True

/-- The history of a service and what it holds: each stored request has its
operation in memory, and those ahead are the first that arrived. -/
structure InOrder (crud : CrudBase ρ σ) (trace : List (ServiceEvent ρ)) (next : UInt64)
    (stored : UInt64 → Option Bytes) (operations : Map UInt64 (ServiceOperation ρ)) : Prop where
  ordered : Justified (ExecutedInOrder crud) trace
  expected : next = expectedNext trace
  below : ∀ m caller request, .executed m caller request ∈ trace → m < next
  held : ∀ n text, stored n = some text → ∃ op, operations[n]? = some op ∧ text = crud.codec.serialize op.databaseMsg
  arrived : ∀ n, next ≤ n → firstApplied n trace = (stored n).bind fun _ => operations[n]?
  bounded : stored (0 - 1) = none

section Kept

variable {crud : CrudBase ρ σ} {trace : List (ServiceEvent ρ)} {next : UInt64} {stored : UInt64 → Option Bytes}
  {operations : Map UInt64 (ServiceOperation ρ)} (h : InOrder crud trace next stored operations)

include h

theorem InOrder.quiet {l : List (ServiceEvent ρ)}
    (hl : ∀ e ∈ l, Quiet e) : InOrder crud (trace ++ l) next stored operations where
  ordered := h.ordered.append fun _ e he => by
    have hq := hl e he
    cases e <;> trivial
  expected := h.expected.trans (expectedNext_append_quiet trace hl).symm
  below m caller request hm := by
    rcases List.mem_append.mp hm with hm | hm
    · exact h.below m caller request hm
    · exact (hl _ hm).elim
  held := h.held
  arrived n hn := (firstApplied_append_quiet n trace hl).trans (h.arrived n hn)
  bounded := h.bounded

theorem InOrder.duplicate (op : ServiceOperation ρ)
    (taken : (stored op.sequence).isSome) : InOrder crud (trace ++ [.applied op]) next stored operations where
  ordered := justified_concat.mpr ⟨h.ordered, trivial⟩
  expected := by simpa [expectedNext] using h.expected
  below m caller request hm := h.below m caller request (by simpa using hm)
  held := h.held
  arrived n hn := by
    rw [firstApplied_concat_applied, ← h.arrived n hn]
    split
    · rename_i heq
      subst heq
      obtain ⟨text, htext⟩ := Option.isSome_iff_exists.mp taken
      obtain ⟨op', hop', -⟩ := h.held _ text htext
      rw [h.arrived _ hn, htext, Option.bind_some, hop', Option.some_or]
    · rw [Option.or_none]
  bounded := h.bounded

theorem InOrder.accept (op : ServiceOperation ρ)
    (free : stored op.sequence = none) (hlast : op.sequence ≠ 0 - 1) :
    InOrder crud (trace ++ [.applied op]) next
      (Function.update stored op.sequence (some (crud.codec.serialize op.databaseMsg)))
      (operations.insert op.sequence op) where
  ordered := justified_concat.mpr ⟨h.ordered, trivial⟩
  expected := by simpa [expectedNext] using h.expected
  below m caller request hm := h.below m caller request (by simpa using hm)
  held n text hn := by
    rw [Map.lookup_insert]
    rw [Function.update_apply] at hn
    by_cases heq : n = op.sequence
    · subst heq
      rw [if_pos rfl] at hn ⊢
      cases hn
      exact ⟨op, rfl, rfl⟩
    · rw [if_neg heq] at hn
      rw [if_neg (Ne.symm heq)]
      exact h.held n text hn
  arrived n hn := by
    rw [firstApplied_concat_applied, h.arrived n hn, Function.update_apply, Map.lookup_insert]
    by_cases heq : n = op.sequence
    · subst heq
      simp [free]
    · simp only [if_neg heq, if_neg (Ne.symm heq), Option.or_none]
  bounded := by
    rw [Function.update_of_ne (Ne.symm hlast)]
    exact h.bounded

variable {text : Bytes}

theorem InOrder.next_ne_last (hstored : stored next = some text) : next ≠ 0 - 1 := by
  rintro rfl
  rw [h.bounded] at hstored
  cases hstored

/-- A request is executed. -/
theorem InOrder.execute {request : ρ} {op : ServiceOperation ρ} (hstored : stored next = some text)
    (parses : crud.codec.parse text = some request) (hop : operations[next]? = some op) :
    InOrder crud (trace ++ [.executed next op.sender (crud.setRequestHash op.requestHash request)]) (next + 1)
      (Function.update stored next none) operations where
  ordered := by
    obtain ⟨op', hop', htext⟩ := h.held next text hstored
    rw [hop] at hop'
    cases hop'
    rw [htext, Codec.parse_serialize] at parses
    cases parses
    refine justified_concat.mpr ⟨h.ordered, h.expected, h.below, op, ?_, rfl, rfl⟩
    rw [h.arrived next (UInt64.le_refl _), hstored, Option.bind_some, hop]
  expected := by simp [expectedNext]
  below m caller r hm := by
    have hsucc := toNat_add_one (h.next_ne_last hstored)
    rw [UInt64.lt_iff_toNat_lt, hsucc]
    rcases List.mem_append.mp hm with hm | hm
    · have := UInt64.lt_iff_toNat_lt.mp (h.below m caller r hm)
      omega
    · cases List.mem_singleton.mp hm
      omega
  held n t hn := by
    rw [Function.update_apply] at hn
    split at hn
    · cases hn
    · exact h.held n t hn
  arrived n hn := by
    have hsucc := toNat_add_one (h.next_ne_last hstored)
    rw [UInt64.le_iff_toNat_le, hsucc] at hn
    have hne : n ≠ next := by
      rintro rfl
      omega
    rw [Function.update_of_ne hne, ← h.arrived n (UInt64.le_iff_toNat_le.mpr (by omega))]
    simp [firstApplied, appliedFor]
  bounded := by
    rw [Function.update_of_ne (Ne.symm (h.next_ne_last hstored))]
    exact h.bounded

/-- A state is loaded. -/
theorem InOrder.load {n : UInt64} (ahead : next ≤ n)
    (hlast : n ≠ 0 - 1) :
    InOrder crud (trace ++ [.loaded n]) (n + 1) (fun m => if next ≤ m ∧ m ≤ n then none else stored m) operations where
  ordered := justified_concat.mpr ⟨h.ordered, trivial⟩
  expected := by simp [expectedNext]
  below m caller request hm := by
    have hlt := UInt64.lt_iff_toNat_lt.mp (h.below m caller request (by simpa using hm))
    have hle := UInt64.le_iff_toNat_le.mp ahead
    rw [UInt64.lt_iff_toNat_lt, toNat_add_one hlast]
    omega
  held m text hm := by
    split at hm
    · cases hm
    · exact h.held m text hm
  arrived m hm := by
    rw [UInt64.le_iff_toNat_le, toNat_add_one hlast] at hm
    have hle := UInt64.le_iff_toNat_le.mp ahead
    have hout : ¬ (next ≤ m ∧ m ≤ n) := fun h => by
      have := UInt64.le_iff_toNat_le.mp h.2
      omega
    rw [if_neg hout, ← h.arrived m (UInt64.le_iff_toNat_le.mpr (by omega))]
    simp [firstApplied, appliedFor]
  bounded := by
    split
    · rfl
    · exact h.bounded

end Kept

variable {crud : CrudBase ρ σ} {uuid : Uuid}

theorem Step.inOrder {s s' : DatabaseService ρ σ} (h : Step crud uuid (fun op => op.sequence ≠ 0 - 1) s s')
    (hs : InOrder crud s.trace s.nextRequestSequence (s.stored uuid) s.operationsAwaitingResult) :
    InOrder crud s'.trace s'.nextRequestSequence (s'.stored uuid) s'.operationsAwaitingResult := by
  cases h with
  | duplicate op _ taken => exact hs.duplicate op taken
  | accept op st arrives free holds =>
    have hstored : (s.accepted op st).stored uuid = _ := funext holds.stored
    rw [hstored]
    exact hs.accept op free arrives
  | round h =>
    cases h with
    | skip _ _ _ stored _ idle =>
      obtain ⟨op, hop, -⟩ := hs.held _ _ stored
      rw [idle] at hop
      cases hop
    | execute text st request op store stored parses held _ holds =>
      have hstored : ((s.executed crud op request store).movedOn text st).stored uuid = _ := funext holds.stored
      rw [hstored]
      have hquiet : ∀ e ∈ s.savedEvents crud store ++ [.passed s.nextRequestSequence text], Quiet e := by
        intro e he
        rcases List.mem_append.mp he with he | he
        · rw [eq_of_mem_savedEvents he]
          trivial
        · rw [List.mem_singleton.mp he]
          trivial
      have hall := (hs.execute stored parses held).quiet hquiet
      rw [List.append_assoc, List.singleton_append] at hall
      rw [movedOn, executed, List.append_assoc, List.cons_append]
      exact hall
  | refuse => exact hs
  | load n data st ahead ends _ holds =>
    have hstored : (s.loadedState n data (crud.loadState data s.store).2 st).stored uuid = _ := funext holds.stored
    rw [hstored]
    exact hs.load ahead ends

theorem InOrder.handled {s : DatabaseService ρ σ}
    (hs : InOrder crud s.trace s.nextRequestSequence (s.stored uuid) s.operationsAwaitingResult) (i : Nat)
    (op : ServiceOperation ρ) :
    InOrder crud (s.handled i op).trace (s.handled i op).nextRequestSequence ((s.handled i op).stored uuid)
      (s.handled i op).operationsAwaitingResult := by
  rw [DatabaseService.handled]
  split
  · exact hs.quiet fun e he => by rw [List.mem_singleton.mp he]; trivial
  · exact hs

/-- In one lifetime, without an operation for the last sequence, an executed
sequence is the next one and greater than all before, and its request is the
first one that arrived for it. -/
theorem executed_inOrder {s : DatabaseService ρ σ}
    (h : Reached crud uuid (fun _ c => ∀ op, c = .apply op → op.sequence ≠ 0 - 1) (fun _ _ => False) s)
    {before after : List (ServiceEvent ρ)} {n : UInt64} {caller : Uuid} {request : ρ}
    (hexecuted : s.trace = before ++ .executed n caller request :: after) :
    n = expectedNext before ∧ (∀ m caller' request', .executed m caller' request' ∈ before → m < n) ∧
      ∃ op, firstApplied n before = some op ∧ caller = op.sender ∧
        request = crud.setRequestHash op.requestHash op.databaseMsg := by
  have hs : InOrder crud s.trace s.nextRequestSequence (s.stored uuid) s.operationsAwaitingResult := by
    refine h.invariant (J := fun _ _ => True) (fun _ op hc => hc op rfl) ?_ (fun _ _ hs hst => hst.inOrder hs)
      (fun _ i op hs _ => hs.handled i op) (fun _ _ => trivial) (fun _ _ _ => trivial) (fun _ _ _ _ =>
        trivial) fun _ _ _ _ h => h.elim
    intro st s hempty hstart
    have hnone : s.stored uuid = fun _ => none := funext fun n => (hstart.stored n).trans (hempty _)
    have hnext : s.nextRequestSequence = 1 := by
      rcases hstart.next with ⟨-, h⟩ | ⟨text, ht, -⟩
      · exact h
      · rw [hempty] at ht
        cases ht
    rw [hnone, hnext, hstart.trace, hstart.operations]
    exact ⟨justified_nil _, rfl, fun _ _ _ h => (by cases h), fun _ _ h => (by cases h), fun _ _ => rfl, rfl⟩
  exact hs.ordered before _ after hexecuted

/-- A state up to 2 is loaded, two operations for 4 arrive and then one for 3. -/
theorem executed_inOrder_loaded :
    let before : List (ServiceEvent Bytes) := [.loaded 2, .applied (recordedOperation 4),
      .applied { recordedOperation 4 with databaseMsg := ascii "other" }, .applied (recordedOperation 3),
      .executed 3 [] (sequenceKey 3), .passed 3 (sequenceKey 3)]
    4 = expectedNext before ∧ (∀ m caller request, .executed m caller request ∈ before → m < 4) ∧
      ∃ op, firstApplied 4 before = some op ∧ [] = op.sender ∧
        sequenceKey 4 = recordingCrud.setRequestHash op.requestHash op.databaseMsg := by
  let l : List (ServiceCall Bytes) := [.setState 2 (ascii "12"), .apply (recordedOperation 4),
    .apply { recordedOperation 4 with databaseMsg := ascii "other" }, .apply (recordedOperation 3)]
  have hreached : Reached recordingCrud [] _ (fun _ _ => False) ((calls l).final recordingStart) :=
    (recordingStart_reached _ _).calls (by simp [l, recordedOperation]; decide) rfl
  have htrace : ((calls l).final recordingStart).trace = [.loaded 2, .applied (recordedOperation 4),
      .applied { recordedOperation 4 with databaseMsg := ascii "other" }, .applied (recordedOperation 3),
      .executed 3 [] (sequenceKey 3), .passed 3 (sequenceKey 3)] ++
        .executed 4 [] (sequenceKey 4) :: [.passed 4 (sequenceKey 4)] := rfl
  exact executed_inOrder hreached htrace

/-! ## The counter wraps around -/

/-- A service that waits for the last sequence and holds the requests of some
others. -/
structure AtLast (held : List UInt64) (s : DatabaseService Unit Unit) : Prop where
  next : s.nextRequestSequence = 0 - 1
  stored : ∀ n, s.stored [] n = if n ∈ held then some [] else none
  operations : ∀ n ∈ held, s.operationsAwaitingResult[n]? = some (idleOperation n)

/-- A state for the sequence before the last is loaded. -/
theorem atLast_nil_reached : ∃ s, Reached idleCrud [] (fun _ _ => True) (fun _ _ => False) s ∧ AtLast [] s := by
  obtain ⟨s₀, hreached, hnext, hnone⟩ : ∃ s₀, Reached idleCrud [] (fun _ _ => True) (fun _ _ => False) s₀ ∧
      s₀.nextRequestSequence = 1 ∧ ∀ n, s₀.stored [] n = none := by
    have hrun : (start [] 1).runFrom (blank default () []) = (.ok (), idleStart) := rfl
    have hstored := (start_ok hrun).1.stored
    exact ⟨idleStart, idleStart_reached _ _, rfl, fun n => (hstored n).trans (MemStorage.read_default [] _)⟩
  have hwrap : (0 - 2 : UInt64) + 1 = 0 - 1 := by decide
  have hahead : s₀.nextRequestSequence ≤ 0 - 2 := by
    rw [hnext]
    decide
  have hends : (0 - 2 : UInt64) ≠ 0 - 1 := by decide
  have hround : ∀ s text, AtLast [] s → s.stored [] s.nextRequestSequence = some text →
      ∃ s', (processRequest idleCrud [] text).runFrom s = (.ok (), s') ∧ AtLast [] s' := by
    intro s text hs h
    rw [hs.stored, if_neg List.not_mem_nil] at h
    cases h
  have hload : (idleCrud.loadState [] s₀.store).1 = true := rfl
  obtain ⟨s, hr, hs, -⟩ := setServiceState_total hround hahead hends hload fun st holds => by
    refine ⟨hwrap, fun n => (holds.stored n).trans ?_, fun n hn => (by cases hn)⟩
    rw [hnone, ite_self, if_neg List.not_mem_nil]
  exact ⟨s, hreached.of_run trivial (program_setState hr), hs⟩

/-- The operation of sequence zero arrives. -/
theorem atLast_zero_reached : ∃ s, Reached idleCrud [] (fun _ _ => True) (fun _ _ => False) s ∧ AtLast [0] s := by
  obtain ⟨s, hreached, hs⟩ := atLast_nil_reached
  have haccepted : ∀ st, HoldsRequests [] st (Function.update (s.stored []) (idleOperation 0).sequence (some []))
      (s.persistedNext []) → AtLast [0] (s.accepted (idleOperation 0) st) := by
    intro st holds
    refine ⟨hs.next, fun n => (holds.stored n).trans ?_, fun n hn => ?_⟩
    · simp [Function.update_apply, hs.stored, idleOperation]
    · rw [List.mem_singleton.mp hn, accepted]
      exact Std.ExtTreeMap.getElem?_insert_self
  have hround : ∀ s text, AtLast [0] s → s.stored [] s.nextRequestSequence = some text →
      ∃ s', (processRequest idleCrud [] text).runFrom s = (.ok (), s') ∧ AtLast [0] s' := by
    intro s text hs h
    rw [hs.stored, hs.next, if_neg (by decide)] at h
    cases h
  have hfree : s.stored [] (idleOperation 0).sequence = none := (hs.stored 0).trans (if_neg List.not_mem_nil)
  obtain ⟨s', hr, hs', -⟩ := applyOperation_total hround hfree (Nat.zero_le _) haccepted
  have hcall : (ServiceCall.program idleCrud [] (.apply (idleOperation 0))).runFrom s = (.ok (), s') := hr
  exact ⟨s', hreached.of_run trivial hcall, hs'⟩

/-- What holds in the rounds after the operation of the last sequence arrived:
the last request is executed, then that of sequence zero. -/
inductive Wrapping (s : DatabaseService Unit Unit) : Prop where
  | last (h : AtLast [0 - 1, 0] s)
  | zero (next : s.nextRequestSequence = 0) (stored : s.stored [] 0 = some []) (empty : s.stored [] 1 = none)
      (held : s.operationsAwaitingResult[(0 : UInt64)]? = some (idleOperation 0))
      (executed : .executed (0 - 1) [] () ∈ s.trace)
  | done (before after : List (ServiceEvent Unit)) (next : s.nextRequestSequence = 1) (stored : s.stored [] 1 = none)
      (trace : s.trace = before ++ .executed 0 [] () :: after)
      (executed : .executed (0 - 1) [] () ∈ before)

/-- The last sequence is executed, and then sequence zero. -/
theorem executed_wrapsAround :
    ∃ s before after, Reached idleCrud [] (fun _ _ => True) (fun _ _ => False) s ∧
      s.trace = before ++ .executed 0 [] () :: after ∧ .executed (0 - 1) [] () ∈ before := by
  obtain ⟨s, hreached, hs⟩ := atLast_zero_reached
  have haccepted : ∀ st, HoldsRequests [] st (Function.update (s.stored []) (idleOperation (0 - 1)).sequence (some []))
      (s.persistedNext []) → Wrapping (s.accepted (idleOperation (0 - 1)) st) := by
    intro st holds
    refine .last ⟨hs.next, fun n => (holds.stored n).trans ?_, fun n hn => ?_⟩
    · simp only [Function.update_apply, hs.stored, idleOperation, List.mem_cons]
      split <;> simp_all
    · rw [accepted]
      simp only [List.mem_cons, List.not_mem_nil, or_false] at hn
      rcases hn with rfl | rfl
      · exact Std.ExtTreeMap.getElem?_insert_self
      · exact (Map.lookup_insert ..).trans ((if_neg (by decide)).trans (hs.operations 0 (by simp)))
  have hround : ∀ s text, Wrapping s → s.stored [] s.nextRequestSequence = some text →
      ∃ s', (processRequest idleCrud [] text).runFrom s = (.ok (), s') ∧ Wrapping s' := by
    intro s text hs hstored
    have hremoved := (requestRemoved [] s).stored
    cases hs with
    | last h =>
      have hop : s.operationsAwaitingResult[s.nextRequestSequence]? = some (idleOperation (0 - 1)) := by
        rw [h.next]
        exact h.operations _ List.mem_cons_self
      refine ⟨_, idle_round hstored hop, .zero ?_ ?_ ?_ (h.operations 0 (by decide)) ?_⟩
      · exact (congrArg (· + 1) h.next).trans (by decide)
      · refine (hremoved 0).trans ?_
        rw [h.next, Function.update_of_ne (by decide), h.stored, if_pos (by decide)]
      · refine (hremoved 1).trans ?_
        rw [h.next, Function.update_of_ne (by decide), h.stored, if_neg (by decide)]
      · simp [movedOn, executed, h.next, idleOperation]
    | zero next stored empty held hexecuted =>
      have hop : s.operationsAwaitingResult[s.nextRequestSequence]? = some (idleOperation 0) := by
        rw [next]
        exact held
      refine ⟨_, idle_round hstored hop, .done s.trace
        (s.savedEvents idleCrud () ++ [.passed 0 text]) ?_ ?_ ?_ hexecuted⟩
      · exact (congrArg (· + 1) next).trans (by decide)
      · refine (hremoved 1).trans ?_
        rw [next, Function.update_of_ne (by decide), empty]
      · simp [movedOn, executed, next, idleOperation, idleCrud]
    | done before after next stored trace executed =>
      rw [next, stored] at hstored
      cases hstored
  have hfree : s.stored [] (idleOperation (0 - 1)).sequence = none := (hs.stored (0 - 1)).trans (if_neg (by decide))
  obtain ⟨s', hr, hs', hend⟩ := applyOperation_total hround hfree (Nat.zero_le _) haccepted
  cases hs' with
  | last h =>
    rw [h.stored, h.next] at hend
    cases hend
  | zero next stored empty held executed =>
    rw [next, stored] at hend
    cases hend
  | done before after next stored trace executed =>
    have hcall : (ServiceCall.program idleCrud [] (.apply (idleOperation (0 - 1)))).runFrom s = (.ok (), s') := hr
    exact ⟨s', before, after, hreached.of_run trivial hcall, trace, executed⟩

end SwarmDb.DatabaseService
