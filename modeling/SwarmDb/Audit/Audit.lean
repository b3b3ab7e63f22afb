import SwarmDb.Lib.LargestKeys
import SwarmDb.Proto.Messages

/-!
# Audit

`audit`: a node that listens to what the others commit and who says to be primary, and reports where two of them
disagree. It remembers a bounded number of sequences and views: the largest ones of all that it was sent
(`Recorded.run`).
-/

namespace SwarmDb

open Lib

/-- The counters that the audit sends to the monitor. -/
inductive Statistic where
  | pbftPrimaryAlive
  | pbftPrimaryConflict
  | pbftCommit
  | pbftCommitConflict
  | pbftFailureDetected
  | pbftNoPrimary
  deriving DecidableEq, Repr

/-- How a timer ends. -/
inductive TimerEnd where
  | expired
  | canceled
  | failed
  deriving DecidableEq, Repr

structure Audit where
  memSize : Nat
  recordedPrimaries : Map UInt64 Uuid
  recordedPbftCommits : Map UInt64 Bytes
  /-- The counters sent so far. -/
  counters : List Statistic

namespace Audit

/-- A new audit. -/
def new (memSize : Nat) : Audit := ⟨memSize, ∅, ∅, []⟩

def sendCounter (a : Audit) (statistic : Statistic) : Audit := { a with counters := a.counters ++ [statistic] }

def trim (a : Audit) : Audit :=
  { a with
    recordedPrimaries := Map.trim a.memSize a.recordedPrimaries
    recordedPbftCommits := Map.trim a.memSize a.recordedPbftCommits }

def handlePrimaryStatus (a : Audit) (view : UInt64) (primary : Uuid) : Audit :=
  match a.recordedPrimaries[view]? with
  | none =>
    let a := a.sendCounter .pbftPrimaryAlive
    { a with recordedPrimaries := a.recordedPrimaries.insert view primary }.trim
  | some recorded => if recorded ≠ primary then a.sendCounter .pbftPrimaryConflict else a

def handlePbftCommit (a : Audit) (operation : Bytes) (sequenceNumber : UInt64) : Audit :=
  let a := a.sendCounter .pbftCommit
  match a.recordedPbftCommits[sequenceNumber]? with
  | none => { a with recordedPbftCommits := a.recordedPbftCommits.insert sequenceNumber operation }.trim
  | some recorded => if recorded ≠ operation then a.sendCounter .pbftCommitConflict else a

def handleFailureDetected (a : Audit) : Audit := a.sendCounter .pbftFailureDetected

def handlePrimaryAliveTimeout (a : Audit) (timer : TimerEnd) : Audit :=
  match timer with
  | .expired => a.sendCounter .pbftNoPrimary
  | .canceled | .failed => a

def currentMemorySize (a : Audit) : Nat := a.recordedPbftCommits.size + a.recordedPrimaries.size

/-- `handle`, once the message is parsed; an unknown one is only logged. -/
def handleMessage (a : Audit) : AuditMessage → Audit
  | .pbftCommit operation sequenceNumber _ => a.handlePbftCommit operation sequenceNumber
  | .primaryStatus view primary => a.handlePrimaryStatus view primary
  | .failureDetected _ => a.handleFailureDetected
  | .notSet => a

/-- `handle`: a message that does not parse is handled as far as it was read. -/
def handle (wire : Wire) (a : Audit) (env : BznEnvelope) : Audit :=
  let text := match env.payload with
    | .audit text => text
    | _ => []
  a.handleMessage (wire.auditMessage.decode text)

/-! ## Runs -/

/-- What an audit reacts to. -/
inductive Event where
  | message (message : AuditMessage)
  | primaryAliveTimeout (timer : TimerEnd)
  deriving DecidableEq, Repr

def step (a : Audit) : Event → Audit
  | .message message => a.handleMessage message
  | .primaryAliveTimeout timer => a.handlePrimaryAliveTimeout timer

/-- A new audit after some events. -/
def run (memSize : Nat) (events : List Event) : Audit := events.foldl step (new memSize)

/-- The sequence and the operation of a commit notification. -/
def Event.commit? : Event → Option (UInt64 × Bytes)
  | .message (.pbftCommit operation sequenceNumber _) => some (sequenceNumber, operation)
  | _ => none

/-- The view and the primary of a status. -/
def Event.primary? : Event → Option (UInt64 × Uuid)
  | .message (.primaryStatus view primary) => some (view, primary)
  | _ => none

/-- What was recorded is what came in, as far as the memory reaches. -/
structure Recorded (memSize : Nat) (events : List Event) (a : Audit) : Prop where
  bound : a.memSize = memSize
  commits : Map.KeepsLargest memSize (events.filterMap Event.commit?) a.recordedPbftCommits
  primaries : Map.KeepsLargest memSize (events.filterMap Event.primary?) a.recordedPrimaries

/-- A commit goes to its record; the other one has nothing to trim. -/
theorem handlePbftCommit_record (a : Audit) (operation : Bytes) (sequenceNumber : UInt64)
    (hprimaries : a.recordedPrimaries.size ≤ a.memSize) :
    (a.handlePbftCommit operation sequenceNumber).memSize = a.memSize ∧
      (a.handlePbftCommit operation sequenceNumber).recordedPrimaries = a.recordedPrimaries ∧
      (a.handlePbftCommit operation sequenceNumber).recordedPbftCommits =
        Map.record a.memSize a.recordedPbftCommits sequenceNumber operation := by
  rw [handlePbftCommit, sendCounter, Map.record, Std.ExtTreeMap.contains_eq_isSome_getElem?]
  dsimp only
  cases a.recordedPbftCommits[sequenceNumber]? with
  | none => exact ⟨rfl, Map.trim_of_le hprimaries, rfl⟩
  | some =>
    dsimp only
    split
    · exact ⟨rfl, rfl, rfl⟩
    · exact ⟨rfl, rfl, rfl⟩

theorem handlePrimaryStatus_record (a : Audit) (view : UInt64) (primary : Uuid)
    (hcommits : a.recordedPbftCommits.size ≤ a.memSize) :
    (a.handlePrimaryStatus view primary).memSize = a.memSize ∧
      (a.handlePrimaryStatus view primary).recordedPbftCommits = a.recordedPbftCommits ∧
      (a.handlePrimaryStatus view primary).recordedPrimaries =
        Map.record a.memSize a.recordedPrimaries view primary := by
  rw [handlePrimaryStatus, Map.record, Std.ExtTreeMap.contains_eq_isSome_getElem?]
  cases a.recordedPrimaries[view]? with
  | none => exact ⟨rfl, Map.trim_of_le hcommits, rfl⟩
  | some =>
    dsimp only
    split
    · exact ⟨rfl, rfl, rfl⟩
    · exact ⟨rfl, rfl, rfl⟩

variable {memSize : Nat} {events : List Event} {a : Audit}

/-- One event more. -/
theorem Recorded.step (h : Recorded memSize events a) (event : Event) :
    Recorded memSize (events ++ [event]) (a.step event) := by
  -- an event that is neither a commit nor a status leaves the records alone
  have hother : ∀ b : Audit, event.commit? = none → event.primary? = none → b.memSize = a.memSize →
      b.recordedPbftCommits = a.recordedPbftCommits → b.recordedPrimaries = a.recordedPrimaries →
      Recorded memSize (events ++ [event]) b := fun b hcommit hprimary hmemSize hcommits hprimaries => by
    refine ⟨hmemSize.trans h.bound, ?_, ?_⟩
    · rw [List.filterMap_append, List.filterMap_cons_none hcommit, List.filterMap_nil, List.append_nil, hcommits]
      exact h.commits
    · rw [List.filterMap_append, List.filterMap_cons_none hprimary, List.filterMap_nil, List.append_nil, hprimaries]
      exact h.primaries
  cases event with
  | primaryAliveTimeout timer => cases timer <;> exact hother _ rfl rfl rfl rfl rfl
  | message message =>
    cases message with
    | notSet | failureDetected => exact hother _ rfl rfl rfl rfl rfl
    | pbftCommit operation sequenceNumber =>
      obtain ⟨hmemSize, hprimaries, hcommits⟩ := a.handlePbftCommit_record operation sequenceNumber
        (h.bound ▸ h.primaries.size_le)
      refine ⟨hmemSize.trans h.bound, ?_, ?_⟩
      · rw [List.filterMap_append, Audit.step, handleMessage, hcommits, h.bound]
        exact h.commits.record sequenceNumber operation
      · rw [List.filterMap_append, Audit.step, handleMessage, hprimaries]
        exact (List.append_nil _).symm ▸ h.primaries
    | primaryStatus view primary =>
      obtain ⟨hmemSize, hcommits, hprimaries⟩ := a.handlePrimaryStatus_record view primary
        (h.bound ▸ h.commits.size_le)
      refine ⟨hmemSize.trans h.bound, ?_, ?_⟩
      · rw [List.filterMap_append, Audit.step, handleMessage, hcommits]
        exact (List.append_nil _).symm ▸ h.commits
      · rw [List.filterMap_append, Audit.step, handleMessage, hprimaries, h.bound]
        exact h.primaries.record view primary

theorem run_concat (memSize : Nat) (events : List Event) (event : Event) :
    run memSize (events ++ [event]) = (run memSize events).step event := by
  rw [run, List.foldl_append]
  rfl

theorem Recorded.run (memSize : Nat) (events : List Event) : Recorded memSize events (run memSize events) := by
  induction events using List.reverseRecOn with
  | nil => exact ⟨rfl, Map.KeepsLargest.empty, Map.KeepsLargest.empty⟩
  | append_singleton _ event ih =>
    rw [run_concat]
    exact ih.step event

/-! ## Conflicts -/

/-- Whether an event is a commit of another operation than the recorded one. -/
def conflictingCommit (a : Audit) (event : Event) : Bool :=
  event.commit?.any fun e => (a.recordedPbftCommits[e.1]?).any fun recorded => recorded ≠ e.2

/-- Whether an event names another primary than the recorded one. -/
def conflictingPrimary (a : Audit) (event : Event) : Bool :=
  event.primary?.any fun e => (a.recordedPrimaries[e.1]?).any fun recorded => recorded ≠ e.2

/-- The counters that an event sends. -/
def sent (a : Audit) (event : Event) : List Statistic :=
  match event with
  | .message (.pbftCommit ..) => .pbftCommit :: if a.conflictingCommit event then [.pbftCommitConflict] else []
  | .message (.primaryStatus view _) =>
    if (a.recordedPrimaries[view]?).isNone then [.pbftPrimaryAlive]
    else if a.conflictingPrimary event then [.pbftPrimaryConflict] else []
  | .message (.failureDetected _) => [.pbftFailureDetected]
  | .primaryAliveTimeout .expired => [.pbftNoPrimary]
  | _ => []

theorem step_counters (a : Audit) (event : Event) : (a.step event).counters = a.counters ++ a.sent event := by
  cases event with
  | primaryAliveTimeout timer =>
    cases timer with
    | expired => rfl
    | canceled | failed => exact (List.append_nil _).symm
  | message message =>
    cases message with
    | notSet => exact (List.append_nil _).symm
    | failureDetected => rfl
    | primaryStatus view primary =>
      rw [step, handleMessage, handlePrimaryStatus, sent, conflictingPrimary, Event.primary?, Option.any_some]
      cases a.recordedPrimaries[view]? with
      | none => rfl
      | some recorded =>
        by_cases hconflict : recorded = primary
        · simp [hconflict]
        · simp [hconflict, sendCounter]
    | pbftCommit operation sequenceNumber =>
      rw [step, handleMessage, handlePbftCommit, sendCounter, sent, conflictingCommit, Event.commit?, Option.any_some]
      dsimp only
      cases a.recordedPbftCommits[sequenceNumber]? with
      | none => rfl
      | some recorded =>
        by_cases hconflict : recorded = operation
        · simp [hconflict]
        · simp [hconflict, sendCounter]

/-- A counter that some events send once, and the others not, counts those events. -/
theorem count_run {statistic : Statistic} {counts : Audit → Event → Bool}
    (h : ∀ a event, (a.sent event).count statistic = if counts a event then 1 else 0) (memSize : Nat)
    (events : List Event) :
    (run memSize events).counters.count statistic =
      (List.range events.length).countP fun i => (events[i]?).any (counts (run memSize (events.take i))) := by
  induction events using List.reverseRecOn with
  | nil => rfl
  | append_singleton events event ih =>
    have hbefore : ∀ i ∈ List.range events.length,
        ((events ++ [event])[i]?).any (counts (run memSize ((events ++ [event]).take i))) =
          (events[i]?).any (counts (run memSize (events.take i))) := fun i hi => by
      have hlt := List.mem_range.mp hi
      rw [List.getElem?_append_left hlt, List.take_append_of_le_length (Nat.le_of_lt hlt)]
    rw [run_concat, step_counters, List.count_append, h, ih, List.length_append, List.length_singleton, List.range_succ,
      List.countP_append, List.countP_singleton, List.getElem?_append_right (Nat.le_refl _), Nat.sub_self,
      List.take_left]
    congr 1
    exact List.countP_congr fun i hi => by rw [hbefore i hi]

theorem count_sent_commitConflict (a : Audit) (event : Event) :
    (a.sent event).count .pbftCommitConflict = if a.conflictingCommit event then 1 else 0 := by
  cases event with
  | primaryAliveTimeout timer => cases timer <;> rfl
  | message message =>
    cases message with
    | notSet | failureDetected => rfl
    | primaryStatus =>
      rw [sent]
      split
      · rfl
      · split <;> rfl
    | pbftCommit =>
      rw [sent]
      split <;> rfl

theorem count_sent_primaryConflict (a : Audit) (event : Event) :
    (a.sent event).count .pbftPrimaryConflict = if a.conflictingPrimary event then 1 else 0 := by
  cases event with
  | primaryAliveTimeout timer => cases timer <;> rfl
  | message message =>
    cases message with
    | notSet | failureDetected => rfl
    | primaryStatus =>
      rw [sent]
      split
      · rename_i hnone
        rw [conflictingPrimary, Event.primary?, Option.any_some, Option.isNone_iff_eq_none.mp hnone]
        rfl
      · split <;> rfl
    | pbftCommit =>
      rw [sent]
      split <;> rfl

theorem largerKeys_eq {ν : Type} (seen : List (UInt64 × ν)) (k : UInt64) :
    Map.largerKeys seen k = (seen.map Prod.fst).toFinset.filter fun a => k < a :=
  Finset.filter_congr fun _ _ => Std.compare_eq_lt

/-- After any events the audit remembers the largest sequences with their first
operations, and has reported each conflict with what it remembered; the same for the
views and their primaries. -/
theorem audit_exact (memSize : Nat) (events : List Event) :
    let commits := events.filterMap Event.commit?
    let primaries := events.filterMap Event.primary?
    (∀ sequence operation, (run memSize events).recordedPbftCommits[sequence]? = some operation ↔
      commits.lookup sequence = some operation ∧
        ((commits.map Prod.fst).toFinset.filter fun other => sequence < other).card < memSize) ∧
    (run memSize events).counters.count .pbftCommitConflict =
      ((List.range events.length).countP fun i =>
        (events[i]?).any (conflictingCommit (run memSize (events.take i)))) ∧
    (∀ view primary, (run memSize events).recordedPrimaries[view]? = some primary ↔
      primaries.lookup view = some primary ∧
        ((primaries.map Prod.fst).toFinset.filter fun other => view < other).card < memSize) ∧
    (run memSize events).counters.count .pbftPrimaryConflict =
      ((List.range events.length).countP fun i =>
        (events[i]?).any (conflictingPrimary (run memSize (events.take i)))) := by
  have hrecorded := Recorded.run memSize events
  refine ⟨fun sequence operation => ?_, count_run count_sent_commitConflict memSize events, fun view primary => ?_,
    count_run count_sent_primaryConflict memSize events⟩
  · rw [← largerKeys_eq]
    exact hrecorded.commits.lookup_eq_some_iff sequence operation
  · rw [← largerKeys_eq]
    exact hrecorded.primaries.lookup_eq_some_iff view primary

end Audit

end SwarmDb
