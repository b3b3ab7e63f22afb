import SwarmDb.Lib.Bytes
import SwarmDb.Lib.History
import SwarmDb.Lib.Map

/-!
# Monitor

`monitor`: a node sends counters and durations to an endpoint, as texts. It remembers the latest starts of timers up to
a bound, in a map from ids to times (`startTimes`) and a queue of ids in the order of their starts (`orderedTimers`),
from the front of which it forgets them.

The purpose of the two is said by `Starts`, the history of the starts that had an effect; `Tracks` relates a monitor to
it. A timer that is started again before its id has left the queue is forgotten with the earlier start, so that the
relation is kept by the calls that are `Apart` (`Tracks.call`, `Tracks.after`). After such calls, finishing a timer
reports the time since its start exactly where it runs (`finishTimer_reports`).
-/

namespace SwarmDb

open Lib

namespace Monitor

/-- `statistic` -/
inductive Statistic where
  | hashComputed
  | hashComputedBytes
  | signatureComputed
  | signatureComputedBytes
  | signatureVerified
  | signatureVerifiedBytes
  | signatureRejected
  | sessionOpened
  | messageSent
  | messageSentBytes
  | pbftNoPrimary
  | pbftPrimaryAlive
  | pbftFailureDetected
  | pbftCommitConflict
  | pbftPrimaryConflict
  | pbftCommit
  | requestLatency
  deriving DecidableEq, Repr

/-- `statistic_names` -/
def statisticNames : Statistic → Bytes
  | .hashComputed => ascii "crypto.hashes_computed"
  | .hashComputedBytes => ascii "crypto.bytes_hashed"
  | .signatureComputed => ascii "crypto.signatures_computed"
  | .signatureComputedBytes => ascii "crypto.bytes_signed"
  | .signatureVerified => ascii "crypto.signatures_verified"
  | .signatureVerifiedBytes => ascii "crypto.bytes_verified"
  | .signatureRejected => ascii "crypto.signatures_rejected"
  | .sessionOpened => ascii "node.sessions_opened"
  | .messageSent => ascii "node.messages_sent"
  | .messageSentBytes => ascii "node.bytes_sent"
  | .pbftNoPrimary => ascii "pbft.liveness.no_primary"
  | .pbftPrimaryAlive => ascii "pbft.liveness.primary_alive"
  | .pbftCommit => ascii "pbft.liveness.commit"
  | .pbftFailureDetected => ascii "pbft.liveness.failure_detected"
  | .pbftCommitConflict => ascii "pbft.safety.commit_conflict"
  | .pbftPrimaryConflict => ascii "pbft.safety.primary_conflict"
  | .requestLatency => ascii "total-server-latency"

/-- The options that the monitor reads at each call. -/
structure Options where
  monitorMaxTimers : UInt64
  monitorCollate : Bool
  monitorCollateIntervalSeconds : UInt64

end Monitor

structure Monitor (ε : Type) where
  options : Monitor.Options
  monitorEndpoint : Option ε
  scopePrefix : Bytes
  timeLastSent : UInt64
  /-- The amounts of `accumulated_stats` with the statistics they are for. -/
  accumulatedStats : List (Monitor.Statistic × UInt64)
  orderedTimers : List Bytes
  startTimes : Map Bytes UInt64
  /-- The texts given to the socket so far. -/
  sent : List (ε × Bytes)

namespace Monitor

variable {ε : Type} {starts : Starts}

/-- A new monitor. -/
def new (options : Options) (monitorEndpoint : Option ε) (stack swarmId uuid : Bytes) (now : UInt64) : Monitor ε where
  options := options
  monitorEndpoint := monitorEndpoint
  scopePrefix := ascii "com.bluzelle." ++ stack ++ ascii "." ++ swarmId ++ ascii ".swarmdb." ++ uuid
  timeLastSent := now
  accumulatedStats := []
  orderedTimers := []
  startTimes := ∅
  sent := []

/-- The loop at the end of `start_timer`: forget the earliest starts above the bound. -/
def forget (limit : Nat) : List Bytes → Map Bytes UInt64 → List Bytes × Map Bytes UInt64
  | [], startTimes => ([], startTimes)
  | front :: rest, startTimes =>
    if limit < (front :: rest).length then forget limit rest (startTimes.erase front) else (front :: rest, startTimes)

def startTimer (m : Monitor ε) (now : UInt64) (timerId : Bytes) : Monitor ε :=
  if m.monitorEndpoint.isNone then m
  else if m.startTimes[timerId]?.isSome then m
  else
    let left := forget m.options.monitorMaxTimers.toNat (m.orderedTimers ++ [timerId]) (m.startTimes.insert timerId now)
    { m with orderedTimers := left.1, startTimes := left.2 }

def send (m : Monitor ε) (stat : Bytes) : Monitor ε :=
  { m with sent := m.sent ++ (m.monitorEndpoint.map fun endpoint => (endpoint, stat)).toList }

/-- The text that reports a duration. -/
def durationText (scopePrefix : Bytes) (stat : Statistic) (result : UInt64) : Bytes :=
  scopePrefix ++ ascii "." ++ statisticNames stat ++ ascii ":" ++ decimal result.toNat ++ ascii "|us"

def finishTimer (m : Monitor ε) (now : UInt64) (stat : Statistic) (timerId : Bytes) : Monitor ε :=
  if m.monitorEndpoint.isNone then m
  else
    match m.startTimes[timerId]? with
    | none => m
    | some start =>
      { m with startTimes := m.startTimes.erase timerId }.send (durationText m.scopePrefix stat (now - start))

def formatCounter (m : Monitor ε) (stat : Statistic) (amount : UInt64) : Bytes :=
  m.scopePrefix ++ ascii "." ++ statisticNames stat ++ ascii ":" ++ decimal amount.toNat ++ ascii "|c"

def maybeSend (m : Monitor ε) (now : UInt64) : Monitor ε :=
  let threshold := m.timeLastSent + m.options.monitorCollateIntervalSeconds * 1000000
  if threshold ≤ now then
    { m.accumulatedStats.foldl (fun m' pair => m'.send (m.formatCounter pair.1 pair.2)) m with
      accumulatedStats := [], timeLastSent := now }
  else m

/-- The amount of one statistic increased, from zero where there is none. -/
def accumulate (stat : Statistic) (amount : UInt64) : List (Statistic × UInt64) → List (Statistic × UInt64)
  | [] => [(stat, 0 + amount)]
  | pair :: rest => if pair.1 = stat then (stat, pair.2 + amount) :: rest else pair :: accumulate stat amount rest

def sendCounter (m : Monitor ε) (now : UInt64) (stat : Statistic) (amount : UInt64) : Monitor ε :=
  if m.monitorEndpoint.isNone then m
  else if m.options.monitorCollate then
    { m with accumulatedStats := accumulate stat amount m.accumulatedStats }.maybeSend now
  else m.send (m.formatCounter stat amount)

/-- A call of the monitor. -/
inductive Call where
  | startTimer (timerId : Bytes)
  | finishTimer (stat : Statistic) (timerId : Bytes)
  | sendCounter (stat : Statistic) (amount : UInt64)
  deriving DecidableEq

/-- What a call at a time of the clock does. -/
def call (m : Monitor ε) : UInt64 × Call → Monitor ε
  | (now, .startTimer timerId) => m.startTimer now timerId
  | (now, .finishTimer stat timerId) => m.finishTimer now stat timerId
  | (now, .sendCounter stat amount) => m.sendCounter now stat amount

/-- The monitor after calls. -/
def after (m : Monitor ε) (calls : List (UInt64 × Call)) : Monitor ε := calls.foldl call m

/-! ## The history of the starts -/

/-- A start that had an effect. -/
structure Start where
  timerId : Bytes
  time : UInt64
  /-- The timer was finished since. -/
  finished : Bool
deriving DecidableEq

/-- The starts that had an effect, the latest first. -/
abbrev Starts := List Start

namespace Starts

/-- The latest start of a timer, where fewer than `limit` were made after it. -/
def latest (starts : Starts) (limit : Nat) (timerId : Bytes) : Option Start :=
  (starts.take limit).find? (·.timerId = timerId)

/-- The time at which a running timer was started: fewer than `limit` starts were made since, and it was not
finished. -/
def running (starts : Starts) (limit : Nat) (timerId : Bytes) : Option UInt64 :=
  ((starts.latest limit timerId).filter (!·.finished)).map (·.time)

/-- A start has an effect where the timer does not run. -/
def start (starts : Starts) (limit : Nat) (now : UInt64) (timerId : Bytes) : Starts :=
  if (starts.running limit timerId).isSome then starts else ⟨timerId, now, false⟩ :: starts

/-- The latest start of a timer becomes a finished one. -/
def finish : Starts → Bytes → Starts
  | [], _ => []
  | s :: starts, timerId =>
    if s.timerId = timerId then { s with finished := true } :: starts else s :: finish starts timerId

/-- What a call adds to the history. -/
def call (limit : Nat) (starts : Starts) : UInt64 × Call → Starts
  | (now, .startTimer timerId) => starts.start limit now timerId
  | (_, .finishTimer _ timerId) => starts.finish timerId
  | (_, .sendCounter _ _) => starts

/-- The starts that had an effect in a sequence of calls. -/
def made (limit : Nat) (calls : List (UInt64 × Call)) : Starts := calls.foldl (call limit) []

/-- A call that starts no timer whose latest start is finished and among the last `limit` ones. -/
def Apart (limit : Nat) (starts : Starts) : UInt64 × Call → Prop
  | (_, .startTimer timerId) => ∀ s ∈ starts.latest limit timerId, s.finished = false
  | _ => True

instance (limit : Nat) (starts : Starts) (c : UInt64 × Call) : Decidable (Apart limit starts c) := by
  unfold Apart
  split <;> infer_instance

variable {starts : Starts} {timerId : Bytes} {limit : Nat}

theorem latest_cons {s : Start} (h : s.timerId ≠ timerId) :
    latest (s :: starts) (limit + 1) timerId = starts.latest limit timerId := by
  simp [latest, h]

theorem latest_eq_none :
    starts.latest limit timerId = none ↔ timerId ∉ (starts.take limit).map (·.timerId) := by
  rw [latest, List.find?_eq_none, List.mem_map]
  constructor
  · rintro h ⟨s, hs, heq⟩
    exact h s hs (decide_eq_true heq)
  · intro h s hs heq
    exact h ⟨s, hs, of_decide_eq_true heq⟩

/-- The starts one further back, of which only the last may be of another timer. -/
theorem latest_add_one
    (h : ∀ s ∈ starts[limit]?, s.timerId ≠ timerId) :
    starts.latest (limit + 1) timerId = starts.latest limit timerId := by
  rw [latest, latest, List.take_add_one]
  cases hold : starts[limit]? with
  | none => simp
  | some old => simp [h old hold]

theorem timerId_of_latest {s : Start}
    (h : starts.latest limit timerId = some s) : s.timerId = timerId := by
  have hfound := List.find?_some h
  exact of_decide_eq_true hfound

theorem map_finish (starts : Starts) (timerId : Bytes) :
    (starts.finish timerId).map (·.timerId) = starts.map (·.timerId) := by
  induction starts with
  | nil => rfl
  | cons _ _ ih =>
    rw [finish]
    split
    · rfl
    · rw [List.map_cons, List.map_cons, ih]

/-- Finishing a timer changes its latest start only. -/
theorem latest_finish (starts : Starts) (limit : Nat) (timerId other : Bytes) :
    (starts.finish timerId).latest limit other =
      (starts.latest limit other).map fun s => if s.timerId = timerId then { s with finished := true } else s := by
  induction starts generalizing limit with
  | nil => simp [finish, latest]
  | cons s starts ih =>
    cases limit with
    | zero => simp [latest]
    | succ limit =>
      rw [finish]
      by_cases hs : s.timerId = timerId
      · rw [if_pos hs]
        by_cases hother : s.timerId = other
        · simp [latest, hs ▸ hother, hs]
        · -- a start of another timer than the one finished
          rw [latest_cons hother, latest_cons (by exact hother)]
          cases hfind : latest starts limit other with
          | none => rfl
          | some found =>
            have hfound : found.timerId = other := timerId_of_latest hfind
            rw [Option.map_some, if_neg (fun h => hother (hs.trans (h.symm.trans hfound)))]
      · rw [if_neg hs]
        by_cases hother : s.timerId = other
        · simp [latest, hother, hother ▸ hs]
        · rw [latest_cons hother, latest_cons hother, ih]

theorem running_finish (starts : Starts) (limit : Nat) (timerId other : Bytes) :
    (starts.finish timerId).running limit other = if other = timerId then none else starts.running limit other := by
  rw [running, latest_finish, running]
  cases hfind : starts.latest limit other with
  | none => simp
  | some found =>
    have hfound : found.timerId = other := timerId_of_latest hfind
    by_cases heq : other = timerId
    · simp [hfound, heq]
    · simp [hfound, heq]

theorem running_eq_none (h : starts.latest limit timerId = none) :
    starts.running limit timerId = none := by
  rw [running, h]
  rfl

/-- A call that is apart starts a timer that runs already, or one that is not among the last ones. -/
theorem latest_of_apart {now : UInt64}
    (h : Apart limit starts (now, .startTimer timerId)) (hrunning : starts.running limit timerId = none) :
    starts.latest limit timerId = none := by
  cases hfind : starts.latest limit timerId with
  | none => rfl
  | some found =>
    have hopen : found.finished = false := h found hfind
    rw [running, hfind] at hrunning
    simp [hopen] at hrunning

end Starts

/-! ## The monitor and the history -/

theorem forget_of_le {limit : Nat} {timers : List Bytes} (h : timers.length ≤ limit) (startTimes : Map Bytes UInt64) :
    forget limit timers startTimes = (timers, startTimes) := by
  cases timers with
  | nil => rfl
  | cons => rw [forget, if_neg (Nat.not_lt.mpr h)]

/-- One start above the bound is forgotten. -/
theorem forget_cons {limit : Nat} {front : Bytes} {rest : List Bytes} (h : rest.length = limit)
    (startTimes : Map Bytes UInt64) : forget limit (front :: rest) startTimes = (rest, startTimes.erase front) := by
  rw [forget, if_pos (by rw [List.length_cons, h]; exact Nat.lt_succ_self _), forget_of_le (Nat.le_of_eq h)]

/-- What no call changes. -/
structure Same (m m' : Monitor ε) : Prop where
  options : m'.options = m.options
  monitorEndpoint : m'.monitorEndpoint = m.monitorEndpoint
  scopePrefix : m'.scopePrefix = m.scopePrefix

/-- Texts were sent, and counters changed. -/
structure SameTimers (m m' : Monitor ε) : Prop extends Same m m' where
  orderedTimers : m'.orderedTimers = m.orderedTimers
  startTimes : m'.startTimes = m.startTimes

theorem foldl_send (texts : List (Statistic × UInt64)) (text : Statistic × UInt64 → Bytes) (m : Monitor ε) :
    SameTimers m (texts.foldl (fun m pair => m.send (text pair)) m) := by
  induction texts generalizing m with
  | nil => exact ⟨⟨rfl, rfl, rfl⟩, rfl, rfl⟩
  | cons pair _ ih =>
    obtain ⟨⟨hoptions, hendpoint, hscope⟩, hordered, htimes⟩ := ih (m.send (text pair))
    exact ⟨⟨hoptions, hendpoint, hscope⟩, hordered, htimes⟩

theorem sendCounter_timers (m : Monitor ε) (now : UInt64) (stat : Statistic) (amount : UInt64) :
    SameTimers m (m.sendCounter now stat amount) := by
  unfold sendCounter
  split
  · exact ⟨⟨rfl, rfl, rfl⟩, rfl, rfl⟩
  split
  · unfold maybeSend
    dsimp only
    split
    · obtain ⟨⟨hoptions, hendpoint, hscope⟩, hordered, htimes⟩ := foldl_send (accumulate stat amount m.accumulatedStats)
        (fun pair => m.formatCounter pair.1 pair.2)
        { m with accumulatedStats := accumulate stat amount m.accumulatedStats }
      exact ⟨⟨hoptions, hendpoint, hscope⟩, hordered, htimes⟩
    · exact ⟨⟨rfl, rfl, rfl⟩, rfl, rfl⟩
  · exact ⟨⟨rfl, rfl, rfl⟩, rfl, rfl⟩

theorem call_same (m : Monitor ε) (c : UInt64 × Call) : Same m (m.call c) := by
  obtain ⟨now, call⟩ := c
  cases call with
  | startTimer =>
    simp only [Monitor.call, startTimer]
    split
    · exact ⟨rfl, rfl, rfl⟩
    split <;> exact ⟨rfl, rfl, rfl⟩
  | finishTimer =>
    simp only [Monitor.call, finishTimer]
    split
    · exact ⟨rfl, rfl, rfl⟩
    split <;> exact ⟨rfl, rfl, rfl⟩
  | sendCounter stat amount => exact (sendCounter_timers m now stat amount).toSame

/-- A monitor whose two records agree with the history: the queue holds the last starts, of different timers, and the
map the times of those that run. -/
structure Tracks (m : Monitor ε) (starts : Starts) : Prop where
  ordered : m.orderedTimers = ((starts.take m.options.monitorMaxTimers.toNat).map (·.timerId)).reverse
  nodup : ((starts.take m.options.monitorMaxTimers.toNat).map (·.timerId)).Nodup
  times : ∀ timerId, m.startTimes[timerId]? = starts.running m.options.monitorMaxTimers.toNat timerId

/-- The history with one more start, as the bound cuts it. -/
theorem running_cons (starts : Starts) (limit : Nat) (now : UInt64) (timerId other : Bytes) :
    Starts.running (⟨timerId, now, false⟩ :: starts) (limit + 1) other =
      if timerId = other then some now else starts.running limit other := by
  by_cases h : timerId = other
  · simp [Starts.running, Starts.latest, h]
  · rw [if_neg h, Starts.running, Starts.latest_cons (by exact h), Starts.running]

/-- The records after a start of a timer that is not among the last ones: the queue and the map lose the earliest start
where there are more than the bound allows. -/
theorem forget_tracks {limit : Nat} {startTimes : Map Bytes UInt64} {timerId : Bytes} (now : UInt64)
    (hnodup : ((starts.take limit).map (·.timerId)).Nodup)
    (htimes : ∀ other, startTimes[other]? = starts.running limit other)
    (hfresh : timerId ∉ (starts.take limit).map (·.timerId)) :
    let left := forget limit (((starts.take limit).map (·.timerId)).reverse ++ [timerId])
      (startTimes.insert timerId now)
    let made := (⟨timerId, now, false⟩ : Start) :: starts
    left.1 = ((made.take limit).map (·.timerId)).reverse ∧ ((made.take limit).map (·.timerId)).Nodup ∧
      ∀ other, left.2[other]? = Starts.running made limit other := by
  cases limit with
  | zero =>
    refine ⟨rfl, List.nodup_nil, fun other => ?_⟩
    have hnone : startTimes[other]? = none := htimes other
    show ((startTimes.insert timerId now).erase timerId)[other]? = none
    rw [Map.lookup_erase, Map.lookup_insert]
    split <;> simp_all
  | succ n =>
    -- the history behind the start just made is cut one earlier than before
    have htake : starts.take (n + 1) = starts.take n ++ starts[n]?.toList := List.take_add_one
    have hlater : ∀ other, (∀ s ∈ starts[n]?, s.timerId ≠ other) →
        startTimes[other]? = starts.running n other := by
      intro other hother
      rw [htimes, Starts.running, Starts.latest_add_one hother, Starts.running]
    cases hold : starts[n]? with
    | none =>
      rw [hold, Option.toList_none, List.append_nil] at htake
      rw [htake] at hnodup hfresh ⊢
      have hlen : (((starts.take n).map (·.timerId)).reverse ++ [timerId]).length ≤ n + 1 := by
        simp only [List.length_append, List.length_reverse, List.length_map, List.length_take, List.length_singleton]
        omega
      rw [forget_of_le hlen]
      refine ⟨List.reverse_cons.symm, List.nodup_cons.mpr ⟨hfresh, hnodup⟩, fun other => ?_⟩
      rw [Map.lookup_insert, running_cons, hlater other (by simp [hold])]
    | some old =>
      rw [hold, Option.toList_some] at htake
      rw [htake, List.map_append, List.map_singleton] at hnodup hfresh ⊢
      obtain ⟨hnodup, -, hapart⟩ := List.nodup_append.mp hnodup
      rw [List.mem_append, List.mem_singleton, not_or] at hfresh
      have hlen : (((starts.take n).map (·.timerId)).reverse ++ [timerId]).length = n + 1 := by
        have hn : n < starts.length := (List.getElem?_eq_some_iff.mp hold).1
        simp only [List.length_append, List.length_reverse, List.length_map, List.length_take, List.length_singleton]
        omega
      rw [List.reverse_append, List.reverse_singleton, List.singleton_append, List.cons_append, forget_cons hlen]
      refine ⟨List.reverse_cons.symm, List.nodup_cons.mpr ⟨hfresh.1, hnodup⟩, fun other => ?_⟩
      rw [Map.lookup_erase, Map.lookup_insert, running_cons]
      by_cases heq : old.timerId = other
      · -- the start forgotten was the only one of its timer among the last ones
        have hgone : starts.latest n other = none := by
          rw [Starts.latest_eq_none, ← heq]
          exact fun h => hapart _ h _ (List.mem_singleton_self _) rfl
        rw [if_pos heq, if_neg (fun h => hfresh.2 (h.trans heq.symm)), Starts.running_eq_none hgone]
      · rw [if_neg heq, hlater other (by simp [hold, heq])]

variable {m : Monitor ε}

/-- A call that is apart keeps the agreement. -/
theorem Tracks.call {endpoint : ε} (h : Tracks m starts) (hendpoint : m.monitorEndpoint = some endpoint)
    {c : UInt64 × Call} (hapart : starts.Apart m.options.monitorMaxTimers.toNat c) :
    Tracks (m.call c) (starts.call m.options.monitorMaxTimers.toNat c) := by
  obtain ⟨now, call⟩ := c
  cases call with
  | startTimer timerId =>
    simp only [Monitor.call, startTimer, Starts.call, Starts.start, hendpoint, h.times]
    cases hrunning : starts.running m.options.monitorMaxTimers.toNat timerId with
    | some => exact h
    | none =>
      have hfresh := Starts.latest_eq_none.mp (Starts.latest_of_apart hapart hrunning)
      obtain ⟨hordered, hnodup, htimes⟩ := forget_tracks now h.nodup h.times hfresh
      rw [← h.ordered] at hordered htimes
      exact ⟨hordered, hnodup, htimes⟩
  | finishTimer _ timerId =>
    have hids : ((starts.finish timerId).take m.options.monitorMaxTimers.toNat).map (·.timerId) =
        (starts.take m.options.monitorMaxTimers.toNat).map (·.timerId) := by
      rw [List.map_take, Starts.map_finish, ← List.map_take]
    simp only [Monitor.call, finishTimer, Starts.call, hendpoint, Option.isNone_some, Bool.false_eq_true, if_false,
      h.times]
    cases hrunning : starts.running m.options.monitorMaxTimers.toNat timerId with
    | none =>
      refine ⟨hids ▸ h.ordered, hids ▸ h.nodup, fun other => ?_⟩
      rw [Starts.running_finish, h.times]
      split
      · next heq => rw [heq, hrunning]
      · rfl
    | some =>
      refine ⟨?_, ?_, fun other => ?_⟩
      · show m.orderedTimers = _
        rw [h.ordered, ← hids]
        rfl
      · exact hids ▸ h.nodup
      · show (m.startTimes.erase timerId)[other]? = Starts.running _ m.options.monitorMaxTimers.toNat other
        rw [Map.lookup_erase, h.times, Starts.running_finish]
        simp only [eq_comm]
  | sendCounter stat amount =>
    have hsame := sendCounter_timers m now stat amount
    exact ⟨by rw [Monitor.call, hsame.orderedTimers, hsame.options, h.ordered]; rfl,
      by rw [Monitor.call, hsame.options]; exact h.nodup,
      fun other => by rw [Monitor.call, hsame.startTimes, hsame.options, h.times]; rfl⟩

/-- Every call of a sequence is apart, by the starts made before it. -/
abbrev AllApart (limit : Nat) (starts : Starts) (calls : List (UInt64 × Call)) : Prop :=
  Allows (Starts.call limit) (Starts.Apart limit) starts calls

theorem Tracks.after {endpoint : ε} (h : Tracks m starts) (hendpoint : m.monitorEndpoint = some endpoint)
    {calls : List (UInt64 × Call)} (hapart : AllApart m.options.monitorMaxTimers.toNat starts calls) :
    Same m (m.after calls) ∧
      Tracks (m.after calls) (calls.foldl (Starts.call m.options.monitorMaxTimers.toNat) starts) := by
  induction calls generalizing m starts with
  | nil => exact ⟨⟨rfl, rfl, rfl⟩, h⟩
  | cons c _ ih =>
    have hstep := call_same m c
    have hlater := hapart.2
    rw [← hstep.options] at hlater
    have hnext := h.call hendpoint hapart.1
    rw [← hstep.options] at hnext
    obtain ⟨hsame, htracks⟩ := ih hnext (hstep.monitorEndpoint.trans hendpoint) hlater
    rw [hstep.options] at htracks
    exact ⟨⟨hsame.options.trans hstep.options, hsame.monitorEndpoint.trans hstep.monitorEndpoint,
      hsame.scopePrefix.trans hstep.scopePrefix⟩, htracks⟩

/-! ## Reports -/

section

variable {options : Options} {endpoint : ε} {stack swarmId uuid : Bytes} {started : UInt64}

/-- Finishing a timer reports the time since its start, in one text, exactly where the timer runs: after calls of which
none starts a timer again while its finished start is among the last ones of the bound. -/
theorem finishTimer_reports {calls : List (UInt64 × Call)} (hapart : AllApart options.monitorMaxTimers.toNat [] calls)
    (now : UInt64) (stat : Statistic) (timerId : Bytes) :
    let m := (new options (some endpoint) stack swarmId uuid started).after calls
    let starts := Starts.made options.monitorMaxTimers.toNat calls
    (m.finishTimer now stat timerId).sent = m.sent ++
      ((starts.running options.monitorMaxTimers.toNat timerId).map fun start =>
        (endpoint, durationText m.scopePrefix stat (now - start))).toList := by
  intro m starts
  have hnew : Tracks (new options (some endpoint) stack swarmId uuid started) [] := by
    refine ⟨by simp [new], by simp, fun other => ?_⟩
    simp [new, Starts.running, Starts.latest]
  obtain ⟨hsame, htracks⟩ := hnew.after rfl hapart
  have hendpoint : m.monitorEndpoint = some endpoint := hsame.monitorEndpoint
  have htimes : m.startTimes[timerId]? = starts.running options.monitorMaxTimers.toNat timerId := by
    have h := htracks.times timerId
    rw [hsame.options] at h
    exact h
  unfold finishTimer
  rw [hendpoint, htimes]
  cases starts.running options.monitorMaxTimers.toNat timerId with
  | none => simp
  | some start => simp [send]

end

/-- The calls before a report of two timers, one of them started while it ran. -/
def sampleCalls : List (UInt64 × Call) :=
  [(10, .startTimer (ascii "A")), (20, .startTimer (ascii "B")), (21, .startTimer (ascii "A"))]

/-- The options of a monitor that remembers a number of timers. -/
def sampleOptions (maxTimers : UInt64) : Options := ⟨maxTimers, false, 0⟩

theorem finishTimer_reports_sample :
    ((new (sampleOptions 2) (some ()) [] [] [] 0).after sampleCalls |>.finishTimer 30 .requestLatency
      (ascii "A")).sent =
      [((), durationText (ascii "com.bluzelle...swarmdb.") .requestLatency 20)] := by
  refine (finishTimer_reports (by decide +kernel) 30 .requestLatency (ascii "A")).trans ?_
  decide +kernel

/-- With a bound of one, a timer is finished, started again and finished once more: the second start is forgotten as
the first one leaves the queue, and its duration is not reported. -/
theorem forgets_restarted :
    let calls : List (UInt64 × Call) :=
      [(10, .startTimer (ascii "A")), (15, .finishTimer .requestLatency (ascii "A")), (20, .startTimer (ascii "A"))]
    let m := (new (sampleOptions 1) (some ()) [] [] [] 0).after calls
    (Starts.made 1 calls).running 1 (ascii "A") = some 20 ∧
      (m.finishTimer 30 .requestLatency (ascii "A")).sent = m.sent := by
  decide +kernel

end Monitor

end SwarmDb
