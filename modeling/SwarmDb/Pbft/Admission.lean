import SwarmDb.Pbft.Assignment
import SwarmDb.Pbft.Requests

/-!
# Admission control

A primary answers TOO_BUSY when the next sequence number is too far above the last one that was executed. The first is
stored, and set back by NEWVIEWs; the second is set by the service and starts again from zero with the process. The
difference is what it is meant to be as long as the two stay in step (`busy_of_open`).
-/

namespace SwarmDb

open Lib Program

/-- The service has reported the execution of a number to the replica. -/
def ExecutedIn (node : Node) (hs : List Happening) (q : UInt64) : Prop :=
  Machine.Handled node hs fun _ _ ev => ev = .executed q

/-- The answer that the primary has too many open requests. -/
def Effect.tooBusy (node : Node) : Effect → Bool
  | reply _ env => (node.wire.swarmError.parse env.swarmError).any fun err => err.message = tooBusyErrorMsg
  | _ => false

/-- An event is answered with that. -/
def TurnsAway (node : Node) (outside : Outside) (ev : Event) (s : Replica) : Prop :=
  ∃ l, ((ev.program node outside).final s).log = s.log ++ l ∧ ∃ e ∈ l, e.tooBusy node

/-- The two counters stay in step: a valid NEWVIEW is handled to its end and takes
the next number no lower than the last one executed, no request is given the last
number there is, the service reports numbers in order and none above the next one,
and once it has reported one the process does not end. -/
structure KeepsPace (node : Node) (m : Machine) (a : Happening) : Prop where
  newview : ∀ s outside ev nv nvEnv, m.replica? = some s → a = .event outside ev →
    NewviewAccepted node outside ev s nv nvEnv → (ev.program node outside).result s = .ok () ∧
      s.pbft.lastExecutedSequenceNumber ≤ node.nextAfterNewview nv
  number : ∀ s outside ev, m.replica? = some s → a = .event outside ev → ev.IsRequest → s.pbft.isPrimary node = true →
    s.pbft.nextIssuedSequenceNumber ≠ 0 - 1
  executed : ∀ s outside q, m.replica? = some s → a = .event outside (.executed q) →
    ((Event.executed q).program node outside).result s = .ok () ∧ s.pbft.lastExecutedSequenceNumber ≤ q ∧
      q ≤ s.pbft.nextIssuedSequenceNumber
  goesOn : ∀ s, m.replica? = some s → s.pbft.lastExecutedSequenceNumber ≠ 0 →
    ∃ outside ev, a = .event outside ev ∧ (ev.program node outside).result s = .ok ()

section

variable {node : Node} {outside : Outside} {ev : Event} {past : List Effect} {s₀ s s' : Replica} {hs : List Happening}
  {nv : PbftMsg} {nvEnv : BznEnvelope}

/-! ## The counters -/

/-- The next number in the steps of an event that is no NEWVIEW. -/
theorem steps_next (hnone : ∀ nv nvEnv, ¬ NewviewAccepted node outside ev s nv nvEnv)
    (hsteps : Relation.ReflTransGen (Step node outside ev s) s s') :
    s'.pbft.nextIssuedSequenceNumber = s.pbft.nextIssuedSequenceNumber ∨ ev.IsRequest ∧ s.pbft.isPrimary node = true ∧
      s'.pbft.nextIssuedSequenceNumber = s.pbft.nextIssuedSequenceNumber + 1 := by
  induction hsteps with
  | refl => exact .inl rfl
  | tail _ hstep ih =>
    cases hstep with
    | memory _ same =>
      have hsame := same.nextIssuedSequenceNumber
      exact ih.imp hsame.trans fun h => ⟨h.1, h.2.1, hsame.trans h.2.2⟩
    | nextIssued _ numbers =>
      cases numbers with
      | request request primary => exact .inr ⟨request, primary, rfl⟩
      | viewchange nv nvEnv accepted | prePrepare nv nvEnv accepted => exact absurd accepted (hnone nv nvEnv)
    | _ => exact ih

/-- The last number executed, in the steps of an event that reports none. -/
theorem steps_lastExecuted (hexecuted : ∀ q, ev ≠ .executed q)
    (hsteps : Relation.ReflTransGen (Step node outside ev s₀) s s') :
    s'.pbft.lastExecutedSequenceNumber = s.pbft.lastExecutedSequenceNumber := by
  induction hsteps with
  | refl => rfl
  | tail _ hstep ih =>
    cases hstep with
    | memory _ same => exact same.lastExecutedSequenceNumber.trans ih
    | executed sequence event => exact absurd event (hexecuted sequence)
    | _ => exact ih

theorem handleExecuted_counters (node : Node) (outside : Outside) (q : UInt64) (s : Replica) :
    ((handleExecuted node outside q).final s).pbft.lastExecutedSequenceNumber = q ∧
      ((handleExecuted node outside q).final s).pbft.nextIssuedSequenceNumber = s.pbft.nextIssuedSequenceNumber := by
  have hkeeps : Keeps (fun s : Replica => (s.pbft.lastExecutedSequenceNumber, s.pbft.nextIssuedSequenceNumber))
      (if q % checkpointInterval = 0 then do
        onReplica (emit (.saveServiceStateAt (q + checkpointInterval)))
        onManager (localCheckpointReached node outside ⟨q, outside.serviceStateHash q⟩)
        let s ← read
        let safeDeleteBound := min s.manager.latestStableCheckpoint.sequence s.manager.latestLocalCheckpoint.sequence
        modifyPbft fun p => { p with operations := p.operations.deleteOperationsUntil safeDeleteBound }
      else pure () : Program Fault Replica Unit) :=
    .ite (.bind (fun _ => rfl) fun _ => .bind (fun _ => rfl) fun _ => .bind .read fun _ => fun _ => rfl) (.pure _)
  unfold handleExecuted
  rw [modifyPbft, final_update_bind]
  exact Prod.mk.inj (hkeeps _)

/-- The counters of a replica next to what the service has reported. -/
structure Paced (node : Node) (hs : List Happening) (s : Replica) : Prop where
  le : s.pbft.lastExecutedSequenceNumber ≤ s.pbft.nextIssuedSequenceNumber
  executed : ∀ q, ExecutedIn node hs q → q ≤ s.pbft.lastExecutedSequenceNumber

theorem Paced.eq_zero (h : Paced node hs s) (hzero : s.pbft.lastExecutedSequenceNumber = 0) {q : UInt64}
    (hq : ExecutedIn node hs q) : q = 0 := by
  have hle := h.executed q hq
  rw [hzero, UInt64.le_iff_toNat_le] at hle
  exact UInt64.toNat_inj.mp (Nat.le_zero.mp hle)

/-- An event that reports no execution. -/
theorem ExecutedIn.of_event {q : UInt64} (h : ExecutedIn node (hs ++ [.event outside ev]) q)
    (hup : Machine.after node hs = .up past s) (hnot : ev ≠ .executed q) : ExecutedIn node hs q :=
  (Machine.Handled.of_event h hup).resolve_right hnot

/-- The next number does not go back in an event that is no NEWVIEW. -/
theorem KeepsPace.le_next (h : KeepsPace node (.up past s) (.event outside ev))
    (hnone : ∀ nv nvEnv, ¬ NewviewAccepted node outside ev s nv nvEnv)
    (hsteps : Relation.ReflTransGen (Step node outside ev s) s s') :
    s.pbft.nextIssuedSequenceNumber ≤ s'.pbft.nextIssuedSequenceNumber := by
  rcases steps_next hnone hsteps with heq | ⟨hrequest, hprimary, heq⟩
  · exact heq ▸ UInt64.le_rfl
  · rw [heq]
    exact UInt64.le_of_lt ((lt_add_one_iff (h.number s outside ev rfl rfl hrequest hprimary)).mpr UInt64.le_rfl)

/-- A process that has reported an execution does not end, so what one leaves
behind has nothing executed. -/
theorem paced_upheld : Upheld node (KeepsPace node) (fun hs _ s => Paced node hs s)
    (fun hs _ _ => ∀ q, ExecutedIn node hs q → q = 0) where
  first := fun q hq => absurd hq Machine.not_handled_nil
  returns hs past s outside ev s' hr hk hU ha hrun := by
    have hafter : Machine.after node hs = .up past s := hr.eq_foldl.symm
    have hsteps := event_ok hk hrun
    by_cases hexecuted : ∃ q, ev = .executed q
    · obtain ⟨q, rfl⟩ := hexecuted
      obtain ⟨-, hle, hle'⟩ := ha.executed s outside q rfl rfl
      obtain ⟨hlast, hnext⟩ := handleExecuted_counters node outside q s
      have hfinal : (handleExecuted node outside q).final s = s' := congrArg Prod.snd hrun
      rw [hfinal] at hlast hnext
      refine ⟨by rwa [hlast, hnext], fun q' hq' => ?_⟩
      rw [hlast]
      rcases Machine.Handled.of_event hq' hafter with hold | heq
      · exact UInt64.le_trans (hU.executed q' hold) hle
      · cases heq
        exact UInt64.le_rfl
    · have hnot : ∀ q, ev ≠ .executed q := fun q heq => hexecuted ⟨q, heq⟩
      have hlast := steps_lastExecuted hnot hsteps
      refine ⟨?_, fun q hq => hlast ▸ hU.executed q (hq.of_event hafter (hnot q))⟩
      rw [hlast]
      by_cases hex : ∃ nv nvEnv, NewviewAccepted node outside ev s nv nvEnv
      · obtain ⟨nv, nvEnv, haccepted⟩ := hex
        rw [(haccepted.entered hk hrun).2]
        exact (ha.newview s outside ev nv nvEnv rfl rfl haccepted).2
      · exact UInt64.le_trans hU.le (ha.le_next (fun nv nvEnv h => hex ⟨nv, nvEnv, h⟩) hsteps)
  throws hs past s outside ev e s' hr hk hU ha hrun := by
    have hthrows : (ev.program node outside).result s ≠ .ok () := by
      rw [result, hrun]
      exact fun h => by cases h
    have hzero : s.pbft.lastExecutedSequenceNumber = 0 := by
      by_contra hne
      obtain ⟨_, _, heq, hok⟩ := ha.goesOn s rfl hne
      cases heq
      exact hthrows hok
    obtain ⟨s₁, hsteps, hcrash⟩ := event_error hk hrun
    obtain ⟨b, hb, -⟩ := hcrash.durable (hk.run hsteps)
    refine ⟨b, hb, fun q hq => hU.eq_zero hzero (hq.of_event hr.eq_foldl.symm ?_)⟩
    rintro rfl
    exact hthrows (ha.executed s outside q rfl rfl).1
  stops hs past s lifetime _ hU ha := by
    have hzero : s.pbft.lastExecutedSequenceNumber = 0 := by
      by_contra hne
      obtain ⟨_, _, heq, -⟩ := ha.goesOn s rfl hne
      cases heq
    exact fun q hq => hU.eq_zero hzero (Machine.Handled.of_restart hq)
  waits hs past p b a hr hD := fun q hq => hD q (Machine.Handled.of_down hq hr.eq_foldl.symm)
  restarts hs log b s hD hr := by
    refine ⟨?_, fun q hq => ?_⟩
    · rw [hr.lastExecutedSequenceNumber]
      exact UInt64.zero_le
    · rw [hD q hq]
      exact UInt64.zero_le
  fails hs log b l hD _ := hD

/-! ## The answer -/

/-- Only a primary with too many open requests answers that it is busy. -/
theorem busy_of_answer (node : Node) (outside : Outside) (s : Replica) (hrequest : ev.IsRequest) :
    Appends (fun e => e.tooBusy node → s.pbft.Busy node) s ((ev.program node outside).final s) := by
  obtain ⟨env, session, text, rfl, hpayload⟩ := hrequest
  have hself : Appends (fun e => e.tooBusy node → s.pbft.Busy node) s s := Std.Refl.refl s
  have hother : ∀ e : Effect, (∀ session env, e ≠ .reply session env) → e.tooBusy node → s.pbft.Busy node := by
    intro e hne hbusy
    unfold Effect.tooBusy at hbusy
    split at hbusy
    · exact absurd rfl (hne _ _)
    · cases hbusy
  show Appends _ s ((handleProtobuf node outside env session).final s)
  unfold handleProtobuf
  rw [hpayload]
  refine final_ite_of (P := Appends (fun e => e.tooBusy node → s.pbft.Busy node) s) (fun _ => hself) fun _ => ?_
  refine final_ite_of (P := Appends (fun e => e.tooBusy node → s.pbft.Busy node) s) (fun _ => ?_) fun _ => ?_
  · exact emit_appends (hother _ fun _ _ h => by cases h) s
  · refine handleRequest_appends (fun _ => hother _ fun _ _ h => by cases h) fun e hdown hbusy => ?_
    cases e with
    | reply _ env =>
      obtain ⟨err, hparse, hmessage⟩ := (Option.any_eq_true _ _).mp hbusy
      exact hdown err hparse (of_decide_eq_true hmessage)
    | _ => cases hbusy

theorem turnsAway_iff (hrequest : ev.IsRequest) : TurnsAway node outside ev s ↔
    (((ev.program node outside).final s).log.drop s.log.length).any (Effect.tooBusy node) := by
  obtain ⟨l, hl, -⟩ := busy_of_answer node outside s hrequest
  simp [TurnsAway, hl, List.any_eq_true]

end

/-- As long as the counters stay in step, the last number executed is not above the
next one, and a request is turned away only if so many numbers below the next
one have not been executed as the admission window has. -/
theorem busy_of_open {node : Node} {hs : List Happening} {past : List Effect} {s : Replica}
    (h : Machine.Runs node (KeepsPace node) hs (.up past s)) :
    s.pbft.lastExecutedSequenceNumber ≤ s.pbft.nextIssuedSequenceNumber ∧
    ∀ outside ev, ev.IsRequest → TurnsAway node outside ev s →
      ∃ numbers : Finset UInt64, node.options.admissionWindow.toNat ≤ numbers.card ∧
        ∀ q ∈ numbers, 0 < q ∧ q < s.pbft.nextIssuedSequenceNumber ∧ ¬ ExecutedIn node hs q := by
  have hpaced : Paced node hs s := (paced_upheld.run h).2
  refine ⟨hpaced.le, fun outside ev hrequest ⟨l, hl, e, he, hbusy⟩ => ?_⟩
  obtain ⟨l', hl', hall⟩ := busy_of_answer node outside s hrequest
  rw [hl, List.append_cancel_left_eq] at hl'
  obtain ⟨numbers, hcard, hbetween⟩ := card_between hpaced.le (hall e (hl' ▸ he) hbusy)
  refine ⟨numbers, hcard, fun q hq => ⟨?_, (hbetween q hq).2, fun hexecuted => ?_⟩⟩
  · exact UInt64.lt_of_le_of_lt UInt64.zero_le (hbetween q hq).1
  · exact UInt64.lt_irrefl _ (UInt64.lt_of_lt_of_le (hbetween q hq).1 (hpaced.executed q hexecuted))

/-! ## A run that stays in step, and runs that do not -/

/-- A node that admits one open request. -/
def narrowNode (uuid : String) : Node :=
  let node := sampleNode fourPeers uuid
  { node with options := { node.options with admissionWindow := 1 } }

/-- A request of a client that waits for the answer. -/
def waitingRequest (nonce : UInt64) : Event :=
  match sampleRequest nonce with
  | .message env _ => .message env (some 0)
  | ev => ev

variable {m : Machine}

theorem keepsPace_restart {node : Node} (lifetime : Option Nat) (h : m.replica? = none) :
    KeepsPace node m (.restart lifetime) where
  newview s outside ev nv nvEnv hs := by rw [h] at hs; cases hs
  number s outside ev hs := by rw [h] at hs; cases hs
  executed s outside q hs := by rw [h] at hs; cases hs
  goesOn s hs := by rw [h] at hs; cases hs

theorem isRequest_waitingRequest (nonce : UInt64) : (waitingRequest nonce).IsRequest := ⟨_, _, _, rfl, rfl⟩

theorem Machine.eq_up {s : Replica} (h : m.replica? = some s) : ∃ past, m = .up past s := by
  cases m with
  | up past => exact ⟨past, congrArg _ (Option.some.inj h)⟩
  | down => cases h

/-- B has started and ordered a request. -/
def orderedOne : List Happening := [.restart none] ++ [.event laterOutside (sampleRequest 1)]

theorem keepsPace_order : KeepsPace (narrowNode "B") (Machine.after (narrowNode "B") [.restart none])
    (.event laterOutside (sampleRequest 1)) := by
  have hnext : ((Machine.after (narrowNode "B") [.restart none]).replica?.map fun s =>
      (s.pbft.nextIssuedSequenceNumber, s.pbft.lastExecutedSequenceNumber)) = some (1, 0) := by decide +kernel
  refine ⟨?_, ?_, ?_, ?_⟩
  · rintro s _ _ nv nvEnv - ⟨⟩ haccepted
    obtain ⟨text, hpayload⟩ := haccepted.payload
    obtain ⟨session, hev⟩ := haccepted.event
    cases hev
    cases hpayload
  · rintro s _ _ hs ⟨⟩ - -
    rw [hs] at hnext
    have hnext' : s.pbft.nextIssuedSequenceNumber = 1 := congrArg Prod.fst (Option.some.inj hnext)
    rw [hnext']
    decide
  · rintro s _ q - ⟨⟩
  · intro s hs hne
    rw [hs] at hnext
    exact absurd (congrArg Prod.snd (Option.some.inj hnext)) hne

theorem busy_of_open_first :
    ∃ past s, Machine.after (narrowNode "B") orderedOne = .up past s ∧
      TurnsAway (narrowNode "B") laterOutside (waitingRequest 2) s ∧
      ∃ numbers : Finset UInt64, 1 ≤ numbers.card ∧ ∀ q ∈ numbers, 0 < q ∧ q < s.pbft.nextIssuedSequenceNumber ∧
        ¬ ExecutedIn (narrowNode "B") orderedOne q := by
  have hstart : Machine.Runs (narrowNode "B") (KeepsPace (narrowNode "B")) [.restart none]
      (Machine.after (narrowNode "B") [.restart none]) :=
        Machine.runs_concat .start (keepsPace_restart none (by decide +kernel))
  have hrun : Machine.Runs (narrowNode "B") (KeepsPace (narrowNode "B")) orderedOne
      (Machine.after (narrowNode "B") orderedOne) := Machine.runs_concat hstart keepsPace_order
  have hbusy : ((Machine.after (narrowNode "B") orderedOne).replica?.map fun s =>
      ((((waitingRequest 2).program (narrowNode "B") laterOutside).final s).log.drop s.log.length).any
        (Effect.tooBusy (narrowNode "B"))) = some true := by decide +kernel
  obtain ⟨s, hs, haway⟩ := Option.map_eq_some_iff.mp hbusy
  obtain ⟨past, hm⟩ := Machine.eq_up hs
  have haway' := (turnsAway_iff (isRequest_waitingRequest 2)).mpr haway
  rw [hm] at hrun
  exact ⟨past, s, hm, haway', (busy_of_open hrun).2 laterOutside _ (isRequest_waitingRequest 2) haway'⟩

/-- B orders two requests, which are executed, and starts again. -/
def executedTwo : List Happening :=
  [.restart none, .event laterOutside (sampleRequest 1), .event laterOutside (.executed 1),
    .event laterOutside (sampleRequest 2), .event laterOutside (.executed 2), .restart none]

theorem executedIn_of_up {node : Node} (before : List Happening) {after : List Happening} {outside : Outside}
    {q : UInt64}
    (h : (Machine.after node before).replica?.isSome) :
    ExecutedIn node (before ++ .event outside (.executed q) :: after) q := by
  obtain ⟨s, hs⟩ := Option.isSome_iff_exists.mp h
  obtain ⟨past, hm⟩ := Machine.eq_up hs
  exact ⟨before, outside, .executed q, after, past, s, rfl, hm, rfl⟩

/-- A primary that starts again turns a request away although everything below the
next number has been executed, and the counters of a backup that executes two
numbers have crossed. -/
theorem busy_without_open :
    (∃ past s, Machine.after (narrowNode "B") executedTwo = .up past s ∧
      TurnsAway (narrowNode "B") laterOutside (waitingRequest 3) s ∧ s.pbft.nextIssuedSequenceNumber = 3 ∧
      ExecutedIn (narrowNode "B") executedTwo 1 ∧ ExecutedIn (narrowNode "B") executedTwo 2) ∧
    ((Machine.after (narrowNode "A") [.restart none, .event laterOutside (.executed 1),
      .event laterOutside (.executed 2)]).replica?.map fun s =>
        (s.pbft.nextIssuedSequenceNumber, s.pbft.lastExecutedSequenceNumber)) = some (1, 2) := by
  refine ⟨?_, by decide +kernel⟩
  have hbusy : ((Machine.after (narrowNode "B") executedTwo).replica?.map fun s =>
      (((((waitingRequest 3).program (narrowNode "B") laterOutside).final s).log.drop s.log.length).any
        (Effect.tooBusy (narrowNode "B")), s.pbft.nextIssuedSequenceNumber)) = some (true, 3) := by decide +kernel
  obtain ⟨s, hs, heq⟩ := Option.map_eq_some_iff.mp hbusy
  obtain ⟨past, hm⟩ := Machine.eq_up hs
  refine ⟨past, s, hm, (turnsAway_iff (isRequest_waitingRequest 3)).mpr (congrArg Prod.fst heq),
    congrArg Prod.snd heq, ?_, ?_⟩
  · exact executedIn_of_up (executedTwo.take 2) (by decide +kernel)
  · exact executedIn_of_up (executedTwo.take 4) (by decide +kernel)

end SwarmDb
