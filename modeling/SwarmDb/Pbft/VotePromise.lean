import SwarmDb.Pbft.Views

/-!
# The promise of a VIEWCHANGE

With a VIEWCHANGE for a view a replica promises to vote in no earlier one. It votes in a valid view only; but a NEWVIEW
makes the view valid again, and is compared with the current view and not with the one that was promised.
`promise_kept` says when the promise is kept.
-/

namespace SwarmDb

open Lib Program

/-- No vote is for an earlier view than a VIEWCHANGE before it. -/
def VotesAsPromised (said : List PbftMsg) : Prop :=
  Justified (fun before msg => msg.type = .prepare ∨ msg.type = .commit →
    ∀ vc ∈ before, vc.type = .viewchange → vc.view ≤ msg.view) said

/-- A NEWVIEW that is accepted, and one that a state brings to a replica in a
valid view, is for no earlier view than the replica has sent a VIEWCHANGE for. -/
structure KeepsPromise (node : Node) (m : Machine) (a : Happening) : Prop where
  newview : ∀ s outside ev nv nvEnv, m.replica? = some s → a = .event outside ev →
    NewviewAccepted node outside ev s nv nvEnv → ∀ vc ∈ m.said node, vc.type = .viewchange → vc.view ≤ nv.view
  state : ∀ s outside ev nv nvEnv, m.replica? = some s → a = .event outside ev → StateNewview node ev s nv nvEnv →
    s.pbft.viewIsValid = true → ∀ vc ∈ m.said node, vc.type = .viewchange → vc.view ≤ nv.view

/-- The messages of the protocol among some effects. -/
def saidIn (node : Node) (log : List Effect) : List PbftMsg := log.filterMap (Effect.said? node)

/-- The votes are as promised, and those in the current view will be. -/
structure Promising (node : Node) (log : List Effect) (b : Pbft) : Prop where
  kept : VotesAsPromised (saidIn node log)
  valid : b.viewIsValid = true → ∀ vc ∈ saidIn node log, vc.type = .viewchange → vc.view ≤ b.view

section

variable {node : Node} {outside : Outside} {ev : Event} {s₀ s s' : Replica} {past log : List Effect} {b : Pbft}

theorem saidIn_append (log l : List Effect) : saidIn node (log ++ l) = saidIn node log ++ saidIn node l :=
  List.filterMap_append

variable {l : List Effect}

theorem saidIn_of_saves (h : ∀ e ∈ l, ∃ n, e = .saveServiceStateAt n) : saidIn node l = [] := by
  refine List.filterMap_eq_nil_iff.mpr fun e he => ?_
  obtain ⟨n, rfl⟩ := h e he
  rfl

theorem saidIn_of_quiet (h : ∀ e ∈ l, e.Quiet) : saidIn node l = [] :=
  List.filterMap_eq_nil_iff.mpr fun e he => (h e he).said?

/-- At most one of the effects of a step says a message, which was checked. -/
theorem saidIn_of_emitted (hemitted : ∀ e ∈ l, Emitted node outside ev s₀ s e)
    (hl : (∃ e, l = [e]) ∨ ∀ e ∈ l, e.Quiet) :
    saidIn node l = [] ∨ ∃ msg, saidIn node l = [msg] ∧ Sends node outside ev s₀ s msg := by
  rcases hl with ⟨e, rfl⟩ | hquiet
  · cases hsaid : e.said? node with
    | none => exact .inl (by rw [saidIn, List.filterMap_cons_none hsaid]; rfl)
    | some msg =>
      refine .inr ⟨msg, by rw [saidIn, List.filterMap_cons_some hsaid]; rfl, ?_⟩
      exact (hemitted e (List.mem_singleton_self e)).sent hsaid
  · exact .inl (saidIn_of_quiet hquiet)

/-- What a step does to the promise: nothing, or it is a new one, in a view that
is not valid. -/
theorem Step.promise (h : Step node outside ev s₀ s s') :
    (s'.pbft.lastViewSent = s.pbft.lastViewSent ∧
      ∀ vc ∈ saidIn node s'.log, vc.type = .viewchange → vc ∈ saidIn node s.log) ∨
    (s.pbft.lastViewSent < s'.pbft.lastViewSent ∧ s.pbft.viewIsValid = false ∧
      s'.pbft = { s.pbft with lastViewSent := s'.pbft.lastViewSent }) := by
  have hnone : ∀ {q : Process}, q.log = s.log →
      ∀ vc ∈ saidIn node q.log, vc.type = .viewchange → vc ∈ saidIn node s.log := by
    intro q hq vc hvc _
    rwa [hq] at hvc
  have hsilent : ∀ {q : Process} {e : Effect}, s.toProcess.Emits q e → e.said? node = none →
      ∀ vc ∈ saidIn node q.log, vc.type = .viewchange → vc ∈ saidIn node s.log := by
    intro q e hq he vc hvc _
    rwa [hq.log, saidIn_append, saidIn, saidIn, List.filterMap_cons_none he, List.filterMap_nil, List.append_nil] at hvc
  have hother : ∀ {q : Process} {env : BznEnvelope} {msg : PbftMsg}, s.toProcess.Emits q (.multicast env) →
      env.payload = .pbft (node.wire.pbftMsg.serialize msg) → msg.type ≠ .viewchange →
      ∀ vc ∈ saidIn node q.log, vc.type = .viewchange → vc ∈ saidIn node s.log := by
    intro q env msg hq hpayload htype vc hvc hvtype
    rw [hq.log, saidIn_append] at hvc
    rcases List.mem_append.mp hvc with hvc | hvc
    · exact hvc
    · have hsaid : (Effect.multicast env).said? node = some msg := by
        rw [Effect.said?, hpayload]
        exact Codec.parse_serialize _ _
      rw [saidIn, List.filterMap_cons_some hsaid, List.filterMap_nil, List.mem_singleton] at hvc
      exact absurd (hvc ▸ hvtype) htype
  cases h with
  | memory _ same => exact .inl ⟨same.lastViewSent, hnone rfl⟩
  | executed | request | recordPreprepare | recordVote | saveNewview | deleteOperations => exact .inl ⟨rfl, hnone rfl⟩
  | nextIssued _ _ _ writes | accept _ _ _ _ _ writes | storeViewchange _ _ _ _ _ _ _ _ writes
  | invalidate _ writes | adoptView _ _ _ _ _ _ _ writes => exact .inl ⟨rfl, hnone writes.log⟩
  | newview _ _ _ _ _ _ writes _ writes' => exact .inl ⟨rfl, hnone (writes'.log.trans writes.log)⟩
  | call _ _ _ _ _ frame =>
    obtain ⟨l, hl, he⟩ := frame.log
    refine .inl ⟨rfl, fun vc hvc _ => ?_⟩
    rwa [hl, saidIn_append, saidIn_of_quiet fun e hmem => (he e hmem).quiet, List.append_nil] at hvc
  | emit _ quiet _ emits => exact .inl ⟨rfl, hsilent emits quiet.said?⟩
  | broadcastPrepare _ _ _ _ _ broadcasts _ emits | broadcastCommit _ _ _ _ _ _ _ broadcasts _ emits =>
    exact .inl ⟨rfl, hother emits broadcasts.payload (by simp [commonMessageSetup])⟩
  | advance _ _ _ _ _ _ _ emits | apply _ _ _ _ _ _ _ _ emits => exact .inl ⟨rfl, hsilent emits rfl⟩
  | broadcastPreprepare _ orders _ _ broadcasts _ emits =>
    exact .inl ⟨rfl, hother emits broadcasts.payload (by simp [orders.type])⟩
  | sendViewchange _ next invalid => exact .inr ⟨next, invalid, rfl⟩
  | sendNewview _ makes _ broadcasts _ emits =>
    exact .inl ⟨rfl, hother emits broadcasts.payload (by simp [makes.type])⟩

/-- How a step changes the view and whether it is valid. -/
theorem Step.validView (h : Step node outside ev s₀ s s') (hvalid : s'.pbft.viewIsValid = true) :
    (s'.pbft.view = s.pbft.view ∧ s.pbft.viewIsValid = true) ∨
    s.pbft.lastViewSent = s₀.pbft.lastViewSent ∧ s'.log = s.log ∧ ∃ nv nvEnv, s'.pbft.view = nv.view ∧
      (NewviewAccepted node outside ev s₀ nv nvEnv ∨
        StateNewview node ev s₀ nv nvEnv ∧ s₀.pbft.viewIsValid = true) := by
  cases h with
  | memory _ same => exact .inl ⟨same.view, same.viewIsValid ▸ hvalid⟩
  | invalidate => cases hvalid
  | newview nv nvEnv accepted _ sent _ writes _ writes' =>
    exact .inr ⟨sent, writes'.log.trans writes.log, nv, nvEnv, rfl, .inl accepted⟩
  | adoptView nv nvEnv received _ sent valid _ writes =>
    exact .inr ⟨sent, writes.log, nv, nvEnv, rfl, .inr ⟨received, valid ▸ hvalid⟩⟩
  | _ => exact .inl ⟨rfl, hvalid⟩

/-- The promises of a replica in the course of an event that found it in the state `s₀`. -/
structure Keeping (node : Node) (past : List Effect) (s₀ s : Replica) : Prop where
  promising : Promising node (past ++ s.log) s.pbft
  later : s₀.pbft.lastViewSent ≤ s.pbft.lastViewSent
  promised : s.pbft.lastViewSent = s₀.pbft.lastViewSent →
    ∀ vc ∈ saidIn node s.log, vc.type = .viewchange → vc ∈ saidIn node s₀.log

theorem Keeping.begin (h : Promising node (past ++ s.log) s.pbft) : Keeping node past s s :=
  ⟨h, UInt64.le_rfl, fun _ _ hvc _ => hvc⟩

/-- A vote is for the current view, which is valid. -/
theorem Sends.vote {msg : PbftMsg} (h : Sends node outside ev s₀ s msg)
    (hvote : msg.type = .prepare ∨ msg.type = .commit) :
    msg.view = s.pbft.view ∧ s.pbft.viewIsValid = true := by
  have hchecked := h.checked
  rcases hvote with htype | htype
  all_goals
    rw [htype] at hchecked
    exact hchecked.2

theorem Promising.of_eq {log' : List Effect} {b' : Pbft} (h : Promising node log b)
    (hsaid : saidIn node log' = saidIn node log) (hview : b'.view = b.view) (hvalid : b'.viewIsValid = b.viewIsValid) :
    Promising node log' b' := by
  refine ⟨hsaid ▸ h.kept, fun hv vc hvc => ?_⟩
  rw [hview]
  exact h.valid (hvalid ▸ hv) vc (hsaid ▸ hvc)

/-- What a replica says in a state in which it keeps its promises. -/
theorem Promising.sending (h : Promising node log s.pbft)
    (hl : saidIn node l = [] ∨ ∃ msg, saidIn node l = [msg] ∧ Sends node outside ev s₀ s msg) :
    VotesAsPromised (saidIn node (log ++ l)) := by
  rw [saidIn_append]
  rcases hl with hl | ⟨msg, hl, hsends⟩
  · rw [hl, List.append_nil]
    exact h.kept
  · rw [hl]
    refine justified_concat.mpr ⟨h.kept, fun hvote vc hvc htype => ?_⟩
    obtain ⟨hview, hvalid⟩ := hsends.vote hvote
    rw [hview]
    exact h.valid hvalid vc hvc htype

theorem Keeping.step (h : Keeping node past s₀ s) (ha : KeepsPromise node (.up past s₀) (.event outside ev))
    (hstep : Step node outside ev s₀ s s') : Keeping node past s₀ s' := by
  obtain ⟨l, hl, hemitted, hone⟩ := hstep.log
  have hsaid := saidIn_of_emitted hemitted hone
  have hkept : VotesAsPromised (saidIn node (past ++ s'.log)) := by
    rw [hl, ← List.append_assoc]
    exact h.promising.sending hsaid
  rcases hstep.promise with ⟨hsent, hold⟩ | ⟨hnext, hinvalid, hpbft⟩
  · refine ⟨⟨hkept, fun hvalid vc hvc htype => ?_⟩, hsent ▸ h.later, fun heq vc hvc htype => ?_⟩
    · rcases hstep.validView hvalid with ⟨hview, hvalid₀⟩ | ⟨hsame, hlog, nv, nvEnv, hview, hnewview⟩
      · rw [hview]
        refine h.promising.valid hvalid₀ vc ?_ htype
        rw [saidIn_append, List.mem_append] at hvc ⊢
        exact hvc.imp_right fun hvc => hold vc hvc htype
      · -- the VIEWCHANGEs are those from before the event
        have hbefore : vc ∈ (Machine.up past s₀).said node := by
          show vc ∈ saidIn node (past ++ s₀.log)
          rw [hlog] at hvc
          rw [saidIn_append, List.mem_append] at hvc ⊢
          exact hvc.imp_right fun hvc => h.promised hsame vc hvc htype
        rw [hview]
        rcases hnewview with haccepted | ⟨hstate, hvalid₀⟩
        · exact ha.newview s₀ outside ev nv nvEnv rfl rfl haccepted vc hbefore htype
        · exact ha.state s₀ outside ev nv nvEnv rfl rfl hstate hvalid₀ vc hbefore htype
    · exact h.promised (hsent ▸ heq) vc (hold vc hvc htype) htype
  · have hlt := UInt64.lt_of_le_of_lt h.later hnext
    refine ⟨⟨hkept, fun hvalid => ?_⟩, UInt64.le_of_lt hlt, fun heq => ?_⟩
    · rw [hpbft] at hvalid
      rw [hinvalid] at hvalid
      cases hvalid
    · rw [heq] at hlt
      exact absurd hlt (UInt64.lt_irrefl _)

theorem Keeping.run (h : Promising node (past ++ s₀.log) s₀.pbft)
    (ha : KeepsPromise node (.up past s₀) (.event outside ev))
    (hsteps : Relation.ReflTransGen (Step node outside ev s₀) s₀ s) : Keeping node past s₀ s := by
  induction hsteps with
  | refl => exact .begin h
  | tail _ hstep ih => exact ih.step ha hstep

/-- The promises of a replica whose process ends. -/
theorem Keeping.crash (h : Keeping node past s₀ s) (hcrash : Crash node outside ev s₀ s s')
    (hleaves : Leaves node outside ev s₀ s b) : Promising node (past ++ s'.log) b := by
  obtain ⟨l, hl, hemitted, hone⟩ := hcrash.log
  have hsaid := saidIn_of_emitted hemitted hone
  rw [hl, ← List.append_assoc]
  refine ⟨h.promising.sending hsaid, fun hvalid vc hvc htype => ?_⟩
  rw [hleaves.viewIsValid] at hvalid
  have hvc₀ : vc ∈ saidIn node (past ++ s.log) := by
    rw [saidIn_append, List.mem_append] at hvc
    refine hvc.resolve_right fun hvc => ?_
    rcases hsaid with hnil | ⟨msg, hone, hsends⟩
    · rw [hnil] at hvc
      cases hvc
    · rw [hone, List.mem_singleton] at hvc
      have hchecked := hsends.checked
      rw [← hvc, htype] at hchecked
      rw [hchecked.1] at hvalid
      cases hvalid
  have hle := h.promising.valid hvalid vc hvc₀ htype
  rcases hleaves.view with hview | ⟨hview, nv, nvEnv, haccepted, hnv⟩
  · rwa [hview]
  · rw [hnv]
    rw [hview] at hle
    exact UInt64.le_trans hle (UInt64.le_of_lt haccepted.validNewview.next)

variable (node) in
theorem promise_upheld : Upheld node (KeepsPromise node) (fun _ past s => Promising node (past ++ s.log) s.pbft)
    (fun _ log b => Promising node log b) where
  first := ⟨justified_nil _, fun _ _ h => by cases h⟩
  returns hs past s outside ev s' _ hk hU ha hr := (Keeping.run hU ha (event_ok hk hr)).promising
  throws hs past s outside ev e s' _ hk hU ha hr := by
    obtain ⟨s₁, hsteps, hcrash⟩ := event_error hk hr
    obtain ⟨b, hb, hleaves⟩ := hcrash.durable (hk.run hsteps)
    exact ⟨b, hb, (Keeping.run hU ha hsteps).crash hcrash hleaves⟩
  stops hs past s lifetime _ hU _ := hU
  waits hs past p b h _ hD := hD
  restarts hs log b s hD hr := by
    refine hD.of_eq ?_ hr.view hr.viewIsValid
    rw [saidIn_append, saidIn_of_saves hr.log, List.append_nil]
  fails hs log b l hD hl := by
    refine hD.of_eq ?_ rfl rfl
    rw [saidIn_append, saidIn_of_saves hl, List.append_nil]

/-- As long as every NEWVIEW that is taken over is for no earlier view than those
the replica has sent a VIEWCHANGE for, it votes in no earlier view than these. -/
theorem promise_kept {hs : List Happening} {m : Machine} (h : Machine.Runs node (KeepsPromise node) hs m) :
    VotesAsPromised (m.said node) := by
  have hm := (promise_upheld node).run h
  cases m with
  | up past s => exact hm.2.kept
  | down past p =>
    obtain ⟨b, -, hpromising⟩ := hm
    exact hpromising.kept

end

/-- A fails to hear of a request, gives up view 1 and enters view 2. -/
def failAndEnter : List Happening :=
  [.restart none] ++ [.event laterOutside .failure] ++ [.event laterOutside (namedNewview [])]

theorem promise_kept_entering :
    let node := strictNode "A"
    let m := Machine.after node failAndEnter
    (m.said node).map (fun msg => (msg.type, msg.view)) = [(.viewchange, 2), (.prepare, 2)] ∧
    VotesAsPromised (m.said node) := by
  have hfailure : KeepsPromise (strictNode "A") (Machine.after (strictNode "A") [.restart none])
      (.event laterOutside .failure) := by
    refine ⟨?_, ?_⟩
    · rintro s _ _ nv nvEnv - ⟨⟩ haccepted
      obtain ⟨session, hev⟩ := haccepted.event
      cases hev
    · rintro s _ _ nv nvEnv - ⟨⟩ hstate
      obtain ⟨inner, hreceived, -⟩ := hstate.received
      obtain ⟨msg, session, hev, -⟩ := hreceived.message
      cases hev
  have hnewview : KeepsPromise (strictNode "A")
      (Machine.after (strictNode "A") ([.restart none] ++ [.event laterOutside .failure]))
      (.event laterOutside (namedNewview [])) := by
    refine ⟨?_, ?_⟩
    · rintro s _ _ nv nvEnv - ⟨⟩ haccepted
      obtain ⟨session, hev⟩ := haccepted.event
      have hparse := haccepted.parse
      cases hev
      cases (Codec.parse_serialize _ _).symm.trans hparse
      decide +kernel
    · rintro s _ _ nv nvEnv - ⟨⟩ hstate
      obtain ⟨inner, hreceived, -⟩ := hstate.received
      exact absurd hreceived (not_stateReceived rfl inner)
  have hstart : Machine.Runs (strictNode "A") (KeepsPromise (strictNode "A")) [.restart none]
      (Machine.after (strictNode "A") [.restart none]) := by
    refine Machine.runs_concat .start ⟨?_, ?_⟩
    · rintro s outside ev nv nvEnv - ⟨⟩
    · rintro s outside ev nv nvEnv - ⟨⟩
  exact ⟨by decide +kernel, promise_kept (Machine.runs_concat (Machine.runs_concat hstart hfailure) hnewview)⟩

/-- A VIEWCHANGE of a peer, who has prepared nothing. -/
def namedViewchange (sender : String) (view : UInt64) : Event :=
  .message (namedEnvelope sender (Wire.strict.pbftMsg.serialize
    { (default : PbftMsg) with type := .viewchange, view := view })) none

/-- A joins B and C in giving up the views before 3, and then enters view 2. -/
def joinAndEnter : List Happening :=
  [.restart none, .event laterOutside (namedViewchange "B" 3), .event laterOutside (namedViewchange "C" 3),
    .event laterOutside (namedNewview [])]

/-- After a VIEWCHANGE for view 3, A accepts the NEWVIEW for view 2 and votes there. -/
theorem promise_broken :
    let node := strictNode "A"
    let m := Machine.after node joinAndEnter
    Machine.Runs node (fun _ _ => True) joinAndEnter m ∧
    (m.said node).map (fun msg => (msg.type, msg.view)) = [(.viewchange, 3), (.prepare, 2)] ∧
    ¬ VotesAsPromised (m.said node) := by
  intro node m
  have hsaid : (m.said node).map (fun msg => (msg.type, msg.view)) = [(.viewchange, 3), (.prepare, 2)] := by
    decide +kernel
  refine ⟨Machine.runs_after _ _, hsaid, fun hpromised => ?_⟩
  obtain ⟨vc, rest, hlist, hvc, hrest⟩ := List.map_eq_cons_iff.mp hsaid
  obtain ⟨vote, _, rfl, hvote, -⟩ := List.map_eq_cons_iff.mp hrest
  have hle := hpromised [vc] vote _ hlist (.inl (congrArg Prod.fst hvote)) vc (List.mem_singleton_self vc)
    (congrArg Prod.fst hvc)
  rw [show vc.view = 3 from congrArg Prod.snd hvc, show vote.view = 2 from congrArg Prod.snd hvote] at hle
  exact absurd hle (by decide)

end SwarmDb
