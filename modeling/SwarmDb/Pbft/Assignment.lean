import SwarmDb.Pbft.Numbers
import SwarmDb.Pbft.SentMessages

/-!
# One request for each number

A primary gives each request the next sequence number, and a NEWVIEW sets it back, to a number above the pre-prepares of
the new view. As long as every NEWVIEW is handled to its end, and its last pre-prepare can be parsed, no number of a
view is given out twice (`assigned_once`).
-/

namespace SwarmDb

open Lib Program

/-- The NEWVIEW with which a replica entered a view in a run. -/
def StartedBy (node : Node) (hs : List Happening) (nv : PbftMsg) : Prop :=
  Machine.Handled node hs fun s outside ev => ∃ nvEnv, NewviewAccepted node outside ev s nv nvEnv

/-- The event is the request of a client. -/
def Event.IsRequest (ev : Event) : Prop :=
  ∃ env session text, ev = .message env session ∧ env.payload = .databaseMsg text

/-- Nothing happens that makes a replica lose count: a valid NEWVIEW is handled to
its end and its last pre-prepare can be parsed, no request is given the last
number there is, and no state comes in, with which the view could go back. -/
structure KeepsCount (node : Node) (m : Machine) (a : Happening) : Prop where
  newview : ∀ s outside ev nv nvEnv, m.replica? = some s → a = .event outside ev →
    NewviewAccepted node outside ev s nv nvEnv → (ev.program node outside).result s = .ok () ∧
      ∀ pp ∈ nv.prePrepareMessages.getLast?, (node.wire.pbftMsg.parse pp.pbft).isSome
  number : ∀ s outside ev, m.replica? = some s → a = .event outside ev → ev.IsRequest → s.pbft.isPrimary node = true →
    s.pbft.nextIssuedSequenceNumber ≠ 0 - 1
  state : ∀ outside ev inner, a = .event outside ev → ¬ StateReceived node ev inner

/-- What a replica has sent, and the NEWVIEWs of its run, next to its view and
its next sequence number. -/
structure Assigned (node : Node) (hs : List Happening) (log : List Effect) (b : Pbft) : Prop where
  sent : ∀ e ∈ log, ∀ msg, e.said? node = some msg → msg.type = .preprepare →
    msg.view < b.view ∨ msg.view = b.view ∧ msg.sequence < b.nextIssuedSequenceNumber
  once : ∀ e ∈ log, ∀ e' ∈ log, ∀ msg msg', e.said? node = some msg → e'.said? node = some msg' →
    msg.type = .preprepare → msg'.type = .preprepare → msg.logKey = msg'.logKey → msg.requestHash = msg'.requestHash
  newviews : ∀ nv, StartedBy node hs nv → nv.view < b.view ∨ nv.view = b.view ∧
    ∀ pp ∈ nv.prePrepareMessages, node.sequenceOf pp < b.nextIssuedSequenceNumber
  apart : ∀ nv, StartedBy node hs nv → ∀ e ∈ log, ∀ msg, e.said? node = some msg → msg.type = .preprepare →
    msg.view = nv.view → ∀ pp ∈ nv.prePrepareMessages, node.sequenceOf pp ≠ msg.sequence

section

variable {node : Node} {outside : Outside} {ev : Event} {past : List Effect} {s₀ s s' : Replica} {hs : List Happening}
  {nv : PbftMsg} {nvEnv : BznEnvelope} {log : List Effect} {b b' : Pbft}

/-! ## The NEWVIEWs of a run -/

theorem NewviewAccepted.runFrom (h : NewviewAccepted node outside ev s nv nvEnv) :
    (ev.program node outside).runFrom s = (handleNewview node outside nv nvEnv).runFrom s := by
  obtain ⟨session, rfl⟩ := h.event
  obtain ⟨text, hpayload⟩ := h.payload
  have hfilter : s.pbft.preliminaryFilterMsg nv = true := by simp [Pbft.preliminaryFilterMsg, h.type]
  show (handleProtobuf node outside nvEnv session).runFrom s = _
  rw [handleProtobuf, if_neg (by simp [h.swarm])]
  simp only [hpayload, handleBznMessage, h.parse]
  rw [handleMessage, runFrom_bind, runFrom_read]
  simp only [h.peer, hfilter, Bool.not_true, Bool.false_eq_true, if_false]
  split
  · rename_i hsender
    rw [runFrom_bind, runFrom_lift, h.verified hsender]
    simp only [h.type, Bool.false_eq_true, if_false]
  · simp only [pure_bind, h.type, Bool.false_eq_true, if_false]

/-- The NEWVIEW in an event is determined by the event. -/
theorem NewviewAccepted.eq {nv' : PbftMsg} {nvEnv' : BznEnvelope} (h : NewviewAccepted node outside ev s nv nvEnv)
    (h' : NewviewAccepted node outside ev s nv' nvEnv') : nv' = nv := by
  obtain ⟨session, rfl⟩ := h.event
  obtain ⟨session', heq⟩ := h'.event
  cases heq
  exact Option.some.inj (h'.parse.symm.trans h.parse)

namespace Assigned

/-- The next number may grow. -/
theorem raise (h : Assigned node hs log b) (hv : b'.view = b.view)
    (hn : b.nextIssuedSequenceNumber ≤ b'.nextIssuedSequenceNumber) : Assigned node hs log b' where
  sent e he msg hm ht := by
    rw [hv]
    exact (h.sent e he msg hm ht).imp_right fun h => ⟨h.1, UInt64.lt_of_lt_of_le h.2 hn⟩
  once := h.once
  newviews nv hnv := by
    rw [hv]
    exact (h.newviews nv hnv).imp_right fun h => ⟨h.1, fun pp hpp => UInt64.lt_of_lt_of_le (h.2 pp hpp) hn⟩
  apart := h.apart

theorem same (h : Assigned node hs log b) (hv : b'.view = b.view)
    (hn : b'.nextIssuedSequenceNumber = b.nextIssuedSequenceNumber) : Assigned node hs log b' :=
  h.raise hv (hn ▸ UInt64.le_rfl)

variable {a : Happening} {l : List Effect} {msg : PbftMsg}

/-- Nothing new in a run that has gone on. -/
theorem concat (h : Assigned node hs log b) (hnone : ∀ nv, StartedBy node (hs ++ [a]) nv → StartedBy node hs nv) :
    Assigned node (hs ++ [a]) log b where
  sent := h.sent
  once := h.once
  newviews nv hnv := h.newviews nv (hnone nv hnv)
  apart nv hnv := h.apart nv (hnone nv hnv)

/-- Effects that send no pre-prepare. -/
theorem append (h : Assigned node hs log b) (hl : ∀ e ∈ l, ∀ msg, e.said? node = some msg → msg.type ≠ .preprepare) :
    Assigned node hs (log ++ l) b := by
  have hold : ∀ e ∈ log ++ l, ∀ msg, e.said? node = some msg → msg.type = .preprepare → e ∈ log := by
    intro e he msg hm ht
    rcases List.mem_append.mp he with he | he
    · exact he
    · exact absurd ht (hl e he msg hm)
  exact
    { sent := fun e he msg hm ht => h.sent e (hold e he msg hm ht) msg hm ht
      once := fun e he e' he' msg msg' hm hm' ht ht' =>
        h.once e (hold e he msg hm ht) e' (hold e' he' msg' hm' ht') msg msg' hm hm' ht ht'
      newviews := h.newviews
      apart := fun nv hnv e he msg hm ht => h.apart nv hnv e (hold e he msg hm ht) msg hm ht }

section

variable (h₀ : Assigned node hs (past ++ s₀.log) s₀.pbft)
include h₀

/-- A pre-prepare for the number that was next when the event came. -/
theorem orders {e : Effect} (hm : e.said? node = some msg) (ho : Orders node ev s₀ s msg)
    (hlast : s₀.pbft.nextIssuedSequenceNumber ≠ 0 - 1) : Assigned node hs (past ++ (s.log ++ [e])) s.pbft := by
  have hlt : s₀.pbft.nextIssuedSequenceNumber < s.pbft.nextIssuedSequenceNumber := by
    rw [ho.next, ho.sequence, lt_add_one_iff hlast]
    exact UInt64.le_rfl
  have hold : ∀ e' ∈ past ++ (s.log ++ [e]), e' = e ∨ e' ∈ past ++ s₀.log := by
    rw [← List.append_assoc, ho.log]
    intro e' he'
    rcases List.mem_append.mp he' with he' | he'
    · exact .inr he'
    · exact .inl (List.mem_singleton.mp he')
  have hother : ∀ e' ∈ past ++ s₀.log, ∀ msg', e'.said? node = some msg' → msg'.type = .preprepare →
      msg'.logKey ≠ msg.logKey := by
    intro e' he' msg' hm' ht' heq
    rw [PbftMsg.logKey, PbftMsg.logKey, LogKey.mk.injEq, ho.view, ho.sequence] at heq
    rcases h₀.sent e' he' msg' hm' ht' with hv | ⟨-, hq⟩
    · exact UInt64.lt_irrefl _ (heq.1 ▸ hv)
    · exact UInt64.lt_irrefl _ (heq.2 ▸ hq)
  refine ⟨fun e' he' msg' hm' ht' => ?_, ?_, fun nv hnv => ?_, fun nv hnv e' he' msg' hm' ht' hv pp hpp => ?_⟩
  · rw [ho.sameView]
    rcases hold e' he' with rfl | he'
    · rw [hm] at hm'
      cases hm'
      exact .inr ⟨ho.view, ho.sequence ▸ hlt⟩
    · exact (h₀.sent e' he' msg' hm' ht').imp_right fun h => ⟨h.1, UInt64.lt_trans h.2 hlt⟩
  · intro e₁ he₁ e₂ he₂ msg₁ msg₂ hm₁ hm₂ ht₁ ht₂ heq
    rcases hold e₁ he₁ with rfl | hold₁ <;> rcases hold e₂ he₂ with rfl | hold₂
    · rw [hm₁] at hm₂
      cases hm₂
      rfl
    · rw [hm] at hm₁
      cases hm₁
      exact absurd heq.symm (hother e₂ hold₂ msg₂ hm₂ ht₂)
    · rw [hm] at hm₂
      cases hm₂
      exact absurd heq (hother e₁ hold₁ msg₁ hm₁ ht₁)
    · exact h₀.once e₁ hold₁ e₂ hold₂ msg₁ msg₂ hm₁ hm₂ ht₁ ht₂ heq
  · rw [ho.sameView]
    exact (h₀.newviews nv hnv).imp_right fun h => ⟨h.1, fun pp hpp => UInt64.lt_trans (h.2 pp hpp) hlt⟩
  · rcases hold e' he' with rfl | he'
    · rw [hm] at hm'
      cases hm'
      rcases h₀.newviews nv hnv with hlow | ⟨-, hall⟩
      · rw [← hv, ho.view] at hlow
        exact absurd hlow (UInt64.lt_irrefl _)
      · intro heq
        have hpp' := hall pp hpp
        rw [heq, ho.sequence] at hpp'
        exact UInt64.lt_irrefl _ hpp'
    · exact h₀.apart nv hnv e' he' msg' hm' ht' hv pp hpp

/-- What is sent in a step. -/
theorem emits (h : Assigned node hs (past ++ s.log) s.pbft) (hl : ∀ e ∈ l, Emitted node outside ev s₀ s e)
    (hone : (∃ e, l = [e]) ∨ ∀ e ∈ l, e.Quiet)
    (hlast : ev.IsRequest → s₀.pbft.isPrimary node = true → s₀.pbft.nextIssuedSequenceNumber ≠ 0 - 1) :
    Assigned node hs (past ++ (s.log ++ l)) s.pbft := by
  by_cases hpp : ∃ e ∈ l, ∃ msg, e.said? node = some msg ∧ msg.type = .preprepare
  · obtain ⟨e, he, msg, hm, ht⟩ := hpp
    have ho : Orders node ev s₀ s msg := by
      cases (hl e he).sent hm with
      | preprepare _ orders => exact orders
      | prepare | commit => cases ht
      | viewchange _ type | newview _ type => rw [type] at ht; cases ht
    rcases hone with ⟨e', rfl⟩ | hquiet
    · cases List.mem_singleton.mp he
      exact h₀.orders hm ho (hlast ho.request ho.primary)
    · rw [(hquiet e he).said?] at hm
      cases hm
  · rw [← List.append_assoc]
    exact h.append fun e he msg hm ht => hpp ⟨e, he, msg, hm, ht⟩

/-- A step of an event that is no NEWVIEW and brings no state. -/
theorem step (h : Assigned node hs (past ++ s.log) s.pbft)
    (hnone : ∀ nv nvEnv, ¬ NewviewAccepted node outside ev s₀ nv nvEnv)
    (hstate : ∀ inner, ¬ StateReceived node ev inner)
    (hlast : ev.IsRequest → s₀.pbft.isPrimary node = true → s₀.pbft.nextIssuedSequenceNumber ≠ 0 - 1)
    (hstep : Step node outside ev s₀ s s') : Assigned node hs (past ++ s'.log) s'.pbft := by
  obtain ⟨l, hl, he, hone⟩ := hstep.log
  rw [hl]
  have hs' := h₀.emits h he hone hlast
  cases hstep with
  | memory _ same => exact hs'.same same.view same.nextIssuedSequenceNumber
  | nextIssued _ numbers =>
    cases numbers with
    | request request primary _ next =>
      refine hs'.raise rfl ?_
      show s.pbft.nextIssuedSequenceNumber ≤ s₀.pbft.nextIssuedSequenceNumber + 1
      rw [next]
      exact UInt64.le_of_lt ((lt_add_one_iff (hlast request primary)).mpr UInt64.le_rfl)
    | viewchange nv nvEnv accepted | prePrepare nv nvEnv accepted => exact absurd accepted (hnone nv nvEnv)
  | newview nv nvEnv accepted | saveNewview nv nvEnv accepted => exact absurd accepted (hnone nv nvEnv)
  | adoptView _ _ received =>
    obtain ⟨inner, hinner, -⟩ := received.received
    exact absurd hinner (hstate inner)
  | _ => exact hs'.same rfl rfl

end

theorem steps (h : Assigned node hs (past ++ s.log) s.pbft)
    (hnone : ∀ nv nvEnv, ¬ NewviewAccepted node outside ev s nv nvEnv) (hstate : ∀ inner, ¬ StateReceived node ev inner)
    (hlast : ev.IsRequest → s.pbft.isPrimary node = true → s.pbft.nextIssuedSequenceNumber ≠ 0 - 1)
    (hsteps : Relation.ReflTransGen (Step node outside ev s) s s') : Assigned node hs (past ++ s'.log) s'.pbft := by
  induction hsteps with
  | refl => exact h
  | tail _ hstep ih => exact h.step ih hnone hstate hlast hstep

/-- What the process has done when it ends in an event that is no NEWVIEW. -/
theorem crash (h₀ : Assigned node hs (past ++ s₀.log) s₀.pbft) (h : Assigned node hs (past ++ s.log) s.pbft)
    (hnone : ∀ nv nvEnv, ¬ NewviewAccepted node outside ev s₀ nv nvEnv)
    (hlast : ev.IsRequest → s₀.pbft.isPrimary node = true → s₀.pbft.nextIssuedSequenceNumber ≠ 0 - 1)
    (hcrash : Crash node outside ev s₀ s s') (hleaves : Leaves node outside ev s₀ s b) :
    Assigned node hs (past ++ s'.log) b := by
  obtain ⟨l, hl, he, hone⟩ := hcrash.log
  rw [hl]
  rcases hleaves.view with hview | ⟨-, nv, nvEnv, haccepted, -⟩
  · exact (h₀.emits h he hone hlast).same hview hleaves.nextIssuedSequenceNumber
  · exact absurd haccepted (hnone nv nvEnv)

/-- What a start of the process does. -/
theorem idle (h : Assigned node hs log b) (hl : ∀ e ∈ l, ∃ n, e = .saveServiceStateAt n) :
    Assigned node hs (log ++ l) b := by
  refine h.append fun e he msg hm => ?_
  obtain ⟨n, rfl⟩ := hl e he
  cases hm

theorem view_le (h : Assigned node hs log b) {e : Effect} (he : e ∈ log) (hm : e.said? node = some msg)
    (ht : msg.type = .preprepare) : msg.view ≤ b.view := by
  rcases h.sent e he msg hm ht with hlt | ⟨heq, -⟩
  · exact UInt64.le_of_lt hlt
  · exact heq ▸ UInt64.le_rfl

/-- A new view after a NEWVIEW, with a number above its pre-prepares. -/
theorem newview (h : Assigned node hs log b) (hview : b.view < nv.view)
    (honly : ∀ nv', StartedBy node (hs ++ [a]) nv' → StartedBy node hs nv' ∨ nv' = nv) (hb : b'.view = nv.view)
    (hnext : ∀ pp ∈ nv.prePrepareMessages, node.sequenceOf pp < b'.nextIssuedSequenceNumber) :
    Assigned node (hs ++ [a]) log b' where
  sent e he msg hm ht := .inl (hb ▸ UInt64.lt_of_le_of_lt (h.view_le he hm ht) hview)
  once := h.once
  newviews nv' hnv' := by
    rcases honly nv' hnv' with hold | rfl
    · rcases h.newviews nv' hold with hlt | ⟨heq, -⟩
      · exact .inl (hb ▸ UInt64.lt_trans hlt hview)
      · exact .inl (hb ▸ heq ▸ hview)
    · exact .inr ⟨hb.symm, hnext⟩
  apart nv' hnv' e he msg hm ht hv := by
    rcases honly nv' hnv' with hold | rfl
    · exact h.apart nv' hold e he msg hm ht hv
    · exact absurd (UInt64.lt_of_le_of_lt (h.view_le he hm ht) hview) (hv ▸ UInt64.lt_irrefl _)

end Assigned

/-- The effects of an event that is not a request. -/
theorem steps_log (hnot : ¬ ev.IsRequest) (hsteps : Relation.ReflTransGen (Step node outside ev s₀) s s') :
    ∃ l, s'.log = s.log ++ l ∧ ∀ e ∈ l, ∀ msg, e.said? node = some msg → msg.type ≠ .preprepare := by
  induction hsteps with
  | refl => exact ⟨[], (List.append_nil _).symm, fun e he => (by cases he)⟩
  | tail _ hstep ih =>
    obtain ⟨l, hl, hno⟩ := ih
    obtain ⟨l', hl', he, -⟩ := hstep.log
    refine ⟨l ++ l', by rw [hl', hl, List.append_assoc], fun e hmem msg hm ht => ?_⟩
    rcases List.mem_append.mp hmem with hmem | hmem
    · exact hno e hmem msg hm ht
    · cases (he e hmem).sent hm with
      | preprepare _ orders => exact hnot orders.request
      | prepare | commit => cases ht
      | viewchange _ type | newview _ type => rw [type] at ht; cases ht

theorem NewviewAccepted.not_isRequest (h : NewviewAccepted node outside ev s nv nvEnv) : ¬ ev.IsRequest := by
  rintro ⟨env, session, text, rfl, hpayload⟩
  obtain ⟨session', heq⟩ := h.event
  cases heq
  obtain ⟨text', hpbft⟩ := h.payload
  rw [hpbft] at hpayload
  cases hpayload

/-- Where a NEWVIEW that is handled to its end leaves a replica. -/
theorem NewviewAccepted.entered (h : NewviewAccepted node outside ev s nv nvEnv) (hkept : s.Kept node)
    (hrun : (ev.program node outside).runFrom s = (.ok (), s')) :
    s'.pbft.view = nv.view ∧ s'.pbft.nextIssuedSequenceNumber = node.nextAfterNewview nv := by
  rw [h.runFrom] at hrun
  have hresult : (handleNewview node outside nv nvEnv).result s = .ok () := by rw [result, hrun]
  have hfinal : (handleNewview node outside nv nvEnv).final s = s' := by rw [final, hrun]
  have hspec := (handleNewview_spec h.toDelivered h.type s hkept.containers (.refl s)).1 () hresult
  have hnext := handleNewview_next h.valid hresult
  rw [hfinal] at hspec hnext
  exact ⟨hspec.2 h.valid, hnext⟩

theorem assigned_upheld : Upheld node (KeepsCount node)
    (fun hs past s => Assigned node hs (past ++ s.log) s.pbft) (Assigned node) where
  first := ⟨fun e he => (by cases he), fun e he => (by cases he), fun nv hnv => absurd hnv Machine.not_handled_nil,
    fun nv hnv => absurd hnv Machine.not_handled_nil⟩
  returns hs past s outside ev s' hr hk hU ha hrun := by
    have hlast := ha.number s outside ev rfl rfl
    have hstate := fun inner => ha.state outside ev inner rfl
    have hafter : Machine.after node hs = .up past s := hr.eq_foldl.symm
    by_cases hex : ∃ nv nvEnv, NewviewAccepted node outside ev s nv nvEnv
    · obtain ⟨nv, nvEnv, haccepted⟩ := hex
      obtain ⟨hview, hnext⟩ := haccepted.entered hk hrun
      obtain ⟨l, hl, hno⟩ := steps_log haccepted.not_isRequest (event_ok hk hrun)
      rw [hl, ← List.append_assoc]
      refine (hU.append hno).newview haccepted.validNewview.next (fun nv' hnv' => ?_) hview ?_
      · exact (Machine.Handled.of_event hnv' hafter).imp_right fun ⟨nvEnv', haccepted'⟩ => haccepted.eq haccepted'
      · rw [hnext]
        exact haccepted.validNewview.sequenceOf_lt (ha.newview s outside ev nv nvEnv rfl rfl haccepted).2
    · refine (hU.steps (fun nv nvEnv h => hex ⟨nv, nvEnv, h⟩) hstate hlast (event_ok hk hrun)).concat fun nv hnv => ?_
      exact (Machine.Handled.of_event hnv hafter).resolve_right fun ⟨nvEnv, h⟩ => hex ⟨nv, nvEnv, h⟩
  throws hs past s outside ev e s' hr hk hU ha hrun := by
    have hlast := ha.number s outside ev rfl rfl
    have hstate := fun inner => ha.state outside ev inner rfl
    have hnone : ∀ nv nvEnv, ¬ NewviewAccepted node outside ev s nv nvEnv := by
      intro nv nvEnv haccepted
      have hok := (ha.newview s outside ev nv nvEnv rfl rfl haccepted).1
      rw [result, hrun] at hok
      cases hok
    obtain ⟨s₁, hsteps, hcrash⟩ := event_error hk hrun
    obtain ⟨b, hb, hleaves⟩ := hcrash.durable (hk.run hsteps)
    refine ⟨b, hb, (hU.crash (hU.steps hnone hstate hlast hsteps) hnone hlast hcrash hleaves).concat fun nv hnv => ?_⟩
    exact (Machine.Handled.of_event hnv hr.eq_foldl.symm).resolve_right fun ⟨nvEnv, h⟩ => hnone nv nvEnv h
  stops hs past s lifetime _ hU _ := hU.concat fun nv hnv => Machine.Handled.of_restart hnv
  waits hs past p b a hr hD := hD.concat fun nv hnv => Machine.Handled.of_down hnv hr.eq_foldl.symm
  restarts hs log b s hD hr := (hD.idle hr.log).same hr.view hr.nextIssuedSequenceNumber
  fails hs log b l hD hl := hD.idle hl

end

/-- As long as the replica keeps count, it sends at most one pre-prepare for a
number of a view, and none for a number that the NEWVIEW of the view has used. -/
theorem assigned_once {node : Node} {hs : List Happening} {m : Machine}
    (h : Machine.Runs node (KeepsCount node) hs m) :
    (∀ msg ∈ m.said node, ∀ msg' ∈ m.said node, msg.type = .preprepare → msg'.type = .preprepare →
      msg.view = msg'.view → msg.sequence = msg'.sequence → msg.requestHash = msg'.requestHash) ∧
    ∀ msg ∈ m.said node, msg.type = .preprepare → ∀ nv, StartedBy node hs nv → nv.view = msg.view →
      ∀ pp ∈ nv.prePrepareMessages, node.sequenceOf pp ≠ msg.sequence := by
  have hassigned : ∃ b, Assigned node hs m.log b := by
    have hm := assigned_upheld.run h
    cases m with
    | up past s => exact ⟨s.pbft, hm.2⟩
    | down past p =>
      obtain ⟨b, -, hD⟩ := hm
      exact ⟨b, hD⟩
  obtain ⟨b, hb⟩ := hassigned
  constructor
  · intro msg hmsg msg' hmsg' ht ht' hv hq
    obtain ⟨e, he, hm⟩ := List.mem_filterMap.mp hmsg
    obtain ⟨e', he', hm'⟩ := List.mem_filterMap.mp hmsg'
    exact hb.once e he e' he' msg msg' hm hm' ht ht' (by rw [PbftMsg.logKey, PbftMsg.logKey, hv, hq])
  · intro msg hmsg ht nv hnv hv
    obtain ⟨e, he, hm⟩ := List.mem_filterMap.mp hmsg
    exact hb.apart nv hnv e he msg hm ht hv.symm

/-! ## Runs that keep count, and runs that lose it -/

/-- A time at which a request can be young enough. -/
def laterOutside : Outside := { sampleOutside with now := maxRequestAgeMs }

/-- The request of a client. -/
def sampleRequest (nonce : UInt64) : Event :=
  .message { (default : BznEnvelope) with
    swarmId := ascii "swarm"
    payload := .databaseMsg (Wire.plain.databaseMsg.serialize ⟨nonce, [], .other []⟩) } none

/-- A NEWVIEW that comes in from a peer. -/
def newviewFrom (sender : String) (nv : PbftMsg) : Event :=
  .message (signedBySender { (default : BznEnvelope) with
    swarmId := ascii "swarm"
    sender := ascii sender
    payload := .pbft (Wire.plain.pbftMsg.serialize nv) }) none

/-- A node of a swarm in which nothing may follow a message, and a signature is
the name of the signer. -/
def strictNode (uuid : String) : Node :=
  { sampleNode fourPeers uuid with
    wire := .strict
    ssl := { sampleSsl with
      verifySignature := fun uuid _ signature => signature = uuid
      signText := fun uuid _ => some uuid } }

/-- An envelope with the text of a message, signed with the name of its sender. -/
def namedEnvelope (sender : String) (text : Bytes) : BznEnvelope :=
  { (default : BznEnvelope) with
    swarmId := ascii "swarm", sender := ascii sender, signature := ascii sender, payload := .pbft text }

/-- A NEWVIEW of C for view 2 with one pre-prepare, which more bytes follow. -/
def newviewFollowed (rest : Bytes) : PbftMsg :=
  let text (msg : PbftMsg) : Bytes := Wire.strict.pbftMsg.serialize msg
  let vote (type : PbftMsgType) (view : UInt64) : PbftMsg :=
    { (default : PbftMsg) with type := type, view := view, sequence := 1, requestHash := ascii "h" }
  let proof : PreparedProof := ⟨some (namedEnvelope "B" (text (vote .preprepare 1))),
    ["A", "B", "C"].map fun u => namedEnvelope u (text (vote .prepare 1))⟩
  { (default : PbftMsg) with
    type := .newview, view := 2
    viewchangeMessages := [("A", [proof]), ("B", []), ("C", [])].map fun (u, proofs) =>
      namedEnvelope u (text { (default : PbftMsg) with type := .viewchange, view := 2, preparedProofs := proofs })
    prePrepareMessages := [namedEnvelope "C" (text (vote .preprepare 2) ++ rest)] }

/-- The NEWVIEW as it comes in. -/
def namedNewview (rest : Bytes) : Event :=
  .message (namedEnvelope "C" (Wire.strict.pbftMsg.serialize (newviewFollowed rest))) none

/-- C enters view 2 with its own NEWVIEW. -/
def enterView2 (rest : Bytes) : List Happening := [.restart none] ++ [.event laterOutside (namedNewview rest)]

/-- C enters view 2 with its own NEWVIEW and orders a request. -/
def enterAndOrder (rest : Bytes) : List Happening := enterView2 rest ++ [.event laterOutside (sampleRequest 1)]

theorem parse_namedNewview (rest : Bytes) (env : BznEnvelope) (session : Option Nat)
    (h : namedNewview rest = .message env session) :
    (strictNode "C").wire.pbftMsg.parse env.pbft = some (newviewFollowed rest) := by
  cases h
  exact Codec.parse_serialize _ _

theorem keepsCount_restart (node : Node) (m : Machine) (lifetime : Option Nat) :
    KeepsCount node m (.restart lifetime) where
  newview s outside ev nv nvEnv _ h := by cases h
  number s outside ev _ h := by cases h
  state outside ev inner h := by cases h

theorem not_stateReceived {node : Node} {env : BznEnvelope} {session : Option Nat} (h : env.pbftMembership = [])
    (inner : PbftMembershipMsg) : ¬ StateReceived node (.message env session) inner := by
  rintro ⟨htype, msg, session', heq, hparse⟩
  cases heq
  rw [h, Codec.parse, node.wire.pbftMembershipMsg.accepts_nil, node.wire.pbftMembershipMsg.decode_nil] at hparse
  cases hparse
  cases htype

theorem assigned_once_in_view :
    let node := strictNode "C"
    let m := Machine.after node (enterAndOrder [])
    (m.said node).map (fun msg => (msg.type, msg.logKey)) = [(.prepare, ⟨2, 1⟩), (.preprepare, ⟨2, 2⟩)] ∧
    (∀ msg ∈ m.said node, ∀ msg' ∈ m.said node, msg.type = .preprepare → msg'.type = .preprepare →
      msg.view = msg'.view → msg.sequence = msg'.sequence → msg.requestHash = msg'.requestHash) ∧
    ∀ msg ∈ m.said node, msg.type = .preprepare → ∀ nv, StartedBy node (enterAndOrder []) nv → nv.view = msg.view →
      ∀ pp ∈ nv.prePrepareMessages, node.sequenceOf pp ≠ msg.sequence := by
  have hnewview : KeepsCount (strictNode "C") (Machine.after (strictNode "C") [.restart none])
      (.event laterOutside (namedNewview [])) := by
    have hreturns : ((Machine.after (strictNode "C") [.restart none]).replica?.map fun s =>
        ((namedNewview []).program (strictNode "C") laterOutside).result s) = some (.ok ()) := by decide +kernel
    refine ⟨?_, ?_, ?_⟩
    · rintro s _ _ nv nvEnv hs ⟨⟩ haccepted
      rw [hs] at hreturns
      refine ⟨Option.some.inj hreturns, fun pp hpp => ?_⟩
      obtain ⟨session, hev⟩ := haccepted.event
      have hparse := haccepted.parse
      rw [parse_namedNewview [] nvEnv session hev] at hparse
      cases hparse
      cases hpp
      decide +kernel
    · rintro s _ _ - ⟨⟩ ⟨env, session, text, hev, hpayload⟩
      cases hev
      cases hpayload
    · rintro _ _ inner ⟨⟩
      exact not_stateReceived rfl inner
  have hrequest : KeepsCount (strictNode "C") (Machine.after (strictNode "C") (enterView2 []))
      (.event laterOutside (sampleRequest 1)) := by
    have hnext : ((Machine.after (strictNode "C") (enterView2 [])).replica?.map fun s =>
        s.pbft.nextIssuedSequenceNumber) = some 2 := by decide +kernel
    refine ⟨?_, ?_, ?_⟩
    · rintro s _ _ nv nvEnv - ⟨⟩ haccepted
      obtain ⟨text, hpayload⟩ := haccepted.payload
      obtain ⟨session, hev⟩ := haccepted.event
      cases hev
      cases hpayload
    · rintro s _ _ hs ⟨⟩ - -
      rw [hs] at hnext
      have hnext' : s.pbft.nextIssuedSequenceNumber = 2 := Option.some.inj hnext
      rw [hnext']
      decide
    · rintro _ _ inner ⟨⟩
      exact not_stateReceived rfl inner
  have hstart : Machine.Runs (strictNode "C") (KeepsCount (strictNode "C")) [.restart none]
      (Machine.after (strictNode "C") [.restart none]) := Machine.runs_concat .start (keepsCount_restart _ _ _)
  exact ⟨by decide +kernel, assigned_once (Machine.runs_concat (Machine.runs_concat hstart hnewview) hrequest)⟩

/-- B orders a request in view 1 and is killed while it handles the NEWVIEW of C
for view 2. -/
def killedWhileEntering : List Happening :=
  [.restart (some 10), .event laterOutside (sampleRequest 1), .event laterOutside (newviewFrom "C" (newviewAt 0 0 0)),
    .restart none, .event laterOutside (sampleRequest 2)]

/-- A primary that is killed while it enters the next view starts again in its own
view, with the next number set back, and orders another request under a number
it has given out; and a NEWVIEW with a pre-prepare that cannot be parsed leaves
the number of that pre-prepare to the next request. -/
theorem assigned_twice :
    (let node := sampleNode fourPeers "B"
     let m := Machine.after node killedWhileEntering
     (m.said node).map (fun msg => (msg.type, msg.logKey)) = [(.preprepare, ⟨1, 1⟩), (.preprepare, ⟨1, 1⟩)] ∧
       ((m.said node).map (·.requestHash)).Nodup) ∧
    let node := strictNode "C"
    let m := Machine.after node (enterAndOrder [0])
    StartedBy node (enterAndOrder [0]) (newviewFollowed [0]) ∧
      (newviewFollowed [0]).prePrepareMessages.map node.sequenceOf = [1] ∧
      (m.said node).map (fun msg => (msg.type, msg.logKey)) = [(.preprepare, ⟨2, 1⟩)] := by
  refine ⟨⟨by decide +kernel, by decide +kernel⟩, ?_, by decide +kernel, by decide +kernel⟩
  have hvalid : ((Machine.after (strictNode "C") [.restart none]).replica?.map fun s =>
      isValidNewviewMessage (strictNode "C") laterOutside s.pbft (newviewFollowed [0])
        { (default : BznEnvelope) with sender := ascii "C" }) = some (.ok true) := by decide +kernel
  cases hm : Machine.after (strictNode "C") [.restart none] with
  | down past p => rw [hm] at hvalid; cases hvalid
  | up past s =>
    rw [hm] at hvalid
    refine ⟨[.restart none], laterOutside, namedNewview [0],
      [.event laterOutside (sampleRequest 1)], past, s, rfl, hm,
      namedEnvelope "C" (Wire.strict.pbftMsg.serialize (newviewFollowed [0])), ?_⟩
    exact { event := ⟨none, rfl⟩, swarm := rfl, payload := ⟨_, rfl⟩, parse := Codec.parse_serialize _ _,
            peer := by decide +kernel, verified := fun _ => by decide +kernel, type := rfl,
            valid := Option.some.inj hvalid }

end SwarmDb
