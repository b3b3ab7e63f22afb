import SwarmDb.Pbft.CheckpointMonotone
import SwarmDb.Pbft.CheckpointRestart

/-!
# The state requests of the checkpoint manager

`local_checkpoint_reached` and `maybe_stabilize_checkpoint` each end in a comparison of a field with what it was just
set to, so neither sends a state request (`localCheckpointReached_eq`, `maybeStabilizeCheckpoint_eq`): the only ones
are those of the delayed timer, and then there is a proof to draw a peer from (`stableProof_invariant`).
-/

namespace SwarmDb

open Lib Program

section

variable {node : Node} {outside : Outside} {cp : Checkpoint} {s : CheckpointProcess}

/-! ## What is emitted -/

variable {E : Effect → Prop} {s' : CheckpointProcess} {msg : BznEnvelope}

theorem ManagerFrame.log_eq (h : ManagerFrame (fun _ => False) s s') : s'.log = s.log := by
  obtain ⟨es, hlog, hes⟩ := h.log
  rw [hlog, List.eq_nil_iff_forall_not_mem.mpr hes, List.append_nil]

/-- A message that starts a timer leaves a proof with enough messages. -/
theorem handleCheckpointMessage_catchup (hs : Mirrors s.toProcess s.manager)
    (h : (handleCheckpointMessage node outside msg).result s = .ok ()) :
    ((handleCheckpointMessage node outside msg).final s).manager.Enough node ∨
      ((handleCheckpointMessage node outside msg).final s).log = s.log ∧
      ((handleCheckpointMessage node outside msg).final s).manager.latestStableCheckpoint =
        s.manager.latestStableCheckpoint := by
  unfold handleCheckpointMessage at h ⊢
  cases hparse : node.wire.checkpointMsg.parse msg.checkpointMsg with
  | none => exact .inr ⟨rfl, rfl⟩
  | some inner =>
    rw [hparse] at h
    simp only [result_read_bind, final_read_bind] at h ⊢
    split
    · exact .inr ⟨rfl, rfl⟩
    · rename_i hold
      rw [if_neg hold] at h
      split
      · split
        · exact .inr ⟨ManagerFrame.log_eq (addStableCheckpointEvidence_frame msg s),
            keeps_addStableCheckpointEvidence node msg s⟩
        · exact .inr ⟨rfl, rfl⟩
      · rename_i hother
        rw [if_neg hother] at h
        obtain ⟨u, hadd, hrest⟩ := result_bind_eq_ok h
        rw [final_bind_ok hadd]
        obtain ⟨hmanager, hmirrors⟩ := addPartialCheckpointProof_endsAt hs _ msg hadd
        by_cases hattested : honestMemberSize node.swarmSize ≤ checkpointAttestants node
          ((addPartialCheckpointProof node ⟨inner.sequence, inner.stateHash⟩ msg).final s).manager
          ⟨inner.sequence, inner.stateHash⟩
        · rw [← hmanager] at hmirrors
          rw [(maybeStabilizeCheckpoint_endsAt hmirrors _ hrest).1]
          exact .inl (CheckpointManager.maybeStabilized_enough hattested)
        · rw [maybeStabilizeCheckpoint, final_read_bind, if_neg hattested]
          refine .inr ⟨ManagerFrame.log_eq (addPartialCheckpointProof_frame _ msg s), ?_⟩
          rw [final_pure, hmanager]
          rfl

/-! ## Events -/

/-- What can happen to the manager: a call, or the end of the timer of a delayed state request. -/
inductive CheckpointEvent where
  | call (call : CheckpointCall)
  | catchupTimeout (outside : Outside) (cp : Checkpoint)

namespace CheckpointEvent

def program (node : Node) : CheckpointEvent → Program Fault CheckpointProcess Unit
  | call c => c.program node
  | catchupTimeout outside cp => handleCatchupTimeout node outside cp

/-- Only an envelope with `P` is handed to the manager. -/
def HandsOver (P : BznEnvelope → Prop) : CheckpointEvent → Prop
  | call (.handleCheckpointMessage _ msg) => P msg
  | _ => True

/-- A timer ends only if it was started. -/
def Enabled (s : CheckpointProcess) : CheckpointEvent → Prop
  | call _ => True
  | catchupTimeout _ cp => Effect.triggerCatchup cp ∈ s.log

end CheckpointEvent

/-- A run of the manager by events that return. -/
inductive Happens (node : Node) : CheckpointProcess → List CheckpointEvent → CheckpointProcess → Prop where
  | nil (s : CheckpointProcess) : Happens node s [] s
  | cons {s s' : CheckpointProcess} {event : CheckpointEvent} {events : List CheckpointEvent}
    (enabled : event.Enabled s)
      (returns : (event.program node).result s = .ok ())
        (rest : Happens node ((event.program node).final s) events s') :
      Happens node s (event :: events) s'

/-- The runs by calls alone. -/
theorem Happens.ofCalls {calls : List CheckpointCall} (h : allReturn node s calls) :
    Happens node s (calls.map .call) (stateAfter node s calls) := by
  induction calls generalizing s with
  | nil => exact .nil s
  | cons _ _ ih =>
    unfold allReturn at h
    split at h
    · rename_i hcall
      exact .cons trivial hcall (ih h)
    · cases h

variable {events : List CheckpointEvent} {event : CheckpointEvent}

theorem Happens.append {s'' : CheckpointProcess} {events' : List CheckpointEvent} (h : Happens node s events s')
    (h' : Happens node s' events' s'') : Happens node s (events ++ events') s'' := by
  induction h with
  | nil => exact h'
  | cons enabled returns _ ih => exact .cons enabled returns (ih h')

/-! ## The stable proof -/

/-- What the manager holds is evidence of what it says, made of envelopes with `P`, and from the
first timer on there is enough of it for the stable checkpoint. -/
structure Proven (node : Node) (P : BznEnvelope → Prop) (s : CheckpointProcess) : Prop where
  mirrors : Mirrors s.toProcess s.manager
  supported : s.manager.Supported node P
  enough : s.manager.Enough node ∨ s.manager.latestStableCheckpoint = ⟨0, initialCheckpointHash⟩ ∧
    ∀ cp, Effect.triggerCatchup cp ∉ s.log

variable {P : BznEnvelope → Prop}

theorem catchup_notMem (h : ManagerFrame (fun e => ∀ cp, e ≠ .triggerCatchup cp) s s')
    (hs : ∀ cp, Effect.triggerCatchup cp ∉ s.log) (cp : Checkpoint) : Effect.triggerCatchup cp ∉ s'.log := by
  obtain ⟨es, hlog, hes⟩ := h.log
  rw [hlog, List.mem_append, not_or]
  exact ⟨hs cp, fun hmem => hes _ hmem cp rfl⟩

theorem Proven.call (h : Proven node P s) {call : CheckpointCall} (hP : (CheckpointEvent.call call).HandsOver P)
    (hok : (call.program node).result s = .ok ()) : Proven node P ((call.program node).final s) := by
  obtain ⟨hmanager, hmirrors⟩ := call_endsAt h.mirrors call hok
  refine ⟨hmanager ▸ hmirrors, ?_, ?_⟩
  · rw [hmanager]
    cases call with
    | handleCheckpointMessage => exact CheckpointManager.handled_supported h.supported hP
    | localCheckpointReached _ cp => exact CheckpointManager.reached_supported h.supported cp
  · cases call with
    | handleCheckpointMessage _ msg =>
      rcases h.enough with henough | ⟨hinitial, hcatchup⟩
      · rw [hmanager]
        exact .inl (CheckpointManager.handled_enough henough msg)
      · refine (handleCheckpointMessage_catchup h.mirrors hok).imp_right ?_
        rintro ⟨hlog, hstable⟩
        refine ⟨hstable.trans hinitial, fun cp => ?_⟩
        rw [CheckpointCall.program, hlog]
        exact hcatchup cp
    | localCheckpointReached _ cp =>
      rw [hmanager]
      refine h.enough.imp_right ?_
      rintro ⟨hinitial, hcatchup⟩
      exact ⟨hinitial, catchup_notMem (localCheckpointReached_emits (fun _ _ _ h => by cases h) s) hcatchup⟩

theorem Proven.step (h : Proven node P s) (hP : event.HandsOver P) (hok : (event.program node).result s = .ok ()) :
    Proven node P ((event.program node).final s) := by
  cases event with
  | call => exact h.call hP hok
  | catchupTimeout outside cp =>
    have hends : EndsAt (handleCatchupTimeout node outside cp) s s.manager :=
      .bind_read (.ite (fun _ => sendStateRequest_endsAt h.mirrors) fun _ => .pure h.mirrors)
    obtain ⟨hmanager, hmirrors⟩ := hends hok
    rw [CheckpointEvent.program]
    refine ⟨hmanager ▸ hmirrors, ?_, ?_⟩
    · rw [hmanager]
      exact h.supported
    · rw [hmanager]
      exact h.enough.imp_right fun ⟨hinitial, hcatchup⟩ =>
        ⟨hinitial, catchup_notMem (handleCatchupTimeout_emits (fun _ _ _ _ _ => nofun) cp s) hcatchup⟩

theorem Proven.run (h : Proven node P s) (hP : ∀ event ∈ events, event.HandsOver P) (hrun : Happens node s events s') :
    Proven node P s' := by
  induction hrun with
  | nil => exact h
  | cons _ returns _ ih =>
    rw [List.forall_mem_cons] at hP
    exact ih (h.step hP.1 returns) hP.2

theorem Proven.start (hs : checkpointProcessOver default = .ok s) : Proven node P s := by
  obtain ⟨hinitial, hmirrors⟩ := checkpointProcessOver_default hs
  refine ⟨hmirrors, hinitial ▸ CheckpointManager.initial_supported, .inr ⟨by rw [hinitial]; rfl, ?_⟩⟩
  have hstart : checkpointProcessOver default = .ok sampleManager := rfl
  cases hs
  intro cp h
  cases h

/-! ## What is thrown -/

/-- A fault other than the one of a peer drawn from an empty proof. -/
def Fault.NotEmptyDraw (e : Fault) : Prop := e ≠ .exception "undefined behaviour"

theorem act_throws (f : Process → Process) : Throws Fault.NotEmptyDraw (act f) := by
  refine .bind .read fun p => ?_
  split
  · exact .fail nofun
  · exact .update _
  · exact .update _

theorem raise_throws {σ α : Type} (what : String) : Throws Fault.NotEmptyDraw (raise what : Program Fault σ α) :=
  .fail nofun

theorem persistent_throws (value name : Bytes) (ks : List Bytes) :
    Throws Fault.NotEmptyDraw (persistent .string value name ks) := by
  refine .bind .read fun p => .ite (raise_throws _) ?_
  split
  · exact .lift fun e he => by cases he
  · exact .ite (.bind (act_throws _) fun _ => .pure _) (raise_throws _)

theorem assign_throws {α : Type} (c : Conversion α) (a : α) (name : Bytes) (ks : List Bytes) :
    Throws Fault.NotEmptyDraw (assign c a name ks) :=
  .bind .read fun _ => .ite (act_throws _) (raise_throws _)

theorem destroy_throws (name : Bytes) (ks : List Bytes) : Throws Fault.NotEmptyDraw (destroy name ks) :=
  .bind .read fun _ => act_throws _

theorem emit_throws (e : Effect) : Throws Fault.NotEmptyDraw (emit e) := act_throws _

theorem multicast_throws (h : msg.payload ≠ .notSet) :
    Throws Fault.NotEmptyDraw (node.multicast msg) := by
  obtain ⟨msg', hsigned⟩ := node.maybeSigned_isOk h
  exact .bind (.lift fun e he => by rw [hsigned] at he; cases he) fun _ => emit_throws _

theorem sendMaybeSigned_throws (peer : Uuid) (h : msg.payload ≠ .notSet) :
    Throws Fault.NotEmptyDraw (node.sendMaybeSigned peer msg) := by
  obtain ⟨msg', hsigned⟩ := node.maybeSigned_isOk h
  exact .ite (.bind (.lift fun e he => by rw [hsigned] at he; cases he) fun _ => emit_throws _) (.pure _)

theorem modifyManager_throws (f : CheckpointManager → CheckpointManager) :
    Throws Fault.NotEmptyDraw (modifyManager f) := .update _

theorem stabilizeCheckpoint_throws (cp : Checkpoint) : Throws Fault.NotEmptyDraw (stabilizeCheckpoint cp) := by
  refine .bind (.bind (modifyManager_throws _) fun _ => .zoom (assign_throws _ _ _ _)) fun _ =>
    .bind (.bind .read fun s => .bind (.forEach (fun _ => .zoom (destroy_throws _ _)) _) fun _ =>
      modifyManager_throws _) fun _ =>
    .bind (.bind .read fun s => .forEach (fun _ => .bind (.zoom (persistent_throws _ _ _)) fun _ =>
      modifyManager_throws _) _) fun _ =>
    .bind .read fun s => .bind (.forEach (fun _ => .forEach (fun _ => .zoom (destroy_throws _ _)) _) _) fun _ =>
      modifyManager_throws _

theorem handleCheckpointMessage_throws (msg : BznEnvelope) :
    Throws Fault.NotEmptyDraw (handleCheckpointMessage node outside msg) := by
  have hmaybe : ∀ cp, Throws Fault.NotEmptyDraw (maybeStabilizeCheckpoint node outside cp) := by
    intro cp
    rw [maybeStabilizeCheckpoint_eq]
    exact .bind .read fun _ => .ite (.bind (stabilizeCheckpoint_throws cp) fun _ => .bind .read fun _ =>
      .ite (.zoom (emit_throws _)) (.pure _)) (.pure _)
  unfold handleCheckpointMessage
  split
  · exact .pure _
  · exact .bind .read fun _ => .ite (.pure _) <| .ite
      (.ite (.bind (.zoom (persistent_throws _ _ _)) fun _ => modifyManager_throws _) (.pure _))
      (.bind (.bind (modifyManager_throws _) fun _ => .bind .read fun _ =>
        .ite (.bind (.zoom (persistent_throws _ _ _)) fun _ => modifyManager_throws _) (.pure _)) fun _ => hmaybe _)

theorem localCheckpointReached_throws (cp : Checkpoint) :
    Throws Fault.NotEmptyDraw (localCheckpointReached node outside cp) := by
  rw [localCheckpointReached_eq]
  exact .bind .read fun _ => .ite (raise_throws _) <| .bind (modifyManager_throws _) fun _ =>
    .bind (.zoom (assign_throws _ _ _ _)) fun _ => .zoom (multicast_throws nofun)

/-- A peer is drawn from a proof with enough messages. -/
theorem sendStateRequest_notEmptyDraw (h : s.manager.Enough node) (e : Fault)
    (he : (sendStateRequest node outside).result s = .error e) : e.NotEmptyDraw := by
  have hlength : 0 < (s.manager.latestStableCheckpointProof.toList.map Prod.fst).length := by
    rw [List.length_map]
    exact lt_of_lt_of_le (Nat.succ_pos _) (h.trans (List.length_filter_le _ _))
  have hdrawn := List.getElem?_eq_getElem (Nat.mod_lt outside.random hlength)
  rw [sendStateRequest, result_read_bind] at he
  dsimp only at he
  rw [hdrawn] at he
  refine sendMaybeSigned_throws _ ?_ _ e he
  intro h
  cases h

theorem Proven.notEmptyDraw (h : Proven node P s) (henabled : event.Enabled s) :
    (event.program node).result s ≠ .error (.exception "undefined behaviour") := by
  intro he
  cases event with
  | call call =>
    cases call with
    | handleCheckpointMessage _ msg => exact handleCheckpointMessage_throws msg s _ he rfl
    | localCheckpointReached _ cp => exact localCheckpointReached_throws cp s _ he rfl
  | catchupTimeout _ cp =>
    -- the timer was started, so there is a proof
    have henough := h.enough.resolve_right fun hno => hno.2 cp henabled
    rw [CheckpointEvent.program, handleCatchupTimeout, result_read_bind] at he
    split at he
    · exact sendStateRequest_notEmptyDraw henough _ he rfl
    · cases he

/-- The stable checkpoint is the initial one, or its proof has entries of `f + 1` peers, and every
entry is an envelope of its sender that is read as a message for it. Where only checkpoint messages
are handed to the manager, every entry is one. In every state that calls and timers lead to, no
state request draws a peer from an empty proof. -/
theorem stableProof_invariant (node : Node) (s s' : CheckpointProcess) (hs : checkpointProcessOver default = .ok s)
    (events : List CheckpointEvent) (hrun : Happens node s events s') :
    (s'.manager.latestStableCheckpoint = ⟨0, initialCheckpointHash⟩ ∨
      honestMemberSize node.swarmSize ≤
          (s'.manager.latestStableCheckpointProof.toList.filter fun pair => node.isPeer pair.1).length ∧
        ∀ (sender : Uuid) (text : Bytes), s'.manager.latestStableCheckpointProof[sender]? = some text →
          ∃ msg, text = node.wire.envelope.serialize msg ∧ msg.sender = sender ∧
            node.wire.checkpointMsg.parse msg.checkpointMsg =
              some ⟨s'.manager.latestStableCheckpoint.sequence, s'.manager.latestStableCheckpoint.hash⟩ ∧
            ((∀ event ∈ events, event.HandsOver BznEnvelope.IsCheckpoint) → msg.IsCheckpoint)) ∧
      ∀ event : CheckpointEvent, event.Enabled s' →
        (event.program node).result s' ≠ .error (.exception "undefined behaviour") := by
  have hP : ∀ event ∈ events, event.HandsOver
      fun msg => (∀ event ∈ events, event.HandsOver BznEnvelope.IsCheckpoint) → msg.IsCheckpoint := by
    rintro ((_ | _) | _) hmem
    · exact fun hall => hall _ hmem
    · trivial
    · trivial
  have h := (Proven.start hs).run hP hrun
  refine ⟨?_, fun event henabled => h.notEmptyDraw henabled⟩
  rcases h.enough with henough | ⟨hinitial, -⟩
  · exact .inr ⟨henough, fun sender text htext => h.supported.proof sender text htext⟩
  · exact .inl hinitial

end

theorem stableProof_invariant_two :
    let node := sampleNode fourPeers "A"
    let s' := stateAfter node sampleManager [sampleCheckpointMessage "A" 100, sampleCheckpointMessage "B" 100]
    s'.manager.latestStableCheckpoint = ⟨100, []⟩ ∧
      ∀ (sender : Uuid) (text : Bytes), s'.manager.latestStableCheckpointProof[sender]? = some text →
        ∃ msg, text = node.wire.envelope.serialize msg ∧ msg.sender = sender ∧ msg.IsCheckpoint ∧
          node.wire.checkpointMsg.parse msg.checkpointMsg = some ⟨100, []⟩ := by
  intro node s'
  have hstable : s'.manager.latestStableCheckpoint = ⟨100, []⟩ := by decide +kernel
  have hinitial : s'.manager.latestStableCheckpoint ≠ ⟨0, initialCheckpointHash⟩ := by decide +kernel
  obtain ⟨hproof, -⟩ := stableProof_invariant node sampleManager s' rfl
    ([sampleCheckpointMessage "A" 100, sampleCheckpointMessage "B" 100].map .call) (Happens.ofCalls (by decide +kernel))
  refine ⟨hstable, fun sender text htext => ?_⟩
  obtain ⟨msg, hmsg, hsender, hparse, hcheckpoint⟩ := (hproof.resolve_left hinitial).2 sender text htext
  rw [hstable] at hparse
  refine ⟨msg, hmsg, hsender, hcheckpoint ?_, hparse⟩
  simp [sampleCheckpointMessage, CheckpointEvent.HandsOver, BznEnvelope.IsCheckpoint]

/-- An envelope of a peer of the sample swarm with another payload, which is read as a checkpoint
message for sequence 0 and an empty hash. -/
def sampleOtherMessage (sender : String) : CheckpointCall :=
  .handleCheckpointMessage sampleOutside { (default : BznEnvelope) with sender := ascii sender, payload := .pbft [] }

/-- Two envelopes that are no checkpoint messages replace the stable checkpoint 100, and no entry of
the new proof is a checkpoint message. -/
theorem stableProof_otherPayload :
    let node := sampleNode fourPeers "A"
    let calls := [sampleCheckpointMessage "A" 100, sampleCheckpointMessage "B" 100, sampleOtherMessage "A",
      sampleOtherMessage "B"]
    let s' := stateAfter node sampleManager calls
    checkpointProcessOver default = .ok sampleManager ∧ allReturn node sampleManager calls = true ∧
      s'.manager.latestStableCheckpoint = ⟨0, []⟩ ∧ s'.manager.latestStableCheckpoint ≠ ⟨0, initialCheckpointHash⟩ ∧
      s'.manager.latestStableCheckpointProof.toList.map Prod.fst = [ascii "A", ascii "B"] ∧
      ∀ pair ∈ s'.manager.latestStableCheckpointProof.toList,
        (node.wire.envelope.decode pair.2).payload = .pbft [] := by
  refine ⟨rfl, by decide +kernel, by decide +kernel, by decide +kernel, by decide +kernel, by decide +kernel⟩

/-! ## State requests -/

section

variable {node : Node} {outside : Outside} {cp : Checkpoint} {s s' : CheckpointProcess}

variable (node cp) in
/-- A state request for a checkpoint. -/
def getStateRequest : Payload :=
  .pbftMembership (node.wire.pbftMembershipMsg.serialize { (default : PbftMembershipMsg) with
    type := .getState
    sequence := cp.sequence
    stateHash := cp.hash })

variable (node cp) in
/-- A state request for a checkpoint was sent. -/
def Requested (log : List Effect) : Prop :=
  ∃ peer msg, Effect.send peer msg ∈ log ∧ msg.payload = getStateRequest node cp

/-- The sender of the stable proof that a state request goes to. -/
def drawnPeer (outside : Outside) (m : CheckpointManager) : Option Uuid :=
  let senders := m.latestStableCheckpointProof.toList.map Prod.fst
  senders[outside.random % senders.length]?

variable (node cp s) in
/-- A timer that ends while the local checkpoint is behind, and that finds a checkpoint stable
and draws a current peer. -/
def CheckpointEvent.Requests : CheckpointEvent → Prop
  | call _ => False
  | catchupTimeout outside awaited => s.manager.latestLocalCheckpoint.sequence < awaited.sequence ∧
      s.manager.latestStableCheckpoint = cp ∧ ∃ peer, drawnPeer outside s.manager = some peer ∧ node.isPeer peer = true

variable (node) in
theorem getStateRequest_injective : Function.Injective (getStateRequest node) := by
  rintro ⟨sequence, hash⟩ ⟨sequence', hash'⟩ h
  have hdecoded := congrArg node.wire.pbftMembershipMsg.decode (Payload.pbftMembership.inj h)
  rw [Codec.decode_serialize, Codec.decode_serialize] at hdecoded
  have hsequence : sequence = sequence' := congrArg PbftMembershipMsg.sequence hdecoded
  have hhash : hash = hash' := congrArg PbftMembershipMsg.stateHash hdecoded
  rw [hsequence, hhash]

theorem requested_append {log es : List Effect} :
    Requested node cp (log ++ es) ↔ Requested node cp log ∨ Requested node cp es := by
  simp only [Requested, List.mem_append, or_and_right, exists_or]

variable {peer : Uuid} {msg : BznEnvelope} {event : CheckpointEvent} {events : List CheckpointEvent}

theorem requested_send {stable : Checkpoint} (h : msg.payload = getStateRequest node stable) :
    Requested node cp [.send peer msg] ↔ stable = cp := by
  constructor
  · rintro ⟨peer', msg', hmem, hpayload⟩
    cases List.mem_singleton.mp hmem
    exact getStateRequest_injective node (h.symm.trans hpayload)
  · rintro rfl
    exact ⟨peer, msg, List.mem_singleton_self _, h⟩

theorem sendMaybeSigned_logs {p : Process} (hpeer : node.isPeer peer = true)
    (hok : (node.sendMaybeSigned peer msg).result p = .ok ()) :
    ∃ msg', msg'.payload = msg.payload ∧ ((node.sendMaybeSigned peer msg).final p).log = p.log ++
      [.send peer msg'] := by
  unfold Node.sendMaybeSigned at hok ⊢
  rw [if_pos hpeer] at hok ⊢
  cases hsigned : node.maybeSigned msg with
  | error =>
    rw [hsigned] at hok
    cases hok
  | ok msg' =>
    rw [hsigned] at hok
    rw [final_lift_bind]
    obtain ⟨lifetime, hfinal⟩ := act_ok hok
    exact ⟨msg', Node.maybeSigned_payload hsigned, by rw [emit, hfinal]⟩

/-- A state request that is sent, as it is seen in the log. -/
theorem sendStateRequest_requested (hok : (sendStateRequest node outside).result s = .ok ()) :
    Requested node cp ((sendStateRequest node outside).final s).log ↔ Requested node cp s.log ∨
      s.manager.latestStableCheckpoint = cp ∧ ∃ peer, drawnPeer outside s.manager = some peer ∧
        node.isPeer peer = true := by
  rw [sendStateRequest, result_read_bind] at hok
  rw [sendStateRequest, final_read_bind]
  dsimp only at hok ⊢
  rw [← drawnPeer] at hok ⊢
  cases hdrawn : drawnPeer outside s.manager with
  | none =>
    rw [hdrawn] at hok
    cases hok
  | some peer =>
    rw [hdrawn] at hok
    rw [final_onProcess]
    by_cases hpeer : node.isPeer peer = true
    · obtain ⟨msg', hpayload, hlog⟩ := sendMaybeSigned_logs hpeer hok
      rw [hlog, requested_append, requested_send hpayload]
      simp [hpeer]
    · rw [Node.sendMaybeSigned]
      simp [hpeer]

theorem CheckpointEvent.requested_step (hok : (event.program node).result s = .ok ()) :
    Requested node cp ((event.program node).final s).log ↔ Requested node cp s.log ∨ event.Requests node cp s := by
  cases event with
  | call call =>
    obtain ⟨es, hlog, hes⟩ := (call_emits (E := fun e => ∀ peer msg, e ≠ .send peer msg) (fun _ _ _ => nofun)
      (fun _ _ _ _ _ _ => nofun) s).log
    rw [CheckpointEvent.program, hlog, requested_append]
    refine or_congr_right ⟨fun ⟨peer, msg, hmem, _⟩ => hes _ hmem peer msg rfl, False.elim⟩
  | catchupTimeout =>
    rw [program, handleCatchupTimeout, result_read_bind] at hok
    rw [program, handleCatchupTimeout, final_read_bind, Requests]
    split at hok
    · rename_i hbehind
      rw [if_pos hbehind, sendStateRequest_requested hok, and_iff_right hbehind]
    · rename_i hbehind
      simp [hbehind]

variable (node cp s) in
/-- A timer of a run ends while the local checkpoint is behind and a checkpoint is stable,
and draws a current peer. -/
def RequestedOnTimeout (events : List CheckpointEvent) : Prop :=
  ∃ before event after t, events = before ++ event :: after ∧ Happens node s before t ∧ event.Requests node cp t

theorem requestedOnTimeout_cons (henabled : event.Enabled s) (hok : (event.program node).result s = .ok ()) :
    RequestedOnTimeout node cp s (event :: events) ↔
      event.Requests node cp s ∨ RequestedOnTimeout node cp ((event.program node).final s) events := by
  constructor
  · rintro ⟨before, event', after, t, hevents, hbefore, hrequests⟩
    cases hbefore with
    | nil =>
      obtain ⟨rfl, -⟩ := List.cons.inj hevents
      exact .inl hrequests
    | cons _ _ rest =>
      obtain ⟨rfl, htail⟩ := List.cons.inj hevents
      exact .inr ⟨_, event', after, t, htail, rest, hrequests⟩
  · rintro (hrequests | ⟨before, event', after, t, rfl, hbefore, hrequests⟩)
    · exact ⟨[], event, events, s, rfl, .nil s, hrequests⟩
    · exact ⟨event :: before, event', after, t, rfl, .cons henabled hok hbefore, hrequests⟩

theorem Happens.requested_iff (h : Happens node s events s') :
    Requested node cp s'.log ↔ Requested node cp s.log ∨ RequestedOnTimeout node cp s events := by
  induction h with
  | nil =>
    refine (or_iff_left ?_).symm
    rintro ⟨before, event, after, t, hevents, -⟩
    cases before <;> cases hevents
  | cons enabled returns _ ih =>
    rw [ih, CheckpointEvent.requested_step returns, requestedOnTimeout_cons enabled returns, or_assoc]

/-- The local and the stable checkpoint are at one sequence and have different hashes. -/
def CheckpointManager.Diverged (m : CheckpointManager) : Prop :=
  m.latestLocalCheckpoint.sequence = m.latestStableCheckpoint.sequence ∧
    m.latestLocalCheckpoint.hash ≠ m.latestStableCheckpoint.hash

instance (m : CheckpointManager) : Decidable m.Diverged := inferInstanceAs (Decidable (_ ∧ _))

/-- A run that leaves the local state other than the stable one has sent a state request for
the stable checkpoint exactly if a timer has. -/
theorem divergence_detected_iff (node : Node) (s s' : CheckpointProcess) (hs : checkpointProcessOver default = .ok s)
    (events : List CheckpointEvent) (hrun : Happens node s events s') :
    (s'.manager.Diverged → Requested node s'.manager.latestStableCheckpoint s'.log) ↔
      (s'.manager.Diverged → RequestedOnTimeout node s'.manager.latestStableCheckpoint s events) := by
  have hstart : s.log = [] := by
    have : checkpointProcessOver default = .ok sampleManager := rfl
    rw [this] at hs
    cases hs
    rfl
  refine imp_congr_right fun _ => hrun.requested_iff.trans (or_iff_right ?_)
  rw [hstart]
  rintro ⟨peer, msg, hmem, -⟩
  cases hmem

end

/-- A local checkpoint of the sample swarm at 100. -/
def sampleLocalCheckpoint : CheckpointCall := .localCheckpointReached sampleOutside ⟨100, ascii "ours"⟩

/-- Two messages for a checkpoint at 100, the end of the timer they start, and another local
checkpoint. -/
def eventsWithTimeout : List CheckpointEvent :=
  [.call (sampleCheckpointMessage "A" 100), .call (sampleCheckpointMessage "B" 100),
    .catchupTimeout sampleOutside ⟨100, []⟩, .call sampleLocalCheckpoint]

theorem divergence_detected_on_timeout :
    ∃ s', Happens (sampleNode fourPeers "A") sampleManager eventsWithTimeout s' ∧ s'.manager.Diverged ∧
      Requested (sampleNode fourPeers "A") s'.manager.latestStableCheckpoint s'.log := by
  let node := sampleNode fourPeers "A"
  let messages := [sampleCheckpointMessage "A" 100, sampleCheckpointMessage "B" 100]
  let t := stateAfter node sampleManager messages
  let t' := (handleCatchupTimeout node sampleOutside ⟨100, []⟩).final t
  have hmessages : Happens node sampleManager (messages.map .call) t := Happens.ofCalls (by decide +kernel)
  have hstarted : Effect.triggerCatchup ⟨100, []⟩ ∈ t.log := by
    have hany : (t.log.any fun e =>
        match e with | .triggerCatchup cp => decide (cp = ⟨100, []⟩) | _ => false) = true := by decide +kernel
    obtain ⟨e, hmem, he⟩ := List.any_eq_true.mp hany
    split at he
    · rwa [decide_eq_true_eq.mp he] at hmem
    · cases he
  have hrun : Happens node sampleManager eventsWithTimeout ((sampleLocalCheckpoint.program node).final t') :=
    hmessages.append (.cons hstarted (by decide +kernel) (.cons trivial (by decide +kernel) (.nil _)))
  have hdiverged : ((sampleLocalCheckpoint.program node).final t').manager.Diverged := by decide +kernel
  refine ⟨_, hrun, hdiverged, (divergence_detected_iff node sampleManager _ rfl eventsWithTimeout hrun).mpr
    (fun _ => ⟨messages.map .call, .catchupTimeout sampleOutside ⟨100, []⟩, [.call sampleLocalCheckpoint], t, rfl,
      hmessages,
      ?_⟩) hdiverged⟩
  exact ⟨by decide +kernel, by decide +kernel, ascii "A", by decide +kernel, by decide⟩

/-- A local checkpoint and then two messages for another one at the same sequence: no state
request is sent, and no timer is started. -/
theorem divergence_undetected :
    let node := sampleNode fourPeers "A"
    let calls := [sampleLocalCheckpoint, sampleCheckpointMessage "B" 100, sampleCheckpointMessage "C" 100]
    let s' := stateAfter node sampleManager calls
    checkpointProcessOver default = .ok sampleManager ∧ allReturn node sampleManager calls = true ∧
      s'.manager.Diverged ∧ (∀ cp, ¬ Requested node cp s'.log) ∧ ∀ cp, Effect.triggerCatchup cp ∉ s'.log := by
  have hlog : ((stateAfter (sampleNode fourPeers "A") sampleManager
      [sampleLocalCheckpoint, sampleCheckpointMessage "B" 100, sampleCheckpointMessage "C" 100]).log.all fun e =>
        match e with | .multicast _ => true | _ => false) = true := by decide +kernel
  rw [List.all_eq_true] at hlog
  refine ⟨rfl, by decide +kernel, by decide +kernel, ?_, ?_⟩
  · rintro cp ⟨peer, msg, hmem, -⟩
    cases hlog _ hmem
  · intro cp hmem
    cases hlog _ hmem

end SwarmDb
