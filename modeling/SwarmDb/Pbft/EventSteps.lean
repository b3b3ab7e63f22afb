import SwarmDb.Pbft.Handling

/-!
# The steps of every event

The requests of clients, the service state, the service and the timers, as
steps. With the handlers of the protocol (`SwarmDb.Pbft.Handling`) this covers
everything that can happen to a replica (`event_spec`).
-/

namespace SwarmDb

open Lib Program

section

variable {node : Node} {outside : Outside} {ev : Event} {s₀ : Replica} {session : Option Nat} {P : Replica → Prop}
  {env : BznEnvelope} {requestEnv : BznEnvelope} {inner : PbftMembershipMsg} {text : Bytes} {hash : Hash}

/-! ## Requests -/

/-- Nothing was sent yet, and `pbft` is that of `b` but for its operations. -/
def Unsent (s₀ : Replica) (b : Pbft) (s : Replica) : Prop := s.Ops b ∧ s.log = s₀.log

theorem emitAny_spec {e : Effect} (quiet : e.Quiet) :
    Spec (moves node outside ev s₀) P (onReplica (emit e)) fun _ _ => True :=
  (emitQuiet_spec (P := fun _ => True) quiet fun _ _ h => h).pre fun _ _ => trivial

theorem sendErrorResponse_spec (requestEnv : BznEnvelope) (session : Option Nat) (hash : Hash)
    (msg : Bytes) : Spec (moves node outside ev s₀) P (sendErrorResponse node outside requestEnv session hash msg)
      fun _ _ => True := by
  unfold sendErrorResponse
  split
  · exact emitAny_spec fun text h => by cases h
  · exact .pure fun _ _ => trivial

variable {b : Pbft} {msg : BznEnvelope}

theorem setupRequestOperation_spec (hhash : node.hash requestEnv = .ok hash)
    (hnumbers : ∀ s, Unsent s₀ b s → Numbers node outside ev s₀ s (b.nextIssuedSequenceNumber + 1)) :
    Spec (moves node outside ev s₀) (Unsent s₀ b) (setupRequestOperation node requestEnv hash) fun key =>
      fun s => key = ⟨b.view, b.nextIssuedSequenceNumber, hash⟩ ∧
        Unsent s₀ { b with nextIssuedSequenceNumber := b.nextIssuedSequenceNumber + 1 } s := by
  refine .bind_read fun s _ ⟨hops, hlog⟩ => ?_
  have hnext : s.pbft.nextIssuedSequenceNumber = b.nextIssuedSequenceNumber := by rw [hops]
  rw [hnext]
  refine .bind (Q := fun _ => Unsent s₀ { b with
      nextIssuedSequenceNumber := b.nextIssuedSequenceNumber + 1 })
    (setNextIssuedSequenceNumber_spec (fun s' h => hnumbers s' (h ▸ ⟨hops, hlog⟩)) fun s' q h hw =>
      ⟨?_, hw.log.trans (h ▸ hlog)⟩) fun _ => .bind_read fun s' _ ⟨hops', hlog'⟩ => ?_
  · subst h
    show { s'.pbft with nextIssuedSequenceNumber := b.nextIssuedSequenceNumber + 1 } = _
    rw [hops]
    rfl
  · have hview : s'.pbft.view = b.view := hops'.view
    rw [hview]
    refine .bind (Q := fun _ => Unsent s₀ { b with
      nextIssuedSequenceNumber := b.nextIssuedSequenceNumber + 1 }) (.update fun s'' _ h => ?_) fun _ =>
      .bind (Q := fun _ => Unsent s₀ { b with
        nextIssuedSequenceNumber := b.nextIssuedSequenceNumber + 1 }) (.update fun s'' _ h => ?_) fun _ =>
      .pure fun s'' h => ⟨rfl, h⟩
    · subst h
      exact ⟨.request _ _ (.refl _) (.inl rfl), hops'.withOperation _ _, hlog'⟩
    · exact ⟨.request _ _ (MemoryOperation.sameVotes_recordRequest _ _ _) (MemoryOperation.binds_recordRequest hhash _),
        h.1.withOperation _ _, h.2⟩

theorem doPreprepare_spec (hev : ev = .message env session) (hpayload : env.payload = .databaseMsg text)
    (hprimary : s₀.pbft.isPrimary node = true) (hview : b.view = s₀.pbft.view)
    (hnext : b.nextIssuedSequenceNumber = s₀.pbft.nextIssuedSequenceNumber + 1) :
    Spec (moves node outside ev s₀) (Unsent s₀ b)
      (doPreprepare node outside ⟨s₀.pbft.view, s₀.pbft.nextIssuedSequenceNumber, hash⟩) fun _ _ => True := by
  have horders : ∀ (s : Replica) (msg : PbftMsg), Unsent s₀ b s → msg.type = .preprepare → msg.view = s₀.pbft.view →
      msg.sequence = s₀.pbft.nextIssuedSequenceNumber → Orders node ev s₀ s msg := by
    intro s msg hs ht hv hseq
    refine ⟨⟨env, session, text, hev, hpayload⟩, hprimary, ht, hv, hs.1.view.trans hview, hseq, ?_, hs.2⟩
    rw [hseq, ← hnext, hs.1]
  refine .bind_read fun s _ hs => .bind_lift fun reqEnv _ => .pre (P := Unsent s₀ b) ?_ fun _ h => h ▸ hs
  dsimp only
  split
  · exact asyncSignedBroadcast_spec fun s' q env' hs' hb he =>
      ⟨.broadcastPreprepare _ (horders s' _ hs' rfl rfl rfl) [] env' hb q he, trivial⟩
  · exact asyncSignedBroadcast_spec fun s' q env' hs' hb he =>
      ⟨.broadcastPreprepare _ (horders s' _ hs' rfl rfl rfl) [reqEnv] env' hb q he, trivial⟩

theorem orderSetup_spec (hev : ev = .message env session) (hpayload : env.payload = .databaseMsg text)
    (hhash : node.hash requestEnv = .ok hash) (hsame : s₀.pbft.SameProtocol b)
    (hprimary : s₀.pbft.isPrimary node = true) :
    Spec (moves node outside ev s₀) (Unsent s₀ b) (do
      let key ← setupRequestOperation node requestEnv hash
      doPreprepare node outside key) fun _ _ => True := by
  have hnumbers : ∀ s, Unsent s₀ b s → Numbers node outside ev s₀ s (b.nextIssuedSequenceNumber + 1) := by
    rintro s ⟨hops, hlog⟩
    rw [hsame.nextIssuedSequenceNumber]
    refine .request ⟨env, session, text, hev, hpayload⟩ hprimary (hops.view.trans hsame.view) ?_ hlog
    rw [hops]
    exact hsame.nextIssuedSequenceNumber
  refine (setupRequestOperation_spec hhash hnumbers).bind fun key => fun s hi ⟨hkey, hs⟩ => ?_
  rw [hsame.view, hsame.nextIssuedSequenceNumber] at hkey
  subst hkey
  exact doPreprepare_spec (b := { b with nextIssuedSequenceNumber := b.nextIssuedSequenceNumber + 1 }) hev hpayload
    hprimary hsame.view (congrArg (· + 1) hsame.nextIssuedSequenceNumber) s hi hs

/-- Only the members that the requests of clients concern have changed, and
nothing was sent. -/
def Noted (s₀ s : Replica) : Prop := s₀.pbft.SameProtocol s.pbft ∧ s.log = s₀.log

theorem Pbft.SameProtocol.trans {p p' p'' : Pbft} (h : p.SameProtocol p') (h' : p'.SameProtocol p'') :
    p.SameProtocol p'' :=
  ⟨h'.1.trans h.1, h'.2.trans h.2, h'.3.trans h.3, h'.4.trans h.4, h'.5.trans h.5, h'.6.trans h.6, h'.7.trans h.7,
    h'.8.trans h.8, h'.9.trans h.9, h'.10.trans h.10⟩

theorem Pbft.SameProtocol.refl (p : Pbft) : p.SameProtocol p := ⟨rfl, rfl, rfl, rfl, rfl, rfl, rfl, rfl, rfl, rfl⟩

theorem Pbft.SameProtocol.isPrimary {p p' : Pbft} (h : p.SameProtocol p') : p'.isPrimary node = p.isPrimary node := by
  unfold Pbft.isPrimary
  rw [h.pinnedPrimary]

theorem Noted.memory {f : Pbft → Pbft} (hf : ∀ b : Pbft, b.SameProtocol (f b)) :
    Spec (moves node outside ev s₀) (Noted s₀) (modifyPbft f) fun _ => Noted s₀ :=
  memory_spec hf fun s hs => ⟨hs.1.trans (hf s.pbft), hs.2⟩

theorem sawRequest_spec (requestEnv : BznEnvelope) (hash : Hash) :
    Spec (moves node outside ev s₀) (Noted s₀) (sawRequest outside requestEnv hash) fun _ => Noted s₀ :=
  Noted.memory fun _ => ⟨rfl, rfl, rfl, rfl, rfl, rfl, rfl, rfl, rfl, rfl⟩

theorem orderRequest_spec
    (hev : ev = .message env session) (hpayload : env.payload = .databaseMsg text)
    (hhash : node.hash requestEnv = .ok hash) (hprimary : s₀.pbft.isPrimary node = true) :
    Spec (moves node outside ev s₀) (Noted s₀) (orderRequest node outside requestEnv session hash) fun _ _ => True := by
  have horder : Spec (moves node outside ev s₀) (Noted s₀) (do
        sawRequest outside requestEnv hash
        let key ← setupRequestOperation node requestEnv hash
        doPreprepare node outside key) fun _ _ => True := by
    refine (sawRequest_spec requestEnv hash).bind fun _ s hi hs => ?_
    exact orderSetup_spec hev hpayload hhash hs.1 hprimary s hi ⟨.refl s, hs.2⟩
  refine .bind_read fun s _ hs => .pre (P := Noted s₀) ?_ fun _ h => h ▸ hs
  refine .ite (fun _ => sendErrorResponse_spec _ _ _ _) fun _ =>
    .ite (fun _ => sendErrorResponse_spec _ _ _ _) fun _ => ?_
  by_cases hsender : requestEnv.sender = []
  · simpa only [hsender, ne_eq, not_true_eq_false, if_false, pure_bind, Bool.not_true, Bool.false_eq_true] using horder
  · simp only [hsender, ne_eq, not_false_eq_true, if_true]
    exact .bind_lift fun verified _ => .ite (fun _ => .pure fun _ _ => trivial) fun _ => horder

theorem Node.signed_payload {msg' : BznEnvelope} (h : node.signed msg = .ok msg') : msg'.payload = msg.payload := by
  unfold signed at h
  dsimp only at h
  split at h
  · obtain ⟨signature, rfl⟩ := cryptoSign_ok h
    rfl
  · cases h
    rfl

theorem forwardRequestToPrimary_spec
    (hpayload : ∀ text, requestEnv.payload ≠ .pbft text) :
    Spec (moves node outside ev s₀) P (forwardRequestToPrimary node requestEnv) fun _ _ => True := by
  refine .bind_read fun s _ _ => ?_
  split
  · exact .pure fun _ _ => trivial
  · refine .bind_lift fun msg hmsg => emitAny_spec fun text ht => ?_
    rw [Node.signed_payload hmsg] at ht
    exact hpayload text ht

theorem addSessionToSessionsWaiting_spec (hash : Hash) (session : Option Nat) :
    Spec (moves node outside ev s₀) (Noted s₀) (addSessionToSessionsWaiting hash session) fun _ => Noted s₀ := by
  unfold addSessionToSessionsWaiting
  split
  · exact .pure fun _ h => h
  · exact Noted.memory fun _ => ⟨rfl, rfl, rfl, rfl, rfl, rfl, rfl, rfl, rfl, rfl⟩

theorem handleRequest_spec (hev : ev = .message env session) (hpayload : env.payload = .databaseMsg text)
    (hrequest : requestEnv.payload = .databaseMsg text) :
    Spec (moves node outside ev s₀) (Noted s₀) (handleRequest node outside requestEnv session) fun _ _ => True := by
  refine .bind_lift fun hash hhash => .ite (fun _ => sendErrorResponse_spec _ _ _ _) fun _ =>
    .ite (fun _ => sendErrorResponse_spec _ _ _ _) fun _ => (addSessionToSessionsWaiting_spec _ _).bind fun _ =>
    .bind_read fun s _ hs => .ite (fun _ => forwardRequestToPrimary_spec fun text' h => ?_) fun hprimary => ?_
  · rw [hrequest] at h
    cases h
  · refine (orderRequest_spec hev hpayload hhash ?_).pre fun _ h => h ▸ hs
    rw [hs.1.isPrimary] at hprimary
    simpa using hprimary

theorem handleDatabaseMessage_spec
    (hev : ev = .message env session) (hpayload : env.payload = .databaseMsg text) :
    Spec (moves node outside ev s₀) (Noted s₀) (handleDatabaseMessage node outside env session) fun _ _ => True := by
  refine .ite (fun _ => ?_) fun _ => handleRequest_spec hev hpayload ?_
  · exact emitAny_spec trivial
  · split
    · exact hpayload
    · exact hpayload

theorem forwardResponse_spec (hpayload : ∀ text, msg.payload ≠ .pbft text) (hash : Option Hash) :
    Spec (moves node outside ev s₀) P (forwardResponse hash msg) fun _ _ => True := by
  refine .bind_read fun s _ _ => ?_
  split
  · exact emitAny_spec hpayload
  · exact .pure fun _ _ => trivial

/-! ## The service state -/

theorem handleGetState_spec (msg : PbftMembershipMsg) (session : Option Nat) :
    Spec (moves node outside ev s₀) P (handleGetState node outside msg session) fun _ _ => True := by
  refine .bind_read fun s _ _ => .ite (fun _ => .pure fun _ _ => trivial) fun _ => ?_
  split
  · exact .pure fun _ _ => trivial
  · dsimp only
    refine .ite (fun _ => .pure fun _ _ => trivial) fun _ => ?_
    split
    · exact .fail _
    · refine .bind_lift fun env henv => emitAny_spec fun text ht => ?_
      obtain ⟨signature, rfl⟩ := cryptoSign_ok henv
      cases ht

theorem adoptNewview_spec {nvEnv : BznEnvelope} {nv : PbftMsg} (hreceived : StateNewview node ev s₀ nv nvEnv) :
    Spec (moves node outside ev s₀) (Replica.Ops s₀.pbft) (do
      setView nv.view
      setPrimaryFromNewview node outside nvEnv) fun _ _ => True := by
  have hset : (do setView nv.view; setPrimaryFromNewview node outside nvEnv) = (do
      (do setView nv.view; modifyPbft fun p => { p with pinnedPrimary := node.peerByUuid nvEnv.sender })
      if node.peerByUuid nvEnv.sender = none then initiateViewchange node outside none else pure ()) := by
    unfold setPrimaryFromNewview
    cases node.peerByUuid nvEnv.sender with
    | none | some => simp
  rw [hset]
  refine .bind (Q := fun _ => Replica.Ops { s₀.pbft with
      view := nv.view, pinnedPrimary := node.peerByUuid nvEnv.sender })
        (.single (fun s _ _ hs hr => ?_) fun s _ _ _ hr => ?_)
    fun _ => .ite (fun _ => (initiateViewchange_spec none).post fun _ _ _ => trivial) fun _ => .pure fun _ _ => trivial
  · obtain ⟨u, hv, -⟩ := result_bind_eq_ok hr
    obtain ⟨q, hw, hq⟩ := setView_ok hv
    rw [final_bind_ok hv, hq]
    refine ⟨.adoptView nv nvEnv hreceived hs.view (by rw [hs]) hs.viewIsValid q hw, ?_⟩
    show { s.pbft with view := nv.view, pinnedPrimary := node.peerByUuid nvEnv.sender } = _
    rw [hs]
    rfl
  · cases hv : (setView nv.view).result s with
    | ok => rw [result_bind_ok hv] at hr; cases hr
    | error =>
      rw [final_bind_error hv]
      exact .of_toProcess (setView_error hv)

/-- A part of the proof of a state was handled. -/
structure HandledProof (node : Node) (s₀ : Replica) (proof : List BznEnvelope) (s : Replica) : Prop where
  pbft : s.pbft = s₀.pbft
  manager : Mirrors s₀.toProcess s₀.manager →
    s.manager = s₀.manager.afterProof node proof ∧ Mirrors s.toProcess s.manager

theorem handleProof_spec (hreceived : StateReceived node ev inner) :
    Spec (moves node outside ev s₀) (HandledProof node s₀ [])
      (forEach inner.checkpointProof fun env => onManager (handleCheckpointMessage node outside env)) fun _ =>
      HandledProof node s₀ inner.checkpointProof := by
  refine .forEach_taken (fun proof => HandledProof node s₀ proof) fun proof env rest hl => ?_
  have hmem : env ∈ inner.checkpointProof := by
    rw [hl]
    exact List.mem_append_right _ (List.mem_cons_self ..)
  refine call_spec (c := .handleCheckpointMessage outside env) (.state inner hreceived hmem) fun s q m hs hafter =>
    ⟨hs.pbft, fun hm => ?_⟩
  obtain ⟨hman, hmir⟩ := hs.manager hm
  obtain ⟨rfl, hq⟩ := hafter hmir
  refine ⟨?_, hq⟩
  show CheckpointManager.handled node s.manager env = _
  rw [hman, CheckpointManager.afterProof, CheckpointManager.afterProof, List.foldl_append]
  rfl

theorem handleSetStateMessage_spec (hreceived : StateReceived node ev inner) :
    Spec (moves node outside ev s₀) (fun s => s = s₀) (handleSetState node outside inner) fun _ _ => True := by
  refine .bind ((handleProof_spec hreceived).pre fun s h => h ▸ ⟨rfl, fun hm => ⟨rfl, hm⟩⟩) fun _ =>
    .bind_read fun s _ hs => .ite (fun _ => .pure fun _ _ => trivial) fun hadopts => ?_
  refine .bind (Q := fun _ => Replica.Ops s₀.pbft) ((emitQuiet_spec (P := Replica.Ops s₀.pbft) ?_ fun _ _ h => h).pre
    fun _ h => ?_) fun _ => ?_
  · trivial
  · rw [h, ← hs.pbft]
    exact .refl s
  · split
    · exact .pure fun _ _ => trivial
    · rename_i nvEnv hnv
      unfold adoptNewview
      split
      · exact .pure fun _ _ => trivial
      · rename_i nv hparse
        refine adoptNewview_spec ⟨⟨inner, hreceived, hnv, fun hm => ?_⟩, hparse⟩
        rw [(hs.manager hm).1] at hadopts
        simpa using hadopts

/-- The handler of the type of a membership message that is let through. -/
theorem handleMembership_spec
    (hset : inner.type = .setState → StateReceived node ev inner) :
    Spec (moves node outside ev s₀) (fun s => s = s₀) (do
      let _ ← lift (node.hash env)
      match inner.type with
      | .getState => handleGetState node outside inner session
      | .setState => handleSetState node outside inner
      | _ => pure ()) fun _ _ => True := by
  refine .bind_lift fun _ _ => ?_
  split
  · exact handleGetState_spec _ _
  · rename_i htype
    exact handleSetStateMessage_spec (hset htype)
  · exact .pure fun _ _ => trivial

theorem handleMembershipMessage_spec (hev : ev = .message env session) :
    Spec (moves node outside ev s₀) (fun s => s = s₀) (handleMembershipMessage node outside env session) fun _ _ =>
      True := by
  unfold handleMembershipMessage
  split
  · exact .pure fun _ _ => trivial
  · rename_i inner hparse
    have hset (htype : inner.type = .setState) : StateReceived node ev inner := ⟨htype, env, session, hev, hparse⟩
    by_cases hsender : env.sender = []
    · simp only [hsender, ne_eq, not_true_eq_false, if_false, pure_bind, Bool.false_eq_true]
      exact handleMembership_spec hset
    · simp only [hsender, ne_eq, not_false_eq_true, if_true]
      exact .bind_lift fun dropped _ => .ite (fun _ => .pure fun _ _ => trivial) fun _ => handleMembership_spec hset

/-! ## The service and the timers -/

theorem handleExecuted_spec {sequence : UInt64} (hev : ev = .executed sequence) :
    Spec (moves node outside ev s₀) (fun s => s = s₀) (handleExecuted node outside sequence) fun _ _ => True := by
  refine .bind (Q := fun _ _ => True) (.update fun s _ _ => ⟨.executed sequence hev, trivial⟩) fun _ =>
    .ite (fun hdue => ?_) fun _ => .pure fun _ _ => trivial
  refine .bind (emitAny_spec trivial) fun _ => .bind (Q := fun _ _ => True)
    (call_spec (c := .localCheckpointReached outside ⟨sequence, outside.serviceStateHash sequence⟩) ⟨hev, hdue⟩
      fun _ _ _ _ _ => trivial) fun _ => .bind_read fun s _ _ => .update (Q := fun _ _ => True) fun s' _ h => ?_
  subst h
  exact ⟨.deleteOperations, trivial⟩

theorem handleAuditHeartbeatTimeout_spec :
    Spec (moves node outside ev s₀) P (handleAuditHeartbeatTimeout node outside) fun _ _ => True := by
  refine .bind_read fun s _ _ => .ite (fun _ => ?_) fun _ => .pure fun _ _ => trivial
  exact (broadcastAudit_spec (P := fun _ => True) _ fun _ _ h => h).pre fun _ _ => trivial

theorem handleSessionShutdown_spec (hash : Hash) (session : Nat) :
    Spec (moves node outside ev s₀) P (handleSessionShutdown hash session) fun _ _ => True := by
  refine memory_spec (fun b => ?_) fun _ _ => trivial
  split
  · exact ⟨rfl, rfl, rfl, rfl, rfl, rfl, rfl, rfl, rfl, rfl⟩
  · exact .refl b

theorem sendMaybeSigned_ok {peer : Uuid} {p : Process} (h : (node.sendMaybeSigned peer msg).result p = .ok ()) :
    (node.sendMaybeSigned peer msg).final p = p ∨
      ∃ msg', node.maybeSigned msg = .ok msg' ∧
        p.Emits ((node.sendMaybeSigned peer msg).final p) (.send peer msg') := by
  unfold Node.sendMaybeSigned at h ⊢
  split at h
  · rw [if_pos ‹_›]
    obtain ⟨msg', hm, h⟩ := result_bind_eq_ok h
    rw [final_bind_ok hm]
    exact .inr ⟨msg', hm, emit_ok h⟩
  · rw [if_neg ‹_›]
    exact .inl rfl

theorem sendStateRequest_ok {s : CheckpointProcess} (h : (sendStateRequest node outside).result s = .ok ()) :
    (sendStateRequest node outside).final s = s ∨ ∃ e q, e.Quiet ∧ s.toProcess.Emits q e ∧
      (sendStateRequest node outside).final s = { s with toProcess := q } := by
  unfold sendStateRequest at h ⊢
  rw [result_read_bind] at h
  rw [final_read_bind]
  dsimp only at h ⊢
  split at h
  · rcases sendMaybeSigned_ok h with hq | ⟨msg', hm, he⟩
    · rw [final_onProcess, hq]
      exact .inl rfl
    · refine .inr ⟨_, _, fun text ht => ?_, he, rfl⟩
      rw [Node.maybeSigned_payload hm] at ht
      cases ht
  · cases h

theorem handleCatchupTimeout_spec (cp : Checkpoint) :
    Spec (moves node outside ev s₀) P (onManager (handleCatchupTimeout node outside cp)) fun _ _ => True := by
  have hwithin : Within (ManagerFrame (Effect.OfCheckpoints node none)) (handleCatchupTimeout node outside cp) :=
    handleCatchupTimeout_emits (fun _ _ text h => ⟨text, h⟩) cp
  refine .atMostOne (fun s _ _ _ hr => ⟨?_, trivial⟩) fun s _ _ _ _ =>
    .quiet ((hwithin s.toCheckpointProcess).mono (List.Subset.refl _) fun _ => Effect.OfCheckpoints.quiet)
  change (handleCatchupTimeout node outside cp).result s.toCheckpointProcess = .ok () at hr
  have hfinal : (onManager (handleCatchupTimeout node outside cp)).final s =
      { s with toCheckpointProcess := (handleCatchupTimeout node outside cp).final s.toCheckpointProcess } := rfl
  rw [hfinal]
  unfold handleCatchupTimeout at hr ⊢
  rw [result_read_bind] at hr
  rw [final_read_bind]
  split at hr
  · rw [if_pos ‹_›]
    rcases sendStateRequest_ok hr with hq | ⟨e, q, hquiet, he, hq⟩
    · rw [hq]
      exact .inl rfl
    · rw [hq]
      exact .inr (.emit e hquiet q he)
  · rw [if_neg ‹_›]
    exact .inl rfl

/-! ## Events -/

theorem handleProtobuf_spec (hev : ev = .message env session) :
    Spec (moves node outside ev s₀) (fun s => s = s₀) (handleProtobuf node outside env session) fun _ _ => True := by
  refine .ite (fun _ => .pure fun _ _ => trivial) fun hswarm => ?_
  split
  · rename_i text hpayload
    unfold handleBznMessage
    split
    · exact .pure fun _ _ => trivial
    · exact handleMessage_spec hev (by simpa using hswarm) hpayload ‹_›
  · exact handleMembershipMessage_spec hev
  · rename_i text hpayload
    exact call_spec (c := .handleCheckpointMessage outside env)
      (.direct session hev text hpayload) fun _ _ _ _ _ => trivial
  · rename_i text hpayload
    exact (handleDatabaseMessage_spec hev hpayload).pre fun _ h => h ▸ ⟨.refl _, rfl⟩
  · rename_i text hpayload
    exact forwardResponse_spec (fun text' h => by rw [hpayload] at h; cases h) _
  · rename_i text hpayload
    exact forwardResponse_spec (fun text' h => by rw [hpayload] at h; cases h) _
  · exact .pure fun _ _ => trivial

/-- Whatever happens to a replica, it goes by the steps. -/
theorem event_spec (node : Node) (outside : Outside) (ev : Event) (s₀ : Replica) :
    Spec (moves node outside ev s₀) (fun s => s = s₀) (ev.program node outside) fun _ _ => True := by
  cases ev with
  | message => exact handleProtobuf_spec rfl
  | executed => exact handleExecuted_spec rfl
  | failure => exact (handleFailure_spec (b := s₀.pbft)).pre fun s h => h ▸ .refl s₀
  | catchupTimeout cp => exact handleCatchupTimeout_spec cp
  | auditHeartbeat => exact handleAuditHeartbeatTimeout_spec
  | sessionShutdown hash session => exact handleSessionShutdown_spec hash session

end

end SwarmDb
