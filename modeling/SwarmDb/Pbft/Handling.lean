import SwarmDb.Lib.Lists
import SwarmDb.Pbft.Actions
import SwarmDb.Pbft.NewviewContent
import SwarmDb.Pbft.Validity

/-!
# The handling of the messages of the protocol

Every handler goes by the steps of `SwarmDb.Pbft.Steps`, and where it throws it
leaves what a crash leaves. One lemma for each handler, from those of
`SwarmDb.Pbft.Actions`, in the order of `SwarmDb.Pbft.Handlers`.
-/

namespace SwarmDb

open Lib Program

/-- `b'` is `b` with other operations and more accepted pre-prepares. -/
structure Pbft.Accepts (b b' : Pbft) : Prop where
  same : b' = { b with operations := b'.operations, acceptedPreprepares := b'.acceptedPreprepares }
  grows : ∀ (lk : LogKey) (key : OperationKey), b.acceptedPreprepares[lk]? = some key →
    b'.acceptedPreprepares[lk]? = some key

section

variable {node : Node} {outside : Outside} {ev : Event} {s₀ : Replica} {b : Pbft} {env : BznEnvelope} {msg : PbftMsg}
  {P : Replica → Prop}

theorem Replica.Ops.accepts {s : Replica} (h : s.Ops b) : b.Accepts s.pbft where
  same := by
    rw [h]
  grows lk key hkey := by rwa [h.acceptedPreprepares]

/-! ## Pre-prepares and votes -/

theorem acceptPreprepare_spec
    (hprop : ∀ s : Replica, s.Ops b → Proposed node outside ev s₀ s msg env)
    (hsame : ∀ key : OperationKey, b.acceptedPreprepares[msg.logKey]? = some key → key = msg.operationKey) :
    Spec (moves node outside ev s₀) (Replica.Ops b) (acceptPreprepare msg.logKey msg.operationKey) fun _ =>
      Replica.Ops { b with acceptedPreprepares := b.acceptedPreprepares.insert msg.logKey msg.operationKey } := by
  have hops : ∀ (s : Replica) (q : Process), s.Ops b →
      ((s.withProcess q).withPbft { s.pbft with
        acceptedPreprepares := s.pbft.acceptedPreprepares.insert msg.logKey msg.operationKey }).Ops
      { b with acceptedPreprepares := b.acceptedPreprepares.insert msg.logKey msg.operationKey } := by
    intro s q hs
    show { s.pbft with acceptedPreprepares := s.pbft.acceptedPreprepares.insert msg.logKey msg.operationKey } = _
    rw [hs]
    rfl
  refine .atMostOne (fun s _ hi hs hr => ?_) fun s e _ _ hr => ?_
  · obtain ⟨value, hv, -⟩ := result_bind_eq_ok hr
    rw [acceptPreprepare, final_bind_ok hv]
    have hlookup := hi.accepted.stored msg.logKey
    rw [acceptedSubkeys] at hlookup
    obtain ⟨-, ⟨val, hstored, hval, hfin⟩ | ⟨hstored, rfl, hw⟩⟩ := persistent_ok hv
    · -- the entry is there already, and it is the same
      rw [hlookup] at hstored
      obtain ⟨key, hkey, rfl⟩ := Option.map_eq_some_iff.mp hstored
      obtain rfl := Conversion.operationKey_faithful key value hval
      obtain rfl := hsame value (by rw [← hs.acceptedPreprepares]; exact hkey)
      refine ⟨.inl ?_, hops s _ hs⟩
      rw [final_onReplica, hfin]
      show s.withPbft { s.pbft with
        acceptedPreprepares := s.pbft.acceptedPreprepares.insert msg.logKey msg.operationKey } = s
      rw [Map.insert_self hkey]
      rfl
    · rw [hlookup, Option.map_eq_none_iff] at hstored
      exact ⟨.inr (.accept msg env (hprop s hs) hstored _ hw), hops s _ hs⟩
  · cases hv : (onReplica (persistent .operationKey msg.operationKey acceptedPrepreparesKey
        [Conversion.logKey.toString msg.logKey])).result s with
    | ok value => rw [acceptPreprepare, result_bind_ok hv] at hr; cases hr
    | error e =>
      rw [acceptPreprepare, final_bind_error hv]
      exact .of_toProcess (persistent_error hv)

theorem handlePreprepare_spec
    (hprop : ∀ s : Replica, s.Ops b → Proposed node outside ev s₀ s msg env) (htype : msg.type = .preprepare)
    (hview : msg.view = b.view) (hvalid : b.viewIsValid = true) :
    Spec (moves node outside ev s₀) (Replica.Ops b) (handlePreprepare node outside msg env) fun _ s =>
      b.Accepts s.pbft ∧ (s.pbft.acceptedPreprepares[msg.logKey]?).isSome := by
  refine .bind_read fun s hi hs => .ite (fun hany => .pure ?_) fun hany => ?_
  · rintro _ rfl
    exact ⟨hs.accepts, Option.isSome_of_any hany⟩
  · have hsame : ∀ key : OperationKey, b.acceptedPreprepares[msg.logKey]? = some key → key = msg.operationKey := by
      intro key hkey
      rw [← hs.acceptedPreprepares] at hkey
      have hlog := hi.acceptedKey _ _ hkey
      rw [PbftMsg.logKey, LogKey.mk.injEq] at hlog
      rw [hkey] at hany
      have hhash : key.requestHash = msg.requestHash := by simpa using hany
      rw [PbftMsg.operationKey, hlog.1, hlog.2, ← hhash]
    refine .pre (P := Replica.Ops b) ?_ fun _ h => h ▸ hs
    have hrest : Spec (moves node outside ev s₀) (Replica.Ops b) (do
        acceptPreprepare msg.logKey msg.operationKey
        doPreprepared node outside msg.operationKey
        maybeAdvanceOperationState node outside msg.operationKey) fun _ s =>
          b.Accepts s.pbft ∧ (s.pbft.acceptedPreprepares[msg.logKey]?).isSome := by
      refine (acceptPreprepare_spec hprop hsame).bind fun _ => .bind
        (doPreprepared_spec (b := { b with
          acceptedPreprepares := b.acceptedPreprepares.insert msg.logKey msg.operationKey }) hview hvalid ?_) fun _ =>
        .post (maybeAdvanceOperationState_spec hview hvalid) fun _ s' hs' => ⟨⟨?_, fun lk key hkey => ?_⟩, ?_⟩
      · exact (Map.lookup_insert ..).trans (if_pos rfl)
      · exact hs'.accepts.same
      · rw [hs'.acceptedPreprepares, Map.lookup_insert]
        split
        · rename_i hlk
          rw [hsame key (hlk ▸ hkey)]
        · exact hkey
      · rw [hs'.acceptedPreprepares, Map.lookup_insert, if_pos rfl]
        rfl
    refine findOrConstruct_spec.bind fun _ => .bind (Q := fun _ => Replica.Ops b) (changeOperation_spec ?_) fun _ =>
      (maybeRecordRequest_spec _).bind fun _ => ?_
    · intro s' op hs' hop
      rw [MemoryOperation.recordPbftMsg, htype] at hop
      cases hop
      exact ⟨.recordPreprepare msg env (hprop s' hs'), hs'.withOperation _ _⟩
    · split
      · exact (maybeRecordRequest_spec _).bind fun _ => hrest
      · exact hrest

theorem handleVote_spec (hdelivered : Delivered node ev msg env)
    (htype : msg.type = .prepare ∨ msg.type = .commit) (hview : msg.view = b.view) (hvalid : b.viewIsValid = true) :
    Spec (moves node outside ev s₀) (Replica.Ops b) (handleVote node outside msg env) fun _ => Replica.Ops b := by
  refine findOrConstruct_spec.bind fun _ => .bind (Q := fun _ => Replica.Ops b) (changeOperation_spec ?_) fun _ =>
    maybeAdvanceOperationState_spec hview hvalid
  exact fun s op hs hop => ⟨.recordVote msg env hdelivered htype op hop, hs.withOperation _ _⟩

/-! ## The checkpoint manager -/

variable {Q : Unit → Replica → Prop}

theorem call_spec {c : CheckpointCall} (called : Called node ev c)
    (h : ∀ s q m, P s → (Mirrors s.toProcess s.manager → m = c.after node s.manager ∧ Mirrors q m) →
      Q () { s with toCheckpointProcess := ⟨q, m⟩ }) :
    Spec (moves node outside ev s₀) P (onManager (c.program node)) Q := by
  have hframe : Within (CheckpointFrame node c.reached?) (c.program node) := call_within c
  refine .single (fun s _ _ hs hr => ?_) fun s _ _ _ hr => ?_
  · have hafter : Mirrors s.toProcess s.manager →
        ((c.program node).final s.toCheckpointProcess).manager = c.after node s.manager ∧
        Mirrors ((c.program node).final s.toCheckpointProcess).toProcess
          ((c.program node).final s.toCheckpointProcess).manager := by
      intro hm
      obtain ⟨hman, hmir⟩ := call_endsAt hm c hr
      exact ⟨hman, hman ▸ hmir⟩
    exact ⟨.call c called _ _ hafter (hframe s.toCheckpointProcess), h s _ _ hs hafter⟩
  · exact .quiet ((hframe s.toCheckpointProcess).mono (List.Subset.refl _) fun _ => Effect.OfCheckpoints.quiet)

theorem saveCheckpoint_spec {vc : PbftMsg} (hreceived : ViewchangeReceived node ev vc) :
    Spec (moves node outside ev s₀) (Replica.Ops b) (saveCheckpoint node outside vc) fun _ => Replica.Ops b := by
  refine .forEach fun env henv => .bind_lift fun rejected hr => ?_
  cases rejected with
  | true => exact .pure fun _ h => h
  | false =>
    exact call_spec (c := .handleCheckpointMessage outside env) (.saved vc hreceived henv hr) fun _ _ _ h _ => h

/-! ## View changes -/

theorem sendViewchange_spec {view : UInt64} {msgEnv : BznEnvelope}
    (hP : ∀ s, P s → s.pbft.lastViewSent < view ∧ s.pbft.viewIsValid = false ∧
      makeViewchange node view s.manager.latestStableCheckpoint.sequence s.manager.latestStableCheckpointProof
        (s.pbft.operations.preparedOperationsSince s.manager.latestStableCheckpoint.sequence) = .ok msgEnv)
    (hQ : ∀ s q, P s → Q () ((s.withProcess q).withPbft { s.pbft with lastViewSent := view })) :
    Spec (moves node outside ev s₀) P (do asyncSignedBroadcast node outside msgEnv; setLastViewSent view) Q := by
  refine .single (fun s _ _ hs hr => ?_) fun s e _ hs hr => ?_
  · obtain ⟨hnext, hinvalid, hmake⟩ := hP s hs
    obtain ⟨u, hsent, hr⟩ := result_bind_eq_ok hr
    rw [final_bind_ok hsent]
    rw [setLastViewSent, result_assignMember] at hr
    obtain ⟨env, hb, hemits⟩ := Node.multicast_ok hsent
    have hwrites := assign_ok hr
    exact ⟨.sendViewchange view hnext hinvalid env ⟨msgEnv, hmake, hb⟩ _ hemits _ hwrites, hQ s _ hs⟩
  · obtain ⟨hnext, hinvalid, hmake⟩ := hP s hs
    cases hsent : (asyncSignedBroadcast node outside msgEnv).result s with
    | error f =>
      rw [final_bind_error hsent]
      exact .of_toProcess (Node.multicast_error hsent)
    | ok u =>
      rw [result_bind_ok hsent, setLastViewSent, result_assignMember] at hr
      rw [final_bind_ok hsent, setLastViewSent, final_assignMember, assign_error hr]
      obtain ⟨env, hb, hemits⟩ := Node.multicast_ok hsent
      exact .viewchange view hnext hinvalid env ⟨msgEnv, hmake, hb⟩ hemits

/-- After `initiate_viewchange`: nothing happened, or a VIEWCHANGE was sent. -/
def Replica.Initiated (b : Pbft) (s : Replica) : Prop :=
  s.Ops b ∨ ∃ view, s.Ops { b with viewIsValid := false, lastViewSent := view }

theorem initiateViewchange_spec (optView : Option UInt64) :
    Spec (moves node outside ev s₀) (Replica.Ops b) (initiateViewchange node outside optView) fun _ =>
      Replica.Initiated b := by
  refine .bind_read fun s _ hs => .ite (fun hnext => ?_) fun _ => .pure fun _ h => .inl (h ▸ hs)
  refine .bind (Q := fun _ s' => s'.manager = s.manager ∧ s'.pbft = { s.pbft with viewIsValid := false })
    (invalidate_spec fun s' q h => h ▸ ⟨rfl, rfl⟩) fun _ => .bind_lift fun msgEnv hmake => ?_
  refine sendViewchange_spec ?_ ?_
  · rintro s' ⟨hm, hb⟩
    rw [hm, hb]
    exact ⟨hnext, rfl, hmake⟩
  · rintro s' q ⟨hm, hb⟩
    refine .inr ⟨optView.getD (s.pbft.view + 1), ?_⟩
    show { s'.pbft with lastViewSent := optView.getD (s.pbft.view + 1) } = _
    rw [hb, hs]
    rfl

namespace Replica.Initiated

variable {s : Replica}

theorem view (h : s.Initiated b) : s.pbft.view = b.view := by
  rcases h with h | ⟨v, h⟩ <;> rw [h]

theorem pinnedPrimary (h : s.Initiated b) : s.pbft.pinnedPrimary = b.pinnedPrimary := by
  rcases h with h | ⟨v, h⟩ <;> rw [h]

theorem validViewchangeMessagesForView (h : s.Initiated b) :
    s.pbft.validViewchangeMessagesForView = b.validViewchangeMessagesForView := by
  rcases h with h | ⟨v, h⟩ <;> rw [h]

end Replica.Initiated

theorem handleFailure_spec :
    Spec (moves node outside ev s₀) (Replica.Ops b) (handleFailure node outside) fun _ _ => True := by
  refine .bind (Q := fun _ => Replica.Ops b) ?_ fun _ => (initiateViewchange_spec none).post fun _ _ _ => trivial
  exact .ite (fun _ => broadcastAudit_spec _ fun _ _ h => h) fun _ => .pure fun _ h => h

theorem mapRequestToHash_lookup {requests : Map Hash BznEnvelope}
    (h : mapRequestToHash node env = .ok requests) {hash : Hash} {request : BznEnvelope}
    (hr : requests[hash]? = some request) : node.hash request = .ok hash := by
  suffices ∀ (l : List BznEnvelope) (m m' : Map Hash BznEnvelope),
      (∀ (k : Hash) r, m[k]? = some r → node.hash r = .ok k) →
      l.foldlM (fun m request => do pure (m.insert (← node.hash request) request)) m = .ok m' →
      ∀ (k : Hash) r, m'[k]? = some r → node.hash r = .ok k from
    this _ ∅ _ (fun k r hk => by simp at hk) h hash request hr
  intro l
  induction l with
  | nil =>
    intro m m' hm h
    cases h
    exact hm
  | cons x l ih =>
    intro m m' hm h
    obtain ⟨m₁, h₁, h⟩ := except_bind_eq_ok.mp h
    obtain ⟨k₁, hk₁, h₁⟩ := except_bind_eq_ok.mp h₁
    cases h₁
    refine ih _ m' (fun k r hk => ?_) h
    rw [Map.lookup_insert] at hk
    split at hk
    · rename_i heq
      cases hk
      rw [← heq]
      exact hk₁
    · exact hm k r hk

theorem saveAllRequests_spec (msg : PbftMsg) (originalMsg : BznEnvelope) :
    Spec (moves node outside ev s₀) (Replica.Ops b) (saveAllRequests node msg originalMsg) fun _ => Replica.Ops b := by
  refine .bind_lift fun requests hrequests => .forEach fun proof _ => ?_
  split
  · exact .pure fun _ h => h
  · dsimp only
    split
    · exact .pure fun _ h => h
    · rename_i requestEnv hrequest
      refine findOrConstruct_spec.bind fun _ => modifyOperation_spec fun op => ⟨op.sameVotes_recordRequest _ _, ?_⟩
      exact op.binds_recordRequest (mapRequestToHash_lookup hrequests hrequest)

theorem storeViewchange_spec (hdelivered : Delivered node ev msg env)
    (htype : msg.type = .viewchange) (hview : b.view = s₀.pbft.view)
    (hvalid : isValidViewchangeMessage node s₀.pbft.view msg env = .ok true) :
    Spec (moves node outside ev s₀) (Replica.Ops b)
      (storeViewchange node msg.view env.sender env.clearPiggybackedRequests) fun _ =>
      Replica.Ops { b with
        validViewchangeMessagesForView := viewchangesWith b.validViewchangeMessagesForView msg.view env.sender
          env.clearPiggybackedRequests } := by
  refine .atMostOne (fun s _ hi hs hr => ?_) fun s e _ _ hr => ?_
  · have hvcs : s.pbft.validViewchangeMessagesForView = b.validViewchangeMessagesForView := by rw [hs]
    obtain ⟨value, hv, -⟩ := result_bind_eq_ok hr
    rw [storeViewchange, final_bind_ok hv]
    have hlookup := hi.viewchanges.stored (env.sender, msg.view)
    rw [viewchangeSubkeys] at hlookup
    obtain ⟨-, ⟨val, hstored, hval, hfin⟩ | ⟨hstored, rfl, hw⟩⟩ := persistent_ok hv
    · rw [hlookup] at hstored
      obtain ⟨old, hold, rfl⟩ := Option.map_eq_some_iff.mp hstored
      obtain rfl := envelope_faithful node.wire old value hval
      rw [final_onReplica, hfin]
      have hsame : (modifyPbft fun p => { p with
          validViewchangeMessagesForView := Map.insert2 p.validViewchangeMessagesForView msg.view env.sender
            value }).final s = s := by
        show s.withPbft { s.pbft with
          validViewchangeMessagesForView := Map.insert2 s.pbft.validViewchangeMessagesForView msg.view env.sender
            value } = s
        rw [Map.insert2_self hold]
        rfl
      refine ⟨.inl hsame, ?_⟩
      rw [hvcs] at hold
      rw [viewchangesWith, hold, Option.getD_some, Map.insert2_self hold]
      exact hsame.symm ▸ hs
    · rw [hlookup, Option.map_eq_none_iff] at hstored
      refine ⟨.inr (.storeViewchange msg env hdelivered htype (hs.view.trans hview) hvalid hstored _ hw), ?_⟩
      rw [hvcs] at hstored
      rw [viewchangesWith, hstored]
      show { s.pbft with
        validViewchangeMessagesForView := Map.insert2 s.pbft.validViewchangeMessagesForView msg.view env.sender
          env.clearPiggybackedRequests } = _
      rw [hs]
      rfl
  · cases hv : (onReplica (persistent (.envelope node.wire) env.clearPiggybackedRequests
        validViewchangeMessagesForViewKey [env.sender, Conversion.uint64.toString msg.view])).result s with
    | ok value => rw [storeViewchange, result_bind_ok hv] at hr; cases hr
    | error e =>
      rw [storeViewchange, final_bind_error hv]
      exact .of_toProcess (persistent_error hv)

/-- The operation manager constructs operations. -/
def Constructs (ops ops' : HeldOperations) : Prop := ∃ key, ops' = ops.construct key

theorem buildNewview_within (view : UInt64) (viewchanges : Map Uuid BznEnvelope) (attachReqs : Bool) :
    Within (Relation.ReflTransGen Constructs) (buildNewview node outside view viewchanges attachReqs) := by
  refine .bind (.foldlM (fun m env => .foldlM (fun m proof => ?_) _ _) _ _) fun _ => .bind (.lift _) fun _ => .pure _
  refine .ite (.pure _) (.ite (.pure _) (.bind (.bind (.lift _) fun env => .ite ?_ (.pure _)) fun _ => .pure _))
  refine .bind (.update fun ops => .single ⟨_, rfl⟩) fun _ => .bind .read fun ops => ?_
  split
  · exact .pure _
  · exact .pure _

theorem onOperations_spec {α : Type} {m : Program Fault HeldOperations α}
    {Q : α → Replica → Prop} (hm : Within (Relation.ReflTransGen Constructs) m)
    (hQ : ∀ s a, P s → m.result s.pbft.operations = .ok a →
      Q a (s.withPbft { s.pbft with operations := m.final s.pbft.operations })) :
    Spec (moves node outside ev s₀) P (onOperations m) Q := by
  refine .ofRun (fun s _ => ?_) hQ
  have hrun := hm s.pbft.operations
  show Relation.ReflTransGen _ s (s.withPbft { s.pbft with operations := m.final s.pbft.operations })
  generalize m.final s.pbft.operations = ops at hrun
  induction hrun with
  | refl => exact .refl
  | tail _ hstep ih =>
    obtain ⟨key, rfl⟩ := hstep
    exact ih.tail (.request key _ (.refl _) (.inl rfl))

theorem sendNewview_spec (hdelivered : Delivered node ev msg env)
    (htype : msg.type = .viewchange) (hvalid : isValidViewchangeMessage node s₀.pbft.view msg env = .ok true)
    (hvcs : b.validViewchangeMessagesForView = viewchangesWith s₀.pbft.validViewchangeMessagesForView msg.view
      env.sender env.clearPiggybackedRequests) (hview : b.view = s₀.pbft.view)
    (hpinned : b.pinnedPrimary = s₀.pbft.pinnedPrimary) :
    Spec (moves node outside ev s₀) (Replica.Initiated b) (do
      let s ← read
      match s.pbft.pendingView node with
      | none => pure ()
      | some viewchange => do
        let newviewMsg ← onOperations (buildNewview node outside viewchange
          (s.pbft.validViewchangeMessagesForView.getD msg.view ∅) true)
        broadcastPbftMsg node outside newviewMsg) fun _ _ => True := by
  refine .bind_read fun s _ hs => ?_
  split
  · exact .pure fun _ _ => trivial
  · rename_i view hpending
    refine .bind (Q := fun nv s' => s'.Ops s.pbft ∧ (buildNewview node outside view
        (s.pbft.validViewchangeMessagesForView.getD msg.view ∅) true).result s.pbft.operations = .ok nv)
      (onOperations_spec (buildNewview_within _ _ _) fun s' nv h hr => ?_) fun nv => asyncSignedBroadcast_spec ?_
    · subst h
      exact ⟨rfl, hr⟩
    · rintro s' q env' ⟨hops, hbuild⟩ hb he
      refine ⟨.sendNewview nv ⟨⟨msg, env, hdelivered, htype, hvalid, ?_, view, s.pbft.operations, ?_, ?_⟩, ?_, ?_⟩ env'
        hb q he, trivial⟩
      · rw [hops, ← hvcs]
        exact hs.validViewchangeMessagesForView
      · rw [hops]
        exact hpending
      · rw [hops]
        exact hbuild
      · rw [hops]
        exact hs.view.trans hview
      · rw [hops]
        exact hs.pinnedPrimary.trans hpinned

theorem handleViewchange_spec (hdelivered : Delivered node ev msg env)
    (htype : msg.type = .viewchange) :
    Spec (moves node outside ev s₀) (Replica.Ops s₀.pbft) (handleViewchange node outside msg env) fun _ _ => True := by
  refine .bind_read fun s _ hs => .bind_lift fun valid hvalid => ?_
  cases valid with
  | false => exact .pure fun _ _ => trivial
  | true =>
    rw [hs.view] at hvalid
    refine .pre (P := Replica.Ops s₀.pbft) ?_ fun _ h => h ▸ hs
    refine (saveAllRequests_spec msg env).bind fun _ => (storeViewchange_spec hdelivered htype rfl hvalid).bind fun _ =>
      (saveCheckpoint_spec (.direct env hdelivered htype)).bind fun _ => .bind_read fun s' _ hs' => ?_
    refine .iteBind (R := Replica.Initiated { s₀.pbft with
      validViewchangeMessagesForView := viewchangesWith s₀.pbft.validViewchangeMessagesForView msg.view env.sender
        env.clearPiggybackedRequests }) (fun _ => ?_) (fun _ s'' h => .inl (h ▸ hs')) ?_
    · exact (initiateViewchange_spec _).pre fun _ h => h ▸ hs'
    · exact sendNewview_spec hdelivered htype hvalid rfl rfl rfl

/-! ## A new view -/

section

variable {nv : PbftMsg} {nvEnv : BznEnvelope}

theorem NewviewAccepted.validNewview (h : NewviewAccepted node outside ev s₀ nv nvEnv) :
    ValidNewview node outside s₀.pbft nv nvEnv := isValidNewviewMessage_iff.mp h.valid

variable {p : Pbft} {peer : PeerAddress}

/-- A valid NEWVIEW is for a later view. -/
theorem ValidNewview.next (h : ValidNewview node outside p nv nvEnv) : p.view < nv.view := by
  cases hl : nv.viewchangeMessages with
  | nil =>
    have := h.enough
    rw [hl] at this
    simp at this
  | cons vc l =>
    obtain ⟨msg, -, -, hv, hvalid⟩ := h.viewchanges vc (by rw [hl]; exact List.mem_cons_self ..)
    rw [← hv]
    exact hvalid.next

/-- The sender of a valid NEWVIEW is the primary of its view. -/
theorem ValidNewview.primaryOf (h : ValidNewview node outside p nv nvEnv) :
    ∃ peer, node.primaryOf nv.view = some peer ∧ nvEnv.sender = peer.uuid := by
  obtain ⟨peer, hp, hsender⟩ := h.primary
  have hne : nv.view ≠ p.view := fun heq => UInt64.lt_irrefl _ (heq ▸ h.next)
  rw [Pbft.predictPrimary, if_neg hne] at hp
  exact ⟨peer, hp, hsender⟩

theorem Node.mem_of_primaryOf {view : UInt64} (h : node.primaryOf view = some peer) : peer ∈ node.peers.current :=
  node.peers.perm.mem_iff.mp (List.mem_of_getElem? h)

theorem Node.peerByUuid_isSome (h : peer ∈ node.peers.current) : ∃ found, node.peerByUuid peer.uuid = some found := by
  rw [← Option.isSome_iff_exists, Node.peerByUuid, List.find?_isSome]
  exact ⟨peer, h, by simp⟩

theorem ValidNewview.peerByUuid (h : ValidNewview node outside p nv nvEnv) :
    ∃ found, node.peerByUuid nvEnv.sender = some found := by
  obtain ⟨peer, hp, hsender⟩ := h.primaryOf
  rw [hsender]
  exact Node.peerByUuid_isSome (Node.mem_of_primaryOf hp)

/-- The pre-prepares of a valid NEWVIEW are for its view. -/
theorem ValidNewview.prePrepare (h : ValidNewview node outside p nv nvEnv) (henv : env ∈ nv.prePrepareMessages) :
    env.sender = nvEnv.sender ∧
      (node.wire.pbftMsg.decode env.pbft).type = .preprepare ∧ (node.wire.pbftMsg.decode env.pbft).view = nv.view := by
  obtain ⟨ours, hours, hall⟩ := h.prePrepares
  obtain ⟨env', henv', hexpected⟩ := exists_of_forall₂ hall henv
  have hkey := hexpected.key
  rw [PbftMsg.operationKey, OperationKey.mk.injEq, buildNewview_view hours henv'] at hkey
  exact ⟨hexpected.sender, hexpected.type, hkey.1.symm⟩

theorem enterView_spec (haccepted : NewviewAccepted node outside ev s₀ nv nvEnv) (hview : b.view = s₀.pbft.view)
    (hsent : b.lastViewSent = s₀.pbft.lastViewSent) :
    Spec (moves node outside ev s₀) (Replica.Ops b) (do
      setPrimaryFromNewview node outside nvEnv
      setView nv.view
      setViewIsValid true) fun _ => Replica.Ops { b with
        view := nv.view, viewIsValid := true, pinnedPrimary := node.peerByUuid nvEnv.sender } := by
  obtain ⟨peer, hpeer⟩ := haccepted.validNewview.peerByUuid
  have hset : setPrimaryFromNewview node outside nvEnv = modifyPbft fun p => { p with pinnedPrimary := some peer } := by
    rw [setPrimaryFromNewview, hpeer]
  rw [hset, hpeer]
  refine .single (fun s _ _ hs hr => ?_) fun s e _ hs hr => ?_
  · obtain ⟨u, hp, hr⟩ := result_bind_eq_ok hr
    obtain ⟨u, hv, hr⟩ := result_bind_eq_ok hr
    rw [final_bind_ok hp, final_bind_ok hv]
    obtain ⟨q, hw, hq⟩ := setView_ok hv
    rw [hq] at hr ⊢
    obtain ⟨q', hw', hq'⟩ := setViewIsValid_ok hr
    rw [hq']
    have hstep : Step node outside ev s₀ s _ :=
      .newview nv nvEnv haccepted (hs.view.trans hview) (by rw [hs]; exact hsent) q hw q' hw'
    rw [hpeer] at hstep
    refine ⟨hstep, ?_⟩
    show { s.pbft with view := nv.view, viewIsValid := true, pinnedPrimary := some peer } = _
    rw [hs]
    rfl
  · have hp : (modifyPbft fun p => { p with pinnedPrimary := some peer }).result s = .ok () := rfl
    rw [result_bind_ok hp] at hr
    rw [final_bind_ok hp]
    generalize hs' : (modifyPbft fun p => { p with pinnedPrimary := some peer }).final s = s' at hr ⊢
    have hproc : s'.toProcess = s.toProcess := by rw [← hs']; rfl
    cases hv : (setView nv.view).result s' with
    | error f =>
      rw [final_bind_error hv]
      exact .of_toProcess ((setView_error hv).trans hproc)
    | ok u =>
      rw [result_bind_ok hv] at hr
      rw [final_bind_ok hv]
      obtain ⟨q, hw, hq⟩ := setView_ok hv
      have hq' : ((setView nv.view).final s').toProcess = q := by rw [hq]; rfl
      rw [hproc, ← hq', ← setViewIsValid_error hr] at hw
      exact .enter nv nvEnv haccepted (hs.view.trans hview) hw

/-- The replica is in the new view, and has taken up these pre-prepares. -/
structure Replica.Entered (node : Node) (nv : PbftMsg) (taken : List BznEnvelope) (s : Replica) : Prop where
  view : s.pbft.view = nv.view
  valid : s.pbft.viewIsValid = true
  taken : ∀ env ∈ taken, ∀ msg, node.wire.pbftMsg.parse env.pbft = some msg →
    (s.pbft.acceptedPreprepares[msg.logKey]?).isSome

theorem handleNewviewPreprepares_spec (haccepted : NewviewAccepted node outside ev s₀ nv nvEnv) :
    Spec (moves node outside ev s₀) (Replica.Entered node nv []) (handleNewviewPreprepares node outside nv) fun _ =>
      Replica.Entered node nv nv.prePrepareMessages := by
  refine .forEach_taken (fun taken => Replica.Entered node nv taken) fun taken env rest hl => ?_
  have hmem : env ∈ nv.prePrepareMessages := by
    rw [hl]
    exact List.mem_append_right _ (List.mem_cons_self ..)
  cases hparse : node.wire.pbftMsg.parse env.pbft with
  | none =>
    refine .pure fun s hs => ⟨hs.view, hs.valid, fun env' henv' msg hmsg => ?_⟩
    rcases List.mem_append.mp henv' with h | h
    · exact hs.taken env' h msg hmsg
    · rw [List.mem_singleton.mp h, hparse] at hmsg
      cases hmsg
  | some msg =>
    obtain ⟨-, htype, hview⟩ := haccepted.validNewview.prePrepare hmem
    rw [node.wire.pbftMsg.decode_of_parse hparse] at htype hview
    refine fun s hi hs => ?_
    have hpp := handlePreprepare_spec (b := s.pbft)
      (fun s' h => .newview nv nvEnv haccepted hmem hparse (h.view.trans hs.view) (h.viewIsValid.trans hs.valid))
      htype (hview.trans hs.view.symm) hs.valid
    refine Spec.bind hpp (fun _ => setNextIssuedSequenceNumber_spec
      (fun _ _ => .prePrepare nv nvEnv haccepted env hmem msg hparse) fun s' q h _ => ⟨?_, ?_, ?_⟩) s hi (.refl s)
    · show s'.pbft.view = _
      rw [h.1.same]
      exact hs.view
    · show s'.pbft.viewIsValid = _
      rw [h.1.same]
      exact hs.valid
    · intro env' henv' msg' hmsg'
      rcases List.mem_append.mp henv' with hold | hnew
      · obtain ⟨key, hkey⟩ := Option.isSome_iff_exists.mp (hs.taken env' hold msg' hmsg')
        exact Option.isSome_iff_exists.mpr ⟨key, h.1.grows _ _ hkey⟩
      · rw [List.mem_singleton.mp hnew, hparse] at hmsg'
        cases hmsg'
        exact h.2

variable (node outside nv nvEnv) in
theorem newview_assoc : (do
    setPrimaryFromNewview node outside nvEnv
    setView nv.view
    setViewIsValid true
    handleNewviewPreprepares node outside nv
    modifyPbft fun p => { p with savedNewview := nvEnv }) = (do
    (do setPrimaryFromNewview node outside nvEnv; setView nv.view; setViewIsValid true)
    handleNewviewPreprepares node outside nv
    modifyPbft fun p => { p with savedNewview := nvEnv }) := by simp only [bind_assoc]

theorem handleNewview_spec (hdelivered : Delivered node ev nv nvEnv) (htype : nv.type = .newview) :
    Spec (moves node outside ev s₀) (Replica.Ops s₀.pbft) (handleNewview node outside nv nvEnv) fun _ s =>
      isValidNewviewMessage node outside s₀.pbft nv nvEnv = .ok true → s.pbft.view = nv.view := by
  refine .bind_read fun s _ hs => .bind_lift fun valid hvalid => ?_
  have hvalid' : isValidNewviewMessage node outside s₀.pbft nv nvEnv = .ok valid := by
    rw [hs] at hvalid
    exact hvalid
  cases valid with
  | false =>
    refine .pure fun _ _ h => ?_
    rw [hvalid'] at h
    cases h
  | true =>
    have haccepted : NewviewAccepted node outside ev s₀ nv nvEnv := { hdelivered with type := htype, valid := hvalid' }
    refine .pre (P := Replica.Ops s₀.pbft) ?_ fun _ h => h ▸ hs
    cases hl : nv.viewchangeMessages with
    | nil => exact .fail _
    | cons first l =>
      have hfirst : first ∈ nv.viewchangeMessages := by
        rw [hl]
        exact List.mem_cons_self ..
      refine (saveCheckpoint_spec (.newview nv nvEnv hdelivered htype first hfirst rfl)).bind fun _ =>
        .bind (Q := fun _ => Replica.Ops { s₀.pbft with
        nextIssuedSequenceNumber := (node.viewchangeOf first).sequence + 1 }) (setNextIssuedSequenceNumber_spec
          (fun _ _ => .viewchange nv nvEnv haccepted first hfirst) fun s' q h _ => ?_) fun _ => ?_
      · show { s'.pbft with nextIssuedSequenceNumber := (node.viewchangeOf first).sequence + 1 } = _
        rw [h]
        rfl
      rw [newview_assoc]
      refine (enterView_spec (b := { s₀.pbft with
        nextIssuedSequenceNumber := (node.viewchangeOf first).sequence + 1 }) haccepted rfl rfl).bind fun _ =>
        ((handleNewviewPreprepares_spec haccepted).pre fun s' hs' => ⟨?_, ?_, fun _ h => by cases h⟩).bind fun _ =>
        .update fun s' _ hs' => ⟨.saveNewview nv nvEnv haccepted hs'.view hs'.taken, fun _ => hs'.view⟩
      · rw [hs']
      · rw [hs']

end

/-! ## Messages of the protocol -/

theorem Pbft.preliminaryFilterMsg_phase {p : Pbft} (h : p.preliminaryFilterMsg msg = true)
    (htype : msg.type = .preprepare ∨ msg.type = .prepare ∨ msg.type = .commit) :
    msg.view = p.view ∧ p.viewIsValid = true := by
  unfold preliminaryFilterMsg at h
  rcases htype with ht | ht | ht <;> cases hv : p.viewIsValid <;> simp_all

/-- The handler of the type of a message that is let through. -/
theorem handleDelivered_spec {s : Replica} (hdelivered : Delivered node ev msg env)
    (hpass : s.pbft.preliminaryFilterMsg msg = true) :
    Spec (moves node outside ev s) (fun s' => s' = s)
      (match msg.type with
        | .preprepare => handlePreprepare node outside msg env
        | .prepare => handlePrepare node outside msg env
        | .commit => handleCommit node outside msg env
        | .viewchange => handleViewchange node outside msg env
        | .newview => handleNewview node outside msg env
        | _ => raise "Unsupported message type") fun _ _ => True := by
  have hphase := Pbft.preliminaryFilterMsg_phase hpass
  refine .pre (P := Replica.Ops s.pbft) ?_ fun s' h => h ▸ .refl s
  split
  · rename_i ht
    obtain ⟨hview, hvalid⟩ := hphase (.inl ht)
    refine (handlePreprepare_spec (fun s' h => .direct hdelivered ht hview hvalid h) ht hview hvalid).post
      fun _ _ _ => trivial
  · rename_i ht
    obtain ⟨hview, hvalid⟩ := hphase (.inr (.inl ht))
    exact (handleVote_spec hdelivered (.inl ht) hview hvalid).post fun _ _ _ => trivial
  · rename_i ht
    obtain ⟨hview, hvalid⟩ := hphase (.inr (.inr ht))
    exact (handleVote_spec hdelivered (.inr ht) hview hvalid).post fun _ _ _ => trivial
  · exact handleViewchange_spec hdelivered ‹_›
  · exact (handleNewview_spec hdelivered ‹_›).post fun _ _ _ => trivial
  · exact .fail _

theorem handleMessage_spec {session : Option Nat} (hev : ev = .message env session)
    (hswarm : env.swarmId = node.options.swarmId) {text : Bytes} (hpayload : env.payload = .pbft text)
    (hparse : node.wire.pbftMsg.parse env.pbft = some msg) :
    Spec (moves node outside ev s₀) (fun s => s = s₀) (handleMessage node outside msg env) fun _ _ => True := by
  refine .bind_read fun s _ hs => ?_
  subst hs
  refine .ite (fun _ => .pure fun _ _ => trivial) fun hpeer =>
    .ite (fun _ => .pure fun _ _ => trivial) fun hfilter => ?_
  have hpass : s.pbft.preliminaryFilterMsg msg = true := by simpa using hfilter
  have hdelivered (hverified : env.sender ≠ [] → node.rejects env = .ok false) : Delivered node ev msg env :=
    ⟨⟨session, hev⟩, hswarm, ⟨text, hpayload⟩, hparse, by simpa using hpeer, hverified⟩
  by_cases hsender : env.sender = []
  · simp only [hsender]
    exact handleDelivered_spec (hdelivered fun h => absurd hsender h) hpass
  · simp only [hsender, ne_eq]
    refine .bind_lift fun dropped hdropped => ?_
    cases dropped with
    | true => exact .pure fun _ _ => trivial
    | false => exact handleDelivered_spec (hdelivered fun _ => hdropped) hpass

end

end SwarmDb
