import SwarmDb.Pbft.RequestBinding
import SwarmDb.Pbft.VotePromise

/-!
# The NEWVIEW messages of a primary

With a VIEWCHANGE that comes in, a replica looks for a view that it is the primary of and has enough VIEWCHANGE messages
for, but makes the NEWVIEW of the messages for the view of the one that came in. `newview_accepted` says that every
NEWVIEW is valid at every replica where the two views are the same one.
-/

namespace SwarmDb

open Lib Program

/-! ## Stored VIEWCHANGE messages -/

/-- The VIEWCHANGE messages that a replica has stored were valid in some view, and are filed under their
view and sender. -/
def StoredVotes (node : Node) (b : Pbft) : Prop :=
  ∀ (view : UInt64) (sender : Uuid) (env : BznEnvelope),
    Map.lookup2 b.validViewchangeMessagesForView view sender = some env →
    env.sender = sender ∧ ∃ msg current, node.wire.pbftMsg.parse env.pbft = some msg ∧ msg.type = .viewchange ∧
      msg.view = view ∧ ValidViewchange node current msg env

section

variable {node : Node} {outside : Outside} {ev : Event} {s₀ s s' : Replica} {b b' : Pbft}

theorem StoredVotes.same (h : StoredVotes node b)
    (hsame : b'.validViewchangeMessagesForView = b.validViewchangeMessagesForView) : StoredVotes node b' := by
  unfold StoredVotes
  rw [hsame]
  exact h

theorem Step.storedVotes (h : Step node outside ev s₀ s s') (hs : StoredVotes node s.pbft) :
    StoredVotes node s'.pbft := by
  cases h with
  | memory _ same => exact hs.same same.validViewchangeMessagesForView
  | storeViewchange msg env delivered type _ valid =>
    intro view' sender env' hlookup
    replace hlookup : Map.lookup2 (Map.insert2 s.pbft.validViewchangeMessagesForView msg.view env.sender
      env.clearPiggybackedRequests) view' sender = some env' := hlookup
    rw [Map.lookup2_insert2] at hlookup
    split at hlookup
    · rename_i heq
      cases hlookup
      obtain ⟨rfl, rfl⟩ := heq
      have hvalid := isValidViewchangeMessage_iff.mp valid
      exact ⟨rfl, msg, s₀.pbft.view, delivered.parse, type, rfl, hvalid.peer, hvalid.next, hvalid.checkpoint,
        hvalid.proofs⟩
    · exact hs view' sender env' hlookup
  | _ => exact hs

end

/-! ## Nodes that check alike -/

/-- Two nodes of a swarm, which check messages alike. -/
structure SameChecks (node node' : Node) : Prop where
  peers : node'.peers = node.peers
  wire : node'.wire = node.wire
  ssl : node'.ssl = node.ssl
  peerMessageSigning : node'.options.peerMessageSigning = node.options.peerMessageSigning
  cryptoEnabledIncoming : node'.options.cryptoEnabledIncoming = node.options.cryptoEnabledIncoming

theorem SameChecks.isValidViewchangeMessage_eq {node node' : Node} (h : SameChecks node node') (current : UInt64)
    (msg : PbftMsg) (env : BznEnvelope) :
    isValidViewchangeMessage node' current msg env = isValidViewchangeMessage node current msg env := by
  obtain ⟨⟨uuid', swarmId', incoming', outgoing', signing', window'⟩, ssl', wire', peers', audit'⟩ := node'
  obtain ⟨rfl, rfl, rfl, rfl, rfl⟩ := h
  rfl

/-! ## Signatures -/

/-- Where signatures are checked, those of the node are good ones. -/
def Node.SignaturesVerify (node : Node) : Prop :=
  node.options.peerMessageSigning = true → node.options.cryptoEnabledIncoming = true →
    node.uuid ≠ [] ∧ node.options.cryptoEnabledOutgoing = true ∧
      ∀ text, ∃ signature, node.ssl.signText node.uuid text = some signature ∧
        node.ssl.verifySignature node.uuid text signature = true

section

variable {node : Node} {outside : Outside} {env signed : BznEnvelope} {msg : PbftMsg}

theorem signAsSender_verifies {ssl : OpenSsl} {options : Options} (hsender : env.sender = options.uuid)
    (houtgoing : options.cryptoEnabledOutgoing = true)
    (hverify : ∀ text, ∃ signature, ssl.signText options.uuid text = some signature ∧
      ssl.verifySignature options.uuid text signature = true) (h : signAsSender ssl options env = .ok signed) :
    ∃ text, deterministicSerialize signed = .ok text ∧ signed.sender = options.uuid ∧
      ssl.verifySignature options.uuid text signed.signature = true := by
  unfold signAsSender at h
  rw [if_neg (not_not.mpr hsender), houtgoing, if_neg (by simp)] at h
  cases htext : deterministicSerialize env with
  | error =>
    rw [htext] at h
    cases h
  | ok text =>
    obtain ⟨signature, hsign, hgood⟩ := hverify text
    rw [htext] at h
    simp only [Except.map, hsign, Except.ok.injEq] at h
    subst h
    -- the signature is no part of the signed text
    exact ⟨text, htext, hsender, hgood⟩

theorem Node.rejects_wrapMessage (h : node.SignaturesVerify) (hwrap : node.wrapMessage outside env = .ok signed) :
    node.rejects signed = .ok false := by
  unfold Node.rejects
  split
  · rename_i hsigning
    unfold Node.verify cryptoVerify
    cases hincoming : node.options.cryptoEnabledIncoming with
    | false => rfl
    | true =>
      obtain ⟨hname, houtgoing, hverify⟩ := h hsigning hincoming
      unfold Node.wrapMessage cryptoSign at hwrap
      rw [if_neg hname] at hwrap
      obtain ⟨text, htext, hsender, hgood⟩ := signAsSender_verifies rfl houtgoing hverify hwrap
      have hne : node.options.uuid ≠ [] := hname
      rw [htext, hsender]
      simp [Except.map, hgood, hne]
  · rfl

theorem WrappedAs.not_rejected (h : WrappedAs node outside env msg) (hsigns : node.SignaturesVerify) :
    node.rejects env = .ok false := by
  obtain ⟨signed, requests, hsigned, rfl⟩ := h
  have hverified := Node.rejects_wrapMessage hsigns hsigned
  exact hverified

theorem WrappedAs.sender (h : WrappedAs node outside env msg) : env.sender = node.uuid := by
  obtain ⟨signed, requests, hsigned, rfl⟩ := h
  obtain ⟨signature, rfl⟩ := cryptoSign_ok hsigned
  show (if node.uuid = [] then node.options.uuid else node.uuid) = node.uuid
  split
  · rfl
  · rfl

end

/-! ## The message -/

/-- A NEWVIEW with as many VIEWCHANGE messages as it needs, which is valid at every replica of the swarm in an
earlier view. -/
structure Acceptable (node : Node) (nv : PbftMsg) (env : BznEnvelope) : Prop where
  count : nv.viewchangeMessages.length = 2 * node.maxFaultyNodes + 1
  valid : ∀ node' outside p, SameChecks node node' → p.view < nv.view → ValidNewview node' outside p nv env

section

variable {node node' : Node} {outside : Outside} {ev : Event} {s₀ s s' : Replica} {p p' : Pbft} {view : UInt64}
  {nv : PbftMsg} {env : BznEnvelope}

theorem SameChecks.rejects_eq (h : SameChecks node node') (env : BznEnvelope) :
    node'.rejects env = node.rejects env := by
  simp only [Node.rejects, Node.verify, cryptoVerify, h.ssl, h.peerMessageSigning, h.cryptoEnabledIncoming]

/-- What the pre-prepares of a NEWVIEW are made of is the same at two nodes of a swarm. -/
theorem SameChecks.proposals_eq (h : SameChecks node node') : node'.maxCheckpointSequence = node.maxCheckpointSequence ∧
    preparedProofsOf node' = preparedProofsOf node ∧ lastSequence node' = lastSequence node ∧
    proposalAt node' = proposalAt node ∧ node'.hash node'.nullRequest = node.hash node.nullRequest := by
  obtain ⟨options, ssl, wire, peers, audit⟩ := node'
  obtain ⟨rfl, rfl, rfl, -, -⟩ := h
  exact ⟨rfl, rfl, rfl, rfl, rfl⟩

theorem SameChecks.viewchangeFor (h : SameChecks node node') {current : UInt64} {vc : BznEnvelope}
    (hvc : ViewchangeFor node current view vc) : ViewchangeFor node' current view vc := by
  obtain ⟨msg, hparse, htype, hview, hvalid⟩ := hvc
  refine ⟨msg, by rw [h.wire]; exact hparse, htype, hview, isValidViewchangeMessage_iff.mp ?_⟩
  rw [h.isValidViewchangeMessage_eq]
  exact isValidViewchangeMessage_iff.mpr hvalid

theorem Pbft.pendingView_congr (hvotes : p'.validViewchangeMessagesForView = p.validViewchangeMessagesForView)
    (hview : p'.view = p.view) (hpinned : p'.pinnedPrimary = p.pinnedPrimary) :
    p'.pendingView node = p.pendingView node := by
  unfold Pbft.pendingView Pbft.predictPrimary
  rw [hvotes, hview, hpinned]

/-- A pending view has this node as its primary, and as many VIEWCHANGE messages as it needs. -/
theorem Pbft.pendingView_eq_some (h : p.pendingView node = some view) :
    (∃ peer, node.primaryOf view = some peer ∧ peer.uuid = node.uuid) ∧
      (p.validViewchangeMessagesForView.getD view ∅).toList.length = 2 * node.maxFaultyNodes + 1 := by
  obtain ⟨⟨view, votes⟩, hfind, rfl⟩ := Option.map_eq_some_iff.mp h
  have hmem := Map.mem_toList_iff.mp (List.mem_of_find?_eq_some hfind)
  have hpending := List.find?_some hfind
  simp only [Bool.and_eq_true, decide_eq_true_eq] at hpending
  obtain ⟨⟨hprimary, hnext⟩, hcount⟩ := hpending
  refine ⟨?_, by rw [Map.getD_lookup, hmem]; exact hcount⟩
  have hne : view ≠ p.view := fun heq => UInt64.lt_irrefl _ (heq ▸ hnext)
  rw [Pbft.predictPrimary, if_neg hne] at hprimary
  cases hpeer : node.primaryOf view with
  | none =>
    rw [hpeer] at hprimary
    cases hprimary
  | some peer =>
    rw [hpeer] at hprimary
    exact ⟨peer, rfl, of_decide_eq_true hprimary⟩

theorem proposalAt_type {maxCheckpointSequence : UInt64} {proofs : List PreparedProof} {hash : Hash} {i : UInt64}
    {msg : PbftMsg} (hproofs : ∀ proof ∈ proofs, (proof.message node).type = .preprepare)
    (h : proposalAt node view maxCheckpointSequence proofs hash i = some msg) : msg.type = .preprepare := by
  unfold proposalAt at h
  split at h
  · rename_i proof hfirst
    cases h
    exact hproofs proof (List.mem_of_find?_eq_some hfirst)
  · split at h
    · cases h
      rfl
    · cases h

/-- The stored votes for a view, as they stand in a NEWVIEW for it. -/
structure VotesFor (node : Node) (view : UInt64) (votes : Map Uuid BznEnvelope) : Prop where
  filed : ∀ (u : Uuid) (env : BznEnvelope), votes[u]? = some env → env.sender = u
  valid : ∀ env ∈ votes.toList.map Prod.snd, ∀ current, current < view → ViewchangeFor node current view env
  proofs : ∀ proof ∈ preparedProofsOf node (votes.toList.map Prod.snd), (proof.message node).type = .preprepare

theorem StoredVotes.votesFor (h : StoredVotes node p) (view : UInt64) :
    VotesFor node view (p.validViewchangeMessagesForView.getD view ∅) := by
  have hvote : ∀ env ∈ (p.validViewchangeMessagesForView.getD view ∅).toList.map Prod.snd, ∃ msg current,
      node.wire.pbftMsg.parse env.pbft = some msg ∧ msg.type = .viewchange ∧ msg.view = view ∧
        ValidViewchange node current msg env := by
    intro env henv
    obtain ⟨⟨u, env⟩, hpair, rfl⟩ := List.mem_map.mp henv
    exact (h view u env (by rw [← Map.lookup_getD]; exact Map.mem_toList_iff.mp hpair)).2
  refine ⟨fun u env hlookup => (h view u env (by rw [← Map.lookup_getD]; exact hlookup)).1,
    fun env henv current hnext => ?_, fun proof hproof => ?_⟩
  · obtain ⟨msg, current', hparse, htype, hview, hvalid⟩ := hvote env henv
    exact ⟨msg, hparse, htype, hview, hvalid.at_view (hview ▸ hnext)⟩
  · obtain ⟨env, henv, hmem⟩ := List.mem_flatMap.mp hproof
    obtain ⟨msg, current, hparse, -, -, hvalid⟩ := hvote env henv
    rw [Node.viewchangeOf, node.wire.pbftMsg.decode_of_parse hparse] at hmem
    obtain ⟨pp, hpp⟩ := hvalid.proofs proof hmem
    rw [PreparedProof.message, node.wire.pbftMsg.decode_of_parse hpp.parse]
    exact hpp.type

/-- The NEWVIEW that the primary of a view makes of enough votes for it. -/
theorem VotesFor.acceptable {votes : Map Uuid BznEnvelope} {operations : HeldOperations} (h : VotesFor node view votes)
    (hcount : votes.toList.length = 2 * node.maxFaultyNodes + 1) (hsigns : node.SignaturesVerify)
    (hprimary : ∃ peer, node.primaryOf view = some peer ∧ peer.uuid = node.uuid) (hsender : env.sender = node.uuid)
    (hbuild : (buildNewview node outside view votes true).result operations = .ok nv) : Acceptable node nv env := by
  obtain ⟨hash, hhash⟩ := node.hash_nullRequest
  have hok := buildNewview_ok node outside view votes true operations hhash
  dsimp only at hok
  split at hok
  · rw [hok] at hbuild
    cases hbuild
  · rename_i hlast
    obtain ⟨m, hm, hproposals⟩ := hok
    rw [hm] at hbuild
    obtain rfl := Except.ok.inj hbuild
    refine ⟨(List.length_map _).trans hcount, fun node' outside' p hsame hnext => ?_⟩
    obtain ⟨hmax, hproofs, hlast', hproposal, hhash'⟩ := hsame.proposals_eq
    have hfaulty : node'.maxFaultyNodes = node.maxFaultyNodes := by
      rw [Node.maxFaultyNodes, Node.maxFaultyNodes, Node.swarmSize, Node.swarmSize, hsame.peers]
    refine ⟨?_, ?_, fun vc hvc => ?_, ?_, ?_⟩
    · obtain ⟨peer, hpeer, huuid⟩ := hprimary
      have hne : view ≠ p.view := fun heq => UInt64.lt_irrefl _ (heq ▸ hnext)
      refine ⟨peer, ?_, hsender.trans huuid.symm⟩
      show p.predictPrimary node' view = some peer
      rw [Pbft.predictPrimary, if_neg hne, Node.primaryOf, hsame.peers]
      exact hpeer
    · rw [hfaulty]
      exact ((List.length_map _).trans hcount).ge
    · exact hsame.viewchangeFor (h.valid vc hvc p.view hnext)
    · have hkeys : (votes.toList.map Prod.snd).map (·.sender) = votes.toList.map Prod.fst := by
        rw [List.map_map]
        exact List.map_congr_left fun e he => h.filed e.1 e.2 (Map.mem_toList_iff.mp he)
      show ((votes.toList.map Prod.snd).map (·.sender)).toFinset.card = (votes.toList.map Prod.snd).length
      rw [hkeys, List.toFinset_card_of_nodup (Map.keys_nodup votes), List.length_map, List.length_map]
    · have henvelopes : envelopesFromSenders (makeNewview view votes m).viewchangeMessages = votes :=
        Map.foldl_insert_key_values h.filed
      have hours := buildNewview_ok node' outside' view votes false ∅ (hhash'.trans hhash)
      rw [hmax, hproofs, hlast', hproposal, if_neg hlast] at hours
      obtain ⟨m', hm', hours⟩ := hours
      refine ⟨makeNewview view votes m', ?_, ?_⟩
      · show (buildNewview node' outside' view (envelopesFromSenders _) false).result ∅ = _
        rw [henvelopes]
        exact hm'
      · refine Map.forall₂_values fun i => ?_
        have htheirs := hproposals i
        have hour := hours i
        generalize hproposed : proposalAt node view _ _ hash i = proposed at htheirs hour
        generalize m[i]? = theirs at htheirs
        generalize m'[i]? = ours at hour
        cases htheirs with
        | none =>
          cases hour with
          | none => exact .none
        | some hwrapped =>
          cases hour with
          | some hwrapped' =>
            have htype := proposalAt_type h.proofs hproposed
            refine .some ⟨?_, hwrapped.sender.trans hsender.symm, ?_, ?_, ?_⟩
            · rw [hsame.rejects_eq]
              exact hwrapped.not_rejected hsigns
            · rw [hwrapped'.decode, hsame.wire, hwrapped.decode]
            · rw [hsame.wire, hwrapped.decode]
              exact htype
            · rw [hwrapped'.decode, hsame.wire, hwrapped.decode]

end

/-! ## Runs -/

/-- A replica with one more VIEWCHANGE. -/
def Pbft.withViewchange (p : Pbft) (view : UInt64) (env : BznEnvelope) : Pbft :=
  { p with
    validViewchangeMessagesForView :=
      viewchangesWith p.validViewchangeMessagesForView view env.sender env.clearPiggybackedRequests }

/-- With a VIEWCHANGE that comes in, no view is pending but the one that it is for. -/
def VotesForPending (node : Node) (m : Machine) (a : Happening) : Prop :=
  ∀ s outside ev msg env view, m.replica? = some s → a = .event outside ev → Delivered node ev msg env →
    msg.type = .viewchange → (s.pbft.withViewchange msg.view env).pendingView node = some view → view = msg.view

/-- A NEWVIEW that is sent is acceptable. -/
def Effect.Acceptable (node : Node) (e : Effect) : Prop :=
  ∀ env nv, e = .multicast env → e.said? node = some nv → nv.type = .newview → SwarmDb.Acceptable node nv env

section

variable {node : Node} {outside : Outside} {ev : Event} {s₀ s s' : Replica} {nv : PbftMsg} {env : BznEnvelope}
  {past : List Effect}

theorem MakesNewview.acceptable (h : MakesNewview node outside ev s₀ s nv) (hs : StoredVotes node s.pbft)
    (ha : VotesForPending node (.up past s₀) (.event outside ev)) (hsigns : node.SignaturesVerify)
    (hsender : env.sender = node.uuid) : Acceptable node nv env := by
  obtain ⟨msg, vcEnv, hdelivered, htype, -, hvotes, view, operations, hview, hbuild⟩ := h.stored
  have heq : view = msg.view := by
    refine ha s₀ outside ev msg vcEnv view rfl rfl hdelivered htype ?_
    rw [← hview]
    exact Pbft.pendingView_congr hvotes.symm h.view.symm h.pinnedPrimary.symm
  obtain ⟨hprimary, hcount⟩ := Pbft.pendingView_eq_some hview
  rw [heq] at hprimary hcount hbuild
  exact (hs.votesFor msg.view).acceptable hcount hsigns hprimary hsender hbuild

theorem Emitted.acceptable {e : Effect} (h : Emitted node outside ev s₀ s e) (hs : StoredVotes node s.pbft)
    (ha : VotesForPending node (.up past s₀) (.event outside ev)) (hsigns : node.SignaturesVerify) :
    e.Acceptable node := by
  rintro env nv rfl hsaid htype
  have hmakes := (h.sent hsaid).checked
  rw [htype] at hmakes
  exact hmakes.acceptable hs ha hsigns (h.sender hsaid)

/-- A step in which the process ends sends no NEWVIEW. -/
theorem Crash.acceptable (h : Crash node outside ev s₀ s s') :
    ∃ l, s'.log = s.log ++ l ∧ ∀ e ∈ l, e.Acceptable node := by
  cases h with
  | quiet frame =>
    obtain ⟨l, hl, hquiet⟩ := frame.log
    refine ⟨l, hl, fun e he env nv _ hsaid => ?_⟩
    rw [(hquiet e he).said?] at hsaid
    cases hsaid
  | enter _ _ _ _ writes =>
    exact ⟨[], writes.log.trans (List.append_nil _).symm, fun e he => absurd he List.not_mem_nil⟩
  | viewchange _ _ _ _ makes emits =>
    obtain ⟨msg, hpayload, htype, -⟩ := makes.payload
    refine ⟨[_], emits.log, fun e he env nv heq hsaid hnv => ?_⟩
    rw [List.mem_singleton.mp he, Effect.said?, hpayload] at hsaid
    cases (Codec.parse_serialize _ _).symm.trans hsaid
    rw [htype] at hnv
    cases hnv

theorem acceptance_upheld (hsigns : node.SignaturesVerify) : Upheld node (VotesForPending node)
    (fun _ past s => StoredVotes node s.pbft ∧ ∀ e ∈ past ++ s.log, e.Acceptable node)
    (fun _ log b => StoredVotes node b ∧ ∀ e ∈ log, e.Acceptable node) := by
  have hsaves : ∀ (log l : List Effect), (∀ e ∈ log, e.Acceptable node) → (∀ e ∈ l, ∃ n, e = .saveServiceStateAt n) →
      ∀ e ∈ log ++ l, e.Acceptable node := by
    intro log l hlog hl
    refine List.forall_mem_append.mpr ⟨hlog, fun e he env nv heq => ?_⟩
    obtain ⟨n, rfl⟩ := hl e he
    cases heq
  refine .of_step (fun hs past s a h => h) ?_ ?_ ?_ (fun hs past s lifetime _ h _ => h) (fun hs log b a h => h) ?_ ?_
  · intro hs past s₀ outside ev s s' _ ha _ h hstep
    obtain ⟨l, hl, hemitted, -⟩ := hstep.log
    refine ⟨hstep.storedVotes h.1, ?_⟩
    rw [hl, ← List.append_assoc]
    exact List.forall_mem_append.mpr ⟨h.2, fun e he => (hemitted e he).acceptable h.1 ha hsigns⟩
  · refine ⟨fun view sender env hlookup => ?_, fun e he => absurd he List.not_mem_nil⟩
    simp [Pbft.initial, Map.lookup2] at hlookup
  · intro hs past s₀ outside ev s s' b h hcrash hleaves
    obtain ⟨l, hl, hacceptable⟩ := hcrash.acceptable
    refine ⟨h.1.same hleaves.validViewchangeMessagesForView, ?_⟩
    rw [hl, ← List.append_assoc]
    exact List.forall_mem_append.mpr ⟨h.2, hacceptable⟩
  · exact fun hs log b s h hr => ⟨h.1.same hr.validViewchangeMessagesForView, hsaves log s.log h.2 hr.log⟩
  · exact fun hs log b l h hl => ⟨h.1, hsaves log l h.2 hl⟩

/-- In a run in which no view is pending but the one that a VIEWCHANGE is for when it comes in, every NEWVIEW that the
replica has sent has enough VIEWCHANGE messages and no more, and is valid at every replica of the swarm in an
earlier view. -/
theorem newview_accepted (hsigns : node.SignaturesVerify) {hs : List Happening} {m : Machine}
    (h : Machine.Runs node (VotesForPending node) hs m) (hsent : .multicast env ∈ m.log)
    (hsaid : (Effect.multicast env).said? node = some nv) (htype : nv.type = .newview) :
    nv.viewchangeMessages.length = 2 * node.maxFaultyNodes + 1 ∧
      ∀ node' outside p, SameChecks node node' → p.view < nv.view →
        isValidNewviewMessage node' outside p nv env = .ok true := by
  have hacceptable : (Effect.multicast env).Acceptable node := by
    have hm := (acceptance_upheld hsigns).run h
    cases m with
    | up past s => exact hm.2.2 _ hsent
    | down past p =>
      obtain ⟨b, -, hD⟩ := hm
      exact hD.2 _ hsent
  obtain ⟨hcount, hvalid⟩ := hacceptable env nv rfl hsaid htype
  exact ⟨hcount, fun node' outside p hsame hnext => isValidNewviewMessage_iff.mpr (hvalid node' outside p hsame hnext)⟩

end

/-- C, the primary of view 2, receives VIEWCHANGE messages for it. -/
def voteForView2 (senders : List String) : List Happening :=
  .restart none :: senders.map fun sender => .event laterOutside (namedViewchange sender 2)

theorem signaturesVerify_strictNode {uuid : String} (h : ascii uuid ≠ []) : (strictNode uuid).SignaturesVerify :=
  fun _ _ => ⟨h, rfl, fun _ => ⟨ascii uuid, rfl, decide_eq_true rfl⟩⟩

/-- The VIEWCHANGE of a peer at a machine, with the view that is pending then. -/
theorem votesForPending_named {node : Node} (hwire : node.wire = .strict) {m : Machine} (sender : String)
    (view : UInt64)
    (h : (m.replica?.all fun s => ((s.pbft.withViewchange view (namedEnvelope sender (Wire.strict.pbftMsg.serialize
      { (default : PbftMsg) with type := .viewchange, view := view }))).pendingView node).all fun pending =>
        decide (pending = view)) = true) :
    VotesForPending node m (.event laterOutside (namedViewchange sender view)) := by
  intro s outside ev msg env pending hs hev hdelivered htype hpending
  cases hev
  obtain ⟨session, hev⟩ := hdelivered.event
  have hparse := hdelivered.parse
  cases hev
  rw [hwire] at hparse
  cases (Codec.parse_serialize _ _).symm.trans hparse
  rw [hs, Option.all_some, hpending] at h
  exact of_decide_eq_true h

/-- C makes a NEWVIEW for view 2 of the VIEWCHANGE messages of A, B and D, and A accepts it. -/
theorem newview_accepted_three : ∃ env nv,
    .multicast env ∈ (Machine.after (strictNode "C") (voteForView2 ["A", "B", "D"])).log ∧
      (Effect.multicast env).said? (strictNode "C") = some nv ∧ nv.type = .newview ∧ nv.view = 2 ∧
      isValidNewviewMessage (strictNode "A") laterOutside .initial nv env = .ok true := by
  have hruns : Machine.Runs (strictNode "C") (VotesForPending (strictNode "C")) (voteForView2 ["A", "B", "D"])
      (Machine.after (strictNode "C") (voteForView2 ["A", "B", "D"])) := by
    have hstart : Machine.Runs (strictNode "C") (VotesForPending (strictNode "C")) (voteForView2 [])
        (Machine.after (strictNode "C") (voteForView2 [])) := by
      refine Machine.runs_concat .start ?_
      intro s outside ev msg env view _ hev
      cases hev
    have hA := Machine.runs_concat hstart (votesForPending_named rfl "A" 2 (by decide +kernel))
    have hB := Machine.runs_concat hA (votesForPending_named rfl "B" 2 (by decide +kernel))
    exact Machine.runs_concat hB (votesForPending_named rfl "D" 2 (by decide +kernel))
  have hsaid : (((Machine.after (strictNode "C") (voteForView2 ["A", "B", "D"])).said (strictNode "C")).filter
      fun nv => nv.type = .newview).map (fun nv => nv.view) = [2] := by decide +kernel
  obtain ⟨nv, hnv, hview⟩ := List.mem_map.mp (by rw [hsaid]; exact List.mem_singleton_self _)
  obtain ⟨hmem, htype⟩ := List.mem_filter.mp hnv
  obtain ⟨e, he, hsays⟩ := List.mem_filterMap.mp hmem
  obtain ⟨env, text, rfl, -⟩ := Effect.said?_eq_some hsays
  have haccepted := newview_accepted (signaturesVerify_strictNode (by decide)) hruns he hsays (of_decide_eq_true htype)
  refine ⟨env, nv, he, hsays, of_decide_eq_true htype, hview, haccepted.2 _ _ _ ⟨rfl, rfl, rfl, rfl, rfl⟩ ?_⟩
  rw [hview]
  decide

/-- A message of a type that a node sends, and what others make of it. -/
def Effect.judged? (node : Node) (type : PbftMsgType) (judge : PbftMsg → BznEnvelope → Except Fault Bool) :
    Effect → Option (PbftMsg × Bool)
  | multicast env =>
    match (multicast env).said? node with
    | some msg => if msg.type = type then (judge msg env).toOption.map (msg, ·) else none
    | none => none
  | _ => none

theorem Effect.judged?_eq_some {node : Node} {type : PbftMsgType} {judge : PbftMsg → BznEnvelope → Except Fault Bool}
    {e : Effect} {msg : PbftMsg} {b : Bool} (h : e.judged? node type judge = some (msg, b)) :
    ∃ env, e = .multicast env ∧ e.said? node = some msg ∧ msg.type = type ∧ judge msg env = .ok b := by
  unfold judged? at h
  split at h
  · rename_i env
    split at h
    · rename_i msg' hsaid
      split at h
      · rename_i htype
        obtain ⟨b', hb', heq⟩ := Option.map_eq_some_iff.mp h
        cases heq
        cases hjudge : judge msg env with
        | error =>
          rw [hjudge] at hb'
          cases hb'
        | ok =>
          rw [hjudge] at hb'
          cases hb'
          exact ⟨env, rfl, hsaid, htype, hjudge⟩
      · cases h
    · cases h
  · cases h

/-- With a VIEWCHANGE for view 3 after those for view 2, C makes another NEWVIEW for view 2, and A refuses it. -/
theorem newview_refused : ∃ env nv,
    .multicast env ∈ (Machine.after (strictNode "C") (voteForView2 ["A", "B", "D"] ++
      [.event laterOutside (namedViewchange "A" 3)])).log ∧
      (Effect.multicast env).said? (strictNode "C") = some nv ∧ nv.type = .newview ∧ nv.view = 2 ∧
      nv.viewchangeMessages.length = 1 ∧ SameChecks (strictNode "C") (strictNode "A") ∧
      isValidNewviewMessage (strictNode "A") laterOutside .initial nv env = .ok false := by
  have hjudged : ((Machine.after (strictNode "C") (voteForView2 ["A", "B", "D"] ++
      [.event laterOutside (namedViewchange "A" 3)])).log.filterMap (Effect.judged? (strictNode "C") .newview
        (isValidNewviewMessage (strictNode "A") laterOutside .initial))).map
      (fun pair => (pair.1.view, pair.1.viewchangeMessages.length, pair.2)) = [(2, 3, true), (2, 1, false)] := by
    decide +kernel
  obtain ⟨⟨nv, b⟩, hpair, hfields⟩ :=
    List.mem_map.mp (by rw [hjudged]; exact List.mem_cons_of_mem _ (List.mem_singleton_self _))
  obtain ⟨e, he, hjudge⟩ := List.mem_filterMap.mp hpair
  obtain ⟨env, rfl, hsays, htype, hvalid⟩ := Effect.judged?_eq_some hjudge
  simp only [Prod.mk.injEq] at hfields
  obtain ⟨hview, hlength, rfl⟩ := hfields
  exact ⟨env, nv, he, hsays, htype, hview, hlength, ⟨rfl, rfl, rfl, rfl, rfl⟩, hvalid⟩

end SwarmDb
