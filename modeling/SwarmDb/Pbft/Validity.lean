import SwarmDb.Pbft.Viewchange

/-!
# What a valid VIEWCHANGE and a valid NEWVIEW contain

The checks of `SwarmDb.Pbft.Viewchange`, as the facts that they establish. Each
is an equivalence, so that it serves both the replica that checks a message and
the one that makes it.
-/

namespace SwarmDb

open Lib Program

section

variable {node : Node} {env : BznEnvelope} {msg : PbftMsg}

/-! ## Prepared proofs -/

/-- A prepare for an operation, of a peer, that is not rejected. -/
structure MatchingPrepare (node : Node) (key : OperationKey) (env : BznEnvelope) : Prop where
  peer : node.isPeer env.sender = true
  verified : node.rejects env = .ok false
  message : ∃ msg, node.wire.pbftMsg.parse env.pbft = some msg ∧ msg.type = .prepare ∧ msg.operationKey = key

theorem isMatchingPrepare_iff :
    isMatchingPrepare node msg env = .ok true ↔ MatchingPrepare node msg.operationKey env := by
  simp only [isMatchingPrepare, unless_eq_ok_true, bind_unless_eq_ok_true]
  constructor
  · rintro ⟨hpeer, hverified, h⟩
    split at h
    · cases h
    · rename_i prepareMsg hp
      simp only [pure_eq_ok_true, Bool.and_eq_true, decide_eq_true_eq] at h
      obtain ⟨⟨⟨ht, hs⟩, hv⟩, hh⟩ := h
      refine ⟨by simpa using hpeer, hverified, prepareMsg, hp, ht, ?_⟩
      rw [PbftMsg.operationKey, PbftMsg.operationKey, hs, hv, hh]
  · rintro ⟨hpeer, hverified, prepareMsg, hp, ht, hk⟩
    simp only [PbftMsg.operationKey, OperationKey.mk.injEq] at hk
    simp [hpeer, hverified, hp, ht, hk, pure_eq_ok_true]

/-- A proof that an operation above a sequence was prepared. -/
structure ProvesPrepared (node : Node) (base : UInt64) (proof : PreparedProof) (msg : PbftMsg) : Prop where
  peer : node.isPeer proof.prePrepare.sender = true
  verified : node.rejects proof.prePrepare = .ok false
  parse : node.wire.pbftMsg.parse proof.prePrepare.pbft = some msg
  above : base < msg.sequence
  type : msg.type = .preprepare
  prepares : ∀ env ∈ proof.prepare, MatchingPrepare node msg.operationKey env
  enough : 2 * node.maxFaultyNodes + 1 ≤ (proof.prepare.map (·.sender)).toFinset.card

theorem isValidPreparedProof_iff {proof : PreparedProof} {base : UInt64} :
    isValidPreparedProof node proof base = .ok true ↔ ∃ msg, ProvesPrepared node base proof msg := by
  simp only [isValidPreparedProof, unless_eq_ok_true, bind_unless_eq_ok_true]
  constructor
  · rintro ⟨hpeer, hverified, h⟩
    split at h
    · cases h
    · rename_i msg hp
      simp only [unless_eq_ok_true, bind_when_eq_ok_true, allM_eq_ok_true, isMatchingPrepare_iff, pure_eq_ok_true,
        decide_eq_true_eq] at h
      obtain ⟨habove, htype, hall, henough⟩ := h
      exact ⟨msg, by simpa using hpeer, hverified, hp, UInt64.not_le.mp habove, not_not.mp htype, hall, henough⟩
  · rintro ⟨msg, h⟩
    refine ⟨by simp [h.peer], h.verified, ?_⟩
    rw [h.parse]
    simp only [unless_eq_ok_true, bind_when_eq_ok_true, allM_eq_ok_true, isMatchingPrepare_iff, pure_eq_ok_true,
      decide_eq_true_eq]
    exact ⟨UInt64.not_le.mpr h.above, not_not.mpr h.type, h.prepares, h.enough⟩

/-! ## Checkpoint votes -/

variable {cp : Checkpoint} {view : UInt64}

theorem checkpointVote_eq_some :
    checkpointVote node env = .ok (some cp) ↔ node.rejects env = .ok false ∧ node.isPeer env.sender = true ∧
      node.wire.checkpointMsg.parse env.checkpointMsg = some ⟨cp.sequence, cp.hash⟩ := by
  have hmap : ∀ o : Option CheckpointMsg, o.map (fun m => (⟨m.sequence, m.stateHash⟩ : Checkpoint)) = some cp ↔
      o = some ⟨cp.sequence, cp.hash⟩ := by
    rintro (_ | ⟨s, h⟩)
    · simp
    · obtain ⟨cs, ch⟩ := cp
      simp
  unfold checkpointVote
  cases hr : node.rejects env with
  | error e => simp [bind, Except.bind]
  | ok b =>
    cases b with
    | true => simp [bind, Except.bind, pure, Except.pure]
    | false =>
      cases hp : node.isPeer env.sender with
      | false => simp [bind, Except.bind, pure, Except.pure]
      | true => simpa [bind, Except.bind, pure, Except.pure] using hmap _

/-- The senders of the messages of a list that vote for a checkpoint. -/
def checkpointVoters (node : Node) (envelopes : List BznEnvelope) (cp : Checkpoint) : Finset Uuid :=
  ((envelopes.filter fun env => (checkpointVote node env).toOption.join = some cp).map (·.sender)).toFinset

theorem mem_checkpointVoters {envelopes : List BznEnvelope} {u : Uuid} :
    u ∈ checkpointVoters node envelopes cp ↔
      ∃ env ∈ envelopes, checkpointVote node env = .ok (some cp) ∧ env.sender = u := by
  have hj : ∀ x : Except Fault (Option Checkpoint), x.toOption.join = some cp ↔ x = .ok (some cp) := by
    rintro (e | o)
    · simp [Except.toOption]
    · simp [Except.toOption]
  simp only [checkpointVoters, List.mem_toFinset, List.mem_map, List.mem_filter, decide_eq_true_eq, hj, and_assoc]

/-- The votes by checkpoint, of a list of messages each of which can be checked. -/
theorem foldlM_checkpointVotes (l : List BznEnvelope) (m m' : Map Checkpoint (Finset Uuid))
    (h : l.foldlM (fun m envelope => do
      match ← checkpointVote node envelope with
      | none => pure m
      | some cp => pure (m.insert cp (insert envelope.sender (m.getD cp ∅)))) m = .ok m') (cp : Checkpoint) :
    (m'[cp]?).getD ∅ = checkpointVoters node l cp ∪ (m[cp]?).getD ∅ := by
  induction l generalizing m with
  | nil =>
    cases h
    simp [checkpointVoters]
  | cons env l ih =>
    rw [List.foldlM_cons] at h
    obtain ⟨m₁, h₁, h⟩ := except_bind_eq_ok.mp h
    obtain ⟨o, ho, h₁⟩ := except_bind_eq_ok.mp h₁
    rw [ih m₁ h]
    cases o with
    | none =>
      cases h₁
      congr 1
      ext u
      simp [mem_checkpointVoters, ho]
    | some c =>
      cases h₁
      rw [Map.lookup_insert]
      ext u
      by_cases hc : c = cp
      · subst hc
        simp [mem_checkpointVoters, ho, Std.ExtTreeMap.getD_eq_getD_getElem?, eq_comm, or_assoc]
      · simp [mem_checkpointVoters, ho, hc]

/-- The checkpoints that a VIEWCHANGE proves, each with its voters. -/
theorem validateAndExtractCheckpointHashes_ok {m : Map Checkpoint (Finset Uuid)}
    (h : validateAndExtractCheckpointHashes node msg = .ok m) (cp : Checkpoint) (voters : Finset Uuid) :
    m[cp]? = some voters ↔
      voters = checkpointVoters node msg.checkpointMessages cp ∧ honestMemberSize node.swarmSize ≤ voters.card := by
  obtain ⟨m', h', h⟩ := except_bind_eq_ok.mp h
  cases h
  have hv := foldlM_checkpointVotes _ _ _ h' cp
  rw [Map.lookup_empty, Option.getD_none, Finset.union_empty] at hv
  rw [Map.lookup_filter, Option.filter_eq_some_iff, decide_eq_true_eq]
  cases hc : m'[cp]? with
  | some voters' =>
    rw [hc, Option.getD_some] at hv
    rw [hv, Option.some.injEq]
    exact and_congr_left fun _ => eq_comm
  | none =>
    -- a checkpoint without votes has too few of them
    rw [hc, Option.getD_none] at hv
    simp only [reduceCtorEq, false_and, false_iff, not_and, ← hv]
    rintro rfl
    simp [honestMemberSize]

/-! ## VIEWCHANGE -/

/-- The sequence of the first checkpoint that a VIEWCHANGE proves. -/
def provenSequence (hashes : Map Checkpoint (Finset Uuid)) : UInt64 :=
  match hashes.toList.head? with
  | none => 0
  | some h => h.1.sequence

/-- What the check of a VIEWCHANGE establishes, at a replica with a current view. -/
structure ValidViewchange (node : Node) (view : UInt64) (msg : PbftMsg) (env : BznEnvelope) : Prop where
  peer : node.isPeer env.sender = true
  next : view < msg.view
  checkpoint : ∃ hashes, validateAndExtractCheckpointHashes node msg = .ok hashes ∧ msg.sequence = provenSequence hashes
  proofs : ∀ proof ∈ msg.preparedProofs, ∃ pp, ProvesPrepared node msg.sequence proof pp

theorem isValidViewchangeMessage_iff :
    isValidViewchangeMessage node view msg env = .ok true ↔ ValidViewchange node view msg env := by
  simp only [isValidViewchangeMessage, unless_eq_ok_true, except_bind_eq_ok, allM_eq_ok_true, isValidPreparedProof_iff]
  change _ ∧ _ ∧ (∃ hashes, _ ∧ _ ∧ ¬ msg.sequence ≠ provenSequence hashes ∧
    ∀ proof ∈ msg.preparedProofs, ∃ pp, ProvesPrepared node (provenSequence hashes) proof pp) ↔ _
  constructor
  · rintro ⟨hpeer, hnext, hashes, hhashes, -, hseq, hproofs⟩
    rw [← not_not.mp hseq] at hproofs
    exact ⟨by simpa using hpeer, by simpa using hnext, ⟨hashes, hhashes, not_not.mp hseq⟩, hproofs⟩
  · rintro ⟨hpeer, hnext, ⟨hashes, hhashes, hseq⟩, hproofs⟩
    refine ⟨by simp [hpeer], by simp [hnext], hashes, hhashes, ?_, not_not.mpr hseq, hseq ▸ hproofs⟩
    rintro ⟨hempty, hne⟩
    rw [hseq, provenSequence, hempty] at hne
    exact hne rfl

/-- A valid VIEWCHANGE is valid at a replica in any view below its own. -/
theorem ValidViewchange.at_view {view' : UInt64} (h : ValidViewchange node view msg env) (hv : view' < msg.view) :
    ValidViewchange node view' msg env :=
  ⟨h.peer, hv, h.checkpoint, h.proofs⟩

/-! ## NEWVIEW -/

/-- A pre-prepare of a NEWVIEW, next to the one that was expected. -/
structure ExpectedPrePrepare (node : Node) (sender : Uuid) (ours theirs : BznEnvelope) : Prop where
  verified : node.rejects theirs = .ok false
  sender : theirs.sender = sender
  sameType : (node.wire.pbftMsg.decode ours.pbft).type = (node.wire.pbftMsg.decode theirs.pbft).type
  type : (node.wire.pbftMsg.decode theirs.pbft).type = .preprepare
  key : (node.wire.pbftMsg.decode ours.pbft).operationKey = (node.wire.pbftMsg.decode theirs.pbft).operationKey

theorem isExpectedPrePrepare_iff {sender : Uuid} {ours theirs : BznEnvelope} :
    isExpectedPrePrepare node sender ours theirs = .ok true ↔ ExpectedPrePrepare node sender ours theirs := by
  simp only [isExpectedPrePrepare, bind_unless_eq_ok_true, unless_eq_ok_true, pure_eq_ok_true, Bool.and_eq_true,
    decide_eq_true_eq]
  constructor
  · rintro ⟨hverified, hsender, ⟨⟨⟨hst, ht⟩, hv⟩, hs⟩, hh⟩
    exact ⟨hverified, not_not.mp hsender, hst, ht, by simp only [PbftMsg.operationKey, hv, hs, hh]⟩
  · rintro ⟨hverified, hsender, hst, ht, hk⟩
    simp only [PbftMsg.operationKey, OperationKey.mk.injEq] at hk
    simp [hverified, hsender, hst, ht, hk]

/-- A VIEWCHANGE in a NEWVIEW for a view, at a replica with a current view. -/
def ViewchangeFor (node : Node) (view newView : UInt64) (env : BznEnvelope) : Prop :=
  ∃ msg, node.wire.pbftMsg.parse env.pbft = some msg ∧ msg.type = .viewchange ∧ msg.view = newView ∧
    ValidViewchange node view msg env

theorem isViewchangeFor_iff {theirs : PbftMsg} :
    isViewchangeFor node view theirs env = .ok true ↔ ViewchangeFor node view theirs.view env := by
  unfold isViewchangeFor ViewchangeFor
  cases hp : node.wire.pbftMsg.parse env.pbft with
  | none => simp [pure_eq_ok_true]
  | some msg =>
    simp only [unless_eq_ok_true, bind_when_eq_ok_true, isValidViewchangeMessage_iff, pure_eq_ok_true,
      decide_eq_true_eq, not_not, Option.some.injEq, exists_eq_left']
    exact and_congr_right fun _ => and_comm

/-- What the check of a NEWVIEW establishes. -/
structure ValidNewview (node : Node) (outside : Outside) (p : Pbft) (nv : PbftMsg) (env : BznEnvelope) : Prop where
  primary : ∃ peer, p.predictPrimary node nv.view = some peer ∧ env.sender = peer.uuid
  enough : 2 * node.maxFaultyNodes + 1 ≤ nv.viewchangeMessages.length
  viewchanges : ∀ vc ∈ nv.viewchangeMessages, ViewchangeFor node p.view nv.view vc
  distinct : (nv.viewchangeMessages.map (·.sender)).toFinset.card = nv.viewchangeMessages.length
  prePrepares : ∃ ours, (buildNewview node outside nv.view
    (envelopesFromSenders nv.viewchangeMessages) false).result ∅ =
      .ok ours ∧ List.Forall₂ (ExpectedPrePrepare node env.sender) ours.prePrepareMessages nv.prePrepareMessages

theorem isValidNewviewMessage_iff {outside : Outside} {p : Pbft} {nv : PbftMsg} :
    isValidNewviewMessage node outside p nv env = .ok true ↔ ValidNewview node outside p nv env := by
  have hzip : ∀ l l' : List BznEnvelope, l.length = l'.length →
      ((l.zip l').allM (fun pair => isExpectedPrePrepare node env.sender pair.1 pair.2) = .ok true ↔
        List.Forall₂ (ExpectedPrePrepare node env.sender) l l') := by
    intro l l' hl
    rw [allM_eq_ok_true, List.forall₂_iff_zip]
    simp only [Prod.forall, isExpectedPrePrepare_iff, hl, true_and]
  unfold isValidNewviewMessage
  cases hp : p.predictPrimary node nv.view with
  | none =>
    simp only [pure_eq_ok_true, Bool.false_eq_true, false_iff]
    rintro ⟨⟨peer, hpeer, -⟩, -⟩
    rw [hp] at hpeer
    cases hpeer
  | some peer =>
    simp only [unless_eq_ok_true, bind_when_eq_ok_true, allM_eq_ok_true, isViewchangeFor_iff, not_not, not_lt]
    simp only [except_bind_eq_ok, unless_eq_ok_true, not_not]
    constructor
    · rintro ⟨hsender, hlen, hvcs, hdist, ours, hours, hl, hpp⟩
      exact ⟨⟨peer, hp, hsender⟩, hlen, hvcs, hdist, ours, hours, (hzip _ _ hl).mp hpp⟩
    · rintro ⟨⟨peer', hp', hsender⟩, hlen, hvcs, hdist, ours, hours, hpp⟩
      cases hp.symm.trans hp'
      have hl := hpp.length_eq
      exact ⟨hsender, hlen, hvcs, hdist, ours, hours, hl, (hzip _ _ hl).mpr hpp⟩

end

end SwarmDb
