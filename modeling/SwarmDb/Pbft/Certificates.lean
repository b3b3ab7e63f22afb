import SwarmDb.Pbft.Sample
import SwarmDb.Pbft.Validity

/-!
# Certificates in a NEWVIEW

With message signing on, the checkpoints and the prepared proofs in the VIEWCHANGE messages of a valid NEWVIEW are
backed by signatures of enough peers. The VIEWCHANGE envelopes themselves are not verified; the NEWVIEW is a
certificate exactly when enough of them verify (`newview_certified_iff`).
-/

namespace SwarmDb

open Lib Program

/-- So many different peers each sent one of the envelopes, with a signature
that verifies. -/
def Backed (node : Node) (n : Nat) (envelopes : List BznEnvelope) (P : BznEnvelope → Prop) : Prop :=
  ∃ peers : Finset Uuid, n ≤ peers.card ∧ ∀ u ∈ peers, node.isPeer u = true ∧
    ∃ env ∈ envelopes, env.sender = u ∧ node.verify env = .ok true ∧ P env

/-- The prepared proof has a pre-prepare and prepares of enough peers for it. -/
structure CertifiedProof (node : Node) (proof : PreparedProof) (msg : PbftMsg) : Prop where
  peer : node.isPeer proof.prePrepare.sender = true
  verified : node.verify proof.prePrepare = .ok true
  parse : node.wire.pbftMsg.parse proof.prePrepare.pbft = some msg
  type : msg.type = .preprepare
  prepares : Backed node (2 * node.maxFaultyNodes + 1) proof.prepare fun env =>
    ∃ prepare, node.wire.pbftMsg.parse env.pbft = some prepare ∧ prepare.type = .prepare ∧
      prepare.view = msg.view ∧ prepare.sequence = msg.sequence ∧ prepare.requestHash = msg.requestHash

/-- A VIEWCHANGE in which every checkpoint that counts, and every prepared proof,
is backed by enough peers. -/
def CertifiedViewchange (node : Node) (env : BznEnvelope) : Prop :=
  ∃ msg, node.wire.pbftMsg.parse env.pbft = some msg ∧ msg.type = .viewchange ∧
    (∃ counted, validateAndExtractCheckpointHashes node msg = .ok counted ∧
      ∀ (cp : Checkpoint) voters, counted[cp]? = some voters →
        Backed node (node.maxFaultyNodes + 1) msg.checkpointMessages fun env =>
          node.wire.checkpointMsg.parse env.checkpointMsg = some ⟨cp.sequence, cp.hash⟩) ∧
    ∀ proof ∈ msg.preparedProofs, ∃ pp, CertifiedProof node proof pp

/-- Whether the signature of an envelope verifies. -/
def Node.verifies (node : Node) (env : BznEnvelope) : Bool :=
  match node.verify env with
  | .ok b => b
  | .error _ => false

section

variable {node : Node}

variable {env : BznEnvelope}

theorem Node.verifies_iff : node.verifies env = true ↔ node.verify env = .ok true := by
  rw [verifies]
  cases node.verify env <;> simp

section

variable (hsign : node.options.peerMessageSigning = true)
include hsign

/-- With message signing on, what is not rejected verifies. -/
theorem Node.verify_of_not_rejects (h : node.rejects env = .ok false) : node.verify env = .ok true := by
  rw [rejects, if_pos hsign] at h
  cases hv : node.verify env with
  | error e => rw [hv] at h; cases h
  | ok b =>
    rw [hv] at h
    cases b with
    | true => rfl
    | false => cases h

theorem ProvesPrepared.certified {base : UInt64} {proof : PreparedProof} {msg : PbftMsg}
    (h : ProvesPrepared node base proof msg) : CertifiedProof node proof msg := by
  refine ⟨h.peer, Node.verify_of_not_rejects hsign h.verified, h.parse, h.type,
    (proof.prepare.map (·.sender)).toFinset, h.enough, fun u hu => ?_⟩
  obtain ⟨env, henv, rfl⟩ := List.mem_map.mp (List.mem_toFinset.mp hu)
  have hm := h.prepares env henv
  obtain ⟨prepare, hparse, htype, hkey⟩ := hm.message
  simp only [PbftMsg.operationKey, OperationKey.mk.injEq] at hkey
  exact ⟨hm.peer, env, henv, rfl, Node.verify_of_not_rejects hsign hm.verified, prepare, hparse, htype, hkey⟩

/-- The voters of a checkpoint each sent an envelope that verifies. -/
theorem backed_checkpointVoters (envelopes : List BznEnvelope) (cp : Checkpoint) {n : Nat}
    (hn : n ≤ (checkpointVoters node envelopes cp).card) :
    Backed node n envelopes fun env =>
      node.wire.checkpointMsg.parse env.checkpointMsg = some ⟨cp.sequence, cp.hash⟩ := by
  refine ⟨checkpointVoters node envelopes cp, hn, fun u hu => ?_⟩
  obtain ⟨env, henv, hvote, rfl⟩ := mem_checkpointVoters.mp hu
  obtain ⟨hr, hp, hparse⟩ := checkpointVote_eq_some.mp hvote
  exact ⟨hp, env, henv, rfl, Node.verify_of_not_rejects hsign hr, hparse⟩

/-- The inside of a VIEWCHANGE that is checked for a NEWVIEW is certified. -/
theorem ViewchangeFor.certified {view newView : UInt64} (h : ViewchangeFor node view newView env) :
    node.isPeer env.sender = true ∧ CertifiedViewchange node env := by
  obtain ⟨msg, hparse, htype, -, hvalid⟩ := h
  obtain ⟨counted, hcounted, -⟩ := hvalid.checkpoint
  refine ⟨hvalid.peer, msg, hparse, htype, ⟨counted, hcounted, fun cp voters hcp => ?_⟩, fun proof hproof => ?_⟩
  · obtain ⟨rfl, hcard⟩ := (validateAndExtractCheckpointHashes_ok hcounted cp voters).mp hcp
    exact backed_checkpointVoters hsign _ cp hcard
  · obtain ⟨pp, hpp⟩ := hvalid.proofs proof hproof
    exact ⟨pp, hpp.certified hsign⟩

end

end

/-- A NEWVIEW that is accepted is a certificate of enough VIEWCHANGE messages
exactly when so many of its VIEWCHANGE envelopes verify. -/
theorem newview_certified_iff (node : Node) (outside : Outside) (p : Pbft) (theirs : PbftMsg)
    (originalTheirs : BznEnvelope)
    (hsign : node.options.peerMessageSigning = true)
    (h : isValidNewviewMessage node outside p theirs originalTheirs = .ok true) :
    Backed node (2 * node.maxFaultyNodes + 1) theirs.viewchangeMessages (CertifiedViewchange node) ↔
      2 * node.maxFaultyNodes + 1 ≤ (theirs.viewchangeMessages.filter node.verifies).length := by
  have hvalid := isValidNewviewMessage_iff.mp h
  constructor
  · rintro ⟨peers, hcard, hpeers⟩
    have hsub : peers ⊆ ((theirs.viewchangeMessages.filter node.verifies).map (·.sender)).toFinset := by
      intro u hu
      obtain ⟨-, env, henv, rfl, hverify, -⟩ := hpeers u hu
      exact List.mem_toFinset.mpr (List.mem_map_of_mem (List.mem_filter.mpr ⟨henv, Node.verifies_iff.mpr hverify⟩))
    calc 2 * node.maxFaultyNodes + 1 ≤ peers.card := hcard
      _ ≤ ((theirs.viewchangeMessages.filter node.verifies).map (·.sender)).toFinset.card := Finset.card_le_card hsub
      _ ≤ ((theirs.viewchangeMessages.filter node.verifies).map (·.sender)).length := List.toFinset_card_le _
      _ = (theirs.viewchangeMessages.filter node.verifies).length := List.length_map _
  · intro henough
    have hnodup : (theirs.viewchangeMessages.map (·.sender)).Nodup := by
      rw [← Multiset.coe_nodup, ← Multiset.toFinset_card_eq_card_iff_nodup]
      exact hvalid.distinct.trans (List.length_map _).symm
    have hsenders := hnodup.sublist ((List.filter_sublist (p := node.verifies)).map (·.sender))
    refine ⟨((theirs.viewchangeMessages.filter node.verifies).map (·.sender)).toFinset, ?_, fun u hu => ?_⟩
    · rwa [List.toFinset_card_of_nodup hsenders, List.length_map]
    · obtain ⟨env, henv, rfl⟩ := List.mem_map.mp (List.mem_toFinset.mp hu)
      obtain ⟨hmem, hverify⟩ := List.mem_filter.mp henv
      obtain ⟨hpeer, hcertified⟩ := (hvalid.viewchanges env hmem).certified hsign
      exact ⟨hpeer, env, hmem, rfl, Node.verifies_iff.mp hverify, hcertified⟩

/-! ## A NEWVIEW of one peer -/

/-- A VIEWCHANGE for view 2 without a checkpoint and prepared proofs. -/
def sampleViewchange (sender : String) : BznEnvelope :=
  { (default : BznEnvelope) with
    sender := ascii sender
    payload := .pbft (Wire.plain.pbftMsg.serialize { (default : PbftMsg) with type := .viewchange, view := 2 }) }

/-- The envelope with the signature of its sender. -/
def signedBySender (env : BznEnvelope) : BznEnvelope :=
  { env with signature := env.sender ++ ((deterministicSerialize env).toOption.getD []) }

def sampleNewview (viewchanges : List BznEnvelope) : PbftMsg :=
  { (default : PbftMsg) with type := .newview, view := 2, viewchangeMessages := viewchanges }

/-- A replica in view 1. -/
def samplePbft : Pbft := startPbft (sampleNode fourPeers "A") ⟨1, 1, 0, ∅, [], true, 0, ∅, default, none, ∅, ∅⟩

/-- A signed message of a peer of the sample swarm. -/
def sampleEnvelope (sender : String) (msg : PbftMsg) : BznEnvelope :=
  signedBySender { (default : BznEnvelope) with
    sender := ascii sender
    payload := .pbft (Wire.plain.pbftMsg.serialize msg) }

/-- A signed checkpoint message of a peer of the sample swarm. -/
def signedCheckpoint (sequence : UInt64) (sender : String) : BznEnvelope :=
  signedBySender { (default : BznEnvelope) with
    sender := ascii sender
    payload := .checkpointMsg (Wire.plain.checkpointMsg.serialize ⟨sequence, ascii "state"⟩) }

/-- The proof that a request was prepared, in a view with the primary given. -/
def proofFor (view sequence : UInt64) (primary requestHash : String) : PreparedProof :=
  let message (type : PbftMsgType) : PbftMsg :=
    { (default : PbftMsg) with type := type, view := view, sequence := sequence, requestHash := ascii requestHash }
  ⟨some (sampleEnvelope primary (message .preprepare)), ["A", "B", "C"].map fun u =>
    sampleEnvelope u (message .prepare)⟩

/-- A VIEWCHANGE for view 2 with a checkpoint at 100 and a request prepared after it. -/
def certifiedViewchange (sender : String) : BznEnvelope :=
  sampleEnvelope sender { (default : PbftMsg) with
    type := .viewchange, view := 2, sequence := 100
    checkpointMessages := ["A", "B"].map (signedCheckpoint 100)
    preparedProofs := [proofFor 1 101 "B" "request"] }

theorem newview_certified_signed :
    Backed (sampleNode fourPeers "A") 3 (["A", "B", "C"].map certifiedViewchange)
      (CertifiedViewchange (sampleNode fourPeers "A")) :=
  (newview_certified_iff (sampleNode fourPeers "A") sampleOutside samplePbft
    { sampleNewview (["A", "B", "C"].map certifiedViewchange) with
      prePrepareMessages := [sampleEnvelope "C" { (default : PbftMsg) with
        type := .preprepare, view := 2, sequence := 101, requestHash := ascii "request" }] }
    { (default : BznEnvelope) with sender := ascii "C" } rfl (by decide +kernel)).mpr (by decide +kernel)

/-- The primary of view 2 makes a NEWVIEW of VIEWCHANGE messages that nobody
signed, and it is accepted. -/
theorem newview_of_unsigned :
    let node := sampleNode fourPeers "A"
    let theirs := sampleNewview (["A", "B", "C"].map sampleViewchange)
    isValidNewviewMessage node sampleOutside samplePbft theirs { (default : BznEnvelope) with sender := ascii "C" } =
        .ok true ∧
      ¬ Backed node 3 theirs.viewchangeMessages (CertifiedViewchange node) := by
  refine ⟨rfl, ?_⟩
  rintro ⟨peers, hcard, hpeers⟩
  obtain ⟨u, hu⟩ := Finset.card_pos.mp (lt_of_lt_of_le (by decide) hcard)
  obtain ⟨-, env, henv, -, hverify, -⟩ := hpeers u hu
  have hnone : ∀ env ∈ ["A", "B", "C"].map sampleViewchange, (sampleNode fourPeers "A").verifies env = false := by
    decide +kernel
  rw [← Node.verifies_iff, hnone env henv] at hverify
  cases hverify

end SwarmDb
