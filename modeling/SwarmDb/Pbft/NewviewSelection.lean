import SwarmDb.Pbft.Certificates
import SwarmDb.Pbft.NewviewContent

/-!
# The requests that a NEWVIEW keeps

Proofs from different views can name different requests for one sequence; the one
of the greatest view is the only one that may have been committed.
`build_newview` takes the proof that it meets first, in the order of the senders'
uuids. `newview_selects_iff` says when that is as good.
-/

namespace SwarmDb

open Lib Program

section

variable (node : Node)

/-- The hash is that of a proof for the sequence with the greatest view. -/
def HashOfHighestView (proofs : List PreparedProof) (sequence : UInt64) (hash : Hash) : Prop :=
  ∃ best ∈ proofs, (best.message node).sequence = sequence ∧ (best.message node).requestHash = hash ∧
    ∀ proof ∈ proofs, (proof.message node).sequence = sequence → (proof.message node).view ≤ (best.message node).view

/-- A NEWVIEW has one pre-prepare for the sequence, with a request of the greatest
view that has a proof for it. -/
def Selects (proofs : List PreparedProof) (newview : PbftMsg) (sequence : UInt64) : Prop :=
  ∃ env, newview.prePrepareMessages.filter
      (fun env => decide ((node.wire.pbftMsg.decode env.pbft).sequence = sequence)) = [env] ∧
    HashOfHighestView node proofs sequence (node.wire.pbftMsg.decode env.pbft).requestHash

end

variable {node : Node} {outside : Outside}

variable {maxCheckpointSequence sequence : UInt64} {proofs : List PreparedProof}

theorem firstProof_sequence {first : PreparedProof}
    (h : firstProof node maxCheckpointSequence proofs sequence = some first) :
    (first.message node).sequence = sequence := by
  have := List.find?_some h
  rw [decide_eq_true_eq] at this
  exact this.1

theorem proposalAt_sequence {newView : UInt64} {hash : Hash} {msg : PbftMsg}
    (h : proposalAt node newView maxCheckpointSequence proofs hash sequence = some msg) : msg.sequence = sequence := by
  unfold proposalAt at h
  split at h
  · rename_i first hfirst
    cases h
    exact firstProof_sequence hfirst
  · split at h
    · cases h
      rfl
    · cases h

/-- Pre-prepares that stand under their own sequence, picked by sequence. -/
theorem prePrepares_filter {m : Map UInt64 BznEnvelope} {proposal : UInt64 → Option PbftMsg}
    (hm : ∀ i : UInt64, Option.Rel (WrappedAs node outside) m[i]? (proposal i))
    (hsequence : ∀ i msg, proposal i = some msg → msg.sequence = i) (sequence : UInt64) :
    (m.toList.map Prod.snd).filter (fun env => decide ((node.wire.pbftMsg.decode env.pbft).sequence = sequence)) =
      (m[sequence]?).toList := by
  have hown : ∀ e ∈ m.toList, (node.wire.pbftMsg.decode e.2.pbft).sequence = e.1 := by
    rintro ⟨i, env⟩ he
    have hi := hm i
    rw [Map.mem_toList_iff.mp he] at hi
    cases hp : proposal i with
    | none => rw [hp] at hi; cases hi
    | some msg =>
      rw [hp] at hi
      cases hi with
      | some hwrap => rw [hwrap.decode, hsequence i msg hp]
  rw [List.filter_map]
  have hcongr : m.toList.filter ((fun env : BznEnvelope =>
      decide ((node.wire.pbftMsg.decode env.pbft).sequence = sequence)) ∘ Prod.snd) =
      m.toList.filter fun e => decide (e.1 = sequence) :=
    List.filter_congr fun e he => by simp only [Function.comp, hown e he]
  rw [hcongr, Map.filter_key_toList]
  cases m[sequence]? <;> rfl

variable (node outside)

/-- For a sequence above the checkpoint that has a proof, `build_newview` keeps a
request of the greatest view where it ends and the proof that it meets first has
such a request. -/
theorem newview_selects_iff (newView : UInt64) (viewchanges : Map Uuid BznEnvelope) (attachReqs : Bool)
    (ops : HeldOperations) (sequence : UInt64)
    (habove : node.maxCheckpointSequence (viewchanges.toList.map Prod.snd) < sequence)
    (hproof : ∃ proof ∈ preparedProofsOf node (viewchanges.toList.map Prod.snd),
      (proof.message node).sequence = sequence) :
    let envelopes := viewchanges.toList.map Prod.snd
    let proofs := preparedProofsOf node envelopes
    (∃ newview, (buildNewview node outside newView viewchanges attachReqs).result ops = .ok newview ∧
        Selects node proofs newview sequence) ↔
      (∀ proof ∈ proofs, (proof.message node).sequence ≠ 0 - 1) ∧
        ∀ first ∈ proofs.find? (fun proof => (proof.message node).sequence = sequence),
          HashOfHighestView node proofs sequence (first.message node).requestHash := by
  intro envelopes proofs
  obtain ⟨hash, hhash⟩ := node.hash_nullRequest
  have hbuild := buildNewview_ok node outside newView viewchanges attachReqs ops hhash
  have hfind : proofs.find? (fun proof => (proof.message node).sequence = sequence) =
      firstProof node (node.maxCheckpointSequence envelopes) proofs sequence := by
    unfold firstProof
    simp only [habove, envelopes, and_true]
  have hends : lastSequence node (node.maxCheckpointSequence envelopes) proofs = 0 - 1 ↔
      ∃ proof ∈ proofs, (proof.message node).sequence = 0 - 1 := by
    have hlast : node.maxCheckpointSequence envelopes < 0 - 1 := by
      rw [UInt64.lt_iff_toNat_lt] at habove ⊢
      exact lt_of_lt_of_le habove (Nat.le_of_lt_succ sequence.toNat_lt)
    rw [lastSequence, foldl_max_eq_last_iff, List.mem_filter, List.mem_map, decide_eq_true_eq, and_iff_left hlast]
  rw [hfind]
  dsimp only at hbuild
  split at hbuild
  · -- the loop over the skipped sequences never ends
    rename_i hdiverges
    obtain ⟨proof, hmem, hseq⟩ := hends.mp hdiverges
    constructor
    · rintro ⟨newview, hok, -⟩
      rw [hbuild] at hok
      cases hok
    · exact fun h => absurd hseq (h.1 proof hmem)
  · rename_i hlast
    obtain ⟨m, hok, hm⟩ := hbuild
    obtain ⟨first, hfirst⟩ : ∃ first, firstProof node (node.maxCheckpointSequence envelopes) proofs sequence =
        some first := by
      rw [← hfind, ← Option.isSome_iff_exists, List.find?_isSome]
      simpa only [decide_eq_true_eq] using hproof
    have hproposal : proposalAt node newView (node.maxCheckpointSequence envelopes) proofs hash sequence =
        some { first.message node with view := newView } := by
      rw [proposalAt, hfirst]
    have hseq : Option.Rel (WrappedAs node outside) m[sequence]? (some { first.message node with view := newView }) :=
      hproposal ▸ hm sequence
    have hfilter := prePrepares_filter hm (fun i msg => proposalAt_sequence) sequence
    cases hfound : m[sequence]? with
    | none => rw [hfound] at hseq; cases hseq
    | some env =>
      rw [hfound] at hseq hfilter
      have hdecode : node.wire.pbftMsg.decode env.pbft = { first.message node with view := newView } := by
        cases hseq with
        | some hwrap => exact hwrap.decode
      have hselects : Selects node proofs (makeNewview newView viewchanges m) sequence ↔
          HashOfHighestView node proofs sequence (first.message node).requestHash := by
        constructor
        · rintro ⟨env', henv', hhighest⟩
          have hsame : [env] = [env'] := hfilter.symm.trans henv'
          cases hsame
          rwa [hdecode] at hhighest
        · intro hhighest
          exact ⟨env, hfilter, by rwa [hdecode]⟩
      rw [hok, hfirst]
      simp only [Except.ok.injEq, exists_eq_left', hselects, Option.mem_def, Option.some.injEq, forall_eq']
      exact (and_iff_right fun proof hmem hmax => hlast (hends.mpr ⟨proof, hmem, hmax⟩)).symm

/-! ## Two views that prepared for one sequence -/

/-- The proof that a request was prepared for sequence 1, of a view with the primary
given. -/
def sampleProof (view : UInt64) (primary requestHash : String) : PreparedProof := proofFor view 1 primary requestHash

/-- A VIEWCHANGE for view 3 with the proofs. -/
def viewchangeWith (sender : String) (proofs : List PreparedProof) : BznEnvelope :=
  sampleEnvelope sender { (default : PbftMsg) with type := .viewchange, view := 3, preparedProofs := proofs }

/-- The VIEWCHANGE messages of three peers, two of them with a proof for sequence 1. -/
def sampleViewchanges (proofOfA proofOfB : PreparedProof) : Map Uuid BznEnvelope :=
  envelopesFromSenders [viewchangeWith "A" [proofOfA], viewchangeWith "B" [proofOfB], viewchangeWith "C" []]

theorem newview_selects_later_first :
    let node := sampleNode fourPeers "D"
    let viewchanges := sampleViewchanges (sampleProof 2 "C" "new") (sampleProof 1 "B" "old")
    ∃ newview, (buildNewview node sampleOutside 3 viewchanges false).result ∅ = .ok newview ∧
      Selects node (preparedProofsOf node (viewchanges.toList.map Prod.snd)) newview 1 :=
  (newview_selects_iff (sampleNode fourPeers "D") sampleOutside 3
    (sampleViewchanges (sampleProof 2 "C" "new") (sampleProof 1 "B" "old")) false ∅ 1 (by decide +kernel)
    (by decide +kernel)).mpr (by unfold HashOfHighestView; decide +kernel)

/-- Three valid VIEWCHANGE messages. The one of the first sender has the proof of
the older view, and the request of the newer one is lost. -/
theorem newview_selects_older :
    let node := sampleNode fourPeers "D"
    let viewchanges := sampleViewchanges (sampleProof 1 "B" "old") (sampleProof 2 "C" "new")
    let proofs := preparedProofsOf node (viewchanges.toList.map Prod.snd)
    (∀ env ∈ viewchanges.toList.map Prod.snd,
        isValidViewchangeMessage node 2 (node.viewchangeOf env) env = .ok true) ∧
      ((buildNewview node sampleOutside 3 viewchanges false).result ∅).map (fun newview =>
        newview.prePrepareMessages.map fun env =>
          let msg := node.wire.pbftMsg.decode env.pbft
          (msg.sequence, msg.requestHash)) = .ok [(1, ascii "old")] ∧
      ¬ HashOfHighestView node proofs 1 (ascii "old") := by
  refine ⟨by decide +kernel, by decide +kernel, ?_⟩
  unfold HashOfHighestView
  decide +kernel

end SwarmDb
