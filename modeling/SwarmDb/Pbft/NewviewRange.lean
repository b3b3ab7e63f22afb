import SwarmDb.Pbft.Numbers
import SwarmDb.Pbft.NewviewSelection

/-!
# The sequences of a NEWVIEW

`newview_gapFree_iff` says when the pre-prepares that `build_newview` makes are for all sequences from the greatest
checkpoint on up to the last one that has a proof. They are not where that checkpoint is the greatest number there is:
the loop that fills the gaps then starts from zero (`newview_from_zero`).
-/

namespace SwarmDb

open Lib Program

section

variable (node : Node)

/-- The pre-prepares of a NEWVIEW are for the sequences above the checkpoint up to
the last one with a proof, in order, and are those of the null request where
there is no proof. -/
structure GapFree (nullHash : Hash) (newView maxCheckpointSequence : UInt64) (proofs : List PreparedProof)
    (newview : PbftMsg) : Prop where
  sequences : newview.prePrepareMessages.map (fun env => (node.sequenceOf env).toNat) =
    List.range' (maxCheckpointSequence.toNat + 1)
      ((lastSequence node maxCheckpointSequence proofs).toNat - maxCheckpointSequence.toNat)
  views : ∀ env ∈ newview.prePrepareMessages, (node.wire.pbftMsg.decode env.pbft).view = newView
  hashes : ∀ env ∈ newview.prePrepareMessages, (node.wire.pbftMsg.decode env.pbft).requestHash = nullHash ↔
    ∀ proof ∈ proofs, (proof.message node).sequence ≠ node.sequenceOf env

end

section

variable {node : Node} {outside : Outside} {newView maxCheckpointSequence : UInt64} {proofs : List PreparedProof}
  {hash : Hash}

variable {i : UInt64} {m : Map UInt64 BznEnvelope}

theorem firstProof_le_last {first : PreparedProof} (h : firstProof node maxCheckpointSequence proofs i = some first) :
    maxCheckpointSequence < i ∧ i ≤ lastSequence node maxCheckpointSequence proofs := by
  have hi := List.find?_some h
  simp only [decide_eq_true_eq] at hi
  refine ⟨hi.2, (foldl_max_le_iff.mp UInt64.le_rfl).2 i (List.mem_filter.mpr ⟨?_, decide_eq_true hi.2⟩)⟩
  exact List.mem_map.mpr ⟨first, List.mem_of_find?_eq_some h, hi.1⟩

/-- There is a pre-prepare for every sequence between. -/
theorem isSome_proposalAt_iff (hmax : maxCheckpointSequence ≠ 0 - 1) (i : UInt64) :
    (proposalAt node newView maxCheckpointSequence proofs hash i).isSome ↔
      maxCheckpointSequence < i ∧ i ≤ lastSequence node maxCheckpointSequence proofs := by
  have hnext : maxCheckpointSequence + 1 ≤ i ↔ maxCheckpointSequence < i := by
    rw [UInt64.le_iff_toNat_le, toNat_add_one hmax, UInt64.lt_iff_toNat_lt, Nat.succ_le_iff]
  unfold proposalAt
  split
  · rename_i first hfirst
    exact ⟨fun _ => firstProof_le_last hfirst, fun _ => rfl⟩
  · split
    · rename_i hbetween
      exact ⟨fun _ => ⟨hnext.mp hbetween.1, hbetween.2⟩, fun _ => rfl⟩
    · rename_i hbeyond
      exact ⟨fun h => (by cases h), fun h => absurd ⟨hnext.mpr h.1, h.2⟩ hbeyond⟩

/-- The pre-prepare for a sequence is that of the null request where there is no
proof for it, or the first one is for the null request. -/
theorem proposalAt_nullHash_iff {msg : PbftMsg} (hi : maxCheckpointSequence < i)
    (h : proposalAt node newView maxCheckpointSequence proofs hash i = some msg) :
    msg.requestHash = hash ↔ (∀ proof ∈ proofs, (proof.message node).sequence ≠ i) ∨
      ∃ first, firstProof node maxCheckpointSequence proofs i = some first ∧
        (first.message node).requestHash = hash := by
  have hnone : firstProof node maxCheckpointSequence proofs i = none ↔
      ∀ proof ∈ proofs, (proof.message node).sequence ≠ i := by
    rw [firstProof, List.find?_eq_none]
    simp only [decide_eq_true_eq, hi, and_true, Ne]
  rw [← hnone]
  unfold proposalAt at h
  split at h
  · rename_i first hfirst
    cases h
    simp [hfirst]
  · rename_i hfirst
    split at h
    · cases h
      exact ⟨fun _ => .inl hfirst, fun _ => rfl⟩
    · cases h

section

variable
  (hm : ∀ i : UInt64, Option.Rel (WrappedAs node outside) m[i]?
    (proposalAt node newView maxCheckpointSequence proofs hash i))
include hm

/-- The pre-prepares that are made, each under its own sequence. -/
theorem mem_prePrepares {env : BznEnvelope} (henv : m[i]? = some env) :
    ∃ msg, proposalAt node newView maxCheckpointSequence proofs hash i = some msg ∧
      node.wire.pbftMsg.decode env.pbft = msg ∧ node.sequenceOf env = i := by
  have hi := hm i
  rw [henv] at hi
  cases hp : proposalAt node newView maxCheckpointSequence proofs hash i with
  | none => rw [hp] at hi; cases hi
  | some msg =>
    rw [hp] at hi
    cases hi with
    | some hwrap => exact ⟨msg, rfl, hwrap.decode, by rw [Node.sequenceOf, hwrap.decode, (proposalAt_eq_some hp).2]⟩

theorem isSome_prePrepares (i : UInt64) :
    (m[i]?).isSome = (proposalAt node newView maxCheckpointSequence proofs hash i).isSome := by
  have hi := hm i
  generalize m[i]? = found at hi ⊢
  generalize proposalAt _ _ _ _ _ _ = proposal at hi ⊢
  cases hi <;> rfl

end

theorem gapFree_iff (viewchanges : Map Uuid BznEnvelope)
    (hm : ∀ i : UInt64, Option.Rel (WrappedAs node outside) m[i]?
      (proposalAt node newView maxCheckpointSequence proofs hash i)) :
    GapFree node hash newView maxCheckpointSequence proofs (makeNewview newView viewchanges m) ↔
      maxCheckpointSequence ≠ 0 - 1 ∧ ∀ sequence first,
        firstProof node maxCheckpointSequence proofs sequence = some first →
          (first.message node).requestHash ≠ hash := by
  have hkeys : ((m.toList.map Prod.snd).map fun env => (node.sequenceOf env).toNat) =
      (m.toList.map Prod.fst).map UInt64.toNat := by
    rw [List.map_map, List.map_map]
    refine List.map_congr_left fun e he => ?_
    obtain ⟨msg, -, -, hseq⟩ := mem_prePrepares hm (Map.mem_toList_iff.mp he)
    exact congrArg UInt64.toNat hseq
  constructor
  · intro h
    have hmax : maxCheckpointSequence ≠ 0 - 1 := by
      -- the loop starts from zero, and there is nothing above the checkpoint
      rintro rfl
      have hnone : firstProof node (0 - 1) proofs 0 = none := by
        rw [firstProof, List.find?_eq_none]
        intro proof _ hproof
        exact absurd (of_decide_eq_true hproof).2 (by decide)
      have hzero : (m[(0 : UInt64)]?).isSome := by
        rw [isSome_prePrepares hm, proposalAt, hnone]
        dsimp only
        rw [if_pos ⟨by decide, UInt64.zero_le⟩]
        rfl
      have hlt := (lastSequence node (0 - 1) proofs).toNat_lt
      have hnil := h.sequences
      rw [show (lastSequence node (0 - 1) proofs).toNat - (0 - 1 : UInt64).toNat = 0 from
        Nat.sub_eq_zero_of_le (Nat.le_of_lt_succ hlt), List.range'_zero] at hnil
      have hmem : (0 : UInt64) ∈ m.toList.map Prod.fst := Map.mem_keys_iff.mpr hzero
      rw [show (makeNewview newView viewchanges m).prePrepareMessages = m.toList.map Prod.snd from rfl, hkeys,
        List.map_eq_nil_iff] at hnil
      rw [hnil] at hmem
      cases hmem
    refine ⟨hmax, fun i first hfirst hhash => ?_⟩
    obtain ⟨hlt, -⟩ := firstProof_le_last hfirst
    have hsome : (m[i]?).isSome := by
      rw [isSome_prePrepares hm, isSome_proposalAt_iff hmax]
      exact firstProof_le_last hfirst
    obtain ⟨env, henv⟩ := Option.isSome_iff_exists.mp hsome
    obtain ⟨msg, hmsg, hdecode, hseq⟩ := mem_prePrepares hm henv
    have hiff := h.hashes env (List.mem_map.mpr ⟨(i, env), Map.mem_toList_iff.mpr henv, rfl⟩)
    rw [hdecode, hseq] at hiff
    have hall := hiff.mp ((proposalAt_nullHash_iff hlt hmsg).mpr (.inr ⟨first, hfirst, hhash⟩))
    exact hall first (List.mem_of_find?_eq_some hfirst) (firstProof_sequence hfirst)
  · rintro ⟨hmax, hnull⟩
    refine ⟨?_, ?_, ?_⟩
    · refine hkeys.trans (toNat_eq_range ?_ fun i => ?_)
      · exact (Map.keys_pairwise m).imp fun hab => compareOfLessAndEq_eq_lt.mp hab
      · rw [Map.mem_keys_iff, isSome_prePrepares hm, isSome_proposalAt_iff hmax]
    · intro env henv
      obtain ⟨⟨i, env⟩, he, rfl⟩ := List.mem_map.mp henv
      obtain ⟨msg, hmsg, hdecode, -⟩ := mem_prePrepares hm (Map.mem_toList_iff.mp he)
      rw [hdecode]
      exact (proposalAt_eq_some hmsg).1
    · intro env henv
      obtain ⟨⟨i, env⟩, he, rfl⟩ := List.mem_map.mp henv
      obtain ⟨msg, hmsg, hdecode, hseq⟩ := mem_prePrepares hm (Map.mem_toList_iff.mp he)
      have hbetween := (isSome_proposalAt_iff hmax i).mp (Option.isSome_of_eq_some hmsg)
      rw [hdecode, hseq, proposalAt_nullHash_iff hbetween.1 hmsg, or_iff_left]
      rintro ⟨first, hfirst, hhash⟩
      exact hnull i first hfirst hhash

end

/-- Where no proof is for the greatest number there is, the NEWVIEW that is built
has no gap if and only if no VIEWCHANGE has that number as its checkpoint, and no
sequence above the checkpoints is decided by a proof for the null request
itself. -/
theorem newview_gapFree_iff (node : Node) (outside : Outside) (newView : UInt64) (viewchanges : Map Uuid BznEnvelope)
    (attachReqs : Bool) (ops : HeldOperations) (nullHash : Hash) (hnull : node.hash node.nullRequest = .ok nullHash)
    (hbelow : ∀ proof ∈ preparedProofsOf node (viewchanges.toList.map Prod.snd),
      (proof.message node).sequence < 0 - 1) :
    let envelopes := viewchanges.toList.map Prod.snd
    let proofs := preparedProofsOf node envelopes
    let maxCheckpointSequence := node.maxCheckpointSequence envelopes
    (∃ newview, (buildNewview node outside newView viewchanges attachReqs).result ops = .ok newview ∧
        GapFree node nullHash newView maxCheckpointSequence proofs newview) ↔
      (∀ env ∈ envelopes, (node.viewchangeOf env).sequence ≠ 0 - 1) ∧
        ∀ sequence first, firstProof node maxCheckpointSequence proofs sequence = some first →
          (first.message node).requestHash ≠ nullHash := by
  intro envelopes proofs maxCheckpointSequence
  have hmax : (∀ env ∈ envelopes, (node.viewchangeOf env).sequence ≠ 0 - 1) ↔ maxCheckpointSequence ≠ 0 - 1 := by
    show _ ↔ (envelopes.map fun env => (node.viewchangeOf env).sequence).foldl max 0 ≠ 0 - 1
    rw [Ne, foldl_max_eq_last_iff, List.mem_map]
    simp
  have hlast : lastSequence node maxCheckpointSequence proofs ≠ 0 - 1 := by
    rw [lastSequence, Ne, foldl_max_eq_last_iff, List.mem_filter, List.mem_map]
    rintro ⟨⟨proof, hproof, heq⟩, -⟩
    exact UInt64.lt_irrefl _ (heq ▸ hbelow proof hproof)
  have hbuild := buildNewview_ok node outside newView viewchanges attachReqs ops hnull
  dsimp only at hbuild
  rw [if_neg hlast] at hbuild
  obtain ⟨m, hok, hm⟩ := hbuild
  rw [hok, hmax, ← gapFree_iff viewchanges hm]
  simp only [Except.ok.injEq, exists_eq_left']
  exact Iff.rfl

/-- The VIEWCHANGE messages of three peers, one with a proof for sequence 1 and one
with a checkpoint. -/
def viewchangesOfThree (proofOfA : List PreparedProof) (checkpointOfB : UInt64) : Map Uuid BznEnvelope :=
  envelopesFromSenders [viewchangeWith "A" proofOfA, viewchangeAt "B" checkpointOfB, viewchangeWith "C" []]

/-- The hash of the null request at a sample node. -/
def sampleNullHash : Hash := (((sampleNode fourPeers "D").hash (sampleNode fourPeers "D").nullRequest).toOption).getD []

/-- Proofs for the sequences 1 and 4. -/
def viewchangesWithHole : Map Uuid BznEnvelope :=
  viewchangesOfThree [proofFor 1 1 "B" "old", proofFor 1 4 "B" "new"] 0

/-- The two sequences between the proofs are filled. -/
theorem newview_gapFree_hole :
    let node := sampleNode fourPeers "D"
    let envelopes := viewchangesWithHole.toList.map Prod.snd
    ∃ newview, (buildNewview node sampleOutside 3 viewchangesWithHole false).result ∅ = .ok newview ∧
      newview.prePrepareMessages.map node.sequenceOf = [1, 2, 3, 4] ∧
      GapFree node sampleNullHash 3 (node.maxCheckpointSequence envelopes)
        (preparedProofsOf node envelopes) newview := by
  have hall : ∀ proof ∈ preparedProofsOf (sampleNode fourPeers "D") (viewchangesWithHole.toList.map Prod.snd),
      (proof.message (sampleNode fourPeers "D")).requestHash ≠ sampleNullHash := by decide +kernel
  obtain ⟨newview, hok, hgapFree⟩ := (newview_gapFree_iff (sampleNode fourPeers "D") sampleOutside 3 viewchangesWithHole
    false ∅ sampleNullHash (by decide +kernel) (by decide +kernel)).mpr ⟨by decide +kernel, fun _ first hfirst => by
      have hmem := List.mem_of_find?_eq_some hfirst
      exact hall first hmem⟩
  refine ⟨newview, hok, ?_, hgapFree⟩
  have hsequences : ((buildNewview (sampleNode fourPeers "D") sampleOutside 3 viewchangesWithHole false).result ∅).map
      (fun newview => newview.prePrepareMessages.map (sampleNode fourPeers "D").sequenceOf) = .ok [1, 2, 3, 4] := by
    decide +kernel
  rw [hok] at hsequences
  exact Except.ok.inj hsequences

/-- A VIEWCHANGE with the greatest number there is as its checkpoint: nothing lies
above it, and there is a pre-prepare for sequence 0. -/
theorem newview_from_zero :
    let node := sampleNode fourPeers "D"
    let viewchanges := viewchangesOfThree [] (0 - 1)
    node.maxCheckpointSequence (viewchanges.toList.map Prod.snd) = 0 - 1 ∧
      preparedProofsOf node (viewchanges.toList.map Prod.snd) = [] ∧
      ((buildNewview node sampleOutside 3 viewchanges false).result ∅).map
        (fun newview => newview.prePrepareMessages.map node.sequenceOf) = .ok [0] :=
  ⟨by decide +kernel, by decide +kernel, by decide +kernel⟩

end SwarmDb
