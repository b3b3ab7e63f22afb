import SwarmDb.Pbft.Viewchange

/-!
# The pre-prepares of a NEWVIEW

`build_newview` as a function of the prepared proofs in the VIEWCHANGE messages:
`proposalAt` is the pre-prepare it makes for a sequence, the one of the first
proof for it, or one of an operation that does nothing where a sequence is
skipped. `buildNewview_ok` says that it makes these and no others.
-/

namespace SwarmDb

open Lib Program

section

variable (node : Node)

/-- The pre-prepare of a proof. -/
def PreparedProof.message (proof : PreparedProof) : PbftMsg := node.wire.pbftMsg.decode proof.prePrepare.pbft

/-- The prepared proofs of the VIEWCHANGE messages, one after the other. -/
def preparedProofsOf (envelopes : List BznEnvelope) : List PreparedProof :=
  envelopes.flatMap fun env => (node.viewchangeOf env).preparedProofs

/-- The first proof for a sequence above the checkpoint. -/
def firstProof (maxCheckpointSequence : UInt64) (proofs : List PreparedProof) (sequence : UInt64) :
    Option PreparedProof :=
  proofs.find? fun proof => (proof.message node).sequence = sequence ∧ maxCheckpointSequence < sequence

/-- The greatest sequence above the checkpoint that has a proof. -/
def lastSequence (maxCheckpointSequence : UInt64) (proofs : List PreparedProof) : UInt64 :=
  ((proofs.map fun proof => (proof.message node).sequence).filter (maxCheckpointSequence < ·)).foldl max 0

/-- The message of a pre-prepare for an operation that does nothing. -/
def nullMessage (newView sequence : UInt64) (hash : Hash) : PbftMsg :=
  { (default : PbftMsg) with
    view := newView
    sequence := sequence
    type := .preprepare
    requestHash := hash }

/-- The pre-prepare that a NEWVIEW has for a sequence. -/
def proposalAt (newView maxCheckpointSequence : UInt64) (proofs : List PreparedProof) (nullHash : Hash)
    (sequence : UInt64) : Option PbftMsg :=
  match firstProof node maxCheckpointSequence proofs sequence with
  | some proof => some { proof.message node with view := newView }
  | none =>
    if maxCheckpointSequence + 1 ≤ sequence ∧ sequence ≤ lastSequence node maxCheckpointSequence proofs then
      some (nullMessage newView sequence nullHash)
    else none

/-- The envelope of a message, signed by the node, perhaps with requests. -/
def WrappedAs (outside : Outside) (env : BznEnvelope) (msg : PbftMsg) : Prop :=
  ∃ signed requests, node.wrapMessage outside (node.pbftEnvelope msg) = .ok signed ∧
    env = { signed with piggybackedRequests := requests }

end

section

variable {node : Node} {outside : Outside} {newView maxCheckpointSequence : UInt64} {proofs : List PreparedProof}
  {m : Map UInt64 BznEnvelope} {hash : Hash}

theorem Node.wrapMessage_isOk (node : Node) (outside : Outside) (msg : PbftMsg) :
    ∃ env, node.wrapMessage outside (node.pbftEnvelope msg) = .ok env := by
  unfold wrapMessage
  exact cryptoSign_isOk node.ssl node.options (by simp [Node.pbftEnvelope])

variable (node outside) in
theorem newPrePrepare_isOk (attachReqs : Bool) (oldView : UInt64) (msg : PbftMsg) (ops : HeldOperations) :
    ∃ env, (newPrePrepare node outside attachReqs oldView msg).result ops = .ok env ∧
      WrappedAs node outside env msg := by
  obtain ⟨signed, hsigned⟩ := node.wrapMessage_isOk outside msg
  have hlift : (lift (node.wrapMessage outside (node.pbftEnvelope msg)) : Program Fault HeldOperations _).result ops =
    .ok signed := hsigned
  have hself : WrappedAs node outside signed msg :=
    ⟨signed, signed.piggybackedRequests, hsigned, by cases signed; rfl⟩
  unfold newPrePrepare
  rw [result_bind_ok hlift]
  split
  · unfold attachRequest
    simp only [result_update_bind, result_read_bind]
    split
    · exact ⟨_, rfl, signed, _, hsigned, rfl⟩
    · exact ⟨signed, rfl, hself⟩
  · exact ⟨signed, rfl, hself⟩

variable (node outside newView maxCheckpointSequence) in
/-- The new pre-prepare for one proof. -/
theorem addPrePrepare_isOk (attachReqs : Bool) (m : Map UInt64 BznEnvelope) (proof : PreparedProof)
    (ops : HeldOperations) : ∃ m',
      (addPrePrepare node outside newView maxCheckpointSequence attachReqs m proof).result ops = .ok m' ∧
      if (m[(proof.message node).sequence]?).isSome ∨ (proof.message node).sequence ≤ maxCheckpointSequence then m' = m
      else ∃ env, WrappedAs node outside env { proof.message node with view := newView } ∧
        m' = m.insert (proof.message node).sequence env := by
  unfold addPrePrepare
  change ∃ m', (if (m[(proof.message node).sequence]?).isSome then _ else
    if (proof.message node).sequence ≤ maxCheckpointSequence then _ else _ : Program _ _ _).result ops = _ ∧ _
  by_cases hseen : (m[(proof.message node).sequence]?).isSome
  · exact ⟨m, by rw [if_pos hseen]; rfl, by rw [if_pos (.inl hseen)]⟩
  · by_cases hlow : (proof.message node).sequence ≤ maxCheckpointSequence
    · exact ⟨m, by rw [if_neg hseen, if_pos hlow]; rfl, by rw [if_pos (.inr hlow)]⟩
    · obtain ⟨env, henv, hwrap⟩ := newPrePrepare_isOk node outside attachReqs
        (proof.message node).view { proof.message node with view := newView } ops
      refine ⟨m.insert (proof.message node).sequence env, ?_, ?_⟩
      · rw [if_neg hseen, if_neg hlow]
        exact result_bind_ok henv
      · rw [if_neg (by simp [hseen, hlow])]
        exact ⟨env, hwrap, rfl⟩

/-- The pre-prepares made from a list of proofs. -/
def Proposes (node : Node) (outside : Outside) (newView maxCheckpointSequence : UInt64) (proofs : List PreparedProof)
    (m : Map UInt64 BznEnvelope) : Prop :=
  ∀ i : UInt64, Option.Rel (WrappedAs node outside) m[i]?
    ((firstProof node maxCheckpointSequence proofs i).map fun proof => { proof.message node with view := newView })

theorem proposes_nil : Proposes node outside newView maxCheckpointSequence [] ∅ := by
  intro i
  rw [Map.lookup_empty]
  exact .none

theorem proposes_append
    (h : Proposes node outside newView maxCheckpointSequence proofs m) (attachReqs : Bool) (proof : PreparedProof)
    (ops : HeldOperations) : ∃ m',
      (addPrePrepare node outside newView maxCheckpointSequence attachReqs m proof).result ops = .ok m' ∧
      Proposes node outside newView maxCheckpointSequence (proofs ++ [proof]) m' := by
  obtain ⟨m', hm', hif⟩ := addPrePrepare_isOk node outside newView maxCheckpointSequence attachReqs m proof ops
  refine ⟨m', hm', fun i => ?_⟩
  have hfirst : firstProof node maxCheckpointSequence (proofs ++ [proof]) i =
      (firstProof node maxCheckpointSequence proofs i).or
        (if (proof.message node).sequence = i ∧ maxCheckpointSequence < i then some proof else none) := by
    rw [firstProof, List.find?_append, List.find?_singleton]
    simp only [decide_eq_true_eq]
    rfl
  rw [hfirst]
  have hi := h i
  split at hif
  · -- the proof is one too many: its sequence is taken, or too low
    rename_i hold
    subst hif
    cases hf : firstProof node maxCheckpointSequence proofs i with
    | some => rw [hf] at hi; exact hi
    | none =>
      rw [hf] at hi
      have hnone : m'[i]? = none := by
        cases hm : m'[i]? with
        | none => rfl
        | some => rw [hm] at hi; cases hi
      have hne : ¬ ((proof.message node).sequence = i ∧ maxCheckpointSequence < i) := by
        rintro ⟨rfl, hlt⟩
        rcases hold with hsome | hle
        · rw [hnone] at hsome
          cases hsome
        · exact absurd hlt (UInt64.not_lt.mpr hle)
      rw [if_neg hne, Option.or_none]
      exact hi
  · rename_i hnew
    obtain ⟨env, hwrap, rfl⟩ := hif
    rw [not_or, Option.not_isSome_iff_eq_none, UInt64.not_le] at hnew
    rw [Map.lookup_insert]
    by_cases he : (proof.message node).sequence = i
    · subst he
      have hf : firstProof node maxCheckpointSequence proofs (proof.message node).sequence = none := by
        rw [hnew.1] at hi
        cases hf : firstProof node maxCheckpointSequence proofs (proof.message node).sequence with
        | none => rfl
        | some => rw [hf] at hi; cases hi
      rw [if_pos rfl, hf, Option.none_or, if_pos ⟨rfl, hnew.2⟩]
      exact .some hwrap
    · rw [if_neg he, if_neg fun hc => he hc.1, Option.or_none]
      exact hi

theorem proposes_proofs (attachReqs : Bool) (ps : List PreparedProof)
    (h : Proposes node outside newView maxCheckpointSequence proofs m)
    (ops : HeldOperations) : ∃ m',
      (ps.foldlM (addPrePrepare node outside newView maxCheckpointSequence attachReqs) m).result ops = .ok m' ∧
      Proposes node outside newView maxCheckpointSequence (proofs ++ ps) m' := by
  induction ps generalizing proofs m ops with
  | nil => exact ⟨m, rfl, by rwa [List.append_nil]⟩
  | cons proof _ ih =>
    obtain ⟨m₁, hm₁, h₁⟩ := proposes_append h attachReqs proof ops
    obtain ⟨m', hm', h'⟩ := ih h₁
      ((addPrePrepare node outside newView maxCheckpointSequence attachReqs m proof).final ops)
    refine ⟨m', ?_, by rwa [List.append_assoc, List.singleton_append] at h'⟩
    rw [List.foldlM_cons, result_bind_ok hm₁]
    exact hm'

theorem proposes_envelopes (attachReqs : Bool) (envelopes : List BznEnvelope)
    (h : Proposes node outside newView maxCheckpointSequence proofs m)
    (ops : HeldOperations) : ∃ m',
      (envelopes.foldlM (fun m env => (node.viewchangeOf env).preparedProofs.foldlM
        (addPrePrepare node outside newView maxCheckpointSequence attachReqs) m) m).result ops = .ok m' ∧
      Proposes node outside newView maxCheckpointSequence (proofs ++ preparedProofsOf node envelopes) m' := by
  induction envelopes generalizing proofs m ops with
  | nil => exact ⟨m, rfl, by rwa [preparedProofsOf, List.flatMap_nil, List.append_nil]⟩
  | cons env _ ih =>
    obtain ⟨m₁, hm₁, h₁⟩ := proposes_proofs attachReqs (node.viewchangeOf env).preparedProofs h ops
    obtain ⟨m', hm', h'⟩ := ih h₁ (((node.viewchangeOf env).preparedProofs.foldlM
      (addPrePrepare node outside newView maxCheckpointSequence attachReqs) m).final ops)
    refine ⟨m', ?_, ?_⟩
    · rw [List.foldlM_cons, result_bind_ok hm₁]
      exact hm'
    · rwa [List.append_assoc] at h'

/-! ## The sequences in between -/

variable {env : BznEnvelope} {msg ours : PbftMsg} {viewchanges : Map Uuid BznEnvelope} {attachReqs : Bool}
  {ops : HeldOperations}

theorem WrappedAs.decode (h : WrappedAs node outside env msg) : node.wire.pbftMsg.decode env.pbft = msg := by
  obtain ⟨signed, requests, hsigned, rfl⟩ := h
  obtain ⟨signature, rfl⟩ := cryptoSign_ok hsigned
  exact node.wire.pbftMsg.decode_serialize msg

theorem Node.hash_nullRequest (node : Node) : ∃ hash, node.hash node.nullRequest = .ok hash :=
  cryptoHash_isOk node.ssl (by simp [Node.nullRequest])

variable (outside newView) in
theorem nullPrePrepare_isOk (hhash : node.hash node.nullRequest = .ok hash) (sequence : UInt64) :
    ∃ env, nullPrePrepare node outside newView sequence = .ok env ∧
      WrappedAs node outside env (nullMessage newView sequence hash) := by
  obtain ⟨signed, hsigned⟩ := node.wrapMessage_isOk outside (nullMessage newView sequence hash)
  refine ⟨signed.addPiggybackedRequest node.nullRequest, ?_, signed, _, hsigned, rfl⟩
  unfold nullPrePrepare
  rw [hhash]
  change (node.wrapMessage outside (node.pbftEnvelope (nullMessage newView sequence hash)) >>= _) = _
  rw [hsigned]
  rfl

variable (outside newView) in
/-- The pre-prepares that are there stay, and those of the other sequences are for
operations that do nothing. -/
theorem foldlM_fill (hhash : node.hash node.nullRequest = .ok hash) (sequences : List UInt64)
    (m : Map UInt64 BznEnvelope) : ∃ m',
      sequences.foldlM (fun m i => do
        if (m[i]?).isSome then pure m else pure (m.insert i (← nullPrePrepare node outside newView i))) m = .ok m' ∧
      ∀ i : UInt64, if (m[i]?).isNone ∧ i ∈ sequences then
          ∃ env, m'[i]? = some env ∧ WrappedAs node outside env (nullMessage newView i hash)
        else m'[i]? = m[i]? := by
  induction sequences generalizing m with
  | nil => exact ⟨m, rfl, fun i => by rw [if_neg fun h => List.not_mem_nil h.2]⟩
  | cons first _ ih =>
    rw [List.foldlM_cons]
    by_cases hseen : (m[first]?).isSome
    · obtain ⟨m', hm', hfill⟩ := ih m
      refine ⟨m', by rw [if_pos hseen]; exact hm', fun i => ?_⟩
      have hi := hfill i
      by_cases he : i = first
      · subst he
        rw [if_neg fun h => by rw [Option.isNone_iff_eq_none.mp h.1] at hseen; cases hseen] at hi ⊢
        exact hi
      · simp only [List.mem_cons, he, false_or]
        exact hi
    · obtain ⟨env, henv, hwrap⟩ := nullPrePrepare_isOk outside newView hhash first
      obtain ⟨m', hm', hfill⟩ := ih (m.insert first env)
      refine ⟨m', by rw [if_neg hseen, henv]; exact hm', fun i => ?_⟩
      have hi := hfill i
      rw [Map.lookup_insert] at hi
      by_cases he : first = i
      · subst he
        rw [if_pos rfl, if_neg fun h => Bool.noConfusion h.1] at hi
        rw [if_pos ⟨Option.isNone_iff_eq_none.mpr (Option.not_isSome_iff_eq_none.mp hseen), List.mem_cons_self⟩]
        exact ⟨env, hi, hwrap⟩
      · rw [if_neg he] at hi
        simp only [List.mem_cons, Ne.symm he, false_or]
        exact hi

section

variable (h : Proposes node outside newView maxCheckpointSequence proofs m)
include h

theorem Proposes.isSome_iff (i : UInt64) :
    (m[i]?).isSome ↔ ∃ proof ∈ proofs, (proof.message node).sequence = i ∧ maxCheckpointSequence < i := by
  have hfirst : (firstProof node maxCheckpointSequence proofs i).isSome ↔
      ∃ proof ∈ proofs, (proof.message node).sequence = i ∧ maxCheckpointSequence < i := by
    rw [firstProof, List.find?_isSome]
    simp only [decide_eq_true_eq]
  rw [← hfirst]
  have hi := h i
  generalize m[i]? = found at hi ⊢
  cases hf : firstProof node maxCheckpointSequence proofs i <;> rw [hf] at hi <;> cases hi <;> simp

/-- The last sequence that has a pre-prepare. -/
theorem Proposes.last : (m.toList.map Prod.fst).foldl max 0 = lastSequence node maxCheckpointSequence proofs := by
  refine foldl_max_congr fun i => ?_
  rw [Map.mem_keys_iff, h.isSome_iff, List.mem_filter, List.mem_map, decide_eq_true_eq]
  constructor
  · rintro ⟨proof, hproof, rfl, hlt⟩
    exact ⟨⟨proof, hproof, rfl⟩, hlt⟩
  · rintro ⟨⟨proof, hproof, rfl⟩, hlt⟩
    exact ⟨proof, hproof, rfl, hlt⟩

/-- The pre-prepares with those of the skipped sequences. -/
theorem fillInMissingPrePrepares_ok (hlast : lastSequence node maxCheckpointSequence proofs ≠ 0 - 1)
    (hhash : node.hash node.nullRequest = .ok hash) :
    ∃ m', fillInMissingPrePrepares node outside maxCheckpointSequence newView m = .ok m' ∧
      ∀ i : UInt64, Option.Rel (WrappedAs node outside) m'[i]?
        (proposalAt node newView maxCheckpointSequence proofs hash i) := by
  unfold fillInMissingPrePrepares
  simp only [h.last]
  cases hs : sequencesBetween (maxCheckpointSequence + 1) (lastSequence node maxCheckpointSequence proofs) with
  | none => exact absurd (sequencesBetween_eq_none.mp hs) hlast
  | some sequences =>
    obtain ⟨m', hm', hfill⟩ := foldlM_fill outside newView hhash sequences m
    refine ⟨m', hm', fun i => ?_⟩
    have hi := h i
    have hfi := hfill i
    unfold proposalAt
    cases hf : firstProof node maxCheckpointSequence proofs i with
    | some =>
      rw [hf] at hi
      rw [if_neg fun hc => by rw [Option.isNone_iff_eq_none.mp hc.1] at hi; cases hi] at hfi
      rw [hfi]
      exact hi
    | none =>
      rw [hf] at hi
      have hnone : m[i]? = none := by
        generalize m[i]? = found at hi
        cases hi
        rfl
      simp only [hnone, Option.isNone_none, true_and, mem_sequencesBetween hs] at hfi
      simp only
      split at hfi
      · rename_i hbetween
        obtain ⟨env, henv, hwrap⟩ := hfi
        rw [if_pos hbetween, henv]
        exact .some hwrap
      · rename_i hbeyond
        rw [if_neg hbeyond, hfi]
        exact .none

end

variable (node outside newView)

/-- What `build_newview` makes of the VIEWCHANGE messages. -/
theorem buildNewview_ok (viewchanges : Map Uuid BznEnvelope) (attachReqs : Bool) (ops : HeldOperations)
    (hhash : node.hash node.nullRequest = .ok hash) :
    let envelopes := viewchanges.toList.map Prod.snd
    let maxCheckpointSequence := node.maxCheckpointSequence envelopes
    let proofs := preparedProofsOf node envelopes
    if lastSequence node maxCheckpointSequence proofs = 0 - 1 then
      (buildNewview node outside newView viewchanges attachReqs).result ops = .error .divergence
    else ∃ m', (buildNewview node outside newView viewchanges attachReqs).result ops =
        .ok (makeNewview newView viewchanges m') ∧
      ∀ i : UInt64, Option.Rel (WrappedAs node outside) m'[i]?
        (proposalAt node newView maxCheckpointSequence proofs hash i) := by
  intro envelopes maxCheckpointSequence proofs
  obtain ⟨m, hm, hproposes⟩ := proposes_envelopes attachReqs envelopes
    (proposes_nil : Proposes node outside newView maxCheckpointSequence [] ∅) ops
  rw [List.nil_append] at hproposes
  have hrest := result_bind_ok hm (f := fun prePrepares => do
    let prePrepares ← lift (fillInMissingPrePrepares node outside maxCheckpointSequence newView prePrepares)
    pure (makeNewview newView viewchanges prePrepares))
  split
  · rename_i hlast
    refine hrest.trans ?_
    have herror : fillInMissingPrePrepares node outside maxCheckpointSequence newView m = .error .divergence := by
      unfold fillInMissingPrePrepares
      simp only [hproposes.last]
      rw [sequencesBetween_eq_none.mpr hlast]
    rw [herror]
    rfl
  · rename_i hlast
    obtain ⟨m', hm', hall⟩ := fillInMissingPrePrepares_ok hproposes hlast hhash
    refine ⟨m', hrest.trans ?_, hall⟩
    rw [hm']
    rfl

variable {node outside newView}

/-- A NEWVIEW that `build_newview` returns. -/
theorem buildNewview_eq_ok (h : (buildNewview node outside newView viewchanges attachReqs).result ops = .ok ours) :
    let envelopes := viewchanges.toList.map Prod.snd
    let maxCheckpointSequence := node.maxCheckpointSequence envelopes
    let proofs := preparedProofsOf node envelopes
    ∃ hash m', ours = makeNewview newView viewchanges m' ∧ lastSequence node maxCheckpointSequence proofs ≠ 0 - 1 ∧
      ∀ i : UInt64, Option.Rel (WrappedAs node outside) m'[i]?
        (proposalAt node newView maxCheckpointSequence proofs hash i) := by
  intro envelopes maxCheckpointSequence proofs
  obtain ⟨hash, hhash⟩ := node.hash_nullRequest
  have hok := buildNewview_ok node outside newView viewchanges attachReqs ops hhash
  dsimp only at hok
  split at hok
  · rw [hok] at h
    cases h
  · rename_i hlast
    obtain ⟨m', hm', hall⟩ := hok
    rw [hm'] at h
    cases h
    exact ⟨hash, m', rfl, hlast, hall⟩

theorem proposalAt_eq_some {i : UInt64} (h : proposalAt node newView maxCheckpointSequence proofs hash i = some msg) :
    msg.view = newView ∧ msg.sequence = i := by
  unfold proposalAt at h
  split at h
  · rename_i proof hfirst
    cases h
    have hi := List.find?_some hfirst
    simp only [decide_eq_true_eq] at hi
    exact ⟨rfl, hi.1⟩
  · split at h
    · cases h
      exact ⟨rfl, rfl⟩
    · cases h

/-- Each pre-prepare of a NEWVIEW that was built is one that it proposes. -/
theorem buildNewview_view (h : (buildNewview node outside newView viewchanges attachReqs).result ops = .ok ours)
    (henv : env ∈ ours.prePrepareMessages) : (node.wire.pbftMsg.decode env.pbft).view = newView := by
  obtain ⟨hash, m', rfl, -, hall⟩ := buildNewview_eq_ok h
  obtain ⟨⟨i, env'⟩, hmem, rfl⟩ := List.mem_map.mp henv
  have hi := hall i
  rw [Map.mem_toList_iff.mp hmem] at hi
  generalize hp : proposalAt _ _ _ _ _ _ = proposal at hi
  cases hi with
  | some hwrap =>
    dsimp only
    rw [hwrap.decode]
    exact (proposalAt_eq_some hp).1

end

end SwarmDb
