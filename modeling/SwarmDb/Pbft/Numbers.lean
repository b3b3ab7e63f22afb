import SwarmDb.Pbft.Construction
import SwarmDb.Pbft.Handling
import SwarmDb.Pbft.NewviewSelection

/-!
# The next sequence number in a new view

`handle_newview` sets the next sequence number from the first VIEWCHANGE message and then from each pre-prepare that can
be parsed (`handleNewview_next`). The number is fresh exactly when the last pre-prepare can be parsed or, where there
are none, when the first VIEWCHANGE has the greatest checkpoint (`newview_numbers_fresh_iff`).
-/

namespace SwarmDb

open Lib Program

/-- The next sequence number after a NEWVIEW was handled. -/
def Node.nextAfterNewview (node : Node) (nv : PbftMsg) : UInt64 :=
  match (nv.prePrepareMessages.filterMap fun env => node.wire.pbftMsg.parse env.pbft).getLast? with
  | some msg => msg.sequence + 1
  | none => (node.viewchangeOf (nv.viewchangeMessages.headD default)).sequence + 1

section

variable {node : Node} {outside : Outside} {α : Type} {nv : PbftMsg} {env : BznEnvelope} {l : List BznEnvelope}
  {p : Pbft}

/-! ## What keeps the number -/

/-- A program of a replica that leaves the next sequence number as it is. -/
abbrev KeepsNext (m : Program Fault Replica α) : Prop := Keeps (fun s : Replica => s.pbft.nextIssuedSequenceNumber) m

theorem initiateViewchange_keepsNext (view : Option UInt64) : KeepsNext (initiateViewchange node outside view) :=
  .bind .read fun _ => .ite (.bind (.bind (modifyPbft_keeps fun _ => rfl) fun _ => onReplica_keeps _) fun _ =>
    .bind (.lift _) fun _ => .bind (onReplica_keeps _) fun _ =>
    .bind (modifyPbft_keeps fun _ => rfl) fun _ => onReplica_keeps _) (.pure _)

theorem setPrimaryFromNewview_keepsNext (env : BznEnvelope) : KeepsNext (setPrimaryFromNewview node outside env) := by
  unfold setPrimaryFromNewview
  split
  · exact .bind (modifyPbft_keeps fun _ => rfl) fun _ => initiateViewchange_keepsNext _
  · exact modifyPbft_keeps fun _ => rfl

/-- Entering the view of a NEWVIEW. -/
theorem final_enterView_next (view : UInt64) (env : BznEnvelope) (s : Replica) : ((do
    setPrimaryFromNewview node outside env
    setView view
    setViewIsValid true).final s).pbft.nextIssuedSequenceNumber = s.pbft.nextIssuedSequenceNumber := by
  have hview : KeepsNext (setView view) := by
    refine assignMember_keeps _ _ ?_ view
    exact fun _ _ => rfl
  have hvalid : KeepsNext (setViewIsValid true) := by
    refine assignMember_keeps _ _ ?_ true
    exact fun _ _ => rfl
  exact (setPrimaryFromNewview_keepsNext env).bind (fun _ => hview.bind fun _ => hvalid) s

/-! ## The number after a NEWVIEW -/

theorem final_setNextIssuedSequenceNumber (v : UInt64) (s : Replica) :
    ((setNextIssuedSequenceNumber v).final s).pbft.nextIssuedSequenceNumber = v := rfl

variable {s : Replica} {msg : PbftMsg} {last : BznEnvelope}

theorem handleNewviewPreprepares_next (h : (handleNewviewPreprepares node outside msg).result s = .ok ()) :
    ((handleNewviewPreprepares node outside msg).final s).pbft.nextIssuedSequenceNumber =
      (((msg.prePrepareMessages.filterMap fun env => node.wire.pbftMsg.parse env.pbft).getLast?).map
        fun pp => pp.sequence + 1).getD s.pbft.nextIssuedSequenceNumber := by
  unfold handleNewviewPreprepares at h ⊢
  generalize msg.prePrepareMessages = l at h ⊢
  induction l generalizing s with
  | nil => rfl
  | cons env l ih =>
    obtain ⟨u, hbody, h⟩ := result_bind_eq_ok h
    rw [forEach, final_bind_ok hbody, ih h]
    cases hparse : node.wire.pbftMsg.parse env.pbft with
    | none =>
      simp only [List.filterMap_cons, hparse, final_pure]
    | some =>
      simp only [hparse] at hbody
      obtain ⟨_, hpp, -⟩ := result_bind_eq_ok hbody
      simp only [List.filterMap_cons, hparse, final_bind_ok hpp, final_setNextIssuedSequenceNumber]
      cases hlast : (l.filterMap fun env => node.wire.pbftMsg.parse env.pbft).getLast? with
      | none =>
        rw [List.getLast?_eq_none_iff] at hlast
        rw [hlast]
        rfl
      | some =>
        rw [List.getLast?_cons, hlast]
        rfl

theorem handleNewview_next (hvalid : isValidNewviewMessage node outside s.pbft nv env = .ok true)
    (h : (handleNewview node outside nv env).result s = .ok ()) :
    ((handleNewview node outside nv env).final s).pbft.nextIssuedSequenceNumber = node.nextAfterNewview nv := by
  have hlift : (lift (isValidNewviewMessage node outside s.pbft nv env) : Program Fault Replica Bool).result s =
    .ok true :=
    hvalid
  unfold handleNewview at h ⊢
  rw [result_read_bind, result_bind_ok hlift] at h
  rw [final_read_bind, final_bind_ok hlift]
  simp only [final_lift, if_true] at h ⊢
  cases hv : nv.viewchangeMessages with
  | nil =>
    rw [hv] at h
    cases h
  | cons =>
    simp only [hv] at h ⊢
    obtain ⟨_, hcheckpoint, h⟩ := result_bind_eq_ok h
    obtain ⟨_, hnext, h⟩ := result_bind_eq_ok h
    rw [newview_assoc] at h ⊢
    obtain ⟨_, henter, h⟩ := result_bind_eq_ok h
    obtain ⟨_, hpps, h⟩ := result_bind_eq_ok h
    rw [final_bind_ok hcheckpoint, final_bind_ok hnext, final_bind_ok henter, final_bind_ok hpps]
    refine (handleNewviewPreprepares_next hpps).trans ?_
    rw [final_enterView_next, final_setNextIssuedSequenceNumber, Node.nextAfterNewview, hv]
    cases (nv.prePrepareMessages.filterMap fun env => node.wire.pbftMsg.parse env.pbft).getLast? <;> rfl

/-! ## The numbers of a valid NEWVIEW -/

theorem proposalAt_bounds {newView base : UInt64} {proofs : List PreparedProof} {hash : Hash} {i : UInt64}
    (h : proposalAt node newView base proofs hash i = some msg) (hlast : lastSequence node base proofs ≠ 0 - 1) :
    i ≠ 0 - 1 ∧ (base ≠ 0 - 1 → base < i) := by
  have htop : ∀ n : UInt64, 0 - 1 ≤ n → n = 0 - 1 := fun n hn =>
    UInt64.le_antisymm (UInt64.le_iff_toNat_le.mpr (Nat.le_of_lt_succ n.toNat_lt)) hn
  unfold proposalAt at h
  split at h
  · rename_i proof hfirst
    have hi := List.find?_some hfirst
    simp only [decide_eq_true_eq] at hi
    refine ⟨fun he => hlast (foldl_max_eq_last_iff.mpr (List.mem_filter.mpr ⟨?_, ?_⟩)), fun _ => hi.2⟩
    · rw [← he, ← hi.1]
      exact List.mem_map_of_mem (List.mem_of_find?_eq_some hfirst)
    · rw [← he]
      exact decide_eq_true hi.2
  · split at h
    · rename_i hbetween
      refine ⟨fun he => hlast (htop _ (he ▸ hbetween.2)), fun hb => ?_⟩
      have hle := UInt64.le_iff_toNat_le.mp hbetween.1
      rw [toNat_add_one hb] at hle
      exact UInt64.lt_iff_toNat_lt.mpr hle
    · cases h

theorem ValidNewview.nodup (h : ValidNewview node outside p nv env) :
    (nv.viewchangeMessages.map (·.sender)).Nodup := by
  rw [← Multiset.coe_nodup, ← Multiset.toFinset_card_eq_card_iff_nodup]
  exact h.distinct.trans (List.length_map _).symm

/-- The sequence of the pre-prepare in an envelope, as it is checked in a NEWVIEW. -/
def Node.sequenceOf (node : Node) (env : BznEnvelope) : UInt64 := (node.wire.pbftMsg.decode env.pbft).sequence

theorem maxCheckpointSequence_envelopesFromSenders (h : (l.map (·.sender)).Nodup) :
    node.maxCheckpointSequence ((envelopesFromSenders l).toList.map Prod.snd) = node.maxCheckpointSequence l := by
  refine foldl_max_congr fun n => ?_
  simp only [List.mem_map (l := l), List.mem_map (l := List.map _ _), envelopesFromSenders,
    Map.mem_values_foldl_insert_key h]

/-- The sequences of the pre-prepares in a valid NEWVIEW ascend, above the
greatest checkpoint of the VIEWCHANGE messages. -/
theorem ValidNewview.ascending (h : ValidNewview node outside p nv env) :
    (nv.prePrepareMessages.map node.sequenceOf).Pairwise (· < ·) ∧
      ∀ n ∈ nv.prePrepareMessages.map node.sequenceOf, n ≠ 0 - 1 ∧
        (node.maxCheckpointSequence nv.viewchangeMessages ≠ 0 - 1 →
          node.maxCheckpointSequence nv.viewchangeMessages < n) := by
  obtain ⟨ours, hours, hall⟩ := h.prePrepares
  obtain ⟨hash, m, rfl, hlast, hm⟩ := buildNewview_eq_ok hours
  rw [maxCheckpointSequence_envelopesFromSenders h.nodup] at hlast hm
  have hkey : ∀ e ∈ m.toList, node.sequenceOf e.2 = e.1 ∧ e.1 ≠ 0 - 1 ∧
      (node.maxCheckpointSequence nv.viewchangeMessages ≠ 0 - 1 →
        node.maxCheckpointSequence nv.viewchangeMessages < e.1) := by
    rintro ⟨i, pp⟩ he
    have hi := hm i
    rw [Map.mem_toList_iff.mp he] at hi
    generalize hp : proposalAt _ _ _ _ _ _ = proposal at hi
    cases hi with
    | some hwrap => exact ⟨by rw [Node.sequenceOf, hwrap.decode, (proposalAt_eq_some hp).2], proposalAt_bounds hp hlast⟩
  have hours : (m.toList.map Prod.snd).map node.sequenceOf = m.toList.map Prod.fst := by
    rw [List.map_map]
    exact List.map_congr_left fun e he => (hkey e he).1
  have htheirs : nv.prePrepareMessages.map node.sequenceOf = m.toList.map Prod.fst := by
    rw [← hours, ← List.forall₂_eq_eq_eq, List.forall₂_map_left_iff, List.forall₂_map_right_iff]
    refine List.Forall₂.flip (hall.imp fun a b hab => ?_)
    have hk := hab.key
    rw [PbftMsg.operationKey, PbftMsg.operationKey, OperationKey.mk.injEq] at hk
    exact hk.2.1.symm
  rw [htheirs]
  refine ⟨(Map.keys_pairwise m).imp fun {a b} hab => ?_, fun n hn => ?_⟩
  · exact compareOfLessAndEq_eq_lt.mp hab
  · obtain ⟨e, he, rfl⟩ := List.mem_map.mp hn
    exact (hkey e he).2

/-! ## When the number is fresh -/

/-- The numbers of a NEWVIEW go on where it ends: no VIEWCHANGE has the last
sequence there is, the last pre-prepare can be parsed, and without pre-prepares
the first VIEWCHANGE has the greatest checkpoint. -/
def Node.NumbersGoOn (node : Node) (nv : PbftMsg) : Prop :=
  node.maxCheckpointSequence nv.viewchangeMessages ≠ 0 - 1 ∧
    (∀ pp ∈ nv.prePrepareMessages.getLast?, (node.wire.pbftMsg.parse pp.pbft).isSome) ∧
    (nv.prePrepareMessages = [] → (node.viewchangeOf (nv.viewchangeMessages.headD default)).sequence =
      node.maxCheckpointSequence nv.viewchangeMessages)

theorem le_maxCheckpointSequence {vc : BznEnvelope} (h : vc ∈ l) :
    (node.viewchangeOf vc).sequence ≤ node.maxCheckpointSequence l :=
  (foldl_max_le_iff.mp UInt64.le_rfl).2 _ (List.mem_map_of_mem h)

/-- The number after a NEWVIEW is above all its pre-prepares and checkpoints. -/
def Node.FreshAfter (node : Node) (nv : PbftMsg) (next : UInt64) : Prop :=
  (∀ pp ∈ nv.prePrepareMessages, node.sequenceOf pp < next) ∧
    ∀ vc ∈ nv.viewchangeMessages, (node.viewchangeOf vc).sequence < next

theorem freshAfter_iff_checkpoint {next : UInt64} (hne : nv.viewchangeMessages ≠ []) :
    node.FreshAfter nv next ↔ (∀ pp ∈ nv.prePrepareMessages, node.sequenceOf pp < next) ∧
      node.maxCheckpointSequence nv.viewchangeMessages < next := by
  refine and_congr_right fun _ => ?_
  rw [Node.maxCheckpointSequence, foldl_max_lt_iff, List.forall_mem_map]
  refine ⟨fun h => ⟨?_, h⟩, And.right⟩
  obtain ⟨vc, hvc⟩ := List.exists_mem_of_ne_nil _ hne
  exact UInt64.lt_of_le_of_lt UInt64.zero_le (h vc hvc)

/-- Without pre-prepares, the number comes from the first VIEWCHANGE. -/
theorem freshAfter_of_none (hvcs : nv.viewchangeMessages ≠ []) (hpps : nv.prePrepareMessages = []) :
    node.FreshAfter nv (node.nextAfterNewview nv) ↔ node.NumbersGoOn nv := by
  obtain ⟨first, l, hl⟩ := List.exists_cons_of_ne_nil hvcs
  have hle : (node.viewchangeOf first).sequence ≤ node.maxCheckpointSequence nv.viewchangeMessages :=
    le_maxCheckpointSequence (hl ▸ List.mem_cons_self ..)
  have hnext : node.nextAfterNewview nv = (node.viewchangeOf first).sequence + 1 := by
    rw [Node.nextAfterNewview, hpps, hl]
    rfl
  rw [freshAfter_iff_checkpoint hvcs, hnext, Node.NumbersGoOn, hpps, hl]
  rw [hl] at hle
  constructor
  · rintro ⟨-, hlt⟩
    refine ⟨ne_last_of_lt hlt, fun pp hpp => (by cases hpp), fun _ => ?_⟩
    by_contra hne
    exact not_lt_add_one (UInt64.lt_of_le_of_ne hle hne) hlt
  · rintro ⟨htop, -, hfirst⟩
    replace hfirst : (node.viewchangeOf first).sequence = _ := hfirst rfl
    refine ⟨fun pp hpp => (by cases hpp), ?_⟩
    rw [← hfirst] at htop ⊢
    exact (lt_add_one_iff htop).mpr UInt64.le_rfl

theorem Node.nextAfterNewview_concat (hpps : nv.prePrepareMessages = l ++ [last])
    (hparse : (node.wire.pbftMsg.parse last.pbft).isSome) : node.nextAfterNewview nv = node.sequenceOf last + 1 := by
  obtain ⟨msg, hmsg⟩ := Option.isSome_iff_exists.mp hparse
  rw [nextAfterNewview, hpps, List.filterMap_append]
  simp only [List.filterMap_cons, hmsg, List.filterMap_nil, List.getLast?_concat, Node.sequenceOf,
    node.wire.pbftMsg.decode_of_parse hmsg]

section

variable (h : ValidNewview node outside p nv env)
include h

/-- If the last pre-prepare can be parsed, then the number is above all of them. -/
theorem ValidNewview.sequenceOf_lt
    (hparse : ∀ pp ∈ nv.prePrepareMessages.getLast?, (node.wire.pbftMsg.parse pp.pbft).isSome) :
    ∀ pp ∈ nv.prePrepareMessages, node.sequenceOf pp < node.nextAfterNewview nv := by
  intro pp hpp
  obtain ⟨hasc, hbounds⟩ := h.ascending
  rcases nv.prePrepareMessages.eq_nil_or_concat with hpps | ⟨l, last, hpps⟩
  · rw [hpps] at hpp
    cases hpp
  · rw [List.concat_eq_append] at hpps
    obtain ⟨hlast, -⟩ := hbounds (node.sequenceOf last) (List.mem_map_of_mem (by rw [hpps]; simp))
    rw [Node.nextAfterNewview_concat hpps (hparse last (by simp [hpps])), lt_add_one_iff hlast]
    rw [hpps, List.map_append, List.map_singleton, List.pairwise_append] at hasc
    rw [hpps] at hpp
    rcases List.mem_append.mp hpp with hpp | hpp
    · exact UInt64.le_of_lt (hasc.2.2 _ (List.mem_map_of_mem hpp) _ (List.mem_singleton_self _))
    · rw [List.mem_singleton.mp hpp]
      exact UInt64.le_rfl

/-- With pre-prepares, the number comes from the last one that can be parsed. -/
theorem freshAfter_of_some (hvcs : nv.viewchangeMessages ≠ []) (hpps : nv.prePrepareMessages = l ++ [last]) :
    node.FreshAfter nv (node.nextAfterNewview nv) ↔ node.NumbersGoOn nv := by
  obtain ⟨hasc, hbounds⟩ := h.ascending
  rw [hpps, List.map_append, List.map_singleton, List.pairwise_append] at hasc
  have hbelow : ∀ pp ∈ l, node.sequenceOf pp < node.sequenceOf last := fun pp hpp =>
    hasc.2.2 _ (List.mem_map_of_mem hpp) _ (List.mem_singleton_self _)
  obtain ⟨hlast, hmax⟩ := hbounds (node.sequenceOf last) (List.mem_map_of_mem (by rw [hpps]; simp))
  have hgoes : node.NumbersGoOn nv ↔ node.maxCheckpointSequence nv.viewchangeMessages ≠ 0 - 1 ∧
      (node.wire.pbftMsg.parse last.pbft).isSome := by
    simp [Node.NumbersGoOn, hpps]
  rw [freshAfter_iff_checkpoint hvcs, hgoes]
  cases hparse : node.wire.pbftMsg.parse last.pbft with
  | some =>
    have hsome : (node.wire.pbftMsg.parse last.pbft).isSome := by rw [hparse]; rfl
    rw [and_iff_left Option.isSome_some]
    refine ⟨fun hfresh => ne_last_of_lt hfresh.2, fun htop => ⟨h.sequenceOf_lt (by simpa [hpps] using hsome), ?_⟩⟩
    rw [Node.nextAfterNewview_concat hpps hsome, lt_add_one_iff hlast]
    exact UInt64.le_of_lt (hmax htop)
  | none =>
    -- the number is from an earlier pre-prepare or from the first VIEWCHANGE
    refine iff_of_false ?_ (by simp)
    rintro ⟨hpp, hcheckpoint⟩
    have hover := hpp last (by simp [hpps])
    rw [Node.nextAfterNewview, hpps, List.filterMap_append] at hover hcheckpoint
    simp only [List.filterMap_cons, hparse, List.filterMap_nil, List.append_nil] at hover hcheckpoint
    split at hover
    · rename_i msg hmsg
      obtain ⟨pp, hmem, hpparse⟩ := List.mem_filterMap.mp (List.mem_of_getLast? hmsg)
      refine not_lt_add_one ?_ hover
      rw [← node.wire.pbftMsg.decode_of_parse hpparse]
      exact hbelow pp hmem
    · rename_i hnone
      rw [hnone] at hcheckpoint
      obtain ⟨first, l', hl⟩ := List.exists_cons_of_ne_nil hvcs
      have hle : (node.viewchangeOf first).sequence ≤ node.maxCheckpointSequence nv.viewchangeMessages :=
        le_maxCheckpointSequence (hl ▸ List.mem_cons_self ..)
      refine not_lt_add_one (UInt64.lt_of_le_of_lt ?_ (hmax (ne_last_of_lt hcheckpoint))) hover
      rw [hl] at hle ⊢
      exact hle

theorem ValidNewview.viewchanges_ne_nil : nv.viewchangeMessages ≠ [] := by
  intro hnil
  have := h.enough
  rw [hnil] at this
  simp at this

theorem ValidNewview.freshAfter_iff : node.FreshAfter nv (node.nextAfterNewview nv) ↔ node.NumbersGoOn nv := by
  rcases nv.prePrepareMessages.eq_nil_or_concat with hpps | ⟨l, last, hpps⟩
  · exact freshAfter_of_none h.viewchanges_ne_nil hpps
  · exact freshAfter_of_some h h.viewchanges_ne_nil (hpps.trans List.concat_eq_append)

end

end

/-- After a valid NEWVIEW the next sequence number is above its pre-prepares and
its checkpoints exactly when its numbers go on where it ends. -/
theorem newview_numbers_fresh_iff (node : Node) (outside : Outside) (s : Replica) (nv : PbftMsg) (env : BznEnvelope)
    (hvalid : isValidNewviewMessage node outside s.pbft nv env = .ok true)
    (hreturns : (handleNewview node outside nv env).result s = .ok ()) :
    node.FreshAfter nv ((handleNewview node outside nv env).final s).pbft.nextIssuedSequenceNumber ↔
      node.NumbersGoOn nv := by
  rw [handleNewview_next hvalid hreturns]
  exact (isValidNewviewMessage_iff.mp hvalid).freshAfter_iff

/-! ## Two checkpoints -/

/-- A VIEWCHANGE for view 2 from a peer with a stable checkpoint. -/
def viewchangeAt (sender : String) (sequence : UInt64) : BznEnvelope :=
  sampleEnvelope sender { (default : PbftMsg) with
    type := .viewchange, view := 2, sequence := sequence,
    checkpointMessages := if sequence = 0 then [] else ["A", "B"].map (signedCheckpoint sequence) }

/-- The NEWVIEW of peers with these checkpoints. -/
def newviewAt (a b c : UInt64) : PbftMsg := sampleNewview [viewchangeAt "A" a, viewchangeAt "B" b, viewchangeAt "C" c]

theorem newview_numbers_fresh_first :
    let node := sampleNode fourPeers "A"
    let env := { (default : BznEnvelope) with sender := ascii "C" }
    node.FreshAfter (newviewAt 100 100 0)
      ((handleNewview node sampleOutside (newviewAt 100 100 0) env).final
        (sampleReplica node)).pbft.nextIssuedSequenceNumber :=
  (newview_numbers_fresh_iff (sampleNode fourPeers "A") sampleOutside (sampleReplica (sampleNode fourPeers "A"))
    (newviewAt 100 100 0) { (default : BznEnvelope) with sender := ascii "C" } (by decide +kernel)
    (by decide +kernel)).mpr (by unfold Node.NumbersGoOn; decide +kernel)

/-- The first VIEWCHANGE is from a peer that is behind: the number is below the
stable checkpoint of the second one. -/
theorem newview_numbers_behind :
    let node := sampleNode fourPeers "A"
    let env := { (default : BznEnvelope) with sender := ascii "C" }
    isValidNewviewMessage node sampleOutside (sampleReplica node).pbft (newviewAt 0 100 0) env = .ok true ∧
      (handleNewview node sampleOutside (newviewAt 0 100 0) env).result (sampleReplica node) = .ok () ∧
      ((handleNewview node sampleOutside (newviewAt 0 100 0) env).final
        (sampleReplica node)).pbft.nextIssuedSequenceNumber = 1 ∧
      (node.viewchangeOf (viewchangeAt "B" 100)).sequence = 100 ∧ ¬ node.FreshAfter (newviewAt 0 100 0) 1 := by
  have hbehind : ((sampleNode fourPeers "A").viewchangeOf (viewchangeAt "B" 100)).sequence = 100 := by decide +kernel
  refine ⟨by decide +kernel, by decide +kernel, by decide +kernel, hbehind, fun hfresh => ?_⟩
  have hlt := hfresh.2 (viewchangeAt "B" 100) (by simp [newviewAt, sampleNewview])
  rw [hbehind] at hlt
  exact absurd hlt (by decide)

end SwarmDb
