import SwarmDb.Pbft.CheckpointEvidence
import SwarmDb.Pbft.CheckpointMonotone

/-!
# A checkpoint manager over the storage of another

The constructor reads the sub-keys of a partial proof in the other order than
they are written in: the text of the checkpoint as the sender, and the sender
as the text of a checkpoint. `checkpointRestart_iff` says which partial proofs
survive this.
-/

namespace SwarmDb

open Lib Program

/-! ## The first construction -/

/-- A manager over a storage without one: it starts without any message, and the
storage is in step with it. -/
theorem newCheckpointManager_first {p : Process} {m : CheckpointManager} (hp : p.FreeOf checkpointNames)
    (h : newCheckpointManager.result p = .ok m) :
    m = .initial ∧ Mirrors (newCheckpointManager.final p) m := by
  obtain ⟨stable, h₁, h⟩ := result_bind_eq_ok h
  obtain ⟨localCp, h₂, h⟩ := result_bind_eq_ok h
  obtain ⟨proof, h₃, h⟩ := result_bind_eq_ok h
  obtain ⟨partialProofs, h₄, h⟩ := result_bind_eq_ok h
  cases h
  rw [newCheckpointManager, final_bind_ok h₁, final_bind_ok h₂, final_bind_ok h₃, final_bind_ok h₄, final_pure]
  obtain ⟨rfl, hw₁⟩ := hp.persistent_ok (by decide) h₁
  generalize (persistent .checkpoint _ latestStableCheckpointKey []).final p = p₁ at *
  have hp₁ : p₁.FreeOf [latestLocalCheckpointKey, stableCheckpointProofKey, partialCheckpointProofsKey] :=
    (hp.mono (by decide)).writes hw₁ (by decide)
  obtain ⟨rfl, hw₂⟩ := hp₁.persistent_ok (by decide) h₂
  generalize (persistent .checkpoint _ latestLocalCheckpointKey []).final p₁ = p₂ at *
  have hp₂ : p₂.FreeOf [stableCheckpointProofKey, partialCheckpointProofsKey] :=
    (hp₁.mono (by decide)).writes hw₂ (by decide)
  have hh₃ : Holds p₂ .string stableCheckpointProofKey (fun u => [Conversion.string.toString u])
      fun u => (∅ : Map Uuid Bytes)[u]? := by
    simp only [Map.lookup_empty]
    exact hp₂.holds (by decide)
  obtain ⟨rfl, -, hf₃⟩ := (hh₃.initKvContainer_ok string_faithful string_faithful).1 proof h₃
  rw [hf₃] at h₄ ⊢
  have hh₄ : Holds p₂ .string partialCheckpointProofsKey
      (fun x : Uuid × Checkpoint => [Conversion.string.toString x.1, Conversion.checkpoint.toString x.2])
      fun x => Map.lookup2 (∅ : Map Checkpoint (Map Uuid Bytes)) x.2 x.1 := by
    simp only [Map.lookup2, Map.lookup_empty, Option.bind_none]
    exact hp₂.holds (by decide)
  obtain ⟨rfl, hf₄⟩ := ((hh₄.of_stored_eq (q := { p₂ with
    initializedContainers := stableCheckpointProofKey :: p₂.initializedContainers }) rfl).initKvContainer2_ok
    Map.noEmpty_empty string_faithful
    (Conversion.faithful_of_total Conversion.checkpoint_fromString) string_faithful).1 partialProofs h₄
  rw [hf₄]
  have hlocal : p₁.Frame [latestLocalCheckpointKey] (fun _ => True) p₂ :=
    .of_writes (List.mem_singleton_self _) hw₂
  refine ⟨rfl, ((Stored.writes hw₁).frame hlocal (by decide)).of_stored_eq rfl, (Stored.writes hw₂).of_stored_eq rfl,
    ⟨hh₃.of_stored_eq rfl, by simp⟩, ⟨?_, by simp⟩⟩
  simp only [Map.lookup2, Map.lookup_empty, Option.bind_none]
  exact (hp₂.holds (by decide)).of_stored_eq rfl

/-! ## The construction over the storage of a manager -/

section

variable {node : Node} {P : BznEnvelope → Prop} {p q : Process} {m : CheckpointManager}

/-- All but the partial proofs is read back, and changes nothing. -/
theorem newCheckpointManager_of_mirrors (h : Mirrors p m) (hq : q.stored = p.stored) :
    ∃ q', q'.stored = p.stored ∧ q'.lifetime = q.lifetime ∧ newCheckpointManager.runFrom q =
      (do
        let partialProofs ← initKvContainer2 .string .string .checkpoint partialCheckpointProofsKey
        pure { m with partialCheckpointProofs := partialProofs }).runFrom q' := by
  refine ⟨{ q with initializedContainers := stableCheckpointProofKey :: q.initializedContainers }, hq, rfl, ?_⟩
  have hproof := (h.proof.toHolds.of_stored_eq hq).initKvContainer_ok (k := .string) string_faithful string_faithful
  have hres := hproof.2 fun _ _ _ => ⟨rfl, rfl⟩
  have hrun : (initKvContainer .string .string stableCheckpointProofKey).runFrom q =
      (.ok m.latestStableCheckpointProof,
        { q with initializedContainers := stableCheckpointProofKey :: q.initializedContainers }) := by
    rw [runFrom_eq, hres, (hproof.1 _ hres).2.2]
  rw [newCheckpointManager, runFrom_bind,
    (h.stable.of_stored_eq hq).persistent_runFrom (Conversion.checkpoint_fromString _)]
  dsimp only
  rw [runFrom_bind, (h.localCp.of_stored_eq hq).persistent_runFrom (Conversion.checkpoint_fromString _)]
  dsimp only
  rw [runFrom_bind, hrun]

/-- The sub-keys of a partial proof as they are read. -/
theorem decodeSubkeys_partialSubkeys (cp : Checkpoint) (u : Uuid) (x : Uuid × Checkpoint) :
    decodeSubkeys .string .checkpoint (subkeyText partialCheckpointProofsKey
      (persistentKey partialCheckpointProofsKey (partialSubkeys (cp, u)))) = .ok x ↔
    x.1 = Conversion.checkpoint.toString cp ∧ Conversion.checkpoint.fromString u = .ok x.2 := by
  rw [partialSubkeys, decodeSubkeys_persistentKey]
  constructor
  · intro hx
    obtain ⟨a, ha, hx⟩ := except_bind_eq_ok.mp hx
    obtain ⟨b, hb, hx⟩ := except_bind_eq_ok.mp hx
    cases hx
    exact ⟨(Except.ok.inj ha).symm, hb⟩
  · rintro ⟨hfst, hsnd⟩
    exact except_bind_eq_ok.mpr ⟨_, rfl, except_bind_eq_ok.mpr ⟨_, hsnd, by rw [← hfst]; rfl⟩⟩

/-- The partial proofs as they are loaded: one entry for each that is stored,
with the text of the checkpoint as its sender. -/
theorem loadPartialProofs_ok (h : Mirrors p m) (hq : q.stored = p.stored)
    {l : List ((Uuid × Checkpoint) × Bytes)}
    (hl : (initializeContainer .string partialCheckpointProofsKey (decodeSubkeys .string .checkpoint)
      fun a => [Conversion.string.toString a.1, Conversion.checkpoint.toString a.2]).result q = .ok l) :
    (∀ cp u, (Map.lookup2 m.partialCheckpointProofs cp u).isSome → ∃ e ∈ l,
      e.1.1 = Conversion.checkpoint.toString cp ∧ Conversion.checkpoint.fromString u = .ok e.1.2) ∧
    (∀ e ∈ l, ∃ cp u, (Map.lookup2 m.partialCheckpointProofs cp u).isSome ∧
      e.1.1 = Conversion.checkpoint.toString cp ∧ Conversion.checkpoint.fromString u = .ok e.1.2 ∧
      e.2 = (Map.lookup2 m.partialCheckpointProofs cp (Conversion.checkpoint.toString e.1.2)).getD []) := by
  obtain ⟨hto, hfrom⟩ := initializeContainer_ok hl
  have hh := h.partialProofs.toHolds.of_stored_eq hq
  constructor
  · intro cp u hsome
    obtain ⟨e, he, hx, -⟩ := hto _ ((hh.mem_containerKeys_iff (x := (cp, u)) (List.cons_ne_nil _ _)).mpr hsome)
    exact ⟨e, he, (decodeSubkeys_partialSubkeys cp u e.1).mp hx⟩
  · intro e he
    obtain ⟨key, hmem, hx, hrb⟩ := hfrom e he
    obtain ⟨⟨cp, u⟩, rfl⟩ := hh.keys key hmem
    obtain ⟨hfst, hsnd⟩ := (decodeSubkeys_partialSubkeys cp u e.1).mp hx
    refine ⟨cp, u, (hh.mem_containerKeys_iff (List.cons_ne_nil _ _)).mp hmem, hfst, hsnd, ?_⟩
    -- the constructor looked for the sub-keys it had read
    have hkeys : [Conversion.string.toString e.1.1, Conversion.checkpoint.toString e.1.2] =
        partialSubkeys (cp, Conversion.checkpoint.toString e.1.2) := by rw [hfst]; rfl
    dsimp only at hrb
    rw [hkeys, ReadBack, hh.stored] at hrb
    cases hval : Map.lookup2 m.partialCheckpointProofs cp (Conversion.checkpoint.toString e.1.2) with
    | none =>
      rw [hval] at hrb
      rcases hrb with hrb | hrb
      · exact hrb
      · exact (Except.ok.inj hrb).symm
    | some =>
      rw [hval] at hrb
      exact (Except.ok.inj hrb).symm

/-- Each partial proof is filed under a sender that is the text of its
checkpoint. -/
def CheckpointManager.PartialProofsCanonical (m : CheckpointManager) : Prop :=
  ∀ cp u, (Map.lookup2 m.partialCheckpointProofs cp u).isSome → u = Conversion.checkpoint.toString cp

section

variable (h : Mirrors p m) (hsup : m.Supported node P) (hq : q.stored = p.stored)
include h hsup hq

/-- Where the sub-keys read the same in both orders, the partial proofs load. -/
theorem initKvContainer2_of_canonical (hcan : m.PartialProofsCanonical) :
    (initKvContainer2 .string .string .checkpoint partialCheckpointProofsKey).result q =
      .ok m.partialCheckpointProofs := by
  have hh := h.partialProofs.toHolds.of_stored_eq hq
  have hholds : Holds q .string partialCheckpointProofsKey
      (fun x : Uuid × Checkpoint => [Conversion.string.toString x.1, Conversion.checkpoint.toString x.2])
      fun x => Map.lookup2 m.partialCheckpointProofs x.2 x.1 := by
    have hkeys : ∀ key ∈ containerKeys q partialCheckpointProofsKey, ∃ cp,
        key = persistentKey partialCheckpointProofsKey
          (partialSubkeys (cp, Conversion.checkpoint.toString cp)) := by
      intro key hkey
      obtain ⟨⟨cp, u⟩, rfl⟩ := hh.keys key hkey
      rw [hcan cp u ((hh.mem_containerKeys_iff (List.cons_ne_nil _ _)).mp hkey)]
      exact ⟨cp, rfl⟩
    refine ⟨fun x => Option.ext fun v => ⟨fun hv => ?_, fun hv => ?_⟩, fun key hkey => ?_⟩
    · obtain ⟨cp, he⟩ := hkeys _ (mem_containerKeys.mpr
        ⟨by rw [hv]; rfl, (persistentKey_range _ _ _).mpr ⟨rfl, List.cons_ne_nil _ _⟩⟩)
      rw [he, hh.stored] at hv
      obtain ⟨h₁, h₂⟩ := List.cons_eq_cons.mp (persistentKey_inj he).2
      obtain rfl := Conversion.checkpoint_injective (List.cons_eq_cons.mp h₂).1
      rw [show x.1 = Conversion.checkpoint.toString x.2 from h₁]
      exact hv
    · obtain ⟨text, ht, -⟩ := Option.map_eq_some_iff.mp hv
      have hx := hcan x.2 x.1 (by rw [ht]; rfl)
      have hs := hh.stored (x.2, x.1)
      rw [partialSubkeys, ← hx] at hs
      rw [← hv, ← hx]
      exact hs
    · obtain ⟨cp, rfl⟩ := hkeys key hkey
      exact ⟨(Conversion.checkpoint.toString cp, cp), congrArg _ rfl⟩
  exact (hholds.initKvContainer2_ok hsup.noEmpty string_faithful
    (Conversion.faithful_of_total Conversion.checkpoint_fromString) string_faithful).2
    fun _ b _ _ => ⟨rfl, Conversion.checkpoint_fromString b, rfl⟩

/-- Partial proofs that load as they were have sub-keys that read the same in
both orders. -/
theorem canonical_of_initKvContainer2
    (hres : (initKvContainer2 .string .string .checkpoint partialCheckpointProofsKey).result q =
      .ok m.partialCheckpointProofs) : m.PartialProofsCanonical := by
  obtain ⟨l, hl, hfold⟩ := result_bind_eq_ok hres
  obtain ⟨hto, hfrom⟩ := loadPartialProofs_ok h hq hl
  -- the entries that are loaded are those of the manager
  have hlookup : ∀ b a, Map.lookup2 m.partialCheckpointProofs b a = (l.find? fun e => e.1 = (a, b)).map Prod.snd := by
    intro b a
    rw [← Except.ok.inj hfold, (Map.foldl_insertIfNew2 l ∅).1, Map.lookup2, Map.lookup_empty]
    rfl
  -- so a sender is read as the checkpoint it is filed under
  have hread : ∀ cp u, (Map.lookup2 m.partialCheckpointProofs cp u).isSome →
      Conversion.checkpoint.fromString u = .ok cp := by
    intro cp u hsome
    obtain ⟨e, he, hfst, hsnd⟩ := hto cp u hsome
    obtain ⟨e', he'⟩ : ∃ e', l.find? (fun e' => e'.1 = (Conversion.checkpoint.toString cp, e.1.2)) = some e' := by
      rw [← Option.isSome_iff_exists, List.find?_isSome]
      exact ⟨e, he, by rw [← hfst]; simp⟩
    have hkey : e'.1 = (Conversion.checkpoint.toString cp, e.1.2) := by simpa using List.find?_some he'
    obtain ⟨cp', u', hsome', hfst', -, hval⟩ := hfrom e' (List.mem_of_find?_eq_some he')
    have hcp : cp' = cp := Conversion.checkpoint_injective (by rw [← hfst', hkey])
    rw [hkey, hcp] at hval
    obtain ⟨env, henv, hsender, -, -⟩ := hsup.partialProofs e.1.2 (Conversion.checkpoint.toString cp) e'.2
      (by rw [hlookup, he']; rfl)
    cases ht : Map.lookup2 m.partialCheckpointProofs cp (Conversion.checkpoint.toString e.1.2) with
    | none =>
      -- an empty text is that of the message with an empty sender
      rw [ht, Option.getD_none, henv] at hval
      rw [Codec.eq_default_of_serialize_eq_nil _ hval] at hsender
      exact absurd hsender.symm (Conversion.checkpoint_toString_ne_nil cp)
    | some =>
      obtain ⟨env', henv', hsender', -, -⟩ := hsup.partialProofs _ _ _ ht
      rw [ht, Option.getD_some, henv', henv] at hval
      rw [Codec.serialize_injective _ hval, hsender'] at hsender
      rw [hsnd, Conversion.checkpoint_injective hsender]
  intro cp u hsome
  rw [hlookup, Option.isSome_map, List.find?_isSome] at hsome
  obtain ⟨e, he, hkey⟩ := hsome
  obtain ⟨cp', u', hsome', hfst, hsnd, -⟩ := hfrom e he
  have hcp := (hread cp' u' hsome').symm.trans hsnd
  simp only [decide_eq_true_eq] at hkey
  rw [hkey] at hfst hcp
  obtain rfl := Except.ok.inj hcp
  exact hfst

/-- The constructor over the storage of a manager yields the same manager
exactly when the partial proofs read the same in both orders. -/
theorem newCheckpointManager_eq_iff : newCheckpointManager.result q = .ok m ↔ m.PartialProofsCanonical := by
  obtain ⟨q', hq', -, hrun⟩ := newCheckpointManager_of_mirrors h hq
  have hres : newCheckpointManager.result q = (do
      let partialProofs ← initKvContainer2 .string .string .checkpoint partialCheckpointProofsKey
      pure { m with partialCheckpointProofs := partialProofs } : Program Fault Process CheckpointManager).result q' :=
    congrArg Prod.fst hrun
  rw [hres]
  constructor
  · intro hok
    obtain ⟨partialProofs, hpp, hm⟩ := result_bind_eq_ok hok
    have : partialProofs = m.partialCheckpointProofs :=
      congrArg CheckpointManager.partialCheckpointProofs (Except.ok.inj hm)
    exact canonical_of_initKvContainer2 h hsup hq' (this ▸ hpp)
  · intro hcan
    rw [result_bind_ok (initKvContainer2_of_canonical h hsup hq' hcan), result_pure]

end

end

/-! ## Runs -/

variable {s : CheckpointProcess}

/-- The calls of a run that return keep the storage in step and the texts on
record. -/
theorem stateAfter_mirrors {node : Node} {calls : List CheckpointCall} (hs : Mirrors s.toProcess s.manager)
    (hsup : s.manager.Supported node fun _ => True) (h : allReturn node s calls) :
    Mirrors (stateAfter node s calls).toProcess (stateAfter node s calls).manager ∧
    (stateAfter node s calls).manager.Supported node fun _ => True := by
  induction calls generalizing s with
  | nil => exact ⟨hs, hsup⟩
  | cons call _ ih =>
    unfold allReturn at h
    split at h
    · rename_i hcall
      obtain ⟨hman, hmir⟩ := call_endsAt hs call hcall
      refine ih (by rwa [hman]) ?_ h
      rw [hman]
      cases call with
      | handleCheckpointMessage => exact CheckpointManager.handled_supported hsup trivial
      | localCheckpointReached _ cp => exact CheckpointManager.reached_supported hsup cp
    · cases h

theorem checkpointProcessOver_manager (storage : MemStorage) :
    (checkpointProcessOver storage).map (·.manager) = newCheckpointManager.result (.start storage) := by
  rw [checkpointProcessOver, runFrom_eq]
  cases newCheckpointManager.result (.start storage) <;> rfl

/-- A manager that is built over an empty storage. -/
theorem checkpointProcessOver_default (h : checkpointProcessOver default = .ok s) :
    s.manager = .initial ∧ Mirrors s.toProcess s.manager := by
  rw [checkpointProcessOver, runFrom_eq] at h
  cases hm : newCheckpointManager.result (.start default) with
  | error => rw [hm] at h; cases h
  | ok =>
    rw [hm] at h
    cases h
    exact newCheckpointManager_first (.start _) hm

/-- A manager that was built over an empty storage and made calls that return:
the constructor over its storage yields the same manager exactly when each of
its partial proofs is filed under the text of its checkpoint. -/
theorem checkpointRestart_iff (node : Node) (s : CheckpointProcess) (calls : List CheckpointCall)
    (hs : checkpointProcessOver default = .ok s) (h : allReturn node s calls) :
    (checkpointProcessOver (stateAfter node s calls).storage).map (·.manager) =
        .ok (stateAfter node s calls).manager ↔
      (stateAfter node s calls).manager.PartialProofsCanonical := by
  obtain ⟨hinit, hmir⟩ := checkpointProcessOver_default hs
  obtain ⟨hmir', hsup⟩ := stateAfter_mirrors hmir (hinit ▸ CheckpointManager.initial_supported) h
  rw [checkpointProcessOver_manager]
  exact newCheckpointManager_eq_iff hmir' hsup rfl

/-- A message whose sender is the text of its checkpoint. -/
theorem checkpointRestart_ofCanonical :
    allReturn (sampleNode fourPeers "A") sampleManager [sampleCheckpointMessage "00000000000000000100_" 100] = true ∧
    ((checkpointProcessOver (stateAfter (sampleNode fourPeers "A") sampleManager
          [sampleCheckpointMessage "00000000000000000100_" 100]).storage).map (·.manager) =
        .ok (stateAfter (sampleNode fourPeers "A") sampleManager
          [sampleCheckpointMessage "00000000000000000100_" 100]).manager ↔
      (stateAfter (sampleNode fourPeers "A") sampleManager
        [sampleCheckpointMessage "00000000000000000100_" 100]).manager.PartialProofsCanonical) :=
  ⟨by decide +kernel, checkpointRestart_iff _ _ _ rfl (by decide +kernel)⟩

/-- After one message for a checkpoint, a manager over its storage throws. -/
theorem checkpointRestart_throws :
    checkpointProcessOver default = .ok sampleManager ∧
    allReturn (sampleNode fourPeers "A") sampleManager [sampleCheckpointMessage "B" 100] = true ∧
    ∀ manager, (checkpointProcessOver (stateAfter (sampleNode fourPeers "A") sampleManager
      [sampleCheckpointMessage "B" 100]).storage).map (·.manager) ≠ .ok manager := by
  refine ⟨rfl, by decide +kernel, fun manager h => ?_⟩
  have hthrow : ((checkpointProcessOver (stateAfter (sampleNode fourPeers "A") sampleManager
    [sampleCheckpointMessage "B" 100]).storage).map (·.manager)).toOption.isNone = true := by decide +kernel
  rw [h] at hthrow
  cases hthrow

end SwarmDb
