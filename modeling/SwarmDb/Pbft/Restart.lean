import SwarmDb.Pbft.Assignment

/-!
# A replica over the storage of another

A new process reads fewer texts than the one before has written: an accepted pre-prepare with a zero number or an empty
hash is not read, and a partial proof of a checkpoint is read with its sub-keys in the other order.
`restart_recovers_iff` says exactly when the new process starts; it then has the members that were stored.
-/

namespace SwarmDb

open Lib Program

/-- A new process over the storage of a replica starts with what the replica has stored. -/
def Replica.Recovers (node : Node) (s : Replica) : Prop :=
  ∃ s' p, replicaOver node none s.storage = (.ok s', p) ∧ s'.pbft.view = s.pbft.view ∧
    s'.pbft.viewIsValid = s.pbft.viewIsValid ∧ s'.pbft.lastViewSent = s.pbft.lastViewSent ∧
    s'.pbft.nextIssuedSequenceNumber = s.pbft.nextIssuedSequenceNumber ∧
    s'.pbft.acceptedPreprepares = s.pbft.acceptedPreprepares ∧
    s'.pbft.validViewchangeMessagesForView = s.pbft.validViewchangeMessagesForView

/-- The senders of the partial proofs can be read, as the texts of checkpoints; under the
key that this makes, an entry is found or can be put. -/
def CheckpointManager.PartialProofsLoad (m : CheckpointManager) : Prop :=
  ∀ cp u, (Map.lookup2 m.partialCheckpointProofs cp u).isSome → ∃ cp', Conversion.checkpoint.fromString u = .ok cp' ∧
    ((Map.lookup2 m.partialCheckpointProofs cp (Conversion.checkpoint.toString cp')).isSome ∨
      (persistentKey partialCheckpointProofsKey
        (partialSubkeys (cp, Conversion.checkpoint.toString cp'))).length ≤ maxKeySize)

/-- What the replica has stored can be read. -/
structure Replica.Loadable (s : Replica) : Prop where
  accepted : ∀ (lk : LogKey) (key : OperationKey), s.pbft.acceptedPreprepares[lk]? = some key →
    key.view ≠ 0 ∧ key.sequence ≠ 0 ∧ key.requestHash ≠ []
  partialProofs : s.manager.PartialProofsLoad

/-! ## Loading under other keys -/

/-- An entry is found under a key, or can be put there. -/
def Process.Offers (p : Process) (key : Bytes) : Prop := (p.stored key).isSome ∨ key.length ≤ maxKeySize

section

variable {κ : Type} {name : Bytes} {decode : Bytes → Except Fault κ} {encode : κ → List Bytes} {p q : Process}

/-- An entry that is put where it can be changes nothing about that. -/
theorem offers_create {key : Bytes} (hcreate : (p.storage.create stateUuid key []).1 = .ok) (key' : Bytes) :
    ({ p with storage := (p.storage.create stateUuid key []).2 } : Process).Offers key' ↔ p.Offers key' := by
  have hfits := ((MemStorage.create_result_iff _ _ _ _).mp hcreate).2.1
  simp only [Process.Offers, Process.stored, MemStorage.read_create hcreate]
  by_cases hkey : key = key'
  · subst hkey
    simp [hfits]
  · simp [hkey]

variable {ks : List Bytes}

/-- The constructor of a text, by a process that is not killed: it finds one or puts one. -/
theorem persistent_of_offers (hlife : p.lifetime = none) (hinit : name ∈ p.initializedContainers)
    (h : p.Offers (persistentKey name ks)) :
    ∃ t storage, (persistent .string default name ks).runFrom p = (.ok t, { p with storage := storage }) ∧
      ∀ key, ({ p with storage := storage } : Process).Offers key ↔ p.Offers key := by
  cases hstored : p.stored (persistentKey name ks) with
  | some text => exact ⟨text, p.storage, runFrom_persistent_stored .string default hinit hstored, fun _ => Iff.rfl⟩
  | none =>
    have hfits : (persistentKey name ks).length ≤ maxKeySize := h.resolve_left (by rw [hstored]; simp)
    have hcreate : (p.storage.create stateUuid (persistentKey name ks) []).1 = .ok :=
      (MemStorage.create_result_iff _ _ _ _).mpr ⟨Nat.zero_le _, hfits, hstored⟩
    exact ⟨[], _, runFrom_persistent_new .string default hlife hinit hstored hcreate, offers_create hcreate⟩

theorem offers_of_persistent {t : Bytes} (h : (persistent .string default name ks).result p = .ok t) :
    p.Offers (persistentKey name ks) := by
  simp only [persistent, result_read_bind] at h
  split at h
  · cases h
  · cases hstored : p.stored (persistentKey name ks) with
    | some => exact .inl (by rw [hstored]; rfl)
    | none =>
      rw [hstored] at h
      dsimp only at h
      split at h
      · rename_i hcreate
        exact .inr ((MemStorage.create_result_iff _ _ _ _).mp hcreate).2.1
      · cases h

/-- A stored key can be loaded: its sub-keys are read, and what they make is another
key under which there is an entry, or can be. -/
def Process.Loads (p : Process) (name : Bytes) (decode : Bytes → Except Fault κ) (encode : κ → List Bytes)
    (key : Bytes) : Prop :=
  ∃ k, decode (subkeyText name key) = .ok k ∧ p.Offers (persistentKey name (encode k))

/-- Loading a container of texts, by a process that is not killed. -/
theorem initializeContainer_loads (hlife : p.lifetime = none) :
    ((∀ key ∈ containerKeys p name, p.Loads name decode encode key) →
      ∃ l q, (initializeContainer .string name decode encode).runFrom p = (.ok l, q) ∧ q.lifetime = none) ∧
    ∀ l, (initializeContainer .string name decode encode).result p = .ok l →
      ∀ key ∈ containerKeys p name, p.Loads name decode encode key := by
  -- the loop goes on as it began: an entry that is put changes nothing about where others can be
  let I (q : Process) : Prop := q.lifetime = none ∧ name ∈ q.initializedContainers ∧ ∀ key, q.Offers key ↔ p.Offers key
  have hI : I { p with initializedContainers := name :: p.initializedContainers } :=
    ⟨hlife, List.mem_cons_self, fun _ => Iff.rfl⟩
  have hentry : ∀ q k, I q → p.Offers (persistentKey name (encode k)) →
      ∃ t q', (persistent .string default name (encode k)).runFrom q = (.ok t, q') ∧ I q' := by
    intro q k hq hoffers
    obtain ⟨t, storage, hrun, hsame⟩ := persistent_of_offers hq.1 hq.2.1 ((hq.2.2 _).mpr hoffers)
    exact ⟨t, _, hrun, hq.1, hq.2.1, fun key => (hsame key).trans (hq.2.2 key)⟩
  constructor
  · intro h
    obtain ⟨l, q, hrun, hq⟩ : ∃ l q, (initializeContainer .string name decode encode).runFrom p = (.ok l, q) ∧ I q := by
      refine collect_returns (fun key hkey q hq => ?_) hI
      obtain ⟨k, hk, hoffers⟩ := h key hkey
      obtain ⟨t, q', hrun, hq'⟩ := hentry q k hq hoffers
      refine ⟨(k, t), q', ?_, hq'⟩
      rw [runFrom_bind_ok ((runFrom_lift _ _).trans (by rw [hk])), runFrom_bind_ok hrun]
      rfl
    exact ⟨l, q, hrun, hq.1⟩
  · intro l hl key hkey
    have hall : List.Forall₂ (fun key _ => p.Loads name decode encode key) (containerKeys p name) l := by
      refine forall₂_of_collect (fun key q a hq ha => ?_) hI hl
      obtain ⟨k, hk, ha⟩ := result_bind_eq_ok ha
      obtain ⟨t, ht, -⟩ := result_bind_eq_ok ha
      have hoffers := (hq.2.2 _).mp (offers_of_persistent ht)
      obtain ⟨t', q', hrun, hq'⟩ := hentry q k hq hoffers
      refine ⟨⟨k, hk, hoffers⟩, ?_⟩
      rw [final_bind_ok hk, final_lift, final_bind_ok (congrArg Prod.fst hrun), final_pure, final, hrun]
      exact hq'
    obtain ⟨_, -, hloads⟩ := exists_of_forall₂ (R := fun _ key => p.Loads name decode encode key) hall.flip hkey
    exact hloads

end

/-! ## The checkpoint manager -/

section

variable {p q : Process} {m : CheckpointManager}

theorem partialProofs_load_iff (h : Mirrors p m) (hq : q.stored = p.stored) :
    (∀ key ∈ containerKeys q partialCheckpointProofsKey, q.Loads partialCheckpointProofsKey
      (decodeSubkeys .string .checkpoint)
      (fun x => [Conversion.string.toString x.1, Conversion.checkpoint.toString x.2]) key) ↔ m.PartialProofsLoad := by
  have hholds := h.partialProofs.toHolds.of_stored_eq hq
  have hoffers : ∀ cp text, q.Offers (persistentKey partialCheckpointProofsKey (partialSubkeys (cp, text))) ↔
      ((Map.lookup2 m.partialCheckpointProofs cp text).isSome ∨
        (persistentKey partialCheckpointProofsKey (partialSubkeys (cp, text))).length ≤ maxKeySize) := by
    intro cp text
    rw [Process.Offers, hholds.stored, Option.isSome_map]
  constructor
  · intro hload cp u hsome
    obtain ⟨⟨text, cp'⟩, hx, hoffer⟩ := hload _
      ((hholds.mem_containerKeys_iff (x := (cp, u)) (List.cons_ne_nil _ _)).mpr hsome)
    obtain ⟨htext, hread⟩ := (decodeSubkeys_partialSubkeys cp u _).mp hx
    dsimp only at htext hoffer
    rw [htext] at hoffer
    exact ⟨cp', hread, (hoffers cp _).mp hoffer⟩
  · intro hload key hkey
    obtain ⟨⟨cp, u⟩, rfl⟩ := hholds.keys key hkey
    obtain ⟨cp', hread, hoffer⟩ := hload cp u ((hholds.mem_containerKeys_iff (List.cons_ne_nil _ _)).mp hkey)
    exact ⟨(Conversion.checkpoint.toString cp, cp'), (decodeSubkeys_partialSubkeys cp u _).mpr ⟨rfl, hread⟩,
      (hoffers cp _).mpr hoffer⟩

/-- The constructor over the storage of a manager succeeds exactly when the partial proofs can be read. -/
theorem newCheckpointManager_loads (h : Mirrors p m) (hq : q.stored = p.stored) (hlife : q.lifetime = none) :
    (m.PartialProofsLoad → ∃ m' q', newCheckpointManager.runFrom q = (.ok m', q') ∧ q'.lifetime = none) ∧
    ∀ m', newCheckpointManager.result q = .ok m' → m.PartialProofsLoad := by
  obtain ⟨q₁, hq₁, hlife₁, hrun⟩ := newCheckpointManager_of_mirrors h hq
  have hcontainer := @initializeContainer_loads _ partialCheckpointProofsKey (decodeSubkeys .string .checkpoint)
    (fun x => [Conversion.string.toString x.1, Conversion.checkpoint.toString x.2]) q₁ (hlife₁.trans hlife)
  rw [partialProofs_load_iff h hq₁] at hcontainer
  refine ⟨fun hload => ?_, fun m' hm' => ?_⟩
  · obtain ⟨l, q', hl, hlife'⟩ := hcontainer.1 hload
    have hload' : (initKvContainer2 .string .string .checkpoint partialCheckpointProofsKey).runFrom q₁ = (.ok _, q') :=
      runFrom_bind_ok hl
    exact ⟨_, q', hrun.trans (runFrom_bind_ok hload'), hlife'⟩
  · rw [result, hrun] at hm'
    obtain ⟨partialProofs, hload, -⟩ := result_bind_eq_ok hm'
    obtain ⟨l, hl, -⟩ := result_bind_eq_ok hload
    exact hcontainer.2 l hl

end

/-! ## The replica -/

section

variable {node : Node} {p : Process} {b : Pbft} {s : Replica}

/-- Values that are stored are loaded, and nothing is written. -/
theorem newValues_runFrom (h : ValuesStored p b) :
    newValues.runFrom p = (.ok ⟨b.view, b.nextIssuedSequenceNumber, b.viewIsValid, b.lastViewSent⟩, p) := by
  rw [newValues, runFrom_bind_ok (h.view.persistent_runFrom (by simp)),
    runFrom_bind_ok (h.nextIssuedSequenceNumber.persistent_runFrom (by simp)),
    runFrom_bind_ok (h.viewIsValid.persistent_runFrom (by simp)),
    runFrom_bind_ok (h.lastViewSent.persistent_runFrom (by simp))]
  rfl

theorem emit_of_alive (e : Effect) (hlife : p.lifetime = none) : (emit e).result p = .ok () := by
  obtain ⟨storage, initializedContainers, log, lifetime⟩ := p
  subst hlife
  rfl

/-- The accepted pre-prepares can be read. -/
theorem accepted_readable_iff (hkey : ∀ (lk : LogKey) (key : OperationKey), b.acceptedPreprepares[lk]? = some key →
      lk = ⟨key.view, key.sequence⟩) :
    (∀ (lk : LogKey) (key : OperationKey), b.acceptedPreprepares[lk]? = some key →
      Conversion.logKey.ReadsBack lk ∧ Conversion.operationKey.ReadsBack key) ↔
    ∀ (lk : LogKey) (key : OperationKey), b.acceptedPreprepares[lk]? = some key →
      key.view ≠ 0 ∧ key.sequence ≠ 0 ∧ key.requestHash ≠ [] := by
  refine forall_congr' fun lk => forall_congr' fun key => imp_congr_right fun hlookup => ?_
  rw [hkey lk key hlookup, Conversion.ReadsBack, Conversion.ReadsBack, Conversion.logKey_fromString,
    Conversion.operationKey_fromString]
  constructor
  · rintro ⟨-, h⟩
    split at h
    · assumption
    · cases h
  · intro h
    rw [if_pos h, if_pos ⟨h.1, h.2.1⟩]
    exact ⟨rfl, rfl⟩

/-- The members after the checkpoint manager load exactly when the accepted pre-prepares can be read. -/
theorem newContainers_loads (h : Durable node p b) (hlife : p.lifetime = none) (hpeers : node.peers.current ≠ [])
    (v : FirstValues) (m : CheckpointManager) :
    (∃ r, (newContainers node v m).result p = .ok r) ↔
      ∀ (lk : LogKey) (key : OperationKey), b.acceptedPreprepares[lk]? = some key →
        key.view ≠ 0 ∧ key.sequence ≠ 0 ∧ key.requestHash ≠ [] := by
  rw [← accepted_readable_iff h.acceptedKey, newContainers, if_neg hpeers]
  have haccepted := h.accepted.initKvContainer_ok Conversion.logKey_faithful Conversion.operationKey_faithful
  constructor
  · rintro ⟨r, hr⟩
    obtain ⟨A, hA, -⟩ := result_bind_eq_ok hr
    exact (haccepted.1 A hA).2.1
  · intro hread
    have hA := haccepted.2 hread
    have hviewchanges := (h.viewchanges.of_stored_eq (q := { p with
      initializedContainers := acceptedPrepreparesKey :: p.initializedContainers }) rfl).initKvContainer2_ok h.noEmpty
      string_faithful (Conversion.faithful_of_total Conversion.uint64_fromString) (envelope_faithful node.wire)
    have hV := hviewchanges.2
      fun _ v env _ => ⟨rfl, Conversion.uint64_fromString v, Conversion.envelope_fromString node.wire env⟩
    rw [result_bind_ok hA, (haccepted.1 _ hA).2.2, result_bind_ok hV, (hviewchanges.1 _ hV).2]
    exact ⟨_, result_bind_ok (emit_of_alive _ hlife)⟩

/-- The replica is built again exactly when what it has stored can be read. -/
theorem newPbft_loads (hs : s.Consistent node) (hpeers : node.peers.current ≠ []) :
    (∃ r, (newPbft node).result (.start s.storage) = .ok r) ↔ s.Loadable := by
  have hstored : (Process.start s.storage).stored = s.toProcess.stored := rfl
  have hvalues : ValuesStored (.start s.storage) s.pbft :=
    ⟨hs.values.view.of_stored_eq hstored, hs.values.nextIssuedSequenceNumber.of_stored_eq hstored,
      hs.values.viewIsValid.of_stored_eq hstored, hs.values.lastViewSent.of_stored_eq hstored⟩
  have hdurable : Durable node (.start s.storage) s.pbft :=
    (Replica.Kept.durable (s := s) ⟨hs.values, hs.containers⟩).of_stored_eq hstored
  have hrun := newValues_runFrom hvalues
  have hv : newValues.result (.start s.storage) = .ok _ := congrArg Prod.fst hrun
  have hfinal : newValues.final (.start s.storage) = .start s.storage := congrArg Prod.snd hrun
  have hmanager := newCheckpointManager_loads hs.manager hstored rfl
  have hrest : ∀ m q, newCheckpointManager.runFrom (.start s.storage) = (.ok m, q) → Durable node q s.pbft := by
    intro m q hm
    have hf : (Process.start s.storage).Frame checkpointNames (fun _ => True)
        (newCheckpointManager.final (.start s.storage)) := newCheckpointManager_within _
    rw [final, hm] at hf
    exact hdurable.frame hf (by decide)
  rw [newPbft_eq, result_bind_ok hv, hfinal]
  constructor
  · rintro ⟨r, hr⟩
    obtain ⟨m, hm, hr⟩ := result_bind_eq_ok hr
    have hload := hmanager.2 m hm
    obtain ⟨m', q, hrunm, hlife⟩ := hmanager.1 hload
    rw [final, hrunm] at hr
    exact ⟨(newContainers_loads (hrest m' q hrunm) hlife hpeers _ m).mp ⟨r, hr⟩, hload⟩
  · rintro ⟨haccepted, hload⟩
    obtain ⟨m, q, hrunm, hlife⟩ := hmanager.1 hload
    obtain ⟨r, hr⟩ := (newContainers_loads (hrest m q hrunm) hlife hpeers _ m).mpr haccepted
    refine ⟨r, ?_⟩
    rw [result_bind_ok (congrArg Prod.fst hrunm), final, hrunm]
    exact hr

/-- A new process over the storage of a replica that is in step with it. -/
theorem recovers_iff (hs : s.Consistent node) (hpeers : node.peers.current ≠ []) : s.Recovers node ↔ s.Loadable := by
  rw [← newPbft_loads hs hpeers]
  have hdurable := Replica.Kept.durable (s := s) ⟨hs.values, hs.containers⟩
  constructor
  · rintro ⟨s', p, hr, -⟩
    obtain ⟨m, b, hn, -⟩ := replicaOver_eq_ok hr
    exact ⟨(m, b), hn⟩
  · rintro ⟨⟨m, b⟩, hr⟩
    have hover : replicaOver node none s.storage =
      (.ok ⟨⟨(newPbft node).final (.start s.storage), m⟩, startPbft node b⟩,
        (newPbft node).final (.start s.storage)) := by
      have hrun : (newPbft node).runFrom { Process.start s.storage with lifetime := none } =
          (.ok (m, b), (newPbft node).final (.start s.storage)) := Prod.ext hr rfl
      rw [replicaOver, hrun]
    have h := replicaOver_ok hdurable hover
    exact ⟨_, _, hover, h.view, h.viewIsValid, h.lastViewSent, h.nextIssuedSequenceNumber, h.acceptedPreprepares,
      h.validViewchangeMessagesForView⟩

theorem peers_of_replicaOver {lifetime : Option Nat} {storage : MemStorage}
    (h : replicaOver node lifetime storage = (.ok s, p)) : node.peers.current ≠ [] := by
  intro hpeers
  obtain ⟨m, b, hn, -⟩ := replicaOver_eq_ok h
  rw [newPbft_eq] at hn
  obtain ⟨v, -, hn⟩ := result_bind_eq_ok hn
  obtain ⟨m, -, hn⟩ := result_bind_eq_ok hn
  rw [newContainers, if_pos hpeers] at hn
  cases hn

end

/-! ## Runs -/

/-- A machine that starts over an empty storage and handles some events. -/
def Machine.serving (node : Node) (lifetime : Option Nat) (events : List (Outside × Event)) : Machine :=
  after node (.restart lifetime :: events.map fun e => .event e.1 e.2)

section

variable {node : Node} {lifetime : Option Nat} {events : List (Outside × Event)} {past : List Effect} {s : Replica}

theorem serving_concat (e : Outside × Event) : Machine.serving node lifetime (events ++ [e]) =
    (Machine.serving node lifetime events).happens node (.event e.1 e.2) := by
  rw [Machine.serving, List.map_append, ← List.cons_append, Machine.after, List.foldl_append]
  rfl

/-- What holds of a replica that starts for the first time, and is kept by every step, holds after the events;
the storage is in step with the replica as long as its process lives. -/
theorem serving_invariant {I : Replica → Prop}
    (hfirst : ∀ s : Replica, s.manager = .initial → node.peers.current ≠ [] → I s)
    (hstep : ∀ e ∈ events, ∀ s₀ s s', s.Consistent node → I s → Step node e.1 e.2 s₀ s s' → I s')
    (h : Machine.serving node lifetime events = .up past s) : s.Consistent node ∧ I s := by
  induction events using List.reverseRecOn generalizing past s with
  | nil =>
    have h : Machine.happens node .new (.restart lifetime) = .up past s := h
    unfold Machine.happens at h
    dsimp only at h
    split at h
    · rename_i s' q hr
      cases h
      exact (replicaOver_default hr).imp_right fun hs => hfirst _ hs (peers_of_replicaOver hr)
    · cases h
  | append_singleton events e ih =>
    rw [serving_concat] at h
    cases hm : Machine.serving node lifetime events with
    | down =>
      rw [hm] at h
      cases h
    | up =>
      have hs₀ := ih (fun e he => hstep e (List.mem_append_left _ he)) hm
      rw [hm] at h
      unfold Machine.happens at h
      dsimp only at h
      split at h
      · rename_i s' hrun
        cases h
        have hsteps := event_ok ⟨hs₀.1.values, hs₀.1.containers⟩ hrun
        clear hrun
        induction hsteps with
        | refl => exact hs₀
        | tail _ hst ih => exact ⟨hst.consistent ih.1, hstep e (by simp) _ _ _ ih.1 ih.2 hst⟩
      · cases h

/-- After any events, a new process over the storage of the replica starts with the same
members exactly when each accepted pre-prepare has no zero number and no empty hash, and
the senders of the partial proofs of checkpoints can be read as checkpoints. -/
theorem restart_recovers_iff (h : Machine.serving node lifetime events = .up past s) :
    s.Recovers node ↔ s.Loadable := by
  obtain ⟨hs, hpeers⟩ := serving_invariant (I := fun _ => node.peers.current ≠ []) (fun _ _ hpeers => hpeers)
    (fun _ _ _ _ _ _ hpeers _ => hpeers) h
  exact recovers_iff hs hpeers

end

/-- A pre-prepare of B for view 1. -/
def namedPreprepare (sequence : UInt64) (hash : Hash) : Event :=
  .message (namedEnvelope "B" (Wire.strict.pbftMsg.serialize { (default : PbftMsg) with
    type := .preprepare, view := 1, sequence := sequence, requestHash := hash })) none

/-- The checkpoint message of a peer. -/
def namedCheckpoint (sender : String) : Event :=
  .message { (default : BznEnvelope) with
    swarmId := ascii "swarm"
    sender := ascii sender
    payload := .checkpointMsg (Wire.strict.checkpointMsg.serialize ⟨100, ascii "h"⟩) } none

/-- A pre-prepare with a sequence and a hash comes back. -/
theorem restart_recovers_iff_preprepare :
    ∃ past s, Machine.serving (strictNode "A") none [(laterOutside, namedPreprepare 1 (ascii "h"))] = .up past s ∧
      s.pbft.acceptedPreprepares.toList = [(⟨1, 1⟩, ⟨1, 1, ascii "h"⟩)] ∧ s.Recovers (strictNode "A") := by
  have hheld : ((Machine.serving (strictNode "A") none [(laterOutside, namedPreprepare 1 (ascii "h"))]).replica?.map
      fun s => (s.pbft.acceptedPreprepares.toList, s.manager.partialCheckpointProofs.toList.map Prod.fst)) =
      some ([(⟨1, 1⟩, ⟨1, 1, ascii "h"⟩)], []) := by decide +kernel
  cases hm : Machine.serving (strictNode "A") none [(laterOutside, namedPreprepare 1 (ascii "h"))] with
  | down past p =>
    rw [hm] at hheld
    cases hheld
  | up past s =>
    rw [hm] at hheld
    obtain ⟨haccepted, hproofs⟩ := Prod.mk.inj (Option.some.inj hheld)
    refine ⟨past, s, rfl, haccepted, (restart_recovers_iff hm).mpr ⟨fun lk key hlookup => ?_, fun cp u hsome => ?_⟩⟩
    · rw [← Map.mem_toList_iff, haccepted, List.mem_singleton] at hlookup
      cases hlookup
      decide
    · rw [List.map_eq_nil_iff] at hproofs
      obtain ⟨text, htext⟩ := Option.isSome_iff_exists.mp hsome
      obtain ⟨proofs, hlookup, -⟩ := Option.bind_eq_some_iff.mp htext
      rw [← Map.mem_toList_iff, hproofs] at hlookup
      cases hlookup

/-- A machine over whose storage no process starts. -/
theorem not_recovers_of_throws {node : Node} {m : Machine}
    (h : (m.replica?.map fun s => (replicaOver node none s.storage).1.toOption.isNone) = some true) :
    ∃ past s, m = .up past s ∧ ¬ s.Recovers node := by
  cases m with
  | down => cases h
  | up past s =>
    refine ⟨past, s, rfl, ?_⟩
    rintro ⟨s', p, hr, -⟩
    have hnone : (replicaOver node none s.storage).1.toOption.isNone = true := Option.some.inj h
    rw [hr] at hnone
    cases hnone

/-- No process starts again after a pre-prepare with an empty hash, or with sequence 0, or after one message for a
checkpoint. -/
theorem restart_fails :
    (∃ past s, Machine.serving (strictNode "A") none [(laterOutside, namedPreprepare 1 [])] = .up past s ∧
      ¬ s.Recovers (strictNode "A")) ∧
    (∃ past s, Machine.serving (strictNode "A") none [(laterOutside, namedPreprepare 0 (ascii "h"))] = .up past s ∧
      ¬ s.Recovers (strictNode "A")) ∧
    ∃ past s, Machine.serving (strictNode "A") none [(laterOutside, namedCheckpoint "B")] = .up past s ∧
      ¬ s.Recovers (strictNode "A") := by
  refine ⟨not_recovers_of_throws ?_, not_recovers_of_throws ?_, not_recovers_of_throws ?_⟩
  · decide +kernel
  · decide +kernel
  · decide +kernel

end SwarmDb
