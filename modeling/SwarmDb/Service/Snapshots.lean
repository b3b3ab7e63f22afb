import SwarmDb.Service.ServiceRuns

/-!
# Snapshots of announced checkpoints

The handler that `pbft` registers announces each checkpoint sequence that was executed. The service takes a snapshot
only at `next_checkpoint`, which that handler moves on when it runs. `announced_saved` says when every announced
checkpoint has its snapshot.
-/

namespace SwarmDb.DatabaseService

open Lib Program

variable {ρ σ : Type} {s : DatabaseService ρ σ} {st : MemStorage}

/-- An announced checkpoint has its snapshot. -/
def AnnouncedSaved (before : List (ServiceEvent ρ)) : ServiceEvent ρ → Prop
  | .announced n => .saved n ∈ before
  | _ => True

/-- The handlers that are still to run have their snapshots as well. -/
structure Snapshotted (s : DatabaseService ρ σ) : Prop where
  announced : Justified AnnouncedSaved s.trace
  sequence : ∀ (n : UInt64) (op : ServiceOperation ρ), s.operationsAwaitingResult[n]? = some op → op.sequence = n
  posted : ∀ op ∈ s.posted, op.sequence % 100 = 0 → .saved op.sequence ∈ s.trace

/-- Of the sequences that the loop goes through from `first` on, over these
requests, only the one that is due is one of a checkpoint. -/
def OnlyDue (stored : UInt64 → Option Bytes) (first due : UInt64) : Prop :=
  ∀ k : Nat, (∀ i ≤ k, (stored (first + UInt64.ofNat i)).isSome) → (first + UInt64.ofNat k) % 100 = 0 →
    first + UInt64.ofNat k = due

/-- What the loop has done since a state: it went through stored requests, and
added none. -/
structure Gone (uuid : Uuid) (s₀ s : DatabaseService ρ σ) : Prop where
  next : ∃ k : Nat, s.nextRequestSequence = s₀.nextRequestSequence + UInt64.ofNat k ∧
    ∀ i < k, (s₀.stored uuid (s₀.nextRequestSequence + UInt64.ofNat i)).isSome
  stored : ∀ n, (s.stored uuid n).isSome → (s₀.stored uuid n).isSome
  due : s.nextCheckpoint = s₀.nextCheckpoint

theorem Gone.refl (uuid : Uuid) (s : DatabaseService ρ σ) : Gone uuid s s where
  next := ⟨0, by simp, fun _ h => (by cases h)⟩
  stored _ h := h
  due := rfl

variable {s₀ : DatabaseService ρ σ} {text : Bytes} {op : ServiceOperation ρ} {k last : Nat}

theorem Gone.round {uuid : Uuid} {s' : DatabaseService ρ σ} (h : Gone uuid s₀ s)
    (hstored : s.stored uuid s.nextRequestSequence = some text) (holds : s.RequestRemoved uuid st)
    (hstorage : s'.unstableStorage = st) (hnext : s'.nextRequestSequence = s.nextRequestSequence + 1)
    (hdue : s'.nextCheckpoint = s.nextCheckpoint) : Gone uuid s₀ s' where
  next := by
    obtain ⟨k, hk, hbelow⟩ := h.next
    refine ⟨k + 1, ?_, fun i hi => ?_⟩
    · rw [hnext, hk, UInt64.ofNat_add, UInt64.add_assoc]
      rfl
    · rcases Nat.lt_succ_iff_lt_or_eq.mp hi with hi | rfl
      · exact hbelow i hi
      · rw [← hk]
        exact h.stored _ (Option.isSome_of_eq_some hstored)
  stored n hn := by
    have hread : s'.stored uuid n = Function.update (s.stored uuid) s.nextRequestSequence none n := by
      rw [DatabaseService.stored, hstorage, holds.stored]
    rw [hread, Function.update_apply] at hn
    split at hn
    · cases hn
    · exact h.stored n hn
  due := hdue.trans h.due

/-- A checkpoint sequence that the loop is at is the one that is due. -/
theorem Gone.due_eq {uuid : Uuid} (h : Gone uuid s₀ s)
    (honly : OnlyDue (s₀.stored uuid) s₀.nextRequestSequence s₀.nextCheckpoint)
    (hstored : s.stored uuid s.nextRequestSequence = some text) (hmod : s.nextRequestSequence % 100 = 0) :
    s.nextRequestSequence = s.nextCheckpoint := by
  obtain ⟨k, hk, hbelow⟩ := h.next
  rw [hk] at hmod
  rw [h.due, hk]
  refine honly k (fun i hi => ?_) hmod
  rcases Nat.lt_or_eq_of_le hi with hi | rfl
  · exact hbelow i hi
  · rw [← hk]
    exact h.stored _ (Option.isSome_of_eq_some hstored)

theorem Snapshotted.handled (hs : Snapshotted s) {i : Nat} (hop : s.posted[i]? = some op) :
    Snapshotted (s.handled i op) := by
  have hmem : ∀ op' ∈ s.posted.eraseIdx i, op' ∈ s.posted := fun op' h => List.mem_of_mem_eraseIdx h
  rw [DatabaseService.handled]
  split
  · rename_i hmod
    exact ⟨justified_concat.mpr ⟨hs.announced, hs.posted op (List.mem_of_getElem? hop) hmod⟩, hs.sequence,
      fun op' hop' hmod' => List.mem_append_left _ (hs.posted op' (hmem op' hop') hmod')⟩
  · exact ⟨hs.announced, hs.sequence, fun op' hop' hmod' => hs.posted op' (hmem op' hop') hmod'⟩

variable [Inhabited ρ] {crud : CrudBase ρ σ} {uuid : Uuid}

/-- A snapshot is recorded only where it is due. -/
theorem due_of_mem_savedEvents {store : σ} {e : ServiceEvent ρ}
    (h : e ∈ s.savedEvents crud store) : s.nextRequestSequence = s.nextCheckpoint := by
  by_contra hne
  rw [savedEvents, dueSnapshot, if_neg hne] at h
  cases h

theorem Round.snapshotted {s' : DatabaseService ρ σ} (hsave : ∀ store, (crud.saveState store).isSome)
    (honly : OnlyDue (s₀.stored uuid) s₀.nextRequestSequence s₀.nextCheckpoint) (h : Round crud uuid s s')
    (hgone : Gone uuid s₀ s) (hs : Snapshotted s) : Gone uuid s₀ s' ∧ Snapshotted s' := by
  cases h with
  | skip _ _ _ stored _ _ holds =>
    refine ⟨hgone.round stored holds rfl rfl rfl, justified_concat.mpr ⟨hs.announced, trivial⟩, hs.sequence, ?_⟩
    exact fun op hop hmod => List.mem_append_left _ (hs.posted op hop hmod)
  | execute _ _ _ op store stored _ held _ holds =>
    refine ⟨hgone.round stored holds rfl rfl rfl, ?_, hs.sequence, fun op' hop' hmod => List.mem_append_left _ ?_⟩
    · refine justified_concat.mpr ⟨hs.announced.append fun before e he => ?_, trivial⟩
      rcases List.mem_cons.mp he with rfl | he
      · trivial
      · rw [eq_of_mem_savedEvents he]
        trivial
    · rcases List.mem_append.mp hop' with hop' | hop'
      · exact List.mem_append_left _ (hs.posted op' hop' hmod)
      · cases List.mem_singleton.mp hop'
        have hseq := hs.sequence _ op held
        rw [hseq] at hmod ⊢
        have hdue := hgone.due_eq honly stored hmod
        refine List.mem_append_right _ (List.mem_cons_of_mem _ ?_)
        rw [savedEvents, dueSnapshot, if_pos hdue, if_pos (hsave store)]
        exact List.mem_singleton_self _

theorem processAwaitingOperations_snapshotted
    (hsave : ∀ store, (crud.saveState store).isSome)
    (honly : OnlyDue (s.stored uuid) s.nextRequestSequence s.nextCheckpoint) (hs : Snapshotted s)
    (hr : (processAwaitingOperations crud uuid).result s = .ok ()) :
    Snapshotted ((processAwaitingOperations crud uuid).final s) := by
  have hrun : ∀ {s'}, Relation.ReflTransGen (Round crud uuid) s s' → Gone uuid s s' ∧ Snapshotted s' := by
    intro s' hrounds
    induction hrounds with
    | refl => exact ⟨.refl uuid s, hs⟩
    | tail _ hst ih => exact hst.snapshotted hsave honly ih.1 ih.2
  exact (hrun ((processAwaitingOperations_spec s trivial trivial).1 _ hr).1).2

/-! ## Runs -/

theorem OnlyDue.mono {stored stored' : UInt64 → Option Bytes} {first due : UInt64} (h : OnlyDue stored first due)
    (hsub : ∀ n, (stored' n).isSome → (stored n).isSome) : OnlyDue stored' first due :=
  fun k hk hmod => h k (fun i hi => hsub _ (hk i hi)) hmod

/-- The calls after which the loop goes through no checkpoint sequence but the
one that is due. -/
def DueCall (crud : CrudBase ρ σ) (uuid : Uuid) (s : DatabaseService ρ σ) : ServiceCall ρ → Prop
  | .apply op => OnlyDue (Function.update (s.stored uuid) op.sequence (some (crud.codec.serialize op.databaseMsg)))
      s.nextRequestSequence s.nextCheckpoint
  | .setState n _ => OnlyDue (s.stored uuid) (n + 1) s.nextCheckpoint
  | .runPosted _ => True

theorem Step.announced {Arrives : ServiceOperation ρ → Prop} {s' : DatabaseService ρ σ}
    (h : Step crud uuid Arrives s s') (hs : Justified AnnouncedSaved s.trace) : Justified AnnouncedSaved s'.trace := by
  cases h with
  | duplicate | accept | load => exact justified_concat.mpr ⟨hs, trivial⟩
  | round h =>
    cases h with
    | skip => exact justified_concat.mpr ⟨hs, trivial⟩
    | execute =>
      refine justified_concat.mpr ⟨hs.append fun before e he => ?_, trivial⟩
      rcases List.mem_cons.mp he with rfl | he
      · trivial
      · rw [eq_of_mem_savedEvents he]
        trivial
  | refuse => exact hs

theorem Left.announced {Calls : DatabaseService ρ σ → ServiceCall ρ → Prop}
    {trace : List (ServiceEvent ρ)} (h : Left crud uuid Calls s st trace) (hs : Justified AnnouncedSaved s.trace) :
    Justified AnnouncedSaved trace := by
  have hrun : ∀ {s₁}, Relation.ReflTransGen (Step crud uuid fun _ => True) s s₁ →
    Justified AnnouncedSaved s₁.trace := by
    intro s₁ hr
    induction hr with
    | refl => exact hs
    | tail _ hst ih => exact hst.announced ih
  obtain ⟨s₁, hr, -, htrace⟩ := h.of_step fun _ _ _ => trivial
  rcases htrace with rfl | ⟨op, rfl⟩ | ⟨caller, request, rfl⟩
  · exact hrun hr
  · exact justified_concat.mpr ⟨hrun hr, trivial⟩
  · exact justified_concat.mpr ⟨hrun hr, trivial⟩

theorem Snapshotted.apply (hs : Snapshotted s) (hsave : ∀ store, (crud.saveState store).isSome)
    (hdue : DueCall crud uuid s (.apply op)) (hr : (applyOperation crud uuid op).result s = .ok ()) :
    Snapshotted ((applyOperation crud uuid op).final s) := by
  rcases applyOperation_cases crud uuid op s with ⟨-, h⟩ | ⟨-, -, st, holds, h⟩ | ⟨-, what, h⟩
  · rw [final, h]
    exact ⟨justified_concat.mpr ⟨hs.announced, trivial⟩, hs.sequence,
      fun op' hop' hmod => List.mem_append_left _ (hs.posted op' hop' hmod)⟩
  · rw [result, h] at hr
    rw [final, h]
    have haccepted : Snapshotted (s.accepted op st) := by
      refine ⟨justified_concat.mpr ⟨hs.announced, trivial⟩, fun n op' hop' => ?_,
        fun op' hop' hmod => List.mem_append_left _ (hs.posted op' hop' hmod)⟩
      rw [accepted, Map.lookup_insert] at hop'
      split at hop'
      · rename_i heq
        cases hop'
        exact heq
      · exact hs.sequence n op' hop'
    have honly : OnlyDue ((s.accepted op st).stored uuid) s.nextRequestSequence s.nextCheckpoint :=
      OnlyDue.mono hdue fun n hn => by rwa [← holds.stored n]
    exact processAwaitingOperations_snapshotted hsave honly haccepted hr
  · rw [result, h] at hr
    cases hr

theorem Snapshotted.setState {n : UInt64} {data : Bytes} (hs : Snapshotted s)
    (hsave : ∀ store, (crud.saveState store).isSome) (hdue : DueCall crud uuid s (.setState n data))
    (hr : (ServiceCall.program crud uuid (.setState n data)).result s = .ok ()) :
    Snapshotted ((ServiceCall.program crud uuid (.setState n data)).final s) := by
  rw [ServiceCall.program] at hr ⊢
  obtain ⟨b, hb, -⟩ := result_bind_eq_ok hr
  rw [final_bind_ok hb, final_pure]
  rcases setServiceState_cases crud uuid n data s with ⟨-, h⟩ | ⟨-, -, h⟩ | ⟨-, -, -, h⟩ | ⟨-, -, -, st, holds, h⟩
  · rwa [final, h]
  · rw [final, h]
    exact ⟨hs.announced, hs.sequence, hs.posted⟩
  · rw [result, h] at hb
    cases hb
  · have hloaded : Snapshotted (s.loadedState n data (crud.loadState data s.store).2 st) :=
      ⟨justified_concat.mpr ⟨hs.announced, trivial⟩, hs.sequence,
        fun op' hop' hmod => List.mem_append_left _ (hs.posted op' hop' hmod)⟩
    have honly : OnlyDue ((s.loadedState n data (crud.loadState data s.store).2 st).stored uuid) (n + 1)
        s.nextCheckpoint := by
      refine OnlyDue.mono hdue fun m hm => ?_
      rw [stored, loadedState, holds.stored m] at hm
      split at hm
      · cases hm
      · exact hm
    rw [result, h] at hb
    obtain ⟨u, hu, -⟩ := result_bind_eq_ok hb
    rw [final, h, ← final, final_bind_ok hu]
    exact processAwaitingOperations_snapshotted hsave honly hloaded hu

/-- Every announced checkpoint has its snapshot, in a run whose calls go through
no checkpoint sequence but the one that is due, where snapshots succeed. -/
theorem announced_saved (hsave : ∀ store, (crud.saveState store).isSome) {s : DatabaseService ρ σ}
    (h : Reached crud uuid (DueCall crud uuid) (fun _ _ => True) s) {before after : List (ServiceEvent ρ)} {n : UInt64}
    (hannounced : s.trace = before ++ .announced n :: after) : .saved n ∈ before := by
  have hs : Snapshotted s := by
    clear hannounced
    induction h with
    | first st store nextIssued empty starts =>
      have hstart := (start_ok starts).1
      refine ⟨?_, fun n op hop => ?_, fun op hop => ?_⟩
      · rw [hstart.trace]
        exact justified_nil _
      · rw [hstart.operations] at hop
        cases hop
      · rw [hstart.posted] at hop
        cases hop
    | @call s c _ allowed returns ih =>
      cases c with
      | apply op => exact ih.apply hsave allowed returns
      | setState n data => exact ih.setState hsave allowed returns
      | runPosted i =>
        rw [program_runPosted_final]
        cases hop : s.posted[i]? with
        | none => exact ih
        | some op => exact ih.handled hop
    | restart _ left _ store nextIssued starts ih =>
      have hstart := (start_ok starts).1
      refine ⟨?_, fun n op hop => ?_, fun op hop => ?_⟩
      · rw [hstart.trace]
        exact left.announced ih.announced
      · rw [hstart.operations] at hop
        cases hop
      · rw [hstart.posted] at hop
        cases hop
  exact hs.announced before _ after hannounced

/-! ## Two runs -/

/-- A state for sequence 99 is loaded, the operation of sequence 100 arrives,
and its handler runs. -/
def idleHandled : DatabaseService Unit Unit :=
  (ServiceCall.program idleCrud [] (.runPosted 0)).final
    ((ServiceCall.program idleCrud [] (.apply (idleOperation 100))).final
      ((ServiceCall.program idleCrud [] (.setState 99 [])).final idleStart))

set_option maxRecDepth 4000 in
theorem announced_saved_first :
    ServiceEvent.saved 100 ∈ [.loaded 99, .applied (idleOperation 100), .executed 100 [] (), .saved 100,
      .passed 100 []] := by
  have hreached : Reached idleCrud [] (DueCall idleCrud []) (fun _ _ => True) idleHandled := by
    refine .call _ (.call _ (.call _ (idleStart_reached _ _) (fun k hk _ => ?_) rfl) (fun k hk _ => ?_) rfl) trivial rfl
    · exact absurd (hk 0 (Nat.zero_le k)) (by decide +kernel)
    · rcases Nat.eq_zero_or_pos k with rfl | hpos
      · rfl
      · exact absurd (hk 1 hpos) (by decide +kernel)
  have htrace : idleHandled.trace = [.loaded 99, .applied (idleOperation 100), .executed 100 [] (), .saved 100,
      .passed 100 []] ++ .announced 100 :: [] := by rfl
  exact announced_saved (fun _ => rfl) hreached htrace

/-- A service at `next` that holds the requests from `first` to `last`, has
executed the first `done` ones, and took no snapshot but at sequence 100. -/
structure Holding (next : UInt64) (first last done : Nat) (s : DatabaseService Unit Unit) : Prop where
  next : s.nextRequestSequence = next
  stored : ∀ n, s.stored [] n = if first ≤ n.toNat ∧ n.toNat ≤ last then some [] else none
  operations : ∀ n : UInt64, first ≤ n.toNat → n.toNat ≤ last →
    s.operationsAwaitingResult[n]? = some (idleOperation n)
  due : s.nextCheckpoint = 100
  posted : s.posted = (List.range' 1 done).map fun n => idleOperation (UInt64.ofNat n)
  saved : ∀ n, .saved n ∈ s.trace → n = 100

theorem toNat_ofNat_small (h : k ≤ 201) : (UInt64.ofNat k).toNat = k := by
  rw [UInt64.toNat_ofNat', Nat.mod_eq_of_lt (by omega)]

/-- An operation next to those that are held arrives. -/
theorem Holding.accept {s : DatabaseService Unit Unit} {next : UInt64} {first first' last' : Nat}
    (h : Holding next first last 0 s) (hk : k ≤ 201)
    (hrange : ∀ n, first' ≤ n ∧ n ≤ last' ↔ n = k ∨ (first ≤ n ∧ n ≤ last))
    (holds : HoldsRequests [] st (Function.update (s.stored []) (UInt64.ofNat k) (some [])) (s.persistedNext [])) :
    Holding next first' last' 0 (s.accepted (idleOperation (UInt64.ofNat k)) st) where
  next := h.next
  stored n := by
    refine (holds.stored n).trans ?_
    rw [Function.update_apply, h.stored]
    by_cases hn : n = UInt64.ofNat k
    · subst hn
      rw [if_pos rfl, toNat_ofNat_small hk, if_pos ((hrange k).mpr (.inl rfl))]
    · have hne : n.toNat ≠ k := fun he => hn (by rw [← he, UInt64.ofNat_toNat])
      simp only [if_neg hn, hrange n.toNat, hne, false_or]
  operations n h₁ h₂ := by
    rw [accepted, Map.lookup_insert]
    split
    · rename_i heq
      exact heq ▸ rfl
    · rename_i hne
      have hne' : n.toNat ≠ k := fun he => hne (by rw [← he, idleOperation, UInt64.ofNat_toNat])
      obtain ⟨h₁', h₂'⟩ := ((hrange n.toNat).mp ⟨h₁, h₂⟩).resolve_left hne'
      exact h.operations n h₁' h₂'
  due := h.due
  posted := h.posted
  saved n hn := h.saved n (by simpa [accepted] using hn)

/-- The next operation arrives, of those after the first one. -/
theorem Holding.later {s : DatabaseService Unit Unit} (h : Holding 1 2 last 0 s) (hfirst : 1 ≤ last)
    (hlast : last < 200) :
    ∃ s', (ServiceCall.program idleCrud [] (.apply (idleOperation (UInt64.ofNat (last + 1))))).runFrom s =
      (.ok (), s') ∧
      Holding 1 2 (last + 1) 0 s' := by
  have hround : ∀ s text, Holding 1 2 (last + 1) 0 s → s.stored [] s.nextRequestSequence = some text →
      ∃ s', (processRequest idleCrud [] text).runFrom s = (.ok (), s') ∧ Holding 1 2 (last + 1) 0 s' := by
    intro s text hs hstored
    rw [hs.next, hs.stored] at hstored
    cases hstored
  have hfree : s.stored [] (idleOperation (UInt64.ofNat (last + 1))).sequence = none := by
    rw [h.stored, idleOperation, toNat_ofNat_small (by omega), if_neg (by omega)]
  obtain ⟨s', hr, hs', -⟩ := applyOperation_total hround hfree (Nat.zero_le _)
    fun st holds => h.accept (by omega) (fun n => by omega) holds
  exact ⟨s', hr, hs'⟩

/-- A round of the loop. -/
theorem Holding.round {s : DatabaseService Unit Unit} (h : Holding (UInt64.ofNat k) k 200 (k - 1) s) (hpos : 1 ≤ k)
    (hk : k ≤ 201) (hstored : s.stored [] s.nextRequestSequence = some text) :
    ∃ s', (processRequest idleCrud [] text).runFrom s = (.ok (), s') ∧ k + 1 ≤ 201 ∧
      Holding (UInt64.ofNat (k + 1)) (k + 1) 200 k s' := by
  have hle : k ≤ 200 := by
    rw [h.stored] at hstored
    by_contra hgt
    rw [if_neg (by omega)] at hstored
    cases hstored
  have hop : s.operationsAwaitingResult[s.nextRequestSequence]? = some (idleOperation (UInt64.ofNat k)) := by
    rw [h.next]
    exact h.operations _ (by rw [toNat_ofNat_small hk]) (by rw [toNat_ofNat_small hk]; exact hle)
  refine ⟨_, idle_round hstored hop, by omega, ?_, fun n => ?_, fun n h₁ h₂ => ?_, h.due, ?_, fun n hn => ?_⟩
  · rw [UInt64.ofNat_add, ← h.next]
    rfl
  · refine ((requestRemoved [] s).stored n).trans ?_
    rw [Function.update_apply, h.stored, h.next]
    by_cases hn : n = UInt64.ofNat k
    · rw [if_pos hn, hn, toNat_ofNat_small hk, if_neg (by omega)]
    · have hne : n.toNat ≠ k := fun he => hn (by rw [← he, UInt64.ofNat_toNat])
      rw [if_neg hn]
      refine if_congr ?_ rfl rfl
      omega
  · exact h.operations n (by omega) h₂
  · obtain ⟨j, rfl⟩ := Nat.exists_eq_add_of_le' hpos
    rw [movedOn, executed, h.posted, List.range'_concat, Nat.add_comm j 1]
    simp
  · simp only [movedOn, executed, List.mem_append, List.mem_cons, List.not_mem_nil, reduceCtorEq, false_or,
      or_false] at hn
    rcases hn with hn | hn
    · exact h.saved n hn
    · have hdue := due_of_mem_savedEvents hn
      cases eq_of_mem_savedEvents hn
      exact hdue.trans h.due

/-- The first operation arrives, and all are executed. -/
theorem Holding.drain {s : DatabaseService Unit Unit} (h : Holding 1 2 200 0 s) :
    ∃ s', (ServiceCall.program idleCrud [] (.apply (idleOperation 1))).runFrom s = (.ok (), s') ∧
      s'.posted[199]? = some (idleOperation 200) ∧ ∀ n, .saved n ∈ s'.trace → n = 100 := by
  have hround : ∀ s text, (∃ k, 1 ≤ k ∧ k ≤ 201 ∧ Holding (UInt64.ofNat k) k 200 (k - 1) s) →
      s.stored [] s.nextRequestSequence = some text →
      ∃ s', (processRequest idleCrud [] text).runFrom s = (.ok (), s') ∧
        ∃ k, 1 ≤ k ∧ k ≤ 201 ∧ Holding (UInt64.ofNat k) k 200 (k - 1) s' := by
    rintro s text ⟨k, hpos, hk, hs⟩ hstored
    obtain ⟨s', hr, hk', hs'⟩ := hs.round hpos hk hstored
    exact ⟨s', hr, k + 1, by omega, hk', hs'⟩
  have hfree : s.stored [] (idleOperation 1).sequence = none := (h.stored 1).trans (if_neg (by decide))
  obtain ⟨s', hr, ⟨k, hpos, hk, hs'⟩, hend⟩ := applyOperation_total hround hfree (Nat.zero_le _)
    fun st holds => ⟨1, le_rfl, by decide, h.accept (k := 1) (by decide) (fun n => by omega) holds⟩
  refine ⟨s', hr, ?_, hs'.saved⟩
  have hk' : k = 201 := by
    rw [hs'.next, hs'.stored, toNat_ofNat_small hk] at hend
    by_contra hne
    rw [if_pos (by omega)] at hend
    cases hend
  subst hk'
  rw [hs'.posted]
  rfl

/-- The operations up to sequence 200 arrive, the first one last: sequence 200
is announced without a snapshot. -/
theorem announced_unsaved :
    ∃ s before, Reached idleCrud [] (fun _ _ => True) (fun _ _ => True) s ∧
      s.trace = before ++ [.announced 200] ∧ .saved 200 ∉ before := by
  have hlater : ∀ k, k ≤ 199 → ∃ s, Reached idleCrud [] (fun _ _ => True) (fun _ _ => True) s ∧
      Holding 1 2 (k + 1) 0 s := by
    intro k
    induction k with
    | zero =>
      have hrun : (start [] 1).runFrom (blank default () []) = (.ok (), idleStart) := rfl
      have hstart := (start_ok hrun).1
      refine fun _ => ⟨idleStart, idleStart_reached _ _, rfl, fun n => ?_, fun n h₁ h₂ => ?_, rfl, rfl, fun n hn => ?_⟩
      · rw [hstart.stored, MemStorage.read_default, if_neg (by omega)]
      · omega
      · rw [hstart.trace] at hn
        cases hn
    | succ k ih =>
      intro hk
      obtain ⟨s, hreached, hs⟩ := ih (by omega)
      obtain ⟨s', hr, hs'⟩ := hs.later (by omega) (by omega)
      exact ⟨s', hreached.of_run trivial hr, hs'⟩
  obtain ⟨s₁, hreached₁, hs₁⟩ := hlater 199 le_rfl
  obtain ⟨s₂, hrun₂, hposted, hsaved⟩ := hs₁.drain
  have hrun₃ : (ServiceCall.program idleCrud [] (.runPosted 199)).runFrom s₂ =
    (.ok (), s₂.handled 199 (idleOperation 200)) := by
    rw [ServiceCall.program, runPosted_run, hposted]
    rfl
  refine ⟨_, s₂.trace, (hreached₁.of_run trivial hrun₂).of_run trivial hrun₃, rfl, fun h => ?_⟩
  exact absurd (hsaved 200 h) (by decide)

end SwarmDb.DatabaseService
