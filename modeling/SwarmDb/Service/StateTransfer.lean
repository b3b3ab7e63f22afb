import SwarmDb.Service.ServiceRuns

/-!
# A loaded state stands for the requests it covers

A replica that has executed a prefix of the committed requests loads the state that another one saved, and receives the
rest: it ends where a replica does that has executed all of them (`stateTransfer_iff`). `Caught` says of a replica in
between that its store is that of the requests it is past.
-/

namespace SwarmDb.DatabaseService

open Lib Program

variable {ρ σ : Type}

/-- The operation asks for what was committed at its sequence; its session may
differ. -/
structure Agrees (committed : UInt64 → ServiceOperation ρ) (op : ServiceOperation ρ) : Prop where
  requestHash : op.requestHash = (committed op.sequence).requestHash
  databaseMsg : op.databaseMsg = (committed op.sequence).databaseMsg
  sender : op.sender = (committed op.sequence).sender

/-- The committed requests up to `n`, in order. -/
structure CommittedUpTo (committed : UInt64 → ServiceOperation ρ) (n : Nat) (l : List (ServiceOperation ρ)) : Prop where
  sequences : l.map ServiceOperation.sequence = (List.range' 1 n).map UInt64.ofNat
  agrees : ∀ op ∈ l, Agrees committed op

variable {n : Nat} {l : List (ServiceOperation ρ)} {data : Bytes}

theorem CommittedUpTo.range {committed : UInt64 → ServiceOperation ρ} (h : CommittedUpTo committed n l)
    (hn : n < 2 ^ 64) (m : UInt64) : (∃ op ∈ l, op.sequence = m) ↔ 1 ≤ m.toNat ∧ m.toNat ≤ n := by
  have hmem : (∃ op ∈ l, op.sequence = m) ↔ m ∈ l.map ServiceOperation.sequence := by simp
  rw [hmem, h.sequences, List.mem_map]
  simp only [List.mem_range'_1]
  constructor
  · rintro ⟨i, hi, rfl⟩
    rw [UInt64.toNat_ofNat']
    omega
  · intro hm
    exact ⟨m.toNat, by omega, UInt64.ofNat_toNat⟩

theorem CommittedUpTo.split {committed : UInt64 → ServiceOperation ρ} (h : CommittedUpTo committed (n + 1) l) :
    ∃ l' op, l = l' ++ [op] ∧ CommittedUpTo committed n l' ∧ op.sequence = UInt64.ofNat (n + 1) ∧
      Agrees committed op := by
  have hseq := h.sequences
  rw [List.range'_concat, List.map_append, List.map_eq_append_iff] at hseq
  obtain ⟨l', l'', rfl, hl', hl''⟩ := hseq
  obtain ⟨op, rfl, hop⟩ := List.map_eq_singleton_iff.mp hl''
  rw [Nat.one_mul, Nat.add_comm 1 n] at hop
  exact ⟨l', op, rfl, ⟨hl', fun op' hop' => h.agrees op' (List.mem_append_left _ hop')⟩, hop, h.agrees op (by simp)⟩

/-- A service that has just started for the first time, with a store. -/
def Fresh (uuid : Uuid) (store : σ) (s : DatabaseService ρ σ) : Prop :=
  ∃ st nextIssued, (∀ key, st.read uuid key = none) ∧ (start uuid nextIssued).runFrom (blank st store []) = (.ok (), s)

theorem Fresh.started {uuid : Uuid} {store : σ} {s : DatabaseService ρ σ} (h : Fresh uuid store s) :
    s.nextRequestSequence = 1 ∧ s.store = store ∧ ∀ m, s.stored uuid m = none := by
  obtain ⟨st, nextIssued, hempty, hrun⟩ := h
  obtain ⟨hstart, -, hstore, -⟩ := start_ok hrun
  refine ⟨?_, hstore, fun m => (hstart.stored m).trans (hempty _)⟩
  rcases hstart.next with ⟨-, h⟩ | ⟨text, ht, -⟩
  · exact h
  · rw [hempty] at ht
    cases ht

variable [Inhabited ρ]

/-- The store after the first `n` committed requests. -/
def storeAfter (crud : CrudBase ρ σ) (handle : Uuid → ρ → σ → σ) (committed : UInt64 → ServiceOperation ρ) (store : σ) :
    Nat → σ
  | 0 => store
  | n + 1 =>
    let op := committed (UInt64.ofNat (n + 1))
    handle op.sender (crud.setRequestHash op.requestHash op.databaseMsg) (storeAfter crud handle committed store n)

/-- Operations that arrive one after the other. -/
def replay (crud : CrudBase ρ σ) (uuid : Uuid) (l : List (ServiceOperation ρ)) :
    Program Fault (DatabaseService ρ σ) Unit := forEach l (applyOperation crud uuid)

section Catching

variable {crud : CrudBase ρ σ} {handle : Uuid → ρ → σ → σ} {committed : UInt64 → ServiceOperation ρ} {store : σ}
  {uuid : Uuid} {t : Nat} {N : Prop} {s : DatabaseService ρ σ} {R : UInt64 → Prop} {k : Nat}

/-- A service past the first `k` requests of the first `t`, which has heard of
those in `R`. Where `N` holds, it holds no request that it is past. -/
structure Caught (crud : CrudBase ρ σ) (handle : Uuid → ρ → σ → σ) (committed : UInt64 → ServiceOperation ρ) (store : σ)
    (uuid : Uuid) (t : Nat) (N : Prop) (R : UInt64 → Prop) (k : Nat) (s : DatabaseService ρ σ) : Prop where
  next : s.nextRequestSequence = UInt64.ofNat (k + 1)
  le : k ≤ t
  store : s.store = storeAfter crud handle committed store k
  range : ∀ n, R n → 1 ≤ n.toNat ∧ n.toNat ≤ t
  known : ∀ n : UInt64, 1 ≤ n.toNat → n.toNat ≤ k → R n
  received : ∀ n, R n → k < n.toNat → (s.stored uuid n).isSome
  stored : ∀ n text, s.stored uuid n = some text → R n ∧ text.length ≤ maxValueSize ∧
    text = crud.codec.serialize (committed n).databaseMsg ∧
    ∃ op, s.operationsAwaitingResult[n]? = some op ∧ op.sequence = n ∧ Agrees committed op
  ahead : N → ∀ n, (s.stored uuid n).isSome → k < n.toNat

variable (h : Caught crud handle committed store uuid t N R k s)

include h

/-- The next request is executed and removed. -/
theorem Caught.moved {s' : DatabaseService ρ σ} (hnext : s.nextRequestSequence.toNat = k + 1)
    (hR : R s.nextRequestSequence) (hnext' : s'.nextRequestSequence = s.nextRequestSequence + 1)
    (hstore : s'.store = storeAfter crud handle committed store (k + 1))
    (hoperations : s'.operationsAwaitingResult = s.operationsAwaitingResult)
    (hread : ∀ n, s'.stored uuid n = Function.update (s.stored uuid) s.nextRequestSequence none n) :
    Caught crud handle committed store uuid t N R (k + 1) s' := by
  have heq : ∀ n : UInt64, n.toNat = k + 1 → n = s.nextRequestSequence := fun n hn =>
    UInt64.toNat_inj.mp (hn.trans hnext.symm)
  have hother : ∀ n, (s'.stored uuid n).isSome → n ≠ s.nextRequestSequence ∧ s'.stored uuid n = s.stored uuid n := by
    intro n hn
    rw [hread, Function.update_apply] at hn ⊢
    split at hn
    · cases hn
    · rename_i hne
      exact ⟨hne, if_neg hne⟩
  refine ⟨?_, ?_, hstore, h.range, fun n hpos hn => ?_, fun n hn hk => ?_, fun n text hn => ?_, fun hN n hn => ?_⟩
  · rw [hnext', h.next, UInt64.ofNat_add (k + 1) 1]
    rfl
  · have := (h.range _ hR).2
    omega
  · rcases Nat.lt_or_eq_of_le hn with hn | hn
    · exact h.known n hpos (by omega)
    · exact heq n hn ▸ hR
  · have hne : n ≠ s.nextRequestSequence := by
      rintro rfl
      omega
    rw [hread, Function.update_of_ne hne]
    exact h.received n hn (by omega)
  · have hsame := (hother n (Option.isSome_of_eq_some hn)).2
    rw [hoperations]
    exact h.stored n text (hsame.symm.trans hn)
  · obtain ⟨hne, hsame⟩ := hother n hn
    rw [hsame] at hn
    have hlt := h.ahead hN n hn
    have : n.toNat ≠ k + 1 := fun he => hne (heq n he)
    omega

variable {op : ServiceOperation ρ} {st : MemStorage} {data : Bytes}

/-- An operation arrives, and its request is stored. -/
theorem Caught.accept (hagrees : Agrees committed op) (hrange : 1 ≤ op.sequence.toNat ∧ op.sequence.toNat ≤ t)
    (hahead : N → k < op.sequence.toNat) (fits : (crud.codec.serialize op.databaseMsg).length ≤ maxValueSize)
    (holds : HoldsRequests uuid st
      (Function.update (s.stored uuid) op.sequence (some (crud.codec.serialize op.databaseMsg)))
      (s.persistedNext uuid)) :
    Caught crud handle committed store uuid t N (fun n => R n ∨ op.sequence = n) k (s.accepted op st) := by
  have hread : ∀ n, (s.accepted op st).stored uuid n =
      if n = op.sequence then some (crud.codec.serialize op.databaseMsg) else s.stored uuid n := fun n =>
    (holds.stored n).trans (Function.update_apply ..)
  refine ⟨h.next, h.le, h.store, ?_, fun n hpos hn => .inl (h.known n hpos hn), ?_, fun n text hn => ?_,
    fun hN n hn => ?_⟩
  · rintro n (hn | rfl)
    · exact h.range n hn
    · exact hrange
  · intro n hn hlt
    rw [hread]
    split
    · rfl
    · rename_i hne
      exact h.received n (hn.resolve_right (Ne.symm hne)) hlt
  · rw [hread] at hn
    rw [accepted, Map.lookup_insert]
    split at hn
    · rename_i heq
      subst heq
      cases hn
      exact ⟨.inr rfl, fits, by rw [hagrees.databaseMsg], op, if_pos rfl, rfl, hagrees⟩
    · rename_i hne
      obtain ⟨hR, hlen, htext, hop⟩ := h.stored n text hn
      rw [if_neg (Ne.symm hne)]
      exact ⟨.inl hR, hlen, htext, hop⟩
  · rw [hread] at hn
    split at hn
    · rename_i heq
      exact heq ▸ hahead hN
    · exact h.ahead hN n hn

/-- A state is loaded that covers the requests up to `n`. -/
theorem Caught.load {n : UInt64} (hk : k < n.toNat) (hn : n.toNat ≤ t) (hnext : s.nextRequestSequence.toNat = k + 1)
    (holds : HoldsRequests uuid st
      (fun m => if s.nextRequestSequence ≤ m ∧ m ≤ n then none else s.stored uuid m) (s.persistedNext uuid)) :
    Caught crud handle committed store uuid t N (fun m => R m ∨ (1 ≤ m.toNat ∧ m.toNat ≤ n.toNat)) n.toNat
      (s.loadedState n data (storeAfter crud handle committed store n.toNat) st) := by
  have hread : ∀ m, (s.loadedState n data (storeAfter crud handle committed store n.toNat) st).stored uuid m =
      if k < m.toNat ∧ m.toNat ≤ n.toNat then none else s.stored uuid m := by
    intro m
    refine (holds.stored m).trans (if_congr ?_ rfl rfl)
    rw [UInt64.le_iff_toNat_le, UInt64.le_iff_toNat_le]
    omega
  refine ⟨?_, hn, rfl, ?_, fun m hpos hm => .inr ⟨hpos, hm⟩, fun m hm hlt => ?_, fun m text hm => ?_, fun hN m hm => ?_⟩
  · rw [UInt64.ofNat_add, UInt64.ofNat_toNat]
    rfl
  · rintro m (hm | hm)
    · exact h.range m hm
    · exact ⟨hm.1, hm.2.trans hn⟩
  · rw [hread, if_neg (by omega)]
    exact h.received m (hm.resolve_right (by omega)) (by omega)
  · rw [hread] at hm
    split at hm
    · cases hm
    · obtain ⟨hR, hrest⟩ := h.stored m text hm
      exact ⟨.inl hR, hrest⟩
  · rw [hread] at hm
    split at hm
    · cases hm
    · have := h.ahead hN m hm
      omega

theorem Caught.weaken {N' : Prop} (hN : N' → N) :
    Caught crud handle committed store uuid t N' R k s :=
  ⟨h.next, h.le, h.store, h.range, h.known, h.received, h.stored, fun hN' => h.ahead (hN hN')⟩

/-- A service is past no more than it has heard of. -/
theorem Caught.le_of_known {n : Nat} (ht : t < 2 ^ 64) (hR : ∀ m, R m → m.toNat ≠ n + 1) :
    k ≤ n := by
  by_contra hlt
  have hle := h.le
  have htoNat : (UInt64.ofNat (n + 1)).toNat = n + 1 := by
    rw [UInt64.toNat_ofNat', Nat.mod_eq_of_lt (by omega)]
  exact hR _ (h.known (UInt64.ofNat (n + 1)) (by omega) (by omega)) htoNat

/-- A service that has heard of all requests from some point on, and whose next
request is not there, is past all of them. -/
theorem Caught.done (k₀ : Nat) (ht : t < 2 ^ 64)
    (hsettled : s.stored uuid s.nextRequestSequence = none) (hk : k₀ ≤ k)
    (hall : ∀ n : UInt64, k₀ < n.toNat → n.toNat ≤ t → R n) : k = t := by
  by_contra hne
  have hle := h.le
  have htoNat : (UInt64.ofNat (k + 1)).toNat = k + 1 := by
    rw [UInt64.toNat_ofNat', Nat.mod_eq_of_lt (by omega)]
  have hR := hall (UInt64.ofNat (k + 1)) (by omega) (by omega)
  have hstored := h.received _ hR (by omega)
  rw [← h.next, hsettled] at hstored
  cases hstored

variable (hhandle : ∀ caller request session store,
  (crud.handleRequest caller request session).runFrom store = (.ok (), handle caller request store))
variable (ht : t < 2 ^ 64)

include hhandle ht

/-- A round of the loop. -/
theorem Caught.round {text : Bytes} (hstored : s.stored uuid s.nextRequestSequence = some text) :
    ∃ s', (processRequest crud uuid text).runFrom s = (.ok (), s') ∧
      Caught crud handle committed store uuid t N R (k + 1) s' := by
  obtain ⟨hR, -, htext, op, hop, hseq, hagrees⟩ := h.stored _ _ hstored
  have hrange := h.range _ hR
  have hle := h.le
  have hnext : s.nextRequestSequence.toNat = k + 1 := by
    rw [h.next, UInt64.toNat_ofNat'] at hrange ⊢
    omega
  have hrun : (processRequest crud uuid text).runFrom s = (.ok (),
      (s.executed crud op (committed s.nextRequestSequence).databaseMsg
        (handle op.sender (crud.setRequestHash op.requestHash (committed s.nextRequestSequence).databaseMsg)
          s.store)).movedOn text (s.removedStorage uuid)) := by
    rw [processRequest_run hstored, htext, Codec.parse_serialize, hop]
    dsimp only
    rw [hhandle]
  refine ⟨_, hrun, h.moved hnext hR rfl ?_ rfl (requestRemoved uuid s).stored⟩
  rw [hagrees.sender, hagrees.requestHash, hseq, h.store, h.next]
  rfl

/-- After a call that runs the loop, the next request is not there. -/
theorem Caught.loop :
    ∃ s', (processAwaitingOperations crud uuid).runFrom s = (.ok (), s') ∧
      (∃ k', k ≤ k' ∧ Caught crud handle committed store uuid t N R k' s') ∧
      s'.stored uuid s'.nextRequestSequence = none := by
  refine processAwaitingOperations_total (fun s text hs hstored => ?_) s ⟨k, le_rfl, h⟩
  obtain ⟨k', hk', hs⟩ := hs
  obtain ⟨s', hr, hs'⟩ := hs.round hhandle ht hstored
  exact ⟨s', hr, k' + 1, by omega, hs'⟩

/-- An operation arrives; the call returns if its request can be stored. -/
theorem Caught.apply (hsettled : s.stored uuid s.nextRequestSequence = none) (hagrees : Agrees committed op)
    (hrange : 1 ≤ op.sequence.toNat ∧ op.sequence.toNat ≤ t) (hahead : N → k < op.sequence.toNat) :
    ((crud.codec.serialize op.databaseMsg).length ≤ maxValueSize ∧
      ∃ s', (applyOperation crud uuid op).runFrom s = (.ok (), s') ∧
        (∃ k', k ≤ k' ∧ Caught crud handle committed store uuid t N (fun n => R n ∨ op.sequence = n) k' s') ∧
        s'.stored uuid s'.nextRequestSequence = none) ∨
    (maxValueSize < (crud.codec.serialize op.databaseMsg).length ∧
      ∃ e s', (applyOperation crud uuid op).runFrom s = (.error e, s')) := by
  rcases applyOperation_cases crud uuid op s with ⟨taken, hr⟩ | ⟨free, fits, st, holds, hr⟩ | ⟨large, what, hr⟩
  · obtain ⟨text, htext⟩ := Option.isSome_iff_exists.mp taken
    obtain ⟨hR, hlen, heq, -⟩ := h.stored _ _ htext
    have hsame : (fun n => R n ∨ op.sequence = n) = R := by
      funext n
      exact propext ⟨fun hn => hn.elim id fun he => he ▸ hR, .inl⟩
    rw [hsame]
    refine .inl ⟨by rw [hagrees.databaseMsg, ← heq]; exact hlen, _, hr, ⟨k, le_rfl, ?_⟩, hsettled⟩
    exact ⟨h.next, h.le, h.store, h.range, h.known, h.received, h.stored, h.ahead⟩
  · refine .inl ⟨fits, ?_⟩
    rw [hr]
    exact (h.accept hagrees hrange hahead fits holds).loop hhandle ht
  · exact .inr ⟨large, _, _, hr⟩

/-- A state arrives that was saved after request `n`. -/
theorem Caught.setState {n : UInt64} (hsettled : s.stored uuid s.nextRequestSequence = none) (hk : k + 1 < 2 ^ 64)
    (hn : n.toNat ≤ t) (hends : n ≠ 0 - 1)
    (hload : crud.loadState data s.store = (true, storeAfter crud handle committed store n.toNat)) :
    ∃ s', (setServiceState crud uuid n data).runFrom s = (.ok true, s') ∧
      (∃ k', k ≤ k' ∧ n.toNat ≤ k' ∧ Caught crud handle committed store uuid t N
        (fun m => R m ∨ (1 ≤ m.toNat ∧ m.toNat ≤ n.toNat)) k' s') ∧
      s'.stored uuid s'.nextRequestSequence = none := by
  have hnext : s.nextRequestSequence.toNat = k + 1 := by
    rw [h.next, UInt64.toNat_ofNat', Nat.mod_eq_of_lt hk]
  rcases setServiceState_cases crud uuid n data s with
    ⟨hlt, hr⟩ | ⟨-, hfails, -⟩ | ⟨-, -, hlast, -⟩ | ⟨ahead, -, -, st, holds, hr⟩
  · have hle : n.toNat ≤ k := by
      rw [UInt64.lt_iff_toNat_lt] at hlt
      omega
    have hsame : (fun m => R m ∨ (1 ≤ m.toNat ∧ m.toNat ≤ n.toNat)) = R := by
      funext m
      exact propext ⟨fun hm => hm.elim id fun hm => h.known m hm.1 (by omega), .inl⟩
    rw [hsame]
    exact ⟨s, hr, ⟨k, le_rfl, hle, h⟩, hsettled⟩
  · rw [hload] at hfails
    cases hfails
  · exact absurd hlast hends
  · rw [UInt64.le_iff_toNat_le, hnext] at ahead
    rw [hload] at hr
    obtain ⟨s', hloop, ⟨k', hk', hs'⟩, hend⟩ := (h.load ahead hn hnext holds).loop hhandle ht
    rw [hr, runFrom_bind, hloop]
    exact ⟨s', rfl, ⟨k', by omega, hk', hs'⟩, hend⟩

omit h in
/-- Operations that arrive in any order. -/
theorem Caught.replay {l : List (ServiceOperation ρ)}
    (h : Caught crud handle committed store uuid t False R k s)
    (hsettled : s.stored uuid s.nextRequestSequence = none)
    (hl : ∀ op ∈ l, Agrees committed op ∧ (1 ≤ op.sequence.toNat ∧ op.sequence.toNat ≤ t) ∧
      (crud.codec.serialize op.databaseMsg).length ≤ maxValueSize) :
    ∃ s', (replay crud uuid l).runFrom s = (.ok (), s') ∧
      (∃ k', k ≤ k' ∧ Caught crud handle committed store uuid t False
        (fun n => R n ∨ ∃ op ∈ l, op.sequence = n) k' s') ∧
      s'.stored uuid s'.nextRequestSequence = none := by
  induction l generalizing R k s with
  | nil => exact ⟨s, rfl, ⟨k, le_rfl, by simpa using h⟩, hsettled⟩
  | cons op l ih =>
    obtain ⟨hagrees, hrange, hfits⟩ := hl op List.mem_cons_self
    rcases h.apply hhandle ht hsettled hagrees hrange False.elim with ⟨-, s₁, hr, ⟨k₁, hk₁, hs₁⟩, hend⟩ | ⟨hlarge, -⟩
    · obtain ⟨s', hr', ⟨k', hk', hs'⟩, hend'⟩ := ih hs₁ hend fun op' hop' => hl op' (List.mem_cons_of_mem _ hop')
      refine ⟨s', ?_, ⟨k', by omega, ?_⟩, hend'⟩
      · rw [DatabaseService.replay, forEach, runFrom_bind, hr]
        exact hr'
      · convert hs' using 1
        funext n
        rw [List.exists_mem_cons_iff, or_assoc]
    · omega

end Catching

/-! ## Replicas -/

section Replicas

variable {crud : CrudBase ρ σ} {handle : Uuid → ρ → σ → σ} {committed : UInt64 → ServiceOperation ρ} {store : σ}
  {uuid : Uuid} {t : Nat}

variable {s : DatabaseService ρ σ}

theorem Fresh.caught (h : Fresh uuid store s) :
    Caught crud handle committed store uuid t True (fun m => 1 ≤ m.toNat ∧ m.toNat ≤ 0) 0 s := by
  obtain ⟨hnext, hstore, hnone⟩ := h.started
  refine ⟨hnext, Nat.zero_le t, hstore, fun n hn => by omega, fun n h₁ h₂ => by omega, fun n hn => by omega,
    fun n text hn => ?_, fun _ n hn => ?_⟩
  · rw [hnone] at hn
    cases hn
  · rw [hnone] at hn
    cases hn

variable (hhandle : ∀ caller request session store,
  (crud.handleRequest caller request session).runFrom store = (.ok (), handle caller request store))
variable (ht : t < 2 ^ 64)

include hhandle ht

/-- A replica that executed the first `n` requests in order holds none, and
each of them can be stored. -/
theorem replay_inOrder (hfresh : Fresh uuid store s) {n : Nat} (hn : n ≤ t) {l : List (ServiceOperation ρ)}
    (hl : CommittedUpTo committed n l) {s' : DatabaseService ρ σ} (hr : (replay crud uuid l).runFrom s = (.ok (), s')) :
    Caught crud handle committed store uuid t True (fun m => 1 ≤ m.toNat ∧ m.toNat ≤ n) n s' ∧
      (∀ m, s'.stored uuid m = none) ∧ ∀ op ∈ l, (crud.codec.serialize op.databaseMsg).length ≤ maxValueSize := by
  induction n generalizing l s' with
  | zero =>
    have hnil : l = [] := by simpa using hl.sequences
    subst hnil
    cases hr
    exact ⟨hfresh.caught, hfresh.started.2.2, fun op hop => (by cases hop)⟩
  | succ n ih =>
    obtain ⟨l', op, rfl, hl', hop, hagrees⟩ := hl.split
    have hlt : n + 1 < 2 ^ 64 := by omega
    have hseq : op.sequence.toNat = n + 1 := by rw [hop, UInt64.toNat_ofNat', Nat.mod_eq_of_lt hlt]
    rw [replay, forEach_append] at hr
    obtain ⟨_, s₁, hr₁, hr₂⟩ := runFrom_bind_eq_ok hr
    obtain ⟨_, s₂, hr₂, hpure⟩ := runFrom_bind_eq_ok hr₂
    cases hpure
    obtain ⟨hcaught, hnone, hfits⟩ := ih (by omega) hl' hr₁
    rcases hcaught.apply hhandle ht (hnone _) hagrees (by omega) (fun _ => by omega) with
      ⟨hfit, s₃, hr₃, ⟨k, hk, hs₃⟩, hend⟩ | ⟨-, e, s₃, hr₃⟩
    · rw [hr₂] at hr₃
      cases hr₃
      have hR : (fun m : UInt64 => (1 ≤ m.toNat ∧ m.toNat ≤ n) ∨ op.sequence = m) =
          fun m => 1 ≤ m.toNat ∧ m.toNat ≤ n + 1 := by
        funext m
        rw [eq_iff_iff, ← UInt64.toNat_inj]
        omega
      rw [hR] at hs₃
      have hk' : k = n + 1 := by
        refine le_antisymm (hs₃.le_of_known ht fun m hm => by omega) ?_
        by_contra hlt
        have hkn : k = n := by omega
        have hstored := hs₃.received op.sequence (by omega) (by omega)
        rw [hop, ← hkn, ← hs₃.next, hend] at hstored
        cases hstored
      subst hk'
      refine ⟨hs₃, fun m => ?_, fun op' hop' => ?_⟩
      · cases hm : s'.stored uuid m with
        | none => rfl
        | some text =>
          have hlt := hs₃.ahead trivial m (Option.isSome_of_eq_some hm)
          have hle := (hs₃.stored m text hm).1.2
          omega
      · rcases List.mem_append.mp hop' with hop' | hop'
        · exact hfits op' hop'
        · rw [List.mem_singleton.mp hop']
          exact hfit
    · rw [hr₂] at hr₃
      cases hr₃

end Replicas

/-- A replica that started with a store and executed the first `n` requests. -/
def Executed (crud : CrudBase ρ σ) (committed : UInt64 → ServiceOperation ρ) (store : σ) (n : Nat)
    (s : DatabaseService ρ σ) : Prop :=
  ∃ uuid fresh l, Fresh uuid store fresh ∧ CommittedUpTo committed n l ∧
    (replay crud uuid l).runFrom fresh = (.ok (), s)

/-- A replica that executed the first `k` requests and holds the operations of
`pending`, which are later than the next one. -/
structure Waiting (crud : CrudBase ρ σ) (uuid : Uuid) (committed : UInt64 → ServiceOperation ρ) (store : σ) (k t : Nat)
    (pending : List (ServiceOperation ρ)) (s : DatabaseService ρ σ) : Prop where
  later : ∀ op ∈ pending, Agrees committed op ∧ k + 1 < op.sequence.toNat ∧ op.sequence.toNat ≤ t
  executed : ∃ fresh l, Fresh uuid store fresh ∧ CommittedUpTo committed k l ∧
    (replay crud uuid (l ++ pending)).runFrom fresh = (.ok (), s)

section Transfer

variable {crud : CrudBase ρ σ} {handle : Uuid → ρ → σ → σ} {committed : UInt64 → ServiceOperation ρ} {store : σ}
  {uuid : Uuid} {t : Nat}
variable (hhandle : ∀ caller request session store,
  (crud.handleRequest caller request session).runFrom store = (.ok (), handle caller request store))
variable (ht : t < 2 ^ 64)

include hhandle ht

variable {s : DatabaseService ρ σ}

theorem Executed.store_eq {n : Nat} (hn : n ≤ t) (h : Executed crud committed store n s) :
    s.store = storeAfter crud handle committed store n ∧ s.nextRequestSequence = UInt64.ofNat (n + 1) ∧
      ∀ m : UInt64, 1 ≤ m.toNat → m.toNat ≤ n →
        (crud.codec.serialize (committed m).databaseMsg).length ≤ maxValueSize := by
  obtain ⟨uuid, fresh, l, hfresh, hl, hr⟩ := h
  obtain ⟨hcaught, -, hfits⟩ := replay_inOrder hhandle ht hfresh hn hl hr
  refine ⟨hcaught.store, hcaught.next, fun m hpos hm => ?_⟩
  obtain ⟨op, hop, rfl⟩ := (hl.range (by omega) m).mpr ⟨hpos, hm⟩
  rw [← (hl.agrees op hop).databaseMsg]
  exact hfits op hop

/-- A waiting replica is past the first `k` requests, and has heard of those it
holds. -/
theorem Waiting.caught {k : Nat} {pending : List (ServiceOperation ρ)} (hk : k ≤ t)
    (hfits : ∀ m : UInt64, 1 ≤ m.toNat → m.toNat ≤ t →
      (crud.codec.serialize (committed m).databaseMsg).length ≤ maxValueSize)
    (h : Waiting crud uuid committed store k t pending s) :
    Caught crud handle committed store uuid t False
        (fun m => (1 ≤ m.toNat ∧ m.toNat ≤ k) ∨ ∃ op ∈ pending, op.sequence = m) k s ∧
      s.stored uuid s.nextRequestSequence = none ∧ (pending = [] → ∀ m, s.stored uuid m = none) := by
  obtain ⟨fresh, l, hfresh, hl, hr⟩ := h.executed
  rw [replay, forEach_append] at hr
  obtain ⟨_, s₁, hr₁, hr₂⟩ := runFrom_bind_eq_ok hr
  obtain ⟨hcaught, hnone, -⟩ := replay_inOrder hhandle ht hfresh hk hl hr₁
  have hpending : ∀ op ∈ pending, Agrees committed op ∧ (1 ≤ op.sequence.toNat ∧ op.sequence.toNat ≤ t) ∧
      (crud.codec.serialize op.databaseMsg).length ≤ maxValueSize := by
    intro op hop
    obtain ⟨hagrees, hlater, hle⟩ := h.later op hop
    refine ⟨hagrees, ⟨by omega, hle⟩, ?_⟩
    rw [hagrees.databaseMsg]
    exact hfits _ (by omega) hle
  obtain ⟨s₂, hr₃, ⟨k', hk', hs₂⟩, hend⟩ := (hcaught.weaken False.elim).replay hhandle ht (hnone _) hpending
  rw [replay, hr₂] at hr₃
  cases hr₃
  have hle : k' ≤ k := by
    refine hs₂.le_of_known ht fun m hm => ?_
    rcases hm with hm | ⟨op, hop, rfl⟩
    · omega
    · have := (h.later op hop).2.1
      omega
  cases le_antisymm hle hk'
  refine ⟨hs₂, hend, ?_⟩
  rintro rfl
  cases hr₂
  exact hnone

end Transfer

/-- A state for the last sequence never finishes loading. -/
theorem setServiceState_last {crud : CrudBase ρ σ} (uuid : Uuid) {s : DatabaseService ρ σ}
    (hload : (crud.loadState data s.store).1 = true) :
    (setServiceState crud uuid (0 - 1) data).result s = .error .divergence := by
  rcases setServiceState_cases crud uuid (0 - 1) data s with ⟨hlt, -⟩ | ⟨-, hfails, -⟩ | ⟨-, -, -, hr⟩ | ⟨-, -, hne, -⟩
  · have hle := s.nextRequestSequence.toNat_lt
    have hlast : (0 - 1 : UInt64).toNat = 2 ^ 64 - 1 := rfl
    rw [UInt64.lt_iff_toNat_lt] at hlt
    omega
  · rw [hload] at hfails
    cases hfails
  · rw [result, hr]
  · exact absurd rfl hne

/-- A replica whose counter wrapped around takes every state for a newer one,
and is left after it. -/
theorem setServiceState_wrapped {crud : CrudBase ρ σ} {uuid : Uuid} {s s' : DatabaseService ρ σ} {n : UInt64} {b : Bool}
    (hnext : s.nextRequestSequence = 0) (hnone : ∀ m, s.stored uuid m = none)
    (hload : (crud.loadState data s.store).1 = true) (hr : (setServiceState crud uuid n data).runFrom s = (.ok b, s')) :
    s'.nextRequestSequence = n + 1 := by
  have hround : ∀ (s : DatabaseService ρ σ) text, (s.nextRequestSequence = n + 1 ∧ ∀ m, s.stored uuid m = none) →
      s.stored uuid s.nextRequestSequence = some text →
      ∃ s', (processRequest crud uuid text).runFrom s = (.ok (), s') ∧
        (s'.nextRequestSequence = n + 1 ∧ ∀ m, s'.stored uuid m = none) := by
    rintro s text ⟨-, hnone⟩ hstored
    rw [hnone] at hstored
    cases hstored
  have hends : n ≠ 0 - 1 := by
    rintro rfl
    have hlast := setServiceState_last uuid hload
    rw [result, hr] at hlast
    cases hlast
  obtain ⟨s₁, hr₁, ⟨hnext₁, -⟩, -⟩ := setServiceState_total hround (hnext ▸ UInt64.zero_le) hends hload
    fun st holds => ⟨rfl, fun m => (holds.stored m).trans (by rw [hnone, ite_self])⟩
  rw [hr] at hr₁
  cases hr₁
  exact hnext₁

/-- A replica that has executed the requests up to `k` and holds some later
ones loads the state that another one saved after `s`, and receives the rest up
to `t`, in any order: it ends where a replica does that has executed all of
them. With the last sequence of all this is not so: a state for it never
finishes loading, and a replica past it takes every state for a newer one. -/
theorem stateTransfer_iff {crud : CrudBase ρ σ} {handle : Uuid → ρ → σ → σ} {committed : UInt64 → ServiceOperation ρ}
    {store : σ} {uuid : Uuid} {t s k : UInt64}
    (hhandle : ∀ caller request session store,
      (crud.handleRequest caller request session).runFrom store = (.ok (), handle caller request store))
    (hload : ∀ store store' data, crud.saveState store = some data → crud.loadState data store' = (true, store))
    (hs : s ≤ t) (hk : k ≤ t) {ref other mine : DatabaseService ρ σ} {data : Bytes}
    {pending rest : List (ServiceOperation ρ)} (href : Executed crud committed store t.toNat ref)
    (hother : Executed crud committed store s.toNat other) (hdata : crud.saveState other.store = some data)
    (hmine : Waiting crud uuid committed store k.toNat t.toNat pending mine)
    (hrest : ∀ op ∈ rest, Agrees committed op)
    (hremaining : ∀ n, (∃ op ∈ rest, op.sequence = n) ↔
      k < n ∧ s < n ∧ n ≤ t ∧ ∀ op ∈ pending, op.sequence ≠ n) :
    (∃ after, (do let _ ← setServiceState crud uuid s data; replay crud uuid rest).runFrom mine = (.ok (), after) ∧
      after.store = ref.store ∧ after.nextRequestSequence = ref.nextRequestSequence ∧
      after.nextRequestSequence = t + 1) ↔ s ≠ 0 - 1 ∧ k ≠ 0 - 1 := by
  have ht := t.toNat_lt
  have hs' := UInt64.le_iff_toNat_le.mp hs
  have hk' := UInt64.le_iff_toNat_le.mp hk
  obtain ⟨hrefStore, hrefNext, hfits⟩ := href.store_eq hhandle ht le_rfl
  obtain ⟨hotherStore, -, -⟩ := hother.store_eq hhandle ht hs'
  obtain ⟨hcaught, hsettled, hnone⟩ := hmine.caught hhandle ht hk' hfits
  have hloaded := hload other.store mine.store data hdata
  rw [hotherStore] at hloaded
  have hok : (crud.loadState data mine.store).1 = true := by rw [hloaded]
  have hnextRef : ref.nextRequestSequence = t + 1 := by
    rw [hrefNext, UInt64.ofNat_add, UInt64.ofNat_toNat]
    rfl
  constructor
  · rintro ⟨after, hr, -, -, hnext⟩
    obtain ⟨b, s₁, hr₁, hr₂⟩ := runFrom_bind_eq_ok hr
    have hslast : s ≠ 0 - 1 := by
      rintro rfl
      have hlast := setServiceState_last uuid hok
      rw [result, hr₁] at hlast
      cases hlast
    refine ⟨hslast, ?_⟩
    rintro rfl
    have hlast : (0 - 1 : UInt64).toNat = 2 ^ 64 - 1 := rfl
    have hpending : pending = [] := by
      refine List.eq_nil_iff_forall_not_mem.mpr fun op hop => ?_
      have := (hmine.later op hop).2.1
      have := op.sequence.toNat_lt
      omega
    have hnil : rest = [] := by
      refine List.eq_nil_iff_forall_not_mem.mpr fun op hop => ?_
      have := UInt64.lt_iff_toNat_lt.mp ((hremaining op.sequence).mp ⟨op, hop, rfl⟩).1
      have := op.sequence.toNat_lt
      omega
    subst hnil
    cases hr₂
    have hwrapped := setServiceState_wrapped (hcaught.next.trans rfl) (hnone hpending) hok hr₁
    have hst : s = t := by
      rw [hwrapped] at hnext
      exact UInt64.add_right_inj 1 |>.mp (by rwa [UInt64.add_comm 1, UInt64.add_comm 1])
    refine hslast (UInt64.toNat_inj.mp ?_)
    rw [hst]
    omega
  · rintro ⟨hslast, hklast⟩
    have hk₁ : k.toNat + 1 < 2 ^ 64 := by
      rw [← toNat_add_one hklast]
      exact (k + 1).toNat_lt
    obtain ⟨s₁, hr₁, ⟨k₁, hkk₁, hsk₁, hs₁⟩, hend₁⟩ := hcaught.setState hhandle ht hsettled hk₁ hs' hslast hloaded
    have hrest' : ∀ op ∈ rest, Agrees committed op ∧ (1 ≤ op.sequence.toNat ∧ op.sequence.toNat ≤ t.toNat) ∧
        (crud.codec.serialize op.databaseMsg).length ≤ maxValueSize := by
      intro op hop
      obtain ⟨hkn, -, hnt, -⟩ := (hremaining op.sequence).mp ⟨op, hop, rfl⟩
      rw [UInt64.lt_iff_toNat_lt] at hkn
      rw [UInt64.le_iff_toNat_le] at hnt
      refine ⟨hrest op hop, ⟨by omega, hnt⟩, ?_⟩
      rw [(hrest op hop).databaseMsg]
      exact hfits _ (by omega) hnt
    obtain ⟨after, hr₂, ⟨k₂, hk₂, hs₂⟩, hend₂⟩ := hs₁.replay hhandle ht hend₁ hrest'
    have hdone : k₂ = t.toNat := by
      refine hs₂.done (max k.toNat s.toNat) ht hend₂ (by omega) fun n hn hnt => ?_
      by_cases hp : ∃ op ∈ pending, op.sequence = n
      · exact .inl (.inl (.inr hp))
      · refine .inr ((hremaining n).mpr ⟨?_, ?_, ?_, fun op hop he => hp ⟨op, hop, he⟩⟩)
        · exact UInt64.lt_iff_toNat_lt.mpr (by omega)
        · exact UInt64.lt_iff_toNat_lt.mpr (by omega)
        · exact UInt64.le_iff_toNat_le.mpr hnt
    subst hdone
    refine ⟨after, ?_, hs₂.store.trans hrefStore.symm, hs₂.next.trans hrefNext.symm, ?_⟩
    · rw [runFrom_bind, hr₁]
      exact hr₂
    · rw [hs₂.next, ← hrefNext, hnextRef]

theorem idle_handle (caller : Uuid) (request : Unit) (session : Option Nat) (store : Unit) :
    (idleCrud.handleRequest caller request session).runFrom store = (.ok (), store) := rfl

theorem idle_agrees (n : UInt64) : Agrees idleOperation (idleOperation n) := ⟨rfl, rfl, rfl⟩

theorem idleStart_fresh : Fresh [] () idleStart := ⟨default, 1, MemStorage.read_default [], rfl⟩

theorem recorded_agrees (n : UInt64) : Agrees recordedOperation (recordedOperation n) := ⟨rfl, rfl, rfl⟩

theorem recordingStart_fresh : Fresh [] [] recordingStart := ⟨default, 1, MemStorage.read_default [], rfl⟩

theorem recorded_committed (n : Nat) :
    CommittedUpTo recordedOperation n ((List.range' 1 n).map fun i => recordedOperation (.ofNat i)) := by
  refine ⟨by rw [List.map_map]; rfl, fun op hop => ?_⟩
  obtain ⟨i, -, rfl⟩ := List.mem_map.mp hop
  exact recorded_agrees _

/-- The third operation has arrived, a state for the first one is loaded, and the second one
arrives twice. -/
theorem stateTransfer_second :
    ∃ after, (do
        let _ ← setServiceState recordingCrud [] 1 (ascii "1")
        replay recordingCrud [] [recordedOperation 2, recordedOperation 2]).runFrom
          ((replay recordingCrud [] [recordedOperation 3]).final recordingStart) = (.ok (), after) ∧
      after.store = ascii "123" ∧ after.nextRequestSequence = 3 + 1 := by
  have hexecuted : ∀ n, (replay recordingCrud [] _).result recordingStart = .ok () →
      Executed recordingCrud recordedOperation [] n ((replay recordingCrud [] _).final recordingStart) := fun n hr =>
    ⟨[], recordingStart, _, recordingStart_fresh, recorded_committed n, Prod.ext hr rfl⟩
  have hwaiting : Waiting recordingCrud [] recordedOperation [] 0 3 [recordedOperation 3]
      ((replay recordingCrud [] [recordedOperation 3]).final recordingStart) := by
    refine ⟨fun op hop => ?_, recordingStart, [], recordingStart_fresh, recorded_committed 0, rfl⟩
    rw [List.mem_singleton.mp hop]
    exact ⟨recorded_agrees 3, by decide, by decide⟩
  have hhandle : ∀ caller request session store,
      (recordingCrud.handleRequest caller request session).runFrom store = (.ok (), store ++ request) :=
        fun _ _ _ _ => rfl
  have hload : ∀ store store' data, recordingCrud.saveState store = some data →
      recordingCrud.loadState data store' = (true, store) := by
    rintro _ _ _ ⟨⟩
    rfl
  have hrest : ∀ op ∈ [recordedOperation 2, recordedOperation 2], Agrees recordedOperation op := by
    rintro op (_ | ⟨_, _ | ⟨_, ⟨⟩⟩⟩) <;> exact recorded_agrees 2
  have hremaining : ∀ n, (∃ op ∈ [recordedOperation 2, recordedOperation 2], op.sequence = n) ↔
      0 < n ∧ 1 < n ∧ n ≤ 3 ∧ ∀ op ∈ [recordedOperation 3], op.sequence ≠ n := by
    intro n
    simp only [List.mem_cons, List.not_mem_nil, or_false, or_self, exists_eq_left, forall_eq, recordedOperation,
      UInt64.lt_iff_toNat_lt, UInt64.le_iff_toNat_le, ne_eq, ← UInt64.toNat_inj]
    change 2 = n.toNat ↔ 0 < n.toNat ∧ 1 < n.toNat ∧ n.toNat ≤ 3 ∧ ¬ 3 = n.toNat
    omega
  obtain ⟨after, hrun, hstore, -, hnext⟩ := (stateTransfer_iff (t := 3) (s := 1) (k := 0) hhandle hload (by decide)
    (by decide) (hexecuted 3 rfl) (hexecuted 1 rfl) rfl hwaiting hrest hremaining).mpr ⟨by decide, by decide⟩
  exact ⟨after, hrun, hstore.trans (by decide +kernel), hnext⟩

/-- Any number of requests can be executed. -/
theorem idle_executed (hn : n < 2 ^ 64) : ∃ s, Executed idleCrud idleOperation () n s := by
  let l := (List.range' 1 n).map fun i => idleOperation (UInt64.ofNat i)
  have hl : CommittedUpTo idleOperation n l := by
    refine ⟨by rw [List.map_map]; rfl, fun op hop => ?_⟩
    obtain ⟨i, -, rfl⟩ := List.mem_map.mp hop
    exact idle_agrees _
  have hcaught : Caught idleCrud (fun _ _ store => store) idleOperation () [] n True
      (fun m => 1 ≤ m.toNat ∧ m.toNat ≤ 0) 0 idleStart := idleStart_fresh.caught
  obtain ⟨s, hr, -⟩ := (hcaught.weaken False.elim).replay idle_handle hn (idleStart_fresh.started.2.2 _)
    fun op hop => ⟨hl.agrees op hop, (hl.range hn _).mp ⟨op, hop, rfl⟩, Nat.zero_le _⟩
  exact ⟨s, [], idleStart, l, idleStart_fresh, hl, hr⟩

/-- A replica that has executed nothing loads the state that another one saved
after the last sequence. -/
theorem stateTransfer_diverges :
    ∃ ref, Executed idleCrud idleOperation () (0 - 1 : UInt64).toNat ref ∧ idleCrud.saveState ref.store = some [] ∧
      Waiting idleCrud [] idleOperation () 0 (0 - 1 : UInt64).toNat [] idleStart ∧
      (setServiceState idleCrud [] (0 - 1) []).result idleStart = .error .divergence := by
  obtain ⟨ref, href⟩ := idle_executed (0 - 1 : UInt64).toNat_lt
  refine ⟨ref, href, rfl, ⟨fun op hop => (by cases hop), idleStart, [], idleStart_fresh,
    ⟨rfl, fun op hop => (by cases hop)⟩, rfl⟩, ?_⟩
  exact setServiceState_last [] rfl

end SwarmDb.DatabaseService
