import SwarmDb.Crud.FailedRequests

/-!
# Creates of a key that is there

A `create` of a key that is in the database is refused and leaves its value,
unless the eviction policy chooses the key itself (`create_keeps_iff`): the
policies leave out the key of an update, not that of a create, and whether the
key is there is looked up after the eviction.
-/

namespace SwarmDb.Crud

open Lib Program

variable {cfg : Config} {env : Env} {callerId : Bytes} {request : Request} {session : Option Nat}

/-- No answer since `s₀` is ok, and a key still has its value. -/
structure NotOverwritten (s₀ : Crud) (uuid key value : Bytes) (s : Crud) : Prop where
  value : s.storage.read uuid key = some value
  refused : ∀ a ∈ answersSince s₀ s, a.result ≠ .ok

/-- The key of a create is one of those that are evicted for it. -/
def EvictsItself (cfg : Config) (env : Env) (callerId : Bytes) (request : Request) (storage : MemStorage)
    (kv : KeyValue) : Prop :=
  ∃ perms maxSize keys, Evicts cfg env callerId request storage kv perms maxSize keys ∧ kv.key ∈ keys

/-- The steps after each of which a key is not overwritten. -/
def keepingValue (s₀ : Crud) (uuid key value : Bytes) : Moves Crud where
  step _ s := NotOverwritten s₀ uuid key value s
  crash s s' := s' = s
  inv := NotOverwritten s₀ uuid key value
  crash_refl _ := rfl
  inv_step _ _ _ h := h

theorem NotOverwritten.of_spec {s₀ : Crud} {uuid key value : Bytes} {m : Program Fault Crud Unit}
    (h : Spec (keepingValue s₀ uuid key value) (fun s => s = s₀) m fun _ _ => True)
    (hs : NotOverwritten s₀ uuid key value s₀) : NotOverwritten s₀ uuid key value (m.final s₀) := by
  obtain ⟨hok, herr⟩ := h s₀ hs rfl
  cases hr : m.result s₀ with
  | ok u => exact Moves.inv_run _ (hok u hr).1 hs
  | error e =>
    obtain ⟨s', hsteps, hcrash⟩ := herr e hr
    rw [show m.final s₀ = s' from hcrash]
    exact Moves.inv_run _ hsteps hs

section

variable {s₀ : Crud} {uuid key value : Bytes}

theorem sendResponse_keepingValue {result : StorageResult} (hne : result ≠ .ok) {body : ResponseBody} :
    Spec (keepingValue s₀ uuid key value) (fun s => s.answers = s₀.answers)
      (sendResponse cfg request result body session) fun _ _ => True := by
  refine .update fun s hi hs => ⟨⟨hi.value, ?_⟩, trivial⟩
  simp only [answersSince, hs, List.drop_left, List.mem_singleton, forall_eq]
  exact hne

theorem store_keepingValue {kv : KeyValue} {write : MemStorage → StorageResult × MemStorage}
    (hne : ∀ st, st.read uuid key = some value → (write st).1 ≠ .ok) :
    Spec (keepingValue s₀ uuid key value) (fun s => s.answers = s₀.answers)
      (store cfg env request session write kv) fun _ _ => True := by
  refine .bind_read fun s hi hs => ?_
  dsimp only
  rw [if_neg (hne s.storage hi.value)]
  refine .pre (sendResponse_keepingValue (hne s.storage hi.value)) ?_
  rintro _ rfl
  exact hs

end

variable {kv : KeyValue}

/-- A create of a key that is there and that is not evicted. -/
theorem handleCreate_keepingValue {s₀ : Crud} {value : Bytes} (hm : request.msg = .create kv)
    (hin : s₀.storage.read request.dbUuid kv.key = some value)
    (hself : ¬ EvictsItself cfg env callerId request s₀.storage kv) :
    Spec (keepingValue s₀ request.dbUuid kv.key value) (fun s => s = s₀)
      (handleCreate cfg env callerId request session kv) fun _ _ => True := by
  have hrefused : ∀ st : MemStorage, st.read request.dbUuid kv.key = some value →
      (st.create request.dbUuid kv.key kv.value).1 ≠ .ok := by
    intro st hst hok
    rw [((MemStorage.create_result_iff ..).mp hok).2.2] at hst
    cases hst
  have hsend : ∀ {result : StorageResult}, result ≠ .ok →
      Spec (keepingValue s₀ request.dbUuid kv.key value) (fun s => s = s₀)
        (sendResponse cfg request result .notSet session) fun _ _ => True := fun hne =>
    .pre (sendResponse_keepingValue hne) (by rintro _ rfl; rfl)
  refine .bind_read ?_
  rintro s₀ _ rfl
  refine .bind_lift fun perms hperms => ?_
  cases perms with
  | none => exact hsend (by decide)
  | some perms =>
    refine .bind_lift fun allowed hwriter => .ite (fun ha => ?_) fun _ => hsend (by decide)
    refine .bind_read ?_
    rintro s₀ _ rfl
    refine .bind_lift fun maxSize hmax => .ite (fun _ => hsend (by decide)) fun hfits => ?_
    refine .bind_lift fun exp hexp => .ite (fun _ => hsend (by decide)) fun hfresh => ?_
    refine .bind_lift fun exceeds hexceeds => .ite (fun hex => ?_) fun _ => ?_
    · refine .bind (Q := fun _ s => s.answers = s₀.answers) (.bind_read ?_) fun evicted => ?_
      · rintro s₀ _ rfl
        refine .bind_lift fun keys hkeys => .ite (fun _ => .pure ?_) fun hne =>
          .bind (Q := fun _ s => s.answers = s₀.answers) (.update ?_) fun _ => .pure ?_
        · rintro _ rfl
          rfl
        · rintro s hi rfl
          have hkey : kv.key ∉ keys := fun hk => hself
            ⟨perms, maxSize, keys, ⟨.inl hm, hperms, ha ▸ hwriter, hmax, hfits,
            eq_false_of_ne_true hfresh ▸ hexp, hex ▸ hexceeds, hkeys, by simpa using hne⟩, hk⟩
          refine ⟨⟨?_, hi.refused⟩, rfl⟩
          show (evict s.storage request.dbUuid keys).read request.dbUuid kv.key = some value
          rw [read_evict, if_neg fun e => hkey e.2]
          exact hi.value
        · exact fun _ => id
      · refine .ite (fun _ => store_keepingValue hrefused) fun _ => sendResponse_keepingValue (by decide)
    · exact .pre (store_keepingValue hrefused) (by rintro _ rfl; rfl)

/-! ## A key that is evicted for itself -/

/-- Where the storage writes and the request returns, the answer is ok. -/
theorem store_answered {s : Crud} {write : MemStorage → StorageResult × MemStorage} (hok : (write s.storage).1 = .ok)
    (hr : (store cfg env request session write kv).result s = .ok ()) :
    ∃ a, ((store cfg env request session write kv).final s).answers = s.answers ++ [a] ∧ a.result = .ok := by
  simp only [store, result_read_bind, final_read_bind, if_pos hok, setStorage, result_update_bind,
    final_update_bind] at hr ⊢
  obtain ⟨u, hu, -⟩ := result_bind_eq_ok hr
  rw [final_bind_ok hu]
  simp only [inspectCommit, sendResponse, final_update_bind, final_update]
  rw [updateExpirationEntry_answers]
  exact ⟨_, rfl, rfl⟩

/-- A create of a key that is in the database is refused and leaves the value as
it is, unless the key is evicted for it. -/
theorem create_keeps_iff (cfg : Config) (env : Env) (callerId : Bytes) (request : Request) (session : Option Nat)
    (s : Crud) (kv : KeyValue) (value : Bytes) (hm : request.msg = .create kv)
    (hin : s.storage.read request.dbUuid kv.key = some value) :
    let s' := (handleRequest cfg env callerId request session).final s
    (¬ EvictsItself cfg env callerId request s.storage kv → NotOverwritten s request.dbUuid kv.key value s') ∧
      ((handleRequest cfg env callerId request session).result s = .ok () →
        NotOverwritten s request.dbUuid kv.key value s' → ¬ EvictsItself cfg env callerId request s.storage kv) := by
  dsimp only
  constructor
  · intro hself
    have hcreate : handleRequest cfg env callerId request session =
      handleCreate cfg env callerId request session kv := by
      rw [handleRequest, hm]
    rw [hcreate]
    refine .of_spec (handleCreate_keepingValue hm hin hself) ⟨hin, ?_⟩
    simp [answersSince]
  · rintro hr hkept ⟨perms, maxSize, keys, hev, hkey⟩
    rw [result, runFrom_handleRequest_of_evicts hev, ← result] at hr
    rw [final, runFrom_handleRequest_of_evicts hev, ← final] at hkept
    by_cases hok : (writeTo request kv (evict s.storage request.dbUuid keys)).1 = .ok
    · obtain ⟨a, ha, hares⟩ := store_answered (s := { s with storage := evict s.storage request.dbUuid keys }) hok hr
      refine hkept.refused a ?_ hares
      rw [answersSince, ha, List.drop_left]
      exact List.mem_singleton_self a
    · have hval := hkept.value
      rw [final_store_of_ne_ok (s := { s with storage := evict s.storage request.dbUuid keys }) hok, sendResponse,
        final_update, read_evict, if_pos ⟨rfl, hkey⟩] at hval
      cases hval

theorem create_keeps_again :
    let s := serve openConfig smallDatabase empty
    let c := callBy "alice" "db" (.create ⟨ascii "k", ascii "w", 0⟩)
    let s' := (handleRequest openConfig c.env c.callerId c.request c.session).final s
    s.storage.read (ascii "db") (ascii "k") = some (ascii "value") ∧
      (¬ EvictsItself openConfig c.env c.callerId c.request s.storage ⟨ascii "k", ascii "w", 0⟩ →
        NotOverwritten s (ascii "db") (ascii "k") (ascii "value") s') ∧
      ((handleRequest openConfig c.env c.callerId c.request c.session).result s = .ok () →
        NotOverwritten s (ascii "db") (ascii "k") (ascii "value") s' →
        ¬ EvictsItself openConfig c.env c.callerId c.request s.storage ⟨ascii "k", ascii "w", 0⟩) :=
  ⟨by decide +kernel, create_keeps_iff openConfig _ _ (callBy "alice" "db" (.create ⟨ascii "k", ascii "w", 0⟩)).request
    none (serve openConfig smallDatabase empty) ⟨ascii "k", ascii "w", 0⟩ (ascii "value") rfl (by decide +kernel)⟩

/-- A create of the only key of a database of 10 bytes, with a value that does
not fit beside the old one. -/
theorem create_overwrites :
    let s := serve openConfig [callBy "alice" "db" (.createDb ⟨10, .random⟩),
      callBy "alice" "db" (.create ⟨ascii "k", ascii "value", 0⟩)] empty
    let s' := serve openConfig [callBy "alice" "db" (.create ⟨ascii "k", ascii "other", 0⟩)] s
    s.storage.read (ascii "db") (ascii "k") = some (ascii "value") ∧
      (answersSince s s').map Answer.result = [.ok] ∧
      s'.storage.read (ascii "db") (ascii "k") = some (ascii "other") := by
  decide +kernel

end SwarmDb.Crud
