import SwarmDb.Crud.Changes

/-!
# What a request leaves behind

`Outcome` lists what a request as a whole does to the storage, also where it throws on the way, and `Ended` adds how it
is answered. Every request ends so (`handleRequest_ended`), and goes by changes one after the other
(`Outcome.changes`).
-/

namespace SwarmDb.Crud

open Lib Program

variable (cfg : Config) (env : Env) (callerId : Bytes) (request : Request)

/-- `st'` is `st` with an expiry time written. -/
def TtlWritten (generatedKey : Bytes) (st st' : MemStorage) : Prop :=
  ∃ expires, ∀ uuid key, st'.read uuid key =
    if ttlUuid = uuid ∧ generatedKey = key then some expires else st.read uuid key

/-- An expiry time is created or updated. -/
def WritesTtl (generatedKey : Bytes) (st st' : MemStorage) : Prop := ∃ expires,
  (st.create ttlUuid generatedKey expires).1 = .ok ∧ st' = (st.create ttlUuid generatedKey expires).2 ∨
    (st.update ttlUuid generatedKey expires).1 = .ok ∧ st' = (st.update ttlUuid generatedKey expires).2

/-- What becomes of the expiry time of a key that is written: none without a
time, and with one it is written or the request throws. -/
def TtlOutcome (generatedKey : Bytes) (expire : UInt64) (st st' : MemStorage) : Prop :=
  if expire = 0 then st' = (st.remove ttlUuid generatedKey).2 else st' = st ∨ WritesTtl generatedKey st st'

/-- Expiry times of a database are removed. -/
def Flushes (uuid : Bytes) : MemStorage → MemStorage → Prop :=
  Relation.ReflTransGen fun st st' => ∃ generatedKey key, extractUuidKey cfg generatedKey = .ok (uuid, key) ∧
    st' = (st.remove ttlUuid generatedKey).2

/-- The storage after a database was deleted: as long as the keys of all expiry
times can be read, those of the database are gone. -/
structure DbDeleted (st st' : MemStorage) : Prop where
  flushes : Flushes cfg request.dbUuid ((st.remove permissionUuid request.dbUuid).2.removeAll request.dbUuid).2 st'
  flushed : (∀ key, (st.read ttlUuid key).isSome → ∃ entry, extractUuidKey cfg key = .ok entry) →
    ∀ generatedKey key, extractUuidKey cfg generatedKey = .ok (request.dbUuid, key) →
      st'.read ttlUuid generatedKey = none

/-- What a request does to the storage. -/
inductive Outcome (st : MemStorage) : MemStorage → Prop
  | same : Outcome st st
  | refused (kv : KeyValue) (perms : Json) (maxSize : UInt64) (keys : List Bytes)
      (h : Evicts cfg env callerId request st kv perms maxSize keys) (hr : Refused request st kv keys) :
      Outcome st (evict st request.dbUuid keys)
  | written (kv : KeyValue) (keys : List Bytes) (hw : Writes request kv) (hp : MayWrite cfg callerId request st)
      (hkeys : keys = [] ∨ ∃ perms maxSize, Evicts cfg env callerId request st kv perms maxSize keys)
      (h : (writeTo request kv (evict st request.dbUuid keys)).1 = .ok) (st' : MemStorage)
      (httl : TtlOutcome (generateExpireKey cfg.json request.dbUuid kv.key) kv.expire
        (writeTo request kv (evict st request.dbUuid keys)).2 st') : Outcome st st'
  | deleted (key : Bytes) (hm : request.msg = .delete key) (hp : MayWrite cfg callerId request st)
      (h : (st.read request.dbUuid key).isSome) :
      Outcome st ((st.remove request.dbUuid key).2.remove ttlUuid (generateExpireKey cfg.json request.dbUuid key)).2
  | persisted (key : Bytes) (hm : request.msg = .persist key) (hp : MayWrite cfg callerId request st) :
      Outcome st (st.remove ttlUuid (generateExpireKey cfg.json request.dbUuid key)).2
  | expires (key : Bytes) (expire : UInt64) (hm : request.msg = .expire key expire)
      (hp : MayWrite cfg callerId request st)
      (hin : (st.read ttlUuid (generateExpireKey cfg.json request.dbUuid key)).isSome ∨
        (st.read request.dbUuid key).isSome) (st₁ st' : MemStorage)
      (h₁ : st₁ = st ∨ st₁ = (st.remove ttlUuid (generateExpireKey cfg.json request.dbUuid key)).2)
      (h : st' = st₁ ∨ WritesTtl (generateExpireKey cfg.json request.dbUuid key) st₁ st') : Outcome st st'
  | createdDb (m : CreateDb) (hm : request.msg = .createDb m) (hsize : ¬ (m.maxSize = 0 ∧ cfg.maxSwarmStorage ≠ 0))
      (hfits : operationExceedsAvailableSpace cfg st request (createPermissionData callerId m) = .ok false)
      (h : (st.create permissionUuid request.dbUuid
        (cfg.json.toStyledString (createPermissionData callerId m))).1 = .ok) :
      Outcome st (st.create permissionUuid request.dbUuid (cfg.json.toStyledString (createPermissionData callerId m))).2
  | updatedDb (m : CreateDb) (hm : request.msg = .updateDb m) (hsize : ¬ (m.maxSize = 0 ∧ cfg.maxSwarmStorage ≠ 0))
      (perms newPerms : Json) (hperms : getDatabasePermissions cfg st request.dbUuid = .ok (some perms))
      (howner : isCallerOwner callerId perms = .ok true) (hfits : growthExceeds cfg request st m perms = .ok false)
      (hnew : updatePermissionData perms m = .ok newPerms)
      (h : (st.update permissionUuid request.dbUuid (cfg.json.toStyledString newPerms)).1 = .ok) :
      Outcome st (st.update permissionUuid request.dbUuid (cfg.json.toStyledString newPerms)).2
  | changedWriters (writers : List Bytes) (hm : request.msg = .addWriters writers ∨ request.msg =
    .removeWriters writers)
      (hp : MayAdminister cfg callerId request st) (perms : Bytes)
      (h : (st.update permissionUuid request.dbUuid perms).1 = .ok) :
      Outcome st (st.update permissionUuid request.dbUuid perms).2
  | deletedDb (hm : request.msg = .deleteDb) (hp : MayAdminister cfg callerId request st) (st' : MemStorage)
      (h : DbDeleted cfg request st st') : Outcome st st'

/-- How a request ends: with an outcome, and with one answer at most. An answer with an error follows no change, but
for an eviction in vain. -/
structure Ended (s s' : Crud) : Prop where
  outcome : Outcome cfg env callerId request s.storage s'.storage
  answer : s'.answers = s.answers ∨ ∃ a, s'.answers = s.answers ++ [a] ∧
    (a.result = .ok ∨ s'.storage = s.storage ∨ EvictsInVain cfg env callerId request s.storage)

variable {cfg env callerId request} {session : Option Nat}

/-! ## Changes of the storage -/

variable {st st' : MemStorage} {generatedKey key : Bytes} {result : StorageResult} {s : Crud} {m : CreateDb}

theorem WritesTtl.ttlWritten (h : WritesTtl generatedKey st st') : TtlWritten generatedKey st st' := by
  obtain ⟨expires, ⟨hok, rfl⟩ | ⟨hok, rfl⟩⟩ := h
  · exact ⟨expires, MemStorage.read_create hok⟩
  · exact ⟨expires, MemStorage.read_update hok⟩

/-- An expiry time is written over one that was removed, or not. -/
theorem ttl_cases {st₁ : MemStorage} (h₁ : st₁ = st ∨ st₁ = (st.remove ttlUuid generatedKey).2)
    (h : st' = st₁ ∨ WritesTtl generatedKey st₁ st') :
    st' = st ∨ st' = (st.remove ttlUuid generatedKey).2 ∨ TtlWritten generatedKey st st' := by
  rcases h with rfl | h
  · exact h₁.imp_right .inl
  · refine .inr (.inr ?_)
    obtain ⟨expires, hread⟩ := h.ttlWritten
    refine ⟨expires, fun uuid key => ?_⟩
    rw [hread]
    rcases h₁ with rfl | rfl
    · rfl
    · rw [MemStorage.read_remove]
      split <;> rfl

theorem Flushes.read {uuid : Bytes} (h : Flushes cfg uuid st st') :
    (∀ u key, u ≠ ttlUuid → st'.read u key = st.read u key) ∧
      ∀ key, (st'.read ttlUuid key).isSome → (st.read ttlUuid key).isSome := by
  induction h with
  | refl => exact ⟨fun _ _ _ => rfl, fun _ => id⟩
  | tail _ hst ih =>
    obtain ⟨g, -, -, rfl⟩ := hst
    refine ⟨fun u key hu => ?_, fun key hk => ih.2 key ?_⟩
    · rw [MemStorage.read_remove, if_neg fun e => hu e.1.symm, ih.1 u key hu]
    · rw [MemStorage.read_remove] at hk
      split at hk
      · cases hk
      · exact hk

theorem DbDeleted.others (h : DbDeleted cfg request st st') (uuid key : Bytes) (hu : uuid ≠ ttlUuid) :
    st'.read uuid key = ((st.remove permissionUuid request.dbUuid).2.removeAll request.dbUuid).2.read uuid key :=
  h.flushes.read.1 uuid key hu

theorem DbDeleted.fewer (h : DbDeleted cfg request st st') (key : Bytes) (hk : (st'.read ttlUuid key).isSome) :
    (((st.remove permissionUuid request.dbUuid).2.removeAll request.dbUuid).2.read ttlUuid key).isSome :=
  h.flushes.read.2 key hk

theorem WritesTtl.change {st₀ : MemStorage} (hp : MayWrite cfg callerId request st₀)
    (h : WritesTtl (generateExpireKey cfg.json request.dbUuid key) st st') :
    Change cfg env callerId request st₀ st st' := by
  obtain ⟨expires, ⟨hok, rfl⟩ | ⟨hok, rfl⟩⟩ := h
  · exact .createTtl st key expires hp hok
  · exact .updateTtl st key expires hp hok

/-- A request goes from its start to its outcome by changes of the storage. -/
theorem Outcome.changes (h : Outcome cfg env callerId request st st') :
    Relation.ReflTransGen (Change cfg env callerId request st) st st' := by
  cases h with
  | same => exact .refl
  | refused kv perms maxSize keys h => exact .single (.evict kv perms maxSize keys h)
  | written kv keys hw hp hkeys hok _ httl =>
    have hevict : Relation.ReflTransGen (Change cfg env callerId request st) st (evict st request.dbUuid keys) := by
      rcases hkeys with rfl | ⟨perms, maxSize, h⟩
      · exact .refl
      · exact .single (.evict kv perms maxSize keys h)
    refine (hevict.tail (.write _ kv hw hp hok)).trans ?_
    rw [TtlOutcome] at httl
    split at httl
    · exact httl ▸ .single (.removeTtl _ kv.key hp)
    · rcases httl with rfl | httl
      · exact .refl
      · exact .single (httl.change hp)
  | deleted key _ hp => exact (Relation.ReflTransGen.single (.delete st key hp)).tail (.removeTtl _ key hp)
  | persisted key _ hp => exact .single (.removeTtl st key hp)
  | expires key _ _ hp _ st₁ _ h₁ h =>
    have hfirst : Relation.ReflTransGen (Change cfg env callerId request st) st st₁ := by
      rcases h₁ with rfl | rfl
      · exact .refl
      · exact .single (.removeTtl st key hp)
    rcases h with rfl | h
    · exact hfirst
    · exact hfirst.tail (h.change hp)
  | createdDb m hm _ _ h => exact .single (.createDb m _ hm h)
  | updatedDb _ _ _ perms _ hperms howner _ _ h => exact .single (.updateDb _ ⟨perms, hperms, howner⟩ h)
  | changedWriters _ _ hp _ h => exact .single (.updateDb _ hp h)
  | deletedDb _ hp _ h =>
    refine (Relation.ReflTransGen.single (.deleteDb hp)).trans (Relation.ReflTransGen.mono ?_ _ _ h.flushes)
    rintro st _ ⟨g, key, hg, rfl⟩
    exact .flushTtl st g key hp hg

/-! ## Parts of the handlers -/

theorem Ended.refl (s : Crud) : Ended cfg env callerId request s s := ⟨.same, .inl rfl⟩

/-- An answer without a change before it. -/
theorem Ended.looked {body : ResponseBody} (s : Crud) :
    Ended cfg env callerId request s ((sendResponse cfg request result body session).final s) :=
  ⟨.same, .inr ⟨_, rfl, .inr (.inl rfl)⟩⟩

/-- The end of a request after a computation that reads no state and may throw. -/
theorem ended_lift_bind {α : Type} {x : Except Fault α} {f : α → Program Fault Crud Unit}
    (hok : ∀ a, x = .ok a → Ended cfg env callerId request s ((f a).final s)) :
    Ended cfg env callerId request s ((lift x >>= f).final s) :=
  final_lift_bind_of (P := Ended cfg env callerId request s) (.refl s) hok

/-- The end of a request after a check that answers where it fails. -/
theorem ended_unless {c : Prop} [Decidable c] {body : ResponseBody} {m : Program Fault Crud Unit}
    (h : ¬ c → Ended cfg env callerId request s (m.final s)) : Ended cfg env callerId request s
      ((if c then sendResponse cfg request result body session else m).final s) :=
  final_ite_of (P := Ended cfg env callerId request s) (fun _ => .looked s) h

/-- The answer `k` follows a part `m` of a handler that may throw. -/
theorem final_answers {m k : Program Fault Crud Unit} (hm : Keeps Crud.answers m)
    (hk : ∀ s, (k.final s).storage = s.storage ∧ ∃ a, (k.final s).answers = s.answers ++ [a] ∧ a.result = result)
    (s : Crud) :
    ((do m; k : Program Fault Crud Unit).final s).storage = (m.final s).storage ∧
      (((do m; k : Program Fault Crud Unit).final s).answers = s.answers ∨
        ∃ a, ((do m; k : Program Fault Crud Unit).final s).answers = s.answers ++ [a] ∧ a.result = result) := by
  cases hr : m.result s with
  | ok =>
    rw [final_bind_ok hr, ← hm s]
    exact ⟨(hk _).1, .inr (hk _).2⟩
  | error =>
    rw [final_bind_error hr]
    exact ⟨rfl, .inl (hm s)⟩

theorem updateExpirationEntry_answers (now : UInt64) (generatedKey : Bytes) (expire : UInt64) :
    Keeps Crud.answers (updateExpirationEntry now generatedKey expire) :=
  .ite (.bind .read fun _ => .ite (.update fun _ => rfl) (.ite (.update fun _ => rfl) (.lift _))) (.update fun _ => rfl)

theorem updateExpirationEntry_outcome (now : UInt64) (generatedKey : Bytes) (expire : UInt64) (s : Crud) :
    TtlOutcome generatedKey expire s.storage ((updateExpirationEntry now generatedKey expire).final s).storage := by
  rw [TtlOutcome, updateExpirationEntry]
  split
  · rename_i hz
    rw [if_neg (not_not_intro hz)]
    rfl
  · rename_i hz
    rw [final_read_bind]
    dsimp only
    split
    · rename_i hc
      exact .inr ⟨_, .inl ⟨hc, rfl⟩⟩
    · split
      · rename_i hu
        exact .inr ⟨_, .inr ⟨hu, rfl⟩⟩
      · exact .inl rfl

theorem ifPermitted_ended {permitted : Json → Except Fault Bool} {body : Json → Program Fault Crud Unit}
    (h : ∀ perms, getDatabasePermissions cfg s.storage request.dbUuid = .ok (some perms) →
      permitted perms = .ok true → Ended cfg env callerId request s ((body perms).final s)) :
    Ended cfg env callerId request s ((ifPermitted cfg request session permitted body).final s) := by
  rw [ifPermitted, final_read_bind]
  refine ended_lift_bind fun perms hperms => ?_
  cases perms with
  | none => exact .looked s
  | some perms =>
    refine ended_lift_bind fun allowed ha => ?_
    split
    · rename_i hallowed
      exact h perms hperms (hallowed ▸ ha)
    · exact .looked s

/-- A value is written, or refused. -/
theorem store_ends (cfg : Config) (env : Env) (request : Request) (session : Option Nat) (s : Crud)
    (write : MemStorage → StorageResult × MemStorage) (kv : KeyValue) :
    let s' := (store cfg env request session write kv).final s
    if (write s.storage).1 = .ok then
      TtlOutcome (generateExpireKey cfg.json request.dbUuid kv.key) kv.expire (write s.storage).2 s'.storage ∧
        (s'.answers = s.answers ∨ ∃ a, s'.answers = s.answers ++ [a] ∧ a.result = .ok)
    else s'.storage = s.storage ∧ ∃ a, s'.answers = s.answers ++ [a] := by
  dsimp only
  rw [store, final_read_bind]
  dsimp only
  split
  · rw [setStorage, final_update_bind]
    have hanswers := final_answers (k := do
        inspectCommit env.alive request
        sendResponse cfg request .ok .notSet session)
      (updateExpirationEntry_answers env.now (generateExpireKey cfg.json request.dbUuid kv.key) kv.expire)
      (fun _ => ⟨rfl, _, rfl, rfl⟩) { s with storage := (write s.storage).2 }
    exact ⟨hanswers.1 ▸ updateExpirationEntry_outcome .., hanswers.2⟩
  · exact ⟨rfl, _, rfl⟩

theorem makeRoomAndStore_ended {kv : KeyValue} {perms : Json} (hw : Writes request kv)
    (hperms : getDatabasePermissions cfg s.storage request.dbUuid = .ok (some perms))
    (hwriter : isCallerAWriter cfg callerId perms = .ok true) :
    Ended cfg env callerId request s
      ((makeRoomAndStore cfg env request session (writeTo request kv) kv perms).final s) := by
  have hp : MayWrite cfg callerId request s.storage := ⟨perms, hperms, hwriter⟩
  -- the write itself, with or without an eviction before it
  have hstore : ∀ keys, (keys = [] ∨ ∃ perms maxSize, Evicts cfg env callerId request s.storage kv perms maxSize keys) →
      Ended cfg env callerId request s ((store cfg env request session (writeTo request kv) kv).final
        { s with storage := evict s.storage request.dbUuid keys }) := by
    intro keys hkeys
    have h := store_ends cfg env request session { s with storage := evict s.storage request.dbUuid keys }
      (writeTo request kv) kv
    split at h
    · rename_i hok
      refine ⟨.written kv keys hw hp hkeys hok _ h.1, h.2.imp_right ?_⟩
      rintro ⟨a, ha, hresult⟩
      exact ⟨a, ha, .inl hresult⟩
    · rename_i hne
      obtain ⟨hstorage, a, ha⟩ := h
      have hr : Refused request s.storage kv keys :=
        not_not.mp fun hr => hne ((writeTo_evict_ok_iff request s.storage kv keys).mpr hr)
      rcases hkeys with rfl | ⟨perms, maxSize, hev⟩
      · exact ⟨by rw [hstorage]; exact .same, .inr ⟨a, ha, .inr (.inl hstorage)⟩⟩
      · refine ⟨by rw [hstorage]; exact .refused kv perms maxSize keys hev hr, .inr ⟨a, ha, .inr ?_⟩⟩
        by_cases hin : ∃ key ∈ keys, (s.storage.read request.dbUuid key).isSome
        · exact .inr ⟨kv, perms, maxSize, keys, hev, hin, hr⟩
        · refine .inl (hstorage.trans (evict_eq_self fun key hk => ?_))
          simpa using fun hs => hin ⟨key, hk, hs⟩
  rw [makeRoomAndStore, final_read_bind]
  refine ended_lift_bind fun maxSize hmax => ended_unless fun hfits => ended_lift_bind fun exp hexp =>
    ended_unless fun hfresh => ended_lift_bind fun exceeds hexceeds =>
    final_ite_of (P := Ended cfg env callerId request s) (fun hex => ?_) fun _ => hstore [] (.inl rfl)
  simp only [doEviction, bind_assoc, final_read_bind]
  refine ended_lift_bind fun keys hkeys => ?_
  split
  · exact .looked s
  · rename_i hne
    exact hstore keys (.inr ⟨perms, maxSize, hw, hperms, hwriter, hmax, hfits, eq_false_of_ne_true hfresh ▸ hexp,
      hex ▸ hexceeds, hkeys, by simpa using hne⟩)

/-! ## The handlers -/

theorem handleDelete_ended (hm : request.msg = .delete key) (s : Crud) :
    Ended cfg env callerId request s ((handleDelete cfg env callerId request session key).final s) := by
  refine ifPermitted_ended fun perms hperms hwriter => ?_
  rw [final_read_bind]
  dsimp only
  split
  · rename_i hok
    exact ⟨.deleted key hm ⟨perms, hperms, hwriter⟩ (MemStorage.remove_result_iff.mp hok), .inr ⟨_, rfl, .inl rfl⟩⟩
  · exact .looked s

theorem handlePersist_ended (hm : request.msg = .persist key) (s : Crud) :
    Ended cfg env callerId request s ((handlePersist cfg env callerId request session key).final s) := by
  refine ifPermitted_ended fun perms hperms hwriter => ?_
  rw [final_read_bind]
  dsimp only
  split
  · refine ended_lift_bind fun expired _ => ?_
    split
    · exact .looked s
    · exact ⟨.persisted key hm ⟨perms, hperms, hwriter⟩, .inr ⟨_, rfl, .inl rfl⟩⟩
  · exact .looked s

theorem handleExpire_ended {expire : UInt64} (hm : request.msg = .expire key expire) (s : Crud) :
    Ended cfg env callerId request s ((handleExpire cfg env callerId request session key expire).final s) := by
  refine ifPermitted_ended fun perms hperms hwriter => ?_
  rw [final_read_bind]
  refine ended_lift_bind fun pending _ => ?_
  -- the answer follows the change of the expiry time, which may throw
  have hexpires : expire ≠ 0 → ∀ st₁, (st₁ = s.storage ∨
        st₁ = (s.storage.remove ttlUuid (generateExpireKey cfg.json request.dbUuid key)).2) →
      ((s.storage.read ttlUuid (generateExpireKey cfg.json request.dbUuid key)).isSome ∨
        (s.storage.read request.dbUuid key).isSome) →
      Ended cfg env callerId request s ((do
        updateExpirationEntry env.now (generateExpireKey cfg.json request.dbUuid key) expire
        sendResponse cfg request .ok .notSet session : Program Fault Crud Unit).final { s with storage := st₁ }) := by
    intro hz st₁ h₁ hin
    obtain ⟨hstorage, hanswers⟩ := final_answers (k := sendResponse cfg request .ok .notSet session)
      (updateExpirationEntry_answers env.now (generateExpireKey cfg.json request.dbUuid key) expire)
      (fun _ => ⟨rfl, _, rfl, rfl⟩) { s with storage := st₁ }
    have hout := updateExpirationEntry_outcome env.now (generateExpireKey cfg.json request.dbUuid key) expire
      { s with storage := st₁ }
    rw [TtlOutcome, if_neg hz, ← hstorage] at hout
    refine ⟨.expires key expire hm ⟨perms, hperms, hwriter⟩ hin st₁ _ h₁ hout, hanswers.imp_right ?_⟩
    rintro ⟨a, ha, hok⟩
    exact ⟨a, ha, .inl hok⟩
  split
  · exact .looked s
  · split
    · exact .looked s
    · rename_i hz
      split
      · rename_i hhas
        rw [removeExpirationEntry, final_update_bind]
        exact hexpires hz _ (.inr rfl) (.inl (by rwa [MemStorage.has_eq] at hhas))
      · split
        · rename_i hhas
          exact hexpires hz s.storage (.inl rfl) (.inr (by rwa [MemStorage.has_eq] at hhas))
        · exact .looked s

/-- The loop of `flush_expiration_entries`. -/
theorem flushLoop_flushes (cfg : Config) (uuid : Bytes) (keys : List Bytes) (s : Crud) :
    let s' := (forEach keys fun generatedKey => do
      let entry ← lift (extractUuidKey cfg generatedKey)
      if entry.1 = uuid then removeExpirationEntry generatedKey else pure ()).final s
    Flushes cfg uuid s.storage s'.storage ∧ ((∀ g ∈ keys, ∃ entry, extractUuidKey cfg g = .ok entry) →
      ∀ g ∈ keys, ∀ key, extractUuidKey cfg g = .ok (uuid, key) → s'.storage.read ttlUuid g = none) := by
  induction keys generalizing s with
  | nil => exact ⟨.refl, fun _ _ h => by cases h⟩
  | cons g _ ih =>
    cases hg : extractUuidKey cfg g with
    | error e =>
      rw [forEach, hg]
      refine ⟨.refl, fun h => ?_⟩
      obtain ⟨entry, he⟩ := h g (List.mem_cons_self ..)
      rw [hg] at he
      cases he
    | ok entry =>
      -- the state after this key
      have hbody : (do
          let entry ← lift (.ok entry : Except Fault (Bytes × Bytes))
          if entry.1 = uuid then removeExpirationEntry g else pure () : Program Fault Crud Unit).runFrom s =
          (.ok (), if entry.1 = uuid then { s with storage := (s.storage.remove ttlUuid g).2 } else s) := by
        rw [runFrom_bind, runFrom_lift]
        dsimp only
        split <;> rfl
      rw [forEach, hg, final_bind_ok (congrArg Prod.fst hbody), show Program.final _ s = _ from congrArg Prod.snd hbody]
      have hfirst : Flushes cfg uuid s.storage
          (if entry.1 = uuid then { s with storage := (s.storage.remove ttlUuid g).2 } else s).storage := by
        split
        · rename_i he
          exact .single ⟨g, entry.2, by rw [hg, ← he], rfl⟩
        · exact .refl
      obtain ⟨hflushes, hflushed⟩ :=
        ih (if entry.1 = uuid then { s with storage := (s.storage.remove ttlUuid g).2 } else s)
      refine ⟨hfirst.trans hflushes, fun hall g' hg' key hkey => ?_⟩
      rcases List.mem_cons.mp hg' with rfl | hg'
      · rw [hg] at hkey
        cases hkey
        -- it was removed, and nothing comes back
        by_contra hne
        have hread := hflushes.read.2 g' (Option.isSome_iff_ne_none.mpr hne)
        rw [if_pos rfl, MemStorage.read_remove, if_pos ⟨rfl, rfl⟩] at hread
        cases hread
      · exact hflushed (fun g hg => hall g (List.mem_cons_of_mem _ hg)) g' hg' key hkey

theorem handleDeleteDb_ended (hm : request.msg = .deleteDb) (s : Crud) :
    Ended cfg env callerId request s ((handleDeleteDb cfg callerId request session).final s) := by
  rw [handleDeleteDb, final_read_bind]
  refine ended_lift_bind fun perms hperms => ?_
  cases perms with
  | none => exact .looked s
  | some perms =>
    dsimp only
    split
    · exact .looked s
    · refine ended_lift_bind fun owner howner => ?_
      split
      · rename_i ho
        rw [setStorage, final_update_bind]
        set base := ((s.storage.remove permissionUuid request.dbUuid).2.removeAll request.dbUuid).2
        have hflush : Keeps Crud.answers (flushExpirationEntries cfg request.dbUuid) :=
          .bind .read fun _ => .forEach fun _ _ => .bind (.lift _) fun _ => .ite (.update fun _ => rfl) (.pure _)
        obtain ⟨hstorage, hanswers⟩ := final_answers
          (k := sendResponse cfg request (s.storage.remove permissionUuid request.dbUuid).1 .notSet session) hflush
          (fun _ => ⟨rfl, _, rfl, rfl⟩) { s with storage := base }
        obtain ⟨hflushes, hflushed⟩ := flushLoop_flushes cfg request.dbUuid (base.getKeys ttlUuid)
          { s with storage := base }
        refine ⟨.deletedDb hm ⟨perms, hperms, ho ▸ howner⟩ _ (hstorage ▸ ⟨hflushes, fun hall g key hg => ?_⟩),
          hanswers.imp_right ?_⟩
        · have hsub : ∀ key, (base.read ttlUuid key).isSome → (s.storage.read ttlUuid key).isSome := by
            intro key hk
            rw [MemStorage.read_removeAll] at hk
            split at hk
            · cases hk
            · rwa [MemStorage.read_remove, if_neg fun h => absurd h.1 (by decide)] at hk
          by_cases hin : g ∈ base.getKeys ttlUuid
          · exact hflushed (fun g hg => hall g (hsub g (MemStorage.mem_getKeys.mp hg))) g hin key hg
          · by_contra hne
            exact hin (MemStorage.mem_getKeys.mpr (hflushes.read.2 g (Option.isSome_iff_ne_none.mpr hne)))
        · rintro ⟨a, ha, hresult⟩
          exact ⟨a, ha, .inl (hresult.trans (MemStorage.remove_result_iff.mpr (read_of_getDatabasePermissions hperms)))⟩
      · exact .looked s

/-- A change of the permissions that may fail, and the answer to it. -/
theorem changePermissions_ended {changed : StorageResult × MemStorage}
    (hok : changed.1 = .ok → Outcome cfg env callerId request s.storage changed.2)
    (hne : changed.1 ≠ .ok → changed.2 = s.storage) :
    Ended cfg env callerId request s ((do
      setStorage changed.2
      sendResponse cfg request changed.1 .notSet session : Program Fault Crud Unit).final s) := by
  by_cases h : changed.1 = .ok
  · exact ⟨hok h, .inr ⟨_, rfl, .inl h⟩⟩
  · rw [hne h]
    exact .looked s

theorem handleCreateDb_ended (hm : request.msg = .createDb m) (s : Crud) :
    Ended cfg env callerId request s ((handleCreateDb cfg callerId request session m).final s) := by
  rw [handleCreateDb, final_read_bind]
  refine ended_unless fun _ => ended_unless fun _ => ended_unless fun hsize =>
    ended_lift_bind fun exceeds hexceeds => ?_
  split
  · exact .looked s
  · rename_i hne
    rw [eq_false_of_ne_true hne] at hexceeds
    exact changePermissions_ended (.createdDb m hm hsize hexceeds) MemStorage.create_eq_of_ne_ok

theorem handleUpdateDb_ended (hm : request.msg = .updateDb m) (s : Crud) :
    Ended cfg env callerId request s ((handleUpdateDb cfg callerId request session m).final s) := by
  refine ifPermitted_ended fun perms hperms howner => ?_
  rw [final_read_bind]
  refine ended_unless fun hsize => ended_lift_bind fun exceeds hexceeds => ?_
  split
  · exact .looked s
  · rename_i hne
    rw [eq_false_of_ne_true hne] at hexceeds
    refine ended_lift_bind fun newPerms hnew => ?_
    exact changePermissions_ended (.updatedDb m hm hsize perms newPerms hperms howner hexceeds hnew)
      MemStorage.update_eq_of_ne_ok

theorem handleWriterChange_ended {writers : List Bytes}
    (hm : request.msg = .addWriters writers ∨ request.msg = .removeWriters writers) (change : Json → Except Fault Json)
    (s : Crud) : Ended cfg env callerId request s
    ((handleWriterChange cfg callerId request session change).final s) := by
  refine ifPermitted_ended fun perms hperms howner => ?_
  rw [final_read_bind]
  refine ended_lift_bind fun newPerms _ => ?_
  dsimp only
  split
  · rename_i hok
    exact ⟨.changedWriters writers hm ⟨perms, hperms, howner⟩ _ hok, .inr ⟨_, rfl, .inl rfl⟩⟩
  · exact .refl s

/-! ## Requests that only look -/

theorem handleRead_ended (key : Bytes) (found : Bytes → ResponseBody) (s : Crud) :
    Ended cfg env callerId request s ((handleRead cfg env request session key found).final s) := by
  rw [handleRead, final_read_bind]
  refine ended_unless fun _ => ended_lift_bind fun _ _ => ended_unless fun _ => ?_
  split <;> exact .looked s

theorem handleTtl_ended (key : Bytes) (s : Crud) :
    Ended cfg env callerId request s ((handleTtl cfg env request session key).final s) := by
  rw [handleTtl, final_read_bind]
  refine final_ite_of (P := Ended cfg env callerId request s) (fun _ => ended_lift_bind fun _ _ =>
    ended_unless fun _ => ended_lift_bind fun ttl _ => ?_)
    fun _ => .looked s
  cases ttl <;> exact .looked s

theorem handleHas_ended (key : Bytes) (s : Crud) :
    Ended cfg env callerId request s ((handleHas cfg env request session key).final s) := by
  rw [handleHas, final_read_bind]
  exact ended_lift_bind fun _ _ => ended_unless fun _ => ended_unless fun _ => .looked s

theorem handleKeys_ended (s : Crud) : Ended cfg env callerId request s
    ((handleKeys cfg env request session).final s) := by
  rw [handleKeys, final_read_bind]
  exact final_ite_of (P := Ended cfg env callerId request s) (fun _ => ended_lift_bind fun _ _ => .looked s) fun _ =>
    .looked s

theorem handleSize_ended (s : Crud) : Ended cfg env callerId request s ((handleSize cfg request session).final s) := by
  rw [handleSize, final_read_bind]
  refine ended_lift_bind fun perms _ => ?_
  cases perms with
  | none => exact .looked s
  | some => exact ended_lift_bind fun _ _ => .looked s

theorem handleSubscription_ended (change : Nat → SubscriptionManager → ResponseBody × SubscriptionManager) (s : Crud) :
    Ended cfg env callerId request s ((handleSubscription cfg request session change).final s) := by
  cases session with
  | none => exact .refl s
  | some => exact ⟨.same, .inr ⟨_, rfl, .inl rfl⟩⟩

theorem handleWriters_ended (s : Crud) :
    Ended cfg env callerId request s ((handleWriters cfg request session).final s) := by
  rw [handleWriters, final_read_bind]
  refine ended_lift_bind fun perms _ => ?_
  cases perms with
  | none => exact .looked s
  | some =>
    exact ended_lift_bind fun _ _ => ended_lift_bind fun _ _ => ended_lift_bind fun _ _ => ended_lift_bind fun _ _ =>
      .looked s

/-- How every request ends. -/
theorem handleRequest_ended (cfg : Config) (env : Env) (callerId : Bytes) (request : Request) (session : Option Nat)
    (s : Crud) : Ended cfg env callerId request s ((handleRequest cfg env callerId request session).final s) := by
  rw [handleRequest]
  split
  case h_1 hm =>
    rw [handleCreate, ← writeTo_create hm]
    exact ifPermitted_ended fun _ => makeRoomAndStore_ended (.inl hm)
  case h_2 | h_17 => exact handleRead_ended _ _ s
  case h_3 hm =>
    rw [handleUpdate, ← writeTo_update hm]
    exact ifPermitted_ended fun _ => makeRoomAndStore_ended (.inr hm)
  case h_4 hm => exact handleDelete_ended hm s
  case h_5 => exact handleHas_ended _ s
  case h_6 => exact handleKeys_ended s
  case h_7 => exact handleSize_ended s
  case h_8 | h_9 => exact handleSubscription_ended _ s
  case h_10 hm => exact handleCreateDb_ended hm s
  case h_11 hm => exact handleUpdateDb_ended hm s
  case h_12 hm => exact handleDeleteDb_ended hm s
  case h_13 => exact .looked s
  case h_14 => exact handleWriters_ended s
  case h_15 hm => exact handleWriterChange_ended (.inl hm) _ s
  case h_16 hm => exact handleWriterChange_ended (.inr hm) _ s
  case h_18 => exact handleTtl_ended _ s
  case h_19 hm => exact handlePersist_ended hm s
  case h_20 hm => exact handleExpire_ended hm s
  all_goals exact .refl s

/-- What the changes of a request keep holds at its end. -/
theorem handleRequest_changes {cfg : Config} {env : Env} {callerId : Bytes} {request : Request} {session : Option Nat}
    {s : Crud} {I : MemStorage → Prop} (h : I s.storage)
    (hchange : ∀ st st', Change cfg env callerId request s.storage st st' → I st → I st') :
    I ((handleRequest cfg env callerId request session).final s).storage := by
  have hchanges := (handleRequest_ended cfg env callerId request session s).outcome.changes
  generalize ((handleRequest cfg env callerId request session).final s).storage = st at hchanges ⊢
  induction hchanges with
  | refl => exact h
  | tail _ hch ih => exact hchange _ _ hch ih

end SwarmDb.Crud
