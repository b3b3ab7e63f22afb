import SwarmDb.Crud.FailedRequests

/-!
# Creates and updates as a whole

What a create or an update does, as functions of the storage: `admitWrite` is the checks before the write, with the keys
that are evicted for it, and `setExpiry` what becomes of the expiry time. A handler runs these one after the other
(`runFrom_write`).
-/

namespace SwarmDb.Crud

open Lib Program

variable (cfg : Config) (env : Env) (callerId : Bytes) (request : Request) (session : Option Nat)

/-- What a create or an update by a writer is answered before the storage is asked
to write, or the keys that are evicted for it. -/
def admitWrite (storage : MemStorage) (kv : KeyValue) (perms : Json) : Except Fault (StorageResult ⊕ List Bytes) := do
  let maxSize ← maxDatabaseSize perms
  if maxSize ≠ 0 ∧ byteSize request.create.key + byteSize request.create.value > maxSize then
    pure (.inl .valueTooLarge)
  else do
    let expired ← expired cfg env.now storage request.dbUuid kv.key
    if expired then pure (.inl .deletePending)
    else do
      let exceeds ← operationExceedsAvailableSpace cfg storage request perms
      if exceeds then do
        let keys ← keysToEvict cfg storage request maxSize
        if keys.isEmpty then pure (.inl .dbFull) else pure (.inr keys)
      else pure (.inr [])

/-- `update_expiration_entry` as a function of the storage. -/
def setExpiry (now : UInt64) (generatedKey : Bytes) (expire : UInt64) (storage : MemStorage) :
    Except Fault MemStorage :=
  if expire ≠ 0 then
    let expires := decimal (now + expire).toNat
    let created := storage.create ttlUuid generatedKey expires
    if created.1 = .ok then .ok created.2
    else
      let updated := storage.update ttlUuid generatedKey expires
      if updated.1 = .ok then .ok updated.2
      else .error (.runtimeError ("Failed to update ttl entry for: " ++ showBytes generatedKey))
  else .ok (storage.remove ttlUuid generatedKey).2

/-- The state with an answer to a request. -/
def answered (result : StorageResult) (s : Crud) : Crud := (sendResponse cfg request result .notSet session).final s

variable {cfg env callerId request session} {result : StorageResult} {key : Bytes} {expire : UInt64} {s : Crud}

@[simp] theorem storage_answered (result : StorageResult) (s : Crud) :
    (answered cfg request session result s).storage = s.storage := rfl

theorem answersSince_answered {s' : Crud} (h : s'.answers = s.answers) :
    (answersSince s (answered cfg request session result s')).map Answer.result = [result] := by
  rw [answersSince, answered, sendResponse, final_update, h, List.drop_left]
  rfl

variable {a : Answer} {perms : Json} {permitted : Json → Except Fault Bool} {kv : KeyValue} {storage st : MemStorage}

theorem result_of_mem_answered {s' : Crud} (h : s'.answers = s.answers)
    (ha : a ∈ answersSince s (answered cfg request session result s')) : a.result = result := by
  have hmem := List.mem_map_of_mem (f := Answer.result) ha
  rwa [answersSince_answered h, List.mem_singleton] at hmem

/-! ## One after the other -/

theorem runFrom_updateExpirationEntry (now : UInt64) (generatedKey : Bytes) (expire : UInt64) (s : Crud) :
    (updateExpirationEntry now generatedKey expire).runFrom s =
      match setExpiry now generatedKey expire s.storage with
      | .ok st => (.ok (), { s with storage := st })
      | .error e => (.error e, s) := by
  rw [updateExpirationEntry, setExpiry]
  split
  · simp only [runFrom_bind, runFrom_read]
    split
    · rfl
    · split
      · rfl
      · rfl
  · rfl

/-- The state after a value and its expiry time were written. -/
def stored (cfg : Config) (env : Env) (request : Request) (session : Option Nat) (st : MemStorage) (s : Crud) : Crud :=
  answered cfg request session .ok
    { s with storage := st, subscriptions := s.subscriptions.inspectCommit env.alive request }

theorem runFrom_store (write : MemStorage → StorageResult × MemStorage) (kv : KeyValue) (s : Crud) :
    (store cfg env request session write kv).runFrom s =
      if (write s.storage).1 = .ok then
        match setExpiry env.now (generateExpireKey cfg.json request.dbUuid kv.key) kv.expire (write s.storage).2 with
        | .ok st => (.ok (), stored cfg env request session st s)
        | .error e => (.error e, { s with storage := (write s.storage).2 })
      else (.ok (), answered cfg request session (write s.storage).1 s) := by
  simp only [store, runFrom_bind, runFrom_read]
  split
  · simp only [setStorage, runFrom_bind, runFrom_update, runFrom_updateExpirationEntry]
    cases setExpiry env.now (generateExpireKey cfg.json request.dbUuid kv.key) kv.expire (write s.storage).2 <;> rfl
  · rfl

theorem runFrom_makeRoom (write : MemStorage → StorageResult × MemStorage) (kv : KeyValue) (perms : Json) (s : Crud) :
    (makeRoomAndStore cfg env request session write kv perms).runFrom s =
      match admitWrite cfg env request s.storage kv perms with
      | .error e => (.error e, s)
      | .ok (.inl result) => (.ok (), answered cfg request session result s)
      | .ok (.inr keys) => (store cfg env request session write kv).runFrom
          { s with storage := evict s.storage request.dbUuid keys } := by
  rw [makeRoomAndStore, admitWrite, runFrom_bind, runFrom_read]
  dsimp only
  rw [runFrom_bind, runFrom_lift]
  cases maxDatabaseSize perms with
  | error => rfl
  | ok maxSize =>
    rw [except_ok_bind]
    dsimp only
    split
    · rfl
    · rw [runFrom_bind, runFrom_lift]
      cases expired cfg env.now s.storage request.dbUuid kv.key with
      | error => rfl
      | ok exp =>
        cases exp with
        | true => rfl
        | false =>
          rw [except_ok_bind, if_neg Bool.false_ne_true]
          dsimp only
          rw [if_neg Bool.false_ne_true, runFrom_bind, runFrom_lift]
          cases operationExceedsAvailableSpace cfg s.storage request perms with
          | error => rfl
          | ok exceeds =>
            cases exceeds with
            | false => rfl
            | true =>
              rw [except_ok_bind, if_pos rfl]
              dsimp only
              rw [if_pos rfl, runFrom_bind, doEviction, runFrom_bind, runFrom_read]
              dsimp only
              rw [runFrom_bind, runFrom_lift]
              cases keysToEvict cfg s.storage request maxSize with
              | error => rfl
              | ok keys =>
                cases keys with
                | nil | cons => rfl

theorem runFrom_permitted (hperms : getDatabasePermissions cfg s.storage request.dbUuid = .ok (some perms))
    (h : permitted perms = .ok true) (body : Json → Program Fault Crud Unit) :
    (ifPermitted cfg request session permitted body).runFrom s = (body perms).runFrom s := by
  simp only [ifPermitted, runFrom_bind, runFrom_read, runFrom_lift, hperms, h, if_true]

/-- A create or an update by a writer. -/
theorem runFrom_write (hw : Writes request kv)
    (hperms : getDatabasePermissions cfg s.storage request.dbUuid = .ok (some perms))
    (hwriter : isCallerAWriter cfg callerId perms = .ok true) :
    (handleRequest cfg env callerId request session).runFrom s =
      match admitWrite cfg env request s.storage kv perms with
      | .error e => (.error e, s)
      | .ok (.inl result) => (.ok (), answered cfg request session result s)
      | .ok (.inr keys) => (store cfg env request session (writeTo request kv) kv).runFrom
          { s with storage := evict s.storage request.dbUuid keys } := by
  rw [← runFrom_makeRoom]
  rcases hw with hm | hm
  · simp only [handleRequest, hm, handleCreate, runFrom_permitted hperms hwriter, writeTo_create hm]
  · simp only [handleRequest, hm, handleUpdate, runFrom_permitted hperms hwriter, writeTo_update hm]

/-! ## Requests that are answered with ok -/

theorem answersSince_self (s : Crud) : answersSince s s = [] := List.drop_length

/-- A response is an answer of ok only with that result. -/
theorem eq_ok_of_answered (ha : a ∈ answersSince s (answered cfg request session result s)) (hok : a.result = .ok) :
    result = .ok :=
  (result_of_mem_answered rfl ha).symm.trans hok

/-- Nothing is answered where a check throws. -/
theorem exists_ok_of_answer {α : Type} {x : Except Fault α} {f : α → Program Fault Crud Unit}
    (ha : a ∈ answersSince s ((lift x >>= f).final s)) : ∃ v, x = .ok v ∧ (lift x >>= f).final s = (f v).final s := by
  cases x with
  | ok v => exact ⟨v, rfl, rfl⟩
  | error e =>
    rw [show (lift (.error e) >>= f).final s = s from rfl, answersSince_self] at ha
    cases ha

/-- A handler that needs a permission answers with ok only if it has it. -/
theorem permitted_of_ok {body : Json → Program Fault Crud Unit}
    (ha : a ∈ answersSince s ((ifPermitted cfg request session permitted body).final s)) (hok : a.result = .ok) :
    ∃ perms, getDatabasePermissions cfg s.storage request.dbUuid = .ok (some perms) ∧ permitted perms = .ok true := by
  rw [ifPermitted, final_read_bind] at ha
  obtain ⟨found, hperms, hfinal⟩ := exists_ok_of_answer ha
  rw [hfinal] at ha
  cases found with
  | none => cases eq_ok_of_answered ha hok
  | some perms =>
    obtain ⟨allowed, hallowed, hfinal⟩ := exists_ok_of_answer ha
    dsimp only at ha
    rw [hfinal] at ha
    cases allowed with
    | false => cases eq_ok_of_answered ha hok
    | true => exact ⟨perms, hperms, hallowed⟩

theorem admitWrite_ne_ok (h : admitWrite cfg env request storage kv perms = .ok (.inl result)) : result ≠ .ok := by
  rintro rfl
  obtain ⟨maxSize, -, h⟩ := except_bind_eq_ok.mp h
  split at h
  · cases h
  · obtain ⟨exp, -, h⟩ := except_bind_eq_ok.mp h
    split at h
    · cases h
    · obtain ⟨exceeds, -, h⟩ := except_bind_eq_ok.mp h
      split at h
      · obtain ⟨keys, -, h⟩ := except_bind_eq_ok.mp h
        split at h
        · cases h
        · cases h
      · cases h

/-- A create or an update has gone through: the permissions and checks that let it,
the keys that were evicted for it, and the storage at its end. -/
structure Written (cfg : Config) (env : Env) (callerId : Bytes) (request : Request) (kv : KeyValue)
    (storage : MemStorage) (perms : Json) (keys : List Bytes) (storage' : MemStorage) : Prop where
  permissions : getDatabasePermissions cfg storage request.dbUuid = .ok (some perms)
  writer : isCallerAWriter cfg callerId perms = .ok true
  admitted : admitWrite cfg env request storage kv perms = .ok (.inr keys)
  accepted : (writeTo request kv (evict storage request.dbUuid keys)).1 = .ok
  expiry : setExpiry env.now (generateExpireKey cfg.json request.dbUuid kv.key) kv.expire
    (writeTo request kv (evict storage request.dbUuid keys)).2 = .ok storage'

/-- A create or an update that is answered with ok. -/
theorem written_of_ok (hw : Writes request kv)
    (ha : a ∈ answersSince s ((handleRequest cfg env callerId request session).final s)) (hok : a.result = .ok) :
    ∃ perms keys, Written cfg env callerId request kv s.storage perms keys
      ((handleRequest cfg env callerId request session).final s).storage := by
  obtain ⟨perms, hperms, hwriter⟩ : MayWrite cfg callerId request s.storage := by
    rcases hw with hm | hm
    · rw [handleRequest, hm] at ha
      exact permitted_of_ok ha hok
    · rw [handleRequest, hm] at ha
      exact permitted_of_ok ha hok
  have hrun : (handleRequest cfg env callerId request session).runFrom s = _ := runFrom_write hw hperms hwriter
  cases hadmitted : admitWrite cfg env request s.storage kv perms with
  | error =>
    rw [hadmitted] at hrun
    rw [final, hrun, answersSince_self] at ha
    cases ha
  | ok plan =>
    cases plan with
    | inl =>
      rw [hadmitted] at hrun
      rw [final, hrun] at ha
      exact absurd ((result_of_mem_answered rfl ha).symm.trans hok) (admitWrite_ne_ok hadmitted)
    | inr keys =>
      rw [hadmitted] at hrun
      dsimp only at hrun
      rw [runFrom_store] at hrun
      split at hrun
      · rename_i haccepted
        cases hexpiry : setExpiry env.now (generateExpireKey cfg.json request.dbUuid kv.key) kv.expire
            (writeTo request kv (evict s.storage request.dbUuid keys)).2 with
        | error e =>
          rw [hexpiry] at hrun
          rw [final, hrun, answersSince, List.drop_length] at ha
          cases ha
        | ok st =>
          rw [hexpiry] at hrun
          rw [final, hrun]
          exact ⟨perms, keys, hperms, hwriter, hadmitted, haccepted, hexpiry⟩
      · rename_i hrefused
        rw [final, hrun] at ha
        exact absurd ((result_of_mem_answered rfl ha).symm.trans hok) hrefused

/-! ## Expire -/

/-- Whether a key has an expiry time that is over. -/
def isPending (cfg : Config) (env : Env) (request : Request) (storage : MemStorage) (key : Bytes) : Except Fault Bool :=
  if storage.has ttlUuid (generateExpireKey cfg.json request.dbUuid key) then
    expired cfg env.now storage request.dbUuid key
  else .ok false

/-- What an expire by a writer is answered before the expiry time is written. -/
def admitExpire (cfg : Config) (env : Env) (request : Request) (storage : MemStorage) (key : Bytes) (expire : UInt64) :
    Except Fault (Option StorageResult) := do
  let pending ← isPending cfg env request storage key
  if pending then pure (some .deletePending)
  else if expire = 0 then pure (some .invalidArgument)
  else if storage.has ttlUuid (generateExpireKey cfg.json request.dbUuid key) || storage.has request.dbUuid key then
    pure none
  else pure (some .notFound)

theorem runFrom_expire (hm : request.msg = .expire key expire)
    (hperms : getDatabasePermissions cfg s.storage request.dbUuid = .ok (some perms))
    (hwriter : isCallerAWriter cfg callerId perms = .ok true) :
    let generatedKey := generateExpireKey cfg.json request.dbUuid key
    (handleRequest cfg env callerId request session).runFrom s =
      match admitExpire cfg env request s.storage key expire with
      | .error e => (.error e, s)
      | .ok (some result) => (.ok (), answered cfg request session result s)
      | .ok none =>
        match setExpiry env.now generatedKey expire (s.storage.remove ttlUuid generatedKey).2 with
        | .ok st => (.ok (), answered cfg request session .ok { s with storage := st })
        | .error e => (.error e, { s with storage := (s.storage.remove ttlUuid generatedKey).2 }) := by
  intro generatedKey
  have hbody : (handleRequest cfg env callerId request session).runFrom s =
      (handleExpire cfg env callerId request session key expire).runFrom s := by
    rw [handleRequest, hm]
  rw [hbody, handleExpire, runFrom_permitted hperms hwriter, runFrom_bind, runFrom_read, admitExpire]
  dsimp only
  rw [runFrom_bind, runFrom_lift, ← isPending]
  -- without an expiry time there is nothing to remove
  have hsame : s.storage.has ttlUuid generatedKey = false → (s.storage.remove ttlUuid generatedKey).2 = s.storage := by
    intro hhas
    rw [MemStorage.has_eq, Option.isSome_eq_false_iff, Option.isNone_iff_eq_none] at hhas
    exact MemStorage.remove_eq_of_read_eq_none hhas
  cases isPending cfg env request s.storage key with
  | error => rfl
  | ok pending =>
    rw [except_ok_bind]
    dsimp only
    cases pending with
    | true => rfl
    | false =>
      rw [if_neg Bool.false_ne_true, if_neg Bool.false_ne_true]
      by_cases hzero : expire = 0
      · rw [if_pos hzero, if_pos hzero]
        rfl
      · rw [if_neg hzero, if_neg hzero]
        cases hhas : s.storage.has ttlUuid generatedKey with
        | true =>
          rw [if_pos rfl]
          simp only [removeExpirationEntry, runFrom_bind, runFrom_update, runFrom_updateExpirationEntry, Bool.true_or,
            if_true]
          cases setExpiry env.now generatedKey expire (s.storage.remove ttlUuid generatedKey).2 <;> rfl
        | false =>
          rw [if_neg Bool.false_ne_true, hsame hhas, Bool.false_or]
          cases s.storage.has request.dbUuid key with
          | false => rfl
          | true =>
            simp only [if_true, runFrom_bind, runFrom_updateExpirationEntry]
            cases setExpiry env.now generatedKey expire s.storage <;> rfl

theorem admitExpire_ne_ok (h : admitExpire cfg env request storage key expire = .ok (some result)) : result ≠ .ok := by
  rintro rfl
  obtain ⟨pending, -, h⟩ := except_bind_eq_ok.mp h
  split at h
  · cases h
  · split at h
    · cases h
    · split at h
      · cases h
      · cases h

/-- An expire that is answered with ok. -/
theorem expiry_of_ok (hm : request.msg = .expire key expire)
    (ha : a ∈ answersSince s ((handleRequest cfg env callerId request session).final s)) (hok : a.result = .ok) :
    setExpiry env.now (generateExpireKey cfg.json request.dbUuid key) expire
      (s.storage.remove ttlUuid (generateExpireKey cfg.json request.dbUuid key)).2 =
        .ok ((handleRequest cfg env callerId request session).final s).storage := by
  obtain ⟨perms, hperms, hwriter⟩ : MayWrite cfg callerId request s.storage := by
    rw [handleRequest, hm] at ha
    exact permitted_of_ok ha hok
  have hrun : (handleRequest cfg env callerId request session).runFrom s = _ := runFrom_expire hm hperms hwriter
  cases hadmitted : admitExpire cfg env request s.storage key expire with
  | error =>
    rw [hadmitted] at hrun
    rw [final, hrun, answersSince_self] at ha
    cases ha
  | ok plan =>
    cases plan with
    | some =>
      rw [hadmitted] at hrun
      rw [final, hrun] at ha
      exact absurd ((result_of_mem_answered rfl ha).symm.trans hok) (admitExpire_ne_ok hadmitted)
    | none =>
      rw [hadmitted] at hrun
      dsimp only at hrun
      cases hexpiry : setExpiry env.now (generateExpireKey cfg.json request.dbUuid key) expire
          (s.storage.remove ttlUuid (generateExpireKey cfg.json request.dbUuid key)).2 with
      | error e =>
        rw [hexpiry] at hrun
        rw [final, hrun, answersSince, List.drop_length] at ha
        cases ha
      | ok st =>
        rw [hexpiry] at hrun
        rw [final, hrun]
        rfl

/-! ## Delete -/

theorem runFrom_delete (hm : request.msg = .delete key)
    (hp : MayWrite cfg callerId request s.storage) :
    (handleRequest cfg env callerId request session).runFrom s =
      if s.storage.has request.dbUuid key then
        (.ok (), answered cfg request session .ok { s with
          storage := ((s.storage.remove request.dbUuid key).2.remove ttlUuid
            (generateExpireKey cfg.json request.dbUuid key)).2
          subscriptions := s.subscriptions.inspectCommit env.alive request })
      else (.ok (), answered cfg request session (s.storage.remove request.dbUuid key).1 s) := by
  obtain ⟨perms, hperms, hwriter⟩ := hp
  have hhas : s.storage.has request.dbUuid key = true ↔ (s.storage.remove request.dbUuid key).1 = .ok := by
    rw [MemStorage.remove_result_iff, MemStorage.has_eq]
  have hbody : (handleRequest cfg env callerId request session).runFrom s =
      (handleDelete cfg env callerId request session key).runFrom s := by
    rw [handleRequest, hm]
  rw [hbody, handleDelete, runFrom_permitted hperms hwriter, runFrom_bind, runFrom_read]
  dsimp only
  by_cases h : s.storage.has request.dbUuid key = true
  · rw [if_pos (hhas.mp h), if_pos h]
    rfl
  · rw [if_neg fun hok => h (hhas.mpr hok), if_neg h]
    rfl

/-! ## Sample permissions -/

/-- The permissions of a sample database, as they are read back. -/
theorem permissions_openConfig (owner : Bytes) (m : CreateDb) {uuid : Bytes}
    (hread : st.read permissionUuid uuid = some (JsonText.plain.toStyledString (createPermissionData owner m))) :
    getDatabasePermissions openConfig st uuid = .ok (some (createPermissionData owner m)) := by
  have hparse : openConfig.json.parse (JsonText.plain.toStyledString (createPermissionData owner m)) =
      .ok (createPermissionData owner m) := JsonText.parse_plain _
  rw [getDatabasePermissions, MemStorage.has_eq, hread, Option.isSome_some, if_pos rfl]
  dsimp only
  rw [hparse]

theorem writer_openConfig {owner callerId : Bytes} (m : CreateDb) (howner : trimCopy owner = trimCopy callerId) :
    isCallerAWriter openConfig callerId (createPermissionData owner m) = .ok true := by
  simp [isCallerAWriter, isCallerOwner, createPermissionData, Json.member, ofJson, Json.elements, Json.isString, howner,
    openConfig, bind, Except.bind, pure, Except.pure, ownerKey, writersKey, evictionPolicyKey, maxSizeKey,
    show ascii "EVICTION_POLICY" ≠ ascii "OWNER" by decide, show ascii "MAX_SIZE" ≠ ascii "OWNER" by decide,
    show ascii "EVICTION_POLICY" ≠ ascii "WRITERS" by decide, show ascii "MAX_SIZE" ≠ ascii "WRITERS" by decide,
    show ascii "OWNER" ≠ ascii "WRITERS" by decide]

theorem mayWrite_openConfig (owner : Bytes) (m : CreateDb) {callerId : Bytes} {request : Request}
    (hread : st.read permissionUuid request.dbUuid =
      some (JsonText.plain.toStyledString (createPermissionData owner m)))
    (howner : trimCopy owner = trimCopy callerId) : MayWrite openConfig callerId request st :=
  ⟨_, permissions_openConfig owner m hread, writer_openConfig m howner⟩

end SwarmDb.Crud
