import SwarmDb.Crud.Crud

/-!
# What a request changes

A request is handled by changes of the storage (`Change`), each with the permission that the caller needs for it.
-/

namespace SwarmDb.Crud

open Lib Program

variable (cfg : Config) (env : Env) (callerId : Bytes) (request : Request)

/-! ## Permissions -/

/-- The database exists, and its permissions let the caller write. -/
def MayWrite (storage : MemStorage) : Prop :=
  ∃ perms, getDatabasePermissions cfg storage request.dbUuid = .ok (some perms) ∧
    isCallerAWriter cfg callerId perms = .ok true

/-- The database exists, and the caller owns it. -/
def MayAdminister (storage : MemStorage) : Prop :=
  ∃ perms, getDatabasePermissions cfg storage request.dbUuid = .ok (some perms) ∧
    isCallerOwner callerId perms = .ok true

variable {storage : MemStorage} {perms : Json}

variable {uuid : Bytes} {keys : List Bytes}

theorem read_of_getDatabasePermissions {cfg : Config} (h : getDatabasePermissions cfg storage uuid = .ok (some perms)) :
    (storage.read permissionUuid uuid).isSome := by
  rw [getDatabasePermissions] at h
  split at h
  · rename_i hhas
    rwa [MemStorage.has_eq] at hhas
  · cases h

/-! ## Eviction -/

/-- What a create or an update asks the storage to do. -/
def writeTo (kv : KeyValue) (storage : MemStorage) : StorageResult × MemStorage :=
  if request.hasUpdate then storage.update request.dbUuid kv.key kv.value
  else storage.create request.dbUuid kv.key kv.value

/-- The request is a create or an update of a key and value. -/
def Writes (kv : KeyValue) : Prop := request.msg = .create kv ∨ request.msg = .update kv

variable {kv : KeyValue}

variable {request} in
theorem writeTo_create (hm : request.msg = .create kv) :
    writeTo request kv = fun storage => storage.create request.dbUuid kv.key kv.value := by
  funext storage
  rw [writeTo, Request.hasUpdate, hm]
  rfl

variable {request} in
theorem writeTo_update (hm : request.msg = .update kv) :
    writeTo request kv = fun storage => storage.update request.dbUuid kv.key kv.value := by
  funext storage
  rw [writeTo, Request.hasUpdate, hm]
  rfl

/-- A create or an update by a writer goes through all checks, and needs some
keys to be evicted. -/
structure Evicts (storage : MemStorage) (kv : KeyValue) (perms : Json) (maxSize : UInt64) (keys : List Bytes) :
    Prop where
  writes : Writes request kv
  permissions : getDatabasePermissions cfg storage request.dbUuid = .ok (some perms)
  writer : isCallerAWriter cfg callerId perms = .ok true
  limit : maxDatabaseSize perms = .ok maxSize
  fits : ¬ (maxSize ≠ 0 ∧ byteSize request.create.key + byteSize request.create.value > maxSize)
  fresh : expired cfg env.now storage request.dbUuid kv.key = .ok false
  exceeds : operationExceedsAvailableSpace cfg storage request perms = .ok true
  evicted : keysToEvict cfg storage request maxSize = .ok keys
  nonempty : keys ≠ []

/-- The storage refuses to write a key and value of a request, once some keys
were removed. -/
def Refused (storage : MemStorage) (kv : KeyValue) (keys : List Bytes) : Prop :=
  maxValueSize < kv.value.length ∨
    if request.hasUpdate then storage.read request.dbUuid kv.key = none ∨ kv.key ∈ keys
    else maxKeySize < kv.key.length ∨ (storage.read request.dbUuid kv.key).isSome ∧ kv.key ∉ keys

/-- A key of the database is evicted for a request that the storage refuses. -/
def EvictsInVain (storage : MemStorage) : Prop :=
  ∃ kv perms maxSize keys, Evicts cfg env callerId request storage kv perms maxSize keys ∧
    (∃ key ∈ keys, (storage.read request.dbUuid key).isSome) ∧ Refused request storage kv keys

theorem read_evict (storage : MemStorage) (uuid : Bytes) (keys : List Bytes) (uuid' key : Bytes) :
    (evict storage uuid keys).read uuid' key =
      if uuid = uuid' ∧ key ∈ keys then none else storage.read uuid' key := by
  induction keys generalizing storage with
  | nil => simp [evict]
  | cons k _ ih =>
    rw [evict, List.foldl_cons, ← evict, ih, MemStorage.read_remove]
    by_cases hu : uuid = uuid'
    · by_cases hk : k = key
      · simp [hu, hk]
      · simp [hk, Ne.symm hk]
    · simp [hu]

theorem evict_eq_self (h : ∀ key ∈ keys, storage.read uuid key = none) : evict storage uuid keys = storage := by
  induction keys with
  | nil => rfl
  | cons k _ ih =>
    rw [evict, List.foldl_cons, MemStorage.remove_eq_of_read_eq_none (h k (List.mem_cons_self ..))]
    exact ih fun key hk => h key (List.mem_cons_of_mem _ hk)

theorem writeTo_evict_ok_iff (storage : MemStorage) (kv : KeyValue) (keys : List Bytes) :
    (writeTo request kv (evict storage request.dbUuid keys)).1 = .ok ↔ ¬ Refused request storage kv keys := by
  rw [writeTo, Refused]
  split
  · rw [MemStorage.update_result_iff, read_evict]
    by_cases hk : kv.key ∈ keys <;> cases storage.read request.dbUuid kv.key <;> simp [hk]
  · rw [MemStorage.create_result_iff, read_evict]
    by_cases hk : kv.key ∈ keys <;> cases storage.read request.dbUuid kv.key <;> simp [hk]

/-! ## Changes -/

/-- One change of the storage, for a request that found the storage `st₀`. -/
inductive Change (st₀ : MemStorage) : MemStorage → MemStorage → Prop
  | evict (kv : KeyValue) (perms : Json) (maxSize : UInt64) (keys : List Bytes)
      (h : Evicts cfg env callerId request st₀ kv perms maxSize keys) :
      Change st₀ st₀ (evict st₀ request.dbUuid keys)
  | write (st : MemStorage) (kv : KeyValue) (hw : Writes request kv) (hp : MayWrite cfg callerId request st₀)
      (h : (writeTo request kv st).1 = .ok) : Change st₀ st (writeTo request kv st).2
  | delete (st : MemStorage) (key : Bytes) (hp : MayWrite cfg callerId request st₀) :
      Change st₀ st (st.remove request.dbUuid key).2
  | createTtl (st : MemStorage) (key expires : Bytes) (hp : MayWrite cfg callerId request st₀)
      (h : (st.create ttlUuid (generateExpireKey cfg.json request.dbUuid key) expires).1 = .ok) :
      Change st₀ st (st.create ttlUuid (generateExpireKey cfg.json request.dbUuid key) expires).2
  | updateTtl (st : MemStorage) (key expires : Bytes) (hp : MayWrite cfg callerId request st₀)
      (h : (st.update ttlUuid (generateExpireKey cfg.json request.dbUuid key) expires).1 = .ok) :
      Change st₀ st (st.update ttlUuid (generateExpireKey cfg.json request.dbUuid key) expires).2
  | removeTtl (st : MemStorage) (key : Bytes) (hp : MayWrite cfg callerId request st₀) :
      Change st₀ st (st.remove ttlUuid (generateExpireKey cfg.json request.dbUuid key)).2
  | createDb (m : CreateDb) (perms : Bytes) (hm : request.msg = .createDb m)
      (h : (st₀.create permissionUuid request.dbUuid perms).1 = .ok) :
      Change st₀ st₀ (st₀.create permissionUuid request.dbUuid perms).2
  | updateDb (perms : Bytes) (hp : MayAdminister cfg callerId request st₀)
      (h : (st₀.update permissionUuid request.dbUuid perms).1 = .ok) :
      Change st₀ st₀ (st₀.update permissionUuid request.dbUuid perms).2
  | deleteDb (hp : MayAdminister cfg callerId request st₀) :
      Change st₀ st₀ ((st₀.remove permissionUuid request.dbUuid).2.removeAll request.dbUuid).2
  | flushTtl (st : MemStorage) (generatedKey key : Bytes) (hp : MayAdminister cfg callerId request st₀)
      (h : extractUuidKey cfg generatedKey = .ok (request.dbUuid, key)) :
      Change st₀ st (st.remove ttlUuid generatedKey).2

variable {cfg env callerId request}

theorem Evicts.mayWrite {maxSize : UInt64} (h : Evicts cfg env callerId request storage kv perms maxSize keys) :
    MayWrite cfg callerId request storage :=
  ⟨perms, h.permissions, h.writer⟩

end SwarmDb.Crud
