import SwarmDb.Lib.Bytes
import SwarmDb.Lib.Map

/-!
# Storage

`mem_storage`: for each uuid an ordered map from keys to values, and the bytes
it takes. Each operation has a lemma that says when it succeeds
(`create_result_iff`, `update_result_iff`) and one that says what is read
afterwards (`read_create`, `read_update`, `read_remove`).
-/

namespace SwarmDb

open Lib

/-- `storage_result`; `mem_storage` itself returns only some of the values. -/
inductive StorageResult where
  | ok
  | notFound
  | recordExists
  | ttlNotFound
  | notSaved
  | valueTooLarge
  | keyTooLarge
  | dbNotFound
  | dbExists
  | dbFull
  | accessDenied
  | deletePending
  | invalidArgument
  | invalidSize
  deriving DecidableEq, Repr

namespace StorageResult

/-- The number of a value. -/
def code : StorageResult → Nat
  | ok => 0
  | notFound => 1
  | recordExists => 2
  | ttlNotFound => 3
  | notSaved => 4
  | valueTooLarge => 5
  | keyTooLarge => 6
  | dbNotFound => 7
  | dbExists => 8
  | dbFull => 9
  | accessDenied => 10
  | deletePending => 11
  | invalidArgument => 12
  | invalidSize => 13

/-- `storage_result_msg` -/
def msg : StorageResult → String
  | ok => "OK"
  | notFound => "RECORD_NOT_FOUND"
  | recordExists => "RECORD_EXISTS"
  | ttlNotFound => "TTL_RECORD_NOT_FOUND"
  | notSaved => "NOT_SAVED"
  | valueTooLarge => "VALUE_SIZE_TOO_LARGE"
  | keyTooLarge => "KEY_SIZE_TOO_LARGE"
  | dbNotFound => "DATABASE_NOT_FOUND"
  | dbExists => "DATABASE_EXISTS"
  | dbFull => "INSUFFICIENT_SPACE"
  | accessDenied => "ACCESS_DENIED"
  | deletePending => "DELETE_PENDING"
  | invalidArgument => "INVALID_ARGUMENT"
  | invalidSize => "INVALID_SIZE_LIMITS_SET"

end StorageResult

/-- What a call of a storage may end with instead of a result. -/
inductive StorageFault where
  | badLexicalCast
  | undefinedBehaviour
  deriving DecidableEq, Repr

def maxKeySize : Nat := 4096
def maxValueSize : Nat := 256000

/-- The stores by uuid, each with its size in bytes. -/
structure MemStorage where
  kvStore : Map Bytes (UInt32 × Map Bytes Bytes)

instance : Inhabited MemStorage := ⟨⟨∅⟩⟩

namespace MemStorage

/-- The map of a uuid, empty where there is none yet. -/
def inner (s : MemStorage) (uuid : Bytes) : UInt32 × Map Bytes Bytes := (s.kvStore[uuid]?).getD (0, ∅)

def read (s : MemStorage) (uuid key : Bytes) : Option Bytes := (s.inner uuid).2[key]?

def create (s : MemStorage) (uuid key value : Bytes) : StorageResult × MemStorage :=
  if value.length > maxValueSize then (.valueTooLarge, s)
  else if key.length > maxKeySize then (.keyTooLarge, s)
  else if (s.read uuid key).isSome then (.recordExists, s)
  else
    let db := s.inner uuid
    (.ok, ⟨s.kvStore.insert uuid (db.1 + UInt32.ofNat (value.length + key.length), db.2.insert key value)⟩)

def update (s : MemStorage) (uuid key value : Bytes) : StorageResult × MemStorage :=
  if value.length > maxValueSize then (.valueTooLarge, s)
  else
    match s.read uuid key with
    | none => (.notFound, s)
    | some old =>
      let db := s.inner uuid
      (.ok, ⟨s.kvStore.insert uuid (db.1 - UInt32.ofNat old.length + UInt32.ofNat value.length,
        db.2.insert key value)⟩)

def remove (s : MemStorage) (uuid key : Bytes) : StorageResult × MemStorage :=
  match s.read uuid key with
  | none => (.notFound, s)
  | some old =>
    let db := s.inner uuid
    (.ok, ⟨s.kvStore.insert uuid (db.1 - UInt32.ofNat (old.length + key.length), db.2.erase key)⟩)

/-- `remove` of a whole uuid. -/
def removeAll (s : MemStorage) (uuid : Bytes) : StorageResult × MemStorage :=
  if s.kvStore.contains uuid then (.ok, ⟨s.kvStore.erase uuid⟩) else (.notFound, s)

def getKeys (s : MemStorage) (uuid : Bytes) : List Bytes := (s.inner uuid).2.toList.map Prod.fst

def has (s : MemStorage) (uuid key : Bytes) : Bool := decide (key ∈ s.getKeys uuid)

/-- The number of keys and the bytes they take with their values. -/
def getSize (s : MemStorage) (uuid : Bytes) : Nat × UInt64 :=
  ((s.getKeys uuid).length, (s.inner uuid).1.toUInt64)

def getKeySize (s : MemStorage) (uuid key : Bytes) : Option UInt64 :=
  (s.read uuid key).map fun value => UInt64.ofNat (key.length + value.length)

/-- The entries that `do_if` hands to its action: those from `first` up to, but
not including, `last` that meet the predicate, in order; all from `first` on
where `last` is empty. -/
def doIf (s : MemStorage) (uuid first last : Bytes) (predicate : Option (Bytes → Bytes → Bool)) :
    List (Bytes × Bytes) :=
  if last ≠ [] ∧ ¬ first < last then []
  else (s.inner uuid).2.toList.filter fun e =>
    (decide (¬ e.1 < first) && (last.isEmpty || decide (e.1 < last))) && predicate.all fun p => p e.1 e.2

def readIf (s : MemStorage) (uuid first last : Bytes) (predicate : Option (Bytes → Bytes → Bool)) :
    List (Bytes × Bytes) :=
  s.doIf uuid first last predicate

def getKeysIf (s : MemStorage) (uuid first last : Bytes) (predicate : Option (Bytes → Bytes → Bool)) : List Bytes :=
  (s.doIf uuid first last predicate).map Prod.fst

/-- `remove_range`, for `first` not after `last`: otherwise its loop may start
beyond its end. -/
def removeRange (s : MemStorage) (uuid first last : Bytes) : Except StorageFault MemStorage :=
  let db := s.inner uuid
  if db.2.toList.any fun e => decide (¬ e.1 < last) && decide (e.1 < first) then .error .undefinedBehaviour
  else
    let matched := db.2.toList.filter fun e => decide (¬ e.1 < first) && decide (e.1 < last)
    if s.kvStore.contains uuid then
      .ok ⟨s.kvStore.insert uuid (matched.foldl (fun db e =>
        (db.1 - UInt32.ofNat (e.2.length + e.1.length), db.2.erase e.1)) db)⟩
    else .ok s

/-! ## Snapshots -/

/-- A text archive of the stores. Reading one into a map clears the map, and
inserts the entries as they are read. -/
structure Archive where
  save : Map Bytes (UInt32 × Map Bytes Bytes) → Bytes
  /-- Whether a text can be read up to the start of the map. -/
  opens : Bytes → Bool
  /-- The entries before the end of the map or the first one that is malformed. -/
  entries : Bytes → List (Bytes × UInt32 × Map Bytes Bytes)
  /-- Whether the end of the map is reached. -/
  complete : Bytes → Bool
  opens_save : ∀ m, opens (save m) = true
  entries_save : ∀ m, entries (save m) = m.toList
  complete_save : ∀ m, complete (save m) = true

/-- Whether a text is read without an exception. -/
def Archive.decodes (archive : Archive) (data : Bytes) : Bool := archive.opens data && archive.complete data

/-- What a text that can be opened leaves in the map. -/
def Archive.loaded (archive : Archive) (data : Bytes) : MemStorage :=
  ⟨(archive.entries data).foldl (fun m e => m.insertIfNew e.1 e.2) ∅⟩

/-- `load_snapshot`: an exception is caught, and the map stays as it is then. -/
def loadSnapshot (archive : Archive) (data : Bytes) (s : MemStorage) : Bool × MemStorage :=
  (archive.decodes data, if archive.opens data then archive.loaded data else s)

/-! ## What is read afterwards -/

theorem read_default (uuid key : Bytes) : (default : MemStorage).read uuid key = none := by
  simp [read, inner, default]

theorem inner_insert (s : MemStorage) (uuid uuid' : Bytes) (db : UInt32 × Map Bytes Bytes) :
    inner ⟨s.kvStore.insert uuid db⟩ uuid' = if uuid = uuid' then db else s.inner uuid' := by
  simp only [inner, Map.lookup_insert]
  split <;> rfl

theorem create_result_iff (s : MemStorage) (uuid key value : Bytes) : (s.create uuid key value).1 = .ok ↔
    value.length ≤ maxValueSize ∧ key.length ≤ maxKeySize ∧ s.read uuid key = none := by
  rw [create]
  split
  · simp; omega
  · split
    · simp; omega
    · rename_i hv hk
      cases hr : s.read uuid key <;> simp_all

variable {s : MemStorage} {uuid key value : Bytes}

theorem isSome_read_of_recordExists
    (h : (s.create uuid key value).1 = .recordExists) : (s.read uuid key).isSome := by
  rw [create] at h
  split at h
  · cases h
  · split at h
    · cases h
    · split at h
      · assumption
      · cases h

theorem update_result_iff (s : MemStorage) (uuid key value : Bytes) : (s.update uuid key value).1 = .ok ↔
    value.length ≤ maxValueSize ∧ (s.read uuid key).isSome := by
  rw [update]
  split
  · simp; omega
  · split <;> simp_all

theorem remove_result_iff : (s.remove uuid key).1 = .ok ↔ (s.read uuid key).isSome := by
  rw [remove]
  split <;> simp_all

theorem read_create (h : (s.create uuid key value).1 = .ok)
    (uuid' key' : Bytes) :
    (s.create uuid key value).2.read uuid' key' =
      if uuid = uuid' ∧ key = key' then some value else s.read uuid' key' := by
  rw [create_result_iff] at h
  rw [create, if_neg (by omega), if_neg (by omega), if_neg (by simp [h.2.2])]
  simp only [read, inner_insert]
  by_cases hu : uuid = uuid'
  · subst hu; simp [Map.lookup_insert]
  · simp [hu]

theorem read_update (h : (s.update uuid key value).1 = .ok)
    (uuid' key' : Bytes) :
    (s.update uuid key value).2.read uuid' key' =
      if uuid = uuid' ∧ key = key' then some value else s.read uuid' key' := by
  rw [update_result_iff] at h
  obtain ⟨old, hold⟩ := Option.isSome_iff_exists.mp h.2
  rw [update, if_neg (by omega), hold]
  simp only [read, inner_insert]
  by_cases hu : uuid = uuid'
  · subst hu; simp [Map.lookup_insert]
  · simp [hu]

theorem read_remove (s : MemStorage) (uuid key uuid' key' : Bytes) :
    (s.remove uuid key).2.read uuid' key' = if uuid = uuid' ∧ key = key' then none else s.read uuid' key' := by
  rw [remove]
  split
  · rename_i h
    split
    · rename_i h'; rw [← h'.1, ← h'.2, h]
    · rfl
  · simp only [read, inner_insert]
    by_cases hu : uuid = uuid'
    · subst hu; simp [Map.lookup_erase]
    · simp [hu]

theorem inner_removeAll (s : MemStorage) (uuid uuid' : Bytes) :
    (s.removeAll uuid).2.inner uuid' = if uuid = uuid' then (0, ∅) else s.inner uuid' := by
  rw [removeAll]
  split
  · rw [inner, Map.lookup_erase]
    split <;> rfl
  · rename_i h
    split
    · rename_i hu
      subst hu
      rw [inner, Std.ExtTreeMap.getElem?_eq_none_of_contains_eq_false (Bool.eq_false_iff.mpr h)]
      rfl
    · rfl

theorem read_removeAll (s : MemStorage) (uuid uuid' key : Bytes) :
    (s.removeAll uuid).2.read uuid' key = if uuid = uuid' then none else s.read uuid' key := by
  rw [read, inner_removeAll]
  split
  · exact Map.lookup_empty key
  · rfl

theorem mem_getKeys : key ∈ s.getKeys uuid ↔ (s.read uuid key).isSome :=
  Map.mem_keys_iff

theorem has_eq (s : MemStorage) (uuid key : Bytes) : s.has uuid key = (s.read uuid key).isSome := by
  rw [has, Bool.eq_iff_iff, decide_eq_true_iff, mem_getKeys]

/-- An operation leaves the stores of other uuids alone. -/
theorem inner_create_of_ne {uuid' : Bytes} (h : uuid ≠ uuid') (s : MemStorage) (key value : Bytes) :
    (s.create uuid key value).2.inner uuid' = s.inner uuid' := by
  rw [create]
  split
  · rfl
  · split
    · rfl
    · split
      · rfl
      · rw [inner_insert, if_neg h]

theorem inner_update_of_ne {uuid' : Bytes} (h : uuid ≠ uuid') (s : MemStorage) (key value : Bytes) :
    (s.update uuid key value).2.inner uuid' = s.inner uuid' := by
  rw [update]
  split
  · rfl
  · split
    · rfl
    · rw [inner_insert, if_neg h]

theorem inner_remove_of_ne {uuid' : Bytes} (h : uuid ≠ uuid') (s : MemStorage) (key : Bytes) :
    (s.remove uuid key).2.inner uuid' = s.inner uuid' := by
  rw [remove]
  split
  · rfl
  · rw [inner_insert, if_neg h]

/-- What an operation does to the store of its uuid depends on that store only. -/
theorem create_congr {s' : MemStorage} (h : s.inner uuid = s'.inner uuid) (key value : Bytes) :
    (s.create uuid key value).1 = (s'.create uuid key value).1 ∧
      (s.create uuid key value).2.inner uuid = (s'.create uuid key value).2.inner uuid := by
  have hread : s.read uuid key = s'.read uuid key := by rw [read, h, read]
  simp only [create, hread]
  split
  · exact ⟨rfl, h⟩
  · split
    · exact ⟨rfl, h⟩
    · split
      · exact ⟨rfl, h⟩
      · simp only [inner_insert, if_true, h, and_self]

theorem update_congr {s' : MemStorage} (h : s.inner uuid = s'.inner uuid) (key value : Bytes) :
    (s.update uuid key value).1 = (s'.update uuid key value).1 ∧
      (s.update uuid key value).2.inner uuid = (s'.update uuid key value).2.inner uuid := by
  have hread : s.read uuid key = s'.read uuid key := by rw [read, h, read]
  simp only [update, hread]
  split
  · exact ⟨rfl, h⟩
  · split
    · exact ⟨rfl, h⟩
    · simp only [inner_insert, if_true, h, and_self]

theorem remove_congr {s' : MemStorage} (h : s.inner uuid = s'.inner uuid) (key : Bytes) :
    (s.remove uuid key).1 = (s'.remove uuid key).1 ∧
      (s.remove uuid key).2.inner uuid = (s'.remove uuid key).2.inner uuid := by
  have hread : s.read uuid key = s'.read uuid key := by rw [read, h, read]
  simp only [remove, hread]
  split
  · exact ⟨rfl, h⟩
  · simp only [inner_insert, if_true, h, and_self]

/-- An operation that does not succeed changes nothing. -/
theorem create_eq_of_ne_ok (h : (s.create uuid key value).1 ≠ .ok) :
    (s.create uuid key value).2 = s := by
  revert h
  rw [create]
  split
  · exact fun _ => rfl
  · split
    · exact fun _ => rfl
    · split
      · exact fun _ => rfl
      · exact fun h => absurd rfl h

theorem update_eq_of_ne_ok (h : (s.update uuid key value).1 ≠ .ok) :
    (s.update uuid key value).2 = s := by
  revert h
  rw [update]
  split
  · exact fun _ => rfl
  · split
    · exact fun _ => rfl
    · exact fun h => absurd rfl h

theorem remove_eq_of_read_eq_none (h : s.read uuid key = none) : (s.remove uuid key).2 = s := by
  rw [remove, h]

theorem mem_getKeysIf {first last : Bytes} (hl : last ≠ []) (h : first < last) :
    key ∈ s.getKeysIf uuid first last none ↔ (s.read uuid key).isSome ∧ ¬ key < first ∧ key < last := by
  rw [getKeysIf, doIf, if_neg (by simp [h])]
  simp only [List.mem_filter, List.mem_map, Prod.exists, exists_and_right, exists_eq_right, Map.mem_toList_iff,
    Option.all_none, Bool.and_true, Bool.and_eq_true, decide_eq_true_eq, Bool.or_eq_true, List.isEmpty_iff,
      hl, false_or,
    read, Option.isSome_iff_exists]

/-! ## The number of keys -/

theorem length_remove (h : (s.read uuid key).isSome) :
    ((s.remove uuid key).2.inner uuid).2.toList.length + 1 = (s.inner uuid).2.toList.length := by
  obtain ⟨old, hold⟩ := Option.isSome_iff_exists.mp h
  have hk : key ∈ (s.inner uuid).2 := Std.ExtTreeMap.mem_iff_isSome_getElem?.mpr h
  have hc := Std.ExtTreeMap.contains_iff_mem.mpr hk
  have hpos : 0 < (s.inner uuid).2.size := by
    rw [Nat.pos_iff_ne_zero]
    intro hz
    rw [Std.ExtTreeMap.eq_empty_iff_size_eq_zero.mpr hz] at hk
    exact absurd hk Std.ExtTreeMap.not_mem_empty
  simp only [remove, hold, inner_insert, if_true, Std.ExtTreeMap.length_toList, Std.ExtTreeMap.size_erase, hc]
  omega

theorem length_update (s : MemStorage) (uuid key value : Bytes) :
    ((s.update uuid key value).2.inner uuid).2.toList.length = (s.inner uuid).2.toList.length := by
  rw [update]
  split
  · rfl
  · split
    · rfl
    · rename_i old hold
      have hk : key ∈ (s.inner uuid).2 := Std.ExtTreeMap.mem_iff_isSome_getElem?.mpr (Option.isSome_of_eq_some hold)
      have hc := Std.ExtTreeMap.contains_iff_mem.mpr hk
      simp only [inner_insert, if_true, Std.ExtTreeMap.length_toList, Std.ExtTreeMap.size_insert, hc]

end MemStorage

end SwarmDb
