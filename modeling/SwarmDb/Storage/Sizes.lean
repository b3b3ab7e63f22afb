import SwarmDb.Lib.Totals
import SwarmDb.Storage.MemStorage

/-!
# The size of a store

`mem_storage` keeps the bytes of each store in a counter of 32 bits, which it adds
to and takes from with each operation. The counter is the exact number of bytes
(`dataSize`), modulo the width of the counter (`Counted`).
-/

namespace SwarmDb.MemStorage

open Lib

/-- The bytes of an entry. -/
def entryBytes (key value : Bytes) : Nat := key.length + value.length

/-- The exact number of bytes under a uuid. -/
def dataSize (s : MemStorage) (uuid : Bytes) : Nat := Map.total entryBytes (s.inner uuid).2

/-- The bytes of one key and its value, zero where the key is not there. -/
def entrySize (s : MemStorage) (uuid key : Bytes) : Nat := Map.weight entryBytes (s.inner uuid).2 key

/-- The counters are the numbers of bytes, modulo their width. -/
def Counted (s : MemStorage) : Prop := ∀ uuid, (s.inner uuid).1 = UInt32.ofNat (s.dataSize uuid)

variable {s s' : MemStorage} {uuid key value : Bytes}

theorem entrySize_eq (s : MemStorage) (uuid key : Bytes) :
    s.entrySize uuid key = (s.read uuid key).elim 0 fun value => key.length + value.length := rfl

theorem entrySize_le (s : MemStorage) (uuid key : Bytes) : s.entrySize uuid key ≤ s.dataSize uuid :=
  Map.weight_le_total key

theorem toNat_getSize (h : s.Counted) (uuid : Bytes) : (s.getSize uuid).2.toNat = s.dataSize uuid % 2 ^ 32 := by
  rw [getSize, h, UInt32.toNat_toUInt64, UInt32.toNat_ofNat']

/-- The sizes where only one key of a uuid is written. -/
theorem dataSize_apart (key : Bytes) (h : ∀ k, k ≠ key → s'.read uuid k = s.read uuid k) :
    s'.dataSize uuid + s.entrySize uuid key = s.dataSize uuid + s'.entrySize uuid key :=
  Map.total_apart key h

/-- The sizes where some keys of a uuid are removed. -/
theorem dataSize_erased (keys : List Bytes) (h : ∀ k, s'.read uuid k = if k ∈ keys then none else s.read uuid k) :
    s'.dataSize uuid + ∑ k ∈ keys.toFinset, s.entrySize uuid k = s.dataSize uuid := by
  refine Map.total_erased keys.toFinset fun k => (h k).trans ?_
  simp only [List.mem_toFinset]
  rfl

theorem dataSize_create (h : (s.create uuid key value).1 = .ok) :
    (s.create uuid key value).2.dataSize uuid = s.dataSize uuid + (key.length + value.length) := by
  have hread := read_create h uuid
  have hnone := ((create_result_iff ..).mp h).2.2
  have hapart := dataSize_apart key fun k hk => (hread k).trans (if_neg fun e => hk e.2.symm)
  rwa [entrySize_eq, entrySize_eq, hread, if_pos ⟨rfl, rfl⟩, hnone] at hapart

variable {old : Bytes}

theorem dataSize_update (h : (s.update uuid key value).1 = .ok) (hold : s.read uuid key = some old) :
    (s.update uuid key value).2.dataSize uuid + old.length = s.dataSize uuid + value.length := by
  have hread := read_update h uuid
  have hapart := dataSize_apart key fun k hk => (hread k).trans (if_neg fun e => hk e.2.symm)
  rw [entrySize_eq, entrySize_eq, hread, if_pos ⟨rfl, rfl⟩, hold] at hapart
  simp only [Option.elim_some] at hapart
  omega

theorem dataSize_remove (hold : s.read uuid key = some old) :
    (s.remove uuid key).2.dataSize uuid + (key.length + old.length) = s.dataSize uuid := by
  have hread := read_remove s uuid key uuid
  have hapart := dataSize_apart key fun k hk => (hread k).trans (if_neg fun e => hk e.2.symm)
  rwa [entrySize_eq, entrySize_eq, hread, if_pos ⟨rfl, rfl⟩, hold] at hapart

/-! ## The counter -/

theorem dataSize_of_inner (h : s'.inner uuid = s.inner uuid) : s'.dataSize uuid = s.dataSize uuid := by
  rw [dataSize, dataSize, h]

theorem counted_default : (default : MemStorage).Counted := fun uuid => by
  rw [dataSize]
  have hinner : (default : MemStorage).inner uuid = (0, ∅) := by
    rw [inner, show (default : MemStorage).kvStore = ∅ from rfl, Map.lookup_empty]
    rfl
  rw [hinner, Map.total_empty]
  rfl

/-- The counter of one uuid is written, and the others stay. -/
theorem Counted.of_inner (h : s.Counted) (uuid : Bytes) (hother : ∀ u, uuid ≠ u → s'.inner u = s.inner u)
    (hcount : (s'.inner uuid).1 = UInt32.ofNat (s'.dataSize uuid)) : s'.Counted := by
  intro u
  by_cases hu : uuid = u
  · exact hu ▸ hcount
  · rw [hother u hu, dataSize_of_inner (hother u hu), h u]

theorem Counted.create (h : s.Counted) (hok : (s.create uuid key value).1 = .ok) :
    (s.create uuid key value).2.Counted := by
  refine h.of_inner uuid (fun u hu => inner_create_of_ne hu ..) ?_
  rw [dataSize_create hok, UInt32.ofNat_add, ← h uuid]
  rw [create_result_iff] at hok
  rw [MemStorage.create, if_neg (by omega), if_neg (by omega), if_neg (by simp [hok.2.2])]
  simp only [inner_insert, if_true, Nat.add_comm value.length]

theorem Counted.update (h : s.Counted) (hok : (s.update uuid key value).1 = .ok) :
    (s.update uuid key value).2.Counted := by
  refine h.of_inner uuid (fun u hu => inner_update_of_ne hu ..) ?_
  obtain ⟨hvalue, hsome⟩ := (update_result_iff ..).mp hok
  obtain ⟨old, hold⟩ := Option.isSome_iff_exists.mp hsome
  have hsize := congrArg UInt32.ofNat (dataSize_update hok hold)
  rw [UInt32.ofNat_add, UInt32.ofNat_add, ← h uuid] at hsize
  rw [eq_comm, ← UInt32.add_left_inj (UInt32.ofNat old.length), hsize]
  rw [MemStorage.update, if_neg (by omega), hold]
  simp only [inner_insert, if_true]
  grind

theorem Counted.remove (h : s.Counted) (uuid key : Bytes) : (s.remove uuid key).2.Counted := by
  cases hold : s.read uuid key with
  | none => rwa [remove_eq_of_read_eq_none hold]
  | some old =>
    refine h.of_inner uuid (fun u hu => inner_remove_of_ne hu ..) ?_
    have hsize := congrArg UInt32.ofNat (dataSize_remove hold)
    rw [UInt32.ofNat_add, ← h uuid] at hsize
    rw [MemStorage.remove, hold] at hsize ⊢
    simp only [inner_insert, if_true] at hsize ⊢
    grind

theorem Counted.removeAll (h : s.Counted) (uuid : Bytes) : (s.removeAll uuid).2.Counted := by
  intro u
  rw [dataSize, inner_removeAll]
  split
  · rw [Map.total_empty]
    rfl
  · exact h u

end SwarmDb.MemStorage
