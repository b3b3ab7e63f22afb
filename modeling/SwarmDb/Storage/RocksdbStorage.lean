import SwarmDb.Lib.Scan
import SwarmDb.Storage.MemStorage

/-!
# Storage on disk

`rocksdb_storage` over an ordered map whose operations succeed. A key is stored under the uuid followed by it; under
`METADATA` followed by the uuid there are the bytes that each key takes with its value, and that all of them take.
`getMetadataSize` is the only function that may throw, and each operation calls it before it writes.
-/

namespace SwarmDb

open Lib

structure RocksdbStorage where
  db : Map Bytes Bytes

instance : Inhabited RocksdbStorage := ⟨⟨∅⟩⟩

namespace RocksdbStorage

def metadataUuid : Bytes := ascii "METADATA"
def namespaceKey : Bytes := ascii "NAMESPACE"
def sizeKey : Bytes := ascii "SIZE"

def generateKey (uuid key : Bytes) : Bytes := uuid ++ key

/-- `boost::lexical_cast<uint32_t>`: a sign may stand before the digits, and a
minus wraps around. -/
def lexicalCast32 (s : Bytes) : Option UInt32 :=
  let unsigned (t : Bytes) : Option UInt32 :=
    (digitsValue t).bind fun n => if n < 2 ^ 32 then some (UInt32.ofNat n) else none
  match s with
  | [] => none
  | ch :: rest => if ch = 45 then (unsigned rest).map (0 - ·) else if ch = 43 then unsigned rest else unsigned s

/-! ## Sizes -/

def updateMetadataSize (s : RocksdbStorage) (uuid metadataKey key : Bytes) (size : UInt32) : RocksdbStorage :=
  ⟨s.db.insert (generateKey (metadataUuid ++ uuid ++ metadataKey) key) (decimal size.toNat)⟩

def deleteMetadataSize (s : RocksdbStorage) (uuid metadataKey key : Bytes) : RocksdbStorage :=
  ⟨s.db.erase (generateKey (metadataUuid ++ uuid ++ metadataKey) key)⟩

def getMetadataSize (s : RocksdbStorage) (uuid metadataKey key : Bytes) : Except StorageFault UInt32 :=
  match s.db[generateKey (metadataUuid ++ uuid ++ metadataKey) key]? with
  | none => .ok 0
  | some value =>
    match lexicalCast32 value with
    | none => .error .badLexicalCast
    | some n => .ok n

/-! ## Operations -/

/-- The entries that begin with a string, as the loops of the source pass them. -/
def startingWith (s : RocksdbStorage) (uuid : Bytes) : List (Bytes × Bytes) :=
  s.db.scan uuid fun k => uuid.isPrefixOf k

def hasPriv (s : RocksdbStorage) (uuid key : Bytes) : Bool :=
  (s.startingWith uuid).any fun e => e.1 == generateKey uuid key

def create (s : RocksdbStorage) (uuid key value : Bytes) : Except StorageFault (StorageResult × RocksdbStorage) :=
  if value.length > maxValueSize then .ok (.valueTooLarge, s)
  else if key.length > maxKeySize then .ok (.keyTooLarge, s)
  else if s.hasPriv uuid key then .ok (.recordExists, s)
  else do
    let nsPrevSize ← s.getMetadataSize uuid namespaceKey sizeKey
    let saved : RocksdbStorage := ⟨s.db.insert (generateKey uuid key) value⟩
    let counted := saved.updateMetadataSize uuid namespaceKey sizeKey
      (nsPrevSize + UInt32.ofNat value.length + UInt32.ofNat key.length)
    pure (.ok, counted.updateMetadataSize uuid sizeKey key (UInt32.ofNat (value.length + key.length)))

def read (s : RocksdbStorage) (uuid key : Bytes) : Option Bytes := s.db[generateKey uuid key]?

def update (s : RocksdbStorage) (uuid key value : Bytes) : Except StorageFault (StorageResult × RocksdbStorage) :=
  if value.length > maxValueSize then .ok (.valueTooLarge, s)
  else if s.hasPriv uuid key then do
    let prevSize ← s.getMetadataSize uuid sizeKey key
    let nsPrevSize ← s.getMetadataSize uuid namespaceKey sizeKey
    let saved : RocksdbStorage := ⟨s.db.insert (generateKey uuid key) value⟩
    let counted := saved.updateMetadataSize uuid namespaceKey sizeKey
      (nsPrevSize - prevSize + UInt32.ofNat value.length + UInt32.ofNat key.length)
    pure (.ok, counted.updateMetadataSize uuid sizeKey key (UInt32.ofNat (value.length + key.length)))
  else .ok (.notFound, s)

def remove (s : RocksdbStorage) (uuid key : Bytes) : Except StorageFault (StorageResult × RocksdbStorage) :=
  if s.hasPriv uuid key then do
    let prevSize ← s.getMetadataSize uuid sizeKey key
    let nsPrevSize ← s.getMetadataSize uuid namespaceKey sizeKey
    let deleted : RocksdbStorage := ⟨s.db.erase (generateKey uuid key)⟩
    let counted := deleted.updateMetadataSize uuid namespaceKey sizeKey (nsPrevSize - prevSize)
    pure (.ok, counted.deleteMetadataSize uuid sizeKey key)
  else .ok (.notFound, s)

def getKeys (s : RocksdbStorage) (uuid : Bytes) : List Bytes :=
  (s.startingWith uuid).map fun e => e.1.drop uuid.length

def has (s : RocksdbStorage) (uuid key : Bytes) : Bool := s.hasPriv uuid key

def getSize (s : RocksdbStorage) (uuid : Bytes) : Except StorageFault (Nat × UInt64) := do
  let keys := (s.startingWith uuid).length
  let size ← s.getMetadataSize uuid namespaceKey sizeKey
  pure (keys, size.toUInt64)

def getKeySize (s : RocksdbStorage) (uuid key : Bytes) : Except StorageFault (Option UInt64) :=
  if s.hasPriv uuid key then do
    let size ← s.getMetadataSize uuid sizeKey key
    pure (some size.toUInt64)
  else .ok none

/-- `remove` of a whole uuid. The iterator shows the map as it was before the
first deletion. -/
def removeAll (s : RocksdbStorage) (uuid : Bytes) : StorageResult × RocksdbStorage :=
  let keys := s.startingWith uuid
  let metadata := s.startingWith (metadataUuid ++ uuid)
  (if keys.length ≠ 0 then .ok else .notFound, ⟨(keys ++ metadata).foldl (fun db e => db.erase e.1) s.db⟩)

def removeRange (s : RocksdbStorage) (uuid first last : Bytes) : RocksdbStorage :=
  ⟨s.db.eraseRange (generateKey uuid first) (generateKey uuid last)⟩

/-- The entries that `do_if` hands to its action. -/
def doIf (s : RocksdbStorage) (uuid first last : Bytes) (predicate : Option (Bytes → Bytes → Bool)) :
    List (Bytes × Bytes) :=
  let startKey := uuid ++ first
  let endKey := if last.isEmpty then [] else uuid ++ last
  let passed := s.db.scan startKey fun k =>
    uuid.isPrefixOf k && decide (¬ k < startKey) && (endKey.isEmpty || decide (k < endKey))
  (passed.map fun e => (e.1.drop uuid.length, e.2)).filter fun e => predicate.all fun p => p e.1 e.2

def readIf (s : RocksdbStorage) (uuid first last : Bytes) (predicate : Option (Bytes → Bytes → Bool)) :
    List (Bytes × Bytes) :=
  s.doIf uuid first last predicate

def getKeysIf (s : RocksdbStorage) (uuid first last : Bytes) (predicate : Option (Bytes → Bytes → Bool)) : List Bytes :=
  (s.doIf uuid first last predicate).map Prod.fst

@[simp] theorem lexicalCast32_decimal (n : UInt32) : lexicalCast32 (decimal n.toNat) = some n := by
  have hd := digitsValue_decimal n.toNat
  have hrange := fun c (hc : c ∈ decimal n.toNat) => decimal_range hc
  rcases h : decimal n.toNat with - | ⟨c, t⟩
  · rw [h] at hd
    cases hd
  · rw [h] at hd hrange
    have hc := hrange c (List.mem_cons_self ..)
    rw [lexicalCast32, if_neg (by rintro rfl; exact absurd hc.1 (by decide)),
      if_neg (by rintro rfl; exact absurd hc.1 (by decide))]
    simp only [hd, Option.bind_some, if_pos n.toNat_lt, UInt32.ofNat_toNat]

variable {s : RocksdbStorage} {uuid metadataKey : Bytes}

theorem getMetadataSize_of_none {key : Bytes}
    (h : s.db[generateKey (metadataUuid ++ uuid ++ metadataKey) key]? = none) :
    s.getMetadataSize uuid metadataKey key = .ok 0 := by
  rw [getMetadataSize, h]

theorem getMetadataSize_of_decimal {key : Bytes} {n : UInt32}
    (h : s.db[generateKey (metadataUuid ++ uuid ++ metadataKey) key]? = some (decimal n.toNat)) :
    s.getMetadataSize uuid metadataKey key = .ok n := by
  rw [getMetadataSize, h]
  simp only [lexicalCast32_decimal]

/-! ## What the scans show -/

theorem mem_startingWith {r v : Bytes} : (r, v) ∈ s.startingWith uuid ↔ s.db[r]? = some v ∧ uuid <+: r := by
  rw [startingWith, Map.scan_startingWith, List.mem_filter, Map.mem_toList_iff, List.isPrefixOf_iff_prefix]

theorem hasPriv_eq (s : RocksdbStorage) (uuid key : Bytes) : s.hasPriv uuid key = (s.read uuid key).isSome := by
  rw [Bool.eq_iff_iff, hasPriv, List.any_eq_true, Option.isSome_iff_exists]
  constructor
  · rintro ⟨⟨r, v⟩, hmem, heq⟩
    cases eq_of_beq heq
    exact ⟨v, (mem_startingWith.mp hmem).1⟩
  · rintro ⟨v, hv⟩
    exact ⟨(generateKey uuid key, v), mem_startingWith.mpr ⟨hv, List.prefix_append uuid key⟩, BEq.rfl⟩

/-- The keys of a uuid, in order, are those of a map that looks the same. -/
theorem startingWith_map_drop {m : Map Bytes Bytes} (h : ∀ k, s.read uuid k = m[k]?) :
    (s.startingWith uuid).map (fun e => (e.1.drop uuid.length, e.2)) = m.toList :=
  Map.map_drop_scan_startingWith h

theorem lookup_removeAll (s : RocksdbStorage) (uuid r : Bytes) :
    (s.removeAll uuid).2.db[r]? = if uuid <+: r ∨ metadataUuid ++ uuid <+: r then none else s.db[r]? := by
  have hmem : r ∈ (s.startingWith uuid ++ s.startingWith (metadataUuid ++ uuid)).map Prod.fst ↔
      (s.db[r]?).isSome ∧ (uuid <+: r ∨ metadataUuid ++ uuid <+: r) := by
    simp only [List.mem_map, List.mem_append, Prod.exists, mem_startingWith, ← and_or_left, exists_and_right,
      exists_eq_right, Option.isSome_iff_exists]
  rw [removeAll, Map.lookup_foldl_erase]
  by_cases hp : uuid <+: r ∨ metadataUuid ++ uuid <+: r
  · rw [if_pos hp]
    cases hr : s.db[r]? with
    | none => exact ite_self none
    | some v => rw [if_pos (hmem.mpr ⟨Option.isSome_of_eq_some hr, hp⟩)]
  · rw [if_neg hp, if_neg fun h => hp (hmem.mp h).2]

end RocksdbStorage

end SwarmDb
