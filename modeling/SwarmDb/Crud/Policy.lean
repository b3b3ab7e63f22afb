import SwarmDb.Crud.Messages
import SwarmDb.Lib.Json
import SwarmDb.Pbft.PersistentText

/-!
# Eviction policies

The keys that a database gives up to make room for a request: `policy::random`
and `policy::volatile_ttl`. Sizes are of 64 bits and wrap around as they do in
the source. The pseudo-random generator and the sort of the standard library
are parameters (`Mt19937`, `TtlSort`), with what their documentation says.
-/

namespace SwarmDb.Crud

open Lib

/-- A throw of the JSON library. -/
def ofJson {α : Type} : Except String α → Except Fault α
  | .ok a => .ok a
  | .error what => .error (.exception what)

/-- `value[name].asString()` -/
def memberString (name : String) (value : Json) : Except Fault Bytes := do
  let m ← ofJson (value.member (ascii name))
  ofJson m.asString

/-- `boost::lexical_cast<uint64_t>` -/
def toUInt64 (text : Bytes) : Except Fault UInt64 :=
  match lexicalCast text with
  | some n => .ok n
  | none => .error (.exception "bad_lexical_cast")

@[simp] theorem toUInt64_decimal (n : UInt64) : toUInt64 (decimal n.toNat) = .ok n := by
  rw [toUInt64, lexicalCast_decimal]

def byteSize (b : Bytes) : UInt64 := UInt64.ofNat b.length

/-! ## Expiry times -/

/-- The uuid under which the expiry times are stored. -/
def ttlUuid : Bytes := ascii "TTL"

def generateExpireKey (json : JsonText) (uuid key : Bytes) : Bytes :=
  json.toStyledString (.object [(ascii "key", .string key), (ascii "uuid", .string uuid)])

/-- What is printed as the key of an expiry time. -/
def expireName (uuid key : Bytes) : Json := .object [(ascii "key", .string key), (ascii "uuid", .string uuid)]

/-! ## Random -/

/-- Numbers drawn from a generator that was seeded with a hash. -/
structure Mt19937 where
  /-- The number from `0` to `n` that is drawn after others with the given bounds. -/
  draw : Bytes → List Nat → Nat → Nat
  draw_le : ∀ hash drawn n, draw hash drawn n ≤ n

section Random

variable (mt : Mt19937) (storage : MemStorage) (request : Request)

/-- The loop of `random::keys_to_evict`, for as many keys as are available:
what is still to be freed and the keys to evict at its end. -/
def selectRandom (ignoreKey : Bytes) : Nat → List Nat → UInt64 → List Bytes → List Bytes → UInt64 × List Bytes
  | 0, _, storageToFree, _, keysToEvict => (storageToFree, keysToEvict)
  | n + 1, drawn, storageToFree, availableKeys, keysToEvict =>
    if storageToFree = 0 then (storageToFree, keysToEvict)
    else
      let i := mt.draw request.header.requestHash drawn n
      let key := availableKeys.getD i []
      let rest := availableKeys.eraseIdx i
      if key = ignoreKey then selectRandom ignoreKey n (n :: drawn) storageToFree rest keysToEvict
      else
        match storage.getKeySize request.dbUuid key with
        | some evictedSize =>
          selectRandom ignoreKey n (n :: drawn)
            (storageToFree - if evictedSize < storageToFree then evictedSize else storageToFree) rest
            (keysToEvict ++ [key])
        | none => selectRandom ignoreKey n (n :: drawn) storageToFree rest keysToEvict

/-- The bytes that a request adds, as the policies count them. -/
def keyValueSize : UInt64 :=
  if request.hasUpdate then byteSize request.update.value
  else byteSize request.create.key + byteSize request.create.value

/-- The key that a policy must not choose. -/
def ignoreKey : Bytes := if request.hasUpdate then request.update.key else []

/-- `random::keys_to_evict` -/
def randomKeysToEvict (maxSize : UInt64) : List Bytes :=
  let size := (storage.getSize request.dbUuid).2
  let availableKeys := storage.getKeys request.dbUuid
  let r := selectRandom mt storage request (ignoreKey request) availableKeys.length []
    (keyValueSize request - (maxSize - size)) availableKeys []
  if r.1 = 0 then r.2 else []

end Random

/-! ## Volatile TTL -/

structure TtlItem where
  key : Bytes
  valueSize : UInt64
  ttl : UInt64
  deriving DecidableEq, Repr

/-- `std::sort` by falling size of the values. -/
structure TtlSort where
  sort : List TtlItem → List TtlItem
  perm : ∀ l, (sort l).Perm l
  sorted : ∀ l, (sort l).Pairwise fun a b => b.valueSize ≤ a.valueSize

section VolatileTtl

variable (json : JsonText) (order : TtlSort) (storage : MemStorage) (request : Request)

/-- The predicate of `filter_ttls`. -/
def keepTtl (dbUuid ignoreKey ttl : Bytes) : Except Fault Bool :=
  match json.parse ttl with
  | .error _ => .ok false
  | .ok root => do
    let key ← ofJson (root.member (ascii "key"))
    if key.isString ignoreKey then pure false
    else do
      let uuid ← memberString "uuid" root
      pure (uuid = dbUuid)

def filterTtls (ttls : List Bytes) (dbUuid ignoreKey : Bytes) : Except Fault (List Bytes) :=
  ttls.filterM (keepTtl json dbUuid ignoreKey)

/-- One element of `get_ttl_items`. -/
def getTtlItem (dbUuid ttl : Bytes) : Except Fault TtlItem :=
  match json.parse ttl with
  | .error _ => .ok ⟨[], 0, 0⟩
  | .ok root => do
    let key ← memberString "key" root
    match storage.read dbUuid key, storage.read ttlUuid (generateExpireKey json dbUuid key) with
    | some value, some expire => do
      let expire ← toUInt64 expire
      pure ⟨key, byteSize value, expire⟩
    | _, _ => pure ⟨[], 0, 0⟩

/-- The loop over the sorted items: what is still required, and the keys. -/
def selectTtls : UInt64 → List TtlItem → UInt64 × List Bytes
  | requiredSize, [] => (requiredSize, [])
  | requiredSize, item :: items =>
    let requiredSize := requiredSize - if item.valueSize < requiredSize then item.valueSize else requiredSize
    if requiredSize = 0 then (0, [item.key])
    else ((selectTtls requiredSize items).1, item.key :: (selectTtls requiredSize items).2)

/-- `volatile_ttl::keys_to_evict` -/
def ttlKeysToEvict (maxDbSize : UInt64) : Except Fault (List Bytes) := do
  let ourTtls ← filterTtls json (storage.getKeys ttlUuid) request.dbUuid (ignoreKey request)
  if ourTtls.isEmpty then pure []
  else do
    let ttlItems ← ourTtls.mapM (getTtlItem json storage request.dbUuid)
    let currentDbSize := (storage.getSize request.dbUuid).2
    let currentFree := (maxDbSize - currentDbSize) - (if request.hasUpdate then byteSize request.update.value else 0)
    let r := selectTtls (keyValueSize request - currentFree) (order.sort ttlItems)
    pure (if r.1 = 0 then r.2 else [])

end VolatileTtl

/-! ## Either -/

/-- The policies that evict. -/
inductive EvictionPolicy where
  | random
  | volatileTtl
  deriving DecidableEq, Repr

/-- `keys_to_evict`; a set in the source. -/
def EvictionPolicy.keysToEvict (json : JsonText) (mt : Mt19937) (order : TtlSort) (storage : MemStorage)
    (request : Request) (maxSize : UInt64) : EvictionPolicy → Except Fault (List Bytes)
  | random => .ok (randomKeysToEvict mt storage request maxSize)
  | volatileTtl => ttlKeysToEvict json order storage request maxSize

end SwarmDb.Crud
