import SwarmDb.Crud.Policy
import SwarmDb.Crud.Subscriptions

/-!
# The database of a swarm

`crud`: databases with permissions, expiring keys and a limit of their size, over one storage. The permissions of a
database are a JSON text in the store `PERMS`, and the expiry times of its keys are in the store `TTL`. The clock is
read once for each request.
-/

namespace SwarmDb

open Lib Program

/-- What a `crud` is built from, and the swarm around it. -/
structure Crud.Config where
  json : JsonText
  mt : Crud.Mt19937
  order : Crud.TtlSort
  /-- The uuids of `pbft->peers()->current()`. -/
  peers : List Bytes
  ownerPublicKey : Bytes
  /-- No limit where it is zero. -/
  maxSwarmStorage : UInt64
  /-- Whether there is a node to send responses with. -/
  hasNode : Bool

/-- The storage, the subscriptions and the responses that were sent. -/
structure Crud where
  storage : MemStorage
  subscriptions : Crud.SubscriptionManager
  answers : List Crud.Answer

namespace Crud

def permissionUuid : Bytes := ascii "PERMS"
def ownerKey : Bytes := ascii "OWNER"
def writersKey : Bytes := ascii "WRITERS"
def maxSizeKey : Bytes := ascii "MAX_SIZE"
def evictionPolicyKey : Bytes := ascii "EVICTION_POLICY"

/-- The text of an exception. -/
def showBytes (b : Bytes) : String := String.ofList (b.map fun c => Char.ofNat c.toNat)

/-- `std::isspace` -/
def isSpace (c : UInt8) : Bool := c = 32 ∨ (9 ≤ c ∧ c ≤ 13)

/-- `boost::trim_copy` -/
def trimCopy (s : Bytes) : Bytes := ((s.dropWhile isSpace).reverse.dropWhile isSpace).reverse

variable (cfg : Config)

/-! ## Permissions -/

/-- `get_database_permissions`: none where there is no such database. -/
def getDatabasePermissions (storage : MemStorage) (uuid : Bytes) : Except Fault (Option Json) :=
  if storage.has permissionUuid uuid then
    match storage.read permissionUuid uuid with
    | none => .error (.runtimeError "Failed to read database permission data!")
    | some permsData =>
      match cfg.json.parse permsData with
      | .ok json => .ok (some json)
      | .error parseErrors =>
        .error (.runtimeError ("Failed to parse database json permission data: " ++ parseErrors))
  else .ok none

def isCallerOwner (callerId : Bytes) (perms : Json) : Except Fault Bool := do
  let owner ← ofJson (perms.member ownerKey)
  pure (owner.isString (trimCopy callerId))

def isCallerAWriter (callerId : Bytes) (perms : Json) : Except Fault Bool := do
  let writers ← ofJson (perms.member writersKey)
  if writers.elements.any fun writerId => writerId.isString (trimCopy callerId) then pure true
  else if cfg.peers.any fun uuid => uuid = trimCopy callerId then pure true
  else isCallerOwner callerId perms

def createPermissionData (callerId : Bytes) (request : CreateDb) : Json :=
  .object [(evictionPolicyKey, .int request.evictionPolicy.number.toUInt16.toNat),
    (maxSizeKey, .int request.maxSize.toNat), (ownerKey, .string (trimCopy callerId)), (writersKey, .array [])]

/-- The permissions of a database. -/
def permissionsOf (policy : UInt16) (maxSize : UInt64) (owner : Bytes) (writers : List Bytes) : Json :=
  .object [(evictionPolicyKey, .int policy.toNat), (maxSizeKey, .int maxSize.toNat), (ownerKey, .string owner),
    (writersKey, .array (writers.map .string))]

/-- `update_permission_data`, before it is printed. -/
def updatePermissionData (perms : Json) (request : CreateDb) : Except Fault Json := do
  let perms ← ofJson (perms.setMember maxSizeKey (.int request.maxSize.toNat))
  ofJson (perms.setMember evictionPolicyKey (.int request.evictionPolicy.number.toUInt16.toNat))

/-- The list of writers after a change of the set of them, which is in the order
of the strings. -/
def changeWriters (change : Map Bytes Unit → Map Bytes Unit) (perms : Json) : Except Fault Json := do
  let list ← ofJson (perms.member writersKey)
  let current ← list.elements.mapM fun writer => ofJson writer.asString
  let writers := change (current.foldl (fun set writer => set.insert writer ()) ∅)
  let list ← ofJson (list.refill (writers.toList.map fun writer => .string writer.1))
  ofJson (perms.setMember writersKey list)

/-- `add_writers`: the owner is never in the list. -/
def addWriters (writers : List Bytes) (perms : Json) : Except Fault Json := do
  let owner ← ofJson (perms.member ownerKey)
  let owner ← ofJson owner.asString
  changeWriters (fun current => writers.foldl (fun set writer =>
    if writer ≠ owner then set.insert writer () else set) current) perms

def removeWriters (writers : List Bytes) (perms : Json) : Except Fault Json :=
  changeWriters (fun current => writers.foldl (fun set writer => set.erase writer) current) perms

/-- `max_database_size`: the printed value is read as a number. -/
def maxDatabaseSize (perms : Json) : Except Fault UInt64 := do
  let maxSize ← ofJson (perms.member maxSizeKey)
  match maxSize.numberText with
  | some text => toUInt64 text
  | none => .error (.exception "bad_lexical_cast")

def getEvictionPolicy (perms : Json) : Except Fault (Option EvictionPolicy) := do
  let policy ← ofJson (perms.member evictionPolicyKey)
  pure (if policy.isInt 1 then some .random else if policy.isInt 2 then some .volatileTtl else none)

/-! ## Expiry times -/

def extractUuidKey (key : Bytes) : Except Fault (Bytes × Bytes) :=
  match cfg.json.parse key with
  | .error parseErrors => .error (.runtimeError ("Failed to parse database json ttl data: " ++ parseErrors))
  | .ok json => do
    let uuid ← memberString "uuid" json
    let key ← memberString "key" json
    pure (uuid, key)

/-- The expiry time of a key. -/
def expiryTime (storage : MemStorage) (uuid key : Bytes) : Except Fault (Option UInt64) :=
  match storage.read ttlUuid (generateExpireKey cfg.json uuid key) with
  | none => .ok none
  | some text => do
    let expire ← toUInt64 text
    pure (some expire)

def expired (now : UInt64) (storage : MemStorage) (uuid key : Bytes) : Except Fault Bool := do
  match ← expiryTime cfg storage uuid key with
  | some expire => pure (expire ≤ now)
  | none => pure false

def getTtl (now : UInt64) (storage : MemStorage) (uuid key : Bytes) : Except Fault (Option UInt64) := do
  match ← expiryTime cfg storage uuid key with
  | some expire => pure (some (if expire > now then expire - now else 0))
  | none => pure none

/-! ## Space -/

/-- `get_swarm_storage_usage`: the sum of the limits of all databases. -/
def getSwarmStorageUsage (storage : MemStorage) : Except Fault UInt64 :=
  (storage.getKeys permissionUuid).foldlM (fun sum database =>
    match storage.read permissionUuid database with
    | none => .ok sum
    | some text =>
      match cfg.json.parse text with
      | .error parseErrors => .error (.runtimeError ("Failed to parse database json uuid data: " ++ parseErrors))
      | .ok json => do
        let maxSize ← maxDatabaseSize json
        pure (sum + maxSize)) 0

/-- `operation_exceeds_available_space` -/
def operationExceedsAvailableSpace (storage : MemStorage) (request : Request) (perms : Json) : Except Fault Bool := do
  let maxSize ← maxDatabaseSize perms
  let size := (storage.getSize request.dbUuid).2
  match request.msg with
  | .createDb _ =>
    if cfg.maxSwarmStorage = 0 then pure false
    else do
      let usage ← getSwarmStorageUsage cfg storage
      pure (usage + maxSize > cfg.maxSwarmStorage)
  | .updateDb _ =>
    if cfg.maxSwarmStorage = 0 then pure false
    else do
      let prevPerms ← getDatabasePermissions cfg storage request.dbUuid
      let usage ← getSwarmStorageUsage cfg storage
      let prevSize ← maxDatabaseSize (prevPerms.getD .null)
      pure (usage - prevSize + maxSize > cfg.maxSwarmStorage)
  | .create kv => pure (maxSize ≠ 0 ∧ size + byteSize kv.key + byteSize kv.value > maxSize)
  | .update kv =>
    match storage.getKeySize request.dbUuid kv.key with
    | some prevKvSize => pure (maxSize ≠ 0 ∧ size - prevKvSize + byteSize kv.key + byteSize kv.value > maxSize)
    | none => pure false
  | _ => pure false

/-- The keys that `do_eviction` removes; none where it fails. -/
def keysToEvict (storage : MemStorage) (request : Request) (maxSize : UInt64) : Except Fault (List Bytes) := do
  let perms ← getDatabasePermissions cfg storage request.dbUuid
  match ← getEvictionPolicy (perms.getD .null) with
  | some policy => policy.keysToEvict cfg.json cfg.mt cfg.order storage request maxSize
  | none => pure []

/-! ## Changes of the state -/

/-- The storage is replaced. -/
def setStorage (storage : MemStorage) : Program Fault Crud Unit := update fun s => { s with storage := storage }

/-- `send_response` -/
def sendResponse (request : Request) (result : StorageResult) (body : ResponseBody) (session : Option Nat) :
    Program Fault Crud Unit :=
  let quick := match request.msg with | .quickRead _ => true | _ => false
  let body :=
    if result = .ok then body
    else if quick then .quickRead [] [] result.msg
    else .error result.msg
  let contact := request.header.pointOfContact
  update fun s => { s with
    answers := s.answers ++ [⟨result, ⟨request.header, body⟩, session.map fun id => (id, !quick),
      if cfg.hasNode && !contact.isEmpty then some contact else none⟩] }

/-- `inspect_commit` of the subscription manager. -/
def inspectCommit (alive : Nat → Bool) (request : Request) : Program Fault Crud Unit :=
  update fun s => { s with subscriptions := s.subscriptions.inspectCommit alive request }

def removeExpirationEntry (generatedKey : Bytes) : Program Fault Crud Unit :=
  update fun s => { s with storage := (s.storage.remove ttlUuid generatedKey).2 }

/-- `update_expiration_entry`: no time stands for no entry. -/
def updateExpirationEntry (now : UInt64) (generatedKey : Bytes) (expire : UInt64) : Program Fault Crud Unit :=
  if expire ≠ 0 then do
    let s ← read
    let expires := decimal (now + expire).toNat
    let created := s.storage.create ttlUuid generatedKey expires
    if created.1 = .ok then setStorage created.2
    else do
      let updated := s.storage.update ttlUuid generatedKey expires
      if updated.1 = .ok then setStorage updated.2
      else raise ("Failed to update ttl entry for: " ++ showBytes generatedKey)
  else removeExpirationEntry generatedKey

/-- `flush_expiration_entries` -/
def flushExpirationEntries (uuid : Bytes) : Program Fault Crud Unit := do
  let s ← read
  forEach (s.storage.getKeys ttlUuid) fun generatedKey => do
    let entry ← lift (extractUuidKey cfg generatedKey)
    if entry.1 = uuid then removeExpirationEntry generatedKey else pure ()

/-- The loop of `do_eviction`. -/
def evict (storage : MemStorage) (uuid : Bytes) (keys : List Bytes) : MemStorage :=
  keys.foldl (fun storage key => (storage.remove uuid key).2) storage

/-- `do_eviction` -/
def doEviction (request : Request) (maxSize : UInt64) : Program Fault Crud Bool := do
  let s ← read
  let keys ← lift (keysToEvict cfg s.storage request maxSize)
  if keys.isEmpty then pure false
  else do
    setStorage (evict s.storage request.dbUuid keys)
    pure true

/-! ## Handlers -/

/-- What the environment gives to a handler: the clock, and the sessions that
are still there. -/
structure Env where
  now : UInt64
  alive : Nat → Bool

variable (env : Env) (callerId : Bytes) (request : Request) (session : Option Nat)

/-- The start of the handlers that change a database: it must exist, and the
caller must have a permission. -/
def ifPermitted (permitted : Json → Except Fault Bool) (body : Json → Program Fault Crud Unit) :
    Program Fault Crud Unit := do
  let s ← read
  match ← lift (getDatabasePermissions cfg s.storage request.dbUuid) with
  | none => sendResponse cfg request .dbNotFound .notSet session
  | some perms => do
    let allowed ← lift (permitted perms)
    if allowed then body perms else sendResponse cfg request .accessDenied .notSet session

/-- The storage is asked to write a value, and the expiry time goes with it. -/
def store (write : MemStorage → StorageResult × MemStorage) (kv : KeyValue) : Program Fault Crud Unit := do
  let s ← read
  let written := write s.storage
  if written.1 = .ok then do
    setStorage written.2
    updateExpirationEntry env.now (generateExpireKey cfg.json request.dbUuid kv.key) kv.expire
    inspectCommit env.alive request
    sendResponse cfg request .ok .notSet session
  else sendResponse cfg request written.1 .notSet session

/-- `handle_create` and `handle_update` for a caller with the permission. Both
compare the sizes of the request's `create` with the limit. -/
def makeRoomAndStore (write : MemStorage → StorageResult × MemStorage) (kv : KeyValue) (perms : Json) :
    Program Fault Crud Unit := do
  let s ← read
  let maxSize ← lift (maxDatabaseSize perms)
  if maxSize ≠ 0 ∧ byteSize request.create.key + byteSize request.create.value > maxSize then
    sendResponse cfg request .valueTooLarge .notSet session
  else do
    let expired ← lift (expired cfg env.now s.storage request.dbUuid kv.key)
    if expired then sendResponse cfg request .deletePending .notSet session
    else do
      let exceeds ← lift (operationExceedsAvailableSpace cfg s.storage request perms)
      if exceeds then do
        let evicted ← doEviction cfg request maxSize
        if evicted then store cfg env request session write kv
        else sendResponse cfg request .dbFull .notSet session
      else store cfg env request session write kv

def handleCreate (kv : KeyValue) : Program Fault Crud Unit :=
  ifPermitted cfg request session (isCallerAWriter cfg callerId)
    (makeRoomAndStore cfg env request session (fun storage => storage.create request.dbUuid kv.key kv.value) kv)

def handleUpdate (kv : KeyValue) : Program Fault Crud Unit :=
  ifPermitted cfg request session (isCallerAWriter cfg callerId)
    (makeRoomAndStore cfg env request session (fun storage => storage.update request.dbUuid kv.key kv.value) kv)

/-- `handle_read`, for `read` and `quick_read`. -/
def handleRead (key : Bytes) (found : Bytes → ResponseBody) : Program Fault Crud Unit := do
  let s ← read
  if !s.storage.has permissionUuid request.dbUuid then sendResponse cfg request .dbNotFound .notSet session
  else do
    let expired ← lift (expired cfg env.now s.storage request.dbUuid key)
    if expired then sendResponse cfg request .deletePending .notSet session
    else
      match s.storage.read request.dbUuid key with
      | some value => sendResponse cfg request .ok (found value) session
      | none => sendResponse cfg request .notFound .notSet session

def handleDelete (key : Bytes) : Program Fault Crud Unit :=
  ifPermitted cfg request session (isCallerAWriter cfg callerId) fun _ => do
    let s ← read
    let removed := s.storage.remove request.dbUuid key
    if removed.1 = .ok then do
      setStorage removed.2
      inspectCommit env.alive request
      removeExpirationEntry (generateExpireKey cfg.json request.dbUuid key)
      sendResponse cfg request .ok .notSet session
    else sendResponse cfg request removed.1 .notSet session

def handleTtl (key : Bytes) : Program Fault Crud Unit := do
  let s ← read
  if s.storage.has request.dbUuid key then do
    let expired ← lift (expired cfg env.now s.storage request.dbUuid key)
    if expired then sendResponse cfg request .deletePending .notSet session
    else do
      match ← lift (getTtl cfg env.now s.storage request.dbUuid key) with
      | some ttl => sendResponse cfg request .ok (.ttl key ttl) session
      | none => sendResponse cfg request .ttlNotFound .notSet session
  else sendResponse cfg request .ttlNotFound .notSet session

def handlePersist (key : Bytes) : Program Fault Crud Unit :=
  ifPermitted cfg request session (isCallerAWriter cfg callerId) fun _ => do
    let s ← read
    let generatedKey := generateExpireKey cfg.json request.dbUuid key
    if s.storage.has ttlUuid generatedKey then do
      let expired ← lift (expired cfg env.now s.storage request.dbUuid key)
      if expired then sendResponse cfg request .deletePending .notSet session
      else do
        removeExpirationEntry generatedKey
        sendResponse cfg request .ok .notSet session
    else sendResponse cfg request .ttlNotFound .notSet session

def handleExpire (key : Bytes) (expire : UInt64) : Program Fault Crud Unit :=
  ifPermitted cfg request session (isCallerAWriter cfg callerId) fun _ => do
    let s ← read
    let generatedKey := generateExpireKey cfg.json request.dbUuid key
    let has := s.storage.has ttlUuid generatedKey
    let pending ← lift (if has then expired cfg env.now s.storage request.dbUuid key else .ok false)
    if pending then sendResponse cfg request .deletePending .notSet session
    else if expire = 0 then sendResponse cfg request .invalidArgument .notSet session
    else if has then do
      removeExpirationEntry generatedKey
      updateExpirationEntry env.now generatedKey expire
      sendResponse cfg request .ok .notSet session
    else if s.storage.has request.dbUuid key then do
      updateExpirationEntry env.now generatedKey expire
      sendResponse cfg request .ok .notSet session
    else sendResponse cfg request .notFound .notSet session

def handleHas (key : Bytes) : Program Fault Crud Unit := do
  let s ← read
  let expired ← lift (expired cfg env.now s.storage request.dbUuid key)
  if expired then sendResponse cfg request .ok (.has key false) session
  else if s.storage.has permissionUuid request.dbUuid then
    sendResponse cfg request .ok (.has key (s.storage.has request.dbUuid key)) session
  else sendResponse cfg request .dbNotFound .notSet session

def handleKeys : Program Fault Crud Unit := do
  let s ← read
  if s.storage.has permissionUuid request.dbUuid then do
    let keys ← lift ((s.storage.getKeys request.dbUuid).filterM fun key => do
      let expired ← expired cfg env.now s.storage request.dbUuid key
      pure !expired)
    sendResponse cfg request .ok (.keys keys) session
  else sendResponse cfg request .dbNotFound .notSet session

def handleSize : Program Fault Crud Unit := do
  let s ← read
  match ← lift (getDatabasePermissions cfg s.storage request.dbUuid) with
  | none => sendResponse cfg request .dbNotFound .notSet session
  | some perms => do
    let size := s.storage.getSize request.dbUuid
    let maxSize ← lift (maxDatabaseSize perms)
    let remaining := if maxSize ≠ 0 ∧ size.2 < maxSize then maxSize - size.2 else 0
    sendResponse cfg request .ok (.size size.2 (UInt32.ofNat size.1) remaining maxSize) session

/-- `handle_subscribe` and `handle_unsubscribe`: without a session there is
nothing to do. -/
def handleSubscription (change : Nat → SubscriptionManager → ResponseBody × SubscriptionManager) :
    Program Fault Crud Unit :=
  match session with
  | none => pure ()
  | some id => do
    let s ← read
    let changed := change id s.subscriptions
    update fun s => { s with subscriptions := changed.2 }
    sendResponse cfg request .ok changed.1 session

def handleSubscribe (key : Bytes) : Program Fault Crud Unit :=
  handleSubscription cfg request session
    (SubscriptionManager.subscribe request.dbUuid key request.header.nonce)

def handleUnsubscribe (key : Bytes) (nonce : UInt64) : Program Fault Crud Unit :=
  handleSubscription cfg request session (SubscriptionManager.unsubscribe request.dbUuid key nonce)

/-- Whether only the owner of the swarm may do what the caller asks for. -/
def reservedForOwner : Bool := !cfg.ownerPublicKey.isEmpty && decide (cfg.ownerPublicKey ≠ callerId)

def handleCreateDb (m : CreateDb) : Program Fault Crud Unit := do
  let s ← read
  if reservedForOwner cfg callerId then sendResponse cfg request .accessDenied .notSet session
  else if s.storage.has permissionUuid request.dbUuid then sendResponse cfg request .dbExists .notSet session
  else if m.maxSize = 0 ∧ cfg.maxSwarmStorage ≠ 0 then sendResponse cfg request .invalidSize .notSet session
  else do
    let perms := createPermissionData callerId m
    let exceeds ← lift (operationExceedsAvailableSpace cfg s.storage request perms)
    if exceeds then sendResponse cfg request .dbFull .notSet session
    else do
      let created := s.storage.create permissionUuid request.dbUuid (cfg.json.toStyledString perms)
      setStorage created.2
      sendResponse cfg request created.1 .notSet session

/-- Whether the limit grows beyond what the swarm has left. -/
def growthExceeds (storage : MemStorage) (m : CreateDb) (perms : Json) : Except Fault Bool := do
  let current ← ofJson (perms.member maxSizeKey)
  let current ← ofJson current.asUInt64
  if m.maxSize > current then do
    let newPerms ← ofJson (perms.setMember maxSizeKey (.int m.maxSize.toNat))
    operationExceedsAvailableSpace cfg storage request newPerms
  else pure false

def handleUpdateDb (m : CreateDb) : Program Fault Crud Unit :=
  ifPermitted cfg request session (isCallerOwner callerId) fun perms => do
    let s ← read
    if m.maxSize = 0 ∧ cfg.maxSwarmStorage ≠ 0 then sendResponse cfg request .invalidSize .notSet session
    else do
      let exceeds ← lift (growthExceeds cfg request s.storage m perms)
      if exceeds then sendResponse cfg request .dbFull .notSet session
      else do
        let perms ← lift (updatePermissionData perms m)
        let updated := s.storage.update permissionUuid request.dbUuid (cfg.json.toStyledString perms)
        setStorage updated.2
        sendResponse cfg request updated.1 .notSet session

def handleDeleteDb : Program Fault Crud Unit := do
  let s ← read
  match ← lift (getDatabasePermissions cfg s.storage request.dbUuid) with
  | none =>
    sendResponse cfg request (if reservedForOwner cfg callerId then .accessDenied else .dbNotFound) .notSet session
  | some perms =>
    if reservedForOwner cfg callerId then sendResponse cfg request .accessDenied .notSet session
    else do
      let owner ← lift (isCallerOwner callerId perms)
      if owner then do
        let removed := s.storage.remove permissionUuid request.dbUuid
        setStorage (removed.2.removeAll request.dbUuid).2
        flushExpirationEntries cfg request.dbUuid
        sendResponse cfg request removed.1 .notSet session
      else sendResponse cfg request .accessDenied .notSet session

def handleHasDb : Program Fault Crud Unit := do
  let s ← read
  sendResponse cfg request .ok (.hasDb request.dbUuid (s.storage.has permissionUuid request.dbUuid)) session

def handleWriters : Program Fault Crud Unit := do
  let s ← read
  match ← lift (getDatabasePermissions cfg s.storage request.dbUuid) with
  | none => sendResponse cfg request .notFound .notSet session
  | some perms => do
    let owner ← lift (ofJson (perms.member ownerKey))
    let owner ← lift (ofJson owner.asString)
    let list ← lift (ofJson (perms.member writersKey))
    let writers ← lift (list.elements.mapM fun writer => ofJson writer.asString)
    sendResponse cfg request .ok (.writers owner writers) session

/-- `handle_add_writers` and `handle_remove_writers` -/
def handleWriterChange (change : Json → Except Fault Json) : Program Fault Crud Unit :=
  ifPermitted cfg request session (isCallerOwner callerId) fun perms => do
    let s ← read
    let perms ← lift (change perms)
    let updated := s.storage.update permissionUuid request.dbUuid (cfg.json.toStyledString perms)
    if updated.1 = .ok then do
      setStorage updated.2
      sendResponse cfg request .ok .notSet session
    else raise ("Failed to update database permissions: " ++ updated.1.msg)

def handleAddWriters (writers : List Bytes) : Program Fault Crud Unit :=
  handleWriterChange cfg callerId request session (addWriters writers)

def handleRemoveWriters (writers : List Bytes) : Program Fault Crud Unit :=
  handleWriterChange cfg callerId request session (removeWriters writers)

/-- `handle_request`: other messages are logged only. -/
def handleRequest : Program Fault Crud Unit :=
  match request.msg with
  | .create kv => handleCreate cfg env callerId request session kv
  | .read key => handleRead cfg env request session key (.read key)
  | .update kv => handleUpdate cfg env callerId request session kv
  | .delete key => handleDelete cfg env callerId request session key
  | .has key => handleHas cfg env request session key
  | .keys => handleKeys cfg env request session
  | .size => handleSize cfg request session
  | .subscribe key => handleSubscribe cfg request session key
  | .unsubscribe key nonce => handleUnsubscribe cfg request session key nonce
  | .createDb m => handleCreateDb cfg callerId request session m
  | .updateDb m => handleUpdateDb cfg callerId request session m
  | .deleteDb => handleDeleteDb cfg callerId request session
  | .hasDb => handleHasDb cfg request session
  | .writers => handleWriters cfg request session
  | .addWriters writers => handleAddWriters cfg callerId request session writers
  | .removeWriters writers => handleRemoveWriters cfg callerId request session writers
  | .quickRead key => handleRead cfg env request session key (.quickRead key · "")
  | .ttl key => handleTtl cfg env request session key
  | .persist key => handlePersist cfg env callerId request session key
  | .expire key expire => handleExpire cfg env callerId request session key expire
  | .nullmsg | .notSet => pure ()

/-! ## The timer -/

/-- One entry in the loop of `check_key_expiration`: the delete that is issued
through pbft for one that is over, which changes nothing here. An entry whose key
is gone is removed. -/
def checkEntry (now : UInt64) (generatedKey : Bytes) : Program Fault Crud (Option Request) := do
  let s ← read
  match s.storage.read ttlUuid generatedKey with
  | none => pure none
  | some text => do
    let entry ← lift (extractUuidKey cfg generatedKey)
    let expires ← lift (toUInt64 text)
    if now ≥ expires then pure (some ⟨⟨entry.1, 0, [], []⟩, .delete entry.2⟩)
    else if s.storage.has entry.1 entry.2 then pure none
    else do
      removeExpirationEntry generatedKey
      pure none

/-- `check_key_expiration`, with the requests that it issues. -/
def checkKeyExpiration (now : UInt64) : Program Fault Crud (List Request) := do
  let s ← read
  let issued ← collect (s.storage.getKeys ttlUuid) (checkEntry cfg now)
  pure (issued.filterMap id)

end Crud

end SwarmDb
