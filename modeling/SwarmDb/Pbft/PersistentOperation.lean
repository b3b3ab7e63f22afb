import SwarmDb.Pbft.Operation
import SwarmDb.Pbft.PersistentText

/-!
# Operations in a storage

`pbft_persistent_operation`, which keeps what a replica has seen of one request in one view as records of a storage, and
`pbft_operation_manager` with a storage. The keys of the records of an operation begin with its sequence, its request
hash and its view; what follows tells the stage, the request and the messages apart.
-/

namespace SwarmDb

open Lib Program

/-! ## Texts -/

/-- `OPERATIONS_UUID` -/
def operationsUuid : Bytes := ascii "pbft_operations_data"

/-- `STAGE_KEY` -/
def stageName : Bytes := ascii "stage"

/-- `REQUEST_KEY` -/
def requestName : Bytes := ascii "request"

/-- `bytes_to_debug_string`: the bytes in hexadecimal, the middle of a long text left out. -/
def bytesToDebugString (input : Bytes) : String :=
  let result := input.flatMap fun c => Nat.toDigits 16 c.toNat
  if result.length > 32 then String.ofList (result.take 16 ++ "...".toList ++ result.drop (result.length - 16))
  else String.ofList result

/-- `std::stoi` -/
def stoi (s : Bytes) : Except Fault Int :=
  match leadingNumber s with
  | some n => if -2 ^ 31 ≤ n ∧ n < 2 ^ 31 then .ok n else .error (.exception "stoi")
  | none => .error (.exception "stoi")

/-- `std::stoul`: a minus wraps around. -/
def stoul (s : Bytes) : Except Fault UInt64 :=
  match leadingNumber s with
  | some n =>
    if n.natAbs < 2 ^ 64 then .ok (if n < 0 then 0 - UInt64.ofNat n.natAbs else UInt64.ofNat n.natAbs)
    else .error (.exception "stoul")
  | none => .error (.exception "stoul")

/-- The number of a stage. -/
def OperationStage.number : OperationStage → Int
  | prepare => 0
  | commit => 1
  | execute => 2

/-- The number of a stage as a text. -/
def OperationStage.text : OperationStage → Bytes
  | prepare => ascii "0"
  | commit => ascii "1"
  | execute => ascii "2"

/-- The number of a message type, for the types that are recorded. -/
def PbftMsgType.recorded? : PbftMsgType → Option Nat
  | preprepare => some 2
  | prepare => some 3
  | commit => some 4
  | _ => none

namespace PersistentOperation

def generatePrefix (key : OperationKey) : Bytes :=
  padded key.sequence ++ underscore :: (key.requestHash ++ underscore :: padded key.view)

def generateKey (stem name : Bytes) : Bytes := stem ++ underscore :: name

def prefixForSequence (sequence : UInt64) : Bytes := padded sequence ++ [underscore]

def parsePrefix (stem : Bytes) : Except Fault (Option OperationKey) :=
  match splitAt? underscore stem with
  | none => .ok none
  | some (first, rest) =>
    match splitAtLast? underscore rest with
    -- one underscore only, or the last at the end
    | none => .ok none
    | some (hash, last) =>
      if last = [] then .ok none
      else do
        let sequence ← stoul first
        let view ← stoul last
        pure (some ⟨view, sequence, hash⟩)

def typedPrefix (key : OperationKey) (type : Nat) : Bytes := generatePrefix key ++ underscore :: decimal type

def incrementPrefix (stem : Bytes) : Bytes :=
  match stem.getLast? with
  | some c => if c = 127 then stem ++ [1] else stem.dropLast ++ [c + 1]
  | none => stem

/-- The key of a record of an operation. -/
def recordKey (key : OperationKey) (name : Bytes) : Bytes := generateKey (generatePrefix key) name

/-- The key of the stage of an operation. -/
def stageKey (key : OperationKey) : Bytes := recordKey key stageName

/-- The key of the request of an operation. -/
def requestKey (key : OperationKey) : Bytes := recordKey key requestName

/-- The key of a message of an operation. -/
def messageKey (key : OperationKey) (type : Nat) (sender : Uuid) : Bytes := generateKey (typedPrefix key type) sender

/-- The keys of the messages of one type. -/
def messageKeys (storage : MemStorage) (key : OperationKey) (type : Nat) : List Bytes :=
  storage.getKeysIf operationsUuid (typedPrefix key type) (incrementPrefix (typedPrefix key type)) none

end PersistentOperation

/-! ## Operations -/

/-- What the methods of an operation work on: the storage it shares with the
others, and its transient request. -/
structure PersistentOperation where
  storage : MemStorage
  transientRequest? : Option BznEnvelope

namespace PersistentOperation

/-- A record that is created; one that exists stays. -/
def createRecord (name value : Bytes) (accepted : List StorageResult) (what : StorageResult → String) :
    Program Fault PersistentOperation Unit := do
  let op ← read
  let response := op.storage.create operationsUuid name value
  if response.1 ∈ accepted then update fun op => { op with storage := response.2 }
  else raise (what response.1)

def recordPbftMsg (wire : Wire) (key : OperationKey) (msg : PbftMsg) (encodedMsg : BznEnvelope) :
    Program Fault PersistentOperation Unit :=
  match msg.type.recorded? with
  | some type =>
    createRecord (messageKey key type encodedMsg.sender) (wire.envelope.serialize encodedMsg) [.ok, .recordExists]
      fun response => "failed to write pbft_msg " ++ response.msg
  | none => pure ()

/-- `get_stage`: any number may stand in the storage. -/
def getStage (storage : MemStorage) (key : OperationKey) : Except Fault Int :=
  match storage.read operationsUuid (stageKey key) with
  | some response => stoi response
  | none => .error (.runtimeError
      ("failed to read stage of pbft_operation " ++ bytesToDebugString (generatePrefix key) ++ " from storage"))

def isPreprepared (storage : MemStorage) (key : OperationKey) : Bool := decide ((messageKeys storage key 2).length > 0)

def isPrepared (storage : MemStorage) (key : OperationKey) : Except Fault Bool :=
  (getStage storage key).map fun stage => decide (stage ≠ OperationStage.prepare.number)

def isCommitted (storage : MemStorage) (key : OperationKey) : Except Fault Bool :=
  (getStage storage key).map fun stage => decide (stage = OperationStage.execute.number)

def loadTransientRequest (wire : Wire) (key : OperationKey) : Program Fault PersistentOperation Unit :=
  update fun op =>
    match op.transientRequest?, op.storage.read operationsUuid (requestKey key) with
    | none, some response => { op with transientRequest? := some (wire.envelope.decode response) }
    | _, _ => op

def hasRequest (wire : Wire) (key : OperationKey) : Program Fault PersistentOperation Bool := do
  loadTransientRequest wire key
  let op ← read
  pure op.transientRequest?.isSome

def getRequest (wire : Wire) (key : OperationKey) : Program Fault PersistentOperation BznEnvelope := do
  loadTransientRequest wire key
  let op ← read
  match op.transientRequest? with
  | some request => pure request
  | none => raise ("tried to get request of operation " ++ bytesToDebugString (generatePrefix key) ++
      "; we have no such request")

def isReadyForCommit (wire : Wire) (key : OperationKey) (peers : Nat) : Program Fault PersistentOperation Bool := do
  let op ← read
  if (messageKeys op.storage key 3).length ≥ honestMajoritySize peers ∧ isPreprepared op.storage key then
    hasRequest wire key
  else pure false

def isReadyForExecute (key : OperationKey) (peers : Nat) : Program Fault PersistentOperation Bool := do
  let op ← read
  if (messageKeys op.storage key 4).length ≥ honestMajoritySize peers then lift (isPrepared op.storage key)
  else pure false

/-- The part of `advance_operation_stage` for one stage: the operation must be ready
for it and in the stage before. -/
def moveTo (key : OperationKey) (newStage oldStage : OperationStage)
    (isReady : Program Fault PersistentOperation Bool) (illegal : String) : Program Fault PersistentOperation Unit := do
  let ready ← isReady
  if !ready then raise illegal
  else
    let op ← read
    let stage ← lift (getStage op.storage key)
    if stage ≠ oldStage.number then raise illegal
    else
      let response := op.storage.update operationsUuid (stageKey key) newStage.text
      if response.1 = .ok then update fun op => { op with storage := response.2 }
      else raise ("failed to write operation stage update: " ++ response.1.msg)

def advanceOperationStage (wire : Wire) (key : OperationKey) (newStage : OperationStage) (peers : Nat) :
    Program Fault PersistentOperation Unit :=
  match newStage with
  | .prepare => raise "cannot advance to initial stage"
  | .commit => moveTo key .commit .prepare (isReadyForCommit wire key peers) "illegal move to commit phase"
  | .execute => moveTo key .execute .commit (isReadyForExecute key peers) "illegal move to execute phase"

def recordRequest (wire : Wire) (key : OperationKey) (encodedRequest : BznEnvelope) :
    Program Fault PersistentOperation Unit := do
  let op ← read
  if op.transientRequest?.isSome then pure ()
  else
    createRecord (requestKey key) (wire.envelope.serialize encodedRequest) [.ok, .recordExists, .valueTooLarge]
      fun _ => "failed to write request for operation " ++ bytesToDebugString (generatePrefix key)
    loadTransientRequest wire key

def getPreprepare (wire : Wire) (storage : MemStorage) (key : OperationKey) : Except Fault BznEnvelope :=
  match storage.getKeysIf operationsUuid (typedPrefix key 2) (typedPrefix key 3) none with
  | [] => .error (.runtimeError
      ("tried to fetch a preprepare that we don't have for operation " ++ bytesToDebugString (generatePrefix key)))
  | name :: _ =>
    match wire.envelope.parse ((storage.read operationsUuid name).getD []) with
    | some env => .ok env
    | none => .error (.runtimeError ("failed to parse or fetch preprepare that we supposedly have? " ++
        bytesToDebugString (generatePrefix key)))

/-- The recorded prepares, by their keys in the storage. -/
def getPrepares (wire : Wire) (storage : MemStorage) (key : OperationKey) : Except Fault (List (Bytes × BznEnvelope)) :=
  (storage.getKeysIf operationsUuid (typedPrefix key 3) (typedPrefix key 4) none).mapM fun name =>
    match wire.envelope.parse ((storage.read operationsUuid name).getD []) with
    | some env => .ok (name, env)
    | none => .error (.runtimeError ("failed to parse or fetch prepare that we supposedly have? " ++
        bytesToDebugString (generatePrefix key)))

/-- Whether a record looks like the stage of a prepared operation: the regular
expression asks for the name of a stage at the end of the key. -/
def looksPrepared (name value : Bytes) : Bool :=
  decide (value = OperationStage.commit.text ∨ value = OperationStage.execute.text) && stageName.isSuffixOf name

/-- The operation of such a record, if it has a request and the key can be parsed. -/
def rehydrate (storage : MemStorage) (name : Bytes) : Except Fault (Option OperationKey) :=
  let stem := before (underscore :: stageName) name
  match storage.read operationsUuid (generateKey stem requestName) with
  | some _ => parsePrefix stem
  | none => .ok none

def preparedOperationsInRange (storage : MemStorage) (start : UInt64) (end? : Option UInt64) :
    Except Fault (List OperationKey) := do
  let last := end?.elim [] prefixForSequence
  let matched := storage.readIf operationsUuid (prefixForSequence start) last (some looksPrepared)
  let results ← matched.mapM fun m => rehydrate storage m.1
  pure results.reduceOption

def removeRange (storage : MemStorage) (first last : UInt64) : Except StorageFault MemStorage :=
  storage.removeRange operationsUuid (prefixForSequence first) (prefixForSequence last)

end PersistentOperation

/-! ## The operation manager -/

/-- `pbft_operation_manager` with a storage. -/
structure OperationManager where
  storage : MemStorage
  /-- `held_operations`: the transient request of each operation. -/
  heldOperations : Map OperationKey (Option BznEnvelope)

namespace OperationManager

/-- `find_or_construct`: the constructor of an operation writes its stage, unless there is one. -/
def findOrConstruct (key : OperationKey) : Program Fault OperationManager Unit := do
  let m ← read
  if m.heldOperations.contains key then pure ()
  else
    let response := m.storage.create operationsUuid (PersistentOperation.stageKey key) OperationStage.prepare.text
    if response.1 = .ok ∨ response.1 = .recordExists then
      update fun m => ⟨response.2, m.heldOperations.insert key none⟩
    else raise ("failed to write stage of new persistent operation " ++ response.1.msg)

/-- A method of the operation of a key. -/
def onOperation {α : Type} (key : OperationKey) (method : Program Fault PersistentOperation α) :
    Program Fault OperationManager α := do
  findOrConstruct key
  zoom (fun m => ⟨m.storage, (m.heldOperations[key]?).getD none⟩)
    (fun op m => ⟨op.storage, m.heldOperations.insert key op.transientRequest?⟩) method

def deleteOperationsUntil (m : OperationManager) (sequence : UInt64) : Except StorageFault OperationManager := do
  let held := m.heldOperations.filter fun key _ => decide (¬ key.sequence ≤ sequence)
  let storage ← PersistentOperation.removeRange m.storage 0 sequence
  pure ⟨storage, held⟩

/-- `maybe_store`: of two operations for one sequence, the one in the later view stays. -/
def maybeStore (result : Map UInt64 OperationKey) (op : OperationKey) : Map UInt64 OperationKey :=
  match result[op.sequence]? with
  | some other => if other.view < op.view then result.insert op.sequence op else result
  | none => result.insert op.sequence op

def preparedOperationsSince (m : OperationManager) (sequence : UInt64) : Except Fault (Map UInt64 OperationKey) := do
  let ops ← PersistentOperation.preparedOperationsInRange m.storage (sequence + 1) none
  pure (ops.foldl maybeStore ∅)

/-! ### Runs -/

/-- A call of the manager, or of an operation it hands out. Of the methods that
only read, `hasRequest` alone changes an operation. -/
inductive Call where
  | findOrConstruct (key : OperationKey)
  | recordPbftMsg (key : OperationKey) (msg : PbftMsg) (encodedMsg : BznEnvelope)
  | recordRequest (key : OperationKey) (encodedRequest : BznEnvelope)
  | hasRequest (key : OperationKey)
  | advanceOperationStage (key : OperationKey) (newStage : OperationStage) (peers : Nat)
  | deleteOperationsUntil (sequence : UInt64)
  /-- The process ends, and another starts over the storage. -/
  | restart

/-- What a call leaves, also where it throws. -/
def after (wire : Wire) (m : OperationManager) : Call → OperationManager
  | .findOrConstruct key => (OperationManager.findOrConstruct key).final m
  | .recordPbftMsg key msg encodedMsg =>
    (onOperation key (PersistentOperation.recordPbftMsg wire key msg encodedMsg)).final m
  | .recordRequest key encodedRequest =>
    (onOperation key (PersistentOperation.recordRequest wire key encodedRequest)).final m
  | .hasRequest key => (onOperation key (PersistentOperation.hasRequest wire key)).final m
  | .advanceOperationStage key newStage peers =>
    (onOperation key (PersistentOperation.advanceOperationStage wire key newStage peers)).final m
  | .deleteOperationsUntil sequence => (m.deleteOperationsUntil sequence).toOption.getD m
  | .restart => ⟨m.storage, ∅⟩

/-- What calls leave, one after another. -/
def run (wire : Wire) (m : OperationManager) (calls : List Call) : OperationManager := calls.foldl (after wire) m

end OperationManager

end SwarmDb
