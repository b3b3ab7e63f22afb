import SwarmDb.Pbft.Process
import SwarmDb.Pbft.Quorum

/-!
# Operations

`pbft_memory_operation`, the record of what a replica has seen of one request in
one view, and `pbft_operation_manager` without a storage, which holds them by
view, sequence and request hash.
-/

namespace SwarmDb

open Lib

/-- `pbft_memory_operation` -/
structure MemoryOperation where
  key : OperationKey
  /-- The request, once it is saved. -/
  request? : Option BznEnvelope
  /-- The pre-prepare, once it is seen. -/
  preprepareMessage? : Option BznEnvelope
  preparesSeen : Finset Uuid
  prepareMessages : Map Uuid BznEnvelope
  commitsSeen : Finset Uuid
  stage : OperationStage
  session? : Option Nat

namespace MemoryOperation

/-- A new operation. -/
def new (key : OperationKey) : MemoryOperation := ⟨key, none, none, ∅, ∅, ∅, .prepare, none⟩

def hasRequest (op : MemoryOperation) : Bool := op.request?.isSome

def hasDbRequest (op : MemoryOperation) : Bool :=
  match op.request? with
  | some ⟨_, _, _, _, _, .databaseMsg _⟩ => true
  | _ => false

def hasConfigRequest (op : MemoryOperation) : Bool :=
  match op.request? with
  | some ⟨_, _, _, _, _, .pbftInternalRequest _⟩ => true
  | _ => false

def getRequest (op : MemoryOperation) : Except Fault BznEnvelope :=
  match op.request? with
  | some request => .ok request
  | none => .error (.runtimeError "Tried to get a request that is not saved")

/-- Whether an envelope holds a request that can be recorded. -/
def isRequest (wire : Wire) (wrappedRequest : BznEnvelope) : Bool :=
  match wrappedRequest.payload with
  | .databaseMsg text => wire.databaseMsg.accepts text
  | .pbftInternalRequest text => wire.pbftConfigMsg.accepts text
  | _ => false

def recordRequest (wire : Wire) (wrappedRequest : BznEnvelope) (op : MemoryOperation) : MemoryOperation :=
  if isRequest wire wrappedRequest then { op with request? := some wrappedRequest } else op

def recordPbftMsg (message : PbftMsg) (originalMessage : BznEnvelope) (op : MemoryOperation) :
    Except Fault MemoryOperation :=
  match message.type with
  | .preprepare => .ok { op with preprepareMessage? := some originalMessage }
  | .prepare => .ok { op with
      preparesSeen := insert originalMessage.sender op.preparesSeen
      prepareMessages := op.prepareMessages.insert originalMessage.sender originalMessage }
  | .commit => .ok { op with commitsSeen := insert originalMessage.sender op.commitsSeen }
  | _ => .error (.runtimeError "this is not an appropriate pbft_msg_type")

def isPreprepared (op : MemoryOperation) : Bool := op.preprepareMessage?.isSome

def isPrepared (op : MemoryOperation) : Bool := op.stage ≠ .prepare

def isCommitted (op : MemoryOperation) : Bool := op.stage = .execute

def isReadyForCommit (peers : Nat) (op : MemoryOperation) : Bool :=
  op.hasRequest && op.isPreprepared && decide (op.preparesSeen.card ≥ honestMajoritySize peers)

def isReadyForExecute (peers : Nat) (op : MemoryOperation) : Bool :=
  op.isPrepared && decide (op.commitsSeen.card ≥ honestMajoritySize peers)

def advanceOperationStage (newStage : OperationStage) (peers : Nat) (op : MemoryOperation) :
    Except Fault MemoryOperation :=
  match newStage with
  | .prepare => .error (.runtimeError "cannot advance to initial stage")
  | .commit =>
    if !op.isReadyForCommit peers || op.stage ≠ .prepare then .error (.runtimeError "illegal move to commit phase")
    else .ok { op with stage := .commit }
  | .execute =>
    if !op.isReadyForExecute peers || op.stage ≠ .commit then .error (.runtimeError "illegal move to execute phase")
    else .ok { op with stage := .execute }

/-- The recorded pre-prepare, an empty envelope where there is none. -/
def getPreprepare (op : MemoryOperation) : BznEnvelope := op.preprepareMessage?.getD default

/-- The recorded prepares, by sender. -/
def getPrepares (op : MemoryOperation) : List BznEnvelope := op.prepareMessages.toList.map Prod.snd

end MemoryOperation

/-! ## The operation manager -/

/-- `held_operations` -/
abbrev HeldOperations := Map OperationKey MemoryOperation

namespace HeldOperations

/-- The operation of a key, a new one where there is none. -/
def find (ops : HeldOperations) (key : OperationKey) : MemoryOperation := (ops[key]?).getD (.new key)

/-- `find_or_construct`, as far as the manager changes. -/
def construct (ops : HeldOperations) (key : OperationKey) : HeldOperations := ops.insert key (ops.find key)

def deleteOperationsUntil (ops : HeldOperations) (sequence : UInt64) : HeldOperations :=
  ops.filter fun key _ => decide (¬ key.sequence ≤ sequence)

/-- `maybe_store`: of two operations for one sequence, the one in the later view stays. -/
def maybeStore (result : Map UInt64 MemoryOperation) (op : MemoryOperation) : Map UInt64 MemoryOperation :=
  match result[op.key.sequence]? with
  | some other => if other.key.view < op.key.view then result.insert op.key.sequence op else result
  | none => result.insert op.key.sequence op

def preparedOperationsSince (ops : HeldOperations) (sequence : UInt64) : Map UInt64 MemoryOperation :=
  ((ops.toList.map Prod.snd).filter fun op => decide (op.key.sequence > sequence) && op.isPrepared).foldl maybeStore ∅

end HeldOperations

end SwarmDb
