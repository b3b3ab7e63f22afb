import SwarmDb.Pbft.CheckpointManager
import SwarmDb.Pbft.Operation

/-!
# The replica

The object `pbft` with the process and the checkpoint manager under it: its
state, its constructor and `start`, and the small actions that its handlers are
made of.
-/

namespace SwarmDb

open Lib Program

def viewKey : Bytes := ascii "view"
def nextIssuedSequenceNumberKey : Bytes := ascii "next_issued_sequence_number"
def acceptedPrepreparesKey : Bytes := ascii "accepted_preprepares"
def viewIsValidKey : Bytes := ascii "view_is_valid"
def lastViewSentKey : Bytes := ascii "last_view_sent"
def validViewchangeMessagesForViewKey : Bytes := ascii "valid_viewchange_messages_for_view"

def checkpointInterval : UInt64 := 100
def maxRequestAgeMs : UInt64 := 3600000

/-- The members of `pbft`. -/
structure Pbft where
  view : UInt64
  nextIssuedSequenceNumber : UInt64
  lastExecutedSequenceNumber : UInt64
  acceptedPreprepares : Map LogKey OperationKey
  /-- A multimap from timestamps to senders and request hashes. -/
  recentRequests : List (UInt64 × Uuid × Hash)
  viewIsValid : Bool
  lastViewSent : UInt64
  validViewchangeMessagesForView : Map UInt64 (Map Uuid BznEnvelope)
  savedNewview : BznEnvelope
  pinnedPrimary : Option PeerAddress
  /-- The operations that the operation manager holds. -/
  operations : HeldOperations
  sessionsWaitingOnForwardedRequests : Map Hash Nat

/-- A replica: the process, its checkpoint manager and its `pbft`. -/
structure Replica extends CheckpointProcess where
  pbft : Pbft

/-- A program of the checkpoint manager, as one of the replica. -/
def onManager {α : Type} (m : Program Fault CheckpointProcess α) : Program Fault Replica α :=
  zoom Replica.toCheckpointProcess (fun p s => { s with toCheckpointProcess := p }) m

/-- A program of the process, as one of the replica. -/
def onReplica {α : Type} (m : Program Fault Process α) : Program Fault Replica α := onManager (onProcess m)

def modifyPbft (f : Pbft → Pbft) : Program Fault Replica Unit := update fun s => { s with pbft := f s.pbft }

/-! ## Construction -/

/-- The constructor of `pbft`, its members in the order of their declarations. -/
def newPbft (node : Node) : Program Fault Process (CheckpointManager × Pbft) := do
  let view ← persistent .uint64 1 viewKey []
  let nextIssuedSequenceNumber ← persistent .uint64 1 nextIssuedSequenceNumberKey []
  let viewIsValid ← persistent .bool true viewIsValidKey []
  let lastViewSent ← persistent .uint64 0 lastViewSentKey []
  let manager ← newCheckpointManager
  if node.peers.current = [] then raise "No peers found!"
  else do
    let acceptedPreprepares ← initKvContainer .operationKey .logKey acceptedPrepreparesKey
    let validViewchangeMessagesForView ←
      initKvContainer2 (.envelope node.wire) .string .uint64 validViewchangeMessagesForViewKey
    emit (.saveServiceStateAt ((nextIssuedSequenceNumber / checkpointInterval + 1) * checkpointInterval))
    pure (manager, {
      view, nextIssuedSequenceNumber, viewIsValid, lastViewSent, acceptedPreprepares, validViewchangeMessagesForView
      lastExecutedSequenceNumber := 0
      recentRequests := []
      savedNewview := default
      pinnedPrimary := none
      operations := ∅
      sessionsWaitingOnForwardedRequests := ∅ })

/-- `start`, as far as the replica changes. -/
def startPbft (node : Node) (pbft : Pbft) : Pbft := { pbft with pinnedPrimary := node.primaryOf pbft.view }

/-- A replica built and started over a storage, by a process that has so many
effects to live. -/
def replicaOver (node : Node) (lifetime : Option Nat) (storage : MemStorage) : Except Fault Replica × Process :=
  match (newPbft node).runFrom { Process.start storage with lifetime := lifetime } with
  | (.ok (manager, pbft), p) => (.ok ⟨⟨p, manager⟩, startPbft node pbft⟩, p)
  | (.error e, p) => (.error e, p)

/-! ## Small actions -/

/-- The assignment to a persistent member: in memory, then in storage. -/
def assignMember {α : Type} (c : Conversion α) (name : Bytes) (put : α → Pbft → Pbft) (value : α) :
    Program Fault Replica Unit := do
  modifyPbft (put value)
  onReplica (assign c value name [])

def setView : UInt64 → Program Fault Replica Unit := assignMember .uint64 viewKey fun v p => { p with view := v }

def setNextIssuedSequenceNumber : UInt64 → Program Fault Replica Unit :=
  assignMember .uint64 nextIssuedSequenceNumberKey fun v p => { p with nextIssuedSequenceNumber := v }

def setViewIsValid : Bool → Program Fault Replica Unit :=
  assignMember .bool viewIsValidKey fun v p => { p with viewIsValid := v }

def setLastViewSent : UInt64 → Program Fault Replica Unit :=
  assignMember .uint64 lastViewSentKey fun v p => { p with lastViewSent := v }

/-- `find_or_construct` -/
def findOrConstruct (key : OperationKey) : Program Fault Replica Unit :=
  modifyPbft fun p => { p with operations := p.operations.construct key }

/-- A change of one operation. -/
def modifyOperation (key : OperationKey) (f : MemoryOperation → MemoryOperation) : Program Fault Replica Unit :=
  modifyPbft fun p => { p with operations := p.operations.insert key (f (p.operations.find key)) }

/-- A change of one operation that may throw. -/
def changeOperation (key : OperationKey) (f : MemoryOperation → Except Fault MemoryOperation) :
    Program Fault Replica Unit := do
  let s ← read
  let op ← lift (f (s.pbft.operations.find key))
  modifyOperation key fun _ => op

section

variable (node : Node) (outside : Outside)

/-- `async_signed_broadcast` -/
def asyncSignedBroadcast (env : BznEnvelope) : Program Fault Replica Unit :=
  onReplica (node.multicast { env with timestamp := outside.now })

/-- An envelope around a `pbft_msg`. -/
def Node.pbftEnvelope (msg : PbftMsg) : BznEnvelope :=
  { (default : BznEnvelope) with payload := .pbft (node.wire.pbftMsg.serialize msg) }

def broadcastPbftMsg (msg : PbftMsg) : Program Fault Replica Unit :=
  asyncSignedBroadcast node outside (node.pbftEnvelope msg)

def broadcastAudit (msg : AuditMessage) : Program Fault Replica Unit :=
  asyncSignedBroadcast node outside
    { (default : BznEnvelope) with payload := .audit (node.wire.auditMessage.serialize msg) }

end

def commonMessageSetup (key : OperationKey) (type : PbftMsgType) : PbftMsg :=
  { (default : PbftMsg) with
    view := key.view
    sequence := key.sequence
    requestHash := key.requestHash
    type := type }

/-- The key of the operation a message is about. -/
def PbftMsg.operationKey (msg : PbftMsg) : OperationKey := ⟨msg.view, msg.sequence, msg.requestHash⟩

/-- The key under which the pre-prepare of a message is accepted. -/
def PbftMsg.logKey (msg : PbftMsg) : LogKey := ⟨msg.view, msg.sequence⟩

namespace Pbft

variable (node : Node) (p : Pbft)

def isPrimary : Bool :=
  match p.pinnedPrimary with
  | some primary => primary.uuid = node.uuid
  | none => false

def predictPrimary (view : UInt64) : Option PeerAddress :=
  if view = p.view then p.pinnedPrimary else node.primaryOf view

def preliminaryFilterMsg (msg : PbftMsg) : Bool :=
  if !p.viewIsValid && !(msg.type = .viewchange || msg.type = .newview) then false
  else if msg.type = .preprepare || msg.type = .prepare || msg.type = .commit then msg.view = p.view
  else true

end Pbft

end SwarmDb
