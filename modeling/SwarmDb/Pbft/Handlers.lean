import SwarmDb.Pbft.Viewchange

/-!
# The handlers of a replica

What `pbft` does with each message and each event. A handler that throws ends
the process: nothing above the handlers catches an exception.
-/

namespace SwarmDb

open Lib Program

section

variable (node : Node) (outside : Outside)

/-! ## The three phases -/

/-- `do_preprepared`: broadcast a PREPARE. -/
def doPreprepared (key : OperationKey) : Program Fault Replica Unit :=
  broadcastPbftMsg node outside (commonMessageSetup key .prepare)

/-- `advance_operation_stage` -/
def advanceOperation (key : OperationKey) (stage : OperationStage) : Program Fault Replica Unit := do
  changeOperation key fun op => op.advanceOperationStage stage node.swarmSize
  onReplica (emit (.advanced key stage))

/-- `do_prepared`: broadcast a COMMIT. -/
def doPrepared (key : OperationKey) : Program Fault Replica Unit := do
  advanceOperation node key .commit
  broadcastPbftMsg node outside (commonMessageSetup key .commit)

/-- The session that waits for the request of an operation, put with it. -/
def attachSession (key : OperationKey) : Program Fault Replica Unit := do
  let s ← read
  match s.pbft.sessionsWaitingOnForwardedRequests[key.requestHash]? with
  | some session =>
    modifyOperation key fun op => if op.session?.isNone then { op with session? := some session } else op
  | none => pure ()

/-- `do_committed`: hand the operation to the service. -/
def doCommitted (key : OperationKey) : Program Fault Replica Unit := do
  advanceOperation node key .execute
  attachSession key
  if node.auditEnabled then
    broadcastAudit node outside (.pbftCommit key.requestHash key.sequence node.uuid)
  let s ← read
  match (s.pbft.operations.find key).request? with
  | some ⟨swarmId, sender, signature, timestamp, piggybacked, .databaseMsg text⟩ =>
    onReplica (emit (.applyOperation key ⟨swarmId, sender, signature, timestamp, piggybacked, .databaseMsg text⟩))
  | _ => do
    let hash ← lift (node.hash node.nullRequest)
    onReplica (emit (.applyOperation ⟨key.view, key.sequence, hash⟩ node.nullRequest))

def maybeAdvanceOperationState (key : OperationKey) : Program Fault Replica Unit := do
  let s ← read
  let op := s.pbft.operations.find key
  if op.stage = .prepare ∧ op.isReadyForCommit node.swarmSize then doPrepared node outside key
  let s ← read
  let op := s.pbft.operations.find key
  if op.stage = .commit ∧ op.isReadyForExecute node.swarmSize then doCommitted node outside key

def maybeRecordRequest (requestEnv : BznEnvelope) (key : OperationKey) : Program Fault Replica Unit := do
  if requestEnv.payload = .notSet then pure ()
  else do
    let hash ← lift (node.hash requestEnv)
    if hash ≠ key.requestHash then pure ()
    else modifyOperation key fun op => op.recordRequest node.wire requestEnv

/-- `accepted_preprepares[log_key] = persistent{...}` -/
def acceptPreprepare (logKey : LogKey) (key : OperationKey) : Program Fault Replica Unit := do
  let value ← onReplica (persistent .operationKey key acceptedPrepreparesKey [Conversion.logKey.toString logKey])
  modifyPbft fun p => { p with acceptedPreprepares := p.acceptedPreprepares.insert logKey value }

def handlePreprepare (msg : PbftMsg) (originalMsg : BznEnvelope) : Program Fault Replica Unit := do
  let s ← read
  if (s.pbft.acceptedPreprepares[msg.logKey]?).any fun accepted => accepted.requestHash ≠ msg.requestHash then pure ()
  else do
    let key := msg.operationKey
    findOrConstruct key
    changeOperation key (MemoryOperation.recordPbftMsg msg originalMsg.clearPiggybackedRequests)
    maybeRecordRequest node msg.request key
    match originalMsg.piggybackedRequests with
    | request :: _ => maybeRecordRequest node request key
    | [] => pure ()
    acceptPreprepare msg.logKey key
    doPreprepared node outside key
    maybeAdvanceOperationState node outside key

/-- `handle_prepare` and `handle_commit`, which do the same. -/
def handleVote (msg : PbftMsg) (originalMsg : BznEnvelope) : Program Fault Replica Unit := do
  let key := msg.operationKey
  findOrConstruct key
  changeOperation key (MemoryOperation.recordPbftMsg msg originalMsg)
  maybeAdvanceOperationState node outside key

def handlePrepare : PbftMsg → BznEnvelope → Program Fault Replica Unit := handleVote node outside

def handleCommit : PbftMsg → BznEnvelope → Program Fault Replica Unit := handleVote node outside

/-! ## View changes -/

def initiateViewchange (optView : Option UInt64) : Program Fault Replica Unit := do
  let s ← read
  let viewToSet := optView.getD (s.pbft.view + 1)
  if s.pbft.lastViewSent < viewToSet then do
    setViewIsValid false
    let stable := s.manager.latestStableCheckpoint.sequence
    let msgEnv ← lift (makeViewchange node viewToSet stable s.manager.latestStableCheckpointProof
      (s.pbft.operations.preparedOperationsSince stable))
    asyncSignedBroadcast node outside msgEnv
    setLastViewSent viewToSet
  else pure ()

/-- `notify_audit_failure_detected` -/
def notifyAuditFailureDetected : Program Fault Replica Unit :=
  if node.auditEnabled then broadcastAudit node outside (.failureDetected node.uuid) else pure ()

def handleFailure : Program Fault Replica Unit := do
  notifyAuditFailureDetected node outside
  initiateViewchange node outside none

def setPrimaryFromNewview (newView : BznEnvelope) : Program Fault Replica Unit := do
  match node.peerByUuid newView.sender with
  | none => do
    modifyPbft fun p => { p with pinnedPrimary := none }
    initiateViewchange node outside none
  | some peer => modifyPbft fun p => { p with pinnedPrimary := some peer }

/-- `save_checkpoint` -/
def saveCheckpoint (msg : PbftMsg) : Program Fault Replica Unit :=
  forEach msg.checkpointMessages fun originalCheckpoint => do
    if ← lift (node.rejects originalCheckpoint) then pure ()
    else onManager (handleCheckpointMessage node outside originalCheckpoint)

/-- `map_request_to_hash`, with the requests themselves for their indices. -/
def mapRequestToHash (env : BznEnvelope) : Except Fault (Map Hash BznEnvelope) :=
  env.piggybackedRequests.foldlM (fun m request => do pure (m.insert (← node.hash request) request)) ∅

def saveAllRequests (msg : PbftMsg) (originalMsg : BznEnvelope) : Program Fault Replica Unit := do
  let requests ← lift (mapRequestToHash node originalMsg)
  forEach msg.preparedProofs fun preparedProof =>
    match preparedProof.prePrepare? with
    | none => pure ()
    | some prePrepare =>
      let ppMsg := node.wire.pbftMsg.decode prePrepare.pbft
      match requests[ppMsg.requestHash]? with
      | none => pure ()
      | some requestEnv => do
        findOrConstruct ppMsg.operationKey
        modifyOperation ppMsg.operationKey fun op => op.recordRequest node.wire requestEnv

/-- `valid_viewchange_messages_for_view[view][sender] = {...}` -/
def storeViewchange (view : UInt64) (sender : Uuid) (env : BznEnvelope) : Program Fault Replica Unit := do
  let value ← onReplica (persistent (.envelope node.wire) env validViewchangeMessagesForViewKey
    [sender, Conversion.uint64.toString view])
  modifyPbft fun p => { p with
    validViewchangeMessagesForView := Map.insert2 p.validViewchangeMessagesForView view sender value }

/-- A view that this replica is the primary of and has the votes for. -/
def Pbft.pendingView (p : Pbft) : Option UInt64 :=
  (p.validViewchangeMessagesForView.toList.find? fun entry =>
    (match p.predictPrimary node entry.1 with
      | some predicted => decide (predicted.uuid = node.uuid)
      | none => false) &&
    decide (p.view < entry.1) && decide (entry.2.toList.length = 2 * node.maxFaultyNodes + 1)).map Prod.fst

/-- A program of the operation manager, as one of the replica. -/
def onOperations {α : Type} (m : Program Fault HeldOperations α) : Program Fault Replica α :=
  zoom (fun s => s.pbft.operations) (fun operations s => { s with pbft := { s.pbft with operations := operations } }) m

def handleViewchange (msg : PbftMsg) (originalMsg : BznEnvelope) : Program Fault Replica Unit := do
  let s ← read
  if ← lift (isValidViewchangeMessage node s.pbft.view msg originalMsg) then do
    saveAllRequests node msg originalMsg
    storeViewchange node msg.view originalMsg.sender originalMsg.clearPiggybackedRequests
    saveCheckpoint node outside msg
    let s ← read
    if s.pbft.viewIsValid ∧
        (s.pbft.validViewchangeMessagesForView.getD msg.view ∅).toList.length = node.maxFaultyNodes + 1 ∧
        s.pbft.lastViewSent < msg.view then
      initiateViewchange node outside (some msg.view)
    let s ← read
    match s.pbft.pendingView node with
    | none => pure ()
    | some viewchange => do
      let newviewMsg ← onOperations (buildNewview node outside viewchange
        (s.pbft.validViewchangeMessagesForView.getD msg.view ∅) true)
      broadcastPbftMsg node outside newviewMsg
  else pure ()

/-- The pre-prepares of a NEWVIEW, one after the other. -/
def handleNewviewPreprepares (msg : PbftMsg) : Program Fault Replica Unit :=
  forEach msg.prePrepareMessages fun originalMsg2 =>
    match node.wire.pbftMsg.parse originalMsg2.pbft with
    | none => pure ()
    | some msg2 => do
      handlePreprepare node outside msg2 originalMsg2
      setNextIssuedSequenceNumber (msg2.sequence + 1)

def handleNewview (msg : PbftMsg) (originalMsg : BznEnvelope) : Program Fault Replica Unit := do
  let s ← read
  if ← lift (isValidNewviewMessage node outside s.pbft msg originalMsg) then
    match msg.viewchangeMessages with
    | [] => fail (.exception "index out of range")
    | first :: _ => do
      let viewchange := node.viewchangeOf first
      saveCheckpoint node outside viewchange
      setNextIssuedSequenceNumber (viewchange.sequence + 1)
      setPrimaryFromNewview node outside originalMsg
      setView msg.view
      setViewIsValid true
      handleNewviewPreprepares node outside msg
      modifyPbft fun p => { p with savedNewview := originalMsg }
  else pure ()

/-- `handle_message` -/
def handleMessage (msg : PbftMsg) (originalMsg : BznEnvelope) : Program Fault Replica Unit := do
  let s ← read
  if !node.isPeer originalMsg.sender then pure ()
  else if !s.pbft.preliminaryFilterMsg msg then pure ()
  else do
    let dropped ← if originalMsg.sender ≠ [] then lift (node.rejects originalMsg) else pure false
    if dropped then pure ()
    else
      match msg.type with
      | .preprepare => handlePreprepare node outside msg originalMsg
      | .prepare => handlePrepare node outside msg originalMsg
      | .commit => handleCommit node outside msg originalMsg
      | .viewchange => handleViewchange node outside msg originalMsg
      | .newview => handleNewview node outside msg originalMsg
      | _ => raise "Unsupported message type"

/-- `handle_bzn_message` -/
def handleBznMessage (msg : BznEnvelope) : Program Fault Replica Unit :=
  match node.wire.pbftMsg.parse msg.pbft with
  | none => pure ()
  | some innerMsg => handleMessage node outside innerMsg msg

end

end SwarmDb
