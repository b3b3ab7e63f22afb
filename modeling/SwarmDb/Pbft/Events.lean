import SwarmDb.Pbft.Handlers

/-!
# Requests, state transfer and the events of a replica

The rest of what `pbft` reacts to: the requests of clients, the membership
messages that carry the service state, the service, the timers and failures.
`Event` collects everything that can happen to a replica, and `Event.program`
is what it does then.
-/

namespace SwarmDb

open Lib Program

section

variable (node : Node) (outside : Outside)

/-! ## Requests -/

def timestampErrorMsg : Bytes := ascii "INVALID TIMESTAMP"
def tooLargeErrorMsg : Bytes := ascii "REQUEST TOO LARGE"
def tooBusyErrorMsg : Bytes := ascii "SERVER TOO BUSY"
def duplicateErrorMsg : Bytes := ascii "DUPLICATE REQUEST"

def sendErrorResponse (requestEnv : BznEnvelope) (session : Option Nat) (hash : Hash) (msg : Bytes) :
    Program Fault Replica Unit :=
  match session, node.wire.databaseMsg.parse requestEnv.databaseMsg with
  | some session, some req =>
    let err : SwarmError := ⟨msg, decimal req.nonce.toNat, hash⟩
    onReplica (emit (.reply session
      ⟨node.options.swarmId, node.uuid, [], outside.now, [], .swarmError (node.wire.swarmError.serialize err)⟩))
  | _, _ => pure ()

/-- `setup_request_operation` -/
def setupRequestOperation (requestEnv : BznEnvelope) (requestHash : Hash) : Program Fault Replica OperationKey := do
  let s ← read
  let requestSeq := s.pbft.nextIssuedSequenceNumber
  setNextIssuedSequenceNumber (requestSeq + 1)
  let s ← read
  let key : OperationKey := ⟨s.pbft.view, requestSeq, requestHash⟩
  findOrConstruct key
  modifyOperation key fun op => op.recordRequest node.wire requestEnv
  pure key

/-- `do_preprepare`: broadcast a PREPREPARE. -/
def doPreprepare (key : OperationKey) : Program Fault Replica Unit := do
  let s ← read
  let reqEnv ← lift (s.pbft.operations.find key).getRequest
  let msg := commonMessageSetup key .preprepare
  match reqEnv.payload with
  | .pbftInternalRequest _ =>
    broadcastPbftMsg node outside { msg with request? := some reqEnv, requestType := .internal }
  | _ => asyncSignedBroadcast node outside ((node.pbftEnvelope msg).addPiggybackedRequest reqEnv)

def alreadySeenRequest (p : Pbft) (req : BznEnvelope) (hash : Hash) : Bool :=
  p.recentRequests.any fun r => r.1 = req.timestamp ∧ r.2.1 = req.sender ∧ r.2.2 = hash

def sawRequest (req : BznEnvelope) (hash : Hash) : Program Fault Replica Unit :=
  modifyPbft fun p => { p with
    recentRequests := ((req.timestamp, req.sender, hash) :: p.recentRequests).filter fun r =>
      outside.now - maxRequestAgeMs < r.1 }

/-- `forward_request_to_primary` -/
def forwardRequestToPrimary (requestEnv : BznEnvelope) : Program Fault Replica Unit := do
  let s ← read
  match s.pbft.pinnedPrimary with
  | none => pure ()
  | some primary => do
    let msg ← lift (node.signed requestEnv)
    onReplica (emit (.send primary.uuid msg))

def addSessionToSessionsWaiting (hash : Hash) (session : Option Nat) : Program Fault Replica Unit :=
  match session with
  | none => pure ()
  | some session =>
    modifyPbft fun p => { p with
      sessionsWaitingOnForwardedRequests := p.sessionsWaitingOnForwardedRequests.insertIfNew hash session }

/-- The part of `handle_request` that only the primary reaches. -/
def orderRequest (requestEnv : BznEnvelope) (session : Option Nat) (hash : Hash) : Program Fault Replica Unit := do
  let s ← read
  if node.options.admissionWindow < s.pbft.nextIssuedSequenceNumber - s.pbft.lastExecutedSequenceNumber then
    sendErrorResponse node outside requestEnv session hash tooBusyErrorMsg
  else if alreadySeenRequest s.pbft requestEnv hash then
    sendErrorResponse node outside requestEnv session hash duplicateErrorMsg
  else do
    let verified ← if requestEnv.sender ≠ [] then lift (node.verify requestEnv) else pure true
    if !verified then pure ()
    else do
      sawRequest outside requestEnv hash
      let key ← setupRequestOperation node requestEnv hash
      doPreprepare node outside key

def handleRequest (requestEnv : BznEnvelope) (session : Option Nat) : Program Fault Replica Unit := do
  let hash ← lift (node.hash requestEnv)
  if requestEnv.timestamp < outside.now - maxRequestAgeMs ∨ outside.now + maxRequestAgeMs < requestEnv.timestamp then
    sendErrorResponse node outside requestEnv session hash timestampErrorMsg
  else if requestEnv.databaseMsg ≠ [] ∧ maxValueSize - 512 ≤ requestEnv.databaseMsg.length then
    sendErrorResponse node outside requestEnv session hash tooLargeErrorMsg
  else do
    addSessionToSessionsWaiting hash session
    let s ← read
    if !s.pbft.isPrimary node then forwardRequestToPrimary node requestEnv
    else orderRequest node outside requestEnv session hash

/-- Whether the service carries out a request at once (`apply_operation_now`). -/
def appliesNow (msg : BznEnvelope) : Bool :=
  match node.wire.databaseMsg.parse msg.databaseMsg with
  | some ⟨_, _, .quickRead⟩ | some ⟨_, _, .subscribe⟩ | some ⟨_, _, .unsubscribe⟩ => true
  | _ => false

def handleDatabaseMessage (msg : BznEnvelope) (session : Option Nat) : Program Fault Replica Unit :=
  if appliesNow node msg then onReplica (emit (.applyOperationNow msg session))
  else handleRequest node outside (if msg.timestamp = 0 then { msg with timestamp := outside.now } else msg) session

/-- A response, sent on to the session that waits for it. -/
def forwardResponse (hash : Option Hash) (msg : BznEnvelope) : Program Fault Replica Unit := do
  let s ← read
  match hash.bind fun h => s.pbft.sessionsWaitingOnForwardedRequests[h]? with
  | some session => onReplica (emit (.reply session msg))
  | none => pure ()

def handleDatabaseResponseMessage (msg : BznEnvelope) : Program Fault Replica Unit :=
  forwardResponse ((node.wire.databaseMsg.parse msg.databaseResponse).map DatabaseMsg.requestHash) msg

def handleSwarmErrorResponseMessage (msg : BznEnvelope) : Program Fault Replica Unit :=
  forwardResponse ((node.wire.swarmError.parse msg.swarmError).map SwarmError.hash) msg

/-! ## The service state -/

def handleGetState (msg : PbftMembershipMsg) (session : Option Nat) : Program Fault Replica Unit := do
  let s ← read
  let reqCp : Checkpoint := ⟨msg.sequence, msg.stateHash⟩
  if s.manager.latestStableCheckpoint ≠ reqCp then pure ()
  else
    match outside.serviceState reqCp.sequence with
    | none => pure ()
    | some state =>
      let saved := match s.pbft.savedNewview.payload with
        | .pbft _ => some s.pbft.savedNewview
        | _ => none
      if 1 < s.pbft.view ∧ saved.isNone then pure ()
      else
        let reply : PbftMembershipMsg := { (default : PbftMembershipMsg) with
          type := .setState
          sequence := reqCp.sequence
          stateHash := reqCp.hash
          stateData := state
          checkpointProof := s.manager.latestStableCheckpointProof.toList.map fun pair =>
            node.wire.envelope.decode pair.2
          newviewMsg? := saved }
        match session with
        | none => fail (.exception "undefined behaviour")
        | some session => do
          let env ← lift (node.wrapMessage outside { (default : BznEnvelope) with
            payload := .pbftMembership (node.wire.pbftMembershipMsg.serialize reply) })
          onReplica (emit (.reply session env))

/-- The view and the primary of a NEWVIEW that came with a state. -/
def adoptNewview (newviewMsg : BznEnvelope) : Program Fault Replica Unit :=
  match node.wire.pbftMsg.parse newviewMsg.pbft with
  | none => pure ()
  | some newview => do
    setView newview.view
    setPrimaryFromNewview node outside newviewMsg

/-- Whether a state is taken over by a manager that has handled its proof. -/
def adoptsState (m : CheckpointManager) (cp : Checkpoint) : Bool :=
  m.latestStableCheckpoint = cp ∧ m.latestLocalCheckpoint ≠ cp ∧ ¬ cp.sequence < m.latestLocalCheckpoint.sequence

def handleSetState (msg : PbftMembershipMsg) : Program Fault Replica Unit := do
  let cp : Checkpoint := ⟨msg.sequence, msg.stateHash⟩
  forEach msg.checkpointProof fun env => onManager (handleCheckpointMessage node outside env)
  let s ← read
  if !adoptsState s.manager cp then pure ()
  else do
    onReplica (emit (.setServiceState cp.sequence msg.stateData))
    match msg.newviewMsg? with
    | none => pure ()
    | some newviewMsg => adoptNewview node outside newviewMsg

def handleMembershipMessage (msg : BznEnvelope) (session : Option Nat) : Program Fault Replica Unit :=
  match node.wire.pbftMembershipMsg.parse msg.pbftMembership with
  | none => pure ()
  | some innerMsg => do
    let dropped ← if msg.sender ≠ [] then lift (node.rejects msg) else pure false
    if dropped then pure ()
    else do
      let _ ← lift (node.hash msg)
      match innerMsg.type with
      | .getState => handleGetState node outside innerMsg session
      | .setState => handleSetState node outside innerMsg
      | _ => pure ()

/-! ## The service and the timers -/

/-- The handler that the service calls when it has executed an operation. -/
def handleExecuted (sequence : UInt64) : Program Fault Replica Unit := do
  modifyPbft fun p => { p with lastExecutedSequenceNumber := sequence }
  if sequence % checkpointInterval = 0 then do
    onReplica (emit (.saveServiceStateAt (sequence + checkpointInterval)))
    onManager (localCheckpointReached node outside ⟨sequence, outside.serviceStateHash sequence⟩)
    let s ← read
    let safeDeleteBound := min s.manager.latestStableCheckpoint.sequence s.manager.latestLocalCheckpoint.sequence
    modifyPbft fun p => { p with operations := p.operations.deleteOperationsUntil safeDeleteBound }

def handleAuditHeartbeatTimeout : Program Fault Replica Unit := do
  let s ← read
  if s.pbft.isPrimary node ∧ node.auditEnabled then
    broadcastAudit node outside (.primaryStatus s.pbft.view node.uuid)

/-- The shutdown handler of a session that waits for a response. -/
def handleSessionShutdown (hash : Hash) (session : Nat) : Program Fault Replica Unit :=
  modifyPbft fun p =>
    if p.sessionsWaitingOnForwardedRequests[hash]? = some session then
      { p with sessionsWaitingOnForwardedRequests := p.sessionsWaitingOnForwardedRequests.erase hash }
    else p

end

/-! ## Events -/

/-- `priv_protobuf_handler`: a message goes to the handler of its payload. -/
def handleProtobuf (node : Node) (outside : Outside) (msg : BznEnvelope) (session : Option Nat) :
    Program Fault Replica Unit :=
  if msg.swarmId ≠ node.options.swarmId then pure ()
  else
    match msg.payload with
    | .pbft _ => handleBznMessage node outside msg
    | .pbftMembership _ => handleMembershipMessage node outside msg session
    | .checkpointMsg _ => onManager (handleCheckpointMessage node outside msg)
    | .databaseMsg _ => handleDatabaseMessage node outside msg session
    | .databaseResponse _ => handleDatabaseResponseMessage node msg
    | .swarmError _ => handleSwarmErrorResponseMessage node msg
    | _ => pure ()

/-- What can happen to a replica. -/
inductive Event where
  | message (msg : BznEnvelope) (session : Option Nat)
  | executed (sequence : UInt64)
  | failure
  | catchupTimeout (cp : Checkpoint)
  | auditHeartbeat
  | sessionShutdown (hash : Hash) (session : Nat)

def Event.program (node : Node) (outside : Outside) : Event → Program Fault Replica Unit
  | message msg session => handleProtobuf node outside msg session
  | executed sequence => handleExecuted node outside sequence
  | failure => handleFailure node outside
  | catchupTimeout cp => onManager (handleCatchupTimeout node outside cp)
  | auditHeartbeat => handleAuditHeartbeatTimeout node outside
  | sessionShutdown hash session => handleSessionShutdown hash session

end SwarmDb
