import SwarmDb.Lib.Words
import SwarmDb.Pbft.Replica

/-!
# View changes: messages and their validation

How VIEWCHANGE and NEWVIEW messages are put together, and the checks of `is_valid_viewchange_message` and
`is_valid_newview_message`, which read the view and the primary of the replica and nothing else of its state.
-/

namespace SwarmDb

open Lib Program

section

variable (node : Node)

/-! ## VIEWCHANGE -/

/-- The checkpoint that a message of a VIEWCHANGE votes for, if it counts. -/
def checkpointVote (envelope : BznEnvelope) : Except Fault (Option Checkpoint) := do
  if ← node.rejects envelope then pure none
  else if !node.isPeer envelope.sender then pure none
  else pure ((node.wire.checkpointMsg.parse envelope.checkpointMsg).map fun m => ⟨m.sequence, m.stateHash⟩)

def validateAndExtractCheckpointHashes (viewchangeMessage : PbftMsg) :
    Except Fault (Map Checkpoint (Finset Uuid)) := do
  let checkpointHashes ← viewchangeMessage.checkpointMessages.foldlM (fun m envelope => do
    match ← checkpointVote node envelope with
    | none => pure m
    | some cp => pure (m.insert cp (insert envelope.sender (m.getD cp ∅)))) (∅ : Map Checkpoint (Finset Uuid))
  pure (checkpointHashes.filter fun _ senders => honestMemberSize node.swarmSize ≤ senders.card)

/-- Whether an envelope is that of a prepare for the operation of a pre-prepare. -/
def isMatchingPrepare (preprepareMessage : PbftMsg) (prepareEnvelope : BznEnvelope) : Except Fault Bool := do
  if !node.isPeer prepareEnvelope.sender then pure false
  else if ← node.rejects prepareEnvelope then pure false
  else
    match node.wire.pbftMsg.parse prepareEnvelope.pbft with
    | none => pure false
    | some prepareMsg =>
      pure (decide (prepareMsg.type = .prepare) && decide (preprepareMessage.sequence = prepareMsg.sequence) &&
        decide (preprepareMessage.view = prepareMsg.view) &&
        decide (preprepareMessage.requestHash = prepareMsg.requestHash))

def isValidPreparedProof (proof : PreparedProof) (validCheckpointSequence : UInt64) : Except Fault Bool := do
  let prePrepareEnvelope := proof.prePrepare
  if !node.isPeer prePrepareEnvelope.sender then pure false
  else if ← node.rejects prePrepareEnvelope then pure false
  else
    match node.wire.pbftMsg.parse prePrepareEnvelope.pbft with
    | none => pure false
    | some preprepareMessage =>
      if preprepareMessage.sequence ≤ validCheckpointSequence then pure false
      else if preprepareMessage.type ≠ .preprepare then pure false
      else if ← proof.prepare.allM (isMatchingPrepare node preprepareMessage) then
        pure (decide (2 * node.maxFaultyNodes + 1 ≤ (proof.prepare.map (·.sender)).toFinset.card))
      else pure false

/-- `is_valid_viewchange_message`, at a replica with a current view. -/
def isValidViewchangeMessage (view : UInt64) (viewchangeMessage : PbftMsg) (originalMsg : BznEnvelope) :
    Except Fault Bool := do
  if !node.isPeer originalMsg.sender then pure false
  else if !(view < viewchangeMessage.view) then pure false
  else do
    let validCheckpointHashes ← validateAndExtractCheckpointHashes node viewchangeMessage
    if validCheckpointHashes.toList = [] ∧ viewchangeMessage.sequence ≠ 0 then pure false
    else
      let validCheckpointSequence :=
        match validCheckpointHashes.toList.head? with
        | none => 0
        | some h => h.1.sequence
      if viewchangeMessage.sequence ≠ validCheckpointSequence then pure false
      else viewchangeMessage.preparedProofs.allM fun proof => isValidPreparedProof node proof validCheckpointSequence

/-- The proof of one prepared operation, and the request that goes with it. -/
def preparedProofOf (operation : MemoryOperation) : Except Fault (PreparedProof × List BznEnvelope) := do
  let requests ← if operation.hasConfigRequest then pure [] else do pure [← operation.getRequest]
  pure (⟨some operation.getPreprepare, operation.getPrepares⟩, requests)

def makeViewchange (newView baseSequenceNumber : UInt64) (stableCheckpointProof : Map Uuid Bytes)
    (preparedOperations : Map UInt64 MemoryOperation) : Except Fault BznEnvelope := do
  let proofs ← (preparedOperations.toList.map Prod.snd).mapM preparedProofOf
  let viewchange : PbftMsg := { (default : PbftMsg) with
    type := .viewchange
    view := newView
    sequence := baseSequenceNumber
    checkpointMessages := stableCheckpointProof.toList.map fun msg => node.wire.envelope.decode msg.2
    preparedProofs := proofs.map Prod.fst }
  pure { node.pbftEnvelope viewchange with piggybackedRequests := (proofs.map Prod.snd).flatten }

end

/-! ## NEWVIEW -/

section

variable (node : Node) (outside : Outside)

/-- The request of an operation that does nothing. -/
def Node.nullRequest : BznEnvelope :=
  { (default : BznEnvelope) with payload := .databaseMsg (node.wire.databaseMsg.serialize ⟨0, [], .nullmsg⟩) }

/-- The pre-prepare of an operation that does nothing, for a sequence. -/
def nullPrePrepare (newView sequence : UInt64) : Except Fault BznEnvelope := do
  let msg2 : PbftMsg := { (default : PbftMsg) with
    view := newView
    sequence := sequence
    type := .preprepare
    requestHash := ← node.hash node.nullRequest }
  pure ((← node.wrapMessage outside (node.pbftEnvelope msg2)).addPiggybackedRequest node.nullRequest)

def fillInMissingPrePrepares (maxCheckpointSequence newView : UInt64) (prePrepares : Map UInt64 BznEnvelope) :
    Except Fault (Map UInt64 BznEnvelope) := do
  let lastSequenceNumber := (prePrepares.toList.map Prod.fst).foldl max 0
  match sequencesBetween (maxCheckpointSequence + 1) lastSequenceNumber with
  | none => .error .divergence
  | some sequences =>
    sequences.foldlM (fun m i => do
      if (m[i]?).isSome then pure m else pure (m.insert i (← nullPrePrepare node outside newView i))) prePrepares

def makeNewview (newViewIndex : UInt64) (viewchangeEnvelopesFromSenders : Map Uuid BznEnvelope)
    (prePrepareMessages : Map UInt64 BznEnvelope) : PbftMsg :=
  { (default : PbftMsg) with
    type := .newview
    view := newViewIndex
    viewchangeMessages := viewchangeEnvelopesFromSenders.toList.map Prod.snd
    prePrepareMessages := prePrepareMessages.toList.map Prod.snd }

/-- The request of an operation, put with its pre-prepare where there is one. -/
def attachRequest (oldView : UInt64) (prePrepare : PbftMsg) (env : BznEnvelope) :
    Program Fault HeldOperations BznEnvelope := do
  let key : OperationKey := ⟨oldView, prePrepare.sequence, prePrepare.requestHash⟩
  update fun operations => operations.construct key
  let operations ← read
  match (operations.find key).request? with
  | some request => pure (env.addPiggybackedRequest request)
  | none => pure env

/-- The envelope of a new pre-prepare, for one that was made in an old view. -/
def newPrePrepare (attachReqs : Bool) (oldView : UInt64) (prePrepare : PbftMsg) :
    Program Fault HeldOperations BznEnvelope := do
  let env ← lift (node.wrapMessage outside (node.pbftEnvelope prePrepare))
  if prePrepare.requestType = .payload ∧ attachReqs then attachRequest oldView prePrepare env else pure env

/-- The pre-prepares with a new one for a prepared proof, if it is the first for
its sequence and above the checkpoint. -/
def addPrePrepare (newView maxCheckpointSequence : UInt64) (attachReqs : Bool) (prePrepares : Map UInt64 BznEnvelope)
    (preparedProof : PreparedProof) : Program Fault HeldOperations (Map UInt64 BznEnvelope) := do
  let prePrepare := node.wire.pbftMsg.decode preparedProof.prePrepare.pbft
  if (prePrepares[prePrepare.sequence]?).isSome then pure prePrepares
  else if prePrepare.sequence ≤ maxCheckpointSequence then pure prePrepares
  else do
    let env ← newPrePrepare node outside attachReqs prePrepare.view { prePrepare with view := newView }
    pure (prePrepares.insert prePrepare.sequence env)

/-- The message in a VIEWCHANGE envelope. -/
def Node.viewchangeOf (env : BznEnvelope) : PbftMsg := node.wire.pbftMsg.decode env.pbft

/-- The greatest checkpoint of the VIEWCHANGE messages. -/
def Node.maxCheckpointSequence (viewchangeEnvelopes : List BznEnvelope) : UInt64 :=
  (viewchangeEnvelopes.map fun env => (node.viewchangeOf env).sequence).foldl max 0

def buildNewview (newView : UInt64) (viewchangeEnvelopesFromSenders : Map Uuid BznEnvelope) (attachReqs : Bool) :
    Program Fault HeldOperations PbftMsg := do
  let envelopes := viewchangeEnvelopesFromSenders.toList.map Prod.snd
  let maxCheckpointSequence := node.maxCheckpointSequence envelopes
  let prePrepares ← envelopes.foldlM (fun m env =>
    (node.viewchangeOf env).preparedProofs.foldlM
      (addPrePrepare node outside newView maxCheckpointSequence attachReqs) m) (∅ : Map UInt64 BznEnvelope)
  let prePrepares ← lift (fillInMissingPrePrepares node outside maxCheckpointSequence newView prePrepares)
  pure (makeNewview newView viewchangeEnvelopesFromSenders prePrepares)

/-- Whether a VIEWCHANGE in a NEWVIEW is valid and for its view. -/
def isViewchangeFor (view : UInt64) (theirs : PbftMsg) (originalMsg : BznEnvelope) : Except Fault Bool :=
  match node.wire.pbftMsg.parse originalMsg.pbft with
  | none => pure false
  | some viewchangeMsg => do
    if viewchangeMsg.type ≠ .viewchange then pure false
    else if ← isValidViewchangeMessage node view viewchangeMsg originalMsg then
      pure (decide (viewchangeMsg.view = theirs.view))
    else pure false

/-- Whether a pre-prepare in a NEWVIEW is the one that was expected. -/
def isExpectedPrePrepare (sender : Uuid) (ours theirs : BznEnvelope) : Except Fault Bool := do
  if ← node.rejects theirs then pure false
  else if theirs.sender ≠ sender then pure false
  else
    let oursPbft := node.wire.pbftMsg.decode ours.pbft
    let theirsPbft := node.wire.pbftMsg.decode theirs.pbft
    pure (decide (oursPbft.type = theirsPbft.type) && decide (theirsPbft.type = .preprepare) &&
      decide (oursPbft.view = theirsPbft.view) && decide (oursPbft.sequence = theirsPbft.sequence) &&
      decide (oursPbft.requestHash = theirsPbft.requestHash))

/-- The envelopes by sender, the last one of each. -/
def envelopesFromSenders (envelopes : List BznEnvelope) : Map Uuid BznEnvelope :=
  envelopes.foldl (fun m env => m.insert env.sender env) ∅

/-- `is_valid_newview_message`, at a replica with a current view and primary. -/
def isValidNewviewMessage (p : Pbft) (theirs : PbftMsg) (originalTheirs : BznEnvelope) : Except Fault Bool := do
  match p.predictPrimary node theirs.view with
  | none => pure false
  | some expectedPrimary =>
    if originalTheirs.sender ≠ expectedPrimary.uuid then pure false
    else if theirs.viewchangeMessages.length < 2 * node.maxFaultyNodes + 1 then pure false
    else if ← theirs.viewchangeMessages.allM (isViewchangeFor node p.view theirs) then do
      if (theirs.viewchangeMessages.map (·.sender)).toFinset.card ≠ theirs.viewchangeMessages.length then pure false
      else do
        let ours ← (buildNewview node outside theirs.view
          (envelopesFromSenders theirs.viewchangeMessages) false).result ∅
        if ours.prePrepareMessages.length ≠ theirs.prePrepareMessages.length then pure false
        else
          (ours.prePrepareMessages.zip theirs.prePrepareMessages).allM fun pair =>
            isExpectedPrePrepare node originalTheirs.sender pair.1 pair.2
    else pure false

end

end SwarmDb
