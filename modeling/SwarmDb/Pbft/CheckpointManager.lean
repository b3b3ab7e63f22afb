import SwarmDb.Pbft.Node
import SwarmDb.Pbft.Persistent

/-!
# The checkpoint manager

`pbft_checkpoint_manager`: the latest stable checkpoint with the messages that
prove it, the latest local checkpoint, and the messages for checkpoints that
are not stable yet. All of it is persistent.
-/

namespace SwarmDb

open Lib Program

def latestStableCheckpointKey : Bytes := ascii "stable_checkpoint"
def stableCheckpointProofKey : Bytes := ascii "stable_checkpoint_proof"
def latestLocalCheckpointKey : Bytes := ascii "local_checkpoint"
def partialCheckpointProofsKey : Bytes := ascii "partial_checkpoint_proofs"
def initialCheckpointHash : Hash := ascii "<null db state>"

/-- `pbft_checkpoint_manager` -/
structure CheckpointManager where
  latestStableCheckpoint : Checkpoint
  latestStableCheckpointProof : Map Uuid Bytes
  latestLocalCheckpoint : Checkpoint
  partialCheckpointProofs : Map Checkpoint (Map Uuid Bytes)

/-- A process with its checkpoint manager. -/
structure CheckpointProcess extends Process where
  manager : CheckpointManager

/-- A program of the process, as one of the checkpoint manager. -/
def onProcess {α : Type} (m : Program Fault Process α) : Program Fault CheckpointProcess α :=
  zoom CheckpointProcess.toProcess (fun p s => { s with toProcess := p }) m

@[simp] theorem result_onProcess {α : Type} (m : Program Fault Process α) (s : CheckpointProcess) :
    (onProcess m).result s = m.result s.toProcess := rfl

@[simp] theorem final_onProcess {α : Type} (m : Program Fault Process α) (s : CheckpointProcess) :
    (onProcess m).final s = { s with toProcess := m.final s.toProcess } := rfl

theorem forEach_onProcess {γ : Type} (l : List γ) (m : γ → Program Fault Process Unit) (s : CheckpointProcess) :
    (forEach l fun x => onProcess (m x)).result s = (forEach l m).result s.toProcess ∧
    (forEach l fun x => onProcess (m x)).final s = { s with toProcess := (forEach l m).final s.toProcess } :=
  forEach_zoom CheckpointProcess.toProcess (fun p s => { s with toProcess := p }) (fun _ _ => rfl) (fun _ _ _ => rfl)
    (fun _ => rfl) l m s

def modifyManager (f : CheckpointManager → CheckpointManager) : Program Fault CheckpointProcess Unit :=
  update fun s => { s with manager := f s.manager }

/-- The constructor. -/
def newCheckpointManager : Program Fault Process CheckpointManager := do
  let stable ← persistent .checkpoint ⟨0, initialCheckpointHash⟩ latestStableCheckpointKey []
  let localCp ← persistent .checkpoint ⟨0, initialCheckpointHash⟩ latestLocalCheckpointKey []
  let proof ← initKvContainer .string .string stableCheckpointProofKey
  -- the sub-keys are those of the inner map first, then those of the outer one
  let partialProofs ← initKvContainer2 .string .string .checkpoint partialCheckpointProofsKey
  pure ⟨stable, proof, localCp, partialProofs⟩

section

variable (node : Node) (outside : Outside)

def sendStateRequest : Program Fault CheckpointProcess Unit := do
  let s ← read
  let msg : PbftMembershipMsg := { (default : PbftMembershipMsg) with
    type := .getState
    sequence := s.manager.latestStableCheckpoint.sequence
    stateHash := s.manager.latestStableCheckpoint.hash }
  let senders := s.manager.latestStableCheckpointProof.toList.map Prod.fst
  match senders[outside.random % senders.length]? with
  | some selectedPeer =>
    onProcess (node.sendMaybeSigned selectedPeer { (default : BznEnvelope) with
      payload := .pbftMembership (node.wire.pbftMembershipMsg.serialize msg) })
  -- the iterator is moved past the end of an empty proof
  | none => fail (.exception "undefined behaviour")

/-- `send_delayed_state_request`: starts the timer. -/
def sendDelayedStateRequest (cp : Checkpoint) : Program Fault CheckpointProcess Unit :=
  onProcess (emit (.triggerCatchup cp))

/-- What happens when the timer of a delayed state request runs out. -/
def handleCatchupTimeout (cp : Checkpoint) : Program Fault CheckpointProcess Unit := do
  let s ← read
  if s.manager.latestLocalCheckpoint.sequence < cp.sequence then sendStateRequest node outside else pure ()

/-! `stabilize_checkpoint`, in its four parts. -/

def setLatestStableCheckpoint (cp : Checkpoint) : Program Fault CheckpointProcess Unit := do
  modifyManager fun m => { m with latestStableCheckpoint := cp }
  onProcess (assign .checkpoint cp latestStableCheckpointKey [])

/-- Clear the old proof. -/
def clearStableCheckpointProof : Program Fault CheckpointProcess Unit := do
  let s ← read
  forEach (s.manager.latestStableCheckpointProof.toList.map Prod.fst) fun sender =>
    onProcess (destroy stableCheckpointProofKey [sender])
  modifyManager fun m => { m with latestStableCheckpointProof := ∅ }

/-- Copy over the new proof. -/
def copyStableCheckpointProof (cp : Checkpoint) : Program Fault CheckpointProcess Unit := do
  let s ← read
  forEach (s.manager.partialCheckpointProofs.getD cp ∅).toList fun pair => do
    let value ← onProcess (persistent .string pair.2 stableCheckpointProofKey [pair.1])
    modifyManager fun m =>
      { m with latestStableCheckpointProof := m.latestStableCheckpointProof.insert pair.1 value }

/-- Delete the partial proofs that are not newer, from storage and from memory. -/
def clearPartialCheckpointProofs (cp : Checkpoint) : Program Fault CheckpointProcess Unit := do
  let s ← read
  forEach (s.manager.partialCheckpointProofs.toList.filter fun mapPair => ¬ mapPair.1.sequence > cp.sequence)
    fun mapPair =>
      forEach (mapPair.2.toList.map Prod.fst) fun sender =>
        onProcess (destroy partialCheckpointProofsKey [Conversion.checkpoint.toString mapPair.1, sender])
  modifyManager fun m =>
    { m with partialCheckpointProofs := m.partialCheckpointProofs.filter fun c _ => c.sequence > cp.sequence }

def stabilizeCheckpoint (cp : Checkpoint) : Program Fault CheckpointProcess Unit := do
  setLatestStableCheckpoint cp
  clearStableCheckpointProof
  copyStableCheckpointProof cp
  clearPartialCheckpointProofs cp

/-- How many messages support a checkpoint, from peers of the current list. -/
def checkpointAttestants (m : CheckpointManager) (cp : Checkpoint) : Nat :=
  ((m.partialCheckpointProofs.getD cp ∅).toList.filter fun pair => node.isPeer pair.1).length

def maybeStabilizeCheckpoint (cp : Checkpoint) : Program Fault CheckpointProcess Unit := do
  let s ← read
  if checkpointAttestants node s.manager cp ≥ honestMemberSize node.swarmSize then do
    stabilizeCheckpoint cp
    let s ← read
    if s.manager.latestLocalCheckpoint.sequence < cp.sequence then sendDelayedStateRequest cp
    else if s.manager.latestLocalCheckpoint.sequence = cp.sequence ∧ s.manager.latestStableCheckpoint.hash ≠ cp.hash
    then sendStateRequest node outside
    else pure ()
  else pure ()

/-- A message for the stable checkpoint is saved as more evidence of it. -/
def addStableCheckpointEvidence (msg : BznEnvelope) : Program Fault CheckpointProcess Unit := do
  let value ← onProcess (persistent .string (node.wire.envelope.serialize msg) stableCheckpointProofKey [msg.sender])
  modifyManager fun m =>
    { m with latestStableCheckpointProof := m.latestStableCheckpointProof.insert msg.sender value }

/-- A message for another checkpoint is saved, if it is the sender's first. -/
def addPartialCheckpointProof (cp : Checkpoint) (msg : BznEnvelope) : Program Fault CheckpointProcess Unit := do
  -- the map of the checkpoint is made when it is asked for the sender
  modifyManager fun m => { m with partialCheckpointProofs := m.partialCheckpointProofs.insertIfNew cp ∅ }
  let s ← read
  if (Map.lookup2 s.manager.partialCheckpointProofs cp msg.sender).isNone then do
    let value ← onProcess (persistent .string (node.wire.envelope.serialize msg) partialCheckpointProofsKey
      [Conversion.checkpoint.toString cp, msg.sender])
    modifyManager fun m =>
      { m with partialCheckpointProofs := Map.insert2 m.partialCheckpointProofs cp msg.sender value }
  else pure ()

def handleCheckpointMessage (msg : BznEnvelope) : Program Fault CheckpointProcess Unit := do
  match node.wire.checkpointMsg.parse msg.checkpointMsg with
  | none => pure ()
  | some inner =>
    let s ← read
    if inner.sequence < s.manager.latestLocalCheckpoint.sequence then pure ()
    else
      let cp : Checkpoint := ⟨inner.sequence, inner.stateHash⟩
      if cp.sequence = s.manager.latestStableCheckpoint.sequence then
        if cp = s.manager.latestStableCheckpoint then addStableCheckpointEvidence node msg else pure ()
      else do
        addPartialCheckpointProof node cp msg
        maybeStabilizeCheckpoint node outside cp

def localCheckpointReached (cp : Checkpoint) : Program Fault CheckpointProcess Unit := do
  let s ← read
  if cp.sequence ≤ s.manager.latestLocalCheckpoint.sequence then
    raise (s!"reached a checkpoint at {cp.sequence} which is not newer than the previous checkpoint at " ++
      s!"{s.manager.latestLocalCheckpoint.sequence}")
  else do
    modifyManager fun m => { m with latestLocalCheckpoint := cp }
    onProcess (assign .checkpoint cp latestLocalCheckpointKey [])
    onProcess (node.multicast { (default : BznEnvelope) with
      payload := .checkpointMsg (node.wire.checkpointMsg.serialize ⟨cp.sequence, cp.hash⟩) })
    let s ← read
    if cp.sequence = s.manager.latestLocalCheckpoint.sequence ∧ cp.hash ≠ s.manager.latestLocalCheckpoint.hash
    then sendStateRequest node outside
    else pure ()

end

/-! ## Runs of the manager -/

/-- A manager built over a storage. -/
def checkpointProcessOver (storage : MemStorage) : Except Fault CheckpointProcess :=
  match newCheckpointManager.runFrom (.start storage) with
  | (.ok manager, p) => .ok ⟨p, manager⟩
  | (.error e, _) => .error e

/-- The calls that other objects make to the manager. -/
inductive CheckpointCall where
  | handleCheckpointMessage (outside : Outside) (msg : BznEnvelope)
  | localCheckpointReached (outside : Outside) (cp : Checkpoint)

def CheckpointCall.program (node : Node) : CheckpointCall → Program Fault CheckpointProcess Unit
  | handleCheckpointMessage outside msg => SwarmDb.handleCheckpointMessage node outside msg
  | localCheckpointReached outside cp => SwarmDb.localCheckpointReached node outside cp

/-- The state after a list of calls. -/
def stateAfter (node : Node) (s : CheckpointProcess) (calls : List CheckpointCall) : CheckpointProcess :=
  calls.foldl (fun s call => (call.program node).final s) s

/-- Whether every call of a list returns. An exception leaves the handlers of
the process and ends it, so no call follows one that throws. -/
def allReturn (node : Node) : CheckpointProcess → List CheckpointCall → Bool
  | _, [] => true
  | s, call :: calls =>
    match (call.program node).result s with
    | .ok _ => allReturn node ((call.program node).final s) calls
    | .error _ => false

theorem stateAfter_take_succ (node : Node) (s : CheckpointProcess) (calls : List CheckpointCall) {i : Nat}
    (h : i < calls.length) : stateAfter node s (calls.take (i + 1)) =
      ((calls[i]).program node).final (stateAfter node s (calls.take i)) := by
  rw [List.take_succ_eq_append_getElem h, stateAfter, List.foldl_append]
  rfl

theorem allReturn_getElem {node : Node} {s : CheckpointProcess} {calls : List CheckpointCall}
    (h : allReturn node s calls) {i : Nat} (hi : i < calls.length) :
    ((calls[i]).program node).result (stateAfter node s (calls.take i)) = .ok () := by
  induction calls generalizing s i with
  | nil => cases hi
  | cons call calls ih =>
    unfold allReturn at h
    split at h
    · cases i with
      | zero => assumption
      | succ i => exact ih h (by simpa using hi)
    · cases h

end SwarmDb
