import SwarmDb.Pbft.CheckpointStorage
import SwarmDb.Pbft.Events

/-!
# The steps of a replica

`Step` lists everything that the handlers do to a replica, each step with what was checked before it, in the handling of
an event that found the replica in a state `s₀`. That the handlers take no other steps is shown in
`SwarmDb.Pbft.Handling`. `Crash` is what an exception, or a kill, leaves behind of a replica.
-/

namespace SwarmDb

open Lib Program

/-- A replica with another process under it. -/
def Replica.withProcess (s : Replica) (q : Process) : Replica :=
  { s with toCheckpointProcess := { s.toCheckpointProcess with toProcess := q } }

/-- A replica with another `pbft`. -/
def Replica.withPbft (s : Replica) (p : Pbft) : Replica := { s with pbft := p }

/-- A replica with another operation under a key. -/
def Replica.withOperation (s : Replica) (key : OperationKey) (op : MemoryOperation) : Replica :=
  s.withPbft { s.pbft with operations := s.pbft.operations.insert key op }

/-- `q` is `p` after one effect. -/
structure Process.Emits (p q : Process) (e : Effect) : Prop where
  stored : q.stored = p.stored
  initializedContainers : q.initializedContainers = p.initializedContainers
  log : q.log = p.log ++ [e]

/-- An effect that is neither a message of the protocol nor the advance of an
operation or its execution. -/
def Effect.Quiet : Effect → Prop
  | multicast msg | send _ msg | reply _ msg => ∀ text, msg.payload ≠ .pbft text
  | advanced _ _ | applyOperation _ _ => False
  | _ => True

theorem Effect.OfCheckpoints.quiet {node : Node} {reached : Option Checkpoint} {e : Effect}
    (h : e.OfCheckpoints node reached) : e.Quiet := by
  cases e with
  | multicast msg =>
    obtain ⟨cp, -, h⟩ := h
    intro text ht
    rw [h] at ht
    cases ht
  | send peer msg =>
    obtain ⟨text, h⟩ := h
    intro text' ht
    rw [h] at ht
    cases ht
  | triggerCatchup cp => trivial
  | _ => exact absurd h id

/-! ## What was checked -/

/-- The two differ in the members that only the requests of clients concern. -/
structure Pbft.SameProtocol (p p' : Pbft) : Prop where
  view : p'.view = p.view
  nextIssuedSequenceNumber : p'.nextIssuedSequenceNumber = p.nextIssuedSequenceNumber
  lastExecutedSequenceNumber : p'.lastExecutedSequenceNumber = p.lastExecutedSequenceNumber
  acceptedPreprepares : p'.acceptedPreprepares = p.acceptedPreprepares
  viewIsValid : p'.viewIsValid = p.viewIsValid
  lastViewSent : p'.lastViewSent = p.lastViewSent
  validViewchangeMessagesForView : p'.validViewchangeMessagesForView = p.validViewchangeMessagesForView
  savedNewview : p'.savedNewview = p.savedNewview
  pinnedPrimary : p'.pinnedPrimary = p.pinnedPrimary
  operations : p'.operations = p.operations

/-- The two differ in the request and the session only. -/
structure MemoryOperation.SameVotes (op op' : MemoryOperation) : Prop where
  key : op'.key = op.key
  preprepareMessage : op'.preprepareMessage? = op.preprepareMessage?
  preparesSeen : op'.preparesSeen = op.preparesSeen
  prepareMessages : op'.prepareMessages = op.prepareMessages
  commitsSeen : op'.commitsSeen = op.commitsSeen
  stage : op'.stage = op.stage

/-- The request is the same, or one with the hash of a key. -/
def MemoryOperation.Binds (node : Node) (key : OperationKey) (op op' : MemoryOperation) : Prop :=
  op'.request? = op.request? ∨ ∃ request, op'.request? = some request ∧ node.hash request = .ok key.requestHash

/-- What is handed to the service for an operation: its database request, or a
request that does nothing in its place. -/
inductive Posts (node : Node) (key : OperationKey) (op : MemoryOperation) : OperationKey → BznEnvelope → Prop
  | request (request : BznEnvelope) (has : op.request? = some request) (text : Bytes)
      (payload : request.payload = .databaseMsg text) : Posts node key op key request
  | null (other : ∀ request text, op.request? = some request → request.payload ≠ .databaseMsg text) (hash : Hash)
      (hashes : node.hash node.nullRequest = .ok hash) :
        Posts node key op ⟨key.view, key.sequence, hash⟩ node.nullRequest

/-- The message of a peer of the swarm, past the checks of `handle_message` on
its sender. -/
structure Delivered (node : Node) (ev : Event) (msg : PbftMsg) (env : BznEnvelope) : Prop where
  event : ∃ session, ev = .message env session
  swarm : env.swarmId = node.options.swarmId
  payload : ∃ text, env.payload = .pbft text
  parse : node.wire.pbftMsg.parse env.pbft = some msg
  peer : node.isPeer env.sender = true
  verified : env.sender ≠ [] → node.rejects env = .ok false

/-- A NEWVIEW message that the replica found valid in the state `s₀`. -/
structure NewviewAccepted (node : Node) (outside : Outside) (ev : Event) (s₀ : Replica) (nv : PbftMsg)
    (nvEnv : BznEnvelope) : Prop extends Delivered node ev nv nvEnv where
  type : nv.type = .newview
  valid : isValidNewviewMessage node outside s₀.pbft nv nvEnv = .ok true

/-- A pre-prepare that the replica takes up in the state `s`: one that came in,
or one of a NEWVIEW. -/
inductive Proposed (node : Node) (outside : Outside) (ev : Event) (s₀ s : Replica) (msg : PbftMsg)
    (env : BznEnvelope) : Prop
  | direct (delivered : Delivered node ev msg env) (type : msg.type = .preprepare)
      (view : msg.view = s₀.pbft.view) (valid : s₀.pbft.viewIsValid = true)
      (same : s.pbft = { s₀.pbft with operations := s.pbft.operations })
  | newview (nv : PbftMsg) (nvEnv : BznEnvelope) (accepted : NewviewAccepted node outside ev s₀ nv nvEnv)
      (mem : env ∈ nv.prePrepareMessages) (parse : node.wire.pbftMsg.parse env.pbft = some msg)
      (view : s.pbft.view = nv.view) (valid : s.pbft.viewIsValid = true)

/-- A state that came in. -/
structure StateReceived (node : Node) (ev : Event) (inner : PbftMembershipMsg) : Prop where
  type : inner.type = .setState
  message : ∃ msg session, ev = .message msg session ∧
    node.wire.pbftMembershipMsg.parse msg.pbftMembership = some inner

/-- A VIEWCHANGE that came in, by itself or in a NEWVIEW. -/
inductive ViewchangeReceived (node : Node) (ev : Event) (vc : PbftMsg) : Prop
  | direct (env : BznEnvelope) (delivered : Delivered node ev vc env) (type : vc.type = .viewchange)
  | newview (nv : PbftMsg) (nvEnv : BznEnvelope) (delivered : Delivered node ev nv nvEnv) (type : nv.type = .newview)
      (env : BznEnvelope) (mem : env ∈ nv.viewchangeMessages) (same : vc = node.viewchangeOf env)

/-- A checkpoint message that is handled: one that came in, one of the proof of
a state, or one of a VIEWCHANGE, which was checked. -/
inductive CheckpointSource (node : Node) (ev : Event) (env : BznEnvelope) : Prop
  | direct (session : Option Nat) (event : ev = .message env session) (text : Bytes)
      (payload : env.payload = .checkpointMsg text)
  | state (inner : PbftMembershipMsg) (received : StateReceived node ev inner) (mem : env ∈ inner.checkpointProof)
  | saved (vc : PbftMsg) (received : ViewchangeReceived node ev vc) (mem : env ∈ vc.checkpointMessages)
      (verified : node.rejects env = .ok false)

/-- The calls of the checkpoint manager in the handling of an event. -/
def Called (node : Node) (ev : Event) : CheckpointCall → Prop
  | .handleCheckpointMessage _ env => CheckpointSource node ev env
  | .localCheckpointReached _ cp => ev = .executed cp.sequence ∧ cp.sequence % checkpointInterval = 0

/-- The manager after the proof of a state. -/
def CheckpointManager.afterProof (node : Node) (m : CheckpointManager) (proof : List BznEnvelope) : CheckpointManager :=
  proof.foldl (fun m env => m.handled node env) m

/-- The NEWVIEW of a state that is taken over by a replica in the state `s₀`. -/
structure StateNewview (node : Node) (ev : Event) (s₀ : Replica) (nv : PbftMsg) (nvEnv : BznEnvelope) : Prop where
  received : ∃ inner, StateReceived node ev inner ∧ inner.newviewMsg? = some nvEnv ∧
    (Mirrors s₀.toProcess s₀.manager →
      adoptsState (s₀.manager.afterProof node inner.checkpointProof) ⟨inner.sequence, inner.stateHash⟩ = true)
  parse : node.wire.pbftMsg.parse nvEnv.pbft = some nv

/-- An envelope as `async_signed_broadcast` sends it. -/
def Broadcasts (node : Node) (outside : Outside) (env env' : BznEnvelope) : Prop :=
  node.maybeSigned { env with timestamp := outside.now } = .ok env'

/-- The VIEWCHANGE for a view that a replica sends in the state `s`. -/
def MakesViewchange (node : Node) (outside : Outside) (s : Replica) (view : UInt64) (env' : BznEnvelope) : Prop :=
  ∃ env, makeViewchange node view s.manager.latestStableCheckpoint.sequence s.manager.latestStableCheckpointProof
      (s.pbft.operations.preparedOperationsSince s.manager.latestStableCheckpoint.sequence) = .ok env ∧
    Broadcasts node outside env env'

/-- The votes of a replica after a VIEWCHANGE was stored: the first one of a
sender for a view stays. -/
def viewchangesWith (vcs : Map UInt64 (Map Uuid BznEnvelope)) (view : UInt64) (sender : Uuid) (env : BznEnvelope) :
    Map UInt64 (Map Uuid BznEnvelope) :=
  Map.insert2 vcs view sender ((Map.lookup2 vcs view sender).getD env)

/-- A pre-prepare for the next sequence number, which a primary makes for a
request that came in. -/
structure Orders (node : Node) (ev : Event) (s₀ s : Replica) (msg : PbftMsg) : Prop where
  request : ∃ env session text, ev = .message env session ∧ env.payload = .databaseMsg text
  primary : s₀.pbft.isPrimary node = true
  type : msg.type = .preprepare
  view : msg.view = s₀.pbft.view
  sameView : s.pbft.view = s₀.pbft.view
  sequence : msg.sequence = s₀.pbft.nextIssuedSequenceNumber
  next : s.pbft.nextIssuedSequenceNumber = msg.sequence + 1
  log : s.log = s₀.log

/-- Why the next sequence number is set in the state `s`: to order a request, or
in a new view, first from a VIEWCHANGE and then from each pre-prepare. -/
inductive Numbers (node : Node) (outside : Outside) (ev : Event) (s₀ s : Replica) : UInt64 → Prop
  | request (request : ∃ env session text, ev = .message env session ∧ env.payload = .databaseMsg text)
      (primary : s₀.pbft.isPrimary node = true) (view : s.pbft.view = s₀.pbft.view)
      (next : s.pbft.nextIssuedSequenceNumber = s₀.pbft.nextIssuedSequenceNumber) (log : s.log = s₀.log) :
      Numbers node outside ev s₀ s (s₀.pbft.nextIssuedSequenceNumber + 1)
  | viewchange (nv : PbftMsg) (nvEnv : BznEnvelope) (accepted : NewviewAccepted node outside ev s₀ nv nvEnv)
      (first : BznEnvelope) (mem : first ∈ nv.viewchangeMessages) :
      Numbers node outside ev s₀ s ((node.viewchangeOf first).sequence + 1)
  | prePrepare (nv : PbftMsg) (nvEnv : BznEnvelope) (accepted : NewviewAccepted node outside ev s₀ nv nvEnv)
      (env : BznEnvelope) (mem : env ∈ nv.prePrepareMessages) (msg : PbftMsg)
      (parse : node.wire.pbftMsg.parse env.pbft = some msg) : Numbers node outside ev s₀ s (msg.sequence + 1)

/-- A NEWVIEW that a replica makes in the state `s` after it has stored a
VIEWCHANGE. -/
structure MakesNewview (node : Node) (outside : Outside) (ev : Event) (s₀ s : Replica) (nv : PbftMsg) : Prop where
  stored : ∃ msg env, Delivered node ev msg env ∧ msg.type = .viewchange ∧
    isValidViewchangeMessage node s₀.pbft.view msg env = .ok true ∧
    s.pbft.validViewchangeMessagesForView = viewchangesWith s₀.pbft.validViewchangeMessagesForView msg.view
      env.sender env.clearPiggybackedRequests ∧
    ∃ view operations, s.pbft.pendingView node = some view ∧
      (buildNewview node outside view (s.pbft.validViewchangeMessagesForView.getD msg.view ∅) true).result
        operations = .ok nv
  view : s.pbft.view = s₀.pbft.view
  pinnedPrimary : s.pbft.pinnedPrimary = s₀.pbft.pinnedPrimary

/-! ## Steps -/

section

variable (node : Node) (outside : Outside) (ev : Event) (s₀ : Replica)

/-- What the handlers do to a replica. -/
inductive Step : Replica → Replica → Prop
  | memory {s : Replica} (p : Pbft) (same : s.pbft.SameProtocol p) : Step s (s.withPbft p)
  | executed {s : Replica} (sequence : UInt64) (event : ev = .executed sequence) :
      Step s (s.withPbft { s.pbft with lastExecutedSequenceNumber := sequence })
  | nextIssued {s : Replica} (v : UInt64) (numbers : Numbers node outside ev s₀ s v) (q : Process)
      (writes : s.toProcess.Writes q (persistentKey nextIssuedSequenceNumberKey [])
        (some (Conversion.uint64.toString v))) :
      Step s ((s.withProcess q).withPbft { s.pbft with nextIssuedSequenceNumber := v })
  | emit {s : Replica} (e : Effect) (quiet : e.Quiet) (q : Process) (emits : s.toProcess.Emits q e) :
      Step s (s.withProcess q)
  | call {s : Replica} (c : CheckpointCall) (called : Called node ev c) (q : Process) (m : CheckpointManager)
      (after : Mirrors s.toProcess s.manager → m = c.after node s.manager ∧ Mirrors q m)
      (frame : s.toProcess.Frame checkpointNames (Effect.OfCheckpoints node c.reached?) q) :
      Step s { s with toCheckpointProcess := ⟨q, m⟩ }
  | request {s : Replica} (key : OperationKey) (op : MemoryOperation)
      (same : (s.pbft.operations.find key).SameVotes op) (binds : (s.pbft.operations.find key).Binds node key op) :
      Step s (s.withOperation key op)
  | recordPreprepare {s : Replica} (msg : PbftMsg) (env : BznEnvelope)
      (proposed : Proposed node outside ev s₀ s msg env) :
      Step s (s.withOperation msg.operationKey { s.pbft.operations.find msg.operationKey with
        preprepareMessage? := some env.clearPiggybackedRequests })
  | recordVote {s : Replica} (msg : PbftMsg) (env : BznEnvelope) (delivered : Delivered node ev msg env)
      (type : msg.type = .prepare ∨ msg.type = .commit) (op : MemoryOperation)
      (record : (s.pbft.operations.find msg.operationKey).recordPbftMsg msg env = .ok op) :
      Step s (s.withOperation msg.operationKey op)
  | accept {s : Replica} (msg : PbftMsg) (env : BznEnvelope) (proposed : Proposed node outside ev s₀ s msg env)
      (free : s.pbft.acceptedPreprepares[msg.logKey]? = none) (q : Process)
      (writes : s.toProcess.Writes q (persistentKey acceptedPrepreparesKey [Conversion.logKey.toString msg.logKey])
        (some (Conversion.operationKey.toString msg.operationKey))) :
      Step s ((s.withProcess q).withPbft { s.pbft with
        acceptedPreprepares := s.pbft.acceptedPreprepares.insert msg.logKey msg.operationKey })
  | broadcastPrepare {s : Replica} (key : OperationKey)
      (accepted : s.pbft.acceptedPreprepares[(⟨key.view, key.sequence⟩ : LogKey)]? = some key)
      (view : key.view = s.pbft.view) (valid : s.pbft.viewIsValid = true) (env : BznEnvelope)
      (broadcasts : Broadcasts node outside (node.pbftEnvelope (commonMessageSetup key .prepare)) env) (q : Process)
      (emits : s.toProcess.Emits q (.multicast env)) : Step s (s.withProcess q)
  | advance {s : Replica} (key : OperationKey) (stage : OperationStage) (view : key.view = s.pbft.view)
      (valid : s.pbft.viewIsValid = true) (op : MemoryOperation)
      (advances : (s.pbft.operations.find key).advanceOperationStage stage node.swarmSize = .ok op) (q : Process)
      (emits : s.toProcess.Emits q (.advanced key stage)) : Step s ((s.withProcess q).withOperation key op)
  | broadcastCommit {s : Replica} (key : OperationKey) (op : MemoryOperation)
      (held : s.pbft.operations[key]? = some op) (stage : op.stage = .commit)
      (view : key.view = s.pbft.view) (valid : s.pbft.viewIsValid = true) (env : BznEnvelope)
      (broadcasts : Broadcasts node outside (node.pbftEnvelope (commonMessageSetup key .commit)) env) (q : Process)
      (emits : s.toProcess.Emits q (.multicast env)) : Step s (s.withProcess q)
  | apply {s : Replica} (key : OperationKey) (op : MemoryOperation) (held : s.pbft.operations[key]? = some op)
      (stage : op.stage = .execute) (key' : OperationKey) (request : BznEnvelope)
      (posts : Posts node key op key' request) (q : Process)
      (emits : s.toProcess.Emits q (.applyOperation key' request)) : Step s (s.withProcess q)
  | broadcastPreprepare {s : Replica} (msg : PbftMsg) (orders : Orders node ev s₀ s msg) (requests : List BznEnvelope)
      (env : BznEnvelope)
      (broadcasts : Broadcasts node outside { node.pbftEnvelope msg with piggybackedRequests := requests } env)
      (q : Process) (emits : s.toProcess.Emits q (.multicast env)) : Step s (s.withProcess q)
  | storeViewchange {s : Replica} (msg : PbftMsg) (env : BznEnvelope) (delivered : Delivered node ev msg env)
      (type : msg.type = .viewchange) (view : s.pbft.view = s₀.pbft.view)
      (valid : isValidViewchangeMessage node s₀.pbft.view msg env = .ok true)
      (free : Map.lookup2 s.pbft.validViewchangeMessagesForView msg.view env.sender = none) (q : Process)
      (writes : s.toProcess.Writes q (persistentKey validViewchangeMessagesForViewKey
          [env.sender, Conversion.uint64.toString msg.view])
        (some ((Conversion.envelope node.wire).toString env.clearPiggybackedRequests))) :
      Step s ((s.withProcess q).withPbft { s.pbft with
        validViewchangeMessagesForView := Map.insert2 s.pbft.validViewchangeMessagesForView msg.view env.sender
          env.clearPiggybackedRequests })
  | invalidate {s : Replica} (q : Process)
      (writes : s.toProcess.Writes q (persistentKey viewIsValidKey []) (some (Conversion.bool.toString false))) :
      Step s ((s.withProcess q).withPbft { s.pbft with viewIsValid := false })
  | sendViewchange {s : Replica} (view : UInt64) (next : s.pbft.lastViewSent < view)
      (invalid : s.pbft.viewIsValid = false) (env : BznEnvelope) (makes : MakesViewchange node outside s view env)
      (q : Process) (emits : s.toProcess.Emits q (.multicast env)) (q' : Process)
      (writes : q.Writes q' (persistentKey lastViewSentKey []) (some (Conversion.uint64.toString view))) :
      Step s ((s.withProcess q').withPbft { s.pbft with lastViewSent := view })
  | sendNewview {s : Replica} (nv : PbftMsg) (makes : MakesNewview node outside ev s₀ s nv) (env : BznEnvelope)
      (broadcasts : Broadcasts node outside (node.pbftEnvelope nv) env) (q : Process)
      (emits : s.toProcess.Emits q (.multicast env)) : Step s (s.withProcess q)
  | newview {s : Replica} (nv : PbftMsg) (nvEnv : BznEnvelope) (accepted : NewviewAccepted node outside ev s₀ nv nvEnv)
      (view : s.pbft.view = s₀.pbft.view) (sent : s.pbft.lastViewSent = s₀.pbft.lastViewSent)
      (q : Process) (writes : s.toProcess.Writes q (persistentKey viewKey [])
        (some (Conversion.uint64.toString nv.view))) (q' : Process)
      (writes' : q.Writes q' (persistentKey viewIsValidKey []) (some (Conversion.bool.toString true))) :
      Step s ((s.withProcess q').withPbft { s.pbft with
        view := nv.view, viewIsValid := true, pinnedPrimary := node.peerByUuid nvEnv.sender })
  | adoptView {s : Replica} (nv : PbftMsg) (nvEnv : BznEnvelope) (received : StateNewview node ev s₀ nv nvEnv)
      (view : s.pbft.view = s₀.pbft.view) (sent : s.pbft.lastViewSent = s₀.pbft.lastViewSent)
      (valid : s.pbft.viewIsValid = s₀.pbft.viewIsValid) (q : Process)
      (writes : s.toProcess.Writes q (persistentKey viewKey []) (some (Conversion.uint64.toString nv.view))) :
      Step s ((s.withProcess q).withPbft { s.pbft with
        view := nv.view, pinnedPrimary := node.peerByUuid nvEnv.sender })
  | saveNewview {s : Replica} (nv : PbftMsg) (nvEnv : BznEnvelope)
      (accepted : NewviewAccepted node outside ev s₀ nv nvEnv) (view : s.pbft.view = nv.view)
      (taken : ∀ env ∈ nv.prePrepareMessages, ∀ msg, node.wire.pbftMsg.parse env.pbft = some msg →
        (s.pbft.acceptedPreprepares[msg.logKey]?).isSome) :
      Step s (s.withPbft { s.pbft with savedNewview := nvEnv })
  | deleteOperations {s : Replica} :
      Step s (s.withPbft { s.pbft with
        operations := s.pbft.operations.deleteOperationsUntil
          (min s.manager.latestStableCheckpoint.sequence s.manager.latestLocalCheckpoint.sequence) })

/-- What an exception or a kill leaves of a replica: all that `pbft` has stored
as it was, but perhaps a new view that is not valid yet, or a VIEWCHANGE that was
sent and not noted any more. -/
inductive Crash : Replica → Replica → Prop
  | quiet {s s' : Replica} (frame : s.toProcess.Frame checkpointNames Effect.Quiet s'.toProcess) : Crash s s'
  | enter {s s' : Replica} (nv : PbftMsg) (nvEnv : BznEnvelope) (accepted : NewviewAccepted node outside ev s₀ nv nvEnv)
      (view : s.pbft.view = s₀.pbft.view) (writes : s.toProcess.Writes s'.toProcess (persistentKey viewKey [])
        (some (Conversion.uint64.toString nv.view))) : Crash s s'
  | viewchange {s s' : Replica} (view : UInt64) (next : s.pbft.lastViewSent < view)
      (invalid : s.pbft.viewIsValid = false) (env : BznEnvelope) (makes : MakesViewchange node outside s view env)
      (emits : s.toProcess.Emits s'.toProcess (.multicast env)) : Crash s s'

end

end SwarmDb
