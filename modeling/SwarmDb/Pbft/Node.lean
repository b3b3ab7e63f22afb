import SwarmDb.Pbft.Crypto
import SwarmDb.Pbft.Quorum

/-!
# A node of the swarm

What a replica is given when it is built (options, peers, the libraries), and
how its messages leave it. With peer message signing on, a message is signed on
its way out unless it has a signature already.
-/

namespace SwarmDb

open Lib Program

/-- `peer_address_t` -/
structure PeerAddress where
  host : Bytes
  port : UInt16
  name : Bytes
  uuid : Uuid
  deriving DecidableEq, Repr, Inhabited

/-- A fixed list of peers: in the order of the hash table that holds it, and
ordered by uuid. -/
structure PeersBeacon where
  current : List PeerAddress
  ordered : List PeerAddress
  perm : ordered.Perm current
  sorted : ordered.Pairwise fun a b => ¬ b.uuid < a.uuid

/-- The surroundings of a replica that do not change while it runs. -/
structure Node where
  options : Options
  ssl : OpenSsl
  wire : Wire
  peers : PeersBeacon
  auditEnabled : Bool

/-- What a replica asks of its surroundings while it handles one event: the
clock, the service and chance. -/
structure Outside where
  now : UInt64
  /-- `service_state_hash` -/
  serviceStateHash : UInt64 → Hash
  /-- `get_service_state` -/
  serviceState : UInt64 → Option Bytes
  random : Nat

namespace Node

variable (node : Node)

def uuid : Uuid := node.options.uuid

def swarmSize : Nat := node.peers.current.length

def maxFaultyNodes : Nat := faultyNodesBound node.swarmSize

def isPeer (sender : Uuid) : Bool := node.peers.current.any fun peer => peer.uuid = sender

def verify (msg : BznEnvelope) : Except Fault Bool := cryptoVerify node.ssl node.options msg

/-- `get_peer_message_signing() && !verify(msg)` -/
def rejects (msg : BznEnvelope) : Except Fault Bool :=
  if node.options.peerMessageSigning then (node.verify msg).map (! ·) else .ok false

def hash (msg : BznEnvelope) : Except Fault Hash := cryptoHash node.ssl msg

/-- A message as it leaves in `send_maybe_signed_message`. -/
def maybeSigned (msg : BznEnvelope) : Except Fault BznEnvelope :=
  if node.options.peerMessageSigning then
    let msg := { msg with swarmId := node.options.swarmId }
    if msg.signature = [] then cryptoSign node.ssl node.options msg else .ok msg
  else .ok { msg with sender := node.options.uuid, swarmId := node.options.swarmId }

/-- A message as it leaves in `send_signed_message`. -/
def signed (msg : BznEnvelope) : Except Fault BznEnvelope :=
  let msg := { msg with swarmId := node.options.swarmId }
  if msg.signature = [] then cryptoSign node.ssl node.options msg else .ok msg

/-- `wrap_message`: an envelope with this node as its sender, and its signature. -/
def wrapMessage (outside : Outside) (env : BznEnvelope) : Except Fault BznEnvelope :=
  cryptoSign node.ssl node.options
    { env with sender := node.uuid, timestamp := outside.now, swarmId := node.options.swarmId }

/-- `predict_primary`, for another view than the current one. -/
def primaryOf (view : UInt64) : Option PeerAddress := node.peers.ordered[view.toNat % node.peers.ordered.length]?

/-- The peer of a uuid, the first one of the list. -/
def peerByUuid (uuid : Uuid) : Option PeerAddress := node.peers.current.find? fun peer => peer.uuid = uuid

/-- A message to every peer. -/
def multicast (msg : BznEnvelope) : Program Fault Process Unit := do
  let msg ← lift (node.maybeSigned msg)
  emit (.multicast msg)

/-- A message to the peer of a uuid, if there is one. -/
def sendMaybeSigned (peer : Uuid) (msg : BznEnvelope) : Program Fault Process Unit :=
  if node.isPeer peer then do
    let msg ← lift (node.maybeSigned msg)
    emit (.send peer msg)
  else pure ()

end Node

end SwarmDb
