import SwarmDb.Proto.Plain
import SwarmDb.Pbft.Node

/-!
# Sample nodes

Small swarms on which runs of the model are evaluated. The peers are named by
single letters; a signature is the name of its signer and the text.
-/

namespace SwarmDb

open Lib

def samplePeer (uuid : String) : PeerAddress := ⟨ascii "127.0.0.1", 50000, ascii uuid, ascii uuid⟩

def sampleSsl : OpenSsl where
  sha256 := id
  verifySignature uuid text signature := signature = uuid ++ text
  signText uuid text := some (uuid ++ text)

/-- A swarm of peers in the order of their uuids. -/
def sampleBeacon (peers : List PeerAddress) (h : peers.Pairwise fun a b => ¬ b.uuid < a.uuid) : PeersBeacon :=
  ⟨peers, peers, .refl _, h⟩

def onePeer : PeersBeacon := sampleBeacon [samplePeer "A"] (by decide)
def fourPeers : PeersBeacon :=
  sampleBeacon [samplePeer "A", samplePeer "B", samplePeer "C", samplePeer "D"] (by decide)

/-- A node of a sample swarm, with message signing on. -/
def sampleNode (peers : PeersBeacon) (uuid : String) : Node where
  options := ⟨ascii uuid, ascii "swarm", true, true, true, 100⟩
  ssl := sampleSsl
  wire := .plain
  peers := peers
  auditEnabled := true

def sampleOutside : Outside := ⟨1, fun _ => [], fun _ => none, 0⟩

end SwarmDb
