import SwarmDb.Lib.Hex
import SwarmDb.Pbft.Node

/-!
# Peers in the registry of swarms

`esr_peer_info`: what is asked of the contract that registers the peers of a swarm,
and how its answers are read, a line of 64 digits at a time. The reading of an
answer is a state machine with one state for each kind of line.
-/

namespace SwarmDb

open Lib

def esrResponseLineLength : Nat := 64
def requiredSizeMultiple : Nat := 64
def parameterOffset : Nat := 64
def getPeersAddress : Bytes := ascii "46e76d8b"
def getPeerInfoSignature : Bytes := ascii "0xcc8575cb"

def trimRightNulls (s : Bytes) : Bytes := s.rdropWhile fun c => c = 0

def hexToCharString (hex : Bytes) : Except HexDecodeError Bytes := unhex hex

/-- The lines that are read of an answer, which is a C string. -/
def responseLines (result : Bytes) : List Bytes := blocks esrResponseLineLength (result.takeWhile fun c => c ≠ 0)

/-! ## The list of peers -/

inductive PeersState where
  | header
  | headerSwarmSize
  | headerInfo
  | peerIdSize
  | peerId
  deriving DecidableEq, Repr

/-- The variables of `parse_get_peers_result_to_vector`. -/
structure PeersParser where
  state : PeersState := .header
  results : List Bytes := []
  nodeCount : UInt64 := 0
  index : UInt64 := 0
  peerId : Bytes := []
  peerIdLength : UInt64 := 0
  deriving DecidableEq, Repr

/-- One line; nothing where the parser returns before the end. -/
def PeersParser.readLine (p : PeersParser) (line : Bytes) : Except HexDecodeError (Option PeersParser) := do
  let read ← match p.state with
    | .header => pure (some { p with state := .headerSwarmSize })
    | .headerSwarmSize =>
      let nodeCount := strtoul16 line
      -- the swarm may not exist
      pure (if nodeCount = 0 then none else some { p with state := .headerInfo, nodeCount := nodeCount })
    | .headerInfo => pure (some { p with state := if p.index = p.nodeCount + 1 then .peerIdSize else .headerInfo })
    | .peerIdSize =>
      let peerIdLength := strtoul16 line
      pure (some (if peerIdLength ≠ 0 then { p with state := .peerId, peerIdLength := peerIdLength }
        else { p with peerIdLength := peerIdLength, nodeCount := p.nodeCount - 1 }))
    | .peerId => do
      let text ← hexToCharString line
      let peerId := p.peerId ++ text
      pure (some (if p.peerIdLength.toNat ≤ peerId.length then
          { p with state := .peerIdSize, results := p.results ++ [trimRightNulls peerId], peerId := [] }
        else { p with peerId := peerId }))
  return read.map fun p => { p with index := p.index + 1 }

def PeersParser.readLines : PeersParser → List Bytes → Except HexDecodeError (List Bytes)
  | p, [] => .ok p.results
  | p, line :: lines => do
    match ← p.readLine line with
    | none => return p.results
    | some p => p.readLines lines

def parseGetPeersResultToVector (result : Bytes) : Except HexDecodeError (List Bytes) :=
  PeersParser.readLines {} (responseLines result)

/-! ## The address of a peer -/

inductive PeerInfoState where
  | nodeCount
  | na0
  | na1
  | nodePort
  | nodeHostSize
  | nodeHost
  | nodeNameSize
  | nodeName
  | finished
  deriving DecidableEq, Repr

/-- The variables of `parse_get_peer_info_result_to_peer_address`. -/
structure PeerInfoParser where
  state : PeerInfoState := .nodeCount
  textSize : UInt64 := 0
  port : UInt16 := 0
  host : Bytes := []
  name : Bytes := []
  deriving DecidableEq, Repr

def PeerInfoParser.readLine (p : PeerInfoParser) (line : Bytes) : Except HexDecodeError PeerInfoParser :=
  match p.state with
  | .nodeCount => pure { p with state := .na0 }
  | .na0 => pure { p with state := .na1 }
  | .na1 => pure { p with state := .nodePort }
  | .nodePort => pure { p with state := .nodeHostSize, port := (strtoul16 line).toUInt16 }
  | .nodeHostSize => pure { p with state := .nodeHost, textSize := strtoul16 line }
  | .nodeHost => do
    let text ← hexToCharString line
    pure { p with state := .nodeNameSize, host := trimRightNulls text }
  | .nodeNameSize => pure { p with state := .nodeName, textSize := strtoul16 line, name := [] }
  | .nodeName => do
    let text ← hexToCharString line
    let name := trimRightNulls (p.name ++ text)
    pure { p with state := if p.textSize.toNat = name.length then .finished else .nodeName, name := name }
  -- the answer has too many lines
  | .finished => pure p

def PeerInfoParser.readLines (p : PeerInfoParser) (lines : List Bytes) : Except HexDecodeError PeerInfoParser :=
  lines.foldlM PeerInfoParser.readLine p

def parseGetPeerInfoResultToPeerAddress (peerId result : Bytes) : Except HexDecodeError PeerAddress := do
  let p ← PeerInfoParser.readLines {} (responseLines result)
  return ⟨p.host, p.port, p.name, peerId⟩

/-! ## What is asked -/

def padStrToMod64 (parameter : Bytes) : Bytes :=
  let remainder := parameter.length % requiredSizeMultiple
  if remainder ≠ 0 then parameter ++ List.replicate (requiredSizeMultiple - remainder) 48 else parameter

/-- The size is cast to a number of 32 bits before its digits are written. -/
def sizeTypeToHex (i width : Nat) : Bytes := (hexadecimal (i % 2 ^ 32)).leftpad width 48

def stringToHex (value : Bytes) : Bytes := upperHex value

def dataStringForGetPeers (swarmId : Bytes) : Bytes :=
  ascii "0x"
    ++ padStrToMod64 getPeersAddress
    ++ padStrToMod64 (ascii "00000020")
    ++ sizeTypeToHex swarmId.length 8
    ++ padStrToMod64 (stringToHex swarmId)

def dataStringForGetPeerInfo (swarmId peerId : Bytes) : Bytes :=
  let swarmIdParameter := sizeTypeToHex swarmId.length 64 ++ padStrToMod64 (stringToHex swarmId)
  let peerIdParameter := sizeTypeToHex peerId.length 64 ++ padStrToMod64 (stringToHex peerId)
  let preamble := getPeerInfoSignature
    ++ sizeTypeToHex parameterOffset 64
    ++ sizeTypeToHex (parameterOffset + swarmIdParameter.length / 2) 64
  preamble ++ swarmIdParameter ++ peerIdParameter

end SwarmDb
