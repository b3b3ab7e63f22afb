import SwarmDb.Lib.Format

/-!
# The messages of the swarm

The message types of `bluzelle.proto`, `pbft.proto`, `database.proto` and
`audit.proto`, with the fields that the consensus code reads or writes. A
message as it travels is a `BznEnvelope`, whose payload is the serialized inner
message; `Wire` collects the serializations, which protobuf generates.
-/

namespace SwarmDb

open Lib

abbrev Uuid := Bytes
abbrev Hash := Bytes

/-! ## Envelopes -/

/-- The payload of a `bzn_envelope`: which one it is, and its text. -/
inductive Payload where
  | notSet
  | databaseMsg (text : Bytes)
  | pbftInternalRequest (text : Bytes)
  | databaseResponse (text : Bytes)
  | json (text : Bytes)
  | audit (text : Bytes)
  | pbft (text : Bytes)
  | pbftMembership (text : Bytes)
  | statusRequest (text : Bytes)
  | statusResponse (text : Bytes)
  | checkpointMsg (text : Bytes)
  | swarmError (text : Bytes)
  deriving DecidableEq, Repr, Inhabited

/-- A message of the swarm. -/
structure BznEnvelope where
  swarmId : Bytes
  sender : Uuid
  signature : Bytes
  timestamp : UInt64
  piggybackedRequests : List BznEnvelope
  payload : Payload
  deriving Repr

instance : Inhabited BznEnvelope := ⟨⟨[], [], [], 0, [], .notSet⟩⟩

namespace Payload

/-- The field number of the payload, `0` where there is none. -/
def payloadCase : Payload → Nat
  | notSet => 0
  | databaseMsg _ => 10
  | pbftInternalRequest _ => 11
  | databaseResponse _ => 12
  | json _ => 13
  | audit _ => 14
  | pbft _ => 15
  | pbftMembership _ => 16
  | statusRequest _ => 17
  | statusResponse _ => 18
  | checkpointMsg _ => 19
  | swarmError _ => 20

/-- The text of the payload, where there is one. -/
def text? : Payload → Option Bytes
  | notSet => none
  | databaseMsg t | pbftInternalRequest t | databaseResponse t | json t | audit t | pbft t
  | pbftMembership t | statusRequest t | statusResponse t | checkpointMsg t | swarmError t => some t

/-- A payload is determined by its case and its text. -/
theorem ext_case_text {p q : Payload} (h₁ : p.payloadCase = q.payloadCase) (h₂ : p.text? = q.text?) : p = q := by
  cases p <;> cases q <;> simp_all [payloadCase, text?]

end Payload

namespace BznEnvelope

/-! The accessors of a payload return the empty string where it is another one. -/

def pbft (e : BznEnvelope) : Bytes :=
  match e.payload with
  | .pbft t => t
  | _ => []

def pbftMembership (e : BznEnvelope) : Bytes :=
  match e.payload with
  | .pbftMembership t => t
  | _ => []

def checkpointMsg (e : BznEnvelope) : Bytes :=
  match e.payload with
  | .checkpointMsg t => t
  | _ => []

def databaseMsg (e : BznEnvelope) : Bytes :=
  match e.payload with
  | .databaseMsg t => t
  | _ => []

def databaseResponse (e : BznEnvelope) : Bytes :=
  match e.payload with
  | .databaseResponse t => t
  | _ => []

def swarmError (e : BznEnvelope) : Bytes :=
  match e.payload with
  | .swarmError t => t
  | _ => []

def clearPiggybackedRequests (e : BznEnvelope) : BznEnvelope := { e with piggybackedRequests := [] }

def addPiggybackedRequest (e r : BznEnvelope) : BznEnvelope :=
  { e with piggybackedRequests := e.piggybackedRequests ++ [r] }

end BznEnvelope

/-! ## PBFT messages -/

/-- `pbft_msg_type`; an open enumeration, as any number may stand on the wire. -/
inductive PbftMsgType where
  | undefined
  | preprepare
  | prepare
  | commit
  | viewchange
  | newview
  | unrecognized (n : UInt64)
  deriving DecidableEq, Repr, Inhabited

/-- `pbft_request_type`, open as well. -/
inductive PbftRequestType where
  | payload
  | internal
  | unrecognized (n : UInt64)
  deriving DecidableEq, Repr, Inhabited

/-- The proof that a request was prepared: its pre-prepare and the prepares. -/
structure PreparedProof where
  prePrepare? : Option BznEnvelope
  prepare : List BznEnvelope
  deriving Repr, Inhabited

/-- The pre-prepare of a proof, the default envelope where it has none. -/
def PreparedProof.prePrepare (p : PreparedProof) : BznEnvelope := p.prePrepare?.getD default

structure PbftMsg where
  type : PbftMsgType
  view : UInt64
  sequence : UInt64
  request? : Option BznEnvelope
  requestHash : Hash
  checkpointMessages : List BznEnvelope
  preparedProofs : List PreparedProof
  viewchangeMessages : List BznEnvelope
  prePrepareMessages : List BznEnvelope
  requestType : PbftRequestType
  deriving Repr

instance : Inhabited PbftMsg := ⟨⟨.undefined, 0, 0, none, [], [], [], [], [], .payload⟩⟩

/-- The inline request of a message, the default envelope where it has none. -/
def PbftMsg.request (m : PbftMsg) : BznEnvelope := m.request?.getD default

structure CheckpointMsg where
  sequence : UInt64
  stateHash : Hash
  deriving DecidableEq, Repr

instance : Inhabited CheckpointMsg := ⟨⟨0, []⟩⟩

/-- `pbft_membership_msg_type`. -/
inductive PbftMembershipMsgType where
  | undefined
  | join
  | joinResponse
  | leave
  | getState
  | setState
  | unrecognized (n : UInt64)
  deriving DecidableEq, Repr, Inhabited

structure PbftMembershipMsg where
  type : PbftMembershipMsgType
  sequence : UInt64
  stateHash : Hash
  checkpointProof : List BznEnvelope
  stateData : Bytes
  newviewMsg? : Option BznEnvelope
  deriving Repr

instance : Inhabited PbftMembershipMsg := ⟨⟨.undefined, 0, [], [], [], none⟩⟩

/-! ## Other payloads -/

/-- The request of a `database_msg`, as far as the consensus code tells them apart. -/
inductive DatabaseRequest where
  | notSet
  | nullmsg
  | quickRead
  | subscribe
  | unsubscribe
  | other (text : Bytes)
  deriving DecidableEq, Repr, Inhabited

structure DatabaseMsg where
  nonce : UInt64
  requestHash : Hash
  msg : DatabaseRequest
  deriving DecidableEq, Repr

instance : Inhabited DatabaseMsg := ⟨⟨0, [], .notSet⟩⟩

/-- `pbft_config_msg`: the code asks only whether it parses. -/
structure PbftConfigMsg where
  configuration : Bytes
  joinRequestHash : Hash
  deriving DecidableEq, Repr

instance : Inhabited PbftConfigMsg := ⟨⟨[], []⟩⟩

inductive AuditMessage where
  | notSet
  | primaryStatus (view : UInt64) (primary : Uuid)
  | pbftCommit (operation : Hash) (sequenceNumber : UInt64) (senderUuid : Uuid)
  | failureDetected (senderUuid : Uuid)
  deriving DecidableEq, Repr, Inhabited

structure SwarmError where
  message : Bytes
  data : Bytes
  hash : Hash
  deriving DecidableEq, Repr

instance : Inhabited SwarmError := ⟨⟨[], [], []⟩⟩

/-- The serializations of the message types. -/
structure Wire where
  envelope : Codec BznEnvelope
  pbftMsg : Codec PbftMsg
  checkpointMsg : Codec CheckpointMsg
  pbftMembershipMsg : Codec PbftMembershipMsg
  databaseMsg : Codec DatabaseMsg
  pbftConfigMsg : Codec PbftConfigMsg
  auditMessage : Codec AuditMessage
  swarmError : Codec SwarmError

end SwarmDb
