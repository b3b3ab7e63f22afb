import SwarmDb.Proto.Messages

/-!
# A plain wire format

A concrete `Wire` (`Wire.plain`), in which the fields of a message follow one
another in order. Runs of the model on given inputs are evaluated with it.
-/

namespace SwarmDb

open Lib Format

/-! ## Enumerations -/

private def payloadOfCase (n : UInt8) (t : Bytes) : Payload :=
  match n with
  | 10 => .databaseMsg t
  | 11 => .pbftInternalRequest t
  | 12 => .databaseResponse t
  | 13 => .json t
  | 14 => .audit t
  | 15 => .pbft t
  | 16 => .pbftMembership t
  | 17 => .statusRequest t
  | 18 => .statusResponse t
  | 19 => .checkpointMsg t
  | 20 => .swarmError t
  | _ => .notSet

private def payloadFormat : Format Payload :=
  (pair tag bytes).ofRetract (fun p => payloadOfCase p.1 p.2)
    (fun p => (UInt8.ofNat p.payloadCase, p.text?.getD [])) fun p => by cases p <;> rfl

private def typeFormat : Format PbftMsgType :=
  (pair tag word).ofRetract
    (fun p => match p.1 with
      | 0 => .undefined
      | 2 => .preprepare
      | 3 => .prepare
      | 4 => .commit
      | 8 => .viewchange
      | 9 => .newview
      | _ => .unrecognized p.2)
    (fun t => match t with
      | .undefined => (0, 0)
      | .preprepare => (2, 0)
      | .prepare => (3, 0)
      | .commit => (4, 0)
      | .viewchange => (8, 0)
      | .newview => (9, 0)
      | .unrecognized n => (1, n))
    fun t => by cases t <;> rfl

private def requestTypeFormat : Format PbftRequestType :=
  (pair tag word).ofRetract
    (fun p => match p.1 with
      | 0 => .payload
      | 1 => .internal
      | _ => .unrecognized p.2)
    (fun t => match t with
      | .payload => (0, 0)
      | .internal => (1, 0)
      | .unrecognized n => (2, n))
    fun t => by cases t <;> rfl

private def membershipTypeFormat : Format PbftMembershipMsgType :=
  (pair tag word).ofRetract
    (fun p => match p.1 with
      | 0 => .undefined
      | 1 => .join
      | 2 => .joinResponse
      | 3 => .leave
      | 4 => .getState
      | 5 => .setState
      | _ => .unrecognized p.2)
    (fun t => match t with
      | .undefined => (0, 0)
      | .join => (1, 0)
      | .joinResponse => (2, 0)
      | .leave => (3, 0)
      | .getState => (4, 0)
      | .setState => (5, 0)
      | .unrecognized n => (6, n))
    fun t => by cases t <;> rfl

private def databaseRequestFormat : Format DatabaseRequest :=
  (pair tag bytes).ofRetract
    (fun p => match p.1 with
      | 0 => .notSet
      | 1 => .nullmsg
      | 2 => .quickRead
      | 3 => .subscribe
      | 4 => .unsubscribe
      | _ => .other p.2)
    (fun r => match r with
      | .notSet => (0, [])
      | .nullmsg => (1, [])
      | .quickRead => (2, [])
      | .subscribe => (3, [])
      | .unsubscribe => (4, [])
      | .other t => (5, t))
    fun r => by cases r <;> rfl

/-! ## Envelopes

An envelope holds envelopes, so its reader runs on the depth it may still go
down; the length of the text is always enough. -/

private abbrev Header := Bytes × Uuid × Bytes × UInt64 × Payload

private def headerFormat : Format Header := pair bytes (pair bytes (pair bytes (pair word payloadFormat)))

mutual

private def putEnvelope : BznEnvelope → Bytes
  | ⟨swarmId, sender, signature, timestamp, requests, payload⟩ =>
    headerFormat.put (swarmId, sender, signature, timestamp, payload) ++ putEnvelopes requests

private def putEnvelopes : List BznEnvelope → Bytes
  | [] => [0]
  | e :: l => 1 :: (putEnvelope e ++ putEnvelopes l)

end

private theorem putEnvelopes_eq (l : List BznEnvelope) : putEnvelopes l = putList putEnvelope l := by
  induction l with
  | nil => rfl
  | cons e l ih => rw [putEnvelopes, putList, ih]

private def getEnvelope : Nat → Bytes → Option (BznEnvelope × Bytes)
  | 0, _ => none
  | depth + 1, b => (headerFormat.get b).bind fun p =>
    (getList (getEnvelope depth) (p.2.length + 1) p.2).map fun q =>
      (⟨p.1.1, p.1.2.1, p.1.2.2.1, p.1.2.2.2.1, q.1, p.1.2.2.2.2⟩, q.2)

private theorem length_putEnvelope_of_mem {e : BznEnvelope} {l : List BznEnvelope} (h : e ∈ l) :
    (putEnvelope e).length < (putList putEnvelope l).length := by
  induction l with
  | nil => cases h
  | cons d l ih =>
    simp only [putList, List.length_cons, List.length_append]
    rcases List.mem_cons.mp h with rfl | h
    · omega
    · have := ih h
      omega

/-- The text of an envelope bounds the depth of the envelopes in it. -/
private theorem getEnvelope_putEnvelope (depth : Nat) (e : BznEnvelope) (h : (putEnvelope e).length < depth)
    (rest : Bytes) : getEnvelope depth (putEnvelope e ++ rest) = some (e, rest) := by
  induction depth generalizing e rest with
  | zero => omega
  | succ depth ih =>
    obtain ⟨swarmId, sender, signature, timestamp, requests, payload⟩ := e
    rw [putEnvelope, List.length_append, putEnvelopes_eq] at h
    rw [getEnvelope, putEnvelope, putEnvelopes_eq, List.append_assoc, headerFormat.get_put, Option.bind_some]
    have hl := length_le_putList putEnvelope requests
    rw [getList_putList requests _ _ (by simp only [List.length_append]; omega), Option.map_some]
    intro d hd
    have := length_putEnvelope_of_mem hd
    exact ih d (by omega)

private def envelopeFormat : Format BznEnvelope where
  put := putEnvelope
  get b := getEnvelope (b.length + 1) b
  get_put e rest := getEnvelope_putEnvelope _ e (by simp only [List.length_append]; omega) rest
  put_ne_nil e := by
    obtain ⟨swarmId, sender, signature, timestamp, requests, payload⟩ := e
    rw [putEnvelope]
    exact List.append_ne_nil_of_left_ne_nil (headerFormat.put_ne_nil _) _

/-! ## Messages -/

private def proofFormat : Format PreparedProof :=
  (pair (option envelopeFormat) (list envelopeFormat)).ofRetract (fun p => ⟨p.1, p.2⟩)
    (fun p => (p.prePrepare?, p.prepare)) fun _ => rfl

private def pbftMsgFormat : Format PbftMsg :=
  (pair typeFormat (pair word (pair word (pair (option envelopeFormat) (pair bytes (pair (list envelopeFormat)
    (pair (list proofFormat) (pair (list envelopeFormat) (pair (list envelopeFormat)
      requestTypeFormat))))))))).ofRetract
    (fun p => ⟨p.1, p.2.1, p.2.2.1, p.2.2.2.1, p.2.2.2.2.1, p.2.2.2.2.2.1, p.2.2.2.2.2.2.1,
      p.2.2.2.2.2.2.2.1, p.2.2.2.2.2.2.2.2.1, p.2.2.2.2.2.2.2.2.2⟩)
    (fun m => (m.type, m.view, m.sequence, m.request?, m.requestHash, m.checkpointMessages, m.preparedProofs,
      m.viewchangeMessages, m.prePrepareMessages, m.requestType))
    fun _ => rfl

private def checkpointMsgFormat : Format CheckpointMsg :=
  (pair word bytes).ofRetract (fun p => ⟨p.1, p.2⟩) (fun m => (m.sequence, m.stateHash)) fun _ => rfl

private def membershipMsgFormat : Format PbftMembershipMsg :=
  (pair membershipTypeFormat (pair word (pair bytes (pair (list envelopeFormat) (pair bytes
    (option envelopeFormat)))))).ofRetract
    (fun p => ⟨p.1, p.2.1, p.2.2.1, p.2.2.2.1, p.2.2.2.2.1, p.2.2.2.2.2⟩)
    (fun m => (m.type, m.sequence, m.stateHash, m.checkpointProof, m.stateData, m.newviewMsg?))
    fun _ => rfl

private def databaseMsgFormat : Format DatabaseMsg :=
  (pair word (pair bytes databaseRequestFormat)).ofRetract (fun p => ⟨p.1, p.2.1, p.2.2⟩)
    (fun m => (m.nonce, m.requestHash, m.msg)) fun _ => rfl

private def configMsgFormat : Format PbftConfigMsg :=
  (pair bytes bytes).ofRetract (fun p => ⟨p.1, p.2⟩) (fun m => (m.configuration, m.joinRequestHash)) fun _ => rfl

private def auditMessageFormat : Format AuditMessage :=
  (pair tag (pair bytes (pair word bytes))).ofRetract
    (fun p => match p.1 with
      | 0 => .notSet
      | 1 => .primaryStatus p.2.2.1 p.2.1
      | 2 => .pbftCommit p.2.1 p.2.2.1 p.2.2.2
      | _ => .failureDetected p.2.1)
    (fun m => match m with
      | .notSet => (0, [], 0, [])
      | .primaryStatus view primary => (1, primary, view, [])
      | .pbftCommit operation sequenceNumber senderUuid => (2, operation, sequenceNumber, senderUuid)
      | .failureDetected senderUuid => (3, senderUuid, 0, []))
    fun m => by cases m <;> rfl

private def swarmErrorFormat : Format SwarmError :=
  (pair bytes (pair bytes bytes)).ofRetract (fun p => ⟨p.1, p.2.1, p.2.2⟩)
    (fun m => (m.message, m.data, m.hash)) fun _ => rfl

/-- The plain wire format. -/
def Wire.plain : Wire where
  envelope := envelopeFormat.codec
  pbftMsg := pbftMsgFormat.codec
  checkpointMsg := checkpointMsgFormat.codec
  pbftMembershipMsg := membershipMsgFormat.codec
  databaseMsg := databaseMsgFormat.codec
  pbftConfigMsg := configMsgFormat.codec
  auditMessage := auditMessageFormat.codec
  swarmError := swarmErrorFormat.codec

/-- The text of an envelope is never a single byte. -/
theorem Wire.length_plain_envelope (e : BznEnvelope) : (Wire.plain.envelope.serialize e).length ≠ 1 := by
  obtain ⟨swarmId, sender, signature, timestamp, requests, payload⟩ := e
  have hheader : (headerFormat.put (swarmId, sender, signature, timestamp, payload)).length ≠ 0 :=
    fun h => headerFormat.put_ne_nil _ (List.eq_nil_of_length_eq_zero h)
  have hrequests : (putEnvelopes requests).length ≠ 0 := by
    cases requests <;> simp [putEnvelopes]
  show (headerFormat.put (swarmId, sender, signature, timestamp, payload) ++ putEnvelopes requests).length ≠ 1
  rw [List.length_append]
  omega

/-- The plain wire format, but no bytes may follow a `pbft_msg`. -/
def Wire.strict : Wire := { Wire.plain with pbftMsg := pbftMsgFormat.strictCodec }

end SwarmDb
