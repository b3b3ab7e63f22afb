import SwarmDb.Crud.Messages

/-!
# Subscriptions

`subscription_manager`: for each key of each database the sessions that asked
to be told of its changes, with the nonces they asked with. Sessions are
numbered, and a subscription holds its session weakly: `alive` says which of
them can still be locked.
-/

namespace SwarmDb.Crud

open Lib

/-- The subscriptions, the number of the last update of each key, and what was
sent to the sessions. -/
structure SubscriptionManager where
  subscribers : Map Bytes (Map Bytes (Map Nat (Map UInt64 Nat)))
  keySeqNumber : Map Bytes (Map Bytes UInt64)
  sent : List (Nat × Response)

instance : Inhabited SubscriptionManager := ⟨⟨∅, ∅, []⟩⟩

namespace SubscriptionManager

/-- `subscribers[uuid][key][session][transaction_id] = session` -/
def add (m : SubscriptionManager) (uuid key : Bytes) (transactionId : UInt64) (session : Nat) :
    SubscriptionManager :=
  let keys := m.subscribers.getD uuid ∅
  let sessions := keys.getD key ∅
  { m with subscribers := m.subscribers.insert uuid (keys.insert key
      (sessions.insert session ((sessions.getD session ∅).insert transactionId session))) }

def seqNumber (m : SubscriptionManager) (uuid key : Bytes) : UInt64 := (m.keySeqNumber.getD uuid ∅).getD key 0

/-- `key_seq_number[uuid][key] = n` -/
def setSeqNumber (m : SubscriptionManager) (uuid key : Bytes) (n : UInt64) : SubscriptionManager :=
  { m with keySeqNumber := m.keySeqNumber.insert uuid ((m.keySeqNumber.getD uuid ∅).insert key n) }

/-- `subscribe`, with the body of the response it leaves. -/
def subscribe (uuid key : Bytes) (transactionId : UInt64) (session : Nat) (m : SubscriptionManager) :
    ResponseBody × SubscriptionManager :=
  match m.subscribers[uuid]? with
  | some keys =>
    match keys[key]? with
    | none => (.notSet, (m.add uuid key transactionId session).setSeqNumber uuid key 0)
    | some sessions =>
      if ((sessions[session]?).bind fun subs => subs[transactionId]?).isSome then (.error "DUPLICATE_SUB", m)
      else (.notSet, m.add uuid key transactionId session)
  | none => (.notSet, m.add uuid key transactionId session)

/-- `unsubscribe`: a session without subscriptions is kept until it is purged. -/
def unsubscribe (uuid key : Bytes) (transactionId : UInt64) (session : Nat) (m : SubscriptionManager) :
    ResponseBody × SubscriptionManager :=
  match m.subscribers[uuid]? with
  | none => (.error "INVALID_UUID", m)
  | some keys =>
    match keys[key]? with
    | none => (.error "INVALID_KEY", m)
    | some sessions =>
      match sessions[session]? with
      | none => (.error "INVALID_SUB", m)
      | some subs =>
        if subs.contains transactionId then
          (.notSet, { m with subscribers :=
            m.subscribers.insert uuid (keys.insert key (sessions.insert session (subs.erase transactionId))) })
        else (.error "INVALID_SUB", m)

variable (alive : Nat → Bool)

/-- `notify_sessions`: one number for all subscriptions of the key. -/
def notifySessions (uuid : Bytes) (update : Bool) (key value : Bytes) (m : SubscriptionManager) :
    SubscriptionManager :=
  match (m.subscribers[uuid]?).bind fun keys => keys[key]? with
  | none => m
  | some sessions =>
    if sessions.isEmpty then m
    else
      let seq := m.seqNumber uuid key + 1
      let m := m.setSeqNumber uuid key seq
      { m with sent := m.sent ++ sessions.toList.flatMap fun subs =>
          (subs.2.toList.filter fun sub => alive sub.2).map fun sub =>
            (sub.2, ⟨⟨uuid, sub.1, [], []⟩, .subscriptionUpdate key value seq update⟩) }

def inspectCommit (r : Request) (m : SubscriptionManager) : SubscriptionManager :=
  match r.msg with
  | .create kv => notifySessions alive r.dbUuid true kv.key kv.value m
  | .update kv => notifySessions alive r.dbUuid true kv.key kv.value m
  | .delete key => notifySessions alive r.dbUuid false key [] m
  | _ => m

/-- `purge_closed_sessions`, unless its timer was cancelled: what a session that
is closed leaves empty is removed as well. -/
def purgeClosedSessions (cancelled : Bool) (m : SubscriptionManager) : SubscriptionManager :=
  if cancelled then m
  else { m with subscribers := m.subscribers.filterMap fun _ keys =>
    Map.nonempty? (keys.filterMap fun _ sessions =>
      Map.nonempty? (sessions.filterMap fun _ subs => Map.nonempty? (subs.filter fun _ session => alive session))) }

end SubscriptionManager

end SwarmDb.Crud
