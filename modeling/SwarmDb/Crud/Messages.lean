import SwarmDb.Storage.MemStorage

/-!
# Requests and responses of the database

`database_msg` and `database_response` of `database.proto`, as `crud` reads and
writes them.
-/

namespace SwarmDb.Crud

open Lib

/-! ## Requests -/

structure Header where
  dbUuid : Bytes
  nonce : UInt64
  pointOfContact : Bytes
  requestHash : Bytes
  deriving DecidableEq, Repr

instance : Inhabited Header := ⟨⟨[], 0, [], []⟩⟩

/-- `database_create` and `database_update`. -/
structure KeyValue where
  key : Bytes
  value : Bytes
  expire : UInt64
  deriving DecidableEq, Repr

instance : Inhabited KeyValue := ⟨⟨[], [], 0⟩⟩

/-- `eviction_policy_type`; any number may stand on the wire. -/
inductive EvictionPolicyType where
  | none
  | random
  | volatileTtl
  | unrecognized (n : UInt32)
  deriving DecidableEq, Repr

def EvictionPolicyType.number : EvictionPolicyType → UInt32
  | none => 0
  | random => 1
  | volatileTtl => 2
  | unrecognized n => n

structure CreateDb where
  maxSize : UInt64
  evictionPolicy : EvictionPolicyType
  deriving DecidableEq, Repr

/-- The `msg` of a `database_msg`. -/
inductive Msg where
  | notSet
  | create (m : KeyValue)
  | read (key : Bytes)
  | update (m : KeyValue)
  | delete (key : Bytes)
  | has (key : Bytes)
  | keys
  | size
  | subscribe (key : Bytes)
  | unsubscribe (key : Bytes) (nonce : UInt64)
  | nullmsg
  | createDb (m : CreateDb)
  | deleteDb
  | updateDb (m : CreateDb)
  | hasDb
  | writers
  | addWriters (writers : List Bytes)
  | removeWriters (writers : List Bytes)
  | quickRead (key : Bytes)
  | expire (key : Bytes) (expire : UInt64)
  | persist (key : Bytes)
  | ttl (key : Bytes)
  deriving DecidableEq, Repr, Inhabited

/-- `database_msg` -/
structure Request where
  header : Header
  msg : Msg
  deriving DecidableEq, Repr, Inhabited

namespace Request

def dbUuid (r : Request) : Bytes := r.header.dbUuid

/-! The accessors of a `msg` return a default message where it is another one. -/

def create (r : Request) : KeyValue :=
  match r.msg with
  | .create m => m
  | _ => default

def update (r : Request) : KeyValue :=
  match r.msg with
  | .update m => m
  | _ => default

def hasUpdate (r : Request) : Bool :=
  match r.msg with
  | .update _ => true
  | _ => false

end Request

/-! ## Responses -/

/-- The `response` of a `database_response`. -/
inductive ResponseBody where
  | notSet
  | read (key value : Bytes)
  | quickRead (key value : Bytes) (error : String)
  | has (key : Bytes) (has : Bool)
  | keys (keys : List Bytes)
  | size (bytes : UInt64) (keys : UInt32) (remainingBytes maxSize : UInt64)
  | error (message : String)
  | hasDb (uuid : Bytes) (has : Bool)
  | writers (owner : Bytes) (writers : List Bytes)
  | ttl (key : Bytes) (ttl : UInt64)
  /-- The last argument tells an update from a deletion. -/
  | subscriptionUpdate (key value : Bytes) (seq : UInt64) (update : Bool)
  deriving DecidableEq, Repr, Inhabited

/-- `database_response` -/
structure Response where
  header : Header
  body : ResponseBody
  deriving DecidableEq, Repr, Inhabited

/-- One call of `send_response`: the result it was given, the response, the
session it went to with whether it was signed, and the point of contact. -/
structure Answer where
  result : StorageResult
  response : Response
  session : Option (Nat × Bool)
  pointOfContact : Option Bytes
  deriving DecidableEq, Repr

end SwarmDb.Crud
