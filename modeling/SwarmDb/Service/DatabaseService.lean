import SwarmDb.Lib.Words
import SwarmDb.Pbft.PersistentText
import SwarmDb.Storage.MemStorage

/-!
# The database service

`database_pbft_service`: the operations that `pbft` has committed, kept in the unstable storage until all earlier ones
were executed, and then handed to `crud` (`CrudBase`) one after the other. The member `trace` has no counterpart in the
source: it records what the service did.
-/

namespace SwarmDb

open Lib Program

/-- What the service asks of `crud`, over requests `ρ` and stores `σ`. -/
structure CrudBase (ρ σ : Type) [Inhabited ρ] where
  codec : Codec ρ
  /-- `mutable_header()->set_request_hash` -/
  setRequestHash : Hash → ρ → ρ
  handleRequest : Uuid → ρ → Option Nat → Program Fault σ Unit
  /-- The snapshot that `save_state` takes; none where it fails. -/
  saveState : σ → Option Bytes
  /-- Whether `load_state` succeeds, and the store it leaves. -/
  loadState : Bytes → σ → Bool × σ

/-- What the service reads of a `pbft_operation`. -/
structure ServiceOperation (ρ : Type) where
  sequence : UInt64
  requestHash : Hash
  databaseMsg : ρ
  sender : Uuid
  /-- The session, where there is one and it is open. -/
  session : Option Nat

/-- What is recorded of a service. -/
inductive ServiceEvent (ρ : Type) where
  /-- `apply_operation` was called. -/
  | applied (op : ServiceOperation ρ)
  /-- `crud->handle_request` was called for a sequence. -/
  | executed (sequence : UInt64) (caller : Uuid) (request : ρ)
  /-- `next_request_sequence` moved past a sequence with a stored text. -/
  | passed (sequence : UInt64) (text : Bytes)
  /-- `set_service_state` loaded a state. -/
  | loaded (sequence : UInt64)
  /-- A snapshot was taken, and `last_checkpoint` set to a sequence. -/
  | saved (sequence : UInt64)
  /-- `local_checkpoint_reached` was called for a sequence. -/
  | announced (sequence : UInt64)

/-- `database_pbft_service`, with the store and the snapshot of its `crud`. -/
structure DatabaseService (ρ σ : Type) where
  unstableStorage : MemStorage
  store : σ
  snapshot : Option Bytes
  nextRequestSequence : UInt64
  operationsAwaitingResult : Map UInt64 (ServiceOperation ρ)
  nextCheckpoint : UInt64
  lastCheckpoint : UInt64
  /-- The operations whose execute handlers were posted and did not run yet. -/
  posted : List (ServiceOperation ρ)
  trace : List (ServiceEvent ρ)

def nextRequestSequenceKey : Bytes := ascii "next_request_sequence"

/-- `std::to_string` of a sequence number. -/
def sequenceKey (sequence : UInt64) : Bytes := decimal sequence.toNat

namespace DatabaseService

variable {ρ σ : Type} [Inhabited ρ]

/-- The text stored for a sequence. -/
def stored (uuid : Uuid) (s : DatabaseService ρ σ) (sequence : UInt64) : Option Bytes :=
  s.unstableStorage.read uuid (sequenceKey sequence)

variable (crud : CrudBase ρ σ) (uuid : Uuid)

/-- An event is recorded. -/
def record (e : ServiceEvent ρ) : Program Fault (DatabaseService ρ σ) Unit :=
  update fun s => { s with trace := s.trace ++ [e] }

/-- `save_next_request_sequence`: a failure is logged only. -/
def saveNextRequestSequence : Program Fault (DatabaseService ρ σ) Unit :=
  update fun s => { s with
    unstableStorage :=
      (s.unstableStorage.update uuid nextRequestSequenceKey (sequenceKey s.nextRequestSequence)).2 }

/-- A program of `crud`, as one of the service. -/
def onStore {α : Type} (m : Program Fault σ α) : Program Fault (DatabaseService ρ σ) α :=
  zoom DatabaseService.store (fun store s => { s with store := store }) m

/-- `save_state`, and `last_checkpoint` where it succeeds. -/
def takeSnapshot (s : DatabaseService ρ σ) : DatabaseService ρ σ :=
  match crud.saveState s.store with
  | some snapshot => { s with
      snapshot := some snapshot
      lastCheckpoint := s.nextRequestSequence
      trace := s.trace ++ [.saved s.nextRequestSequence] }
  | none => s

/-- The part of the loop for a request whose operation is in memory. -/
def executeOperation (op : ServiceOperation ρ) (request : ρ) : Program Fault (DatabaseService ρ σ) Unit := do
  let s ← read
  record (.executed s.nextRequestSequence op.sender (crud.setRequestHash op.requestHash request))
  onStore (crud.handleRequest op.sender (crud.setRequestHash op.requestHash request) op.session)
  update fun s => if s.nextRequestSequence = s.nextCheckpoint then takeSnapshot crud s else s
  update fun s => { s with posted := s.posted ++ [op] }

/-- The part of the loop that moves on, past a stored text. -/
def removeRequest (text : Bytes) : Program Fault (DatabaseService ρ σ) Unit := do
  let s ← read
  let r := s.unstableStorage.remove uuid (sequenceKey s.nextRequestSequence)
  if r.1 = .ok then do
    record (.passed s.nextRequestSequence text)
    update fun s => { s with unstableStorage := r.2, nextRequestSequence := s.nextRequestSequence + 1 }
    saveNextRequestSequence uuid
  else raise s!"Failed to remove pbft_request from database! ({r.1.code})"

/-- One round of `process_awaiting_operations`, for a stored text. -/
def processRequest (text : Bytes) : Program Fault (DatabaseService ρ σ) Unit := do
  let s ← read
  match crud.codec.parse text with
  | none => raise "Failed to create pbft_request from database read!"
  | some request => do
    match s.operationsAwaitingResult[s.nextRequestSequence]? with
    | some op => executeOperation crud op request
    | none => pure ()
    removeRequest uuid text

/-- `process_awaiting_operations`. Each round removes a key, so that there are
no more rounds than keys. -/
def processRounds : Nat → Program Fault (DatabaseService ρ σ) Unit
  | 0 => do
    let s ← read
    match s.stored uuid s.nextRequestSequence with
    | some _ => fail .divergence
    | none => pure ()
  | n + 1 => do
    let s ← read
    match s.stored uuid s.nextRequestSequence with
    | some text => do
      processRequest crud uuid text
      processRounds n
    | none => pure ()

def processAwaitingOperations : Program Fault (DatabaseService ρ σ) Unit := do
  let s ← read
  processRounds crud uuid (s.unstableStorage.inner uuid).2.toList.length

def applyOperation (op : ServiceOperation ρ) : Program Fault (DatabaseService ρ σ) Unit := do
  record (.applied op)
  let s ← read
  let r := s.unstableStorage.create uuid (sequenceKey op.sequence) (crud.codec.serialize op.databaseMsg)
  match r.1 with
  | .ok => do
    update fun s => { s with
      unstableStorage := r.2
      operationsAwaitingResult := s.operationsAwaitingResult.insert op.sequence op }
    processAwaitingOperations crud uuid
  | .recordExists => pure ()
  | result => raise s!"Failed to store pbft request! ({result.code})"

def getServiceState (s : DatabaseService ρ σ) (sequenceNumber : UInt64) : Option Bytes :=
  if sequenceNumber = s.lastCheckpoint then s.snapshot else none

/-- The part of `set_service_state` after the state was loaded. -/
def discardUntil (sequenceNumber : UInt64) : Program Fault (DatabaseService ρ σ) Unit := do
  update fun s => { s with lastCheckpoint := sequenceNumber }
  let s ← read
  match sequencesBetween s.nextRequestSequence sequenceNumber with
  | none => fail .divergence
  | some sequences =>
    update fun s => { s with
      unstableStorage := sequences.foldl (fun st seq => (st.remove uuid (sequenceKey seq)).2) s.unstableStorage
      nextRequestSequence := sequenceNumber + 1
      trace := s.trace ++ [.loaded sequenceNumber] }

def setServiceState (sequenceNumber : UInt64) (data : Bytes) : Program Fault (DatabaseService ρ σ) Bool := do
  let s ← read
  if s.nextRequestSequence > sequenceNumber then pure true
  else do
    let r := crud.loadState data s.store
    update fun s => { s with store := r.2 }
    if !r.1 then pure false
    else do
      -- the snapshot is the data that was loaded
      update fun s => { s with snapshot := some data }
      discardUntil uuid sequenceNumber
      processAwaitingOperations crud uuid
      pure true

def saveServiceStateAt (sequenceNumber : UInt64) : Program Fault (DatabaseService ρ σ) Unit :=
  update fun s => { s with nextCheckpoint := sequenceNumber }

/-- `load_next_request_sequence` -/
def loadNextRequestSequence : Program Fault (DatabaseService ρ σ) Unit := do
  let s ← read
  match s.unstableStorage.read uuid nextRequestSequenceKey with
  | some text =>
    match lexicalCast text with
    | some n => update fun s => { s with nextRequestSequence := n }
    | none => fail (.exception "bad_lexical_cast")
  | none =>
    let r := s.unstableStorage.create uuid nextRequestSequenceKey (sequenceKey s.nextRequestSequence)
    if r.1 = .ok then update fun s => { s with unstableStorage := r.2 }
    else raise "Failed to create: next_request_sequence"

/-- The members of a service before its constructor runs. -/
def blank (unstableStorage : MemStorage) (store : σ) (trace : List (ServiceEvent ρ)) : DatabaseService ρ σ :=
  ⟨unstableStorage, store, none, 1, ∅, 0, 0, [], trace⟩

/-- The execute handler that `pbft` registers, as far as the service goes. -/
def executeHandler (op : ServiceOperation ρ) : Program Fault (DatabaseService ρ σ) Unit :=
  if op.sequence % 100 = 0 then do
    saveServiceStateAt (op.sequence + 100)
    record (.announced op.sequence)
  else pure ()

/-- The handler that was posted at some position runs. -/
def runPosted (i : Nat) : Program Fault (DatabaseService ρ σ) Unit := do
  let s ← read
  match s.posted[i]? with
  | none => pure ()
  | some op => do
    update fun s => { s with posted := s.posted.eraseIdx i }
    executeHandler op

end DatabaseService

end SwarmDb
