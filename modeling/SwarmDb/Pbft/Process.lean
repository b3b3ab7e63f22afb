import SwarmDb.Lib.Program
import SwarmDb.Proto.Messages
import SwarmDb.Storage.MemStorage

/-!
# The process around a replica

What the objects of one replica share: the storage, the record of which containers were initialized, and the effects of
the process on the world outside. A process may be killed between any two effects; its `lifetime` is the number of
effects it still has time for, and a kill ends a run like a throw.
-/

namespace SwarmDb

open Lib

/-! ## Keys -/

/-- `log_key_t`: view and sequence. -/
structure LogKey where
  view : UInt64
  sequence : UInt64
  deriving DecidableEq, Repr, Inhabited

/-- `operation_key_t`: view, sequence and request hash. -/
structure OperationKey where
  view : UInt64
  sequence : UInt64
  requestHash : Hash
  deriving DecidableEq, Repr, Inhabited

/-- `checkpoint_t`: sequence and state hash. -/
structure Checkpoint where
  sequence : UInt64
  hash : Hash
  deriving DecidableEq, Repr, Inhabited

instance : Ord LogKey := ⟨compareLex (compareOn LogKey.view) (compareOn LogKey.sequence)⟩

instance : Std.TransOrd LogKey :=
  inferInstanceAs (Std.TransCmp (compareLex (compareOn LogKey.view) (compareOn LogKey.sequence)))

instance : Std.LawfulEqOrd LogKey :=
  lawfulEqCmp_compareLex (compareOn LogKey.view) (compareOn LogKey.sequence) fun a b h₁ h₂ => by
    cases a; cases b
    simp only [LogKey.mk.injEq]
    exact ⟨Std.LawfulEqOrd.eq_of_compare h₁, Std.LawfulEqOrd.eq_of_compare h₂⟩

instance : Ord OperationKey :=
  ⟨compareLex (compareOn OperationKey.view)
    (compareLex (compareOn OperationKey.sequence) (compareOn OperationKey.requestHash))⟩

instance : Std.TransOrd OperationKey :=
  inferInstanceAs (Std.TransCmp (compareLex (compareOn OperationKey.view)
    (compareLex (compareOn OperationKey.sequence) (compareOn OperationKey.requestHash))))

instance : Std.LawfulEqOrd OperationKey :=
  lawfulEqCmp_compareLex (compareOn OperationKey.view)
    (compareLex (compareOn OperationKey.sequence) (compareOn OperationKey.requestHash)) fun a b h₁ h₂ => by
    obtain ⟨h₂, h₃⟩ := compareLex_eq_eq.mp h₂
    cases a; cases b
    simp only [OperationKey.mk.injEq]
    exact ⟨Std.LawfulEqOrd.eq_of_compare h₁, Std.LawfulEqOrd.eq_of_compare h₂, Std.LawfulEqOrd.eq_of_compare h₃⟩

instance : Ord Checkpoint := ⟨compareLex (compareOn Checkpoint.sequence) (compareOn Checkpoint.hash)⟩

instance : Std.TransOrd Checkpoint :=
  inferInstanceAs (Std.TransCmp (compareLex (compareOn Checkpoint.sequence) (compareOn Checkpoint.hash)))

instance : Std.LawfulEqOrd Checkpoint :=
  lawfulEqCmp_compareLex (compareOn Checkpoint.sequence) (compareOn Checkpoint.hash)
    fun a b h₁ h₂ => by
    cases a; cases b
    simp only [Checkpoint.mk.injEq]
    exact ⟨Std.LawfulEqOrd.eq_of_compare h₁, Std.LawfulEqOrd.eq_of_compare h₂⟩

/-- `pbft_operation_stage`. -/
inductive OperationStage where
  | prepare
  | commit
  | execute
  deriving DecidableEq, Repr, Inhabited

/-! ## Effects and faults -/

/-- How a run ends early. -/
inductive Fault where
  /-- A `std::runtime_error`. -/
  | runtimeError (what : String)
  /-- Another exception of the standard library. -/
  | exception (what : String)
  /-- A loop that never ends. -/
  | divergence
  /-- The process was killed. -/
  | killed
  deriving DecidableEq, Repr

/-- What a replica does to the world outside. `advanced` leaves no mark
outside: it is the trace of `advance_operation_stage`. -/
inductive Effect where
  /-- A message to every peer. -/
  | multicast (msg : BznEnvelope)
  /-- A message to one peer. -/
  | send (peer : Uuid) (msg : BznEnvelope)
  /-- A message to the session of a client. -/
  | reply (session : Nat) (msg : BznEnvelope)
  /-- An operation handed to the service. -/
  | applyOperation (key : OperationKey) (request : BznEnvelope)
  /-- A request that the service carries out at once. -/
  | applyOperationNow (msg : BznEnvelope) (session : Option Nat)
  | saveServiceStateAt (sequence : UInt64)
  | setServiceState (sequence : UInt64) (data : Bytes)
  /-- The timer of a delayed state request was started. -/
  | triggerCatchup (cp : Checkpoint)
  | advanced (key : OperationKey) (stage : OperationStage)

/-! ## The process -/

structure Process where
  storage : MemStorage
  /-- `persist_base::initialized_containers` -/
  initializedContainers : List Bytes
  log : List Effect
  lifetime : Option Nat
  deriving Inhabited

/-- A process that starts over a storage. -/
def Process.start (storage : MemStorage) : Process := ⟨storage, [], [], none⟩

/-- One effect, for which the process must still be alive. -/
def act (f : Process → Process) : Program Fault Process Unit := do
  let p ← Program.read
  match p.lifetime with
  | some 0 => Program.fail .killed
  | some (n + 1) => Program.update fun p => { f p with lifetime := some n }
  | none => Program.update f

/-- An effect on the world outside. -/
def emit (e : Effect) : Program Fault Process Unit := act fun p => { p with log := p.log ++ [e] }

/-- A throw with a text. -/
def raise {σ α : Type} (what : String) : Program Fault σ α := Program.fail (.runtimeError what)

variable {f : Process → Process} {p : Process}

theorem act_ok (h : (act f).result p = .ok ()) : ∃ l, (act f).final p = { f p with lifetime := l } := by
  simp only [act, Program.result_read_bind, Program.final_read_bind] at h ⊢
  split at h
  · cases h
  · rename_i n hn
    exact ⟨some n, by simp⟩
  · rename_i hn
    exact ⟨(f p).lifetime, by simp⟩

theorem act_error {e : Fault} (h : (act f).result p = .error e) : (act f).final p = p := by
  simp only [act, Program.result_read_bind, Program.final_read_bind] at h ⊢
  split at h
  · rfl
  · cases h
  · cases h

end SwarmDb
