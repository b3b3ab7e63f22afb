import SwarmDb.Pbft.OperationRefinement

/-!
# Deleting old operations

`delete_operations_until` takes the held operations up to and including a sequence away, but the records of the storage
only up to the sequence: it leaves what it should exactly when there were no records of the sequence itself
(`deleteOperationsUntil_collects_iff`). In `preprepared_after_delete` an operation is still pre-prepared.
-/

namespace SwarmDb

open Lib Program

namespace OperationManager

open PersistentOperation

/-- An operation as its constructor leaves it: in the first stage, without
messages and without a request. -/
structure Fresh (m : OperationManager) (key : OperationKey) : Prop where
  stage : getStage m.storage key = .ok OperationStage.prepare.number
  preprepare : isPreprepared m.storage key = false
  messages : ∀ type ∈ [2, 3, 4], messageKeys m.storage key type = []
  request : ∀ wire, (onOperation key (PersistentOperation.hasRequest wire key)).result m = .ok false

/-- What is left of `m` when the operations up to and including a sequence are
deleted: nothing of them, held or stored, and all of the others. -/
structure Collected (sequence : UInt64) (m m' : OperationManager) : Prop where
  held : ∀ key : OperationKey, key.sequence ≤ sequence → m'.heldOperations[key]? = none
  records : ∀ (key : OperationKey) (name : Bytes), key.sequence ≤ sequence →
    m'.storage.read operationsUuid (recordKey key name) = none
  fresh : ∀ key : OperationKey, key.sequence ≤ sequence → (OperationManager.findOrConstruct key).result m' = .ok () →
    Fresh ((OperationManager.findOrConstruct key).final m') key
  heldKept : ∀ key : OperationKey, sequence < key.sequence → m'.heldOperations[key]? = m.heldOperations[key]?
  recordsKept : ∀ (key : OperationKey) (name : Bytes), sequence < key.sequence →
    m'.storage.read operationsUuid (recordKey key name) =
      m.storage.read operationsUuid (recordKey key name)
  elsewhere : ∀ uuid name, uuid ≠ operationsUuid → m'.storage.read uuid name = m.storage.read uuid name

/-- No record of an operation is left. -/
def NoRecords (storage : MemStorage) (key : OperationKey) : Prop :=
  ∀ name, storage.read operationsUuid (recordKey key name) = none

variable {key : OperationKey} {m : OperationManager}

/-- An operation without records is constructed anew. -/
theorem fresh_findOrConstruct (hheld : m.heldOperations[key]? = none) (hrecords : NoRecords m.storage key)
    (hok : (findOrConstruct key).result m = .ok ()) : Fresh ((findOrConstruct key).final m) key := by
  have hstores : Stores m key (.new key) := by
    unfold Stores
    rw [hheld]
    exact ⟨rfl, hrecords⟩
  obtain ⟨m', request, hrun, hheld', hrepresents, -⟩ := hstores.findOrConstruct hok
  have hstores' : Stores m' key (.new key) := by
    unfold Stores
    rw [hheld']
    exact hrepresents
  have hfound : (findOrConstruct key).result m' = .ok () := by
    rw [result, runFrom_findOrConstruct, Std.ExtTreeMap.contains_eq_isSome_getElem?, hheld']
    rfl
  rw [final, hrun]
  refine ⟨hrepresents.getStage_eq, hrepresents.isPreprepared_eq, fun type htype => ?_, fun wire => ?_⟩
  · obtain ⟨senders, hmessages, hhears⟩ := hrepresents.messages type htype
    have hnone : senders = ∅ := by
      simp only [List.mem_cons, List.not_mem_nil, or_false] at htype
      rcases htype with rfl | rfl | rfl
      · exact Finset.not_nonempty_iff_eq_empty.mp (of_decide_eq_false hhears.symm)
      · exact hhears.symm
      · exact hhears.symm
    exact List.eq_nil_of_length_eq_zero ((hmessages.length htype).trans (Finset.card_eq_zero.mpr hnone))
  · obtain ⟨m'', hrun', -⟩ := hstores'.onOperation hfound (does_hasRequest wire)
    rw [result, hrun']
    rfl

/-- What `delete_operations_until` leaves. -/
theorem storage_deleteOperationsUntil (m : OperationManager) (sequence : UInt64) :
    ∃ m', m.deleteOperationsUntil sequence = .ok m' ∧
      (∀ key : OperationKey, m'.heldOperations[key]? =
        if key.sequence ≤ sequence then none else m.heldOperations[key]?) ∧
      (∀ (key : OperationKey) (name : Bytes), m'.storage.read operationsUuid (recordKey key name) =
        if key.sequence < sequence then none
        else m.storage.read operationsUuid (recordKey key name)) ∧
      ∀ uuid name, uuid ≠ operationsUuid → m'.storage.read uuid name = m.storage.read uuid name := by
  obtain ⟨storage, hstorage, hrecords, helsewhere⟩ := removeRange_reads m.storage (UInt64.zero_le (a := sequence))
  refine ⟨⟨storage, m.heldOperations.filter fun key _ => decide (¬ key.sequence ≤ sequence)⟩, ?_, fun key => ?_,
    fun key name => ?_, helsewhere⟩
  · rw [deleteOperationsUntil, hstorage]
    rfl
  · dsimp only
    rw [Map.lookup_filter]
    split
    · rename_i h
      cases m.heldOperations[key]? <;> simp [h]
    · rename_i h
      cases m.heldOperations[key]? <;> simp [h]
  · dsimp only
    rw [hrecords]
    simp only [UInt64.zero_le, true_and]

/-- `delete_operations_until` leaves what it should exactly when no record of the
sequence itself was stored. -/
theorem deleteOperationsUntil_collects_iff (m : OperationManager) (sequence : UInt64) :
    (∃ m', m.deleteOperationsUntil sequence = .ok m' ∧ Collected sequence m m') ↔
      ∀ key : OperationKey, key.sequence = sequence → NoRecords m.storage key := by
  obtain ⟨m', hm', hheld, hrecords, helsewhere⟩ := storage_deleteOperationsUntil m sequence
  constructor
  · rintro ⟨m'', hm'', hcollected⟩ key rfl name
    rw [hm'] at hm''
    cases hm''
    have := hcollected.records key name UInt64.le_rfl
    rwa [hrecords, if_neg (UInt64.lt_irrefl _)] at this
  · intro hnone
    have hgone : ∀ key : OperationKey, key.sequence ≤ sequence → NoRecords m'.storage key := by
      intro key hle name
      rw [hrecords]
      split
      · rfl
      · rename_i hlt
        exact hnone key (UInt64.le_antisymm hle (UInt64.not_lt.mp hlt)) name
    have hnot : ∀ key : OperationKey, key.sequence ≤ sequence → m'.heldOperations[key]? = none := fun key hle => by
      rw [hheld, if_pos hle]
    refine ⟨m', hm', hnot, fun key name hle => hgone key hle name, fun key hle => ?_, fun key hlt => ?_,
      fun key name hlt => ?_, helsewhere⟩
    · exact fresh_findOrConstruct (hnot key hle) (hgone key hle)
    · rw [hheld, if_neg (UInt64.not_le.mpr hlt)]
    · rw [hrecords, if_neg (UInt64.not_lt.mpr (UInt64.le_of_lt hlt))]

/-- A run in which a pre-prepare of sequence 5 is recorded, and the operations are
deleted until 5. -/
private def deletedRun : OperationManager :=
  OperationManager.run Wire.plain ⟨default, ∅⟩
    [.recordPbftMsg ⟨1, 5, ascii "hash"⟩ { (default : PbftMsg) with type := .preprepare } default,
      .deleteOperationsUntil 5]

/-- The operation found afterwards has the pre-prepare still. -/
theorem preprepared_after_delete :
    (OperationManager.findOrConstruct ⟨1, 5, ascii "hash"⟩).result deletedRun = .ok () ∧
      isPreprepared ((OperationManager.findOrConstruct ⟨1, 5, ascii "hash"⟩).final deletedRun).storage
        ⟨1, 5, ascii "hash"⟩ = true := by
  decide +kernel

end OperationManager

end SwarmDb
