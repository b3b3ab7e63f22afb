import SwarmDb.Pbft.PersistentOperation
import SwarmDb.Storage.Backends

/-!
# The records of operations

The keys under which operations keep their records: they are in the order of the sequences (`below_iff`) and tell the
operation (`stageKey_injective`, `parsePrefix_generatePrefix`), so removing a range of sequences removes the records of
the operations in it (`removeRange_reads`). A record that a call of the operation manager leaves was there before, or is
one that the call writes (`adds_after`).
-/

namespace SwarmDb

open Lib Program

/-! ## Keys in the order of sequences -/

theorem padded_lt_iff {a b : UInt64} : padded a < padded b ↔ a < b := by
  rw [padded, padded, paddedDecimal_lt_iff (toNat_lt_padded a) (toNat_lt_padded b), UInt64.lt_iff_toNat_lt]

theorem padded_append_lt_iff {a b : UInt64} {s t : Bytes} : padded a ++ s < padded b ++ t ↔ a < b ∨ a = b ∧ s < t := by
  have hinj : padded a = padded b ↔ a = b := ⟨padded_injective, fun h => by rw [h]⟩
  rw [append_lt_append_of_length (by simp), padded_lt_iff, hinj]

namespace PersistentOperation

theorem recordKey_eq (key : OperationKey) (name : Bytes) : recordKey key name =
    padded key.sequence ++ underscore :: (key.requestHash ++
      underscore :: (padded key.view ++ underscore :: name)) := by
  simp [recordKey, generateKey, generatePrefix]

/-- The records of an operation are before the first key of a sequence exactly
when the operation is. -/
theorem below_iff (key : OperationKey) (name : Bytes) (sequence : UInt64) :
    recordKey key name < prefixForSequence sequence ↔ key.sequence < sequence := by
  rw [recordKey_eq, prefixForSequence, padded_append_lt_iff]
  simp

theorem not_stageKey_lt_iff (key : OperationKey) (sequence : UInt64) :
    ¬ stageKey key < prefixForSequence sequence ↔ sequence ≤ key.sequence := by
  rw [stageKey, below_iff, UInt64.not_lt]

variable {key : OperationKey} {name : Bytes}

theorem recordKey_inj {key' : OperationKey} {name' : Bytes} (hlength : name.length = name'.length)
    (h : recordKey key name = recordKey key' name') : key = key' ∧ name = name' := by
  rw [recordKey_eq, recordKey_eq] at h
  obtain ⟨hsequence, h⟩ := Conversion.padded_append_inj h
  obtain ⟨hhash, h⟩ := List.append_inj' h (by simp [hlength])
  obtain ⟨hview, hname⟩ := Conversion.padded_append_inj (List.cons.inj h).2
  cases key
  cases key'
  simp only [OperationKey.mk.injEq]
  exact ⟨⟨hview, hsequence, hhash⟩, hname⟩

theorem stageKey_injective : Function.Injective stageKey := fun _ _ h => (recordKey_inj rfl h).1

theorem requestKey_ne_stageKey (key key' : OperationKey) : requestKey key ≠ stageKey key' := by
  intro h
  have := congrArg List.getLast? h
  simp only [requestKey, stageKey, recordKey, generateKey, List.getLast?_append, List.getLast?_cons,
    Option.some_or] at this
  exact absurd this (by decide)

/-! ## Parsing -/

@[simp] theorem stoi_text (stage : OperationStage) : stoi stage.text = .ok stage.number := by
  have hnumber : leadingNumber stage.text = some stage.number := by
    cases stage <;> rfl
  rw [stoi, hnumber]
  cases stage <;> rfl

theorem stoul_padded (n : UInt64) : stoul (padded n) = .ok n := by
  have hnumber : leadingNumber (padded n) = some (n.toNat : Int) :=
    leadingNumber_digits (fun _ hc => paddedDecimal_range hc)
      (digitsValue_paddedDecimal (by decide) (toNat_lt_padded n))
  rw [stoul, hnumber]
  dsimp only
  rw [Int.natAbs_natCast, if_pos n.toNat_lt, if_neg (by omega), UInt64.ofNat_toNat]

theorem parsePrefix_generatePrefix (key : OperationKey) : parsePrefix (generatePrefix key) = .ok (some key) := by
  have hlast : splitAtLast? underscore (key.requestHash ++ underscore :: padded key.view) =
      some (key.requestHash, padded key.view) :=
    splitAtLast?_append (not_mem_padded (by decide) key.view) key.requestHash
  have hne : padded key.view ≠ [] := by
    intro h
    have := length_padded key.view
    rw [h] at this
    cases this
  rw [parsePrefix, generatePrefix, Conversion.splitAt_padded]
  simp only [hlast, if_neg hne, stoul_padded]
  rfl

/-! ## Removing a range -/

theorem messageKey_eq (key : OperationKey) (type : Nat) (sender : Uuid) :
    messageKey key type sender = recordKey key (decimal type ++ underscore :: sender) := by
  simp [messageKey, recordKey, generateKey, typedPrefix]

/-- What is read after a range of sequences is removed. -/
theorem removeRange_reads (storage : MemStorage) {first last : UInt64} (h : first ≤ last) :
    ∃ storage', removeRange storage first last = .ok storage' ∧
      (∀ (key : OperationKey) (name : Bytes), storage'.read operationsUuid (recordKey key name) =
        if first ≤ key.sequence ∧ key.sequence < last then none else storage.read operationsUuid (recordKey key name)) ∧
      ∀ uuid name, uuid ≠ operationsUuid → storage'.read uuid name = storage.read uuid name := by
  have hle : prefixForSequence first ≤ prefixForSequence last := by
    refine List.not_lt.mp fun hlt => ?_
    rcases padded_append_lt_iff.mp hlt with hlt | ⟨-, hlt⟩
    · exact UInt64.not_lt.mpr h hlt
    · exact List.lt_irrefl _ hlt
  obtain ⟨storage', hstorage⟩ := MemStorage.removeRange_ok storage operationsUuid hle
  refine ⟨storage', hstorage, fun key name => ?_, fun uuid name huuid => ?_⟩
  · rw [MemStorage.read_removeRange_of_ok hstorage]
    simp only [below_iff, true_and, UInt64.not_lt]
  · rw [MemStorage.read_removeRange_of_ok hstorage, if_neg fun h => huuid h.1.symm]

/-- The keys of the records that an operation may have. -/
def IsRecordOf (key : OperationKey) (name : Bytes) : Prop :=
  name = stageKey key ∨ name = requestKey key ∨ ∃ type sender, name = messageKey key type sender

theorem IsRecordOf.eq_recordKey (h : IsRecordOf key name) : ∃ rest, name = recordKey key rest := by
  rcases h with h | h | ⟨type, sender, h⟩
  · exact ⟨stageName, h⟩
  · exact ⟨requestName, h⟩
  · exact ⟨_, h.trans (messageKey_eq key type sender)⟩

/-- The beginning of the keys of an operation tells the operation, and removing a range of sequences takes exactly the
records of the operations in the range away. -/
theorem keys_select_by_sequence (storage : MemStorage) {first last : UInt64} (h : first ≤ last) :
    (∀ key : OperationKey, parsePrefix (generatePrefix key) = .ok (some key)) ∧
      ∃ storage', removeRange storage first last = .ok storage' ∧
        (∀ (key : OperationKey) (name : Bytes), IsRecordOf key name → storage'.read operationsUuid name =
          if first ≤ key.sequence ∧ key.sequence < last then none else storage.read operationsUuid name) ∧
        ∀ uuid name, uuid ≠ operationsUuid → storage'.read uuid name = storage.read uuid name := by
  obtain ⟨storage', hstorage, hrecords, helsewhere⟩ := removeRange_reads storage h
  refine ⟨parsePrefix_generatePrefix, storage', hstorage, fun key name hname => ?_, helsewhere⟩
  obtain ⟨rest, hrest⟩ := hname.eq_recordKey
  rw [hrest, hrecords key rest]

/-- The request of an operation at sequence 9 whose hash has underscores, and its stage, in a storage. -/
private def storedNine : MemStorage :=
  ((((default : MemStorage).create operationsUuid (requestKey ⟨1, 9, ascii "a_b_"⟩) (ascii "r")).2.create operationsUuid
    (stageKey ⟨1, 9, ascii "a_b_"⟩) (ascii "0")).2.create operationsUuid (stageKey ⟨1, 10, ascii "_"⟩) (ascii "0")).2

theorem keys_select_by_sequence_nine :
    ∃ storage', removeRange storedNine 9 10 = .ok storage' ∧
      storedNine.read operationsUuid (requestKey ⟨1, 9, ascii "a_b_"⟩) = some (ascii "r") ∧
      storage'.read operationsUuid (requestKey ⟨1, 9, ascii "a_b_"⟩) = none ∧
      storage'.read operationsUuid (stageKey ⟨1, 10, ascii "_"⟩) = some (ascii "0") := by
  obtain ⟨-, storage', hstorage, hrecords, -⟩ := keys_select_by_sequence storedNine
    (show (9 : UInt64) ≤ 10 by decide)
  refine ⟨storage', hstorage, by decide +kernel, ?_, ?_⟩
  · rw [hrecords ⟨1, 9, ascii "a_b_"⟩ _ (.inr (.inl rfl)), if_pos (by decide)]
  · rw [hrecords ⟨1, 10, ascii "_"⟩ _ (.inl rfl), if_neg (by decide)]
    decide +kernel

/-! ## The messages of one type -/

theorem typedPrefix_eq (key : OperationKey) {type : Nat} (h : type < 10) :
    typedPrefix key type = (generatePrefix key ++ [underscore]) ++ [digitByte type] := by
  rw [typedPrefix, decimal_eq, if_pos h]
  simp

theorem mem_messageKeys {storage : MemStorage} {type : Nat} (h : type < 10) :
    name ∈ messageKeys storage key type ↔
      (storage.read operationsUuid name).isSome ∧ typedPrefix key type <+: name := by
  have hbyte := digitByte_toNat h
  have hnext : (digitByte type + 1).toNat = (digitByte type).toNat + 1 := by
    rw [UInt8.toNat_add, hbyte, UInt8.toNat_one]
    omega
  have hne : digitByte type ≠ 127 := by
    intro he
    rw [he] at hbyte
    have : (127 : UInt8).toNat = 127 := rfl
    omega
  have hincrement : incrementPrefix (typedPrefix key type) =
      (generatePrefix key ++ [underscore]) ++ [digitByte type + 1] := by
    rw [typedPrefix_eq key h, incrementPrefix, List.getLast?_concat]
    dsimp only
    rw [if_neg hne, List.dropLast_concat]
  have hlt : typedPrefix key type < incrementPrefix (typedPrefix key type) := by
    rw [hincrement, typedPrefix_eq key h, append_lt_append_iff, List.cons_lt_cons_iff, UInt8.lt_iff_toNat_lt]
    exact .inl (by omega)
  rw [messageKeys, MemStorage.mem_getKeysIf (by simp [hincrement]) hlt, hincrement, typedPrefix_eq key h,
    prefix_iff_between hnext]

end PersistentOperation

/-! ## Finding operations -/

namespace OperationManager

open PersistentOperation

theorem runFrom_findOrConstruct (key : OperationKey) (m : OperationManager) :
    (findOrConstruct key).runFrom m =
      if m.heldOperations.contains key then (.ok (), m)
      else
        let response := m.storage.create operationsUuid (stageKey key) OperationStage.prepare.text
        if response.1 = .ok ∨ response.1 = .recordExists then
          (.ok (), ⟨response.2, m.heldOperations.insert key none⟩)
        else (.error (.runtimeError ("failed to write stage of new persistent operation " ++ response.1.msg)), m) := by
  rw [findOrConstruct, runFrom_bind, runFrom_read]
  dsimp only
  split
  · rfl
  · split
    · rfl
    · rfl

end OperationManager

/-! ## What a call writes -/

/-- A step that adds only such records to the storage of operations. -/
def Adds (W : Bytes → Bytes → Prop) (storage storage' : MemStorage) : Prop :=
  ∀ name value, storage'.read operationsUuid name = some value →
    storage.read operationsUuid name = some value ∨ W name value

namespace Adds

variable {W : Bytes → Bytes → Prop} {s s' s'' : MemStorage}

theorem refl (W : Bytes → Bytes → Prop) (s : MemStorage) : Adds W s s := fun _ _ => .inl

theorem trans (h : Adds W s s') (h' : Adds W s' s'') : Adds W s s'' := fun name value hread =>
  (h' name value hread).elim (h name value) .inr

theorem create {name value : Bytes} (hW : W name value) (s : MemStorage) :
    Adds W s (s.create operationsUuid name value).2 := by
  by_cases hok : (s.create operationsUuid name value).1 = .ok
  · intro name' value' hread
    rw [MemStorage.read_create hok] at hread
    split at hread
    · rename_i h
      cases hread
      rw [← h.2]
      exact .inr hW
    · exact .inl hread
  · rw [MemStorage.create_eq_of_ne_ok hok]
    exact refl W s

theorem update {name value : Bytes} (hW : W name value) (s : MemStorage) :
    Adds W s (s.update operationsUuid name value).2 := by
  by_cases hok : (s.update operationsUuid name value).1 = .ok
  · intro name' value' hread
    rw [MemStorage.read_update hok] at hread
    split at hread
    · rename_i h
      cases hread
      rw [← h.2]
      exact .inr hW
    · exact .inl hread
  · rw [MemStorage.update_eq_of_ne_ok hok]
    exact refl W s

end Adds

namespace PersistentOperation

variable {W : Bytes → Bytes → Prop} {key : OperationKey}

instance : Std.Refl fun op op' : PersistentOperation => Adds W op.storage op'.storage := ⟨fun op => .refl W op.storage⟩

instance : IsTrans PersistentOperation fun op op' => Adds W op.storage op'.storage := ⟨fun _ _ _ => .trans⟩

theorem adds_createRecord {name value : Bytes} (hW : W name value) (accepted : List StorageResult)
    (what : StorageResult → String) :
    Within (fun op op' => Adds W op.storage op'.storage) (createRecord name value accepted what) := by
  intro op
  rw [createRecord, final_read_bind]
  dsimp only
  split
  · exact .create hW op.storage
  · exact .refl W op.storage

theorem adds_loadTransientRequest (wire : Wire) (key : OperationKey) :
    Within (fun op op' => Adds W op.storage op'.storage) (loadTransientRequest wire key) := by
  refine .update fun op => ?_
  split
  · exact .refl W op.storage
  · exact .refl W op.storage

theorem adds_hasRequest (wire : Wire) (key : OperationKey) :
    Within (fun op op' => Adds W op.storage op'.storage) (hasRequest wire key) :=
  .bind (adds_loadTransientRequest wire key) fun _ => .bind .read fun _ => .pure _

variable {wire : Wire} {newStage : OperationStage}

theorem adds_recordPbftMsg {msg : PbftMsg} {encodedMsg : BznEnvelope}
    (hW : ∀ type, msg.type.recorded? = some type →
      W (messageKey key type encodedMsg.sender) (wire.envelope.serialize encodedMsg)) :
    Within (fun op op' => Adds W op.storage op'.storage) (recordPbftMsg wire key msg encodedMsg) := by
  rw [recordPbftMsg]
  split
  · rename_i type htype
    exact adds_createRecord (hW type htype) _ _
  · exact .pure ()

theorem adds_recordRequest {encodedRequest : BznEnvelope}
    (hW : W (requestKey key) (wire.envelope.serialize encodedRequest)) :
    Within (fun op op' => Adds W op.storage op'.storage) (recordRequest wire key encodedRequest) :=
  .bind .read fun _ => .ite (.pure ()) <|
    .bind (adds_createRecord hW _ _) fun _ => adds_loadTransientRequest wire key

theorem adds_moveTo {oldStage : OperationStage} {isReady : Program Fault PersistentOperation Bool} {illegal : String}
    (hW : W (stageKey key) newStage.text) (hReady : Within (fun op op' => Adds W op.storage op'.storage) isReady) :
    Within (fun op op' => Adds W op.storage op'.storage) (moveTo key newStage oldStage isReady illegal) := by
  refine .bind hReady fun ready => .ite (.fail _) fun op => ?_
  rw [final_read_bind]
  refine final_lift_bind_of (P := fun op' : PersistentOperation => Adds W op.storage op'.storage)
    (.refl W op.storage) fun stage _ => ?_
  split
  · exact .refl W op.storage
  · dsimp only
    split
    · exact .update hW op.storage
    · exact .refl W op.storage

theorem adds_advanceOperationStage {peers : Nat} (hW : W (stageKey key) newStage.text) :
    Within (fun op op' => Adds W op.storage op'.storage) (advanceOperationStage wire key newStage peers) := by
  cases newStage with
  | prepare => exact .fail _
  | commit => exact adds_moveTo hW (.bind .read fun _ => .ite (adds_hasRequest wire key) (.pure false))
  | execute => exact adds_moveTo hW (.bind .read fun _ => .ite (.lift _) (.pure false))

end PersistentOperation

namespace OperationManager

open PersistentOperation

/-- The records that a call may write. A call for an operation constructs it, so that
its stage is among them. -/
def Call.Writes (wire : Wire) : Call → Bytes → Bytes → Prop
  | .findOrConstruct key, name, value | .hasRequest key, name, value =>
    name = stageKey key ∧ value = OperationStage.prepare.text
  | .recordPbftMsg key msg encodedMsg, name, value =>
    name = stageKey key ∧ value = OperationStage.prepare.text ∨
      ∃ type, msg.type.recorded? = some type ∧ name = messageKey key type encodedMsg.sender ∧
        value = wire.envelope.serialize encodedMsg
  | .recordRequest key encodedRequest, name, value =>
    name = stageKey key ∧ value = OperationStage.prepare.text ∨
      name = requestKey key ∧ value = wire.envelope.serialize encodedRequest
  | .advanceOperationStage key newStage _, name, value =>
    name = stageKey key ∧ (value = OperationStage.prepare.text ∨ value = newStage.text)
  | .deleteOperationsUntil _, _, _ | .restart, _, _ => False

variable {W : Bytes → Bytes → Prop} {key : OperationKey}

theorem adds_findOrConstruct (hW : W (stageKey key) OperationStage.prepare.text) (m : OperationManager) :
    Adds W m.storage ((findOrConstruct key).final m).storage := by
  rw [final, runFrom_findOrConstruct]
  split
  · exact .refl W m.storage
  · dsimp only
    split
    · dsimp only
      exact .create hW m.storage
    · exact .refl W m.storage

theorem adds_onOperation {α : Type} {method : Program Fault PersistentOperation α}
    (hW : W (stageKey key) OperationStage.prepare.text)
    (h : Within (fun op op' => Adds W op.storage op'.storage) method) (m : OperationManager) :
    Adds W m.storage ((onOperation key method).final m).storage := by
  rw [onOperation]
  have hfound := adds_findOrConstruct hW m
  cases hr : (findOrConstruct key).result m with
  | ok =>
    rw [final_bind_ok hr, final_zoom]
    exact hfound.trans (h _)
  | error =>
    rw [final_bind_error hr]
    exact hfound

/-- A record that a call leaves was there before, or the call wrote it. -/
theorem adds_after (wire : Wire) (m : OperationManager) (call : Call) :
    Adds (call.Writes wire) m.storage (after wire m call).storage := by
  cases call with
  | findOrConstruct =>
    rw [after]
    exact adds_findOrConstruct ⟨rfl, rfl⟩ m
  | recordPbftMsg =>
    rw [after]
    exact adds_onOperation (.inl ⟨rfl, rfl⟩) (adds_recordPbftMsg fun type htype => .inr ⟨type, htype, rfl, rfl⟩) m
  | recordRequest =>
    rw [after]
    exact adds_onOperation (.inl ⟨rfl, rfl⟩) (adds_recordRequest (.inr ⟨rfl, rfl⟩)) m
  | hasRequest key =>
    rw [after]
    exact adds_onOperation ⟨rfl, rfl⟩ (adds_hasRequest wire key) m
  | advanceOperationStage =>
    rw [after]
    exact adds_onOperation ⟨rfl, .inl rfl⟩ (adds_advanceOperationStage ⟨rfl, .inr rfl⟩) m
  | deleteOperationsUntil sequence =>
    intro name value hread
    rw [after] at hread
    cases hdelete : m.deleteOperationsUntil sequence with
    | error =>
      rw [hdelete] at hread
      exact .inl hread
    | ok =>
      rw [hdelete] at hread
      obtain ⟨storage, hstorage, hm'⟩ := except_bind_eq_ok.mp hdelete
      cases hm'
      have hread : storage.read operationsUuid name = some value := hread
      rw [MemStorage.read_removeRange_of_ok hstorage] at hread
      split at hread
      · cases hread
      · exact .inl hread
  | restart => exact .refl _ m.storage

end OperationManager

end SwarmDb
