import SwarmDb.Pbft.OperationRecords
import SwarmDb.Proto.Plain

/-!
# Operations in a storage and operations in memory

The operations of a manager with a storage report what memory operations report that get the same calls
(`persistent_refines_memory`), as long as the keys of no operation begin like those of another (`RecordsApart`). A
message is found by how its key begins, and the hash of a request can go on like the key of a message of another
operation (`prepares_taken_from_others`). Hashes of one length cannot (`apart_of_length`).
-/

namespace SwarmDb

open Lib Program

namespace PersistentOperation

/-! ## The records of one operation -/

/-- The numbers of the types that are recorded. -/
def recordedTypes : List Nat := [2, 3, 4]

/-- The records of an operation, by what its keys end with. -/
def records (storage : MemStorage) (key : OperationKey) (rest : Bytes) : Option Bytes :=
  storage.read operationsUuid (recordKey key rest)

/-- No key of the second operation begins like those of the first. -/
def RecordsApart (key key' : OperationKey) : Prop := ¬ recordKey key [] <+: recordKey key' []

/-- What is stored for others than an operation is the same. -/
def Untouched (key : OperationKey) (storage storage' : MemStorage) : Prop :=
  ∀ name, ¬ recordKey key [] <+: name → storage'.read operationsUuid name = storage.read operationsUuid name

/-- A record of an operation is written. -/
structure Writes (key : OperationKey) (rest value : Bytes) (storage storage' : MemStorage) : Prop where
  records : records storage' key = Function.update (records storage key) rest (some value)
  untouched : Untouched key storage storage'

section

variable {key key' : OperationKey} {type : Nat} {storage storage' : MemStorage} {rest value : Bytes}

theorem lt_of_mem_recordedTypes (h : type ∈ recordedTypes) : type < 10 := by
  simp only [recordedTypes, List.mem_cons, List.not_mem_nil, or_false] at h
  omega

theorem recordKey_append (key : OperationKey) (rest rest' : Bytes) :
    recordKey key (rest ++ rest') = recordKey key rest ++ rest' := by
  simp [recordKey, generateKey]

theorem typedPrefix_eq_recordKey (key : OperationKey) (h : type ∈ recordedTypes) :
    typedPrefix key type = recordKey key [digitByte type] := by
  rw [typedPrefix_eq key (lt_of_mem_recordedTypes h), recordKey, generateKey, List.append_assoc]
  rfl

theorem messageKey_eq_recordKey (key : OperationKey) (h : type ∈ recordedTypes) (sender : Uuid) :
    messageKey key type sender = recordKey key (digitByte type :: underscore :: sender) := by
  rw [messageKey_eq, decimal_eq, if_pos (lt_of_mem_recordedTypes h)]
  rfl

theorem RecordsApart.not_prefix (h : RecordsApart key key') (h' : RecordsApart key' key) (rest : Bytes) :
    ¬ recordKey key [] <+: recordKey key' rest := by
  intro hbegins
  have hown : recordKey key' [] <+: recordKey key' rest := ⟨rest, (recordKey_append key' [] rest).symm⟩
  exact (List.prefix_or_prefix_of_prefix hbegins hown).elim h h'

/-- Hashes of one length do not go on like one another's keys. -/
theorem apart_of_length (h : key.requestHash.length = key'.requestHash.length) (hne : key ≠ key') :
    RecordsApart key key' := by
  intro hbegins
  refine hne (recordKey_inj rfl (hbegins.eq_of_length ?_)).1
  simp [recordKey_eq, h]

theorem writes_of_read (h : ∀ name, storage'.read operationsUuid name =
    if recordKey key rest = name then some value else storage.read operationsUuid name) :
    Writes key rest value storage storage' where
  records := by
    funext rest'
    have hiff : recordKey key rest = recordKey key rest' ↔ rest' = rest := by
      simp [recordKey, generateKey, eq_comm]
    rw [PersistentOperation.records, h, if_congr hiff rfl rfl, Function.update_apply]
    rfl
  untouched := by
    intro name hname
    rw [h, if_neg]
    rintro rfl
    exact hname ⟨rest, (recordKey_append key [] rest).symm⟩

variable (storage) in
/-- A record that fits is there after it is created. -/
theorem create_fits (hkey : (recordKey key rest).length ≤ maxKeySize) (hvalue : value.length ≤ maxValueSize) :
    ((storage.create operationsUuid (recordKey key rest) value).1 = .ok ∨
      (storage.create operationsUuid (recordKey key rest) value).1 = .recordExists) ∧
    Writes key rest ((records storage key rest).getD value) storage
      (storage.create operationsUuid (recordKey key rest) value).2 := by
  cases hread : records storage key rest with
  | none =>
    have hok := (MemStorage.create_result_iff storage _ _ value).mpr ⟨hvalue, hkey, hread⟩
    refine ⟨.inl hok, writes_of_read fun name => ?_⟩
    rw [MemStorage.read_create hok]
    simp
  | some old =>
    have hread : storage.read operationsUuid (recordKey key rest) = some old := hread
    have hexists : storage.create operationsUuid (recordKey key rest) value = (.recordExists, storage) := by
      rw [MemStorage.create, if_neg (by omega), if_neg (by omega), hread]
      rfl
    rw [hexists]
    refine ⟨.inr rfl, writes_of_read fun name => ?_⟩
    split
    · rename_i hname
      rw [← hname, hread, Option.getD_some]
    · rfl

end

/-! ## The messages of one type -/

/-- The messages of one type that are stored are those of the senders. -/
def MessagesOf (records : Bytes → Option Bytes) (type : Nat) (senders : Finset Uuid) : Prop :=
  ∀ rest, (records (digitByte type :: rest)).isSome ↔ ∃ sender ∈ senders, rest = underscore :: sender

namespace MessagesOf

variable {records : Bytes → Option Bytes} {type : Nat} {senders : Finset Uuid}

theorem other (h : MessagesOf records type senders) {name : Bytes} (hname : name.head? ≠ some (digitByte type))
    (value : Bytes) : MessagesOf (Function.update records name (some value)) type senders := by
  intro rest
  rw [Function.update_of_ne, h]
  rintro rfl
  exact hname rfl

theorem insert (h : MessagesOf records type senders) (sender : Uuid) (value : Bytes) :
    MessagesOf (Function.update records (digitByte type :: underscore :: sender) (some value)) type
      (insert sender senders) := by
  intro rest
  by_cases heq : rest = underscore :: sender
  · simp [heq]
  · rw [Function.update_of_ne (by simpa using heq), h]
    simp [heq]

/-- The messages of one type are counted. -/
theorem length {storage : MemStorage} {key : OperationKey}
    (h : MessagesOf (PersistentOperation.records storage key) type senders) (htype : type ∈ recordedTypes) :
    (messageKeys storage key type).length = senders.card := by
  have hnodup : (messageKeys storage key type).Nodup := by
    rw [messageKeys, MemStorage.getKeysIf, MemStorage.doIf]
    split
    · exact List.nodup_nil
    · exact (Map.keys_nodup _).sublist (List.filter_sublist.map _)
  have hinjective : Function.Injective (messageKey key type) := fun sender sender' h => by
    simpa [messageKey, generateKey] using h
  rw [← List.toFinset_card_of_nodup hnodup, ← Finset.card_image_of_injective senders hinjective]
  congr 1
  ext name
  rw [List.mem_toFinset, mem_messageKeys (lt_of_mem_recordedTypes htype), Finset.mem_image,
    typedPrefix_eq_recordKey key htype]
  constructor
  · rintro ⟨hsome, rest, rfl⟩
    rw [← recordKey_append] at hsome
    obtain ⟨sender, hsender, rfl⟩ := (h rest).mp hsome
    refine ⟨sender, hsender, ?_⟩
    rw [messageKey_eq_recordKey key htype, ← recordKey_append]
    rfl
  · rintro ⟨sender, hsender, rfl⟩
    rw [messageKey_eq_recordKey key htype]
    exact ⟨(h _).mpr ⟨sender, hsender, rfl⟩, underscore :: sender, (recordKey_append key [_] _).symm⟩

end MessagesOf

/-! ## What the methods do -/

/-- What a memory operation has of the senders of the messages of one type. -/
def Hears (op : MemoryOperation) : Nat → Finset Uuid → Prop
  | 2, senders => op.isPreprepared = decide senders.Nonempty
  | 3, senders => op.preparesSeen = senders
  | _, senders => op.commitsSeen = senders

/-- The records of an operation and its transient request say what the operation in memory holds. -/
structure Represents (records : Bytes → Option Bytes) (transientRequest? : Option BznEnvelope) (op : MemoryOperation) :
    Prop where
  stage : records stageName = some op.stage.text
  request : (records requestName).isSome = op.hasRequest
  transient : transientRequest?.isSome = true → op.hasRequest = true
  messages : ∀ type ∈ recordedTypes, ∃ senders, MessagesOf records type senders ∧ Hears op type senders

/-- A method of an operation in a storage returns `r` and makes of it what becomes of the operation in memory. -/
def Does {α : Type} (key : OperationKey) (method : Program Fault PersistentOperation α) (op op' : MemoryOperation)
    (r : Except Fault α) : Prop :=
  ∀ p : PersistentOperation, Represents (records p.storage key) p.transientRequest? op →
    ∃ p', method.runFrom p = (r, p') ∧ Represents (records p'.storage key) p'.transientRequest? op' ∧
      Untouched key p.storage p'.storage

section

variable {key : OperationKey} {storage : MemStorage} {transientRequest? : Option BznEnvelope}
  {op op' : MemoryOperation} {wire : Wire} {peers : Nat}

section

variable (h : Represents (records storage key) transientRequest? op)
include h

theorem Represents.getStage_eq : getStage storage key = .ok op.stage.number := by
  have hstage : storage.read operationsUuid (stageKey key) = some op.stage.text := h.stage
  rw [getStage, hstage]
  exact stoi_text op.stage

theorem Represents.isPreprepared_eq : isPreprepared storage key = op.isPreprepared := by
  obtain ⟨senders, hmessages, hop⟩ := h.messages 2 (by decide)
  rw [isPreprepared, hmessages.length (by decide), hop]
  exact decide_eq_decide.mpr Finset.card_pos

theorem Represents.length_prepares : (messageKeys storage key 3).length = op.preparesSeen.card := by
  obtain ⟨senders, hmessages, hop⟩ := h.messages 3 (by decide)
  rw [hmessages.length (by decide), hop]

theorem Represents.length_commits : (messageKeys storage key 4).length = op.commitsSeen.card := by
  obtain ⟨senders, hmessages, hop⟩ := h.messages 4 (by decide)
  rw [hmessages.length (by decide), hop]

end

variable (wire) in
theorem does_hasRequest : Does key (hasRequest wire key) op op (.ok op.hasRequest) := by
  intro p h
  obtain ⟨storage, transient⟩ := p
  cases transient with
  | some request =>
    refine ⟨_, ?_, h, fun _ _ => rfl⟩
    rw [h.transient rfl]
    rfl
  | none =>
    have hrequest : (storage.read operationsUuid (requestKey key)).isSome = op.hasRequest := h.request
    rw [← hrequest, hasRequest, loadTransientRequest, runFrom_bind, runFrom_update]
    dsimp only
    cases hread : storage.read operationsUuid (requestKey key) with
    | none => exact ⟨⟨storage, none⟩, rfl, h, fun _ _ => rfl⟩
    | some =>
      rw [hread] at hrequest
      exact ⟨_, rfl, ⟨h.stage, h.request, fun _ => hrequest.symm, h.messages⟩, fun _ _ => rfl⟩

theorem does_isReadyForCommit :
    Does key (isReadyForCommit wire key peers) op op (.ok (op.isReadyForCommit peers)) := by
  intro p h
  rw [isReadyForCommit, runFrom_bind, runFrom_read]
  dsimp only
  rw [h.length_prepares, h.isPreprepared_eq]
  split
  · rename_i hready
    obtain ⟨p', hrun, hholds⟩ := does_hasRequest wire p h
    refine ⟨p', ?_, hholds⟩
    rw [hrun, MemoryOperation.isReadyForCommit, hready.2, decide_eq_true hready.1, Bool.and_true, Bool.and_true]
  · rename_i hready
    refine ⟨p, ?_, h, fun _ _ => rfl⟩
    have hnot : op.isReadyForCommit peers = false := by
      rw [MemoryOperation.isReadyForCommit]
      grind
    rw [hnot]
    rfl

theorem does_isReadyForExecute :
    Does key (isReadyForExecute key peers) op op (.ok (op.isReadyForExecute peers)) := by
  intro p h
  refine ⟨p, ?_, h, fun _ _ => rfl⟩
  have hprepared : isPrepared p.storage key = .ok op.isPrepared := by
    rw [isPrepared, h.getStage_eq, MemoryOperation.isPrepared]
    cases op.stage <;> rfl
  rw [isReadyForExecute, runFrom_bind, runFrom_read]
  dsimp only
  rw [h.length_commits, MemoryOperation.isReadyForExecute]
  split
  · rename_i hready
    rw [runFrom_lift, hprepared, decide_eq_true hready, Bool.and_true]
  · rename_i hready
    rw [decide_eq_false hready, Bool.and_false]
    rfl

theorem runFrom_createRecord {rest value : Bytes} (hkey : (recordKey key rest).length ≤ maxKeySize)
    (hvalue : value.length ≤ maxValueSize) (p : PersistentOperation) :
    ∃ storage value', Writes key rest value' p.storage storage ∧
      ∀ (others : List StorageResult) (what : StorageResult → String),
        (createRecord (recordKey key rest) value (.ok :: .recordExists :: others) what).runFrom p =
          (.ok (), ⟨storage, p.transientRequest?⟩) := by
  obtain ⟨hresult, hwrites⟩ := create_fits p.storage hkey hvalue
  refine ⟨_, _, hwrites, fun others what => ?_⟩
  rw [createRecord, runFrom_bind, runFrom_read]
  dsimp only
  rw [if_pos]
  · rfl
  · rcases hresult with h | h
    · simp [h]
    · simp [h]

/-- The names of the stage and the request do not begin with the number of a type. -/
theorem head_ne_digit {type : Nat} (htype : type ∈ recordedTypes) :
    stageName.head? ≠ some (digitByte type) ∧ requestName.head? ≠ some (digitByte type) := by
  revert type
  decide +kernel

/-- A message that is recorded adds its sender to those heard of its type. -/
theorem hears_recordPbftMsg (op : MemoryOperation) {msg : PbftMsg} (env : BznEnvelope) {type : Nat}
    (htype : msg.type.recorded? = some type) : type ∈ recordedTypes ∧
    ∃ op', op.recordPbftMsg msg env = .ok op' ∧ op'.stage = op.stage ∧ op'.request? = op.request? ∧
      ∀ other ∈ recordedTypes, ∀ senders, Hears op other senders →
        Hears op' other (if type = other then insert env.sender senders else senders) := by
  rw [MemoryOperation.recordPbftMsg]
  cases hmsg : msg.type <;> rw [hmsg] at htype <;> cases htype
  all_goals
    refine ⟨by decide, _, rfl, rfl, rfl, fun other hother senders h => ?_⟩
    simp only [recordedTypes, List.mem_cons, List.not_mem_nil, or_false] at hother
    rcases hother with rfl | rfl | rfl
    all_goals simp_all [Hears, MemoryOperation.isPreprepared]

theorem does_recordPbftMsg {msg : PbftMsg} {env : BznEnvelope}
    (hfits : ∀ type ∈ recordedTypes, (messageKey key type env.sender).length ≤ maxKeySize)
    (hvalue : (wire.envelope.serialize env).length ≤ maxValueSize) :
    Does key (recordPbftMsg wire key msg env) op ((op.recordPbftMsg msg env).toOption.getD op) (.ok ()) := by
  intro p h
  rw [recordPbftMsg]
  cases hrecorded : msg.type.recorded? with
  | none =>
    refine ⟨p, rfl, ?_, fun _ _ => rfl⟩
    rw [MemoryOperation.recordPbftMsg]
    cases hmsg : msg.type with
    | preprepare | prepare | commit =>
      rw [hmsg] at hrecorded
      cases hrecorded
    | _ => exact h
  | some type =>
    obtain ⟨htype, op', hop', hstage, hrequest, hhears⟩ := hears_recordPbftMsg op env hrecorded
    have hkey := hfits type htype
    rw [messageKey_eq_recordKey key htype] at hkey
    obtain ⟨storage, value, hwrites, hrun⟩ := runFrom_createRecord hkey hvalue p
    have hnext : (op.recordPbftMsg msg env).toOption.getD op = op' := by
      rw [hop']
      rfl
    have hnames := head_ne_digit htype
    dsimp only
    rw [messageKey_eq_recordKey key htype, hnext]
    refine ⟨_, hrun _ _, ?_, hwrites.untouched⟩
    dsimp only
    rw [hwrites.records]
    refine ⟨?_, ?_, ?_, fun other hother => ?_⟩
    · rw [Function.update_of_ne fun heq => hnames.1 (congrArg List.head? heq), h.stage, hstage]
    · rw [Function.update_of_ne fun heq => hnames.2 (congrArg List.head? heq), h.request, MemoryOperation.hasRequest,
        MemoryOperation.hasRequest, hrequest]
    · rw [MemoryOperation.hasRequest, hrequest]
      exact h.transient
    · obtain ⟨senders, hsenders, hop⟩ := h.messages other hother
      refine ⟨_, ?_, hhears other hother senders hop⟩
      split
      · rename_i heq
        rw [heq]
        exact hsenders.insert env.sender value
      · rename_i hne
        refine hsenders.other (fun heq => hne ?_) value
        have hdigits : ∀ a ∈ recordedTypes, ∀ b ∈ recordedTypes, digitByte a = digitByte b → a = b := by decide +kernel
        exact hdigits type htype other hother (Option.some.inj heq)

theorem does_recordRequest {request : BznEnvelope} (hrequest : MemoryOperation.isRequest wire request = true)
    (hkey : (requestKey key).length ≤ maxKeySize) (hvalue : (wire.envelope.serialize request).length ≤ maxValueSize) :
    Does key (recordRequest wire key request) op (op.recordRequest wire request) (.ok ()) := by
  intro p h
  rw [recordRequest, runFrom_bind, runFrom_read, MemoryOperation.recordRequest, if_pos hrequest]
  dsimp only
  split
  · rename_i hsome
    refine ⟨p, rfl, ⟨h.stage, ?_, fun _ => rfl, h.messages⟩, fun _ _ => rfl⟩
    rw [h.request, h.transient hsome]
    rfl
  · rename_i hnone
    obtain ⟨storage, value, hwrites, hrun⟩ := runFrom_createRecord hkey hvalue p
    have hread : storage.read operationsUuid (requestKey key) = some value :=
      (congrFun hwrites.records requestName).trans (Function.update_self ..)
    rw [requestKey, runFrom_bind_ok (hrun _ _), loadTransientRequest, runFrom_update]
    dsimp only
    rw [Option.not_isSome_iff_eq_none.mp hnone, hread]
    refine ⟨_, rfl, ?_, hwrites.untouched⟩
    dsimp only
    rw [hwrites.records]
    refine ⟨?_, ?_, fun _ => rfl, fun type htype => ?_⟩
    · rw [Function.update_of_ne (by decide), h.stage]
    · rw [Function.update_self]
      rfl
    · obtain ⟨senders, hsenders, hop⟩ := h.messages type htype
      exact ⟨senders, hsenders.other (head_ne_digit htype).2 value, hop⟩

/-- A move to the next stage, as the operation in memory makes it. -/
theorem does_moveTo {isReady : Program Fault PersistentOperation Bool} {ready : Bool}
    {oldStage newStage : OperationStage} {illegal : String} (hready : Does key isReady op op (.ok ready)) :
    let moved : Except Fault MemoryOperation :=
      if !ready || op.stage ≠ oldStage then .error (.runtimeError illegal) else .ok { op with stage := newStage }
    Does key (moveTo key newStage oldStage isReady illegal) op (moved.toOption.getD op) (moved.map fun _ => ()) := by
  intro moved p h
  obtain ⟨p', hrun, h', huntouched⟩ := hready p h
  rw [moveTo, runFrom_bind_ok hrun]
  cases ready with
  | false => exact ⟨p', rfl, h', huntouched⟩
  | true =>
    rw [Bool.not_true, if_neg Bool.false_ne_true, runFrom_bind, runFrom_read]
    dsimp only
    rw [runFrom_bind, runFrom_lift, h'.getStage_eq]
    dsimp only
    by_cases hstage : op.stage = oldStage
    · have hmoved : moved = .ok { op with stage := newStage } := if_neg (by simp [hstage])
      have hok : (p'.storage.update operationsUuid (stageKey key) newStage.text).1 = .ok := by
        have hread : p'.storage.read operationsUuid (stageKey key) = some op.stage.text := h'.stage
        rw [MemStorage.update_result_iff, hread]
        exact ⟨by cases newStage <;> decide, rfl⟩
      have hwrites : Writes key stageName newStage.text p'.storage
          (p'.storage.update operationsUuid (stageKey key) newStage.text).2 := by
        refine writes_of_read fun name => ?_
        rw [MemStorage.read_update hok]
        simp [stageKey]
      rw [if_neg (by rw [hstage]; exact not_not.mpr rfl), if_pos hok, hmoved]
      refine ⟨_, rfl, ?_, fun name hname => (hwrites.untouched name hname).trans (huntouched name hname)⟩
      dsimp only
      rw [hwrites.records]
      refine ⟨Function.update_self .., ?_, h'.transient, fun type htype => ?_⟩
      · rw [Function.update_of_ne (by decide)]
        exact h'.request
      · obtain ⟨senders, hsenders, hop⟩ := h'.messages type htype
        refine ⟨senders, hsenders.other (head_ne_digit htype).1 _, ?_⟩
        unfold Hears at hop ⊢
        exact hop
    · have hmoved : moved = .error (.runtimeError illegal) := if_pos (by simp [hstage])
      have hnumber : op.stage.number ≠ oldStage.number := by
        revert hstage
        cases op.stage <;> cases oldStage <;> decide
      rw [if_pos hnumber, hmoved]
      exact ⟨p', rfl, h', huntouched⟩

theorem does_advanceOperationStage {newStage : OperationStage} :
    Does key (advanceOperationStage wire key newStage peers) op
      ((op.advanceOperationStage newStage peers).toOption.getD op)
      ((op.advanceOperationStage newStage peers).map fun _ => ()) := by
  cases newStage with
  | prepare => exact fun p h => ⟨p, rfl, h, fun _ _ => rfl⟩
  | commit => exact does_moveTo does_isReadyForCommit
  | execute => exact does_moveTo does_isReadyForExecute

end

/-! ## Reports -/

/-- What a replica asks an operation. -/
structure Report where
  stage : Int
  isPreprepared : Bool
  hasRequest : Bool
  isReadyForCommit : Bool
  isReadyForExecute : Bool
  deriving DecidableEq

/-- The answers of an operation in a storage, one after the other. -/
def report (wire : Wire) (key : OperationKey) (peers : Nat) : Program Fault PersistentOperation Report := do
  let request ← hasRequest wire key
  let commit ← isReadyForCommit wire key peers
  let execute ← isReadyForExecute key peers
  let op ← read
  let stage ← lift (getStage op.storage key)
  pure ⟨stage, isPreprepared op.storage key, request, commit, execute⟩

/-- The answers of an operation in memory. -/
def reportOf (peers : Nat) (op : MemoryOperation) : Report :=
  ⟨op.stage.number, op.isPreprepared, op.hasRequest, op.isReadyForCommit peers, op.isReadyForExecute peers⟩

theorem Does.bind {α β : Type} {key : OperationKey} {method : Program Fault PersistentOperation α}
    {next : α → Program Fault PersistentOperation β} {op op' op'' : MemoryOperation} {a : α} {r : Except Fault β}
    (h : Does key method op op' (.ok a)) (h' : Does key (next a) op' op'' r) :
    Does key (method >>= next) op op'' r := by
  intro p hp
  obtain ⟨p', hrun, hp', huntouched⟩ := h p hp
  obtain ⟨p'', hrun', hp'', huntouched'⟩ := h' p' hp'
  refine ⟨p'', ?_, hp'', fun name hname => (huntouched' name hname).trans (huntouched name hname)⟩
  rw [runFrom_bind_ok hrun, hrun']

theorem does_report (wire : Wire) (key : OperationKey) (peers : Nat) (op : MemoryOperation) :
    Does key (report wire key peers) op op (.ok (reportOf peers op)) := by
  refine (does_hasRequest wire).bind (does_isReadyForCommit.bind (does_isReadyForExecute.bind fun p h => ?_))
  refine ⟨p, ?_, h, fun _ _ => rfl⟩
  rw [runFrom_bind, runFrom_read]
  dsimp only
  rw [runFrom_bind, runFrom_lift, h.getStage_eq, h.isPreprepared_eq]
  rfl

end PersistentOperation

/-! ## The manager -/

namespace OperationManager

open PersistentOperation

/-- The operation that a call is for. -/
def Call.key? : Call → Option OperationKey
  | .findOrConstruct key | .recordPbftMsg key _ _ | .recordRequest key _ | .hasRequest key
  | .advanceOperationStage key _ _ => some key
  | .deleteOperationsUntil _ | .restart => none

/-- What a call makes of an operation in memory, which is left alone by a call that throws. -/
def Call.feed (wire : Wire) (op : MemoryOperation) : Call → MemoryOperation
  | .recordPbftMsg _ msg encodedMsg => (op.recordPbftMsg msg encodedMsg).toOption.getD op
  | .recordRequest _ encodedRequest => op.recordRequest wire encodedRequest
  | .advanceOperationStage _ newStage peers => (op.advanceOperationStage newStage peers).toOption.getD op
  | _ => op

/-- The operation in memory that gets the calls for its key. -/
def memoryOperation (wire : Wire) (key : OperationKey) (calls : List Call) : MemoryOperation :=
  (calls.filter fun call => decide (call.key? = some key)).foldl (Call.feed wire) (.new key)

/-- The calls for some operations whose messages and requests can be stored. -/
def Call.Fits (wire : Wire) (keys : List OperationKey) : Call → Prop
  | .findOrConstruct key | .hasRequest key | .advanceOperationStage key _ _ => key ∈ keys
  | .recordPbftMsg key _ encodedMsg => key ∈ keys ∧
    (∀ type ∈ recordedTypes, (messageKey key type encodedMsg.sender).length ≤ maxKeySize) ∧
    (wire.envelope.serialize encodedMsg).length ≤ maxValueSize
  | .recordRequest key encodedRequest => key ∈ keys ∧ MemoryOperation.isRequest wire encodedRequest = true ∧
    (wire.envelope.serialize encodedRequest).length ≤ maxValueSize
  | .deleteOperationsUntil _ | .restart => False

instance (wire : Wire) (keys : List OperationKey) (call : Call) : Decidable (call.Fits wire keys) := by
  unfold Call.Fits
  split <;> infer_instance

/-- The manager keeps an operation in its storage, or has not constructed it. -/
def Stores (m : OperationManager) (key : OperationKey) (op : MemoryOperation) : Prop :=
  match m.heldOperations[key]? with
  | some request => Represents (records m.storage key) request op
  | none => op = .new key ∧ ∀ rest, records m.storage key rest = none

/-- What a call for one operation leaves alone. -/
structure Leaves (key : OperationKey) (m m' : OperationManager) : Prop where
  records : Untouched key m.storage m'.storage
  held : ∀ key', key' ≠ key → m'.heldOperations[key']? = m.heldOperations[key']?

variable {m m' : OperationManager} {key key' : OperationKey} {op op' : MemoryOperation} {wire : Wire}

theorem messagesOf_none {records : Bytes → Option Bytes} (h : ∀ rest, records rest = none) (type : Nat) :
    MessagesOf records type ∅ := by
  intro rest
  simp [h]

/-- Of an operation without records nothing is stored but the stage. -/
theorem represents_new {storage storage' : MemStorage} (hnone : ∀ rest, records storage key rest = none)
    (hwrites : Writes key stageName OperationStage.prepare.text storage storage') :
    Represents (records storage' key) none (.new key) := by
  rw [hwrites.records]
  refine ⟨Function.update_self .., ?_, fun h => (by cases h), fun type htype =>
    ⟨∅, (messagesOf_none hnone type).other (head_ne_digit htype).1 _, ?_⟩⟩
  · rw [Function.update_of_ne (by decide), hnone]
    rfl
  · unfold Hears
    split <;> rfl

/-- An operation that can be stored is found. -/
theorem findOrConstruct_ok (m : OperationManager) (hkey : (requestKey key).length ≤ maxKeySize) :
    (findOrConstruct key).result m = .ok () := by
  have hstage : (stageKey key).length ≤ maxKeySize := by
    have hnames : stageName.length ≤ requestName.length := by decide
    simp only [requestKey, stageKey, recordKey_eq, List.length_append, List.length_cons] at hkey ⊢
    omega
  obtain ⟨hok, -⟩ := create_fits m.storage hstage (show OperationStage.prepare.text.length ≤ maxValueSize by decide)
  rw [result, runFrom_findOrConstruct, stageKey, if_pos hok]
  split <;> rfl

theorem Stores.findOrConstruct (h : Stores m key op) (hok : (findOrConstruct key).result m = .ok ()) :
    ∃ m' request, (findOrConstruct key).runFrom m = (.ok (), m') ∧ m'.heldOperations[key]? = some request ∧
      Represents (records m'.storage key) request op ∧ Leaves key m m' := by
  unfold Stores at h
  rw [result, runFrom_findOrConstruct, Std.ExtTreeMap.contains_eq_isSome_getElem?] at hok
  rw [runFrom_findOrConstruct, Std.ExtTreeMap.contains_eq_isSome_getElem?]
  cases hheld : m.heldOperations[key]? with
  | some request =>
    rw [hheld] at h
    exact ⟨m, request, rfl, hheld, h, fun _ _ => rfl, fun _ _ => rfl⟩
  | none =>
    rw [hheld] at h hok
    obtain ⟨rfl, hnone⟩ := h
    rw [Option.isSome_none, if_neg Bool.false_ne_true] at hok ⊢
    dsimp only at hok ⊢
    split at hok
    · rename_i hresponse
      have hcreate : (m.storage.create operationsUuid (stageKey key) OperationStage.prepare.text).1 = .ok := by
        refine hresponse.resolve_right fun hexists => ?_
        have hsome := MemStorage.isSome_read_of_recordExists hexists
        rw [show m.storage.read operationsUuid (stageKey key) = none from hnone stageName] at hsome
        cases hsome
      have hwrites : Writes key stageName OperationStage.prepare.text m.storage
          (m.storage.create operationsUuid (stageKey key) OperationStage.prepare.text).2 := by
        refine writes_of_read fun name => ?_
        rw [MemStorage.read_create hcreate]
        simp [stageKey]
      rw [if_pos hresponse]
      refine ⟨_, none, rfl, ?_, ?_, ?_, fun key' hne => ?_⟩
      · rw [Map.lookup_insert, if_pos rfl]
      · dsimp only
        exact represents_new hnone hwrites
      · dsimp only
        exact hwrites.untouched
      · rw [Map.lookup_insert, if_neg hne.symm]
    · cases hok

/-- A method of an operation, called through the manager. -/
theorem Stores.onOperation {α : Type} {method : Program Fault PersistentOperation α} {r : Except Fault α}
    (h : Stores m key op) (hok : (OperationManager.findOrConstruct key).result m = .ok ())
    (hmethod : Does key method op op' r) :
    ∃ m', (onOperation key method).runFrom m = (r, m') ∧ Stores m' key op' ∧ Leaves key m m' := by
  obtain ⟨m₁, request, hrun, hheld, hholds, hleaves⟩ := h.findOrConstruct hok
  obtain ⟨p', hp', hholds', huntouched⟩ := hmethod ⟨m₁.storage, request⟩ hholds
  rw [OperationManager.onOperation, runFrom_bind_ok hrun, runFrom_zoom, hheld, Option.getD_some, hp']
  refine ⟨_, rfl, ?_, fun name hname => (huntouched name hname).trans (hleaves.records name hname), fun key' hne => ?_⟩
  · unfold Stores
    rw [Map.lookup_insert, if_pos rfl]
    exact hholds'
  · rw [Map.lookup_insert, if_neg hne.symm, hleaves.held key' hne]

/-- An operation does not see what is done to another one. -/
theorem Stores.of_leaves (h : Stores m key' op) (hleaves : Leaves key m m') (hne : key' ≠ key)
    (hapart : RecordsApart key key') (hapart' : RecordsApart key' key) : Stores m' key' op := by
  have hsame : records m'.storage key' = records m.storage key' :=
    funext fun rest => hleaves.records _ (hapart.not_prefix hapart' rest)
  unfold Stores
  rw [hleaves.held key' hne, hsame]
  exact h

/-- A call for an operation does to it what it does to the operation in memory. -/
theorem Stores.after {keys : List OperationKey} {call : Call} (h : Stores m key op)
    (hkey : (requestKey key).length ≤ maxKeySize) (hcall : call.Fits wire keys) (hfor : call.key? = some key) :
    Stores (after wire m call) key (call.feed wire op) ∧ Leaves key m (after wire m call) := by
  have hmethod : ∀ {α : Type} {method : Program Fault PersistentOperation α} {r : Except Fault α}
      {op' : MemoryOperation}, Does key method op op' r →
      Stores ((OperationManager.onOperation key method).final m) key op' ∧
        Leaves key m ((OperationManager.onOperation key method).final m) := by
    intro α method r op' hdoes
    obtain ⟨m', hrun, hm'⟩ := h.onOperation (findOrConstruct_ok m hkey) hdoes
    rw [final, hrun]
    exact hm'
  cases call with
  | findOrConstruct k =>
    cases hfor
    obtain ⟨m', request, hrun, hheld, hholds, hleaves⟩ := h.findOrConstruct (findOrConstruct_ok m hkey)
    rw [OperationManager.after, final, hrun]
    refine ⟨?_, hleaves⟩
    unfold Stores
    rw [hheld]
    exact hholds
  | recordPbftMsg k msg encodedMsg =>
    cases hfor
    exact hmethod (does_recordPbftMsg hcall.2.1 hcall.2.2)
  | recordRequest k encodedRequest =>
    cases hfor
    exact hmethod (does_recordRequest hcall.2.1 hkey hcall.2.2)
  | hasRequest k =>
    cases hfor
    exact hmethod (does_hasRequest wire)
  | advanceOperationStage k newStage peers =>
    cases hfor
    exact hmethod does_advanceOperationStage
  | deleteOperationsUntil | restart => cases hfor

theorem Call.Fits.exists_key {keys : List OperationKey} {call : Call} (h : call.Fits wire keys) :
    ∃ key ∈ keys, call.key? = some key := by
  cases call with
  | findOrConstruct key | hasRequest key | advanceOperationStage key => exact ⟨key, h, rfl⟩
  | recordPbftMsg key | recordRequest key => exact ⟨key, h.1, rfl⟩
  | deleteOperationsUntil | restart => exact h.elim

theorem memoryOperation_concat (wire : Wire) (key : OperationKey) (calls : List Call) (call : Call) :
    memoryOperation wire key (calls ++ [call]) = if call.key? = some key then
      call.feed wire (memoryOperation wire key calls) else memoryOperation wire key calls := by
  rw [memoryOperation, List.filter_append, List.foldl_append, List.filter_singleton]
  by_cases hfor : call.key? = some key
  · rw [if_pos hfor, decide_eq_true hfor]
    rfl
  · rw [if_neg hfor, decide_eq_false hfor]
    rfl

section

variable {keys : List OperationKey} {storage : MemStorage} {calls : List Call}
  (hapart : ∀ key ∈ keys, ∀ key' ∈ keys, key ≠ key' → RecordsApart key key')
  (hkeys : ∀ key ∈ keys, (requestKey key).length ≤ maxKeySize)
  (hstorage : ∀ name, storage.read operationsUuid name = none) (hcalls : ∀ call ∈ calls, call.Fits wire keys)
include hapart hkeys hstorage hcalls

/-- After each call the manager keeps what the operations in memory hold. -/
theorem stores_run : ∀ key ∈ keys, Stores (run wire ⟨storage, ∅⟩ calls) key (memoryOperation wire key calls) := by
  induction calls using List.reverseRecOn with
  | nil =>
    intro key _
    unfold Stores
    rw [run, List.foldl_nil, Map.lookup_empty]
    exact ⟨rfl, fun rest => hstorage _⟩
  | append_singleton calls call ih =>
    intro key hkey
    have hcall := hcalls call (List.mem_append_right _ (List.mem_singleton_self call))
    obtain ⟨key', hkey', hfor⟩ := hcall.exists_key
    have hold := ih fun call hmem => hcalls call (List.mem_append_left _ hmem)
    obtain ⟨hstores, hleaves⟩ := (hold key' hkey').after (hkeys key' hkey') hcall hfor
    rw [run, List.foldl_append, memoryOperation_concat, hfor]
    by_cases heq : key' = key
    · subst heq
      rw [if_pos rfl]
      exact hstores
    · rw [if_neg fun h => heq (Option.some.inj h)]
      exact (hold key hkey).of_leaves hleaves (Ne.symm heq) (hapart key' hkey' key hkey heq)
        (hapart key hkey key' hkey' (Ne.symm heq))

/-- Each operation of a manager with a storage reports what the operation in memory reports that gets the same calls,
and counts the same votes, where no keys of an operation begin like those of another. -/
theorem persistent_refines_memory {key : OperationKey} (hkey : key ∈ keys) (peers : Nat) :
    (onOperation key (report wire key peers)).result (run wire ⟨storage, ∅⟩ calls) =
        .ok (reportOf peers (memoryOperation wire key calls)) ∧
      (messageKeys (run wire ⟨storage, ∅⟩ calls).storage key 3).length =
        (memoryOperation wire key calls).preparesSeen.card ∧
      (messageKeys (run wire ⟨storage, ∅⟩ calls).storage key 4).length =
        (memoryOperation wire key calls).commitsSeen.card := by
  have hstores := stores_run hapart hkeys hstorage hcalls key hkey
  obtain ⟨m', hrun, -⟩ := hstores.onOperation (findOrConstruct_ok _ (hkeys key hkey))
    (does_report wire key peers _)
  refine ⟨by rw [result, hrun], ?_⟩
  unfold Stores at hstores
  split at hstores
  · exact ⟨hstores.length_prepares, hstores.length_commits⟩
  · obtain ⟨hnew, hnone⟩ := hstores
    rw [hnew]
    exact ⟨(messagesOf_none hnone 3).length (by decide), (messagesOf_none hnone 4).length (by decide)⟩

end

/-- An operation at sequence 1 in view 1. -/
private def keyOf (hash : String) : OperationKey := ⟨1, 1, ascii hash⟩

private def messageFor (hash sender : String) (type : PbftMsgType) : Call :=
  .recordPbftMsg (keyOf hash) { (default : PbftMsg) with type := type }
    { (default : BznEnvelope) with sender := ascii sender }

private def requestFor (hash : String) : Call :=
  .recordRequest (keyOf hash)
    { (default : BznEnvelope) with payload := .databaseMsg (Wire.plain.databaseMsg.serialize default) }

/-- A request is prepared and advanced, next to another one. -/
private def twoRequests : List Call :=
  [messageFor "g" "B" .preprepare, requestFor "g", messageFor "h" "D" .prepare, messageFor "g" "A" .prepare,
    messageFor "g" "B" .prepare, messageFor "g" "D" .prepare, messageFor "g" "D" .prepare,
    .advanceOperationStage (keyOf "g") .commit 4]

theorem persistent_refines_memory_two :
    let m := run Wire.plain ⟨default, ∅⟩ twoRequests
    (onOperation (keyOf "g") (report Wire.plain (keyOf "g") 4)).result m = .ok ⟨1, true, true, true, false⟩ ∧
    (onOperation (keyOf "h") (report Wire.plain (keyOf "h") 4)).result m = .ok ⟨0, false, false, false, false⟩ ∧
    (messageKeys m.storage (keyOf "h") 3).length = 1 := by
  intro m
  have hcalls : ∀ call ∈ twoRequests, call.Fits Wire.plain [keyOf "g", keyOf "h"] := by decide +kernel
  have hapart : ∀ key ∈ [keyOf "g", keyOf "h"], ∀ key' ∈ [keyOf "g", keyOf "h"], key ≠ key' →
      RecordsApart key key' := by
    intro key hkey key' hkey'
    refine apart_of_length ?_
    revert key key'
    decide +kernel
  have hkeys : ∀ key ∈ [keyOf "g", keyOf "h"], (requestKey key).length ≤ maxKeySize := by decide +kernel
  obtain ⟨hg, -⟩ := persistent_refines_memory hapart hkeys (MemStorage.read_default _) hcalls List.mem_cons_self 4
  obtain ⟨hh, hprepares, -⟩ := persistent_refines_memory hapart hkeys (MemStorage.read_default _) hcalls
    (List.mem_cons_of_mem _ List.mem_cons_self) 4
  exact ⟨hg.trans (by decide +kernel), hh.trans (by decide +kernel), hprepares.trans (by decide +kernel)⟩

/-- An operation that waits for PREPAREs, and those of one peer for three others. -/
private def prepareElsewhere : List Call :=
  [messageFor "h" "B" .preprepare, requestFor "h"] ++
    ["a", "b", "c"].map fun last => messageFor ("h_00000000000000000001_3" ++ last) "D" .prepare

/-- D makes an operation ready with PREPAREs for others, which the operation in memory does not count. -/
theorem prepares_taken_from_others :
    (∀ call ∈ prepareElsewhere, call.Fits Wire.plain (prepareElsewhere.filterMap Call.key?)) ∧
    (onOperation (keyOf "h") (report Wire.plain (keyOf "h") 4)).result
      (run Wire.plain ⟨default, ∅⟩ prepareElsewhere) = .ok ⟨0, true, true, true, false⟩ ∧
    reportOf 4 (memoryOperation Wire.plain (keyOf "h") prepareElsewhere) = ⟨0, true, true, false, false⟩ := by
  decide +kernel

end OperationManager

end SwarmDb
