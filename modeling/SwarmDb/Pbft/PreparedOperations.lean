import SwarmDb.Lib.Lists
import SwarmDb.Pbft.OperationRecords
import SwarmDb.Proto.Plain

/-!
# The prepared operations

`prepared_operations_since` takes the records that look like the stage of a prepared operation, cuts each key at the
first marker of a stage, and parses what is before it. The key is cut at its end exactly when the marker is not in the
hash (`before_stageKey`). After a run that meets `Call.Clear` the operations found are the prepared ones, for each
sequence the one of the last view (`preparedOperationsSince_exact`); else one may be lost (`prepared_not_found`).
-/

namespace SwarmDb

open Lib Program

namespace PersistentOperation

/-! ## Cutting at the marker -/

/-- The marker of a stage stands in a hash, or with the underscore before it. -/
def Marked (hash : Hash) : Prop := underscore :: stageName <:+: underscore :: hash

instance (hash : Hash) : Decidable (Marked hash) := inferInstanceAs (Decidable (_ <:+: _))

/-- The marker does not reach over an underscore. -/
theorem marker_begins_left {a b : Bytes} (ha : a ≠ []) (h : underscore :: stageName <+: a ++ underscore :: b) :
    underscore :: stageName <+: a := by
  rcases List.prefix_or_prefix_of_prefix h (List.prefix_append a _) with hleft | ⟨r, hr⟩
  · exact hleft
  · rw [← hr, List.prefix_append_right_inj] at h
    cases r with
    | nil => rw [← hr, List.append_nil]
    | cons =>
      obtain ⟨x, a, rfl⟩ := List.exists_cons_of_ne_nil ha
      rw [List.cons_prefix_cons] at h
      have hmem : underscore ∈ stageName := by
        rw [← (List.cons.inj hr).2, h.1]
        simp
      exact absurd hmem (by decide)

variable {key : OperationKey}

/-- An underscore is not in a number, so the marker can stand in the hash only. -/
theorem marked_of_begins {t : Bytes} (ht : t <:+ generatePrefix key)
    (h : underscore :: stageName <+: t) : Marked key.requestHash := by
  have hsplit : generatePrefix key =
      padded key.sequence ++ ((underscore :: key.requestHash) ++ underscore :: padded key.view) := rfl
  rw [hsplit] at ht
  rcases suffix_append_cases ht with ht | ⟨a, ha, hsuffix, rfl⟩
  · rcases suffix_append_cases ht with ht | ⟨a, ha, hsuffix, rfl⟩
    · have hmem : (115 : UInt8) ∈ underscore :: padded key.view := ht.subset (h.subset (by decide))
      rcases List.mem_cons.mp hmem with hs | hs
      · exact absurd hs (by decide)
      · exact absurd hs (not_mem_padded (by decide) key.view)
    · exact (marker_begins_left ha h).isInfix.trans hsuffix.isInfix
  · obtain ⟨c, a, rfl⟩ := List.exists_cons_of_ne_nil ha
    rw [List.cons_append, List.cons_prefix_cons] at h
    have hmem : underscore ∈ padded key.sequence := hsuffix.subset (by rw [h.1]; exact List.mem_cons_self ..)
    exact absurd hmem (not_mem_padded (by decide) key.sequence)

theorem before_stageKey (h : ¬ Marked key.requestHash) :
    before (underscore :: stageName) (stageKey key) = generatePrefix key := by
  have hkey : stageKey key = generatePrefix key ++ (underscore :: stageName) ++ [] := by
    rw [List.append_nil]
    rfl
  rw [hkey]
  refine before_append fun t ht hne hbegins => h (marked_of_begins ht ?_)
  rw [List.append_nil] at hbegins
  exact marker_begins_left hne hbegins

/-! ## Prepared operations -/

/-- An operation that is in a later stage than the first, with a stored request. -/
def Prepared (storage : MemStorage) (key : OperationKey) : Prop :=
  (getStage storage key = .ok OperationStage.commit.number ∨ getStage storage key = .ok OperationStage.execute.number) ∧
    (storage.read operationsUuid (requestKey key)).isSome

/-- The records of operations whose hashes do not hold the marker, with no message in
the place of a stage. -/
inductive IsRecord (wire : Wire) : Bytes → Bytes → Prop
  | stage (key : OperationKey) (stage : OperationStage) (h : ¬ Marked key.requestHash) :
    IsRecord wire (stageKey key) stage.text
  | message (key : OperationKey) (type : Nat) (env : BznEnvelope)
    (h : ∀ other, messageKey key type env.sender ≠ stageKey other) :
    IsRecord wire (messageKey key type env.sender) (wire.envelope.serialize env)
  | request (key : OperationKey) (env : BznEnvelope) : IsRecord wire (requestKey key) (wire.envelope.serialize env)

/-- The storage holds such records only. -/
def OnlyRecords (wire : Wire) (storage : MemStorage) : Prop :=
  ∀ name value, storage.read operationsUuid name = some value → IsRecord wire name value

namespace OnlyRecords

variable {wire : Wire} {storage : MemStorage}

theorem stage_of_read (h : OnlyRecords wire storage) {value : Bytes}
    (hread : storage.read operationsUuid (stageKey key) = some value) :
    ¬ Marked key.requestHash ∧ ∃ stage : OperationStage, value = stage.text := by
  generalize hname : stageKey key = name at hread
  cases h name value hread with
  | stage _ stage hmarked =>
    rw [stageKey_injective hname]
    exact ⟨hmarked, stage, rfl⟩
  | message _ _ _ hmessage => exact absurd hname.symm (hmessage key)
  | request key' => exact absurd hname.symm (requestKey_ne_stageKey key' key)

/-- The records that look like the stage of a prepared operation are that. -/
theorem stage_of_match (h : OnlyRecords wire storage) (hwire : ∀ env, (wire.envelope.serialize env).length ≠ 1)
    {name value : Bytes} (hread : storage.read operationsUuid name = some value)
    (hvalue : value = OperationStage.commit.text ∨ value = OperationStage.execute.text) :
    ∃ key : OperationKey, name = stageKey key ∧ ¬ Marked key.requestHash := by
  have hlength : value.length = 1 := by
    rcases hvalue with rfl | rfl
    · rfl
    · rfl
  cases h name value hread with
  | stage key _ hmarked => exact ⟨key, rfl, hmarked⟩
  | message _ _ env | request _ env => exact absurd hlength (hwire env)

theorem getStage_eq_iff (h : OnlyRecords wire storage) {stage : OperationStage} :
    getStage storage key = .ok stage.number ↔ storage.read operationsUuid (stageKey key) = some stage.text := by
  rw [getStage]
  cases hread : storage.read operationsUuid (stageKey key) with
  | none => simp
  | some =>
    obtain ⟨-, stage', rfl⟩ := h.stage_of_read hread
    dsimp only
    rw [stoi_text]
    cases stage <;> cases stage' <;> decide

end OnlyRecords

theorem looksPrepared_stageKey_iff {value : Bytes} : looksPrepared (stageKey key) value ↔
    value = OperationStage.commit.text ∨ value = OperationStage.execute.text := by
  have hsuffix : stageName.isSuffixOf (stageKey key) = true :=
    List.isSuffixOf_iff_suffix.mpr ⟨generatePrefix key ++ [underscore], by simp [stageKey, recordKey, generateKey]⟩
  rw [looksPrepared, hsuffix, Bool.and_true, decide_eq_true_eq]

/-- The records that are read are the stages of the operations from `start` on. -/
theorem mem_matched_iff {wire : Wire} {storage : MemStorage}
    (hwire : ∀ env, (wire.envelope.serialize env).length ≠ 1) (h : OnlyRecords wire storage) {start : UInt64}
    {m : Bytes × Bytes} :
    m ∈ storage.readIf operationsUuid (prefixForSequence start) [] (some looksPrepared) ↔
      ∃ key : OperationKey, m.1 = stageKey key ∧ ¬ Marked key.requestHash ∧ start ≤ key.sequence ∧
        storage.read operationsUuid (stageKey key) = some m.2 ∧
          (m.2 = OperationStage.commit.text ∨ m.2 = OperationStage.execute.text) := by
  obtain ⟨name, value⟩ := m
  rw [MemStorage.mem_readIf_from]
  dsimp only
  constructor
  · rintro ⟨hread, hfirst, hlooks⟩
    have hvalue : value = OperationStage.commit.text ∨ value = OperationStage.execute.text := by
      rw [looksPrepared, Bool.and_eq_true, decide_eq_true_eq] at hlooks
      exact hlooks.1
    obtain ⟨key, hname, hmarked⟩ := h.stage_of_match hwire hread hvalue
    rw [hname] at hread hfirst
    exact ⟨key, hname, hmarked, (not_stageKey_lt_iff key start).mp hfirst, hread, hvalue⟩
  · rintro ⟨key, hname, -, hstart, hread, hvalue⟩
    rw [hname]
    exact ⟨hread, (not_stageKey_lt_iff key start).mpr hstart, looksPrepared_stageKey_iff.mpr hvalue⟩

theorem rehydrate_stageKey (h : ¬ Marked key.requestHash) (storage : MemStorage) :
    rehydrate storage (stageKey key) =
      .ok (if (storage.read operationsUuid (requestKey key)).isSome then some key else none) := by
  have hrequest : generateKey (generatePrefix key) requestName = requestKey key := rfl
  rw [rehydrate, before_stageKey h, hrequest, parsePrefix_generatePrefix]
  cases storage.read operationsUuid (requestKey key) <;> rfl

/-- The operations found in a range are the prepared ones. -/
theorem preparedOperationsInRange_of_onlyRecords {wire : Wire} {storage : MemStorage}
    (hwire : ∀ env, (wire.envelope.serialize env).length ≠ 1) (h : OnlyRecords wire storage) (start : UInt64) :
    ∃ ops, preparedOperationsInRange storage start none = .ok ops ∧
      ∀ key : OperationKey, key ∈ ops ↔ start ≤ key.sequence ∧ Prepared storage key := by
  have hok : ∀ m ∈ storage.readIf operationsUuid (prefixForSequence start) [] (some looksPrepared),
      ∃ op?, rehydrate storage m.1 = .ok op? := by
    intro m hm
    obtain ⟨key, hname, hmarked, -⟩ := (mem_matched_iff hwire h).mp hm
    rw [hname]
    exact ⟨_, rehydrate_stageKey hmarked storage⟩
  obtain ⟨results, hresults, hmem⟩ := mapM_of_ok hok
  refine ⟨results.reduceOption, ?_, fun key => ?_⟩
  · rw [preparedOperationsInRange]
    exact except_bind_eq_ok.mpr ⟨results, hresults, rfl⟩
  · rw [List.reduceOption_mem_iff, hmem, Prepared, h.getStage_eq_iff, h.getStage_eq_iff]
    constructor
    · rintro ⟨m, hm, hkey⟩
      obtain ⟨key', hname, hmarked, hstart, hread, hvalue⟩ := (mem_matched_iff hwire h).mp hm
      rw [hname, rehydrate_stageKey hmarked, Except.ok.injEq] at hkey
      split at hkey
      · rename_i hrequest
        cases hkey
        refine ⟨hstart, ?_, hrequest⟩
        rw [hread, Option.some.injEq, Option.some.injEq]
        exact hvalue
      · cases hkey
    · rintro ⟨hstart, hstage, hrequest⟩
      obtain ⟨value, hread⟩ : ∃ value, storage.read operationsUuid (stageKey key) = some value :=
        hstage.elim (fun hread => ⟨_, hread⟩) fun hread => ⟨_, hread⟩
      have hmarked := (h.stage_of_read hread).1
      rw [hread, Option.some.injEq, Option.some.injEq] at hstage
      refine ⟨(stageKey key, value), (mem_matched_iff hwire h).mpr ⟨key, rfl, hmarked, hstart, hread, hstage⟩, ?_⟩
      rw [rehydrate_stageKey hmarked, if_pos hrequest]

end PersistentOperation

namespace OperationManager

open PersistentOperation

/-! ## The last view of each sequence -/

/-- For each sequence an operation of a list with the highest view. -/
def Latest (ops : List OperationKey) (result : Map UInt64 OperationKey) : Prop :=
  ∀ q : UInt64,
    match result[q]? with
    | none => ∀ op ∈ ops, op.sequence ≠ q
    | some op => op ∈ ops ∧ op.sequence = q ∧ ∀ other ∈ ops, other.sequence = q → other.view ≤ op.view

variable {ops : List OperationKey} {result : Map UInt64 OperationKey} {wire : Wire}

theorem Latest.maybeStore (h : Latest ops result) (op : OperationKey) :
    Latest (ops ++ [op]) (maybeStore result op) := by
  have hother : ∀ q, op.sequence ≠ q → ∀ other ∈ ops ++ [op], other.sequence = q → other ∈ ops := by
    intro q hq other hmem hsequence
    rcases List.mem_append.mp hmem with hmem | hmem
    · exact hmem
    · rw [List.mem_singleton.mp hmem] at hsequence
      exact absurd hsequence hq
  intro q
  by_cases hq : op.sequence = q
  · subst hq
    have hold := h op.sequence
    rw [OperationManager.maybeStore]
    cases hresult : result[op.sequence]? with
    | none =>
      rw [hresult] at hold
      dsimp only at hold ⊢
      rw [Map.lookup_insert, if_pos rfl]
      refine ⟨by simp, rfl, fun other hmem hsequence => ?_⟩
      rcases List.mem_append.mp hmem with hmem | hmem
      · exact absurd hsequence (hold other hmem)
      · rw [List.mem_singleton.mp hmem]
        exact UInt64.le_rfl
    | some first =>
      rw [hresult] at hold
      obtain ⟨hfirst, hsame, hmax⟩ := hold
      dsimp only
      by_cases hlt : first.view < op.view
      · rw [if_pos hlt, Map.lookup_insert, if_pos rfl]
        refine ⟨by simp, rfl, fun other hmem hsequence => ?_⟩
        rcases List.mem_append.mp hmem with hmem | hmem
        · exact UInt64.le_trans (hmax other hmem hsequence) (UInt64.le_of_lt hlt)
        · rw [List.mem_singleton.mp hmem]
          exact UInt64.le_rfl
      · rw [if_neg hlt, hresult]
        refine ⟨List.mem_append_left _ hfirst, hsame, fun other hmem hsequence => ?_⟩
        rcases List.mem_append.mp hmem with hmem | hmem
        · exact hmax other hmem hsequence
        · rw [List.mem_singleton.mp hmem]
          exact UInt64.not_lt.mp hlt
  · have hkept : (OperationManager.maybeStore result op)[q]? = result[q]? := by
      rw [OperationManager.maybeStore]
      split
      · split
        · rw [Map.lookup_insert, if_neg hq]
        · rfl
      · rw [Map.lookup_insert, if_neg hq]
    have hold := h q
    rw [hkept]
    cases hresult : result[q]? with
    | none =>
      rw [hresult] at hold
      exact fun other hmem hsequence => hold other (hother q hq other hmem hsequence) hsequence
    | some =>
      rw [hresult] at hold
      obtain ⟨hfirst, hsame, hmax⟩ := hold
      exact ⟨List.mem_append_left _ hfirst, hsame,
        fun other hmem hsequence => hmax other (hother q hq other hmem hsequence) hsequence⟩

theorem latest_foldl (ops : List OperationKey) : Latest ops (ops.foldl maybeStore ∅) := by
  induction ops using List.reverseRecOn with
  | nil =>
    intro q
    rw [List.foldl_nil, Map.lookup_empty]
    exact fun op hop => absurd hop List.not_mem_nil
  | append_singleton _ op ih =>
    rw [List.foldl_append]
    exact ih.maybeStore op

/-! ## Runs -/

/-- The calls whose hashes do not hold the marker, and whose messages do not take the
place of a stage. -/
def Call.Clear : Call → Prop
  | .findOrConstruct key | .hasRequest key | .recordRequest key _ | .advanceOperationStage key _ _ =>
    ¬ Marked key.requestHash
  | .recordPbftMsg key msg encodedMsg =>
    ¬ Marked key.requestHash ∧ ∀ type, msg.type.recorded? = some type →
      ∀ other, messageKey key type encodedMsg.sender ≠ stageKey other
  | .deleteOperationsUntil _ | .restart => True

theorem isRecord_of_writes {call : Call} (h : call.Clear) {name value : Bytes} (hwrites : call.Writes wire name value) :
    IsRecord wire name value := by
  cases call with
  | findOrConstruct key | hasRequest key =>
    rw [hwrites.1, hwrites.2]
    exact .stage key .prepare h
  | recordPbftMsg key _ encodedMsg =>
    rcases hwrites with ⟨hname, hvalue⟩ | ⟨type, htype, hname, hvalue⟩
    · rw [hname, hvalue]
      exact .stage key .prepare h.1
    · rw [hname, hvalue]
      exact .message key type encodedMsg (h.2 type htype)
  | recordRequest key encodedRequest =>
    rcases hwrites with ⟨hname, hvalue⟩ | ⟨hname, hvalue⟩
    · rw [hname, hvalue]
      exact .stage key .prepare h
    · rw [hname, hvalue]
      exact .request key encodedRequest
  | advanceOperationStage key newStage =>
    obtain ⟨hname, hvalue | hvalue⟩ := hwrites
    · rw [hname, hvalue]
      exact .stage key .prepare h
    · rw [hname, hvalue]
      exact .stage key newStage h
  | deleteOperationsUntil | restart => exact hwrites.elim

/-- A run of such calls leaves only such records. -/
theorem onlyRecords_run {calls : List Call} (hcalls : ∀ call ∈ calls, call.Clear) {m : OperationManager}
    (h : OnlyRecords wire m.storage) : OnlyRecords wire (run wire m calls).storage := by
  induction calls generalizing m with
  | nil => exact h
  | cons call _ ih =>
    refine ih (fun c hc => hcalls c (List.mem_cons_of_mem _ hc)) fun name value hread => ?_
    rcases adds_after wire m call name value hread with hold | hnew
    · exact h name value hold
    · exact isRecord_of_writes (hcalls call (List.mem_cons_self ..)) hnew

/-- What `prepared_operations_since` should return: an operation for each later
sequence that has a prepared one, namely one with the highest view. -/
def PreparedSince (storage : MemStorage) (sequence : UInt64) (result : Map UInt64 OperationKey) : Prop :=
  ∀ q : UInt64,
    ((result[q]?).isSome ↔ sequence < q ∧ ∃ key : OperationKey, key.sequence = q ∧ Prepared storage key) ∧
    ∀ key, result[q]? = some key → key.sequence = q ∧ Prepared storage key ∧
      ∀ other : OperationKey, other.sequence = q → Prepared storage other → other.view ≤ key.view

theorem preparedSince_of_latest {storage : MemStorage} {sequence : UInt64} (h : Latest ops result)
    (hops : ∀ key : OperationKey, key ∈ ops ↔ sequence < key.sequence ∧ Prepared storage key) :
    PreparedSince storage sequence result := by
  intro q
  have hq := h q
  cases hresult : result[q]? with
  | none =>
    rw [hresult] at hq
    refine ⟨⟨fun hsome => (Bool.false_ne_true hsome).elim, ?_⟩, fun key hkey => nomatch hkey⟩
    rintro ⟨hlt, key, rfl, hprepared⟩
    exact absurd rfl (hq key ((hops key).mpr ⟨hlt, hprepared⟩))
  | some op =>
    rw [hresult] at hq
    obtain ⟨hmem, rfl, hmax⟩ := hq
    obtain ⟨hlt, hprepared⟩ := (hops op).mp hmem
    refine ⟨⟨fun _ => ⟨hlt, op, rfl, hprepared⟩, fun _ => rfl⟩, fun key hkey => ?_⟩
    cases hkey
    refine ⟨rfl, hprepared, fun other hsequence hother => hmax other ((hops other).mpr ⟨?_, hother⟩) hsequence⟩
    rwa [hsequence]

/-- After a run of such calls over a storage without operations, the operations found
are the prepared ones. -/
theorem preparedOperationsSince_exact {wire : Wire} (hwire : ∀ env, (wire.envelope.serialize env).length ≠ 1)
    {storage : MemStorage} (hstorage : ∀ name, storage.read operationsUuid name = none) {calls : List Call}
    (hcalls : ∀ call ∈ calls, call.Clear) {sequence : UInt64} (hsequence : sequence.toNat < 2 ^ 64 - 1) :
    ∃ result, (run wire ⟨storage, ∅⟩ calls).preparedOperationsSince sequence = .ok result ∧
      PreparedSince (run wire ⟨storage, ∅⟩ calls).storage sequence result := by
  have hstart : OnlyRecords wire storage := fun name value hread => by
    rw [hstorage] at hread
    cases hread
  have hrecords := onlyRecords_run hcalls (m := ⟨storage, ∅⟩) hstart
  obtain ⟨ops, hops, hmem⟩ := preparedOperationsInRange_of_onlyRecords hwire hrecords (sequence + 1)
  have hnext : (sequence + 1).toNat = sequence.toNat + 1 := by
    rw [UInt64.toNat_add, UInt64.toNat_one]
    omega
  refine ⟨ops.foldl maybeStore ∅, ?_, preparedSince_of_latest (latest_foldl ops) fun key => ?_⟩
  · rw [preparedOperationsSince, hops]
    rfl
  · rw [hmem, UInt64.le_iff_toNat_le, UInt64.lt_iff_toNat_lt, hnext, Nat.succ_le_iff]

/-- The calls that bring an operation to the second stage in a swarm of one. -/
private def prepareCalls (key : OperationKey) : List Call :=
  [.recordPbftMsg key { (default : PbftMsg) with type := .preprepare } default,
    .recordPbftMsg key { (default : PbftMsg) with type := .prepare } default,
    .recordRequest key default,
    .advanceOperationStage key .commit 1,
    .restart]

private theorem clear_prepareCalls {key : OperationKey} (h : ¬ Marked key.requestHash) :
    ∀ call ∈ prepareCalls key, call.Clear := by
  have hmessage : ∀ type other, messageKey key type (default : BznEnvelope).sender ≠ stageKey other := by
    intro type other heq
    have hlast := congrArg List.getLast? heq
    simp only [messageKey, stageKey, recordKey, PersistentOperation.generateKey, List.getLast?_append,
      List.getLast?_cons,
      Option.some_or] at hlast
    exact absurd hlast (by decide)
  intro call hcall
  simp only [prepareCalls, List.mem_cons, List.not_mem_nil, or_false] at hcall
  rcases hcall with rfl | rfl | rfl | rfl | rfl
  · exact ⟨h, fun type _ => hmessage type⟩
  · exact ⟨h, fun type _ => hmessage type⟩
  · exact h
  · exact h
  · trivial

theorem preparedOperationsSince_exact_two :
    (∃ result, (run Wire.plain ⟨default, ∅⟩ (prepareCalls ⟨1, 2, ascii "hash"⟩)).preparedOperationsSince 1 =
      .ok result ∧
      PreparedSince (run Wire.plain ⟨default, ∅⟩ (prepareCalls ⟨1, 2, ascii "hash"⟩)).storage 1 result) ∧
    ((run Wire.plain ⟨default, ∅⟩ (prepareCalls ⟨1, 2, ascii "hash"⟩)).preparedOperationsSince 1).toOption.map
      (fun result => result.toList) = some [(2, ⟨1, 2, ascii "hash"⟩)] := by
  refine ⟨preparedOperationsSince_exact Wire.length_plain_envelope (fun name => MemStorage.read_default _ name)
    (clear_prepareCalls (by decide)) (by decide), ?_⟩
  decide +kernel

/-- A prepared operation whose hash begins with the name of a stage is not found. -/
theorem prepared_not_found :
    Prepared (run Wire.plain ⟨default, ∅⟩ (prepareCalls ⟨1, 2, ascii "stage"⟩)).storage ⟨1, 2, ascii "stage"⟩ ∧
    ((run Wire.plain ⟨default, ∅⟩ (prepareCalls ⟨1, 2, ascii "stage"⟩)).preparedOperationsSince 1).toOption.map
      (fun result => result.toList) = some [] := by
  refine ⟨⟨.inl ?_, ?_⟩, ?_⟩
  · decide +kernel
  · decide +kernel
  · decide +kernel

end OperationManager

end SwarmDb
