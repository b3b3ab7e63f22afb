import SwarmDb.Storage.RocksdbStorage

/-!
# Two storage backends

`mem_storage` and `rocksdb_storage` give the same replies to every sequence of calls on uuids that are `Apart`
(`backends_agree`). The map on disk simulates the nested maps in memory (`Agree`), and each call keeps that
(`call_agree`).
-/

namespace SwarmDb

open Lib

/-- The calls of `storage_base` that the consensus store uses. -/
inductive StorageCall where
  | create (uuid key value : Bytes)
  | read (uuid key : Bytes)
  | update (uuid key value : Bytes)
  | remove (uuid key : Bytes)
  | has (uuid key : Bytes)
  | getKeys (uuid : Bytes)
  | getKeysIf (uuid first last : Bytes) (predicate : Option (Bytes → Bytes → Bool))
  | readIf (uuid first last : Bytes) (predicate : Option (Bytes → Bytes → Bool))
  | removeRange (uuid first last : Bytes)

def StorageCall.uuid : StorageCall → Bytes
  | .create uuid _ _ | .read uuid _ | .update uuid _ _ | .remove uuid _ | .has uuid _ | .getKeys uuid
  | .getKeysIf uuid _ _ _ | .readIf uuid _ _ _ | .removeRange uuid _ _ => uuid

inductive StorageReply where
  | result (result : StorageResult)
  | value (value : Option Bytes)
  | found (found : Bool)
  | keys (keys : List Bytes)
  | entries (entries : List (Bytes × Bytes))
  | nothing
  deriving DecidableEq

def MemStorage.call (s : MemStorage) : StorageCall → Except StorageFault (StorageReply × MemStorage)
  | .create uuid key value => .ok (.result (s.create uuid key value).1, (s.create uuid key value).2)
  | .read uuid key => .ok (.value (s.read uuid key), s)
  | .update uuid key value => .ok (.result (s.update uuid key value).1, (s.update uuid key value).2)
  | .remove uuid key => .ok (.result (s.remove uuid key).1, (s.remove uuid key).2)
  | .has uuid key => .ok (.found (s.has uuid key), s)
  | .getKeys uuid => .ok (.keys (s.getKeys uuid), s)
  | .getKeysIf uuid first last predicate => .ok (.keys (s.getKeysIf uuid first last predicate), s)
  | .readIf uuid first last predicate => .ok (.entries (s.readIf uuid first last predicate), s)
  | .removeRange uuid first last => (s.removeRange uuid first last).map fun s => (.nothing, s)

def RocksdbStorage.call (s : RocksdbStorage) : StorageCall → Except StorageFault (StorageReply × RocksdbStorage)
  | .create uuid key value => (s.create uuid key value).map fun r => (.result r.1, r.2)
  | .read uuid key => .ok (.value (s.read uuid key), s)
  | .update uuid key value => (s.update uuid key value).map fun r => (.result r.1, r.2)
  | .remove uuid key => (s.remove uuid key).map fun r => (.result r.1, r.2)
  | .has uuid key => .ok (.found (s.has uuid key), s)
  | .getKeys uuid => .ok (.keys (s.getKeys uuid), s)
  | .getKeysIf uuid first last predicate => .ok (.keys (s.getKeysIf uuid first last predicate), s)
  | .readIf uuid first last predicate => .ok (.entries (s.readIf uuid first last predicate), s)
  | .removeRange uuid first last => .ok (.nothing, s.removeRange uuid first last)

/-- The replies to calls one after another. -/
def replies {σ : Type} (call : σ → StorageCall → Except StorageFault (StorageReply × σ)) (s : σ) :
    List StorageCall → Except StorageFault (List StorageReply)
  | [] => .ok []
  | c :: calls => do
    let r ← call s c
    let rest ← replies call r.2 calls
    pure (r.1 :: rest)

/-- No uuid begins with another one, or overlaps the metadata. -/
structure Apart (uuids : List Bytes) : Prop where
  notPrefix : ∀ u ∈ uuids, ∀ v ∈ uuids, u ≠ v → ¬ u <+: v
  notMetadata : ∀ u ∈ uuids, ¬ u <+: RocksdbStorage.metadataUuid ∧ ¬ RocksdbStorage.metadataUuid <+: u

theorem Apart.generateKey_eq_iff {uuids : List Bytes} (h : Apart uuids) {u v k k' : Bytes} (hu : u ∈ uuids)
    (hv : v ∈ uuids) : RocksdbStorage.generateKey u k = RocksdbStorage.generateKey v k' ↔ u = v ∧ k = k' := by
  constructor
  · intro heq
    have huv : u = v := by
      by_contra hne
      have hv' : v <+: u ++ k := ⟨k', heq.symm⟩
      rcases Overlap.of_begins (List.prefix_append u k) hv' with hp | hp
      · exact h.notPrefix u hu v hv hne hp
      · exact h.notPrefix v hv u hu (Ne.symm hne) hp
    subst huv
    exact ⟨rfl, List.append_cancel_left heq⟩
  · rintro ⟨rfl, rfl⟩
    rfl

/-- A key of a uuid is not among the metadata. -/
theorem Apart.not_metadata {uuids : List Bytes} (h : Apart uuids) {u k : Bytes} (hu : u ∈ uuids) :
    ¬ RocksdbStorage.metadataUuid <+: u ++ k := fun hm =>
  (Overlap.of_begins (List.prefix_append u k) hm).elim (h.notMetadata u hu).1 (h.notMetadata u hu).2

/-! ## The map on disk -/

namespace RocksdbStorage

/-- Under the metadata there are only numbers. -/
def Numeric (s : RocksdbStorage) : Prop :=
  ∀ r v, metadataUuid <+: r → s.db[r]? = some v → (lexicalCast32 v).isSome

variable {uuids : List Bytes} {s : RocksdbStorage} {uuid metadataKey key : Bytes}

theorem metadataUuid_begins (uuid metadataKey key : Bytes) :
    metadataUuid <+: generateKey (metadataUuid ++ uuid ++ metadataKey) key := by
  exact List.prefix_append _ _

theorem Numeric.getMetadataSize (h : s.Numeric) (uuid metadataKey key : Bytes) :
    ∃ n, s.getMetadataSize uuid metadataKey key = .ok n := by
  cases hr : s.db[generateKey (metadataUuid ++ uuid ++ metadataKey) key]? with
  | none => exact ⟨0, getMetadataSize_of_none hr⟩
  | some v =>
    obtain ⟨n, hn⟩ := Option.isSome_iff_exists.mp (h _ v (metadataUuid_begins uuid metadataKey key) hr)
    exact ⟨n, by rw [RocksdbStorage.getMetadataSize, hr]; simp only [hn]⟩

theorem Numeric.updateMetadataSize (h : s.Numeric) (size : UInt32) :
    (s.updateMetadataSize uuid metadataKey key size).Numeric := by
  intro r v hm hr
  rw [RocksdbStorage.updateMetadataSize, Map.lookup_insert] at hr
  split at hr
  · cases hr
    rw [lexicalCast32_decimal]
    rfl
  · exact h r v hm hr

/-- Removing entries leaves only numbers. -/
theorem Numeric.of_fewer {s' : RocksdbStorage} (h : s.Numeric)
    (hf : ∀ r v : Bytes, s'.db[r]? = some v → s.db[r]? = some v) :
    s'.Numeric :=
  fun r v hm hr => h r v hm (hf r v hr)

theorem numeric_erase (h : s.Numeric) (r : Bytes) : Numeric ⟨s.db.erase r⟩ := by
  refine h.of_fewer fun r' v hr => ?_
  rw [Map.lookup_erase] at hr
  split at hr
  · cases hr
  · exact hr

theorem numeric_insert (ha : Apart uuids) (hu : uuid ∈ uuids) (h : s.Numeric) (key value : Bytes) :
    Numeric ⟨s.db.insert (generateKey uuid key) value⟩ := by
  intro r v hm hr
  rw [Map.lookup_insert] at hr
  split at hr
  · rename_i heq
    rw [← heq] at hm
    exact absurd hm (ha.not_metadata hu)
  · exact h r v hm hr

variable {v : Bytes}

section

variable (ha : Apart uuids)
include ha

theorem read_insert (hu : uuid ∈ uuids) (key value : Bytes) (hv : v ∈ uuids) (k : Bytes) :
    read ⟨s.db.insert (generateKey uuid key) value⟩ v k = if uuid = v ∧ key = k then some value else s.read v k := by
  simp only [read, Map.lookup_insert, ha.generateKey_eq_iff hu hv]

theorem read_erase (hu : uuid ∈ uuids) (key : Bytes) (hv : v ∈ uuids) (k : Bytes) :
    read ⟨s.db.erase (generateKey uuid key)⟩ v k = if uuid = v ∧ key = k then none else s.read v k := by
  simp only [read, Map.lookup_erase, ha.generateKey_eq_iff hu hv]

/-- The sizes are not among the keys of a uuid. -/
theorem read_updateMetadataSize (size : UInt32) (hv : v ∈ uuids) (k : Bytes) :
    (s.updateMetadataSize uuid metadataKey key size).read v k = s.read v k := by
  rw [read, updateMetadataSize, Map.lookup_insert, if_neg]
  · rfl
  · exact fun h => ha.not_metadata hv (h ▸ metadataUuid_begins uuid metadataKey key)

theorem read_deleteMetadataSize (hv : v ∈ uuids) (k : Bytes) :
    (s.deleteMetadataSize uuid metadataKey key).read v k = s.read v k := by
  rw [read, deleteMetadataSize, Map.lookup_erase, if_neg]
  · rfl
  · exact fun h => ha.not_metadata hv (h ▸ metadataUuid_begins uuid metadataKey key)

/-- A range of keys of one uuid. -/
theorem read_removeRange (hu : uuid ∈ uuids) (first last : Bytes) (hv : v ∈ uuids) (k : Bytes) :
    (s.removeRange uuid first last).read v k =
      if uuid = v ∧ ¬ k < first ∧ k < last then none else s.read v k := by
  have hiff : ((compare (generateKey v k) (generateKey uuid first)).isGE ∧
      (compare (generateKey v k) (generateKey uuid last)).isLT) ↔ uuid = v ∧ ¬ k < first ∧ k < last := by
    rw [isGE_compare_iff, isLT_compare_iff]
    constructor
    · rintro ⟨hge, hlt⟩
      -- what lies between two keys of a uuid begins with it
      have hp : uuid <+: generateKey v k := prefix_of_between
        (fun h => not_append_lt_self uuid first (List.lt_of_le_of_lt (List.not_lt.mp hge) h)) hlt
        (List.prefix_append uuid last)
      obtain ⟨k', hk'⟩ := hp
      obtain ⟨rfl, rfl⟩ := (ha.generateKey_eq_iff hu hv).mp hk'
      exact ⟨rfl, fun h => hge ((append_lt_append_iff uuid).mpr h), (append_lt_append_iff uuid).mp hlt⟩
    · rintro ⟨rfl, hge, hlt⟩
      exact ⟨fun h => hge ((append_lt_append_iff uuid).mp h), (append_lt_append_iff uuid).mpr hlt⟩
  simp only [read, removeRange, Map.lookup_eraseRange, hiff]

end

/-! ## Ranges -/

/-- The entries of a uuid within a range are a part of all its entries. -/
theorem doIf_eq (s : RocksdbStorage) (uuid first last : Bytes) (predicate : Option (Bytes → Bytes → Bool)) :
    s.doIf uuid first last predicate =
      ((s.startingWith uuid).map fun e => (e.1.drop uuid.length, e.2)).filter fun e =>
        (decide (¬ e.1 < first) && (last.isEmpty || decide (e.1 < last))) && predicate.all fun p => p e.1 e.2 := by
  let valid (k : Bytes) : Bool := uuid.isPrefixOf k && decide (¬ k < uuid ++ first) &&
    ((if last.isEmpty then [] else uuid ++ last).isEmpty || decide (k < if last.isEmpty then [] else uuid ++ last))
  have hvalid : ∀ a b : Bytes, (compare a (uuid ++ first)).isGE → compare a b = .lt → valid b → valid a := by
    intro a b hge hab hb
    rw [isGE_compare_iff] at hge
    rw [compare_eq_lt_iff] at hab
    simp only [valid, Bool.and_eq_true, Bool.or_eq_true, decide_eq_true_eq] at hb ⊢
    refine ⟨⟨?_, hge⟩, hb.2.imp_right fun h => List.lt_trans hab h⟩
    refine List.isPrefixOf_iff_prefix.mpr (prefix_of_between (fun h => ?_) hab (List.isPrefixOf_iff_prefix.mp hb.1.1))
    exact not_append_lt_self uuid first (List.lt_of_le_of_lt (List.not_lt.mp hge) h)
  have hscan := fun m : Map Bytes Bytes => m.scan_eq_filter hvalid
  rw [doIf]
  simp only [valid] at hscan
  simp only [hscan]
  rw [startingWith, Map.scan_startingWith, List.filter_map, List.filter_filter, List.filter_map, List.filter_filter]
  congr 1
  refine List.filter_congr fun e _ => ?_
  rw [Bool.eq_iff_iff]
  simp only [Function.comp_apply, Bool.and_eq_true, Bool.or_eq_true, decide_eq_true_eq, isGE_compare_iff,
    List.isEmpty_iff]
  -- both sides say that the key begins with the uuid; what follows is compared
  by_cases hp : uuid <+: e.1
  · obtain ⟨k, hk⟩ := hp
    rw [← hk, List.drop_left, append_lt_append_iff]
    by_cases hl : last = []
    · simp only [hl]
      tauto
    · simp only [hl, if_false, append_lt_append_iff, List.append_eq_nil_iff]
      tauto
  · simp [hp]

end RocksdbStorage

namespace MemStorage

variable {first : Bytes}

theorem read_removeRange_of_ok {s s' : MemStorage} {uuid last : Bytes} (h : s.removeRange uuid first last = .ok s')
    (v k : Bytes) : s'.read v k = if uuid = v ∧ ¬ k < first ∧ k < last then none else s.read v k := by
  have hsnd : ∀ (l : List (Bytes × Bytes)) (db : UInt32 × Map Bytes Bytes),
      (l.foldl (fun db e => (db.1 - UInt32.ofNat (e.2.length + e.1.length), db.2.erase e.1)) db).2 =
        l.foldl (fun m e => m.erase e.1) db.2 := by
    intro l
    induction l with
    | nil => exact fun _ => rfl
    | cons _ _ ih => exact fun db => ih _
  have hmatched : k ∈ ((s.inner uuid).2.toList.filter fun e =>
    decide (¬ e.1 < first) && decide (e.1 < last)).map Prod.fst ↔
      (s.read uuid k).isSome ∧ ¬ k < first ∧ k < last := by
    simp only [List.mem_map, List.mem_filter, Prod.exists, exists_and_right, exists_eq_right, Map.mem_toList_iff,
      Bool.and_eq_true, decide_eq_true_eq, read, Option.isSome_iff_exists]
  rw [removeRange] at h
  split at h
  · cases h
  · split at h
    · cases h
      by_cases hv : uuid = v
      · subst hv
        rw [read, inner_insert, if_pos rfl, hsnd, Map.lookup_foldl_erase]
        by_cases hin : ¬ k < first ∧ k < last
        · by_cases hk : (s.read uuid k).isSome
          · rw [if_pos (hmatched.mpr ⟨hk, hin⟩), if_pos ⟨rfl, hin⟩]
          · rw [if_neg fun h => hk (hmatched.mp h).1, if_pos ⟨rfl, hin⟩]
            exact Option.not_isSome_iff_eq_none.mp hk
        · rw [if_neg fun h => hin (hmatched.mp h).2, if_neg fun h => hin h.2]
          rfl
      · rw [read, inner_insert, if_neg hv, if_neg fun h => hv h.1]
        rfl
    · rename_i hnone
      cases h
      split
      · rename_i hv
        rw [← hv.1, read, inner, Std.ExtTreeMap.getElem?_eq_none_of_contains_eq_false (Bool.eq_false_iff.mpr hnone)]
        exact Map.lookup_empty k
      · rfl

theorem removeRange_ok (s : MemStorage) (uuid : Bytes) {last : Bytes} (h : first ≤ last) :
    ∃ s', s.removeRange uuid first last = .ok s' := by
  rw [removeRange, if_neg]
  · split
    · exact ⟨_, rfl⟩
    · exact ⟨_, rfl⟩
  · rw [List.any_eq_true]
    rintro ⟨e, -, he⟩
    rw [Bool.and_eq_true, decide_eq_true_eq, decide_eq_true_eq] at he
    exact List.not_lt.mpr h (List.lt_of_le_of_lt (List.not_lt.mp he.1) he.2)

theorem doIf_eq_filter (s : MemStorage) (uuid first last : Bytes) (predicate : Option (Bytes → Bytes → Bool)) :
    s.doIf uuid first last predicate = (s.inner uuid).2.toList.filter fun e =>
      (decide (¬ e.1 < first) && (last.isEmpty || decide (e.1 < last))) && predicate.all fun p => p e.1 e.2 := by
  rw [doIf]
  split
  · rename_i h
    refine (List.filter_eq_nil_iff.mpr fun e _ he => ?_).symm
    simp only [Bool.and_eq_true, Bool.or_eq_true, decide_eq_true_eq, List.isEmpty_iff] at he
    exact h.2 (List.lt_of_le_of_lt (List.not_lt.mp he.1.1) (he.1.2.resolve_left h.1))
  · rfl

theorem mem_readIf_from {s : MemStorage} {uuid : Bytes} {predicate : Bytes → Bytes → Bool} {name value : Bytes} :
    (name, value) ∈ s.readIf uuid first [] (some predicate) ↔
      s.read uuid name = some value ∧ ¬ name < first ∧ predicate name value := by
  rw [readIf, doIf_eq_filter]
  simp [read]

end MemStorage

/-! ## The simulation -/

/-- The map on disk stands for the maps in memory, as far as some uuids go. -/
structure Agree (uuids : List Bytes) (s : RocksdbStorage) (m : MemStorage) : Prop where
  values : ∀ u ∈ uuids, ∀ k, s.read u k = m.read u k
  numeric : s.Numeric

section

variable {uuids : List Bytes} {s : RocksdbStorage} {m : MemStorage} {uuid : Bytes}

section

variable (h : Agree uuids s m) (hu : uuid ∈ uuids)
include h hu

theorem Agree.hasPriv (key : Bytes) : s.hasPriv uuid key = (m.read uuid key).isSome := by
  rw [RocksdbStorage.hasPriv_eq, h.values uuid hu]

theorem Agree.entries : (s.startingWith uuid).map (fun e => (e.1.drop uuid.length, e.2)) = (m.inner uuid).2.toList :=
  RocksdbStorage.startingWith_map_drop (h.values uuid hu)

theorem Agree.doIf (first last : Bytes) (predicate : Option (Bytes → Bytes → Bool)) :
      s.doIf uuid first last predicate = m.doIf uuid first last predicate := by
  rw [RocksdbStorage.doIf_eq, h.entries hu, MemStorage.doIf_eq_filter]

end

section

variable (ha : Apart uuids) (h : Agree uuids s m) (hu : uuid ∈ uuids)
include ha h hu

theorem Agree.create (key value : Bytes) :
    ∃ s', s.create uuid key value = .ok ((m.create uuid key value).1, s') ∧
      Agree uuids s' (m.create uuid key value).2 := by
  by_cases hok : (m.create uuid key value).1 = .ok
  · obtain ⟨hv, hk, hr⟩ := (MemStorage.create_result_iff m uuid key value).mp hok
    obtain ⟨n, hn⟩ := h.numeric.getMetadataSize uuid RocksdbStorage.namespaceKey RocksdbStorage.sizeKey
    rw [RocksdbStorage.create, if_neg (by omega), if_neg (by omega), if_neg (by simp [h.hasPriv hu, hr]), hn, hok]
    refine ⟨_, rfl, fun u hu' k => ?_, ?_⟩
    · rw [RocksdbStorage.read_updateMetadataSize ha _ hu', RocksdbStorage.read_updateMetadataSize ha _ hu',
        RocksdbStorage.read_insert ha hu key value hu', MemStorage.read_create hok, h.values u hu']
    · exact ((RocksdbStorage.numeric_insert ha hu h.numeric key value).updateMetadataSize _).updateMetadataSize _
  · refine ⟨s, ?_, by rwa [MemStorage.create_eq_of_ne_ok hok]⟩
    revert hok
    rw [RocksdbStorage.create, MemStorage.create, h.hasPriv hu]
    split
    · exact fun _ => rfl
    · split
      · exact fun _ => rfl
      · split
        · exact fun _ => rfl
        · exact fun hok => absurd rfl hok

theorem Agree.update (key value : Bytes) :
    ∃ s', s.update uuid key value = .ok ((m.update uuid key value).1, s') ∧
      Agree uuids s' (m.update uuid key value).2 := by
  by_cases hok : (m.update uuid key value).1 = .ok
  · obtain ⟨hv, hr⟩ := (MemStorage.update_result_iff m uuid key value).mp hok
    obtain ⟨n, hn⟩ := h.numeric.getMetadataSize uuid RocksdbStorage.sizeKey key
    obtain ⟨n', hn'⟩ := h.numeric.getMetadataSize uuid RocksdbStorage.namespaceKey RocksdbStorage.sizeKey
    rw [RocksdbStorage.update, if_neg (by omega), if_pos (by rw [h.hasPriv hu, hr]), hn, hn', hok]
    refine ⟨_, rfl, fun u hu' k => ?_, ?_⟩
    · rw [RocksdbStorage.read_updateMetadataSize ha _ hu', RocksdbStorage.read_updateMetadataSize ha _ hu',
        RocksdbStorage.read_insert ha hu key value hu', MemStorage.read_update hok, h.values u hu']
    · exact ((RocksdbStorage.numeric_insert ha hu h.numeric key value).updateMetadataSize _).updateMetadataSize _
  · refine ⟨s, ?_, by rwa [MemStorage.update_eq_of_ne_ok hok]⟩
    revert hok
    rw [RocksdbStorage.update, MemStorage.update, h.hasPriv hu]
    split
    · exact fun _ => rfl
    · cases m.read uuid key with
      | none => exact fun _ => rfl
      | some => exact fun hok => absurd rfl hok

theorem Agree.remove (key : Bytes) :
    ∃ s', s.remove uuid key = .ok ((m.remove uuid key).1, s') ∧ Agree uuids s' (m.remove uuid key).2 := by
  cases hr : m.read uuid key with
  | none =>
    rw [RocksdbStorage.remove, if_neg (by simp [h.hasPriv hu, hr]),
      MemStorage.remove, hr]
    exact ⟨s, rfl, h⟩
  | some =>
    have hsome : (m.read uuid key).isSome := Option.isSome_of_eq_some hr
    obtain ⟨n, hn⟩ := h.numeric.getMetadataSize uuid RocksdbStorage.sizeKey key
    obtain ⟨n', hn'⟩ := h.numeric.getMetadataSize uuid RocksdbStorage.namespaceKey RocksdbStorage.sizeKey
    rw [RocksdbStorage.remove, if_pos (by rw [h.hasPriv hu, hsome]), hn, hn', MemStorage.remove_result_iff.mpr hsome]
    refine ⟨_, rfl, fun u hu' k => ?_, ?_⟩
    · rw [RocksdbStorage.read_deleteMetadataSize ha hu', RocksdbStorage.read_updateMetadataSize ha _ hu',
        RocksdbStorage.read_erase ha hu key hu', MemStorage.read_remove, h.values u hu']
    · exact RocksdbStorage.numeric_erase ((RocksdbStorage.numeric_erase h.numeric _).updateMetadataSize _) _

end

/-- A call has the same reply on both, and keeps the agreement. -/
theorem call_agree (ha : Apart uuids) (h : Agree uuids s m) (c : StorageCall) (hu : c.uuid ∈ uuids)
    (hrange : ∀ uuid first last, c = .removeRange uuid first last → first ≤ last) :
    ∃ r s' m', s.call c = .ok (r, s') ∧ m.call c = .ok (r, m') ∧ Agree uuids s' m' := by
  cases c with
  | create uuid key value =>
    have hu : uuid ∈ uuids := hu
    obtain ⟨s', hs, h'⟩ := h.create ha hu key value
    exact ⟨_, s', _, by rw [RocksdbStorage.call, hs]; rfl, rfl, h'⟩
  | read uuid => exact ⟨_, s, m, rfl, by rw [MemStorage.call, ← h.values uuid hu], h⟩
  | update uuid key value =>
    have hu : uuid ∈ uuids := hu
    obtain ⟨s', hs, h'⟩ := h.update ha hu key value
    exact ⟨_, s', _, by rw [RocksdbStorage.call, hs]; rfl, rfl, h'⟩
  | remove uuid key =>
    have hu : uuid ∈ uuids := hu
    obtain ⟨s', hs, h'⟩ := h.remove ha hu key
    exact ⟨_, s', _, by rw [RocksdbStorage.call, hs]; rfl, rfl, h'⟩
  | has uuid =>
    have hu : uuid ∈ uuids := hu
    exact ⟨_, s, m, by rw [RocksdbStorage.call, RocksdbStorage.has, h.hasPriv hu, ← MemStorage.has_eq], rfl, h⟩
  | getKeys uuid =>
    have hu : uuid ∈ uuids := hu
    refine ⟨_, s, m, ?_, rfl, h⟩
    rw [MemStorage.getKeys, ← h.entries hu, List.map_map]
    rfl
  | getKeysIf uuid =>
    have hu : uuid ∈ uuids := hu
    exact ⟨_, s, m, by rw [RocksdbStorage.call, RocksdbStorage.getKeysIf, h.doIf hu]; rfl, rfl, h⟩
  | readIf uuid =>
    have hu : uuid ∈ uuids := hu
    exact ⟨_, s, m, by rw [RocksdbStorage.call, RocksdbStorage.readIf, h.doIf hu]; rfl, rfl, h⟩
  | removeRange uuid first last =>
    have hu : uuid ∈ uuids := hu
    obtain ⟨m', hm⟩ := m.removeRange_ok uuid (hrange uuid first last rfl)
    refine ⟨_, _, m', rfl, by rw [MemStorage.call, hm]; rfl, fun u hu' k => ?_, ?_⟩
    · rw [RocksdbStorage.read_removeRange ha hu first last hu', MemStorage.read_removeRange_of_ok hm, h.values u hu']
    · refine h.numeric.of_fewer fun r v hr => ?_
      rw [RocksdbStorage.removeRange, Map.lookup_eraseRange] at hr
      split at hr
      · cases hr
      · exact hr

theorem replies_agree (ha : Apart uuids) (calls : List StorageCall) (h : Agree uuids s m)
    (hu : ∀ c ∈ calls, c.uuid ∈ uuids)
    (hrange : ∀ uuid first last, .removeRange uuid first last ∈ calls → first ≤ last) :
    ∃ rs, replies RocksdbStorage.call s calls = .ok rs ∧ replies MemStorage.call m calls = .ok rs := by
  induction calls generalizing s m with
  | nil => exact ⟨[], rfl, rfl⟩
  | cons c _ ih =>
    obtain ⟨r, s', m', hs, hm, h'⟩ := call_agree ha h c (hu c (List.mem_cons_self ..)) fun uuid first last hc =>
      hrange uuid first last (hc ▸ List.mem_cons_self ..)
    obtain ⟨rs, hrs, hrm⟩ := ih h' (fun d hd => hu d (List.mem_cons_of_mem c hd)) fun uuid first last hd =>
      hrange uuid first last (List.mem_cons_of_mem c hd)
    refine ⟨r :: rs, ?_, ?_⟩
    · rw [replies, hs]
      simp only [bind, Except.bind, hrs, pure, Except.pure]
    · rw [replies, hm]
      simp only [bind, Except.bind, hrm, pure, Except.pure]

end

/-- Every sequence of calls on uuids that are apart has the same replies in
memory and on disk. -/
theorem backends_agree (calls : List StorageCall) (ha : Apart (calls.map StorageCall.uuid))
    (hrange : ∀ uuid first last, .removeRange uuid first last ∈ calls → first ≤ last) :
    ∃ rs, replies MemStorage.call default calls = .ok rs ∧ replies RocksdbStorage.call default calls = .ok rs := by
  have hempty : Agree (calls.map StorageCall.uuid) default default := by
    refine ⟨fun u _ k => ?_, fun r v _ hr => ?_⟩
    · rw [MemStorage.read_default]
      exact Map.lookup_empty _
    · rw [show (default : RocksdbStorage).db = ∅ from rfl, Map.lookup_empty] at hr
      cases hr
  obtain ⟨rs, hs, hm⟩ := replies_agree ha calls hempty (fun c hc => List.mem_map_of_mem hc) hrange
  exact ⟨rs, hm, hs⟩

/-- The two uuids of the consensus store. -/
theorem backends_agree_pbft :
    let calls : List StorageCall := [.create (ascii "pbftstate") (ascii "view") (ascii "1"),
      .create (ascii "pbft_operations_data") (ascii "0") (ascii "op"), .readIf (ascii "pbftstate") [] [] none,
      .removeRange (ascii "pbft_operations_data") (ascii "0") (ascii "1"), .getKeys (ascii "pbft_operations_data")]
    ∃ rs, replies MemStorage.call default calls = .ok rs ∧ replies RocksdbStorage.call default calls = .ok rs := by
  refine backends_agree _ ⟨by decide, by decide⟩ fun uuid first last h => ?_
  simp only [List.mem_cons, reduceCtorEq, StorageCall.removeRange.injEq, false_or, List.not_mem_nil, or_false] at h
  obtain ⟨-, rfl, rfl⟩ := h
  decide

end SwarmDb
