import SwarmDb.Storage.RocksdbStorage

/-!
# The namespaces of the storage on disk

`rocksdb_storage` keeps all uuids in one map without a separator between a uuid
and a key. A write to one uuid leaves what is seen of another as it is, for
every map and every write, exactly when the two are `Separate`
(`view_after_iff`): no string begins with both, and neither lies where the
other's sizes are.
-/

namespace SwarmDb.RocksdbStorage

open Lib

/-- A call that writes to a uuid. -/
inductive Write where
  | create (key value : Bytes)
  | update (key value : Bytes)
  | remove (key : Bytes)
  | removeAll
  | removeRange (first last : Bytes)

/-- What is there after a call, which changes nothing when it throws. -/
def kept (s : RocksdbStorage) : Except StorageFault (StorageResult × RocksdbStorage) → RocksdbStorage
  | .ok r => r.2
  | .error _ => s

def after (s : RocksdbStorage) (uuid : Bytes) : Write → RocksdbStorage
  | .create key value => s.kept (s.create uuid key value)
  | .update key value => s.kept (s.update uuid key value)
  | .remove key => s.kept (s.remove uuid key)
  | .removeAll => (s.removeAll uuid).2
  | .removeRange first last => s.removeRange uuid first last

/-- What the calls that only read show of a uuid. -/
structure View where
  read : Bytes → Option Bytes
  has : Bytes → Bool
  getKeys : List Bytes
  getSize : Except StorageFault (Nat × UInt64)
  getKeySize : Bytes → Except StorageFault (Option UInt64)

def view (s : RocksdbStorage) (uuid : Bytes) : View :=
  ⟨s.read uuid, s.has uuid, s.getKeys uuid, s.getSize uuid, s.getKeySize uuid⟩

/-- The uuids are apart: their keys, the keys of the second and the sizes of the
first, and the keys of the first and the sizes that are read for the second. -/
structure Separate (uuid uuid' : Bytes) : Prop where
  keys : ¬ Overlap uuid uuid'
  sizes : ¬ Overlap (metadataUuid ++ uuid) uuid'
  namespaceSize : ¬ uuid <+: generateKey (metadataUuid ++ uuid' ++ namespaceKey) sizeKey
  keySizes : ¬ Overlap uuid (metadataUuid ++ uuid' ++ sizeKey)

/-! ## What a write changes -/

/-- Nothing is changed but the keys of a uuid and its sizes. -/
def Within (uuid : Bytes) (s s' : RocksdbStorage) : Prop :=
  ∀ r, ¬ uuid <+: r → ¬ metadataUuid ++ uuid <+: r → s'.db[r]? = s.db[r]?

section

variable {uuid : Bytes} {s s' : RocksdbStorage}

theorem Within.refl (uuid : Bytes) (s : RocksdbStorage) : Within uuid s s := fun _ _ _ => rfl

theorem Within.trans {s'' : RocksdbStorage} (h : Within uuid s s') (h' : Within uuid s' s'') : Within uuid s s'' :=
  fun r hk hm => (h' r hk hm).trans (h r hk hm)

section

variable (s : RocksdbStorage) (uuid metadataKey key value : Bytes)

theorem within_insert : Within uuid s ⟨s.db.insert (generateKey uuid key) value⟩ := by
  intro r hk _
  rw [Map.lookup_insert, if_neg]
  rintro rfl
  exact hk (List.prefix_append uuid key)

theorem within_erase : Within uuid s ⟨s.db.erase (generateKey uuid key)⟩ := by
  intro r hk _
  rw [Map.lookup_erase, if_neg]
  rintro rfl
  exact hk (List.prefix_append uuid key)

theorem prefix_metadata : metadataUuid ++ uuid <+: generateKey (metadataUuid ++ uuid ++ metadataKey) key := by
  rw [generateKey, List.append_assoc]
  exact List.prefix_append _ _

theorem within_updateMetadataSize (size : UInt32) :
    Within uuid s (s.updateMetadataSize uuid metadataKey key size) := by
  intro r _ hm
  rw [updateMetadataSize, Map.lookup_insert, if_neg]
  rintro rfl
  exact hm (prefix_metadata uuid metadataKey key)

theorem within_deleteMetadataSize : Within uuid s (s.deleteMetadataSize uuid metadataKey key) := by
  intro r _ hm
  rw [deleteMetadataSize, Map.lookup_erase, if_neg]
  rintro rfl
  exact hm (prefix_metadata uuid metadataKey key)

theorem within_create : Within uuid s (s.kept (s.create uuid key value)) := by
  rw [create]
  split
  · exact .refl uuid s
  · split
    · exact .refl uuid s
    · split
      · exact .refl uuid s
      · cases s.getMetadataSize uuid namespaceKey sizeKey with
        | error => exact .refl uuid s
        | ok =>
          exact ((within_insert s uuid key value).trans (within_updateMetadataSize _ uuid _ _ _)).trans
            (within_updateMetadataSize _ uuid _ _ _)

theorem within_update : Within uuid s (s.kept (s.update uuid key value)) := by
  rw [update]
  split
  · exact .refl uuid s
  · split
    · cases s.getMetadataSize uuid sizeKey key with
      | error => exact .refl uuid s
      | ok =>
        cases s.getMetadataSize uuid namespaceKey sizeKey with
        | error => exact .refl uuid s
        | ok =>
          exact ((within_insert s uuid key value).trans (within_updateMetadataSize _ uuid _ _ _)).trans
            (within_updateMetadataSize _ uuid _ _ _)
    · exact .refl uuid s

theorem within_remove : Within uuid s (s.kept (s.remove uuid key)) := by
  rw [remove]
  split
  · cases s.getMetadataSize uuid sizeKey key with
    | error => exact .refl uuid s
    | ok =>
      cases s.getMetadataSize uuid namespaceKey sizeKey with
      | error => exact .refl uuid s
      | ok =>
        exact ((within_erase s uuid key).trans (within_updateMetadataSize _ uuid _ _ _)).trans
          (within_deleteMetadataSize _ uuid _ _)
  · exact .refl uuid s

theorem within_removeAll : Within uuid s (s.removeAll uuid).2 := by
  intro r hk hm
  rw [lookup_removeAll, if_neg (not_or.mpr ⟨hk, hm⟩)]

/-- The strings between two keys of a uuid begin with it. -/
theorem within_removeRange (first last : Bytes) : Within uuid s (s.removeRange uuid first last) := by
  intro r hk _
  rw [removeRange, Map.lookup_eraseRange, if_neg]
  rintro ⟨hge, hlt⟩
  rw [isGE_compare_iff] at hge
  rw [isLT_compare_iff] at hlt
  refine hk (prefix_of_between (fun h => ?_) hlt (List.prefix_append uuid last))
  exact not_append_lt_self uuid first (List.lt_of_le_of_lt (List.not_lt.mp hge) h)

theorem within_after (w : Write) : Within uuid s (s.after uuid w) := by
  cases w with
  | create key value => exact within_create s uuid key value
  | update key value => exact within_update s uuid key value
  | remove key => exact within_remove s uuid key
  | removeAll => exact within_removeAll s uuid
  | removeRange first last => exact within_removeRange s uuid first last

end

/-! ## What is seen -/

theorem startingWith_congr (h : ∀ r, uuid <+: r → s'.db[r]? = s.db[r]?) : s'.startingWith uuid = s.startingWith uuid :=
  Map.scan_startingWith_congr h

theorem getMetadataSize_congr {metadataKey key : Bytes}
    (h : s'.db[generateKey (metadataUuid ++ uuid ++ metadataKey) key]? =
      s.db[generateKey (metadataUuid ++ uuid ++ metadataKey) key]?) :
    s'.getMetadataSize uuid metadataKey key = s.getMetadataSize uuid metadataKey key := by
  rw [getMetadataSize, getMetadataSize, h]

/-- A uuid is seen through its keys and their sizes. -/
theorem view_congr (hkeys : ∀ r, uuid <+: r → s'.db[r]? = s.db[r]?)
    (hns : s'.db[generateKey (metadataUuid ++ uuid ++ namespaceKey) sizeKey]? =
      s.db[generateKey (metadataUuid ++ uuid ++ namespaceKey) sizeKey]?)
    (hsizes : ∀ key : Bytes, s'.db[generateKey (metadataUuid ++ uuid ++ sizeKey) key]? =
      s.db[generateKey (metadataUuid ++ uuid ++ sizeKey) key]?) : s'.view uuid = s.view uuid := by
  have hstart := startingWith_congr hkeys
  have hread : s'.read uuid = s.read uuid := funext fun key => hkeys _ (List.prefix_append uuid key)
  have hhas : s'.has uuid = s.has uuid := funext fun key => by rw [has, has, hasPriv_eq, hasPriv_eq, hread]
  have hkeySize : s'.getKeySize uuid = s.getKeySize uuid := funext fun key => by
    rw [getKeySize, getKeySize, hasPriv_eq, hasPriv_eq, hread, getMetadataSize_congr (hsizes key)]
  rw [view, view, hread, hhas, getKeys, getKeys, hstart, getSize, getSize, hstart, getMetadataSize_congr hns, hkeySize]

variable {uuid' : Bytes}

theorem Separate.view_eq (h : Separate uuid uuid') (hw : Within uuid s s') : s'.view uuid' = s.view uuid' := by
  have hmeta : ∀ k key, ¬ metadataUuid ++ uuid <+: generateKey (metadataUuid ++ uuid' ++ k) key := fun k key hp =>
    h.keys (Overlap.of_append_left (Overlap.of_begins hp (prefix_metadata uuid' k key)))
  refine view_congr (fun r hr => ?_) ?_ fun key => ?_
  · exact hw r (fun hk => h.keys (.of_begins hk hr)) fun hm => h.sizes (.of_begins hm hr)
  · exact hw _ h.namespaceSize (hmeta _ _)
  · exact hw _ (fun hk => h.keySizes (.of_begins hk (List.prefix_append _ key))) (hmeta _ _)

/-! ## Uuids that are not apart -/

/-- Where a string begins with both uuids, or with the second and the metadata of
the first, a key of the second is lost with the first. -/
theorem view_ne_of_removed {r : Bytes} (h' : uuid' <+: r) (h : uuid <+: r ∨ metadataUuid ++ uuid <+: r) :
    ∃ s : RocksdbStorage, (s.after uuid .removeAll).view uuid' ≠ s.view uuid' := by
  obtain ⟨key, rfl⟩ := h'
  refine ⟨⟨(∅ : Map Bytes Bytes).insert (uuid' ++ key) []⟩, fun heq => ?_⟩
  have hread := congrFun (congrArg View.read heq) key
  simp only [view, after, read, generateKey, lookup_removeAll, if_pos h, Map.lookup_insert, if_true] at hread
  cases hread

/-- The size of the second uuid is lost with the first. -/
theorem view_ne_of_namespaceSize (h : uuid <+: generateKey (metadataUuid ++ uuid' ++ namespaceKey) sizeKey) :
    ∃ s : RocksdbStorage, (s.after uuid .removeAll).view uuid' ≠ s.view uuid' := by
  let s : RocksdbStorage :=
    ⟨(∅ : Map Bytes Bytes).insert (generateKey (metadataUuid ++ uuid' ++ namespaceKey) sizeKey) (decimal 1)⟩
  have hbefore : s.getMetadataSize uuid' namespaceKey sizeKey = .ok 1 :=
    getMetadataSize_of_decimal (n := 1) (by rw [Map.lookup_insert, if_pos rfl]; rfl)
  have hafter : (s.after uuid .removeAll).getMetadataSize uuid' namespaceKey sizeKey = .ok 0 :=
    getMetadataSize_of_none (by rw [after, lookup_removeAll, if_pos (.inl h)])
  refine ⟨s, fun heq => ?_⟩
  have hsize := congrArg View.getSize heq
  simp only [view, getSize, hbefore, hafter] at hsize
  injection hsize with hsize
  have hne : (0 : UInt32).toUInt64 ≠ (1 : UInt32).toUInt64 := by decide
  exact hne (congrArg Prod.snd hsize)

/-- The size of a key of the second uuid is lost with the first. -/
theorem view_ne_of_keySizes (h : Overlap uuid (metadataUuid ++ uuid' ++ sizeKey)) :
    ∃ s : RocksdbStorage, (s.after uuid .removeAll).view uuid' ≠ s.view uuid' := by
  obtain ⟨r, hr, key, rfl⟩ := h.exists_common
  let s : RocksdbStorage := ⟨((∅ : Map Bytes Bytes).insert (generateKey uuid' key) []).insert
    (generateKey (metadataUuid ++ uuid' ++ sizeKey) key) (decimal 1)⟩
  have hhas : s.hasPriv uuid' key = true := by
    rw [hasPriv_eq, read, Map.lookup_insert]
    split
    · rfl
    · rw [Map.lookup_insert, if_pos rfl]
      rfl
  have hbefore : s.getMetadataSize uuid' sizeKey key = .ok 1 :=
    getMetadataSize_of_decimal (n := 1) (by rw [Map.lookup_insert, if_pos rfl]; rfl)
  have hafter : (s.after uuid .removeAll).getMetadataSize uuid' sizeKey key = .ok 0 :=
    getMetadataSize_of_none (by rw [after, lookup_removeAll, if_pos (.inl hr)])
  refine ⟨s, fun heq => ?_⟩
  have hsize := congrFun (congrArg View.getKeySize heq) key
  simp only [view, getKeySize, hbefore, hafter, hhas, if_true] at hsize
  split at hsize
  · injection hsize with hsize
    exact absurd (Option.some.inj hsize) (by decide)
  · cases hsize

/-- A write to a uuid leaves what is seen of another as it is, for every map and
every write, exactly when the two are apart. -/
theorem view_after_iff (uuid uuid' : Bytes) :
    (∀ (s : RocksdbStorage) (w : Write), (s.after uuid w).view uuid' = s.view uuid') ↔ Separate uuid uuid' := by
  constructor
  · intro h
    refine ⟨fun ho => ?_, fun ho => ?_, fun ho => ?_, fun ho => ?_⟩
    · obtain ⟨r, hr, hr'⟩ := ho.exists_common
      obtain ⟨s, hs⟩ := view_ne_of_removed hr' (.inl hr)
      exact hs (h s .removeAll)
    · obtain ⟨r, hr, hr'⟩ := ho.exists_common
      obtain ⟨s, hs⟩ := view_ne_of_removed hr' (.inr hr)
      exact hs (h s .removeAll)
    · obtain ⟨s, hs⟩ := view_ne_of_namespaceSize ho
      exact hs (h s .removeAll)
    · obtain ⟨s, hs⟩ := view_ne_of_keySizes ho
      exact hs (h s .removeAll)
  · exact fun h s w => h.view_eq (within_after s uuid w)

end

/-- A key of `a` is a key of `ab`. -/
theorem create_seen_by_other :
    let s : RocksdbStorage := default
    s.getKeys (ascii "ab") = [] ∧ (s.after (ascii "a") (.create (ascii "bc") (ascii "v"))).getKeys (ascii "ab") =
      [ascii "c"] := by
  decide +kernel

end SwarmDb.RocksdbStorage
