import SwarmDb.Crud.Reachable
import SwarmDb.Crud.TtlEviction

/-!
# The limit of a database

A create or an update that is answered with ok leaves the database within its limit (`quota_kept`), also where it had
to evict keys: either policy frees at least as many bytes as are needed (`selectRandom_frees`, `Fair`). This needs that
no database is in the place of the table of expiry times (`quota_exceeded`).
-/

namespace SwarmDb.Crud

open Lib Program MemStorage

variable {cfg : Config} {env : Env} {callerId : Bytes} {request : Request} {st : MemStorage}

theorem toNat_byteSize_le (b : Bytes) : (byteSize b).toNat ≤ b.length := by
  exact Nat.mod_le _ _

theorem toNat_byteSize {b : Bytes} (h : b.length < 2 ^ 64) : (byteSize b).toNat = b.length := by
  rw [byteSize, UInt64.toNat_ofNat_of_lt' h]

/-! ## Random -/

/-- Whatever is drawn, what is left to free and the sizes of the chosen keys are no
less than what was to be freed. No key is chosen twice. -/
theorem selectRandom_frees (st : MemStorage) (request : Request) (mt : Mt19937) (ignoreKey : Bytes) (n : Nat)
    (drawn : List Nat) (toFree : UInt64) (available keys : List Bytes) (hlength : available.length = n)
    (havailable : available.Nodup) (hkeys : keys.Nodup)
    (hdisjoint : ∀ key ∈ keys, key ∉ available) :
    let r := selectRandom mt st request ignoreKey n drawn toFree available keys
    r.2.Nodup ∧ toFree.toNat + (keys.map (st.entrySize request.dbUuid)).sum ≤
      r.1.toNat + (r.2.map (st.entrySize request.dbUuid)).sum := by
  induction n generalizing drawn toFree available keys with
  | zero => exact ⟨hkeys, le_rfl⟩
  | succ n ih =>
    rw [selectRandom]
    dsimp only
    split
    · exact ⟨hkeys, le_rfl⟩
    · have hi : mt.draw request.header.requestHash drawn n < available.length := by
        have := mt.draw_le request.header.requestHash drawn n
        omega
      generalize mt.draw request.header.requestHash drawn n = i at hi
      have hget : available.getD i [] = available[i] := List.getD_eq_getElem _ _ hi
      have hrest : (available.eraseIdx i).length = n := by rw [List.length_eraseIdx_of_lt hi, hlength]; rfl
      have hsub : ∀ key ∈ keys, key ∉ available.eraseIdx i := fun key hkey hmem =>
        hdisjoint key hkey (List.mem_of_mem_eraseIdx hmem)
      have hnodup : (available.eraseIdx i).Nodup := havailable.sublist (List.eraseIdx_sublist ..)
      split
      · exact ih _ _ _ _ hrest hnodup hkeys hsub
      · cases hsize : st.getKeySize request.dbUuid (available.getD i []) with
        | none => exact ih _ _ _ _ hrest hnodup hkeys hsub
        | some evictedSize =>
          have hmem : available.getD i [] ∈ available := hget ▸ List.getElem_mem hi
          have hnew : available.getD i [] ∉ available.eraseIdx i := by
            rw [hget, ← havailable.erase_getElem i hi]
            exact havailable.not_mem_erase
          have hevicted : evictedSize.toNat ≤ st.entrySize request.dbUuid (available.getD i []) := by
            rw [getKeySize, Option.map_eq_some_iff] at hsize
            obtain ⟨value, hvalue, rfl⟩ := hsize
            rw [entrySize_eq, hvalue]
            exact Nat.mod_le _ _
          obtain ⟨hr, hle⟩ := ih (n :: drawn) (toFree - if evictedSize < toFree then evictedSize else toFree)
            (available.eraseIdx i) (keys ++ [available.getD i []]) hrest hnodup
            (List.nodup_append.mpr ⟨hkeys, List.nodup_singleton _, fun a ha b hb => by
              rintro rfl
              exact hdisjoint _ ha (List.mem_singleton.mp hb ▸ hmem)⟩)
            (fun key hkey => by
              rcases List.mem_append.mp hkey with h | h
              · exact hsub key h
              · exact List.mem_singleton.mp h ▸ hnew)
          refine ⟨hr, le_trans ?_ hle⟩
          have := toNat_sub_min toFree evictedSize
          rw [List.map_append, List.sum_append, List.map_singleton, List.sum_singleton]
          omega

/-- The bytes of some keys of a database. -/
def bytesOf (st : MemStorage) (uuid : Bytes) (keys : List Bytes) : Nat := ∑ key ∈ keys.toFinset, st.entrySize uuid key

theorem dataSize_evict (st : MemStorage) (uuid : Bytes) (keys : List Bytes) :
    (evict st uuid keys).dataSize uuid + bytesOf st uuid keys = st.dataSize uuid := by
  refine dataSize_erased keys fun key => ?_
  rw [read_evict]
  simp only [true_and]

theorem random_frees {maxSize : UInt64} {keys : List Bytes} (h : randomKeysToEvict cfg.mt st request maxSize = keys)
    (hne : keys ≠ []) :
    (keyValueSize request - (maxSize - (st.getSize request.dbUuid).2)).toNat ≤ bytesOf st request.dbUuid keys := by
  rw [randomKeysToEvict] at h
  split at h
  · rename_i hdone
    obtain ⟨hnodup, hle⟩ := selectRandom_frees st request cfg.mt (ignoreKey request) _ []
      (keyValueSize request - (maxSize - (st.getSize request.dbUuid).2)) (st.getKeys request.dbUuid) [] rfl
      (Map.keys_nodup _) List.nodup_nil fun key hkey => absurd hkey List.not_mem_nil
    rw [hdone, h] at hle
    rw [h] at hnodup
    rw [bytesOf, List.sum_toFinset _ hnodup]
    simpa using hle
  · exact absurd h.symm hne

/-! ## Volatile TTL -/

/-- The items are of keys of the database, and none with a value is there twice. -/
structure Fair (st : MemStorage) (uuid : Bytes) (items : List TtlItem) : Prop where
  size : ∀ item ∈ items, item.valueSize.toNat ≤ st.entrySize uuid item.key
  distinct : items.Pairwise fun a b => a.key = b.key → a.valueSize = 0 ∨ b.valueSize = 0

variable {uuid key dbUuid : Bytes} {items : List TtlItem}

theorem Fair.sublist {taken : List TtlItem} (h : Fair st uuid items) (hsub : taken.Sublist items) :
    Fair st uuid taken :=
  ⟨fun item hitem => h.size item (hsub.subset hitem), h.distinct.sublist hsub⟩

theorem Fair.perm {items' : List TtlItem} (h : Fair st uuid items) (hperm : items'.Perm items) : Fair st uuid items' :=
  ⟨fun item hitem => h.size item (hperm.subset hitem),
    hperm.symm.pairwise h.distinct fun hab heq => (hab heq.symm).symm⟩

theorem Fair.sum_le (h : Fair st uuid items) :
    (items.map fun item => item.valueSize.toNat).sum ≤ bytesOf st uuid (items.map TtlItem.key) := by
  let real := items.filter fun item => item.valueSize ≠ 0
  have hreal : (items.map fun item => item.valueSize.toNat).sum = (real.map fun item => item.valueSize.toNat).sum := by
    clear h
    induction items with
    | nil => rfl
    | cons item items ih =>
      by_cases hzero : item.valueSize = 0
      · simp only [real, List.map_cons, List.filter_cons, hzero] at ih ⊢
        simpa using ih
      · simp only [real] at ih ⊢
        simp [ih, hzero]
  have hnodup : (real.map TtlItem.key).Nodup := by
    rw [List.Nodup, List.pairwise_map]
    refine (List.pairwise_filter.mpr (h.distinct.imp fun {a b} hab ha hb heq => ?_))
    rcases hab heq with hz | hz
    · exact of_decide_eq_true ha hz
    · exact of_decide_eq_true hb hz
  calc (items.map fun item => item.valueSize.toNat).sum
      = (real.map fun item => item.valueSize.toNat).sum := hreal
    _ ≤ (real.map fun item => st.entrySize uuid item.key).sum :=
        List.sum_le_sum fun item hitem => h.size item (List.mem_of_mem_filter hitem)
    _ = bytesOf st uuid (real.map TtlItem.key) := by
        rw [bytesOf, List.sum_toFinset _ hnodup, List.map_map]
        rfl
    _ ≤ bytesOf st uuid (items.map TtlItem.key) := by
        refine Finset.sum_le_sum_of_subset fun key hkey => ?_
        rw [List.mem_toFinset] at hkey ⊢
        exact (List.filter_sublist.map TtlItem.key).subset hkey

theorem extractUuidKey_eq_ok {g : Bytes} (h : extractUuidKey cfg g = .ok (uuid, key)) :
    ∃ root, cfg.json.parse g = .ok root ∧ memberString "uuid" root = .ok uuid ∧ memberString "key" root = .ok key := by
  rw [extractUuidKey] at h
  split at h
  · cases h
  · rename_i root hparse
    obtain ⟨u, hu, h⟩ := except_bind_eq_ok.mp h
    obtain ⟨k, hk, h⟩ := except_bind_eq_ok.mp h
    cases h
    exact ⟨root, hparse, hu, hk⟩

/-- An entry that is kept is one of the database. -/
theorem uuid_of_keepTtl {g ignoreKey : Bytes} (h : extractUuidKey cfg g = .ok (uuid, key))
    (hkeep : keepTtl cfg.json dbUuid ignoreKey g = .ok true) : uuid = dbUuid := by
  obtain ⟨root, hparse, huuid, -⟩ := extractUuidKey_eq_ok h
  rw [keepTtl, hparse] at hkeep
  obtain ⟨m, -, hkeep⟩ := except_bind_eq_ok.mp hkeep
  split at hkeep
  · cases hkeep
  · obtain ⟨u, hu, hkeep⟩ := except_bind_eq_ok.mp hkeep
    rw [huuid] at hu
    cases hu
    simpa using Except.ok.inj hkeep

/-- An item stands for the key that the entry is named after, or for nothing. -/
theorem getTtlItem_spec {g : Bytes} {item : TtlItem} (h : extractUuidKey cfg g = .ok (uuid, key))
    (hitem : getTtlItem cfg.json st dbUuid g = .ok item) :
    item.valueSize.toNat ≤ st.entrySize dbUuid item.key ∧ (item.valueSize ≠ 0 → item.key = key) := by
  obtain ⟨root, hparse, -, hkey⟩ := extractUuidKey_eq_ok h
  rw [getTtlItem, hparse] at hitem
  dsimp only at hitem
  rw [hkey, except_ok_bind] at hitem
  split at hitem
  · rename_i value expire hvalue hexpire
    obtain ⟨n, -, hitem⟩ := except_bind_eq_ok.mp hitem
    cases hitem
    refine ⟨?_, fun _ => rfl⟩
    have := toNat_byteSize_le value
    rw [entrySize_eq, hvalue]
    simp only [Option.elim_some]
    omega
  · cases hitem
    exact ⟨Nat.zero_le _, fun h => absurd rfl h⟩

theorem fair_ttlItems (hnamed : TtlNamed cfg st) (h : ttlItems cfg.json st request = .ok items) :
    Fair st request.dbUuid items := by
  obtain ⟨ours, hours, h⟩ := except_bind_eq_ok.mp h
  obtain ⟨hsub, hkept⟩ := sublist_of_filterM hours
  -- the key of an entry is known from its item
  have hspec : ∀ g ∈ ours, ∀ item, getTtlItem cfg.json st request.dbUuid g = .ok item →
      item.valueSize.toNat ≤ st.entrySize request.dbUuid item.key ∧
      (item.valueSize ≠ 0 → g = generateExpireKey cfg.json request.dbUuid item.key) := by
    intro g hg item hitem
    obtain ⟨uuid, key, hgen, hextract⟩ := hnamed g (mem_getKeys.mp (hsub.subset hg))
    obtain ⟨hsize, hkey⟩ := getTtlItem_spec hextract hitem
    refine ⟨hsize, fun hz => ?_⟩
    rw [hkey hz, ← uuid_of_keepTtl hextract (hkept g hg)]
    exact hgen
  have hall : List.Forall₂ (fun g item => item.valueSize.toNat ≤ st.entrySize request.dbUuid item.key ∧
      (item.valueSize ≠ 0 → g = generateExpireKey cfg.json request.dbUuid item.key)) ours items :=
    ((List.forall₂_and_left ..).mpr ⟨fun g hg => hg, forall₂_of_mapM h⟩).imp fun g item h => hspec g h.1 item h.2
  refine ⟨fun item hitem => ?_, ?_⟩
  · obtain ⟨g, -, hsize, -⟩ := exists_of_forall₂ hall hitem
    exact hsize
  · refine pairwise_of_forall₂ hall ((Map.keys_nodup _).sublist hsub) fun g g' a b hgg' ha hb heq => ?_
    by_contra hno
    rw [not_or] at hno
    exact hgg' ((ha.2 hno.1).trans (heq ▸ (hb.2 hno.2).symm))

theorem ttl_frees {maxSize : UInt64} {keys : List Bytes} (hnamed : TtlNamed cfg st)
    (h : ttlKeysToEvict cfg.json cfg.order st request maxSize = .ok keys) (hne : keys ≠ []) :
    (ttlRequired st request maxSize).toNat ≤ bytesOf st request.dbUuid keys := by
  obtain ⟨key, hkey⟩ := List.exists_mem_of_ne_nil keys hne
  obtain ⟨items, taken, hitems, htaken, rfl⟩ := exists_taken h hkey
  obtain ⟨hbegins, hle⟩ := begins_of_selection htaken
  have hfair := ((fair_ttlItems hnamed hitems).perm (cfg.order.perm items)).sublist hbegins.sublist
  exact le_trans hle hfair.sum_le

/-! ## Creates and updates -/

/-- The bytes that the policies make room for. -/
def needed (request : Request) (kv : KeyValue) : Nat :=
  if request.hasUpdate then kv.value.length else kv.key.length + kv.value.length

section

variable {kv : KeyValue} {keys : List Bytes} {perms : Json} {maxSize : UInt64}

theorem needed_create (hm : request.msg = .create kv) : needed request kv = kv.key.length + kv.value.length := by
  rw [needed, Request.hasUpdate, hm]
  rfl

theorem needed_update (hm : request.msg = .update kv) : needed request kv = kv.value.length := by
  rw [needed, Request.hasUpdate, hm]
  rfl

theorem keyValueSize_create (hm : request.msg = .create kv) :
    keyValueSize request = byteSize kv.key + byteSize kv.value := by
  rw [keyValueSize, Request.hasUpdate, Request.create, hm]
  rfl

theorem keyValueSize_update (hm : request.msg = .update kv) : keyValueSize request = byteSize kv.value := by
  rw [keyValueSize, Request.hasUpdate, Request.update, hm]
  rfl

section

variable (hw : Writes request kv) (hkey : kv.key.length < 2 ^ 32) (hvalue : kv.value.length < 2 ^ 32)
  (hover : maxSize.toNat < (st.getSize request.dbUuid).2.toNat + needed request kv)
  (hsize : (st.getSize request.dbUuid).2.toNat < 2 ^ 32)
include hw hkey hvalue hover hsize

/-- The bytes that `random` is asked for. -/
theorem toNat_toFree :
    (keyValueSize request - (maxSize - (st.getSize request.dbUuid).2)).toNat =
      (st.getSize request.dbUuid).2.toNat + needed request kv - maxSize.toNat := by
  have hk : (byteSize kv.key).toNat = kv.key.length := toNat_byteSize (by omega)
  have hv : (byteSize kv.value).toNat = kv.value.length := toNat_byteSize (by omega)
  rcases hw with hm | hm
  · rw [keyValueSize_create hm, UInt64.toNat_sub, UInt64.toNat_sub, UInt64.toNat_add]
    rw [needed_create hm] at hover ⊢
    omega
  · rw [keyValueSize_update hm, UInt64.toNat_sub, UInt64.toNat_sub]
    rw [needed_update hm] at hover ⊢
    omega

/-- The bytes that `volatile_ttl` asks for: it counts the value of an update once more. -/
theorem toNat_ttlRequired :
    (ttlRequired st request maxSize).toNat = (st.getSize request.dbUuid).2.toNat + needed request kv +
      (if request.hasUpdate then kv.value.length else 0) - maxSize.toNat := by
  have hk : (byteSize kv.key).toNat = kv.key.length := toNat_byteSize (by omega)
  have hv : (byteSize kv.value).toNat = kv.value.length := toNat_byteSize (by omega)
  rcases hw with hm | hm
  · rw [ttlRequired, keyValueSize_create hm, show request.hasUpdate = false by rw [Request.hasUpdate, hm],
      if_neg Bool.false_ne_true, if_neg Bool.false_ne_true, UInt64.sub_zero, UInt64.toNat_sub, UInt64.toNat_sub,
      UInt64.toNat_add]
    rw [needed_create hm] at hover ⊢
    omega
  · rw [ttlRequired, keyValueSize_update hm, show request.hasUpdate = true by rw [Request.hasUpdate, hm], if_pos rfl,
      if_pos rfl, show request.update = kv by rw [Request.update, hm], UInt64.toNat_sub, UInt64.toNat_sub,
      UInt64.toNat_sub]
    rw [needed_update hm] at hover ⊢
    omega

/-- A policy frees what is missing. -/
theorem policy_frees {policy : EvictionPolicy} (hnamed : policy = .volatileTtl → TtlNamed cfg st)
    (hkeys : policy.keysToEvict cfg.json cfg.mt cfg.order st request maxSize = .ok keys) (hne : keys ≠ []) :
    (st.getSize request.dbUuid).2.toNat + needed request kv ≤ maxSize.toNat + bytesOf st request.dbUuid keys := by
  cases policy with
  | random =>
    have hfrees := random_frees (Except.ok.inj hkeys) hne
    rw [toNat_toFree hw hkey hvalue hover hsize] at hfrees
    omega
  | volatileTtl =>
    have hfrees := ttl_frees (hnamed rfl) hkeys hne
    rw [toNat_ttlRequired hw hkey hvalue hover hsize] at hfrees
    omega

theorem evict_frees (hnamed : TtlNamed cfg st) (hkeys : keysToEvict cfg st request maxSize = .ok keys)
    (hne : keys ≠ []) :
    (st.getSize request.dbUuid).2.toNat + needed request kv ≤ maxSize.toNat + bytesOf st request.dbUuid keys := by
  obtain ⟨found, -, hkeys⟩ := except_bind_eq_ok.mp hkeys
  obtain ⟨policy, -, hkeys⟩ := except_bind_eq_ok.mp hkeys
  cases policy with
  | none =>
    cases hkeys
    exact absurd rfl hne
  | some policy => exact policy_frees hw hkey hvalue hover hsize (fun _ => hnamed) hkeys hne

end

/-- A write adds no more than what is needed. -/
theorem dataSize_writeTo_le (hw : Writes request kv) (hok : (writeTo request kv st).1 = .ok) :
    (writeTo request kv st).2.dataSize request.dbUuid ≤ st.dataSize request.dbUuid + needed request kv := by
  rcases hw with hm | hm
  · rw [writeTo_create hm] at hok ⊢
    rw [dataSize_create hok, needed_create hm]
  · rw [writeTo_update hm] at hok ⊢
    dsimp only at hok ⊢
    obtain ⟨old, hold⟩ := Option.isSome_iff_exists.mp ((update_result_iff ..).mp hok).2
    have := dataSize_update hok hold
    rw [needed_update hm]
    omega

/-- What the check of the space says of a request that is written in the end. -/
theorem operationExceedsAvailableSpace_spec (hw : Writes request kv) (hmax : maxDatabaseSize perms = .ok maxSize)
    (hpos : maxSize ≠ 0)
    (hcounted : (st.getSize request.dbUuid).2.toNat = st.dataSize request.dbUuid)
    (hsize : st.dataSize request.dbUuid < 2 ^ 32) (hkey : kv.key.length < 2 ^ 32) (hvalue : kv.value.length < 2 ^ 32)
    {exceeds : Bool} (h : operationExceedsAvailableSpace cfg st request perms = .ok exceeds) :
    if exceeds then maxSize.toNat < st.dataSize request.dbUuid + needed request kv
    else (writeTo request kv st).1 = .ok → (writeTo request kv st).2.dataSize request.dbUuid ≤ maxSize.toNat := by
  have hk : (byteSize kv.key).toNat = kv.key.length := toNat_byteSize (by omega)
  have hv : (byteSize kv.value).toNat = kv.value.length := toNat_byteSize (by omega)
  rw [operationExceedsAvailableSpace, hmax] at h
  rcases hw with hm | hm
  · rw [hm] at h
    cases h
    have hsum : ((st.getSize request.dbUuid).2 + byteSize kv.key + byteSize kv.value).toNat =
        st.dataSize request.dbUuid + needed request kv := by
      rw [UInt64.toNat_add, UInt64.toNat_add, needed_create hm]
      omega
    split
    · rename_i hexceeds
      have := (of_decide_eq_true hexceeds).2
      rwa [gt_iff_lt, UInt64.lt_iff_toNat_lt, hsum] at this
    · rename_i hfits
      intro hok
      have hle := dataSize_writeTo_le (.inl hm) hok
      rw [decide_eq_true_iff, not_and, UInt64.not_lt, UInt64.le_iff_toNat_le, hsum] at hfits
      exact le_trans hle (hfits hpos)
  · rw [hm] at h
    dsimp only at h
    cases hold : st.read request.dbUuid kv.key with
    | none =>
      rw [getKeySize, hold] at h
      cases h
      intro hok
      rw [writeTo_update hm, update_result_iff, hold] at hok
      cases hok.2
    | some old =>
      rw [getKeySize, hold] at h
      cases h
      have hentry := entrySize_le st request.dbUuid kv.key
      rw [entrySize_eq, hold] at hentry
      simp only [Option.elim_some] at hentry
      have hsum : ((st.getSize request.dbUuid).2 - UInt64.ofNat (kv.key.length + old.length) + byteSize kv.key +
          byteSize kv.value).toNat = st.dataSize request.dbUuid - old.length + kv.value.length := by
        rw [UInt64.toNat_add, UInt64.toNat_add, UInt64.toNat_sub, UInt64.toNat_ofNat']
        omega
      split
      · rename_i hexceeds
        have := (of_decide_eq_true hexceeds).2
        rw [gt_iff_lt, UInt64.lt_iff_toNat_lt, hsum] at this
        rw [needed_update hm]
        omega
      · rename_i hfits
        intro hok
        rw [decide_eq_true_iff, not_and, UInt64.not_lt, UInt64.le_iff_toNat_le, hsum] at hfits
        rw [writeTo_update hm] at hok ⊢
        dsimp only at hok ⊢
        have := dataSize_update hok hold
        have := hfits hpos
        omega

/-- What a request was let through with. -/
theorem admitWrite_eq_inr (h : admitWrite cfg env request st kv perms = .ok (.inr keys)) :
    ∃ maxSize, maxDatabaseSize perms = .ok maxSize ∧
      (keys = [] ∧ operationExceedsAvailableSpace cfg st request perms = .ok false ∨
        keys ≠ [] ∧ operationExceedsAvailableSpace cfg st request perms = .ok true ∧
          keysToEvict cfg st request maxSize = .ok keys) := by
  obtain ⟨maxSize, hmax, h⟩ := except_bind_eq_ok.mp h
  refine ⟨maxSize, hmax, ?_⟩
  split at h
  · cases h
  · obtain ⟨exp, -, h⟩ := except_bind_eq_ok.mp h
    split at h
    · cases h
    · obtain ⟨exceeds, hexceeds, h⟩ := except_bind_eq_ok.mp h
      cases exceeds with
      | false =>
        cases h
        exact .inl ⟨rfl, hexceeds⟩
      | true =>
        obtain ⟨chosen, hchosen, h⟩ := except_bind_eq_ok.mp h
        split at h
        · cases h
        · rename_i hne
          cases h
          exact .inr ⟨fun e => hne (e ▸ rfl), hexceeds, hchosen⟩

theorem inner_setExpiry {now expire : UInt64} {generatedKey uuid : Bytes} {st' : MemStorage} (hne : uuid ≠ ttlUuid)
    (h : setExpiry now generatedKey expire st = .ok st') : st'.inner uuid = st.inner uuid := by
  rw [setExpiry] at h
  split at h
  · dsimp only at h
    split at h
    · cases h
      exact inner_create_of_ne hne.symm ..
    · split at h
      · cases h
        exact inner_update_of_ne hne.symm ..
      · cases h
  · cases h
    exact inner_remove_of_ne hne.symm ..

end

/-- While no request is on a database in the place of the table of expiry times, a create
or an update that is answered with ok leaves its database within the limit. -/
theorem quota_kept (cfg : Config) (s : Crud) (hs : Reachable cfg (fun _ c => TtlSafe cfg c.request) s) (c : Call)
    (hc : TtlSafe cfg c.request) (kv : KeyValue) (hw : Writes c.request kv) (perms : Json) (maxSize : UInt64)
    (hperms : getDatabasePermissions cfg s.storage c.request.dbUuid = .ok (some perms))
    (hmax : maxDatabaseSize perms = .ok maxSize) (hpos : maxSize ≠ 0)
    (hdata : s.storage.dataSize c.request.dbUuid < 2 ^ 32)
    (a : Answer) (ha : a ∈ answersSince s ((handleRequest cfg c.env c.callerId c.request c.session).final s))
    (hok : a.result = .ok) :
    (((handleRequest cfg c.env c.callerId c.request c.session).final s).storage.getSize
      c.request.dbUuid).2 ≤ maxSize := by
  obtain ⟨perms', keys, hwritten⟩ := written_of_ok hw ha hok
  obtain rfl : perms = perms' := Option.some.inj (Except.ok.inj (hperms.symm.trans hwritten.permissions))
  have hcounted : (s.storage.getSize c.request.dbUuid).2.toNat = s.storage.dataSize c.request.dbUuid := by
    rw [toNat_getSize hs.counted, Nat.mod_eq_of_lt hdata]
  obtain ⟨hkey, hvalue⟩ : kv.key.length < 2 ^ 32 ∧ kv.value.length < 2 ^ 32 := by
    have hfit : KeysFit (writeTo c.request kv (evict s.storage c.request.dbUuid keys)).2 :=
      keysFit_kept.writeTo (keysFit_kept.evict hs.keysFit _ _) hwritten.accepted
    have hthere : ((writeTo c.request kv (evict s.storage c.request.dbUuid keys)).2.read c.request.dbUuid
      kv.key).isSome :=
      (isSome_read_writeTo hwritten.accepted ..).mpr (.inl ⟨rfl, rfl⟩)
    have hlength := hfit _ _ hthere
    have hrefused := (writeTo_evict_ok_iff c.request s.storage kv keys).mp hwritten.accepted
    rw [Refused, not_or] at hrefused
    unfold maxKeySize at hlength
    unfold maxValueSize at hrefused
    omega
  -- the bytes of the database, of which the counter keeps the last 32 bits
  have hbytes : (writeTo c.request kv (evict s.storage c.request.dbUuid keys)).2.dataSize c.request.dbUuid ≤
    maxSize.toNat := by
    obtain ⟨maxSize', hmax', hplan⟩ := admitWrite_eq_inr hwritten.admitted
    obtain rfl : maxSize = maxSize' := Except.ok.inj (hmax.symm.trans hmax')
    rcases hplan with ⟨rfl, hexceeds⟩ | ⟨hne, hexceeds, hkeys⟩
    · have hspec := operationExceedsAvailableSpace_spec hw hmax hpos hcounted hdata hkey hvalue hexceeds
      exact hspec hwritten.accepted
    · have hover : maxSize.toNat < s.storage.dataSize c.request.dbUuid + needed c.request kv :=
        operationExceedsAvailableSpace_spec hw hmax hpos hcounted hdata hkey hvalue hexceeds
      have hnamed := hs.ttlNamed fun _ _ h => h
      rw [← hcounted] at hover
      have hfreed := evict_frees hw hkey hvalue hover (hcounted ▸ hdata) hnamed hkeys hne
      have hrest := dataSize_evict s.storage c.request.dbUuid keys
      have hle := dataSize_writeTo_le hw hwritten.accepted
      omega
  rw [UInt64.le_iff_toNat_le]
  have hcount := counted_kept.writeTo (counted_kept.evict hs.counted c.request.dbUuid keys) hwritten.accepted
  have hsame : ((handleRequest cfg c.env c.callerId c.request c.session).final s).storage.inner c.request.dbUuid =
      (writeTo c.request kv (evict s.storage c.request.dbUuid keys)).2.inner c.request.dbUuid :=
    inner_setExpiry hc.notTtl hwritten.expiry
  have hgetSize : (((handleRequest cfg c.env c.callerId c.request c.session).final s).storage.getSize
    c.request.dbUuid).2 =
      ((writeTo c.request kv (evict s.storage c.request.dbUuid keys)).2.getSize c.request.dbUuid).2 := by
    rw [getSize, getSize, hsame]
  rw [hgetSize, toNat_getSize hcount]
  exact le_trans (Nat.mod_le _ _) hbytes

/-- The requests of the sample databases are on databases under names of their own. -/
theorem ttlSafe_openConfig (h : request.dbUuid ≠ ttlUuid) : TtlSafe openConfig request :=
  ⟨h, fun key _ => extractUuidKey_openConfig _ key⟩

theorem quota_kept_ten :
    let c₁ := callBy "alice" "db" (.createDb ⟨10, .random⟩)
    let c₂ := callBy "alice" "db" (.create ⟨ascii "k", ascii "value", 0⟩)
    let c₃ := callBy "alice" "db" (.create ⟨ascii "j", ascii "other", 0⟩)
    let s₁ := (handleRequest openConfig c₁.env c₁.callerId c₁.request c₁.session).final empty
    let s₂ := (handleRequest openConfig c₂.env c₂.callerId c₂.request c₂.session).final s₁
    let s₃ := (handleRequest openConfig c₃.env c₃.callerId c₃.request c₃.session).final s₂
    (answersSince s₂ s₃).map Answer.result = [.ok] ∧ (s₃.storage.getSize (ascii "db")).2 ≤ 10 := by
  intro c₁ c₂ c₃ s₁ s₂ s₃
  have ha : (⟨.ok, ⟨⟨ascii "db", 0, [], []⟩, .notSet⟩, none, none⟩ : Answer) ∈
      answersSince s₂ ((handleRequest openConfig c₃.env c₃.callerId c₃.request c₃.session).final s₂) := by
        decide +kernel
  have hreach : Reachable openConfig (fun _ c => TtlSafe openConfig c.request) s₂ :=
    .request (.request .start c₁ (ttlSafe_openConfig (by decide))) c₂ (ttlSafe_openConfig (by decide))
  refine ⟨by decide +kernel, quota_kept openConfig s₂ hreach c₃ (ttlSafe_openConfig (by decide))
    ⟨ascii "j", ascii "other", 0⟩
    (.inl rfl) (createPermissionData (ascii "alice") ⟨10, .random⟩) 10
      (permissions_openConfig _ _ (by decide +kernel)) ?_
    (by decide) (by decide +kernel) _ ha rfl⟩
  decide +kernel

/-- A database of 20 bytes in the place of the table of expiry times: a create puts two
records into it, the second one for the expiry time of the first. -/
theorem quota_exceeded :
    let s := serve openConfig [callBy "alice" "TTL" (.createDb ⟨20, .none⟩),
      callBy "alice" "TTL" (.create ⟨ascii "k", ascii "v", 5⟩)] empty
    s.answers.map Answer.result = [.ok, .ok] ∧ 20 < (s.storage.getSize (ascii "TTL")).2 := by
  decide +kernel

end SwarmDb.Crud
