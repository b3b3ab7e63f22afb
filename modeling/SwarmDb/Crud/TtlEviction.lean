import SwarmDb.Lib.Greedy
import SwarmDb.Lib.Lists
import SwarmDb.Storage.Sizes
import SwarmDb.Crud.FailedRequests

/-!
# What volatile TTL evicts

`volatile_ttl` makes an item of every entry in the table of expiry times that is of the database, and takes the items
with the largest values until it has what it asks for (`ttlKeysToEvict_eq`). Its sort does not look at the expiry times,
against the comment above it. `evictsEligible_iff` says when all it may take is eligible, and `evictsSoonest_iff` when
nothing it may take expires later than what it may keep.
-/

namespace SwarmDb.Crud

open Lib MemStorage

variable {json : JsonText} {st : MemStorage} {request : Request} {maxSize : UInt64}

/-! ## The selection -/

/-- The items that `volatile_ttl::keys_to_evict` chooses from. -/
def ttlItems (json : JsonText) (st : MemStorage) (request : Request) : Except Fault (List TtlItem) := do
  let ourTtls ← filterTtls json (st.getKeys ttlUuid) request.dbUuid (ignoreKey request)
  ourTtls.mapM (getTtlItem json st request.dbUuid)

/-- The bytes that it asks for. -/
def ttlRequired (st : MemStorage) (request : Request) (maxSize : UInt64) : UInt64 :=
  keyValueSize request - ((maxSize - (st.getSize request.dbUuid).2) -
    if request.hasUpdate then byteSize request.update.value else 0)

/-- What an item counts for. -/
def TtlItem.bytes (item : TtlItem) : Nat := item.valueSize.toNat

/-- Taking away as much as there is. -/
theorem toNat_sub_min (a b : UInt64) : (a - if b < a then b else a).toNat = a.toNat - b.toNat := by
  split
  · rename_i h
    rw [UInt64.toNat_sub_of_le _ _ (UInt64.le_of_lt h)]
  · rename_i h
    have := UInt64.le_iff_toNat_le.mp (UInt64.not_lt.mp h)
    rw [UInt64.sub_self, UInt64.toNat_zero]
    omega

/-- The loop takes a selection, or has something left to free. -/
theorem selectTtls_spec (required : UInt64) (items : List TtlItem) :
    match selection TtlItem.bytes required.toNat items with
    | some taken => selectTtls required items = (0, taken.map TtlItem.key)
    | none => items = [] ∨ (selectTtls required items).1 ≠ 0 := by
  induction items generalizing required with
  | nil => exact .inl rfl
  | cons item items ih =>
    have hleft := toNat_sub_min required item.valueSize
    rw [selectTtls, selection]
    generalize required - (if item.valueSize < required then item.valueSize else required) = left at hleft ⊢
    rw [show required.toNat - TtlItem.bytes item = left.toNat from hleft.symm]
    have hdone : required.toNat ≤ TtlItem.bytes item ↔ left = 0 := by
      rw [← UInt64.toNat_inj, hleft, UInt64.toNat_zero, TtlItem.bytes]
      omega
    by_cases hzero : left = 0
    · rw [if_pos (hdone.mpr hzero)]
      exact if_pos hzero
    · rw [if_neg (mt hdone.mp hzero), if_neg hzero]
      have hrest := ih left
      cases hsel : selection TtlItem.bytes left.toNat items with
      | some taken =>
        rw [hsel] at hrest
        dsimp only at hrest
        dsimp only [Option.map_some]
        rw [hrest]
        rfl
      | none =>
        rw [hsel] at hrest
        dsimp only [Option.map_none] at hrest ⊢
        rcases hrest with rfl | hne
        · exact .inr hzero
        · exact .inr hne

/-- The keys are those of a selection from the sorted items. -/
theorem ttlKeysToEvict_eq (json : JsonText) (order : TtlSort) (st : MemStorage) (request : Request) (maxSize : UInt64) :
    ttlKeysToEvict json order st request maxSize = (ttlItems json st request).map fun items =>
      ((selection TtlItem.bytes (ttlRequired st request maxSize).toNat (order.sort items)).getD
        []).map TtlItem.key := by
  rw [ttlKeysToEvict, ttlItems]
  cases filterTtls json (st.getKeys ttlUuid) request.dbUuid (ignoreKey request) with
  | error e => rfl
  | ok ours =>
    rw [Program.except_ok_bind, Program.except_ok_bind]
    cases ours with
    | nil =>
      have hsort : order.sort [] = [] := (order.perm []).eq_nil
      show Except.ok [] = Except.ok (((selection _ _ (order.sort [])).getD []).map TtlItem.key)
      rw [hsort]
      rfl
    | cons g ours =>
      rw [List.isEmpty_cons, if_neg Bool.false_ne_true]
      cases (g :: ours).mapM (getTtlItem json st request.dbUuid) with
      | error e => rfl
      | ok items =>
        rw [Program.except_ok_bind]
        show Except.ok _ = Except.ok _
        dsimp only
        rw [← ttlRequired]
        have hspec := selectTtls_spec (ttlRequired st request maxSize) (order.sort items)
        cases hsel : selection TtlItem.bytes (ttlRequired st request maxSize).toNat (order.sort items) with
        | some taken =>
          rw [hsel] at hspec
          dsimp only at hspec
          rw [hspec]
          rfl
        | none =>
          rw [hsel] at hspec
          rcases hspec with hnil | hne
          · rw [hnil]
            exact congrArg Except.ok (ite_self [])
          · rw [if_neg hne]
            rfl

variable {order : TtlSort} {items : List TtlItem} {item : TtlItem}

theorem exists_taken {keys : List Bytes} (h : ttlKeysToEvict json order st request maxSize = .ok keys) {key : Bytes}
    (hkey : key ∈ keys) :
    ∃ items taken, ttlItems json st request = .ok items ∧
      selection TtlItem.bytes (ttlRequired st request maxSize).toNat (order.sort items) = some taken ∧
      keys = taken.map TtlItem.key := by
  rw [ttlKeysToEvict_eq] at h
  cases hitems : ttlItems json st request with
  | error e =>
    rw [hitems] at h
    cases h
  | ok items =>
    rw [hitems] at h
    cases h
    dsimp only at hkey ⊢
    cases hsel : selection TtlItem.bytes (ttlRequired st request maxSize).toNat (order.sort items) with
    | none =>
      rw [hsel] at hkey
      cases hkey
    | some taken => exact ⟨items, taken, rfl, hsel, by rw [Option.getD_some]⟩

theorem TtlSort.falling (order : TtlSort) (items : List TtlItem) :
    (order.sort items).Pairwise fun a b => b.bytes ≤ a.bytes :=
  (order.sorted items).imp fun h => UInt64.le_iff_toNat_le.mp h

/-- A sort that puts items of equal size in the order of a rank. -/
def TtlSort.byRank (rank : TtlItem → Nat) : TtlSort where
  sort := sortBy TtlItem.bytes rank
  perm := sortBy_perm _ _
  sorted := fun l => (sortBy_falling TtlItem.bytes rank l).imp fun h => UInt64.le_iff_toNat_le.mpr h

/-- An item that is taken by some sort, where all items are enough. -/
def InReach (st : MemStorage) (request : Request) (maxSize : UInt64) (items : List TtlItem) (item : TtlItem) : Prop :=
  heavier TtlItem.bytes items item < max (ttlRequired st request maxSize).toNat 1

/-- What one sort takes is in reach. -/
theorem inReach_of_taken {taken : List TtlItem}
    (h : selection TtlItem.bytes (ttlRequired st request maxSize).toNat (order.sort items) = some taken)
    (hitem : item ∈ taken) :
    item ∈ items ∧ InReach st request maxSize items item ∧
      (ttlRequired st request maxSize).toNat ≤ weightOf TtlItem.bytes items := by
  have hperm := order.perm items
  have hlt := heavier_lt_of_mem (order.falling items) h hitem
  have hsome := selection_isSome_iff.mp (Option.isSome_iff_exists.mpr ⟨taken, h⟩)
  rw [heavier_perm hperm] at hlt
  rw [weightOf_perm hperm] at hsome
  exact ⟨hperm.subset ((begins_of_selection h).1.subset hitem), hlt, hsome.2⟩

/-- What is in reach is taken by one sort, and without others where the rest is enough. -/
theorem exists_order (hitems : ttlItems json st request = .ok items) (hitem : item ∈ items)
    (hreach : InReach st request maxSize items item) {p : TtlItem → Bool} (hp : p item = false)
    (hle : (ttlRequired st request maxSize).toNat ≤ besides TtlItem.bytes p items) :
    ∃ order keys, ttlKeysToEvict json order st request maxSize = .ok keys ∧ item.key ∈ keys ∧
      ∀ key ∈ keys, ∃ other, p other = false ∧ other.key = key := by
  obtain ⟨rank, taken, htaken, hmem, hothers⟩ := exists_rank hitem hp hreach hle
  refine ⟨.byRank rank, taken.map TtlItem.key, ?_, List.mem_map_of_mem hmem, fun key hkey => ?_⟩
  · rw [ttlKeysToEvict_eq, hitems]
    show Except.ok (((selection _ _ (sortBy TtlItem.bytes rank items)).getD []).map TtlItem.key) = _
    rw [htaken, Option.getD_some]
  · obtain ⟨other, hother, rfl⟩ := List.mem_map.mp hkey
    exact ⟨other, hothers other hother, rfl⟩

/-! ## Eligible keys -/

/-- A key of the database with an entry in the table of expiry times, other than the one
that is updated. -/
structure Eligible (json : JsonText) (st : MemStorage) (request : Request) (key : Bytes) : Prop where
  present : (st.read request.dbUuid key).isSome
  expires : (st.read ttlUuid (generateExpireKey json request.dbUuid key)).isSome
  notUpdated : ∀ kv, request.msg = .update kv → kv.key ≠ key

/-- An item is of a key with an expiry time, or it has no value. -/
theorem present_of_mem (h : ttlItems json st request = .ok items) (hitem : item ∈ items) :
    item.bytes = 0 ∨ (st.read request.dbUuid item.key).isSome ∧
      (st.read ttlUuid (generateExpireKey json request.dbUuid item.key)).isSome := by
  obtain ⟨ours, -, h⟩ := Program.except_bind_eq_ok.mp h
  obtain ⟨g, -, hg⟩ := exists_of_forall₂ (forall₂_of_mapM h) hitem
  rw [getTtlItem] at hg
  split at hg
  · cases hg
    exact .inl rfl
  · obtain ⟨key, -, hg⟩ := Program.except_bind_eq_ok.mp hg
    split at hg
    · rename_i value expire hvalue hexpire
      obtain ⟨n, -, hg⟩ := Program.except_bind_eq_ok.mp hg
      cases hg
      rw [hvalue, hexpire]
      exact .inr ⟨rfl, rfl⟩
    · cases hg
      exact .inl rfl

/-- The policy returns eligible keys only, whatever its sort does, just where no item of
the updated key is in reach of a selection, and where it does not take an item
without a value for no bytes at all. -/
theorem evictsEligible_iff (json : JsonText) (st : MemStorage) (request : Request) (maxSize : UInt64) :
    (∀ order keys, ttlKeysToEvict json order st request maxSize = .ok keys → ∀ key ∈ keys,
      Eligible json st request key) ↔
      ∀ items, ttlItems json st request = .ok items →
        (∀ item ∈ items, (∃ kv, request.msg = .update kv ∧ kv.key = item.key) → InReach st request maxSize items item →
          weightOf TtlItem.bytes items < (ttlRequired st request maxSize).toNat) ∧
        (ttlRequired st request maxSize = 0 → weightOf TtlItem.bytes items = 0 →
          ∀ item ∈ items, Eligible json st request item.key) := by
  constructor
  · intro h items hitems
    -- an item in reach is returned by one of the sorts
    have hall : ∀ item ∈ items, InReach st request maxSize items item →
        (ttlRequired st request maxSize).toNat ≤ weightOf TtlItem.bytes items → Eligible json st request item.key := by
      intro item hitem hreach hle
      obtain ⟨order, keys, hkeys, hkey, -⟩ := exists_order hitems hitem hreach (p := fun _ => false) rfl
        (by rwa [besides_none])
      exact h order keys hkeys item.key hkey
    constructor
    · rintro item hitem ⟨kv, hm, hkey⟩ hreach
      by_contra hle
      exact (hall item hitem hreach (Nat.not_lt.mp hle)).notUpdated kv hm hkey
    · intro hzero hnone item hitem
      refine hall item hitem ?_ (by rw [hzero, hnone]; rfl)
      have hle : heavier TtlItem.bytes items item ≤ weightOf TtlItem.bytes items :=
        weightOf_le_of_sublist List.filter_sublist
      rw [InReach, hzero]
      omega
  · intro h order keys hkeys key hkey
    obtain ⟨items, taken, hitems, htaken, rfl⟩ := exists_taken hkeys hkey
    obtain ⟨item, hitem, rfl⟩ := List.mem_map.mp hkey
    obtain ⟨hmem, hreach, hle⟩ := inReach_of_taken htaken hitem
    obtain ⟨hupdated, hnone⟩ := h items hitems
    rcases present_of_mem hitems hmem with hzero | ⟨hpresent, hexpires⟩
    · -- all that weighs comes before it
      rw [InReach, heavier_of_eq_zero hzero] at hreach
      refine hnone ?_ (by omega) item hmem
      rw [← UInt64.toNat_inj, UInt64.toNat_zero]
      omega
    · refine ⟨hpresent, hexpires, fun kv hm hkey => ?_⟩
      have := hupdated item hmem ⟨kv, hm, hkey⟩ hreach
      omega

/-- A key that is updated, and that a record in a database in the place of the table of
expiry times names by a number. -/
theorem evicts_updated :
    let named := openConfig.json.toStyledString (.object [(ascii "key", .int 5), (ascii "uuid", .string (ascii "db"))])
    let s := serve openConfig [callBy "alice" "db" (.createDb ⟨24, .volatileTtl⟩),
      callBy "alice" "db" (.create ⟨ascii "5", List.replicate 10 0, 100⟩),
      callBy "alice" "db" (.create ⟨ascii "b", List.replicate 12 0, 100⟩),
      callBy "mallory" "TTL" (.createDb ⟨0, .none⟩), callBy "mallory" "TTL" (.create ⟨named, ascii "100", 0⟩)] empty
    let perms := createPermissionData (ascii "alice") ⟨24, .volatileTtl⟩
    let request := (callBy "alice" "db" (.update ⟨ascii "5", List.replicate 11 0, 0⟩)).request
    s.answers.map Answer.result = [.ok, .ok, .ok, .ok, .ok] ∧
      operationExceedsAvailableSpace openConfig s.storage request perms = .ok true ∧
      ttlKeysToEvict openConfig.json (.byRank fun _ => 0) s.storage request 24 = .ok [ascii "b", ascii "5"] := by
  decide +kernel

/-! ## The soonest to expire -/

/-- The time at which a key of the database expires. -/
def ExpiresAt (json : JsonText) (st : MemStorage) (request : Request) (key : Bytes) (time : UInt64) : Prop :=
  ∃ text, st.read ttlUuid (generateExpireKey json request.dbUuid key) = some text ∧ toUInt64 text = .ok time

/-- One key is to go before another, which expires at a time: it expires sooner, or at the
same time and is no smaller. -/
def GoesBefore (json : JsonText) (st : MemStorage) (request : Request) (evicted kept : Bytes) (time : UInt64) : Prop :=
  ∃ t, ExpiresAt json st request evicted t ∧
    (t < time ∨ t = time ∧ st.entrySize request.dbUuid kept ≤ st.entrySize request.dbUuid evicted)

/-- What is evicted goes before all that is kept, whatever the sort does, just where this
is so for all items in reach and all keys that can be kept. -/
theorem evictsSoonest_iff (json : JsonText) (st : MemStorage) (request : Request) (maxSize : UInt64) :
    (∀ order keys, ttlKeysToEvict json order st request maxSize = .ok keys → ∀ evicted ∈ keys, ∀ kept time,
      Eligible json st request kept → ExpiresAt json st request kept time → kept ∉ keys →
      GoesBefore json st request evicted kept time) ↔
      ∀ items, ttlItems json st request = .ok items → ∀ item ∈ items, InReach st request maxSize items item →
        ∀ kept time, Eligible json st request kept → ExpiresAt json st request kept time → kept ≠ item.key →
        (ttlRequired st request maxSize).toNat ≤ besides TtlItem.bytes (fun other => other.key = kept) items →
        GoesBefore json st request item.key kept time := by
  constructor
  · intro h items hitems item hitem hreach kept time hkept htime hne hle
    obtain ⟨order, keys, hkeys, hkey, hothers⟩ := exists_order hitems hitem hreach
      (decide_eq_false (Ne.symm hne)) hle
    refine h order keys hkeys item.key hkey kept time hkept htime fun hmem => ?_
    obtain ⟨other, hother, rfl⟩ := hothers kept hmem
    exact of_decide_eq_false hother rfl
  · intro h order keys hkeys evicted hevicted kept time hkept htime hnot
    obtain ⟨items, taken, hitems, htaken, rfl⟩ := exists_taken hkeys hevicted
    obtain ⟨item, hitem, rfl⟩ := List.mem_map.mp hevicted
    obtain ⟨hmem, hreach, -⟩ := inReach_of_taken htaken hitem
    refine h items hitems item hmem hreach kept time hkept htime (fun e => hnot (e ▸ hevicted)) ?_
    rw [← besides_perm (order.perm items)]
    refine le_besides (order.falling items) htaken fun other hother => decide_eq_false fun e => hnot ?_
    exact e ▸ List.mem_map_of_mem hother

/-- The larger of two values goes, though it expires later. -/
theorem evicts_later :
    let s := serve openConfig [callBy "alice" "db" (.createDb ⟨20, .volatileTtl⟩),
      callBy "alice" "db" (.create ⟨ascii "early", ascii "abc", 100⟩),
      callBy "alice" "db" (.create ⟨ascii "late", ascii "abcdef", 500⟩)] empty
    let perms := createPermissionData (ascii "alice") ⟨20, .volatileTtl⟩
    let request := (callBy "alice" "db" (.create ⟨ascii "new", ascii "v", 0⟩)).request
    s.answers.map Answer.result = [.ok, .ok, .ok] ∧
      operationExceedsAvailableSpace openConfig s.storage request perms = .ok true ∧
      ttlKeysToEvict openConfig.json (.byRank fun _ => 0) s.storage request 20 = .ok [ascii "late"] ∧
      s.storage.read ttlUuid (generateExpireKey openConfig.json (ascii "db") (ascii "early")) = some (ascii "100") ∧
      s.storage.read ttlUuid (generateExpireKey openConfig.json (ascii "db") (ascii "late")) = some (ascii "500") := by
  decide +kernel

end SwarmDb.Crud
