import SwarmDb.Crud.DeleteDb
import SwarmDb.Crud.Quota

/-!
# When eviction fails

A policy asks for more than what is missing (`EvictionPolicy.asks`): `random` does not take the value that an update
replaces off the size, and `volatile_ttl` counts the new value twice beside. It can free less than what there is
(`EvictionPolicy.offers`). `evicts_iff` says that nothing else makes an eviction fail.
-/

namespace SwarmDb.Crud

open Lib Program MemStorage

variable {cfg : Config} {request : Request} {st : MemStorage} {kv : KeyValue} {maxSize : UInt64}

namespace EvictionPolicy

variable (policy : EvictionPolicy)

/-- Whether a policy may evict a key. -/
def mayEvict (json : JsonText) (st : MemStorage) (uuid key : Bytes) : Bool :=
  match policy with
  | random => true
  | volatileTtl => st.has ttlUuid (generateExpireKey json uuid key)

/-- The bytes that a policy counts for a key. -/
def counts (st : MemStorage) (uuid key : Bytes) : Nat :=
  match policy with
  | random => st.entrySize uuid key
  | volatileTtl => ((st.read uuid key).getD []).length

/-- The bytes that a policy can free, as it counts them. -/
def offers (json : JsonText) (st : MemStorage) (request : Request) : Nat :=
  ((st.getKeys request.dbUuid).filter fun key =>
    policy.mayEvict json st request.dbUuid key && key ≠ ignoreKey request).map
    (policy.counts st request.dbUuid) |>.sum

/-- The bytes that a policy asks for. -/
def asks (st : MemStorage) (request : Request) (kv : KeyValue) (maxSize : UInt64) : Nat :=
  st.dataSize request.dbUuid + needed request kv + (match policy with
    | random => 0
    | volatileTtl => if request.hasUpdate then kv.value.length else 0) - maxSize.toNat

end EvictionPolicy

/-- The bytes of the value that an update replaces. -/
def replaced (st : MemStorage) (request : Request) (kv : KeyValue) : Nat :=
  if request.hasUpdate then ((st.read request.dbUuid kv.key).getD []).length else 0

/-- The request fits without all the other keys that the policy may evict. -/
def FitsWithout (policy : EvictionPolicy) (json : JsonText) (st : MemStorage) (request : Request) (kv : KeyValue)
    (maxSize : UInt64) : Prop :=
  st.dataSize request.dbUuid + needed request kv ≤ maxSize.toNat + replaced st request kv +
    (((st.getKeys request.dbUuid).filter fun key => policy.mayEvict json st request.dbUuid key && key ≠ kv.key).map
      (st.entrySize request.dbUuid)).sum

/-- The policy returns keys without which the request fits. -/
def MakesRoom (policy : EvictionPolicy) (cfg : Config) (st : MemStorage) (request : Request) (kv : KeyValue)
    (maxSize : UInt64) : Prop :=
  ∃ keys, policy.keysToEvict cfg.json cfg.mt cfg.order st request maxSize = .ok keys ∧ keys ≠ [] ∧
    (evict st request.dbUuid keys).dataSize request.dbUuid + needed request kv ≤ maxSize.toNat + replaced st request kv

/-! ## Random -/

/-- Whatever is drawn, what is left to free is what all keys but the ignored one fall short by. -/
theorem toNat_selectRandom (st : MemStorage) (request : Request) (mt : Mt19937) (ignoreKey : Bytes) (n : Nat)
    (drawn : List Nat) (toFree : UInt64) (available keys : List Bytes) (hlength : available.length = n)
    (hsizes : ∀ key ∈ available, ∃ size, st.getKeySize request.dbUuid key = some size ∧
      size.toNat = st.entrySize request.dbUuid key) :
    (selectRandom mt st request ignoreKey n drawn toFree available keys).1.toNat =
      toFree.toNat - ((available.filter (· ≠ ignoreKey)).map (st.entrySize request.dbUuid)).sum := by
  induction n generalizing drawn toFree available keys with
  | zero =>
    obtain rfl := List.length_eq_zero_iff.mp hlength
    rfl
  | succ n ih =>
    rw [selectRandom]
    dsimp only
    split
    · rename_i hzero
      rw [hzero, UInt64.toNat_zero, Nat.zero_sub]
    · have hi : mt.draw request.header.requestHash drawn n < available.length := by
        have := mt.draw_le request.header.requestHash drawn n
        omega
      generalize mt.draw request.header.requestHash drawn n = i at hi
      have hget : available.getD i [] = available[i] := List.getD_eq_getElem _ _ hi
      have hperm : (available.getD i [] :: available.eraseIdx i).Perm available :=
        hget ▸ List.getElem_cons_eraseIdx_perm hi
      have hrest : (available.eraseIdx i).length = n := by rw [List.length_eraseIdx_of_lt hi, hlength]; rfl
      have hsub := fun key hkey => hsizes key (List.mem_of_mem_eraseIdx (i := i) hkey)
      have hsum := ((hperm.filter (· ≠ ignoreKey)).map (st.entrySize request.dbUuid)).sum_eq
      rw [List.filter_cons] at hsum
      split
      · rename_i hignored
        rw [if_neg (by simpa using hignored)] at hsum
        rw [ih _ _ _ _ hrest hsub, hsum]
      · rename_i hchosen
        rw [if_pos (by simpa using hchosen), List.map_cons, List.sum_cons] at hsum
        obtain ⟨size, hsize, hentry⟩ := hsizes _ (hperm.subset (List.mem_cons_self ..))
        rw [hsize]
        dsimp only
        rw [ih _ _ _ _ hrest hsub, toNat_sub_min, hentry]
        omega

variable {key : Bytes}

theorem getKeySize_of_mem (hdata : st.dataSize request.dbUuid < 2 ^ 32) (h : key ∈ st.getKeys request.dbUuid) :
    ∃ size, st.getKeySize request.dbUuid key = some size ∧ size.toNat = st.entrySize request.dbUuid key := by
  obtain ⟨value, hvalue⟩ := Option.isSome_iff_exists.mp (mem_getKeys.mp h)
  have hle := entrySize_le st request.dbUuid key
  rw [entrySize_eq, hvalue] at hle ⊢
  simp only [Option.elim_some] at hle ⊢
  refine ⟨UInt64.ofNat (key.length + value.length), by rw [getKeySize, hvalue]; rfl, ?_⟩
  rw [UInt64.toNat_ofNat_of_lt' (show _ < 2 ^ 64 by omega)]

/-- `random` returns keys just where all that it considers are enough. -/
theorem randomKeysToEvict_ne_nil_iff (hdata : st.dataSize request.dbUuid < 2 ^ 32) (json : JsonText) (mt : Mt19937)
    (hpos : 0 < (keyValueSize request - (maxSize - (st.getSize request.dbUuid).2)).toNat) :
    randomKeysToEvict mt st request maxSize ≠ [] ↔
      (keyValueSize request - (maxSize - (st.getSize request.dbUuid).2)).toNat ≤
        EvictionPolicy.random.offers json st request := by
  have hleft := toNat_selectRandom st request mt (ignoreKey request) _ []
    (keyValueSize request - (maxSize - (st.getSize request.dbUuid).2)) (st.getKeys request.dbUuid) [] rfl
    fun key hkey => getKeySize_of_mem hdata hkey
  obtain ⟨-, hfrees⟩ := selectRandom_frees st request mt (ignoreKey request) _ []
    (keyValueSize request - (maxSize - (st.getSize request.dbUuid).2)) (st.getKeys request.dbUuid) [] rfl
    (Map.keys_nodup _) List.nodup_nil fun key hkey => absurd hkey List.not_mem_nil
  rw [randomKeysToEvict]
  generalize selectRandom mt st request (ignoreKey request) _ [] _ (st.getKeys request.dbUuid) [] = r at hleft hfrees ⊢
  have hoffers : EvictionPolicy.random.offers json st request =
      (((st.getKeys request.dbUuid).filter (· ≠ ignoreKey request)).map (st.entrySize request.dbUuid)).sum := by
    rw [EvictionPolicy.offers]
    simp only [EvictionPolicy.mayEvict, Bool.true_and]
    rfl
  rw [hoffers]
  have hdone : r.1 = 0 ↔ r.1.toNat = 0 := by rw [← UInt64.toNat_inj, UInt64.toNat_zero]
  split
  · rename_i hzero
    rw [hdone.mp hzero] at hleft hfrees
    refine ⟨fun _ => by omega, fun _ hnil => ?_⟩
    rw [hnil] at hfrees
    simp only [List.map_nil, List.sum_nil] at hfrees
    omega
  · rename_i hmore
    have : r.1.toNat ≠ 0 := fun h => hmore (hdone.mpr h)
    refine ⟨fun h => absurd rfl h, fun _ => ?_⟩
    omega

/-! ## Volatile TTL -/

/-- What the key of an expiry time is read as. -/
def nameOf (cfg : Config) (generatedKey : Bytes) : Bytes × Bytes :=
  ((extractUuidKey cfg generatedKey).toOption).getD default

theorem nameOf_generateExpireKey {uuid : Bytes} (hread : cfg.json.ReadsAs (expireName uuid key) (expireName uuid key)) :
    nameOf cfg (generateExpireKey cfg.json uuid key) = (uuid, key) := by
  rw [nameOf, extractUuidKey_of_readsAs hread]
  rfl

theorem keepTtl_generateExpireKey {uuid : Bytes} (hread : cfg.json.ReadsAs (expireName uuid key) (expireName uuid key))
    (dbUuid ignored : Bytes) :
    keepTtl cfg.json dbUuid ignored (generateExpireKey cfg.json uuid key) =
      .ok (decide (uuid = dbUuid) && key ≠ ignored) := by
  rw [keepTtl, generateExpireKey, ← expireName, hread]
  show (if decide (key = ignored) then pure false else pure (decide (uuid = dbUuid))) = Except.ok _
  by_cases hkey : key = ignored
  · simp [hkey, pure, Except.pure]
  · simp [hkey, pure, Except.pure]

/-- The table of expiry times is as `crud` writes it, and the names of its entries are read back as
they were printed. -/
structure TtlKept (cfg : Config) (st : MemStorage) : Prop where
  readsBack : ∀ uuid key, (st.read ttlUuid (generateExpireKey cfg.json uuid key)).isSome →
    cfg.json.ReadsAs (expireName uuid key) (expireName uuid key)
  named : TtlNamed cfg st
  times : ∀ g text, st.read ttlUuid g = some text → ∃ time, toUInt64 text = .ok time

/-- There is an item for every entry of the database, with the value of its key. -/
theorem exists_ttlItems (h : TtlKept cfg st)
    (hdata : st.dataSize request.dbUuid < 2 ^ 32) :
    ∃ items, ttlItems cfg.json st request = .ok items ∧
      weightOf TtlItem.bytes items = (((st.getKeys ttlUuid).filter fun g =>
        decide ((nameOf cfg g).1 = request.dbUuid) && (nameOf cfg g).2 ≠ ignoreKey request).map fun g =>
          ((st.read request.dbUuid (nameOf cfg g).2).getD []).length).sum := by
  have hname : ∀ g ∈ st.getKeys ttlUuid, g = generateExpireKey cfg.json (nameOf cfg g).1 (nameOf cfg g).2 ∧
      cfg.json.ReadsAs (expireName (nameOf cfg g).1 (nameOf cfg g).2)
        (expireName (nameOf cfg g).1 (nameOf cfg g).2) := by
    intro g hg
    obtain ⟨uuid, key, rfl, -⟩ := h.named g (mem_getKeys.mp hg)
    have hread := h.readsBack uuid key (mem_getKeys.mp hg)
    rw [nameOf_generateExpireKey hread]
    exact ⟨rfl, hread⟩
  have hours : filterTtls cfg.json (st.getKeys ttlUuid) request.dbUuid (ignoreKey request) =
      .ok ((st.getKeys ttlUuid).filter fun g =>
        decide ((nameOf cfg g).1 = request.dbUuid) && (nameOf cfg g).2 ≠ ignoreKey request) :=
    filterM_of_ok fun g hg => by
      conv_lhs => rw [(hname g hg).1]
      exact keepTtl_generateExpireKey (hname g hg).2 ..
  -- an item has the length of the value, or there is no value
  have hitem : ∀ g ∈ (st.getKeys ttlUuid).filter (fun g =>
        decide ((nameOf cfg g).1 = request.dbUuid) && (nameOf cfg g).2 ≠ ignoreKey request),
      ∃ item, getTtlItem cfg.json st request.dbUuid g = .ok item ∧
        item.bytes = ((st.read request.dbUuid (nameOf cfg g).2).getD []).length := by
    intro g hg
    obtain ⟨hg, hours⟩ := List.mem_filter.mp hg
    rw [Bool.and_eq_true, decide_eq_true_eq] at hours
    obtain ⟨hgen, hread⟩ := hname g hg
    rw [hours.1] at hgen hread
    generalize (nameOf cfg g).2 = key at hgen hread ⊢
    subst hgen
    obtain ⟨text, htext⟩ := Option.isSome_iff_exists.mp (mem_getKeys.mp hg)
    obtain ⟨time, htime⟩ := h.times _ text htext
    have hparse : cfg.json.parse (generateExpireKey cfg.json request.dbUuid key) =
      .ok (expireName request.dbUuid key) := hread
    rw [getTtlItem, hparse]
    dsimp only
    rw [show memberString "key" (expireName request.dbUuid key) = .ok key from rfl, except_ok_bind, htext]
    cases hvalue : st.read request.dbUuid key with
    | none => exact ⟨_, rfl, rfl⟩
    | some value =>
      have hle := entrySize_le st request.dbUuid key
      rw [entrySize_eq, hvalue] at hle
      simp only [Option.elim_some] at hle
      refine ⟨⟨key, byteSize value, time⟩, ?_, toNat_byteSize (by omega)⟩
      dsimp only
      rw [htime]
      rfl
  obtain ⟨items, hitems, -⟩ := mapM_of_ok fun g hg => (hitem g hg).imp fun _ h => h.1
  refine ⟨items, by rw [ttlItems, hours, except_ok_bind, hitems], ?_⟩
  have hall := (List.forall₂_and_left ..).mpr ⟨fun g hg => hg, forall₂_of_mapM hitems⟩
  rw [weightOf]
  refine congrArg List.sum (List.forall₂_eq_eq_eq ▸ List.forall₂_map_right_iff.mpr (List.forall₂_map_left_iff.mpr ?_))
  refine hall.flip.imp fun item g h => ?_
  obtain ⟨item', hitem', hbytes⟩ := hitem g h.1
  rw [h.2] at hitem'
  cases hitem'
  exact hbytes

/-- The entries of a database are those of its keys with an expiry time, and of keys that
are gone. -/
theorem sum_ttlEntries (h : TtlKept cfg st) :
    (((st.getKeys ttlUuid).filter fun g =>
      decide ((nameOf cfg g).1 = request.dbUuid) && (nameOf cfg g).2 ≠ ignoreKey request).map fun g =>
        ((st.read request.dbUuid (nameOf cfg g).2).getD []).length).sum =
      EvictionPolicy.volatileTtl.offers cfg.json st request := by
  let gen := generateExpireKey cfg.json request.dbUuid
  have hnodup : ∀ uuid, (st.getKeys uuid).Nodup := fun _ => Map.keys_nodup _
  rw [EvictionPolicy.offers, ← List.sum_toFinset _ ((hnodup _).filter _), ← List.sum_toFinset _ ((hnodup _).filter _)]
  let kept := ((st.getKeys request.dbUuid).filter fun key =>
    EvictionPolicy.volatileTtl.mayEvict cfg.json st request.dbUuid key && key ≠ ignoreKey request).toFinset
  have hentry : ∀ key ∈ kept, gen key ∈ st.getKeys ttlUuid ∧ key ≠ ignoreKey request := by
    intro key hkey
    rw [List.mem_toFinset, List.mem_filter, Bool.and_eq_true, decide_eq_true_eq, EvictionPolicy.mayEvict, has_eq,
      ← mem_getKeys] at hkey
    exact hkey.2
  have hgen : ∀ key ∈ kept, nameOf cfg (gen key) = (request.dbUuid, key) := fun key hkey =>
    nameOf_generateExpireKey (h.readsBack _ key (mem_getKeys.mp (hentry key hkey).1))
  have hinj : Set.InjOn gen kept := fun a ha b hb hab => by
    have := hgen a ha
    rw [hab, hgen b hb] at this
    exact (Prod.ext_iff.mp this).2.symm
  have himage : ∑ g ∈ kept.image gen, ((st.read request.dbUuid (nameOf cfg g).2).getD []).length =
      ∑ key ∈ kept, EvictionPolicy.volatileTtl.counts st request.dbUuid key := by
    rw [Finset.sum_image hinj]
    refine Finset.sum_congr rfl fun key hkey => ?_
    rw [hgen key hkey]
    rfl
  rw [← himage]
  refine (Finset.sum_subset (fun g hg => ?_) fun g hg hnot => ?_).symm
  · obtain ⟨key, hkey, rfl⟩ := Finset.mem_image.mp hg
    rw [List.mem_toFinset, List.mem_filter, Bool.and_eq_true, hgen key hkey]
    exact ⟨(hentry key hkey).1, decide_eq_true rfl, decide_eq_true (hentry key hkey).2⟩
  · rw [List.mem_toFinset, List.mem_filter, Bool.and_eq_true, decide_eq_true_eq] at hg
    obtain ⟨hg, hdb, hne⟩ := hg
    -- the key is gone, or the entry would be that of a key
    have hgone : st.read request.dbUuid (nameOf cfg g).2 = none := by
      by_contra hthere
      rw [← ne_eq, Option.ne_none_iff_isSome] at hthere
      obtain ⟨uuid, key, rfl, -⟩ := h.named g (mem_getKeys.mp hg)
      rw [nameOf_generateExpireKey (h.readsBack uuid key (mem_getKeys.mp hg))] at hdb hne hthere
      dsimp only at hdb hne hthere
      subst hdb
      refine hnot (Finset.mem_image.mpr ⟨key, ?_, rfl⟩)
      rw [List.mem_toFinset, List.mem_filter, Bool.and_eq_true]
      refine ⟨mem_getKeys.mpr hthere, ?_, hne⟩
      rw [EvictionPolicy.mayEvict, has_eq]
      exact mem_getKeys.mp hg
    rw [hgone]
    rfl

/-- `volatile_ttl` returns keys just where all that it considers are enough. -/
theorem ttlKeysToEvict_iff (h : TtlKept cfg st) (hdata : st.dataSize request.dbUuid < 2 ^ 32)
    (hpos : 0 < (ttlRequired st request maxSize).toNat) :
    (∃ keys, ttlKeysToEvict cfg.json cfg.order st request maxSize = .ok keys ∧ keys ≠ []) ↔
      (ttlRequired st request maxSize).toNat ≤ EvictionPolicy.volatileTtl.offers cfg.json st request := by
  obtain ⟨items, hitems, hweight⟩ := exists_ttlItems h hdata
  rw [sum_ttlEntries h] at hweight
  rw [← hweight, ← weightOf_perm (cfg.order.perm items), ttlKeysToEvict_eq, hitems]
  constructor
  · rintro ⟨keys, hkeys, hne⟩
    cases hsel : selection TtlItem.bytes (ttlRequired st request maxSize).toNat (cfg.order.sort items) with
    | none =>
      cases hkeys
      dsimp only at hne
      rw [hsel] at hne
      exact absurd rfl hne
    | some taken => exact (selection_isSome_iff.mp (Option.isSome_iff_exists.mpr ⟨taken, hsel⟩)).2
  · intro hle
    have hne : cfg.order.sort items ≠ [] := by
      rintro hnil
      rw [hnil, weightOf_nil] at hle
      omega
    obtain ⟨taken, hsel⟩ := Option.isSome_iff_exists.mp (selection_isSome_iff.mpr ⟨hne, hle⟩)
    refine ⟨taken.map TtlItem.key, ?_, fun hnil => ?_⟩
    · show Except.ok _ = Except.ok _
      dsimp only
      rw [hsel, Option.getD_some]
    · have := (begins_of_selection hsel).2
      rw [List.map_eq_nil_iff.mp hnil, weightOf_nil] at this
      omega

/-! ## Either policy -/

theorem ne_zero_of_exceeds {perms : Json} (hw : Writes request kv) (hmax : maxDatabaseSize perms = .ok maxSize)
    (h : operationExceedsAvailableSpace cfg st request perms = .ok true) : maxSize ≠ 0 := by
  rw [operationExceedsAvailableSpace, hmax, except_ok_bind] at h
  dsimp only at h
  rcases hw with hm | hm
  · rw [hm] at h
    exact (of_decide_eq_true (Except.ok.inj h)).1
  · rw [hm] at h
    dsimp only at h
    split at h
    · exact (of_decide_eq_true (Except.ok.inj h)).1
    · cases h

/-- For a request beyond the limit a policy returns enough keys wherever the request fits
without all others, just where the policy is offered what it asks for wherever it fits. -/
theorem evicts_iff (policy : EvictionPolicy) (cfg : Config) (st : MemStorage) (request : Request) (kv : KeyValue)
    (perms : Json) (maxSize : UInt64) (hw : Writes request kv) (hmax : maxDatabaseSize perms = .ok maxSize)
    (hexceeds : operationExceedsAvailableSpace cfg st request perms = .ok true)
    (hcounted : (st.getSize request.dbUuid).2.toNat = st.dataSize request.dbUuid)
    (hkey : kv.key.length < 2 ^ 32) (hvalue : kv.value.length < 2 ^ 32)
    (hkept : policy = .volatileTtl → TtlKept cfg st) :
    (FitsWithout policy cfg.json st request kv maxSize → MakesRoom policy cfg st request kv maxSize) ↔
      (FitsWithout policy cfg.json st request kv maxSize →
        policy.asks st request kv maxSize ≤ policy.offers cfg.json st request) := by
  have hpos := ne_zero_of_exceeds hw hmax hexceeds
  have hsize : (st.getSize request.dbUuid).2.toNat < 2 ^ 32 := by
    rw [getSize, UInt32.toNat_toUInt64]
    exact UInt32.toNat_lt _
  have hdata := hcounted ▸ hsize
  have hover : maxSize.toNat < st.dataSize request.dbUuid + needed request kv :=
    operationExceedsAvailableSpace_spec hw hmax hpos hcounted hdata hkey hvalue hexceeds
  rw [← hcounted] at hover
  -- keys that are returned are enough
  have hroom : MakesRoom policy cfg st request kv maxSize ↔
      ∃ keys, policy.keysToEvict cfg.json cfg.mt cfg.order st request maxSize = .ok keys ∧ keys ≠ [] := by
    constructor
    · rintro ⟨keys, hkeys, hne, -⟩
      exact ⟨keys, hkeys, hne⟩
    · rintro ⟨keys, hkeys, hne⟩
      refine ⟨keys, hkeys, hne, ?_⟩
      have hfrees := policy_frees hw hkey hvalue hover hsize (fun h => (hkept h).named) hkeys hne
      have hrest := dataSize_evict st request.dbUuid keys
      omega
  refine imp_congr_right fun _ => hroom.trans ?_
  cases policy with
  | random =>
    have htoFree := toNat_toFree hw hkey hvalue hover hsize
    have hasks : EvictionPolicy.random.asks st request kv maxSize =
        (keyValueSize request - (maxSize - (st.getSize request.dbUuid).2)).toNat := by
      rw [htoFree, EvictionPolicy.asks, hcounted, Nat.add_zero]
    rw [hasks, ← randomKeysToEvict_ne_nil_iff hdata cfg.json cfg.mt (by omega)]
    constructor
    · rintro ⟨keys, hkeys, hne⟩
      exact Except.ok.inj hkeys ▸ hne
    · intro hne
      exact ⟨_, rfl, hne⟩
  | volatileTtl =>
    have hrequired := toNat_ttlRequired hw hkey hvalue hover hsize
    have hasks : EvictionPolicy.volatileTtl.asks st request kv maxSize = (ttlRequired st request maxSize).toNat := by
      rw [hrequired, EvictionPolicy.asks, hcounted]
    rw [hasks, ← ttlKeysToEvict_iff (hkept rfl) hdata (by omega)]
    exact Iff.rfl

/-- Two keys of 6 bytes in a database of 16: the update of one to 10 bytes evicts the other. And one
key with an expiry time in a database of 12 bytes: it is evicted for another key. -/
theorem evicts_iff_pair :
    let cfg := { openConfig with order := .byRank fun _ => 0 }
    let s₁ := serve openConfig [callBy "alice" "db" (.createDb ⟨16, .random⟩),
      callBy "alice" "db" (.create ⟨ascii "a", ascii "12345", 0⟩),
      callBy "alice" "db" (.create ⟨ascii "b", ascii "12345", 0⟩)] empty
    let request₁ := (callBy "alice" "db" (.update ⟨ascii "a", ascii "1234567890", 0⟩)).request
    let s₂ := serve cfg [callBy "alice" "db" (.createDb ⟨12, .volatileTtl⟩),
      callBy "alice" "db" (.create ⟨ascii "a", ascii "123456789", 100⟩)] empty
    let request₂ := (callBy "alice" "db" (.create ⟨ascii "b", ascii "123", 0⟩)).request
    MakesRoom .random openConfig s₁.storage request₁ ⟨ascii "a", ascii "1234567890", 0⟩ 16 ∧
      MakesRoom .volatileTtl cfg s₂.storage request₂ ⟨ascii "b", ascii "123", 0⟩ 12 := by
  intro cfg s₁ request₁ s₂ request₂
  constructor
  · refine (evicts_iff .random openConfig s₁.storage request₁ _ (createPermissionData (ascii "alice") ⟨16, .random⟩) 16
      (.inr rfl) (by decide +kernel) (by decide +kernel) (by decide +kernel) (by decide) (by decide)
      (fun h => by cases h)).mpr (fun _ => by decide +kernel) ?_
    show _ ≤ _
    decide +kernel
  · have hkeys : s₂.storage.getKeys ttlUuid = [generateExpireKey .plain (ascii "db") (ascii "a")] := by decide +kernel
    have htime : (s₂.storage.read ttlUuid (generateExpireKey .plain (ascii "db") (ascii "a"))) =
      some (ascii "100") := by
      decide +kernel
    have hkept : TtlKept cfg s₂.storage := by
      have hmem : ∀ g, (s₂.storage.read ttlUuid g).isSome → g = generateExpireKey .plain (ascii "db") (ascii "a") := by
        intro g hg
        rwa [← mem_getKeys, hkeys, List.mem_singleton] at hg
      refine ⟨fun uuid key _ => JsonText.parse_plain _, fun g hg => ?_, fun g text hg => ?_⟩
      · exact ⟨_, _, hmem g hg, hmem g hg ▸ extractUuidKey_of_readsAs (JsonText.parse_plain _)⟩
      · rw [hmem g (Option.isSome_of_eq_some hg), htime] at hg
        cases hg
        exact ⟨100, by decide +kernel⟩
    refine (evicts_iff .volatileTtl cfg s₂.storage request₂ _
      (createPermissionData (ascii "alice") ⟨12, .volatileTtl⟩) 12
      (.inl rfl) (by decide +kernel) (by decide +kernel) (by decide +kernel) (by decide) (by decide)
      (fun _ => hkept)).mpr (fun _ => by decide +kernel) ?_
    show _ ≤ _
    decide +kernel

/-- In a database of 12 bytes the same update is refused, though it fits without the other
key; so is a create where the only key with an expiry time is longer than its value. -/
theorem refused_with_room :
    let cfg := { openConfig with order := .byRank fun _ => 0 }
    let s₁ := serve cfg [callBy "alice" "db" (.createDb ⟨12, .random⟩),
      callBy "alice" "db" (.create ⟨ascii "a", ascii "12345", 0⟩),
      callBy "alice" "db" (.create ⟨ascii "b", ascii "12345", 0⟩)] empty
    let c₁ := callBy "alice" "db" (.update ⟨ascii "a", ascii "1234567890", 0⟩)
    let s₂ := serve cfg [callBy "alice" "db" (.createDb ⟨20, .volatileTtl⟩),
      callBy "alice" "db" (.create ⟨ascii "longlonglong", ascii "v", 100⟩)] empty
    let c₂ := callBy "alice" "db" (.create ⟨ascii "new", ascii "1234567", 0⟩)
    (FitsWithout .random cfg.json s₁.storage c₁.request ⟨ascii "a", ascii "1234567890", 0⟩ 12 ∧
      randomKeysToEvict cfg.mt s₁.storage c₁.request 12 = [] ∧
      (answersSince s₁ (serve cfg [c₁] s₁)).map Answer.result = [.dbFull]) ∧
    (FitsWithout .volatileTtl cfg.json s₂.storage c₂.request ⟨ascii "new", ascii "1234567", 0⟩ 20 ∧
      ttlKeysToEvict cfg.json cfg.order s₂.storage c₂.request 20 = .ok [] ∧
      (answersSince s₂ (serve cfg [c₂] s₂)).map Answer.result = [.dbFull]) := by
  refine ⟨⟨?_, by decide +kernel⟩, ?_, by decide +kernel⟩
  · show _ ≤ _
    decide +kernel
  · show _ ≤ _
    decide +kernel

end SwarmDb.Crud
