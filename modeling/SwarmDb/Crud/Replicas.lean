import SwarmDb.Lib.Lists
import SwarmDb.Lib.TwoRuns
import SwarmDb.Crud.FailedRequests

/-!
# Two replicas

Two replicas handle the same requests in the same order, each at the time of its own clock. As long as the two agree on
whether the keys of a request are over, and the timer removes nothing, all that is not an expiry time stays the same,
and so do the responses (`replicas_identical`). Else they may come apart (`replicas_diverge`).
-/

namespace SwarmDb.Crud

open Lib Program

/-! ## Similar storages -/

/-- Texts that are read as a number alike: both are numbers, or they are equal. -/
def SameKind (v₁ v₂ : Bytes) : Prop := v₁ = v₂ ∨ ∃ n₁ n₂ : UInt64, v₁ = decimal n₁.toNat ∧ v₂ = decimal n₂.toNat

/-- Storages that differ in expiry times only. -/
structure Similar (st₁ st₂ : MemStorage) : Prop where
  others : ∀ uuid, uuid ≠ ttlUuid → st₁.inner uuid = st₂.inner uuid
  ttl : ∀ generatedKey, Option.Rel SameKind (st₁.read ttlUuid generatedKey) (st₂.read ttlUuid generatedKey)

theorem SameKind.refl (v : Bytes) : SameKind v v := .inl rfl

theorem Similar.refl (st : MemStorage) : Similar st st := by
  refine ⟨fun _ _ => rfl, fun g => ?_⟩
  cases st.read ttlUuid g with
  | none => exact .none
  | some v => exact .some (.refl v)

theorem isSome_eq_of_rel {α β : Type} {r : α → β → Prop} {a : Option α} {b : Option β} (h : Option.Rel r a b) :
    a.isSome = b.isSome := by
  cases h <;> rfl

namespace Similar

variable {st₁ st₂ : MemStorage} (h : Similar st₁ st₂) {uuid : Bytes}
include h

theorem read_eq (hu : uuid ≠ ttlUuid) (key : Bytes) : st₁.read uuid key = st₂.read uuid key := by
  rw [MemStorage.read, h.others uuid hu, MemStorage.read]

theorem getKeys_eq (hu : uuid ≠ ttlUuid) : st₁.getKeys uuid = st₂.getKeys uuid := by
  rw [MemStorage.getKeys, h.others uuid hu, MemStorage.getKeys]

theorem has_eq (uuid key : Bytes) : st₁.has uuid key = st₂.has uuid key := by
  rw [MemStorage.has_eq, MemStorage.has_eq]
  by_cases hu : uuid = ttlUuid
  · subst hu
    exact isSome_eq_of_rel (h.ttl key)
  · rw [h.read_eq hu]

theorem getSize_eq (hu : uuid ≠ ttlUuid) : st₁.getSize uuid = st₂.getSize uuid := by
  rw [MemStorage.getSize, h.getKeys_eq hu, h.others uuid hu, MemStorage.getSize]

theorem getKeySize_eq (hu : uuid ≠ ttlUuid) (key : Bytes) : st₁.getKeySize uuid key = st₂.getKeySize uuid key := by
  rw [MemStorage.getKeySize, h.read_eq hu, MemStorage.getKeySize]

theorem getKeys_ttl : st₁.getKeys ttlUuid = st₂.getKeys ttlUuid :=
  Map.keys_eq fun generatedKey => isSome_eq_of_rel (h.ttl generatedKey)

variable {st₁' st₂' : MemStorage}

section

variable (hu : uuid ≠ ttlUuid)
include hu

/-- A change of the store of another uuid. -/
theorem changed (hinner : st₁'.inner uuid = st₂'.inner uuid)
    (h₁ : ∀ uuid', uuid ≠ uuid' → st₁'.inner uuid' = st₁.inner uuid')
    (h₂ : ∀ uuid', uuid ≠ uuid' → st₂'.inner uuid' = st₂.inner uuid') : Similar st₁' st₂' := by
  refine ⟨fun uuid' hu' => ?_, fun g => ?_⟩
  · by_cases he : uuid = uuid'
    · exact he ▸ hinner
    · rw [h₁ uuid' he, h₂ uuid' he, h.others uuid' hu']
  · rw [MemStorage.read, MemStorage.read, h₁ _ hu, h₂ _ hu]
    exact h.ttl g

theorem create (key value : Bytes) :
    (st₁.create uuid key value).1 = (st₂.create uuid key value).1 ∧
      Similar (st₁.create uuid key value).2 (st₂.create uuid key value).2 := by
  have hc := MemStorage.create_congr (h.others uuid hu) key value
  exact ⟨hc.1, h.changed hu hc.2 (fun _ he => MemStorage.inner_create_of_ne he ..) fun _ he =>
    MemStorage.inner_create_of_ne he ..⟩

theorem update (key value : Bytes) :
    (st₁.update uuid key value).1 = (st₂.update uuid key value).1 ∧
      Similar (st₁.update uuid key value).2 (st₂.update uuid key value).2 := by
  have hc := MemStorage.update_congr (h.others uuid hu) key value
  exact ⟨hc.1, h.changed hu hc.2 (fun _ he => MemStorage.inner_update_of_ne he ..) fun _ he =>
    MemStorage.inner_update_of_ne he ..⟩

theorem remove (key : Bytes) :
    (st₁.remove uuid key).1 = (st₂.remove uuid key).1 ∧ Similar (st₁.remove uuid key).2 (st₂.remove uuid key).2 := by
  have hc := MemStorage.remove_congr (h.others uuid hu) key
  exact ⟨hc.1, h.changed hu hc.2 (fun _ he => MemStorage.inner_remove_of_ne he ..) fun _ he =>
    MemStorage.inner_remove_of_ne he ..⟩

theorem removeAll : Similar (st₁.removeAll uuid).2 (st₂.removeAll uuid).2 := by
  refine h.changed hu ?_ (fun uuid' he => ?_) fun uuid' he => ?_
  · rw [MemStorage.inner_removeAll, MemStorage.inner_removeAll, if_pos rfl, if_pos rfl]
  · rw [MemStorage.inner_removeAll, if_neg he]
  · rw [MemStorage.inner_removeAll, if_neg he]

end

/-- A change of one expiry time. -/
theorem ttlChanged (generatedKey : Bytes) {v₁ v₂ : Option Bytes} (hv : Option.Rel SameKind v₁ v₂)
    (h₁ : ∀ uuid, uuid ≠ ttlUuid → st₁'.inner uuid = st₁.inner uuid)
    (h₂ : ∀ uuid, uuid ≠ ttlUuid → st₂'.inner uuid = st₂.inner uuid)
    (hr₁ : ∀ uuid g, st₁'.read uuid g = if ttlUuid = uuid ∧ generatedKey = g then v₁ else st₁.read uuid g)
    (hr₂ : ∀ uuid g, st₂'.read uuid g = if ttlUuid = uuid ∧ generatedKey = g then v₂ else st₂.read uuid g) :
    Similar st₁' st₂' := by
  refine ⟨fun uuid hu => by rw [h₁ uuid hu, h₂ uuid hu, h.others uuid hu], fun g => ?_⟩
  rw [hr₁, hr₂]
  split
  · exact hv
  · exact h.ttl g

theorem removeTtl (generatedKey : Bytes) :
    Similar (st₁.remove ttlUuid generatedKey).2 (st₂.remove ttlUuid generatedKey).2 :=
  h.ttlChanged generatedKey .none (fun _ hu => MemStorage.inner_remove_of_ne hu.symm ..)
    (fun _ hu => MemStorage.inner_remove_of_ne hu.symm ..) (MemStorage.read_remove _ _ _) (MemStorage.read_remove _ _ _)

/-- An expiry time is created in both or in none. -/
theorem createTtl (generatedKey : Bytes) {v₁ v₂ : Bytes} (hv : SameKind v₁ v₂) (hl₁ : v₁.length ≤ maxValueSize)
    (hl₂ : v₂.length ≤ maxValueSize) :
    ((st₁.create ttlUuid generatedKey v₁).1 = .ok ↔ (st₂.create ttlUuid generatedKey v₂).1 = .ok) ∧
      ((st₁.create ttlUuid generatedKey v₁).1 = .ok →
        Similar (st₁.create ttlUuid generatedKey v₁).2 (st₂.create ttlUuid generatedKey v₂).2) := by
  have hiff : (st₁.create ttlUuid generatedKey v₁).1 = .ok ↔ (st₂.create ttlUuid generatedKey v₂).1 = .ok := by
    have hnone : st₁.read ttlUuid generatedKey = none ↔ st₂.read ttlUuid generatedKey = none := by
      rw [← Option.not_isSome_iff_eq_none, ← Option.not_isSome_iff_eq_none, isSome_eq_of_rel (h.ttl generatedKey)]
    rw [MemStorage.create_result_iff, MemStorage.create_result_iff, hnone]
    exact and_congr_left fun _ => ⟨fun _ => hl₂, fun _ => hl₁⟩
  exact ⟨hiff, fun hok => h.ttlChanged generatedKey (.some hv)
    (fun _ hu => MemStorage.inner_create_of_ne hu.symm ..) (fun _ hu => MemStorage.inner_create_of_ne hu.symm ..)
    (MemStorage.read_create hok) (MemStorage.read_create (hiff.mp hok))⟩

theorem updateTtl (generatedKey : Bytes) {v₁ v₂ : Bytes} (hv : SameKind v₁ v₂) (hl₁ : v₁.length ≤ maxValueSize)
    (hl₂ : v₂.length ≤ maxValueSize) :
    ((st₁.update ttlUuid generatedKey v₁).1 = .ok ↔ (st₂.update ttlUuid generatedKey v₂).1 = .ok) ∧
      ((st₁.update ttlUuid generatedKey v₁).1 = .ok →
        Similar (st₁.update ttlUuid generatedKey v₁).2 (st₂.update ttlUuid generatedKey v₂).2) := by
  have hiff : (st₁.update ttlUuid generatedKey v₁).1 = .ok ↔ (st₂.update ttlUuid generatedKey v₂).1 = .ok := by
    rw [MemStorage.update_result_iff, MemStorage.update_result_iff, isSome_eq_of_rel (h.ttl generatedKey)]
    exact and_congr_left fun _ => ⟨fun _ => hl₂, fun _ => hl₁⟩
  exact ⟨hiff, fun hok => h.ttlChanged generatedKey (.some hv)
    (fun _ hu => MemStorage.inner_update_of_ne hu.symm ..) (fun _ hu => MemStorage.inner_update_of_ne hu.symm ..)
    (MemStorage.read_update hok) (MemStorage.read_update (hiff.mp hok))⟩

end Similar

/-! ## What the handlers look up -/

section

variable {cfg : Config} {st₁ st₂ : MemStorage} {request : Request}

theorem permissionUuid_ne_ttlUuid : permissionUuid ≠ ttlUuid := by decide

theorem Similar.getDatabasePermissions_eq (h : Similar st₁ st₂) (uuid : Bytes) :
    getDatabasePermissions cfg st₁ uuid = getDatabasePermissions cfg st₂ uuid := by
  simp only [getDatabasePermissions, h.has_eq, h.read_eq permissionUuid_ne_ttlUuid]

theorem Similar.operationExceedsAvailableSpace_eq (h : Similar st₁ st₂) (hu : request.dbUuid ≠ ttlUuid) (perms : Json) :
    operationExceedsAvailableSpace cfg st₁ request perms = operationExceedsAvailableSpace cfg st₂ request perms := by
  simp only [operationExceedsAvailableSpace, getSwarmStorageUsage, h.getDatabasePermissions_eq, h.getSize_eq hu,
    h.getKeySize_eq hu, h.getKeys_eq permissionUuid_ne_ttlUuid, h.read_eq permissionUuid_ne_ttlUuid]

theorem Similar.growthExceeds_eq (h : Similar st₁ st₂) (hu : request.dbUuid ≠ ttlUuid) (m : CreateDb) (perms : Json) :
    growthExceeds cfg request st₁ m perms = growthExceeds cfg request st₂ m perms := by
  simp only [growthExceeds, h.operationExceedsAvailableSpace_eq hu]

/-! ### Eviction -/

theorem Similar.selectRandom_eq (h : Similar st₁ st₂) (hu : request.dbUuid ≠ ttlUuid) (mt : Mt19937) (ignoreKey : Bytes)
    (n : Nat) (drawn : List Nat) (storageToFree : UInt64) (availableKeys keysToEvict : List Bytes) :
    selectRandom mt st₁ request ignoreKey n drawn storageToFree availableKeys keysToEvict =
      selectRandom mt st₂ request ignoreKey n drawn storageToFree availableKeys keysToEvict := by
  induction n generalizing drawn storageToFree availableKeys keysToEvict with
  | zero => rfl
  | succ _ ih => simp only [selectRandom, h.getKeySize_eq hu, ih]

/-- An item without its expiry time. -/
def TtlItem.withoutTtl (item : TtlItem) : TtlItem := { item with ttl := 0 }

/-- `std::sort` moves the items by what its comparison says, which does not look at
the expiry times. -/
def TtlSort.IgnoresTtl (order : TtlSort) : Prop :=
  ∀ l, order.sort (l.map TtlItem.withoutTtl) = (order.sort l).map TtlItem.withoutTtl

theorem selectTtls_withoutTtl (requiredSize : UInt64) (items : List TtlItem) :
    selectTtls requiredSize (items.map TtlItem.withoutTtl) = selectTtls requiredSize items := by
  induction items generalizing requiredSize with
  | nil => rfl
  | cons _ _ ih => simp only [List.map_cons, selectTtls, TtlItem.withoutTtl, ih]

theorem Similar.getTtlItem_eq (h : Similar st₁ st₂) {dbUuid : Bytes} (hu : dbUuid ≠ ttlUuid) (ttl : Bytes) :
    (getTtlItem cfg.json st₁ dbUuid ttl).map TtlItem.withoutTtl =
      (getTtlItem cfg.json st₂ dbUuid ttl).map TtlItem.withoutTtl := by
  unfold getTtlItem
  cases cfg.json.parse ttl with
  | error => rfl
  | ok root =>
    cases hkey : memberString "key" root with
    | error => simp only [hkey, bind, Except.bind]
    | ok key =>
      simp only [hkey, bind, Except.bind, h.read_eq hu]
      have hrel := h.ttl (generateExpireKey cfg.json dbUuid key)
      generalize st₁.read ttlUuid (generateExpireKey cfg.json dbUuid key) = t₁ at hrel ⊢
      generalize st₂.read ttlUuid (generateExpireKey cfg.json dbUuid key) = t₂ at hrel ⊢
      cases st₂.read dbUuid key with
      | none => cases hrel <;> rfl
      | some =>
        cases hrel with
        | none => rfl
        | some hkind =>
          obtain rfl | ⟨n₁, n₂, rfl, rfl⟩ := hkind
          · rfl
          · simp only [toUInt64_decimal]
            rfl

section

variable (h : Similar st₁ st₂) (hu : request.dbUuid ≠ ttlUuid) (horder : cfg.order.IgnoresTtl)
include h hu horder

theorem Similar.ttlKeysToEvict_eq (maxSize : UInt64) :
    ttlKeysToEvict cfg.json cfg.order st₁ request maxSize = ttlKeysToEvict cfg.json cfg.order st₂ request maxSize := by
  simp only [ttlKeysToEvict, h.getKeys_ttl, h.getSize_eq hu]
  refine congrArg _ (funext fun ourTtls => ?_)
  split
  · rfl
  · have hitems : (ourTtls.mapM (getTtlItem cfg.json st₁ request.dbUuid)).map (List.map TtlItem.withoutTtl) =
        (ourTtls.mapM (getTtlItem cfg.json st₂ request.dbUuid)).map (List.map TtlItem.withoutTtl) := by
      rw [map_mapM, map_mapM, funext (h.getTtlItem_eq hu)]
    cases h₁ : ourTtls.mapM (getTtlItem cfg.json st₁ request.dbUuid) <;>
      cases h₂ : ourTtls.mapM (getTtlItem cfg.json st₂ request.dbUuid) <;> rw [h₁, h₂] at hitems
    · cases hitems
      rfl
    · cases hitems
    · cases hitems
    · rename_i items₁ items₂
      have hmap : items₁.map TtlItem.withoutTtl = items₂.map TtlItem.withoutTtl := by
        simpa only [Except.map, Except.ok.injEq] using hitems
      have hsort : ∀ n, selectTtls n (cfg.order.sort items₁) = selectTtls n (cfg.order.sort items₂) := fun n => by
        rw [← selectTtls_withoutTtl, ← horder, hmap, horder, selectTtls_withoutTtl]
      simp only [bind, Except.bind, hsort]

theorem Similar.keysToEvict_eq (maxSize : UInt64) :
    keysToEvict cfg st₁ request maxSize = keysToEvict cfg st₂ request maxSize := by
  have hpolicy : ∀ policy : EvictionPolicy, policy.keysToEvict cfg.json cfg.mt cfg.order st₁ request maxSize =
      policy.keysToEvict cfg.json cfg.mt cfg.order st₂ request maxSize := by
    intro policy
    cases policy with
    | random =>
      simp only [EvictionPolicy.keysToEvict, randomKeysToEvict, h.getSize_eq hu, h.getKeys_eq hu, h.selectRandom_eq hu]
    | volatileTtl => exact h.ttlKeysToEvict_eq hu horder maxSize
  simp only [keysToEvict, h.getDatabasePermissions_eq, hpolicy]

end

end

/-! ## Requests -/

/-- The keys of which a request asks whether they are over. -/
def Request.consulted (request : Request) (st : MemStorage) : List Bytes :=
  match request.msg with
  | .create kv | .update kv => [kv.key]
  | .read key | .quickRead key | .has key | .ttl key | .persist key | .expire key _ => [key]
  | .keys => st.getKeys request.dbUuid
  | _ => []

/-- The request names no database of expiry times, the replicas agree on whether
the keys that it looks at are over, and on how long the one of a `ttl` lasts. -/
structure Timely (cfg : Config) (now₁ now₂ : UInt64) (st₁ st₂ : MemStorage) (request : Request) : Prop where
  notTtl : request.dbUuid ≠ ttlUuid
  expired : ∀ key ∈ request.consulted st₁,
    expired cfg now₁ st₁ request.dbUuid key = expired cfg now₂ st₂ request.dbUuid key
  ttl : ∀ key, request.msg = .ttl key →
    getTtl cfg now₁ st₁ request.dbUuid key = getTtl cfg now₂ st₂ request.dbUuid key

/-- States that differ in expiry times only. -/
structure SimilarState (s₁ s₂ : Crud) : Prop where
  storage : Similar s₁.storage s₂.storage
  subscriptions : s₁.subscriptions = s₂.subscriptions
  answers : s₁.answers = s₂.answers

/-- The replicas agree on whether a key of a request's database is over. -/
abbrev SameExpiry (cfg : Config) (now₁ now₂ : UInt64) (s₁ s₂ : Crud) (request : Request) (key : Bytes) : Prop :=
  expired cfg now₁ s₁.storage request.dbUuid key = expired cfg now₂ s₂.storage request.dbUuid key

/-- A program does the same from two states. -/
abbrev Alike {α : Type} (s₁ s₂ : Crud) (p : Program Fault Crud α) : Prop := Agree SimilarState s₁ s₂ p p

theorem Similar.evict {st₁ st₂ : MemStorage} (h : Similar st₁ st₂) {uuid : Bytes} (hu : uuid ≠ ttlUuid)
    (keys : List Bytes) : Similar (evict st₁ uuid keys) (evict st₂ uuid keys) := by
  induction keys generalizing st₁ st₂ with
  | nil => exact h
  | cons key _ ih => exact ih (h.remove hu key).2

section

variable {cfg : Config} {now₁ now₂ : UInt64} {alive : Nat → Bool} {callerId : Bytes} {request : Request}
  {session : Option Nat} {s₁ s₂ : Crud} (h : SimilarState s₁ s₂)

include h

theorem sendResponse_agree (result : StorageResult) (body : ResponseBody) :
    Alike s₁ s₂ (sendResponse cfg request result body session) :=
  .update ⟨h.storage, h.subscriptions, congrArg (· ++ [_]) h.answers⟩

theorem setStorage_agree {st₁ st₂ : MemStorage} (hst : Similar st₁ st₂) :
    Agree SimilarState s₁ s₂ (setStorage st₁) (setStorage st₂) :=
  .update ⟨hst, h.subscriptions, h.answers⟩

/-- A check that is answered in one way where it fails. -/
theorem unless_agree {c : Prop} [Decidable c] {result : StorageResult} {body : ResponseBody}
    {p₁ p₂ : Program Fault Crud Unit} (hrest : ¬ c → Agree SimilarState s₁ s₂ p₁ p₂) :
    Agree SimilarState s₁ s₂ (if c then sendResponse cfg request result body session else p₁)
      (if c then sendResponse cfg request result body session else p₂) :=
  .ite Iff.rfl (fun _ => sendResponse_agree h _ _) hrest

theorem inspectCommit_agree : Alike s₁ s₂ (inspectCommit alive request) :=
  .update ⟨h.storage, congrArg (SubscriptionManager.inspectCommit alive request) h.subscriptions, h.answers⟩

theorem removeExpirationEntry_agree (generatedKey : Bytes) : Alike s₁ s₂ (removeExpirationEntry generatedKey) :=
  .update ⟨h.storage.removeTtl generatedKey, h.subscriptions, h.answers⟩

theorem updateExpirationEntry_agree (generatedKey : Bytes) (expire : UInt64) :
    Agree SimilarState s₁ s₂ (updateExpirationEntry now₁ generatedKey expire)
      (updateExpirationEntry now₂ generatedKey expire) := by
  have hshort : ∀ n : UInt64, (decimal n.toNat).length ≤ maxValueSize := fun n =>
    (length_decimal_le (w := 20) (by decide) (lt_trans n.toNat_lt (by decide))).trans (by decide)
  have hkind : SameKind (decimal (now₁ + expire).toNat) (decimal (now₂ + expire).toNat) := .inr ⟨_, _, rfl, rfl⟩
  refine .ite Iff.rfl (fun _ => .bind_read ?_) fun _ => removeExpirationEntry_agree h generatedKey
  obtain ⟨hcreate, hcreated⟩ := h.storage.createTtl generatedKey hkind (hshort _) (hshort _)
  obtain ⟨hupdate, hupdated⟩ := h.storage.updateTtl generatedKey hkind (hshort _) (hshort _)
  exact .ite hcreate (fun hok => setStorage_agree h (hcreated hok)) fun _ =>
    .ite hupdate (fun hok => setStorage_agree h (hupdated hok)) fun _ => .fail h _

theorem flushExpirationEntries_agree (uuid : Bytes) : Alike s₁ s₂ (flushExpirationEntries cfg uuid) := by
  refine .bind_read ?_
  rw [h.storage.getKeys_ttl]
  exact .forEach h fun generatedKey _ s₁ s₂ h => .bind_lift h rfl fun entry _ =>
    .ite Iff.rfl (fun _ => removeExpirationEntry_agree h generatedKey) fun _ => .pure h ()

theorem doEviction_agree (hu : request.dbUuid ≠ ttlUuid) (horder : cfg.order.IgnoresTtl)
    (maxSize : UInt64) :
    Alike s₁ s₂ (doEviction cfg request maxSize) := by
  refine .bind_read (.bind_lift h (h.storage.keysToEvict_eq hu horder maxSize) fun keys _ =>
    .ite Iff.rfl (fun _ => .pure h false) fun _ => ?_)
  exact .bind (setStorage_agree h (h.storage.evict hu keys)) fun _ _ _ h => .pure h true

theorem ifPermitted_agree {permitted : Json → Except Fault Bool}
    {body₁ body₂ : Json → Program Fault Crud Unit}
    (hbody : ∀ perms, Agree SimilarState s₁ s₂ (body₁ perms) (body₂ perms)) :
    Agree SimilarState s₁ s₂ (ifPermitted cfg request session permitted body₁)
      (ifPermitted cfg request session permitted body₂) := by
  refine .bind_read (.bind_lift h (h.storage.getDatabasePermissions_eq _) fun perms _ => ?_)
  cases perms with
  | none => exact sendResponse_agree h _ _
  | some perms =>
    exact .bind_lift h rfl fun allowed _ => .ite Iff.rfl (fun _ => hbody perms) fun _ => sendResponse_agree h _ _

variable {write : MemStorage → StorageResult × MemStorage}

theorem store_agree (kv : KeyValue)
    (hwrite : ∀ st₁ st₂, Similar st₁ st₂ → (write st₁).1 = (write st₂).1 ∧ Similar (write st₁).2 (write st₂).2) :
    Agree SimilarState s₁ s₂ (store cfg ⟨now₁, alive⟩ request session write kv)
      (store cfg ⟨now₂, alive⟩ request session write kv) := by
  obtain ⟨hresult, hst⟩ := hwrite _ _ h.storage
  refine .bind_read ?_
  dsimp only
  rw [hresult]
  refine .ite Iff.rfl (fun _ => ?_) fun _ => sendResponse_agree h _ _
  exact .bind (setStorage_agree h hst) fun _ _ _ h => .bind (updateExpirationEntry_agree h _ _) fun _ _ _ h =>
    .bind (inspectCommit_agree h) fun _ _ _ h => sendResponse_agree h _ _

theorem makeRoomAndStore_agree (hu : request.dbUuid ≠ ttlUuid) (horder : cfg.order.IgnoresTtl) (kv : KeyValue)
    (perms : Json) (hexpired : SameExpiry cfg now₁ now₂ s₁ s₂ request kv.key)
    (hwrite : ∀ st₁ st₂, Similar st₁ st₂ → (write st₁).1 = (write st₂).1 ∧ Similar (write st₁).2 (write st₂).2) :
    Agree SimilarState s₁ s₂ (makeRoomAndStore cfg ⟨now₁, alive⟩ request session write kv perms)
      (makeRoomAndStore cfg ⟨now₂, alive⟩ request session write kv perms) := by
  refine .bind_read (.bind_lift h rfl fun maxSize _ => unless_agree h fun _ => ?_)
  refine .bind_lift h hexpired fun _ _ => unless_agree h fun _ => ?_
  refine .bind_lift h (h.storage.operationExceedsAvailableSpace_eq hu perms) fun _ _ =>
    .ite Iff.rfl (fun _ => ?_) fun _ => store_agree h kv hwrite
  exact .bind (doEviction_agree h hu horder maxSize) fun _ _ _ h =>
    .ite Iff.rfl (fun _ => store_agree h kv hwrite) fun _ => sendResponse_agree h _ _

/-! ### Handlers -/

theorem handleRead_agree (hu : request.dbUuid ≠ ttlUuid) (key : Bytes)
    (found : Bytes → ResponseBody)
    (hexpired : SameExpiry cfg now₁ now₂ s₁ s₂ request key) :
    Agree SimilarState s₁ s₂ (handleRead cfg ⟨now₁, alive⟩ request session key found)
      (handleRead cfg ⟨now₂, alive⟩ request session key found) := by
  refine .bind_read ?_
  rw [h.storage.has_eq, h.storage.read_eq hu]
  refine unless_agree h fun _ => .bind_lift h hexpired fun _ _ => unless_agree h fun _ => ?_
  split
  · exact sendResponse_agree h _ _
  · exact sendResponse_agree h _ _

theorem handleDelete_agree (hu : request.dbUuid ≠ ttlUuid) (key : Bytes) :
    Agree SimilarState s₁ s₂ (handleDelete cfg ⟨now₁, alive⟩ callerId request session key)
      (handleDelete cfg ⟨now₂, alive⟩ callerId request session key) := by
  refine ifPermitted_agree h fun perms => .bind_read ?_
  obtain ⟨hresult, hst⟩ := h.storage.remove hu key
  dsimp only
  rw [hresult]
  refine .ite Iff.rfl (fun _ => ?_) fun _ => sendResponse_agree h _ _
  exact .bind (setStorage_agree h hst) fun _ _ _ h => .bind (inspectCommit_agree h) fun _ _ _ h =>
    .bind (removeExpirationEntry_agree h _) fun _ _ _ h => sendResponse_agree h _ _

theorem handleTtl_agree (key : Bytes)
    (hexpired : SameExpiry cfg now₁ now₂ s₁ s₂ request key)
    (httl : getTtl cfg now₁ s₁.storage request.dbUuid key = getTtl cfg now₂ s₂.storage request.dbUuid key) :
    Agree SimilarState s₁ s₂ (handleTtl cfg ⟨now₁, alive⟩ request session key)
      (handleTtl cfg ⟨now₂, alive⟩ request session key) := by
  refine .bind_read ?_
  rw [h.storage.has_eq]
  refine .ite Iff.rfl (fun _ => .bind_lift h hexpired fun _ _ => unless_agree h fun _ =>
    .bind_lift h httl fun ttl _ => ?_) fun _ => sendResponse_agree h _ _
  cases ttl with
  | none | some => exact sendResponse_agree h _ _

theorem handlePersist_agree (key : Bytes)
    (hexpired : SameExpiry cfg now₁ now₂ s₁ s₂ request key) :
    Agree SimilarState s₁ s₂ (handlePersist cfg ⟨now₁, alive⟩ callerId request session key)
      (handlePersist cfg ⟨now₂, alive⟩ callerId request session key) := by
  refine ifPermitted_agree h fun perms => .bind_read ?_
  dsimp only
  rw [h.storage.has_eq]
  exact .ite Iff.rfl (fun _ => .bind_lift h hexpired fun _ _ => unless_agree h fun _ =>
    .bind (removeExpirationEntry_agree h _) fun _ _ _ h => sendResponse_agree h _ _) fun _ => sendResponse_agree h _ _

theorem handleExpire_agree (key : Bytes) (expire : UInt64)
    (hexpired : SameExpiry cfg now₁ now₂ s₁ s₂ request key) :
    Agree SimilarState s₁ s₂ (handleExpire cfg ⟨now₁, alive⟩ callerId request session key expire)
      (handleExpire cfg ⟨now₂, alive⟩ callerId request session key expire) := by
  refine ifPermitted_agree h fun perms => .bind_read ?_
  dsimp only
  rw [h.storage.has_eq ttlUuid, h.storage.has_eq request.dbUuid, hexpired]
  refine .bind_lift h rfl fun _ _ => unless_agree h fun _ => unless_agree h fun _ => .ite Iff.rfl (fun _ => ?_) fun _ =>
    .ite Iff.rfl (fun _ => ?_) fun _ => sendResponse_agree h _ _
  · exact .bind (removeExpirationEntry_agree h _) fun _ _ _ h =>
      .bind (updateExpirationEntry_agree h _ _) fun _ _ _ h =>
      sendResponse_agree h _ _
  · exact .bind (updateExpirationEntry_agree h _ _) fun _ _ _ h => sendResponse_agree h _ _

theorem handleHas_agree (key : Bytes)
    (hexpired : SameExpiry cfg now₁ now₂ s₁ s₂ request key) :
    Agree SimilarState s₁ s₂ (handleHas cfg ⟨now₁, alive⟩ request session key)
      (handleHas cfg ⟨now₂, alive⟩ request session key) := by
  refine .bind_read ?_
  rw [h.storage.has_eq, h.storage.has_eq]
  exact .bind_lift h hexpired fun _ _ => unless_agree h fun _ => unless_agree h fun _ => sendResponse_agree h _ _

theorem handleKeys_agree (hu : request.dbUuid ≠ ttlUuid)
    (hexpired : ∀ key ∈ s₁.storage.getKeys request.dbUuid, SameExpiry cfg now₁ now₂ s₁ s₂ request key) :
    Agree SimilarState s₁ s₂ (handleKeys cfg ⟨now₁, alive⟩ request session)
      (handleKeys cfg ⟨now₂, alive⟩ request session) := by
  refine .bind_read ?_
  rw [h.storage.has_eq, ← h.storage.getKeys_eq hu]
  refine .ite Iff.rfl (fun _ => .bind_lift h (filterM_congr fun key hkey => ?_) fun keys _ =>
    sendResponse_agree h _ _) fun _ => sendResponse_agree h _ _
  rw [hexpired key hkey]

theorem handleSize_agree (hu : request.dbUuid ≠ ttlUuid) : Alike s₁ s₂ (handleSize cfg request session) := by
  refine .bind_read ?_
  rw [h.storage.getSize_eq hu]
  refine .bind_lift h (h.storage.getDatabasePermissions_eq _) fun perms _ => ?_
  cases perms with
  | none => exact sendResponse_agree h _ _
  | some => exact .bind_lift h rfl fun _ _ => sendResponse_agree h _ _

theorem handleSubscription_agree (change : Nat → SubscriptionManager → ResponseBody × SubscriptionManager) :
    Alike s₁ s₂ (handleSubscription cfg request session change) := by
  cases session with
  | none => exact .pure h ()
  | some =>
    refine .bind_read ?_
    rw [h.subscriptions]
    exact .bind (.update ⟨h.storage, rfl, h.answers⟩) fun _ _ _ h => sendResponse_agree h _ _

theorem handleCreateDb_agree (hu : request.dbUuid ≠ ttlUuid) (m : CreateDb) :
    Alike s₁ s₂ (handleCreateDb cfg callerId request session m) := by
  refine .bind_read ?_
  rw [h.storage.has_eq]
  refine unless_agree h fun _ => unless_agree h fun _ => unless_agree h fun _ => ?_
  refine .bind_lift h (h.storage.operationExceedsAvailableSpace_eq hu _) fun _ _ =>
    unless_agree h fun _ => ?_
  obtain ⟨hresult, hst⟩ := h.storage.create permissionUuid_ne_ttlUuid request.dbUuid
    (cfg.json.toStyledString (createPermissionData callerId m))
  dsimp only
  rw [hresult]
  exact .bind (setStorage_agree h hst) fun _ _ _ h => sendResponse_agree h _ _

theorem handleUpdateDb_agree (hu : request.dbUuid ≠ ttlUuid) (m : CreateDb) :
    Alike s₁ s₂ (handleUpdateDb cfg callerId request session m) := by
  refine ifPermitted_agree h fun perms => .bind_read (unless_agree h fun _ => ?_)
  refine .bind_lift h (h.storage.growthExceeds_eq hu m perms) fun _ _ =>
    unless_agree h fun _ => .bind_lift h rfl fun newPerms _ => ?_
  obtain ⟨hresult, hst⟩ := h.storage.update permissionUuid_ne_ttlUuid request.dbUuid (cfg.json.toStyledString newPerms)
  dsimp only
  rw [hresult]
  exact .bind (setStorage_agree h hst) fun _ _ _ h => sendResponse_agree h _ _

theorem handleDeleteDb_agree (hu : request.dbUuid ≠ ttlUuid) :
    Alike s₁ s₂ (handleDeleteDb cfg callerId request session) := by
  refine .bind_read (.bind_lift h (h.storage.getDatabasePermissions_eq _) fun perms _ => ?_)
  cases perms with
  | none => exact sendResponse_agree h _ _
  | some =>
    refine unless_agree h fun _ => .bind_lift h rfl fun _ _ =>
      .ite Iff.rfl (fun _ => ?_) fun _ => sendResponse_agree h _ _
    obtain ⟨hresult, hst⟩ := h.storage.remove permissionUuid_ne_ttlUuid request.dbUuid
    dsimp only
    rw [hresult]
    exact .bind (setStorage_agree h (hst.removeAll hu)) fun _ _ _ h =>
      .bind (flushExpirationEntries_agree h _) fun _ _ _ h => sendResponse_agree h _ _

theorem handleHasDb_agree : Alike s₁ s₂ (handleHasDb cfg request session) := by
  refine .bind_read ?_
  rw [h.storage.has_eq]
  exact sendResponse_agree h _ _

theorem handleWriters_agree : Alike s₁ s₂ (handleWriters cfg request session) := by
  refine .bind_read (.bind_lift h (h.storage.getDatabasePermissions_eq _) fun perms _ => ?_)
  cases perms with
  | none => exact sendResponse_agree h _ _
  | some =>
    exact .bind_lift h rfl fun _ _ => .bind_lift h rfl fun _ _ => .bind_lift h rfl fun _ _ =>
      .bind_lift h rfl fun _ _ => sendResponse_agree h _ _

theorem handleWriterChange_agree (change : Json → Except Fault Json) :
    Alike s₁ s₂ (handleWriterChange cfg callerId request session change) := by
  refine ifPermitted_agree h fun perms => .bind_read (.bind_lift h rfl fun newPerms _ => ?_)
  obtain ⟨hresult, hst⟩ := h.storage.update permissionUuid_ne_ttlUuid request.dbUuid (cfg.json.toStyledString newPerms)
  dsimp only
  rw [hresult]
  exact .ite Iff.rfl (fun _ => .bind (setStorage_agree h hst) fun _ _ _ h =>
    sendResponse_agree h _ _) fun _ => .fail h _

/-- A request that both replicas handle in time. -/
theorem handleRequest_agree (horder : cfg.order.IgnoresTtl)
    (ht : Timely cfg now₁ now₂ s₁.storage s₂.storage request) :
    Agree SimilarState s₁ s₂ (handleRequest cfg ⟨now₁, alive⟩ callerId request session)
      (handleRequest cfg ⟨now₂, alive⟩ callerId request session) := by
  have hu := ht.notTtl
  have hexp : ∀ key, request.consulted s₁.storage = [key] →
      SameExpiry cfg now₁ now₂ s₁ s₂ request key := fun key hkey =>
    ht.expired key (by rw [hkey]; exact List.mem_singleton_self key)
  unfold handleRequest
  split
  case h_1 kv hm =>
    exact ifPermitted_agree h fun perms => makeRoomAndStore_agree h hu horder kv perms
      (hexp kv.key (by rw [Request.consulted, hm])) fun _ _ hst => hst.create hu kv.key kv.value
  case h_2 hm => exact handleRead_agree h hu _ _ (hexp _ (by rw [Request.consulted, hm]))
  case h_3 kv hm =>
    exact ifPermitted_agree h fun perms => makeRoomAndStore_agree h hu horder kv perms
      (hexp kv.key (by rw [Request.consulted, hm])) fun _ _ hst => hst.update hu kv.key kv.value
  case h_4 => exact handleDelete_agree h hu _
  case h_5 hm => exact handleHas_agree h _ (hexp _ (by rw [Request.consulted, hm]))
  case h_6 hm => exact handleKeys_agree h hu fun key hkey => ht.expired key (by rwa [Request.consulted, hm])
  case h_7 => exact handleSize_agree h hu
  case h_8 => exact handleSubscription_agree h _
  case h_9 => exact handleSubscription_agree h _
  case h_10 => exact handleCreateDb_agree h hu _
  case h_11 => exact handleUpdateDb_agree h hu _
  case h_12 => exact handleDeleteDb_agree h hu
  case h_13 => exact handleHasDb_agree h
  case h_14 => exact handleWriters_agree h
  case h_15 => exact handleWriterChange_agree h _
  case h_16 => exact handleWriterChange_agree h _
  case h_17 hm => exact handleRead_agree h hu _ _ (hexp _ (by rw [Request.consulted, hm]))
  case h_18 hm => exact handleTtl_agree h _ (hexp _ (by rw [Request.consulted, hm])) (ht.ttl _ hm)
  case h_19 hm => exact handlePersist_agree h _ (hexp _ (by rw [Request.consulted, hm]))
  case h_20 hm => exact handleExpire_agree h _ _ (hexp _ (by rw [Request.consulted, hm]))
  all_goals exact .pure h ()

end

/-! ## The timer -/

/-- No entry of the table that is not over is for a key that is gone. -/
def NoStale (cfg : Config) (now : UInt64) (st : MemStorage) : Prop :=
  ∀ generatedKey text uuid key expires, st.read ttlUuid generatedKey = some text →
    extractUuidKey cfg generatedKey = .ok (uuid, key) → toUInt64 text = .ok expires → now < expires → st.has uuid key

variable {now : UInt64} {s : Crud}

theorem checkEntry_final {cfg : Config} (h : NoStale cfg now s.storage) (generatedKey : Bytes) :
    (checkEntry cfg now generatedKey).final s = s := by
  rw [checkEntry, final_read_bind]
  cases htext : s.storage.read ttlUuid generatedKey with
  | none => rfl
  | some =>
    refine final_lift_bind_of (P := (· = s)) rfl fun entry hentry =>
      final_lift_bind_of (P := (· = s)) rfl fun expires hexpires => ?_
    split
    · rfl
    · rename_i hover
      rw [if_pos (h _ _ _ _ _ htext hentry hexpires (UInt64.not_le.mp hover))]
      rfl

/-- A timer that finds no stale entry changes nothing. -/
theorem checkKeyExpiration_final {cfg : Config} (h : NoStale cfg now s.storage) :
    (checkKeyExpiration cfg now).final s = s := by
  rw [checkKeyExpiration, final_read_bind]
  exact final_bind_eq_self (final_collect_eq_self fun generatedKey _ => checkEntry_final h generatedKey) fun _ => rfl

/-! ## Runs -/

/-- A request that the replicas handle, the same for all of them. -/
structure Shared where
  callerId : Bytes
  request : Request
  session : Option Nat
  alive : Nat → Bool

/-- When a replica handles a request, and when its timer ran out since the last
one. -/
structure Local where
  ticks : List UInt64
  now : UInt64

/-- The timer of a replica runs out at some times. -/
def tick (cfg : Config) (ticks : List UInt64) (s : Crud) : Crud :=
  ticks.foldl (fun s now => (checkKeyExpiration cfg now).final s) s

/-- A replica after a request. -/
def handleAt (cfg : Config) (r : Shared × Local) (s : Crud) : Crud :=
  (handleRequest cfg ⟨r.2.now, r.1.alive⟩ r.1.callerId r.1.request r.1.session).final (tick cfg r.2.ticks s)

/-- A replica after some requests. -/
def serveAt (cfg : Config) (run : List (Shared × Local)) (s : Crud) : Crud := run.foldl (fun s r => handleAt cfg r s) s

/-- The timers of both replicas find no stale entry, and they handle the request in
time. -/
structure InTime (cfg : Config) (r : Shared) (l₁ l₂ : Local) (s₁ s₂ : Crud) : Prop where
  noStale₁ : ∀ now ∈ l₁.ticks, NoStale cfg now s₁.storage
  noStale₂ : ∀ now ∈ l₂.ticks, NoStale cfg now s₂.storage
  timely : Timely cfg l₁.now l₂.now s₁.storage s₂.storage r.request

theorem tick_eq {cfg : Config} {ticks : List UInt64} (h : ∀ now ∈ ticks, NoStale cfg now s.storage) :
    tick cfg ticks s = s := by
  induction ticks with
  | nil => rfl
  | cons now _ ih =>
    rw [tick, List.foldl_cons, checkKeyExpiration_final (h now (List.mem_cons_self ..))]
    exact ih fun now hnow => h now (List.mem_cons_of_mem _ hnow)

theorem handleAt_similar {cfg : Config} (horder : cfg.order.IgnoresTtl) {r : Shared} {l₁ l₂ : Local} {s₁ s₂ : Crud}
    (h : SimilarState s₁ s₂) (hin : InTime cfg r l₁ l₂ s₁ s₂) :
    SimilarState (handleAt cfg (r, l₁) s₁) (handleAt cfg (r, l₂) s₂) := by
  rw [handleAt, handleAt, tick_eq hin.noStale₁, tick_eq hin.noStale₂]
  exact (handleRequest_agree h horder hin.timely).final

/-- The run of the first replica. -/
def firstRun (both : List (Shared × Local × Local)) : List (Shared × Local) := both.map fun r => (r.1, r.2.1)

/-- The run of the second replica. -/
def secondRun (both : List (Shared × Local × Local)) : List (Shared × Local) := both.map fun r => (r.1, r.2.2)

theorem serveAt_similar {cfg : Config} (horder : cfg.order.IgnoresTtl) {both : List (Shared × Local × Local)}
    {s₁ s₂ : Crud} (h : SimilarState s₁ s₂)
    (hin : ∀ before r after, both = before ++ r :: after →
      InTime cfg r.1 r.2.1 r.2.2 (serveAt cfg (firstRun before) s₁) (serveAt cfg (secondRun before) s₂)) :
    SimilarState (serveAt cfg (firstRun both) s₁) (serveAt cfg (secondRun both) s₂) := by
  induction both generalizing s₁ s₂ with
  | nil => exact h
  | cons r both ih =>
    refine ih (handleAt_similar horder h (hin [] r both rfl)) fun before r' after he => ?_
    exact hin (r :: before) r' after (by rw [he]; rfl)

/-- Two replicas that start alike and handle the same requests in time have the
same databases, the same permissions and the same responses. -/
theorem replicas_identical (cfg : Config) (horder : cfg.order.IgnoresTtl) (s : Crud)
    (both : List (Shared × Local × Local))
    (hin : ∀ before r after, both = before ++ r :: after →
      InTime cfg r.1 r.2.1 r.2.2 (serveAt cfg (firstRun before) s) (serveAt cfg (secondRun before) s)) :
    (∀ uuid key, uuid ≠ ttlUuid → (serveAt cfg (firstRun both) s).storage.read uuid key =
        (serveAt cfg (secondRun both) s).storage.read uuid key) ∧
      (serveAt cfg (firstRun both) s).answers = (serveAt cfg (secondRun both) s).answers := by
  have hstart : SimilarState s s := ⟨.refl _, rfl, rfl⟩
  have h := serveAt_similar horder hstart hin
  exact ⟨fun uuid key hu => h.storage.read_eq hu key, h.answers⟩

/-! ## Two clocks -/

theorem ignoresTtl_openConfig : openConfig.order.IgnoresTtl := by
  intro l
  show (l.map TtlItem.withoutTtl).mergeSort _ = (l.mergeSort _).map TtlItem.withoutTtl
  refine (List.map_mergeSort fun a _ b _ => ?_).symm
  rfl

theorem noStale_of_noExpiry {cfg : Config} {st : MemStorage} (h : st.getKeys ttlUuid = []) : NoStale cfg now st := by
  intro generatedKey text uuid key expires htext
  have hmem := MemStorage.mem_getKeys.mpr (Option.isSome_of_eq_some htext)
  rw [h] at hmem
  cases hmem

/-- A request of a caller, without a session. -/
def sharedBy (callerId uuid : String) (msg : Msg) : Shared :=
  ⟨ascii callerId, ⟨⟨ascii uuid, 0, [], []⟩, msg⟩, none, fun _ => true⟩

/-- A database with a key that is over ten seconds after it was created. -/
def tenSeconds : List (Shared × Local × Local) :=
  [(sharedBy "alice" "db" (.createDb ⟨0, .none⟩), ⟨[], 0⟩, ⟨[0], 1⟩),
    (sharedBy "alice" "db" (.create ⟨ascii "k", ascii "v", 10⟩), ⟨[0], 0⟩, ⟨[], 1⟩)]

/-- The key is written again, by one replica in time and by the other one too late. -/
def tooLate : List (Shared × Local × Local) :=
  tenSeconds ++ [(sharedBy "alice" "db" (.update ⟨ascii "k", ascii "w", 0⟩), ⟨[], 5⟩, ⟨[], 20⟩)]

/-- The key is written again, by both replicas in time. -/
def inTime : List (Shared × Local × Local) :=
  tenSeconds ++ [(sharedBy "alice" "db" (.update ⟨ascii "k", ascii "w", 0⟩), ⟨[], 5⟩, ⟨[], 7⟩)]

/-- The key is over at 10 for the first replica and at 11 for the second. -/
theorem inTime_update : InTime openConfig (sharedBy "alice" "db" (.update ⟨ascii "k", ascii "w", 0⟩)) ⟨[], 5⟩ ⟨[], 7⟩
    (serveAt openConfig (firstRun tenSeconds) empty) (serveAt openConfig (secondRun tenSeconds) empty) := by
  have h₁ : (serveAt openConfig (firstRun tenSeconds) empty).storage.read ttlUuid
      (generateExpireKey .plain (ascii "db") (ascii "k")) = some (decimal 10) := by decide +kernel
  have h₂ : (serveAt openConfig (secondRun tenSeconds) empty).storage.read ttlUuid
      (generateExpireKey .plain (ascii "db") (ascii "k")) = some (decimal 11) := by decide +kernel
  refine ⟨fun _ hnow => (by cases hnow), fun _ hnow => (by cases hnow), by decide, fun key hkey => ?_, nofun⟩
  cases List.mem_singleton.mp hkey
  show expired openConfig 5 _ (ascii "db") (ascii "k") = expired openConfig 7 _ (ascii "db") (ascii "k")
  rw [expired, expired, expiryTime, expiryTime, show openConfig.json = .plain from rfl, h₁, h₂]
  rfl

theorem replicas_identical_in_time :
    (serveAt openConfig (firstRun inTime) empty).answers = (serveAt openConfig (secondRun inTime) empty).answers := by
  refine (replicas_identical openConfig ignoresTtl_openConfig empty inTime ?_).2
  rintro (_ | ⟨b, _ | ⟨b', _ | ⟨b'', _⟩⟩⟩) r after he
  · cases he
    refine ⟨fun _ _ => noStale_of_noExpiry rfl, fun _ _ => noStale_of_noExpiry rfl, by decide, ?_, ?_⟩
    · rintro key hkey
      cases hkey
    · rintro key hkey
      cases hkey
  · cases he
    refine ⟨fun _ _ => noStale_of_noExpiry (by decide +kernel), fun _ _ => noStale_of_noExpiry (by decide +kernel),
      by decide, ?_, ?_⟩
    · rintro key hkey
      cases List.mem_singleton.mp hkey
      rfl
    · rintro key hkey
      cases hkey
  · cases he
    exact inTime_update
  · simp [inTime, tenSeconds] at he

theorem replicas_diverge :
    let s₁ := serveAt openConfig (firstRun tooLate) empty
    let s₂ := serveAt openConfig (secondRun tooLate) empty
    s₁.storage.read (ascii "db") (ascii "k") = some (ascii "w") ∧
      s₂.storage.read (ascii "db") (ascii "k") = some (ascii "v") ∧
      s₁.answers.map Answer.result = [.ok, .ok, .ok] ∧ s₂.answers.map Answer.result = [.ok, .ok, .deletePending] := by
  decide +kernel

end SwarmDb.Crud
