import SwarmDb.Crud.Isolation
import SwarmDb.Crud.Outcomes

/-!
# The table of expiry times

`crud` keeps the expiry times of all databases in one table. In every run whose requests are all `Careful`, every entry
is that of a database and a key that are there (`ttlEntries_present`). `do_eviction` removes a key and leaves its entry
(`ttlEntry_dangles`).
-/

namespace SwarmDb.Crud

open Lib Program

variable {cfg : Config} {env : Env} {callerId : Bytes} {request : Request}

/-- An entry of the table, for a key of a database. -/
structure TtlEntry (cfg : Config) (st : MemStorage) (generatedKey uuid key : Bytes) : Prop where
  generated : generatedKey = generateExpireKey cfg.json uuid key
  readable : extractUuidKey cfg generatedKey = .ok (uuid, key)
  notPermissions : uuid ≠ permissionUuid
  notTtl : uuid ≠ ttlUuid
  database : (st.read permissionUuid uuid).isSome
  value : (st.read uuid key).isSome

/-- Every entry of the table is for a key that is there. -/
def TtlTable (cfg : Config) (st : MemStorage) : Prop :=
  ∀ generatedKey, (st.read ttlUuid generatedKey).isSome → ∃ uuid key, TtlEntry cfg st generatedKey uuid key

/-- The request may give an expiry time to a key. -/
def SetsExpiry (request : Request) (key : Bytes) : Prop :=
  (∃ kv, Writes request kv ∧ kv.key = key ∧ kv.expire ≠ 0) ∨ ∃ expire, request.msg = .expire key expire

/-- A request on a database under a name of its own, whose uuid and key are read
back from the key of an expiry time as they are, and that evicts no key with an
expiry time, other than the one it writes. -/
structure Careful (cfg : Config) (st : MemStorage) (env : Env) (callerId : Bytes) (request : Request) : Prop where
  notPermissions : request.dbUuid ≠ permissionUuid
  notTtl : request.dbUuid ≠ ttlUuid
  readable : ∀ key, SetsExpiry request key →
    extractUuidKey cfg (generateExpireKey cfg.json request.dbUuid key) = .ok (request.dbUuid, key)
  evicts : ∀ kv perms maxSize keys, Evicts cfg env callerId request st kv perms maxSize keys →
    ∀ key ∈ keys, (st.read ttlUuid (generateExpireKey cfg.json request.dbUuid key)).isSome →
      key = kv.key ∧ ¬ Refused request st kv keys

section

variable {st st' : MemStorage}

variable {uuid : Bytes}

theorem TtlEntry.congr {g key : Bytes} (h : TtlEntry cfg st g uuid key) (hdb : (st'.read permissionUuid uuid).isSome)
    (hval : (st'.read uuid key).isSome) : TtlEntry cfg st' g uuid key :=
  ⟨h.generated, h.readable, h.notPermissions, h.notTtl, hdb, hval⟩

/-- The expiry time of a key that is there may be written. -/
theorem TtlTable.written (h : TtlTable cfg st) {key : Bytes}
    (hw : TtlWritten (generateExpireKey cfg.json uuid key) st st')
    (hread : extractUuidKey cfg (generateExpireKey cfg.json uuid key) = .ok (uuid, key)) (hp : uuid ≠ permissionUuid)
    (ht : uuid ≠ ttlUuid) (hdb : (st.read permissionUuid uuid).isSome) (hval : (st.read uuid key).isSome) :
    TtlTable cfg st' := by
  obtain ⟨expires, hw⟩ := hw
  have hother : ∀ u k, u ≠ ttlUuid → st'.read u k = st.read u k := fun u k hu => by
    rw [hw, if_neg fun e => hu e.1.symm]
  have hpt : permissionUuid ≠ ttlUuid := by decide
  intro g hg
  rw [hw] at hg
  split at hg
  · rename_i heq
    refine ⟨uuid, key, heq.2.symm, heq.2 ▸ hread, hp, ht, ?_, ?_⟩
    · rwa [hother _ _ hpt]
    · rwa [hother _ _ ht]
  · obtain ⟨u, k, he⟩ := h g hg
    refine ⟨u, k, he.congr ?_ ?_⟩
    · rw [hother _ _ hpt]
      exact he.database
    · rw [hother _ _ he.notTtl]
      exact he.value

/-- An expiry time may be removed. -/
theorem TtlTable.removed (h : TtlTable cfg st) (generatedKey : Bytes) :
    TtlTable cfg (st.remove ttlUuid generatedKey).2 := by
  have hother : ∀ u k, u ≠ ttlUuid → (st.remove ttlUuid generatedKey).2.read u k = st.read u k := fun u k hu => by
    rw [MemStorage.read_remove, if_neg fun e => hu e.1.symm]
  intro g hg
  rw [MemStorage.read_remove] at hg
  split at hg
  · cases hg
  · obtain ⟨u, k, he⟩ := h g hg
    refine ⟨u, k, he.congr ?_ ?_⟩
    · rw [hother _ _ (by decide)]
      exact he.database
    · rw [hother _ _ he.notTtl]
      exact he.value

/-- The table is as it was, and the keys with an expiry time are still there. -/
theorem TtlTable.of_same (h : TtlTable cfg st) (hsame : ∀ g, (st'.read ttlUuid g).isSome → (st.read ttlUuid g).isSome)
    (hkept : ∀ g uuid key, (st'.read ttlUuid g).isSome → TtlEntry cfg st g uuid key →
      (st'.read permissionUuid uuid).isSome ∧ (st'.read uuid key).isSome) : TtlTable cfg st' := by
  intro g hg
  obtain ⟨u, k, he⟩ := h g (hsame g hg)
  exact ⟨u, k, he.congr (hkept g u k hg he).1 (hkept g u k hg he).2⟩

/-- Writing the permissions of a database takes nothing away. -/
theorem TtlTable.permissions {perms : Bytes} (ht : TtlTable cfg st)
    (h : ∀ u k, st'.read u k = if permissionUuid = u ∧ uuid = k then some perms else st.read u k) :
    TtlTable cfg st' := by
  have hkept : ∀ u k, (st.read u k).isSome → (st'.read u k).isSome := by
    intro u k hk
    rw [h]
    split
    · rfl
    · exact hk
  refine ht.of_same (fun g hg => ?_) fun g u k _ he => ⟨hkept _ _ he.database, hkept _ _ he.value⟩
  rwa [h, if_neg fun e => absurd e.1 (by decide)] at hg

theorem isSome_read_writeTo {kv : KeyValue} (h : (writeTo request kv st).1 = .ok) (uuid key : Bytes) :
    ((writeTo request kv st).2.read uuid key).isSome ↔
      (request.dbUuid = uuid ∧ kv.key = key) ∨ (st.read uuid key).isSome := by
  have hread : (writeTo request kv st).2.read uuid key =
      if request.dbUuid = uuid ∧ kv.key = key then some kv.value else st.read uuid key := by
    rw [writeTo] at h ⊢
    split
    · rename_i hu
      rw [if_pos hu] at h
      exact MemStorage.read_update h uuid key
    · rename_i hu
      rw [if_neg hu] at h
      exact MemStorage.read_create h uuid key
  rw [hread]
  split
  · rename_i heq
    simp [heq]
  · rename_i hne
    simp [hne]

end

/-- One careful request keeps the table. -/
theorem Outcome.ttlTable {st st' : MemStorage} (h : Outcome cfg env callerId request st st')
    (hc : Careful cfg st env callerId request) (ht : TtlTable cfg st) : TtlTable cfg st' := by
  have hpt : permissionUuid ≠ ttlUuid := by decide
  have hdb : MayWrite cfg callerId request st → (st.read permissionUuid request.dbUuid).isSome :=
    fun ⟨perms, hperms, _⟩ => read_of_getDatabasePermissions hperms
  cases h with
  | same => exact ht
  | refused kv perms maxSize keys h hr =>
    refine ht.of_same (fun g hg => ?_) fun g uuid key hg he => ?_
    · rwa [read_evict, if_neg fun e => hc.notTtl e.1] at hg
    · rw [read_evict, if_neg fun e => hc.notTtl e.1] at hg
      rw [read_evict, if_neg fun e => hc.notPermissions e.1, read_evict, if_neg]
      · exact ⟨he.database, he.value⟩
      · rintro ⟨rfl, hk⟩
        rw [he.generated] at hg
        exact (hc.evicts kv perms maxSize keys h key hk hg).2 hr
  | written kv keys hw hp hkeys hok _ httl =>
    have hreadTtl : ∀ g, ((writeTo request kv (evict st request.dbUuid keys)).2.read ttlUuid g).isSome →
        (st.read ttlUuid g).isSome := by
      intro g hg
      rw [isSome_read_writeTo hok] at hg
      have hg := hg.resolve_left fun e => hc.notTtl e.1
      rwa [read_evict, if_neg fun e => hc.notTtl e.1] at hg
    have hkept : ∀ g uuid key, ((writeTo request kv (evict st request.dbUuid keys)).2.read ttlUuid g).isSome →
        TtlEntry cfg st g uuid key →
        ((writeTo request kv (evict st request.dbUuid keys)).2.read permissionUuid uuid).isSome ∧
        ((writeTo request kv (evict st request.dbUuid keys)).2.read uuid key).isSome := by
      intro g uuid key hg he
      rw [isSome_read_writeTo hok, isSome_read_writeTo hok, read_evict, if_neg fun e => hc.notPermissions e.1,
        read_evict]
      refine ⟨.inr he.database, ?_⟩
      split
      · rename_i hin
        obtain ⟨rfl, hk⟩ := hin
        have hg := hreadTtl g hg
        rw [he.generated] at hg
        rcases hkeys with rfl | ⟨perms, maxSize, hev⟩
        · cases hk
        · exact .inl ⟨rfl, (hc.evicts kv perms maxSize keys hev key hk hg).1.symm⟩
      · exact .inr he.value
    have htable := ht.of_same hreadTtl hkept
    rw [TtlOutcome] at httl
    split at httl
    · rw [httl]
      exact htable.removed _
    · rename_i hz
      rcases httl with rfl | hwritten
      · exact htable
      · refine htable.written hwritten.ttlWritten
          (hc.readable kv.key (.inl ⟨kv, hw, rfl, hz⟩)) hc.notPermissions hc.notTtl ?_ ?_
        · rw [isSome_read_writeTo hok, read_evict, if_neg fun e => hc.notPermissions e.1]
          exact .inr (hdb hp)
        · rw [isSome_read_writeTo hok]
          exact .inl ⟨rfl, rfl⟩
  | deleted key =>
    have hread : ∀ uuid k, ((st.remove request.dbUuid key).2.remove ttlUuid
        (generateExpireKey cfg.json request.dbUuid key)).2.read uuid k =
        if ttlUuid = uuid ∧ generateExpireKey cfg.json request.dbUuid key = k ∨ request.dbUuid = uuid ∧ key = k
        then none else st.read uuid k := by
      intro uuid k
      rw [MemStorage.read_remove, MemStorage.read_remove, ite_or]
    refine ht.of_same (fun g hg => ?_) fun g uuid k hg he => ?_
    · rw [hread] at hg
      split at hg
      · cases hg
      · exact hg
    · rw [hread] at hg
      split at hg
      · cases hg
      · rename_i hne
        rw [hread, if_neg, hread, if_neg]
        · exact ⟨he.database, he.value⟩
        · rintro (⟨e, -⟩ | ⟨rfl, rfl⟩)
          · exact he.notTtl e.symm
          · exact hne (.inl ⟨rfl, he.generated.symm⟩)
        · rintro (⟨e, -⟩ | ⟨e, -⟩)
          · exact hpt e.symm
          · exact hc.notPermissions e
  | persisted => exact ht.removed _
  | expires key expire hm hp hin _ _ h₁ h =>
    have hread := hc.readable key (.inr ⟨expire, hm⟩)
    -- an expiry time that is there is one of a key that is there
    have hval : (st.read request.dbUuid key).isSome := by
      rcases hin with hin | hin
      · obtain ⟨u, k, he⟩ := ht _ hin
        have := he.readable
        rw [hread] at this
        cases this
        exact he.value
      · exact hin
    rcases ttl_cases h₁ h with rfl | rfl | hwritten
    · exact ht
    · exact ht.removed _
    · exact ht.written hwritten hread hc.notPermissions hc.notTtl (hdb hp) hval
  | createdDb _ _ _ _ h => exact ht.permissions (MemStorage.read_create h)
  | updatedDb _ _ _ _ _ _ _ _ _ h | changedWriters _ _ _ _ h => exact ht.permissions (MemStorage.read_update h)
  | deletedDb _ _ _ h =>
    have hbase : ∀ uuid key, uuid ≠ request.dbUuid → (permissionUuid = uuid → key ≠ request.dbUuid) →
        ((st.remove permissionUuid request.dbUuid).2.removeAll request.dbUuid).2.read uuid key = st.read uuid key := by
      intro uuid key hne hnp
      rw [MemStorage.read_removeAll, if_neg hne.symm, MemStorage.read_remove, if_neg]
      exact fun e => hnp e.1 e.2.symm
    have hsome : ∀ g, (st'.read ttlUuid g).isSome → (st.read ttlUuid g).isSome := by
      intro g hg
      have := h.fewer g hg
      rwa [hbase _ _ hc.notTtl.symm fun e => absurd e hpt] at this
    have hall : ∀ g, (st.read ttlUuid g).isSome → ∃ entry, extractUuidKey cfg g = .ok entry := fun g hg => by
      obtain ⟨u, k, he⟩ := ht g hg
      exact ⟨(u, k), he.readable⟩
    refine ht.of_same hsome fun g uuid key hg he => ?_
    have hne : uuid ≠ request.dbUuid := by
      rintro rfl
      rw [h.flushed hall g key he.readable] at hg
      cases hg
    rw [h.others _ _ hpt, h.others _ _ he.notTtl, hbase _ _ hc.notPermissions.symm fun _ => hne,
      hbase _ _ hne fun e => absurd e.symm he.notPermissions]
    exact ⟨he.database, he.value⟩

theorem handleRequest_ttlTable {s : Crud} {session : Option Nat} (hc : Careful cfg s.storage env callerId request)
    (ht : TtlTable cfg s.storage) :
    TtlTable cfg ((handleRequest cfg env callerId request session).final s).storage :=
  (handleRequest_ended cfg env callerId request session s).outcome.ttlTable hc ht

theorem serve_ttlTable {calls : List Call} {s : Crud}
    (hc : ∀ before c after, calls = before ++ c :: after →
      Careful cfg (serve cfg before s).storage c.env c.callerId c.request)
    (ht : TtlTable cfg s.storage) : TtlTable cfg (serve cfg calls s).storage := by
  induction calls generalizing s with
  | nil => exact ht
  | cons c calls ih =>
    refine ih (fun before d after he => ?_) (handleRequest_ttlTable (hc [] c calls rfl) ht)
    exact hc (c :: before) d after (by rw [he]; rfl)

/-- In every run of careful requests over an empty store, every expiry time is
that of a database that exists and of a key in it. -/
theorem ttlEntries_present (cfg : Config) (calls : List Call)
    (hc : ∀ before c after, calls = before ++ c :: after →
      Careful cfg (serve cfg before empty).storage c.env c.callerId c.request) (generatedKey : Bytes)
    (hg : generatedKey ∈ (serve cfg calls empty).storage.getKeys ttlUuid) :
    ∃ uuid key, extractUuidKey cfg generatedKey = .ok (uuid, key) ∧
      (serve cfg calls empty).storage.has permissionUuid uuid ∧ (serve cfg calls empty).storage.has uuid key := by
  have hempty : TtlTable cfg empty.storage := by
    intro g hg
    rw [show empty.storage = default from rfl, MemStorage.read_default] at hg
    cases hg
  obtain ⟨uuid, key, he⟩ := serve_ttlTable hc hempty generatedKey (MemStorage.mem_getKeys.mp hg)
  refine ⟨uuid, key, he.readable, ?_, ?_⟩
  · rw [MemStorage.has_eq]
    exact he.database
  · rw [MemStorage.has_eq]
    exact he.value

/-! ## A key with an expiry time -/

/-- A request while the table is empty is careful. -/
theorem careful_of_noExpiry {st : MemStorage} (hp : request.dbUuid ≠ permissionUuid) (ht : request.dbUuid ≠ ttlUuid)
    (hst : st.getKeys ttlUuid = []) : Careful openConfig st env callerId request := by
  refine ⟨hp, ht, fun key _ => extractUuidKey_openConfig _ key, fun kv perms maxSize keys _ key _ hin => ?_⟩
  have := MemStorage.mem_getKeys.mpr hin
  rw [hst] at this
  cases this

theorem ttlEntries_present_once :
    ∃ uuid key, extractUuidKey openConfig (generateExpireKey JsonText.plain (ascii "db") (ascii "k")) =
      .ok (uuid, key) ∧
      firstDatabase.storage.has permissionUuid uuid ∧ firstDatabase.storage.has uuid key := by
  refine ttlEntries_present openConfig [callBy "alice" "db" (.createDb ⟨0, .none⟩),
    callBy "alice" "db" (.create ⟨ascii "k", ascii "v", 9⟩)] ?_ _ (by decide +kernel)
  rintro (_ | ⟨b, _ | ⟨b', _⟩⟩) c after he
  · cases he
    exact careful_of_noExpiry (by decide) (by decide) rfl
  · cases he
    exact careful_of_noExpiry (by decide) (by decide) (by decide +kernel)
  · simp at he

/-- The only key of a database of 10 bytes has an expiry time and is evicted for
another: the expiry time stays. -/
theorem ttlEntry_dangles :
    let s := serve openConfig [callBy "alice" "db" (.createDb ⟨10, .random⟩),
      callBy "alice" "db" (.create ⟨ascii "k", ascii "value", 5⟩),
      callBy "alice" "db" (.create ⟨ascii "j", ascii "other", 0⟩)] empty
    let generatedKey := generateExpireKey JsonText.plain (ascii "db") (ascii "k")
    generatedKey ∈ s.storage.getKeys ttlUuid ∧ extractUuidKey openConfig generatedKey = .ok (ascii "db", ascii "k") ∧
      s.storage.has (ascii "db") (ascii "k") = false :=
  ⟨by decide +kernel, extractUuidKey_openConfig _ _, by decide +kernel⟩

end SwarmDb.Crud
