import SwarmDb.Crud.Reachable

/-!
# Deleting a database

`delete_db` removes the permissions of a database, its keys, and the expiry times
that are read as those of its keys. Without databases under the names that `crud`
uses itself, nothing of the database is left then and nothing of any other has
changed (`deleteDb_complete`).
-/

namespace SwarmDb.Crud

open Lib Program MemStorage

variable {cfg : Config} {env : Env} {callerId : Bytes} {request : Request} {session : Option Nat} {uuid : Bytes}

/-! ## The loop over the expiry times -/

/-- Whether the key of an expiry time is read as one of a database. -/
def ownedBy (cfg : Config) (uuid generatedKey : Bytes) : Bool :=
  match extractUuidKey cfg generatedKey with
  | .ok entry => decide (entry.1 = uuid)
  | .error _ => false

/-- The keys of all expiry times are read without an exception. -/
def AllReadable (cfg : Config) (st : MemStorage) : Prop :=
  ∀ generatedKey, (st.read ttlUuid generatedKey).isSome → ∃ entry, extractUuidKey cfg generatedKey = .ok entry

theorem runFrom_flushLoop (uuid : Bytes) (keys : List Bytes) (s : Crud)
    (hall : ∀ generatedKey ∈ keys, ∃ entry, extractUuidKey cfg generatedKey = .ok entry) :
    (forEach keys fun generatedKey => do
      let entry ← lift (extractUuidKey cfg generatedKey)
      if entry.1 = uuid then removeExpirationEntry generatedKey else pure ()).runFrom s =
      (.ok (), { s with storage := evict s.storage ttlUuid (keys.filter (ownedBy cfg uuid)) }) := by
  induction keys generalizing s with
  | nil => rfl
  | cons generatedKey _ ih =>
    obtain ⟨entry, hentry⟩ := hall generatedKey (List.mem_cons_self ..)
    have hrest := fun s => ih s fun g hg => hall g (List.mem_cons_of_mem _ hg)
    rw [forEach, runFrom_bind, runFrom_bind, runFrom_lift, hentry, List.filter_cons, ownedBy, hentry]
    dsimp only
    by_cases howned : entry.1 = uuid
    · rw [if_pos howned, if_pos (decide_eq_true howned), removeExpirationEntry, runFrom_update]
      exact hrest _
    · rw [if_neg howned, if_neg (by simpa using howned), runFrom_pure]
      exact hrest _

theorem runFrom_flushExpirationEntries (uuid : Bytes) (s : Crud) (hall : AllReadable cfg s.storage) :
    (flushExpirationEntries cfg uuid).runFrom s = (.ok (), { s with
      storage := evict s.storage ttlUuid ((s.storage.getKeys ttlUuid).filter (ownedBy cfg uuid)) }) := by
  rw [flushExpirationEntries, runFrom_bind, runFrom_read]
  exact runFrom_flushLoop uuid _ s fun g hg => hall g (mem_getKeys.mp hg)

/-! ## The request -/

/-- The storage without the permissions and the keys of a database. -/
def withoutDb (uuid : Bytes) (st : MemStorage) : MemStorage := ((st.remove permissionUuid uuid).2.removeAll uuid).2

/-- The storage after a database was deleted. -/
def afterDelete (cfg : Config) (uuid : Bytes) (st : MemStorage) : MemStorage :=
  evict (withoutDb uuid st) ttlUuid (((withoutDb uuid st).getKeys ttlUuid).filter (ownedBy cfg uuid))

theorem isSome_of_isSome_withoutDb {st : MemStorage} {u k : Bytes} (h : ((withoutDb uuid st).read u k).isSome) :
    (st.read u k).isSome := by
  rw [withoutDb, read_removeAll] at h
  split at h
  · cases h
  · exact isSome_of_isSome_remove h

/-- A delete_db that is answered with ok. -/
theorem deletedDb_of_ok {s : Crud} (hm : request.msg = .deleteDb) (hall : AllReadable cfg s.storage) {a : Answer}
    (ha : a ∈ answersSince s ((handleRequest cfg env callerId request session).final s)) (hok : a.result = .ok) :
    (s.storage.read permissionUuid request.dbUuid).isSome ∧
      ((handleRequest cfg env callerId request session).final s).storage =
        afterDelete cfg request.dbUuid s.storage := by
  have hbody : handleRequest cfg env callerId request session = handleDeleteDb cfg callerId request session := by
    rw [handleRequest, hm]
  have hflush : (flushExpirationEntries cfg request.dbUuid).runFrom
      { s with storage := withoutDb request.dbUuid s.storage } =
      (.ok (), { s with storage := afterDelete cfg request.dbUuid s.storage }) :=
    runFrom_flushExpirationEntries _ _ fun g hg => hall g (isSome_of_isSome_withoutDb hg)
  rw [hbody, handleDeleteDb, final_read_bind] at ha ⊢
  obtain ⟨found, hperms, hfinal⟩ := exists_ok_of_answer ha
  rw [hfinal] at ha ⊢
  cases found with
  | none =>
    have hresult := eq_ok_of_answered ha hok
    split at hresult
    · cases hresult
    · cases hresult
  | some perms =>
    dsimp only at ha ⊢
    by_cases hreserved : reservedForOwner cfg callerId
    · rw [if_pos hreserved] at ha
      cases eq_ok_of_answered ha hok
    · rw [if_neg hreserved] at ha ⊢
      obtain ⟨owner, howner, hfinal⟩ := exists_ok_of_answer ha
      rw [hfinal] at ha ⊢
      cases owner with
      | false => cases eq_ok_of_answered ha hok
      | true =>
        refine ⟨read_of_getDatabasePermissions hperms, ?_⟩
        rw [if_pos rfl, setStorage, final_update_bind,
          show ((s.storage.remove permissionUuid request.dbUuid).2.removeAll request.dbUuid).2 =
            withoutDb request.dbUuid s.storage from rfl, final, runFrom_bind_ok hflush]
        rfl

/-! ## What is left -/

theorem inner_evict_of_ne {uuid' : Bytes} (h : uuid ≠ uuid') (st : MemStorage) (keys : List Bytes) :
    (evict st uuid keys).inner uuid' = st.inner uuid' := by
  induction keys generalizing st with
  | nil => rfl
  | cons key _ ih => exact (ih _).trans (inner_remove_of_ne h st key)

theorem inner_afterDelete_self (hne : uuid ≠ ttlUuid) (st : MemStorage) :
    (afterDelete cfg uuid st).inner uuid = (0, ∅) := by
  rw [afterDelete, inner_evict_of_ne hne.symm, withoutDb, inner_removeAll, if_pos rfl]

theorem inner_afterDelete_of_ne {uuid' : Bytes} (hne : uuid' ≠ uuid) (hp : uuid' ≠ permissionUuid)
    (ht : uuid' ≠ ttlUuid) (st : MemStorage) : (afterDelete cfg uuid st).inner uuid' = st.inner uuid' := by
  rw [afterDelete, inner_evict_of_ne ht.symm, withoutDb, inner_removeAll, if_neg hne.symm, inner_remove_of_ne hp.symm]

theorem read_permissions_afterDelete {uuid' : Bytes} (hp : uuid ≠ permissionUuid) (st : MemStorage) :
    (afterDelete cfg uuid st).read permissionUuid uuid' =
      if uuid = uuid' then none else st.read permissionUuid uuid' := by
  rw [afterDelete, read_evict, if_neg fun e => absurd e.1 (by decide), withoutDb, read_removeAll, if_neg hp,
    read_remove]
  simp only [true_and]

theorem read_ttl_afterDelete (ht : uuid ≠ ttlUuid) (st : MemStorage) (generatedKey : Bytes) :
    (afterDelete cfg uuid st).read ttlUuid generatedKey =
      if ownedBy cfg uuid generatedKey then none else st.read ttlUuid generatedKey := by
  have hbase : ∀ g, (withoutDb uuid st).read ttlUuid g = st.read ttlUuid g := fun g => by
    rw [withoutDb, read_removeAll, if_neg ht, read_remove, if_neg fun e => absurd e.1 (by decide)]
  have hmem : generatedKey ∈ ((withoutDb uuid st).getKeys ttlUuid).filter (ownedBy cfg uuid) ↔
      (st.read ttlUuid generatedKey).isSome ∧ ownedBy cfg uuid generatedKey := by
    rw [List.mem_filter, mem_getKeys, hbase]
  rw [afterDelete, read_evict, hbase]
  cases hread : st.read ttlUuid generatedKey with
  | none => simp only [ite_self]
  | some => simp only [hmem, hread, Option.isSome_some, true_and]

/-! ## Names that are not taken -/

/-- No database has a name that `crud` uses itself. -/
structure Unreserved (st : MemStorage) : Prop where
  permissions : st.read permissionUuid permissionUuid = none
  ttl : st.read permissionUuid ttlUuid = none

/-- The request is on a database under a name of its own. -/
structure OwnName (request : Request) : Prop where
  notPermissions : request.dbUuid ≠ permissionUuid
  notTtl : request.dbUuid ≠ ttlUuid

/-- The printed JSON of a uuid and a key is read back as it was. -/
def ReadsBack (json : JsonText) : Prop :=
  ∀ uuid key, json.ReadsAs (expireName uuid key) (expireName uuid key)

theorem not_footprint_permissions (h : OwnName request) {name : Bytes} (hname : request.dbUuid ≠ name) :
    ¬ Footprint cfg request.dbUuid permissionUuid name := by
  have hpt : permissionUuid ≠ ttlUuid := by decide
  generalize huuid : permissionUuid = uuid
  rintro (hentry | ⟨g, key, -⟩)
  · cases hentry with
    | permissions => exact hname rfl
    | value => exact h.notPermissions huuid.symm
    | ttl => exact hpt huuid
  · exact hpt huuid

theorem Reachable.unreserved {s : Crud} (h : Reachable cfg (fun _ c => OwnName c.request) s) :
    Unreserved s.storage := by
  refine h.invariant ?_ (fun s c st st' _ hc _ hch hst => ?_) fun st g hst => ?_
  · exact ⟨read_default .., read_default ..⟩
  · refine ⟨?_, ?_⟩
    · rw [hch.read_eq (not_footprint_permissions hc hc.notPermissions), hst.permissions]
    · rw [hch.read_eq (not_footprint_permissions hc hc.notTtl), hst.ttl]
  · refine ⟨?_, ?_⟩
    · rw [read_remove, if_neg fun e => absurd e.1 (by decide), hst.permissions]
    · rw [read_remove, if_neg fun e => absurd e.1 (by decide), hst.ttl]

/-! ## The database and the others -/

/-- Nothing is left of a database. -/
structure DbGone (cfg : Config) (uuid : Bytes) (st : MemStorage) : Prop where
  database : st.has permissionUuid uuid = false
  keys : st.getKeys uuid = []
  expiry : ∀ generatedKey key, extractUuidKey cfg generatedKey = .ok (uuid, key) → st.has ttlUuid generatedKey = false

/-- The keys with their values and their size, the permissions and the expiry times of all
other databases are as before. -/
structure OthersKept (cfg : Config) (uuid : Bytes) (st st' : MemStorage) : Prop where
  data : ∀ uuid', uuid' ≠ uuid → uuid' ≠ permissionUuid → uuid' ≠ ttlUuid → st'.inner uuid' = st.inner uuid'
  permissions : ∀ uuid', uuid' ≠ uuid → st'.read permissionUuid uuid' = st.read permissionUuid uuid'
  expiry : ∀ generatedKey uuid' key, extractUuidKey cfg generatedKey = .ok (uuid', key) → uuid' ≠ uuid →
    st'.read ttlUuid generatedKey = st.read ttlUuid generatedKey

theorem dbGone_afterDelete (hp : uuid ≠ permissionUuid) (ht : uuid ≠ ttlUuid) (st : MemStorage) :
    DbGone cfg uuid (afterDelete cfg uuid st) := by
  refine ⟨?_, ?_, fun g key hg => ?_⟩
  · rw [has_eq, read_permissions_afterDelete hp, if_pos rfl]
    rfl
  · rw [getKeys, inner_afterDelete_self ht]
    rfl
  · rw [has_eq, read_ttl_afterDelete ht, ownedBy, hg, if_pos (decide_eq_true rfl)]
    rfl

theorem othersKept_afterDelete (hp : uuid ≠ permissionUuid) (ht : uuid ≠ ttlUuid) (st : MemStorage) :
    OthersKept cfg uuid st (afterDelete cfg uuid st) := by
  refine ⟨fun uuid' hne hp' ht' => inner_afterDelete_of_ne hne hp' ht' st, fun uuid' hne => ?_,
    fun g uuid' key hg hne => ?_⟩
  · rw [read_permissions_afterDelete hp, if_neg hne.symm]
  · rw [read_ttl_afterDelete ht, ownedBy, hg, if_neg (by simpa using hne)]

/-- A create_db writes nothing but the permissions. -/
theorem createDb_inner {m : CreateDb} (hm : request.msg = .createDb m) (s : Crud) (hp : uuid ≠ permissionUuid) :
    ((handleRequest cfg env callerId request session).final s).storage.inner uuid = s.storage.inner uuid := by
  have houtcome := (handleRequest_ended cfg env callerId request session s).outcome
  generalize ((handleRequest cfg env callerId request session).final s).storage = st at houtcome ⊢
  cases houtcome with
  | same => rfl
  | createdDb => exact inner_create_of_ne hp.symm ..
  | updatedDb | changedWriters => exact inner_update_of_ne hp.symm ..
  | refused _ _ _ _ h => rcases h.writes with hw | hw <;> cases hm.symm.trans hw
  | written _ _ hw => rcases hw with hw | hw <;> cases hm.symm.trans hw
  | deleted _ hm' | persisted _ hm' | expires _ _ hm' | deletedDb hm' => cases hm.symm.trans hm'

/-- A delete_db that is answered with ok leaves nothing of the database and everything of
the others; a create_db that follows starts with no keys, no bytes and no expiry times. -/
theorem deleteDb_complete (cfg : Config) (hjson : ReadsBack cfg.json) (s : Crud)
    (hs : Reachable cfg (fun _ c => OwnName c.request) s) (c : Call) (hm : c.request.msg = .deleteDb) (a : Answer)
    (ha : a ∈ answersSince s ((handleRequest cfg c.env c.callerId c.request c.session).final s))
    (hok : a.result = .ok) :
    let s' := (handleRequest cfg c.env c.callerId c.request c.session).final s
    DbGone cfg c.request.dbUuid s'.storage ∧ OthersKept cfg c.request.dbUuid s.storage s'.storage ∧
      ∀ (c' : Call) (m : CreateDb), c'.request.msg = .createDb m → c'.request.dbUuid = c.request.dbUuid →
        let s'' := (handleRequest cfg c'.env c'.callerId c'.request c'.session).final s'
        s''.storage.getSize c.request.dbUuid = (0, 0) ∧ ∀ generatedKey key,
          extractUuidKey cfg generatedKey = .ok (c.request.dbUuid, key) →
            s''.storage.has ttlUuid generatedKey = false := by
  intro s'
  have hnamed : TtlNamed cfg s.storage :=
    hs.ttlNamed fun _ _ h => ⟨h.notTtl, fun key _ => extractUuidKey_of_readsAs (hjson _ key)⟩
  have hall : AllReadable cfg s.storage := fun g hg => by
    obtain ⟨uuid, key, -, hextract⟩ := hnamed g hg
    exact ⟨_, hextract⟩
  obtain ⟨hthere, hstorage⟩ := deletedDb_of_ok hm hall ha hok
  have hp : c.request.dbUuid ≠ permissionUuid := by
    intro e
    rw [e, hs.unreserved.permissions] at hthere
    cases hthere
  have ht : c.request.dbUuid ≠ ttlUuid := by
    intro e
    rw [e, hs.unreserved.ttl] at hthere
    cases hthere
  have hgone : DbGone cfg c.request.dbUuid s'.storage := hstorage ▸ dbGone_afterDelete hp ht _
  refine ⟨hgone, hstorage ▸ othersKept_afterDelete hp ht _, fun c' m hm' _ => ?_⟩
  intro s''
  have hsame : s''.storage.inner c.request.dbUuid = s'.storage.inner c.request.dbUuid := createDb_inner hm' s' hp
  have httl : s''.storage.inner ttlUuid = s'.storage.inner ttlUuid := createDb_inner hm' s' (by decide)
  refine ⟨?_, fun g key hg => ?_⟩
  · rw [getSize, getKeys, hsame, hstorage, inner_afterDelete_self ht]
    rfl
  · have hread : s''.storage.read ttlUuid g = s'.storage.read ttlUuid g := by
      rw [MemStorage.read, MemStorage.read, httl]
    rw [has_eq, hread, ← has_eq]
    exact hgone.expiry g key hg

theorem readsBack_plain : ReadsBack .plain := fun _ _ => JsonText.parse_plain _

theorem deleteDb_complete_first :
    let c₁ := callBy "alice" "db" (.createDb ⟨0, .none⟩)
    let c₂ := callBy "alice" "db" (.create ⟨ascii "k", ascii "v", 9⟩)
    let c₃ := callBy "alice" "db" .deleteDb
    let s₁ := (handleRequest openConfig c₁.env c₁.callerId c₁.request c₁.session).final empty
    let s₂ := (handleRequest openConfig c₂.env c₂.callerId c₂.request c₂.session).final s₁
    DbGone openConfig (ascii "db")
      ((handleRequest openConfig c₃.env c₃.callerId c₃.request c₃.session).final s₂).storage := by
  intro c₁ c₂ c₃ s₁ s₂
  have ha : (⟨.ok, ⟨⟨ascii "db", 0, [], []⟩, .notSet⟩, none, none⟩ : Answer) ∈
      answersSince s₂ ((handleRequest openConfig c₃.env c₃.callerId c₃.request c₃.session).final s₂) := by
        decide +kernel
  have hreach : Reachable openConfig (fun _ c => OwnName c.request) s₂ :=
    .request (.request .start c₁ ⟨by decide, by decide⟩) c₂ ⟨by decide, by decide⟩
  exact (deleteDb_complete openConfig readsBack_plain s₂ hreach c₃ rfl _ ha rfl).1

end SwarmDb.Crud
