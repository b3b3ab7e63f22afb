import SwarmDb.Crud.FailedRequests

/-!
# Isolation of databases

Requests of callers that have no rights in a database leave all of it as it is (`isolated`), as long as nobody creates
a database under one of the names `PERMS` and `TTL` of the tables of `crud` (`permissions_taken`).
-/

namespace SwarmDb.Crud

open Lib Program

/-! ## Entries -/

/-- What belongs to a database: its permissions, its values and the expiry times
of its keys. -/
inductive Entry (json : JsonText) (db : Bytes) : Bytes → Bytes → Prop
  | permissions : Entry json db permissionUuid db
  | value (key : Bytes) : Entry json db db key
  | ttl (key : Bytes) : Entry json db ttlUuid (generateExpireKey json db key)

/-- What the requests on a database may change: its entries, and the expiry times
that are read as those of its keys. -/
inductive Footprint (cfg : Config) (db : Bytes) : Bytes → Bytes → Prop
  | entry {uuid key : Bytes} (h : Entry cfg.json db uuid key) : Footprint cfg db uuid key
  | named (generatedKey key : Bytes) (h : extractUuidKey cfg generatedKey = .ok (db, key)) :
      Footprint cfg db ttlUuid generatedKey

variable {cfg : Config} {env : Env} {callerId : Bytes} {request : Request} {st₀ st st' : MemStorage} {uuid key : Bytes}

theorem read_writeTo {kv : KeyValue} (h : (writeTo request kv st).1 = .ok)
    (hne : request.dbUuid ≠ uuid) : (writeTo request kv st).2.read uuid key = st.read uuid key := by
  rw [writeTo] at h ⊢
  split
  · rename_i hu
    rw [if_pos hu] at h
    rw [MemStorage.read_update h, if_neg fun e => hne e.1]
  · rename_i hu
    rw [if_neg hu] at h
    rw [MemStorage.read_create h, if_neg fun e => hne e.1]

/-- A change stays within the entries of the request's database. -/
theorem Change.read_eq (h : Change cfg env callerId request st₀ st st')
    (hf : ¬ Footprint cfg request.dbUuid uuid key) : st'.read uuid key = st.read uuid key := by
  have hvalue : request.dbUuid ≠ uuid := by
    rintro rfl
    exact hf (.entry (.value key))
  have hperms : ¬ (permissionUuid = uuid ∧ request.dbUuid = key) := by
    rintro ⟨rfl, rfl⟩
    exact hf (.entry .permissions)
  have httl : ∀ k, ¬ (ttlUuid = uuid ∧ generateExpireKey cfg.json request.dbUuid k = key) := by
    rintro k ⟨rfl, rfl⟩
    exact hf (.entry (.ttl k))
  cases h with
  | evict => rw [read_evict, if_neg fun e => hvalue e.1]
  | write _ _ _ _ h => exact read_writeTo h hvalue
  | delete => rw [MemStorage.read_remove, if_neg fun e => hvalue e.1]
  | createTtl _ k _ _ h => rw [MemStorage.read_create h, if_neg (httl k)]
  | updateTtl _ k _ _ h => rw [MemStorage.read_update h, if_neg (httl k)]
  | removeTtl _ k => rw [MemStorage.read_remove, if_neg (httl k)]
  | createDb _ _ _ h => rw [MemStorage.read_create h, if_neg hperms]
  | updateDb _ _ h => rw [MemStorage.read_update h, if_neg hperms]
  | deleteDb => rw [MemStorage.read_removeAll, if_neg hvalue, MemStorage.read_remove, if_neg hperms]
  | flushTtl _ _ k _ h =>
    rw [MemStorage.read_remove, if_neg]
    rintro ⟨rfl, rfl⟩
    exact hf (.named _ k h)

/-! ## Rights -/

/-- The caller is the owner or a writer of a database with these permissions, or
a peer. -/
def Entitled (cfg : Config) (callerId : Bytes) (perms : Json) : Prop :=
  (∃ owner, perms.member ownerKey = .ok owner ∧ owner.isString (trimCopy callerId)) ∨
  (∃ writers, perms.member writersKey = .ok writers ∧ ∃ w ∈ writers.elements, w.isString (trimCopy callerId)) ∨
  trimCopy callerId ∈ cfg.peers

theorem ofJson_eq_ok {α : Type} {x : Except String α} {a : α} (h : ofJson x = .ok a) : x = .ok a := by
  cases x with
  | ok => cases h; rfl
  | error => cases h

variable {perms : Json}

theorem entitled_of_owner (h : isCallerOwner callerId perms = .ok true) : Entitled cfg callerId perms := by
  obtain ⟨owner, ho, h⟩ := except_bind_eq_ok.mp h
  exact .inl ⟨owner, ofJson_eq_ok ho, by simpa [Pure.pure, Except.pure] using h⟩

theorem entitled_of_writer (h : isCallerAWriter cfg callerId perms = .ok true) : Entitled cfg callerId perms := by
  obtain ⟨writers, hw, h⟩ := except_bind_eq_ok.mp h
  split at h
  · rename_i hany
    exact .inr (.inl ⟨writers, ofJson_eq_ok hw, by simpa using hany⟩)
  · split at h
    · rename_i hpeer
      exact .inr (.inr (by simpa using hpeer))
    · exact entitled_of_owner h

/-- A change needs a right in the database of the request, or creates it. -/
theorem Change.rights (h : Change cfg env callerId request st₀ st st') :
    (∃ perms, getDatabasePermissions cfg st₀ request.dbUuid = .ok (some perms) ∧ Entitled cfg callerId perms) ∨
    ((∃ m, request.msg = .createDb m) ∧ st₀.read permissionUuid request.dbUuid = none) := by
  cases h with
  | evict _ _ _ _ h => exact .inl (Exists.imp (fun _ => .imp_right entitled_of_writer) h.mayWrite)
  | write _ _ _ hp | delete _ _ hp | createTtl _ _ _ hp | updateTtl _ _ _ hp | removeTtl _ _ hp =>
    exact .inl (Exists.imp (fun _ => .imp_right entitled_of_writer) hp)
  | createDb m _ hm h => exact .inr ⟨⟨m, hm⟩, ((MemStorage.create_result_iff ..).mp h).2.2⟩
  | updateDb _ hp | deleteDb hp | flushTtl _ _ _ hp =>
    exact .inl (Exists.imp (fun _ => .imp_right entitled_of_owner) hp)

/-! ## One request -/

/-- The key of an expiry time is what is read back. -/
theorem extractUuidKey_of_readsAs {uuid' key' : Bytes}
    (h : cfg.json.ReadsAs (expireName uuid key) (expireName uuid' key')) :
    extractUuidKey cfg (generateExpireKey cfg.json uuid key) = .ok (uuid', key') := by
  rw [extractUuidKey, generateExpireKey, ← expireName, h]
  rfl

/-- The keys of the expiry times of a database are read as its own. The printed
JSON of a uuid that is UTF-8 is read back as it was. -/
def Named (cfg : Config) (db : Bytes) : Prop :=
  ∀ key, ∃ key', extractUuidKey cfg (generateExpireKey cfg.json db key) = .ok (db, key')

/-- A database that exists, under a name that `crud` does not use itself, and no
database has such a name. -/
structure Guarded (cfg : Config) (db : Bytes) (storage : MemStorage) : Prop where
  present : (storage.read permissionUuid db).isSome
  notPermissions : db ≠ permissionUuid
  notTtl : db ≠ ttlUuid
  named : Named cfg db
  freePermissions : storage.read permissionUuid permissionUuid = none
  freeTtl : storage.read permissionUuid ttlUuid = none

/-- The call comes from a caller without rights in a database, and does not
create a database under a name that `crud` uses itself. -/
structure Stranger (cfg : Config) (db : Bytes) (storage : MemStorage) (c : Call) : Prop where
  notEntitled : ∀ perms, getDatabasePermissions cfg storage db = .ok (some perms) → ¬ Entitled cfg c.callerId perms
  notReserved : ∀ m, c.request.msg = .createDb m →
    c.request.dbUuid ≠ permissionUuid ∧ c.request.dbUuid ≠ ttlUuid
  named : Named cfg c.request.dbUuid

/-- The entries that are kept: those of the database, and the permissions of the
names that `crud` uses itself. -/
def Kept (json : JsonText) (db uuid key : Bytes) : Prop :=
  Entry json db uuid key ∨ uuid = permissionUuid ∧ (key = permissionUuid ∨ key = ttlUuid)

variable {db : Bytes} {c : Call}

/-- A request that changes anything is on another database. -/
theorem ne_of_change (hg : Guarded cfg db st₀) (hs : Stranger cfg db st₀ c)
    (h : Change cfg c.env c.callerId c.request st₀ st st') :
    c.request.dbUuid ≠ db ∧ c.request.dbUuid ≠ permissionUuid ∧ c.request.dbUuid ≠ ttlUuid := by
  rcases h.rights with ⟨perms, hperms, he⟩ | ⟨⟨m, hm⟩, hnone⟩
  · have hread := read_of_getDatabasePermissions hperms
    refine ⟨fun e => ?_, fun e => ?_, fun e => ?_⟩
    · exact hs.notEntitled perms (e ▸ hperms) he
    · rw [e, hg.freePermissions] at hread
      cases hread
    · rw [e, hg.freeTtl] at hread
      cases hread
  · refine ⟨fun e => ?_, hs.notReserved m hm⟩
    have := hg.present
    rw [← e, hnone] at this
    cases this

/-- What is kept is not in the footprint of another database. -/
theorem not_footprint {db' : Bytes} (hg : Guarded cfg db st₀) (hne : db' ≠ db ∧ db' ≠ permissionUuid ∧ db' ≠ ttlUuid)
    (hn : Named cfg db') (hk : Kept cfg.json db uuid key) : ¬ Footprint cfg db' uuid key := by
  have htables : permissionUuid ≠ ttlUuid := by decide
  intro hf
  -- an entry in the table of expiry times is named after one database only
  have httl : uuid = ttlUuid → ¬ ∃ k, extractUuidKey cfg key = .ok (db', k) := by
    rintro rfl ⟨k, h⟩
    rcases hk with hk | ⟨hk, -⟩
    · cases hk with
      | value => exact hg.notTtl rfl
      | ttl k₀ =>
        obtain ⟨k', h'⟩ := hg.named k₀
        rw [h'] at h
        cases h
        exact hne.1 rfl
    · exact htables hk.symm
  cases hf with
  | named _ k h => exact httl rfl ⟨k, h⟩
  | entry h =>
    cases h with
    | ttl k => exact httl rfl (hn k)
    | value =>
      rcases hk with hk | ⟨hk, -⟩
      · cases hk with
        | permissions => exact hne.2.1 rfl
        | value => exact hne.1 rfl
        | ttl => exact hne.2.2 rfl
      · exact hne.2.1 hk
    | permissions =>
      rcases hk with hk | ⟨-, hk | hk⟩
      · cases hk with
        | permissions => exact hne.1 rfl
        | value => exact hg.notPermissions rfl
      · exact hne.2.1 hk
      · exact hne.2.2 hk

/-- One request of a stranger keeps the entries of the database. -/
theorem handleRequest_kept {s : Crud} (hg : Guarded cfg db s.storage) (hs : Stranger cfg db s.storage c)
    (hk : Kept cfg.json db uuid key) :
    ((handleRequest cfg c.env c.callerId c.request c.session).final s).storage.read uuid key =
      s.storage.read uuid key := by
  refine handleRequest_changes (I := fun st => st.read uuid key = s.storage.read uuid key) rfl fun st st' h ih => ?_
  rw [← ih]
  exact h.read_eq (not_footprint hg (ne_of_change hg hs h) hs.named hk)

/-! ## Every run -/

theorem getDatabasePermissions_congr (h : st'.read permissionUuid uuid = st.read permissionUuid uuid) :
    getDatabasePermissions cfg st' uuid = getDatabasePermissions cfg st uuid := by
  simp only [getDatabasePermissions, MemStorage.has_eq, h]

theorem Guarded.congr (hg : Guarded cfg db st)
    (h : ∀ uuid key, Kept cfg.json db uuid key → st'.read uuid key = st.read uuid key) : Guarded cfg db st' where
  present := by rw [h _ _ (.inl .permissions)]; exact hg.present
  notPermissions := hg.notPermissions
  notTtl := hg.notTtl
  named := hg.named
  freePermissions := by rw [h _ _ (.inr ⟨rfl, .inl rfl⟩)]; exact hg.freePermissions
  freeTtl := by rw [h _ _ (.inr ⟨rfl, .inr rfl⟩)]; exact hg.freeTtl

theorem serve_kept (calls : List Call) {s : Crud} (hg : Guarded cfg db s.storage)
    (hs : ∀ c ∈ calls, Stranger cfg db s.storage c) (hk : Kept cfg.json db uuid key) :
    (serve cfg calls s).storage.read uuid key = s.storage.read uuid key := by
  induction calls generalizing s with
  | nil => rfl
  | cons c _ ih =>
    have hc := hs c (List.mem_cons_self ..)
    have hfirst : ∀ uuid key, Kept cfg.json db uuid key →
        ((handleRequest cfg c.env c.callerId c.request c.session).final s).storage.read uuid key =
          s.storage.read uuid key := fun _ _ => handleRequest_kept hg hc
    rw [serve, List.foldl_cons, ← serve, ih (hg.congr hfirst), hfirst uuid key hk]
    intro d hd
    have hd := hs d (List.mem_cons_of_mem _ hd)
    refine ⟨fun perms hperms => hd.notEntitled perms ?_, hd.notReserved, hd.named⟩
    rwa [getDatabasePermissions_congr (hfirst _ _ (.inl .permissions))] at hperms

/-- Requests of callers that have no rights in a database leave everything that
belongs to it as it is. -/
theorem isolated (cfg : Config) (db : Bytes) (s : Crud) (calls : List Call) (hg : Guarded cfg db s.storage)
    (hs : ∀ c ∈ calls, Stranger cfg db s.storage c) (uuid key : Bytes) (hk : Entry cfg.json db uuid key) :
    (serve cfg calls s).storage.read uuid key = s.storage.read uuid key :=
  serve_kept calls hg hs (.inl hk)

/-! ## Two clients -/

theorem extractUuidKey_openConfig (uuid key : Bytes) :
    extractUuidKey openConfig (generateExpireKey JsonText.plain uuid key) = .ok (uuid, key) :=
  extractUuidKey_of_readsAs (JsonText.parse_plain _)

theorem named_openConfig (uuid : Bytes) : Named openConfig uuid := fun key => ⟨key, extractUuidKey_openConfig uuid key⟩

/-- A database of a first client, with one key. -/
def firstDatabase : Crud :=
  serve openConfig [callBy "alice" "db" (.createDb ⟨0, .none⟩), callBy "alice" "db" (.create ⟨ascii "k", ascii "v", 9⟩)]
    empty

/-- Only the first client has rights in its database. -/
theorem not_entitled_firstDatabase (h : trimCopy callerId ≠ ascii "alice")
    (hperms : getDatabasePermissions openConfig firstDatabase.storage (ascii "db") = .ok (some perms)) :
    ¬ Entitled openConfig callerId perms := by
  have hread : firstDatabase.storage.read permissionUuid (ascii "db") =
      some (JsonText.plain.toStyledString (createPermissionData (ascii "alice") ⟨0, .none⟩)) := by decide +kernel
  have hparse : openConfig.json.parse (JsonText.plain.toStyledString
    (createPermissionData (ascii "alice") ⟨0, .none⟩)) =
      .ok (createPermissionData (ascii "alice") ⟨0, .none⟩) := JsonText.parse_plain _
  simp only [getDatabasePermissions, MemStorage.has_eq, hread, hparse, Option.isSome_some, if_true, Except.ok.injEq,
    Option.some.injEq] at hperms
  subst hperms
  rintro (⟨owner, ho, h'⟩ | ⟨writers, hw, w, hmem, -⟩ | hpeer)
  · cases ho
    exact h (of_decide_eq_true h').symm
  · cases hw
    cases hmem
  · cases hpeer

/-- A second client with a database of its own. -/
theorem isolated_second_client :
    (serve openConfig [callBy "bob" "other" (.createDb ⟨0, .none⟩),
      callBy "bob" "other" (.create ⟨ascii "k", ascii "w", 5⟩),
      callBy "bob" "db" (.delete (ascii "k")), callBy "bob" "db" .deleteDb] firstDatabase).storage.read (ascii "db")
        (ascii "k") = firstDatabase.storage.read (ascii "db") (ascii "k") := by
  refine isolated openConfig (ascii "db") firstDatabase _ ?_ ?_ _ _ (.value _)
  · exact ⟨by decide +kernel, by decide, by decide, named_openConfig _, by decide +kernel, by decide +kernel⟩
  · have hbob : ∀ perms, getDatabasePermissions openConfig firstDatabase.storage (ascii "db") = .ok (some perms) →
        ¬ Entitled openConfig (ascii "bob") perms := fun _ => not_entitled_firstDatabase (by decide)
    simp only [List.forall_mem_cons, List.not_mem_nil, false_implies, implies_true, and_true]
    refine ⟨⟨hbob, fun _ _ => ⟨by decide, by decide⟩, named_openConfig _⟩, ⟨hbob, ?_, named_openConfig _⟩,
      ⟨hbob, ?_, named_openConfig _⟩, hbob, ?_, named_openConfig _⟩
    · exact fun _ h => by cases h
    · exact fun _ h => by cases h
    · exact fun _ h => by cases h

/-- A client that creates a database under the name of the table of permissions
owns the table, and removes the permissions of another client's database. -/
theorem permissions_taken :
    (∀ perms, getDatabasePermissions openConfig firstDatabase.storage (ascii "db") = .ok (some perms) →
      ¬ Entitled openConfig (ascii "mallory") perms) ∧
    (firstDatabase.storage.read permissionUuid (ascii "db")).isSome ∧
    (serve openConfig [callBy "mallory" "PERMS" (.createDb ⟨0, .none⟩),
      callBy "mallory" "PERMS" (.delete (ascii "db"))] firstDatabase).storage.read permissionUuid (ascii "db") = none :=
  ⟨fun _ => not_entitled_firstDatabase (by decide), by decide +kernel, by decide +kernel⟩

end SwarmDb.Crud
