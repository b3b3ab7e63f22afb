import SwarmDb.Crud.FailedRequests

/-!
# The limit of a swarm

A database is created or grows only if the sizes of all databases together stay within the limit of the swarm.
`totalLimit` is the exact sum; the source computes it in 64 bits. In every run whose exact sums fit, it stays within the
limit (`serve_withinCap`); a size that makes the sum wrap around is accepted (`createDb_wraps`).
-/

namespace SwarmDb.Crud

open Lib Program

/-! ## Sizes -/

/-- The numbers of the permissions are read back as they were printed. The name
of the owner need not be, where it is no valid UTF-8. -/
def ReadsNumbers (json : JsonText) : Prop :=
  ∀ policy maxSize owner, ∃ owner',
    json.ReadsAs (permissionsOf policy maxSize owner []) (permissionsOf policy maxSize owner' [])

/-- The size that the permissions of a database give it. -/
def databaseLimit (cfg : Config) (st : MemStorage) (uuid : Bytes) : Option UInt64 :=
  match st.read permissionUuid uuid with
  | none => none
  | some text =>
    match cfg.json.parse text with
    | .ok perms => (maxDatabaseSize perms).toOption
    | .error _ => none

/-- The size of a database, zero where there is none. -/
def limitOf (cfg : Config) (st : MemStorage) (uuid : Bytes) : Nat := ((databaseLimit cfg st uuid).getD 0).toNat

/-- The exact sum of the sizes of all databases. -/
def totalLimit (cfg : Config) (st : MemStorage) : Nat :=
  ((st.getKeys permissionUuid).map fun uuid => limitOf cfg st uuid).sum

/-- Every database has a size, none is without limit, and together they are
within the limit of the swarm. -/
structure WithinCap (cfg : Config) (st : MemStorage) : Prop where
  limited : ∀ uuid ∈ st.getKeys permissionUuid, ∃ n, databaseLimit cfg st uuid = some n ∧ n ≠ 0
  total : totalLimit cfg st ≤ cfg.maxSwarmStorage.toNat

/-- The size that a request asks for. -/
def Request.maxSize? (request : Request) : Option UInt64 :=
  match request.msg with
  | .createDb m | .updateDb m => some m.maxSize
  | _ => none

/-- The exact sum, with the size that a request asks for in the place of the one
that the database has, fits in 64 bits. -/
def SumFits (cfg : Config) (st : MemStorage) (request : Request) : Prop :=
  ∀ n ∈ request.maxSize?, totalLimit cfg st - limitOf cfg st request.dbUuid + n.toNat < 2 ^ 64

section

variable {cfg : Config} {st st' : MemStorage} {policy : UInt16} {maxSize : UInt64} {owner : Bytes}

@[simp] theorem member_maxSizeKey :
    (permissionsOf policy maxSize owner []).member maxSizeKey = .ok (.int maxSize.toNat) := by
  simp [permissionsOf, Json.member, show evictionPolicyKey ≠ maxSizeKey by decide]

@[simp] theorem maxDatabaseSize_permissionsOf :
    maxDatabaseSize (permissionsOf policy maxSize owner []) = .ok maxSize := by
  exact toUInt64_decimal maxSize

@[simp] theorem setMember_maxSizeKey (n : UInt64) :
    (permissionsOf policy maxSize owner []).setMember maxSizeKey (.int n.toNat) = .ok
    (permissionsOf policy n owner []) := rfl

theorem updatePermissionData_permissionsOf (m : CreateDb) :
    updatePermissionData (permissionsOf policy maxSize owner []) m =
      .ok (permissionsOf m.evictionPolicy.number.toUInt16 m.maxSize owner []) := rfl

/-- The permissions of every database are as they were printed. -/
def Printed (cfg : Config) (st : MemStorage) : Prop :=
  ∀ uuid text, st.read permissionUuid uuid = some text →
    ∃ policy maxSize owner, cfg.json.parse text = .ok (permissionsOf policy maxSize owner []) ∧ maxSize ≠ 0

variable {uuid : Bytes}

theorem databaseLimit_of_parse {text : Bytes} (hread : st.read permissionUuid uuid = some text)
    (hparse : cfg.json.parse text = .ok (permissionsOf policy maxSize owner [])) :
    databaseLimit cfg st uuid = some maxSize := by
  simp only [databaseLimit, hread, hparse, maxDatabaseSize_permissionsOf, Except.toOption]

theorem limitOf_of_read_eq_none (h : st.read permissionUuid uuid = none) : limitOf cfg st uuid = 0 := by
  simp [limitOf, databaseLimit, h]

theorem limitOf_congr (h : st'.read permissionUuid uuid = st.read permissionUuid uuid) :
    limitOf cfg st' uuid = limitOf cfg st uuid := by
  simp only [limitOf, databaseLimit, h]

/-! ## The sum -/

theorem totalLimit_eq_sum : totalLimit cfg st = ∑ uuid ∈ (st.getKeys permissionUuid).toFinset, limitOf cfg st uuid := by
  have hnodup : (st.getKeys permissionUuid).Nodup := Map.keys_nodup _
  rw [totalLimit, List.sum_toFinset _ hnodup]

variable (cfg st) in
/-- The sum, one database apart. -/
theorem totalLimit_split (uuid : Bytes) : totalLimit cfg st =
    limitOf cfg st uuid + ∑ u ∈ (st.getKeys permissionUuid).toFinset.erase uuid, limitOf cfg st u := by
  rw [totalLimit_eq_sum]
  by_cases h : uuid ∈ (st.getKeys permissionUuid).toFinset
  · rw [Finset.add_sum_erase _ _ h]
  · have hnone : st.read permissionUuid uuid = none := by
      rw [List.mem_toFinset, MemStorage.mem_getKeys] at h
      exact Option.not_isSome_iff_eq_none.mp h
    rw [Finset.erase_eq_of_notMem h, limitOf_of_read_eq_none hnone, Nat.zero_add]

/-- The sum after the permissions of one database were written. -/
theorem totalLimit_written (h : ∀ u, u ≠ uuid → st'.read permissionUuid u = st.read permissionUuid u) :
    totalLimit cfg st' = totalLimit cfg st - limitOf cfg st uuid + limitOf cfg st' uuid := by
  have hrest : ∑ u ∈ (st'.getKeys permissionUuid).toFinset.erase uuid, limitOf cfg st' u =
      ∑ u ∈ (st.getKeys permissionUuid).toFinset.erase uuid, limitOf cfg st u := by
    refine Finset.sum_congr ?_ fun u hu => limitOf_congr (h u (Finset.ne_of_mem_erase hu))
    ext u
    simp only [Finset.mem_erase, List.mem_toFinset, MemStorage.mem_getKeys]
    exact and_congr_right fun hne => by rw [h u hne]
  rw [totalLimit_split cfg st' uuid, totalLimit_split cfg st uuid]
  omega

/-- The sum after some databases were removed. -/
theorem totalLimit_removed
    (h : ∀ u, st'.read permissionUuid u = none ∨ st'.read permissionUuid u = st.read permissionUuid u) :
    totalLimit cfg st' ≤ totalLimit cfg st := by
  have hsame : ∀ u ∈ (st'.getKeys permissionUuid).toFinset, st'.read permissionUuid u = st.read permissionUuid u := by
    intro u hu
    rw [List.mem_toFinset, MemStorage.mem_getKeys] at hu
    refine (h u).resolve_left fun hnone => ?_
    rw [hnone] at hu
    cases hu
  rw [totalLimit_eq_sum, totalLimit_eq_sum, Finset.sum_congr rfl fun u hu => limitOf_congr (hsame u hu)]
  refine Finset.sum_le_sum_of_subset fun u hu => ?_
  have hsome := MemStorage.mem_getKeys.mp (List.mem_toFinset.mp hu)
  rw [hsame u hu] at hsome
  exact List.mem_toFinset.mpr (MemStorage.mem_getKeys.mpr hsome)

/-- What the loop of `get_swarm_storage_usage` adds up. -/
theorem usage_foldlM (hp : Printed cfg st) (uuids : List Bytes) (sum : UInt64) :
    uuids.foldlM (fun sum database =>
      match st.read permissionUuid database with
      | none => (.ok sum : Except Fault UInt64)
      | some text =>
        match cfg.json.parse text with
        | .error parseErrors => .error (.runtimeError ("Failed to parse database json uuid data: " ++ parseErrors))
        | .ok json => do
          let maxSize ← maxDatabaseSize json
          pure (sum + maxSize)) sum =
      .ok (sum + UInt64.ofNat (uuids.map fun uuid => limitOf cfg st uuid).sum) := by
  induction uuids generalizing sum with
  | nil => exact congrArg _ (UInt64.add_zero sum).symm
  | cons uuid _ ih =>
    rw [List.foldlM_cons, List.map_cons, List.sum_cons, UInt64.ofNat_add, ← UInt64.add_assoc]
    cases hread : st.read permissionUuid uuid with
    | none =>
      rw [limitOf_of_read_eq_none hread, show UInt64.ofNat 0 = 0 from rfl, UInt64.add_zero]
      exact ih sum
    | some text =>
      obtain ⟨policy, maxSize, owner, hparse, -⟩ := hp uuid text hread
      have hlimit : limitOf cfg st uuid = maxSize.toNat := by
        rw [limitOf, databaseLimit_of_parse hread hparse, Option.getD_some]
      simp only [hparse, maxDatabaseSize_permissionsOf, hlimit, UInt64.ofNat_toNat]
      exact ih (sum + maxSize)

theorem getSwarmStorageUsage_eq (hp : Printed cfg st) :
    getSwarmStorageUsage cfg st = .ok (UInt64.ofNat (totalLimit cfg st)) := by
  have h := usage_foldlM hp (st.getKeys permissionUuid) 0
  rw [UInt64.zero_add] at h
  exact h

end

/-! ## Requests -/

/-- A request that creates, changes or deletes a database. -/
def Request.IsOfDatabases (request : Request) : Prop :=
  (∃ m, request.msg = .createDb m) ∨ (∃ m, request.msg = .updateDb m) ∨ request.msg = .deleteDb

section

variable {cfg : Config} {env : Env} {callerId : Bytes} {request : Request} {m : CreateDb}

/-! ## The sum stays within the limit -/

variable {st st' : MemStorage}

/-- The permissions of a database were written with a size. -/
theorem Printed.written (hp : Printed cfg st) (hjson : ReadsNumbers cfg.json) {uuid owner : Bytes} {policy : UInt16}
    {maxSize : UInt64} (hne : maxSize ≠ 0)
    (h : ∀ uuid' u, st'.read uuid' u =
      if permissionUuid = uuid' ∧ uuid = u then some (cfg.json.toStyledString (permissionsOf policy maxSize owner []))
      else st.read uuid' u) :
    Printed cfg st' ∧ totalLimit cfg st' = totalLimit cfg st - limitOf cfg st uuid + maxSize.toNat := by
  obtain ⟨owner', hparse⟩ := hjson policy maxSize owner
  constructor
  · intro u text htext
    rw [h] at htext
    split at htext
    · cases htext
      exact ⟨policy, maxSize, owner', hparse, hne⟩
    · exact hp u text htext
  · have hread : st'.read permissionUuid uuid = _ := (h _ uuid).trans (if_pos ⟨rfl, rfl⟩)
    have hlimit : limitOf cfg st' uuid = maxSize.toNat := by
      rw [limitOf, databaseLimit_of_parse hread hparse, Option.getD_some]
    rw [totalLimit_written fun u hu => (h _ u).trans (if_neg fun hc => hu hc.2.symm), hlimit]

/-- A comparison of sums that fit in 64 bits is exact. -/
theorem le_of_not_exceeds {usage prev maxSize cap : UInt64} (hle : prev ≤ usage)
    (hfits : usage.toNat - prev.toNat + maxSize.toNat < 2 ^ 64) (h : ¬ usage - prev + maxSize > cap) :
    usage.toNat - prev.toNat + maxSize.toNat ≤ cap.toNat := by
  rw [gt_iff_lt, UInt64.lt_iff_toNat_lt, UInt64.toNat_add, UInt64.toNat_sub_of_le _ _ hle] at h
  omega

theorem toNat_usage (ht : totalLimit cfg st ≤ cfg.maxSwarmStorage.toNat) :
    (UInt64.ofNat (totalLimit cfg st)).toNat = totalLimit cfg st := by
  have hlt := cfg.maxSwarmStorage.toNat_lt
  rw [UInt64.toNat_ofNat', Nat.mod_eq_of_lt (by omega)]

theorem limitOf_le_totalLimit (cfg : Config) (st : MemStorage) (uuid : Bytes) :
    limitOf cfg st uuid ≤ totalLimit cfg st := by
  rw [totalLimit_split cfg st uuid]
  omega

variable {perms : Json}

/-- The permissions that a request finds. -/
theorem Printed.permissions (hp : Printed cfg st) {uuid : Bytes}
    (h : getDatabasePermissions cfg st uuid = .ok (some perms)) :
    ∃ policy maxSize owner, perms = permissionsOf policy maxSize owner [] ∧ limitOf cfg st uuid = maxSize.toNat := by
  obtain ⟨text, htext⟩ := Option.isSome_iff_exists.mp (read_of_getDatabasePermissions h)
  obtain ⟨policy, maxSize, owner, hparse, -⟩ := hp uuid text htext
  refine ⟨policy, maxSize, owner, ?_, ?_⟩
  · simp only [getDatabasePermissions, MemStorage.has_eq, htext, hparse, Option.isSome_some, if_true, Except.ok.injEq,
      Option.some.injEq] at h
    exact h.symm
  · rw [limitOf, databaseLimit_of_parse htext hparse, Option.getD_some]

section

variable (hcap : cfg.maxSwarmStorage ≠ 0) (hp : Printed cfg st) (ht : totalLimit cfg st ≤ cfg.maxSwarmStorage.toNat)
include hcap hp ht

/-- A database is created within the limit. -/
theorem createDb_fits (hm : request.msg = .createDb m) (hsum : totalLimit cfg st + m.maxSize.toNat < 2 ^ 64)
    (h : operationExceedsAvailableSpace cfg st request (createPermissionData callerId m) = .ok false) :
    totalLimit cfg st + m.maxSize.toNat ≤ cfg.maxSwarmStorage.toNat := by
  have hdata : maxDatabaseSize (createPermissionData callerId m) = .ok m.maxSize := maxDatabaseSize_permissionsOf
  simp only [operationExceedsAvailableSpace, hm, hdata, if_neg hcap, getSwarmStorageUsage_eq hp, bind, Except.bind,
    pure, Except.pure, Except.ok.injEq, decide_eq_false_iff_not] at h
  rw [← UInt64.sub_zero (UInt64.ofNat _)] at h
  have hle := le_of_not_exceeds UInt64.zero_le
    (by simpa only [toNat_usage ht, UInt64.toNat_zero, Nat.sub_zero] using hsum) h
  simpa only [toNat_usage ht, UInt64.toNat_zero, Nat.sub_zero] using hle

/-- A database grows within the limit. -/
theorem updateDb_fits (hm : request.msg = .updateDb m)
    (hperms : getDatabasePermissions cfg st request.dbUuid = .ok (some perms))
    (hsum : totalLimit cfg st - limitOf cfg st request.dbUuid + m.maxSize.toNat < 2 ^ 64)
    (h : growthExceeds cfg request st m perms = .ok false) :
    totalLimit cfg st - limitOf cfg st request.dbUuid + m.maxSize.toNat ≤ cfg.maxSwarmStorage.toNat := by
  obtain ⟨policy, maxSize, owner, rfl, hlimit⟩ := hp.permissions hperms
  have hle := limitOf_le_totalLimit cfg st request.dbUuid
  rw [hlimit] at hsum hle ⊢
  have hcurrent : (Json.int maxSize.toNat).asUInt64 = .ok maxSize := by
    rw [Json.asUInt64, if_pos (by omega), Int.toNat_natCast, UInt64.ofNat_toNat]
  simp only [growthExceeds, member_maxSizeKey, ofJson, bind, Except.bind, hcurrent, setMember_maxSizeKey] at h
  split at h
  · have hprev : maxSize ≤ UInt64.ofNat (totalLimit cfg st) := by
      rwa [UInt64.le_iff_toNat_le, toNat_usage ht]
    simp only [operationExceedsAvailableSpace, hm, if_neg hcap, getSwarmStorageUsage_eq hp, hperms, bind, Except.bind,
      Option.getD_some, maxDatabaseSize_permissionsOf, pure, Except.pure, Except.ok.injEq, decide_eq_false_iff_not] at h
    have hfits := le_of_not_exceeds hprev (by rwa [toNat_usage ht]) h
    rwa [toNat_usage ht] at hfits
  · -- a database that does not grow is not checked
    rename_i hshrinks
    rw [gt_iff_lt, UInt64.lt_iff_toNat_lt] at hshrinks
    omega

end

/-- A request on databases keeps the limit. -/
theorem Outcome.keepsLimit (h : Outcome cfg env callerId request st st') (hreq : request.IsOfDatabases)
    (hcap : cfg.maxSwarmStorage ≠ 0) (hjson : ReadsNumbers cfg.json) (hsum : SumFits cfg st request)
    (hp : Printed cfg st)
    (ht : totalLimit cfg st ≤ cfg.maxSwarmStorage.toNat) :
    Printed cfg st' ∧ totalLimit cfg st' ≤ cfg.maxSwarmStorage.toNat := by
  cases h with
  | same => exact ⟨hp, ht⟩
  | createdDb m hm hsize hfits h =>
    have hnone := ((MemStorage.create_result_iff ..).mp h).2.2
    obtain ⟨hp', htotal⟩ := hp.written hjson (fun hz => hsize ⟨hz, hcap⟩) (MemStorage.read_create h)
    refine ⟨hp', htotal.trans_le ?_⟩
    rw [limitOf_of_read_eq_none hnone]
    have hsum := hsum m.maxSize (by rw [Request.maxSize?, hm]; rfl)
    rw [limitOf_of_read_eq_none hnone] at hsum
    exact createDb_fits hcap hp ht hm hsum hfits
  | updatedDb m hm hsize _ _ hperms _ hfits hnew h =>
    obtain ⟨policy, maxSize, owner, rfl, -⟩ := hp.permissions hperms
    rw [updatePermissionData_permissionsOf, Except.ok.injEq] at hnew
    subst hnew
    obtain ⟨hp', htotal⟩ := hp.written hjson (fun hz => hsize ⟨hz, hcap⟩) (MemStorage.read_update h)
    refine ⟨hp', htotal.trans_le ?_⟩
    have hsum := hsum m.maxSize (by rw [Request.maxSize?, hm]; rfl)
    exact updateDb_fits hcap hp ht hm hperms hsum hfits
  | deletedDb _ _ _ h =>
    have hread : ∀ uuid, st'.read permissionUuid uuid = none ∨ st'.read permissionUuid uuid =
      st.read permissionUuid uuid := by
      intro uuid
      rw [h.others _ _ (by decide), MemStorage.read_removeAll, MemStorage.read_remove]
      split
      · exact .inl rfl
      · split
        · exact .inl rfl
        · exact .inr rfl
    refine ⟨fun uuid text htext => ?_, (totalLimit_removed hread).trans ht⟩
    rcases hread uuid with hnone | hsame
    · rw [hnone] at htext
      cases htext
    · exact hp uuid text (hsame.symm.trans htext)
  | refused _ _ _ _ h => rcases h.writes with hm | hm <;> exact absurd hreq (by simp [Request.IsOfDatabases, hm])
  | written _ _ hm | changedWriters _ hm =>
    rcases hm with hm | hm <;> exact absurd hreq (by simp [Request.IsOfDatabases, hm])
  | deleted _ hm | persisted _ hm | expires _ _ hm => exact absurd hreq (by simp [Request.IsOfDatabases, hm])

/-- The limit is kept by a run of requests whose sums fit. -/
theorem serve_printed (hcap : cfg.maxSwarmStorage ≠ 0) (hjson : ReadsNumbers cfg.json) {calls : List Call} {s : Crud}
    (hreq : ∀ c ∈ calls, c.request.IsOfDatabases)
    (hsum : ∀ before c after, calls = before ++ c :: after → SumFits cfg (serve cfg before s).storage c.request)
    (hp : Printed cfg s.storage) (ht : totalLimit cfg s.storage ≤ cfg.maxSwarmStorage.toNat) :
    Printed cfg (serve cfg calls s).storage ∧
      totalLimit cfg (serve cfg calls s).storage ≤ cfg.maxSwarmStorage.toNat := by
  induction calls generalizing s with
  | nil => exact ⟨hp, ht⟩
  | cons c calls ih =>
    obtain ⟨hp', ht'⟩ := (handleRequest_ended cfg c.env c.callerId c.request c.session s).outcome.keepsLimit
      (hreq c (List.mem_cons_self ..)) hcap hjson (hsum [] c calls rfl) hp ht
    refine ih (fun d hd => hreq d (List.mem_cons_of_mem _ hd)) (fun before d after he => ?_) hp' ht'
    exact hsum (c :: before) d after (by rw [he]; rfl)

end

/-- With a limit for the swarm, in every run of requests on databases over a
store without any, in which the exact sum of the sizes would fit in 64 bits after
every request, the sizes together stay within the limit and none is zero. -/
theorem serve_withinCap (cfg : Config) (hcap : cfg.maxSwarmStorage ≠ 0) (hjson : ReadsNumbers cfg.json) (s : Crud)
    (hnone : s.storage.getKeys permissionUuid = []) (calls : List Call)
    (hreq : ∀ c ∈ calls, c.request.IsOfDatabases)
    (hsum : ∀ before c after, calls = before ++ c :: after → SumFits cfg (serve cfg before s).storage c.request) :
    WithinCap cfg (serve cfg calls s).storage := by
  have hp : Printed cfg s.storage := fun uuid text htext => by
    have hmem := MemStorage.mem_getKeys.mpr (Option.isSome_of_eq_some htext)
    rw [hnone] at hmem
    cases hmem
  have ht : totalLimit cfg s.storage ≤ cfg.maxSwarmStorage.toNat := by
    rw [totalLimit, hnone]
    exact Nat.zero_le _
  obtain ⟨hp', ht'⟩ := serve_printed hcap hjson hreq hsum hp ht
  refine ⟨fun uuid huuid => ?_, ht'⟩
  obtain ⟨text, htext⟩ := Option.isSome_iff_exists.mp (MemStorage.mem_getKeys.mp huuid)
  obtain ⟨policy, maxSize, owner, hparse, hne⟩ := hp' uuid text htext
  exact ⟨maxSize, databaseLimit_of_parse htext hparse, hne⟩

/-! ## A swarm of 100 bytes -/

/-- A swarm with a limit of 100 bytes. -/
def cappedConfig : Config := { openConfig with maxSwarmStorage := 100 }

theorem readsNumbers_cappedConfig : ReadsNumbers cappedConfig.json := fun _ _ owner => ⟨owner, JsonText.parse_plain _⟩

theorem sumFits_of_small {cfg : Config} {st : MemStorage} {request : Request} {n : UInt64}
    (hn : request.maxSize? = some n) (h : totalLimit cfg st - limitOf cfg st request.dbUuid + n.toNat < 1000) :
    SumFits cfg st request := by
  intro n' hn'
  cases hn.symm.trans hn'
  exact lt_trans h (by norm_num)

theorem serve_withinCap_twice :
    WithinCap cappedConfig (serve cappedConfig [callBy "alice" "a" (.createDb ⟨60, .none⟩),
      callBy "alice" "b" (.createDb ⟨60, .none⟩), callBy "alice" "a" (.updateDb ⟨90, .none⟩)] empty).storage := by
  refine serve_withinCap cappedConfig (by decide) readsNumbers_cappedConfig empty rfl _ ?_ ?_
  · simp only [List.forall_mem_cons, List.not_mem_nil, false_implies, implies_true, and_true]
    exact ⟨.inl ⟨_, rfl⟩, .inl ⟨_, rfl⟩, .inr (.inl ⟨_, rfl⟩)⟩
  · rintro (_ | ⟨b, _ | ⟨b', _ | ⟨b'', _⟩⟩⟩) c after he
    · cases he
      exact sumFits_of_small rfl (by decide +kernel)
    · cases he
      exact sumFits_of_small rfl (by decide +kernel)
    · cases he
      exact sumFits_of_small rfl (by decide +kernel)
    · simp at he

/-- A second database takes the sum beyond 64 bits, and it is created. -/
theorem createDb_wraps :
    let st := (serve cappedConfig [callBy "alice" "a" (.createDb ⟨60, .none⟩),
      callBy "alice" "b" (.createDb ⟨0 - 1, .none⟩)] empty).storage
    st.getKeys permissionUuid = [ascii "a", ascii "b"] ∧ totalLimit cappedConfig st = 18446744073709551675 ∧
      ¬ WithinCap cappedConfig st := by
  have htotal : totalLimit cappedConfig (serve cappedConfig [callBy "alice" "a" (.createDb ⟨60, .none⟩),
      callBy "alice" "b" (.createDb ⟨0 - 1, .none⟩)] empty).storage = 18446744073709551675 := by decide +kernel
  refine ⟨by decide +kernel, htotal, fun h => ?_⟩
  have hle := h.total
  rw [htotal] at hle
  exact absurd hle (by decide)

end SwarmDb.Crud
