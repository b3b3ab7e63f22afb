import SwarmDb.Crud.Reachable

/-!
# Expiry times

What the expiry time of a key means: how long it holds (`expiry_exact_iff`), that it goes with the value
(`written_together_iff`), and what a delete leaves of it (`create_after_delete_iff`).
-/

namespace SwarmDb.Crud

open Lib Program

/-- The request gives an expiry time to a key. -/
def GivesExpiry (request : Request) (key : Bytes) (expire : UInt64) : Prop :=
  (∃ kv, Writes request kv ∧ kv.key = key ∧ kv.expire = expire) ∨ request.msg = .expire key expire

variable {cfg : Config} {env : Env} {callerId : Bytes} {request : Request} {session : Option Nat} {expire : UInt64}
  {perms : Json} {key : Bytes} {s : Crud} {kv : KeyValue} {st : MemStorage}

/-! ## The time that is stored -/

theorem length_expires (n : UInt64) : (decimal n.toNat).length ≤ maxValueSize :=
  Nat.le_trans (length_decimal_le (by decide) (toNat_lt_padded n)) (by decide)

variable {generatedKey : Bytes}

theorem read_setExpiry {now : UInt64} {st' : MemStorage} (hpos : expire ≠ 0)
    (h : setExpiry now generatedKey expire st = .ok st') (uuid key : Bytes) :
    st'.read uuid key =
      if ttlUuid = uuid ∧ generatedKey = key then some (decimal (now + expire).toNat) else st.read uuid key := by
  rw [setExpiry, if_pos hpos] at h
  dsimp only at h
  split at h
  · rename_i hcreated
    cases h
    exact MemStorage.read_create hcreated uuid key
  · split at h
    · rename_i hupdated
      cases h
      exact MemStorage.read_update hupdated uuid key
    · cases h

/-- A request that gives an expiry time and is answered with ok has stored it. -/
theorem read_of_gives (hgives : GivesExpiry request key expire)
    (hpos : expire ≠ 0) {a : Answer}
    (ha : a ∈ answersSince s ((handleRequest cfg env callerId request session).final s)) (hok : a.result = .ok) :
    ((handleRequest cfg env callerId request session).final s).storage.read ttlUuid
      (generateExpireKey cfg.json request.dbUuid key) = some (decimal (env.now + expire).toNat) := by
  rcases hgives with ⟨kv, hw, rfl, rfl⟩ | hm
  · obtain ⟨perms, keys, hwritten⟩ := written_of_ok hw ha hok
    rw [read_setExpiry hpos hwritten.expiry, if_pos ⟨rfl, rfl⟩]
  · rw [read_setExpiry hpos (expiry_of_ok hm ha hok), if_pos ⟨rfl, rfl⟩]

/-! ## The arithmetic of the times -/

/-- The clock counts seconds in a signed number of 64 bits. -/
def IsClock (t : Int) : Prop := -2 ^ 63 ≤ t ∧ t < 2 ^ 63

/-- The clock as an unsigned number. -/
def clockValue (t : Int) : UInt64 := UInt64.ofInt t

/-- A key is not treated as expired, and the time that is left is as given. -/
structure Unexpired (cfg : Config) (now : UInt64) (uuid key : Bytes) (left : Int) (s : Crud) : Prop where
  fresh : expired cfg now s.storage uuid key = .ok false
  ttl : ∃ n : UInt64, getTtl cfg now s.storage uuid key = .ok (some n) ∧ (n.toNat : Int) = left
  timer : ∀ issued, (checkEntry cfg now (generateExpireKey cfg.json uuid key)).result s ≠ .ok (some issued)

theorem toNat_clockValue (t : Int) : ((clockValue t).toNat : Int) = t % 2 ^ 64 := by
  rw [clockValue, UInt64.ofInt, UInt64.toNat_ofNat']
  omega

theorem expiryTime_eq {uuid : Bytes} {n : UInt64}
    (h : st.read ttlUuid (generateExpireKey cfg.json uuid key) = some (decimal n.toNat)) :
    expiryTime cfg st uuid key = .ok (some n) := by
  rw [expiryTime, h]
  dsimp only
  rw [toUInt64_decimal]
  rfl

/-- The stored time is the exact one where the sum does not pass a bound of the
unsigned numbers. -/
theorem toNat_sum_eq {t : Int} (hclock : IsClock t)
    (h : 0 ≤ t ∧ t + expire.toNat < 2 ^ 64 ∨ t + expire.toNat < 0) {t' : Int} (hclock' : IsClock t') (hle : t ≤ t')
    (hlt : t' < t + expire.toNat) :
    clockValue t' < clockValue t + expire ∧
      ((clockValue t + expire - clockValue t').toNat : Int) = t + expire.toNat - t' := by
  have hv := toNat_clockValue t
  have hv' := toNat_clockValue t'
  have hsum : ((clockValue t + expire).toNat : Int) = (clockValue t').toNat + (t + expire.toNat - t') := by
    rw [UInt64.toNat_add]
    unfold IsClock at hclock hclock'
    omega
  have hlt' : clockValue t' < clockValue t + expire := by
    rw [UInt64.lt_iff_toNat_lt]
    omega
  refine ⟨hlt', ?_⟩
  rw [UInt64.toNat_sub_of_le _ _ (UInt64.le_of_lt hlt')]
  omega

/-- Otherwise the stored time is over at once. -/
theorem sum_le_of_wraps {t : Int} (hclock : IsClock t)
    (h : ¬ (0 ≤ t ∧ t + expire.toNat < 2 ^ 64 ∨ t + expire.toNat < 0)) : clockValue t + expire ≤ clockValue t := by
  have hv := toNat_clockValue t
  have he := expire.toNat_lt
  rw [UInt64.le_iff_toNat_le, UInt64.toNat_add]
  unfold IsClock at hclock
  omega

/-- A key to which a request has given an expiry time is not treated as expired
before it, and the time that is left is exact, if and only if the time is an
unsigned number of 64 bits. -/
theorem expiry_exact_iff (cfg : Config) (env : Env) (callerId : Bytes) (request : Request) (session : Option Nat)
    (s : Crud) (key : Bytes) (expire : UInt64) (t : Int) (hclock : IsClock t) (hnow : env.now = clockValue t)
    (hgives : GivesExpiry request key expire) (hpos : expire ≠ 0) (a : Answer)
    (ha : a ∈ answersSince s ((handleRequest cfg env callerId request session).final s)) (hok : a.result = .ok) :
    (∀ s' t', s'.storage.read ttlUuid (generateExpireKey cfg.json request.dbUuid key) =
        ((handleRequest cfg env callerId request session).final s).storage.read ttlUuid
          (generateExpireKey cfg.json request.dbUuid key) →
      IsClock t' → t ≤ t' → t' < t + expire.toNat →
        Unexpired cfg (clockValue t') request.dbUuid key (t + expire.toNat - t') s') ↔
      0 ≤ t ∧ t + expire.toNat < 2 ^ 64 ∨ t + expire.toNat < 0 := by
  have hread := read_of_gives hgives hpos ha hok
  rw [hnow] at hread
  constructor
  · intro h
    by_contra hwraps
    have hlt : t < t + expire.toNat := by
      have : expire.toNat ≠ 0 := fun hz => hpos (UInt64.toNat_inj.mp hz)
      omega
    have hfresh := (h _ t rfl hclock le_rfl hlt).fresh
    rw [expired, expiryTime_eq hread, except_ok_bind] at hfresh
    dsimp only at hfresh
    rw [decide_eq_true (sum_le_of_wraps hclock hwraps)] at hfresh
    cases hfresh
  · intro h s' t' hsame hclock' hle hlt
    obtain ⟨hbefore, hleft⟩ := toNat_sum_eq hclock h hclock' hle hlt
    have hentry := hsame.trans hread
    refine ⟨?_, ⟨clockValue t + expire - clockValue t', ?_, hleft⟩, fun issued hissued => ?_⟩
    · rw [expired, expiryTime_eq hentry, except_ok_bind]
      dsimp only
      rw [decide_eq_false (UInt64.not_le.mpr hbefore)]
      rfl
    · rw [getTtl, expiryTime_eq hentry, except_ok_bind]
      dsimp only
      rw [if_pos hbefore]
      rfl
    · rw [checkEntry, result_read_bind, hentry] at hissued
      dsimp only at hissued
      obtain ⟨entry, -, hissued⟩ := result_bind_eq_ok hissued
      obtain ⟨expires, hexpires, hissued⟩ := result_bind_eq_ok hissued
      rw [result_lift, toUInt64_decimal] at hexpires
      cases hexpires
      rw [if_neg (UInt64.not_le.mpr hbefore)] at hissued
      split at hissued
      · cases hissued
      · cases hissued

/-- A call at another time. -/
def Call.at (now : UInt64) (c : Call) : Call := { c with env := { c.env with now := now } }

theorem expiry_exact_nine :
    let s := serve openConfig [callBy "alice" "db" (.createDb ⟨0, .none⟩)] empty
    let c := callBy "alice" "db" (.create ⟨ascii "k", ascii "v", 9⟩)
    Unexpired openConfig (clockValue 5) c.request.dbUuid (ascii "k") (0 + (9 : UInt64).toNat - 5)
      ((handleRequest openConfig c.env c.callerId c.request c.session).final s) := by
  intro s c
  have ha : (⟨.ok, ⟨⟨ascii "db", 0, [], []⟩, .notSet⟩, none, none⟩ : Answer) ∈
      answersSince s ((handleRequest openConfig c.env c.callerId c.request c.session).final s) := by decide +kernel
  exact (expiry_exact_iff openConfig c.env c.callerId c.request c.session s (ascii "k") 9 0 (by unfold IsClock; decide)
    (by decide) (.inl ⟨⟨ascii "k", ascii "v", 9⟩, .inl rfl, rfl, rfl⟩) (by decide) _ ha rfl).mpr (.inl (by decide)) _ 5
    rfl (by unfold IsClock; decide) (by decide) (by decide)

/-- The greatest number of seconds that a client may give, one second after the
start of the clock: the key is created, and is expired in the same second. -/
theorem expiry_wraps :
    let s := serve openConfig [callBy "alice" "db" (.createDb ⟨0, .none⟩),
      (callBy "alice" "db" (.create ⟨ascii "k", ascii "v", 0 - 1⟩)).at 1] empty
    s.answers.map Answer.result = [.ok, .ok] ∧ expired openConfig 1 s.storage (ascii "db") (ascii "k") = .ok true ∧
      getTtl openConfig 1 s.storage (ascii "db") (ascii "k") = .ok (some 0) := by
  decide +kernel

/-! ## After a delete -/

/-- A create finds the expiry time of a key that is gone, and the time is over. -/
structure StillPending (cfg : Config) (now : UInt64) (request : Request) (kv : KeyValue) (st : MemStorage) : Prop where
  gone : st.has request.dbUuid kv.key = false
  elapsed : expired cfg now st request.dbUuid kv.key = .ok true
  fits : ∃ perms maxSize, getDatabasePermissions cfg st request.dbUuid = .ok (some perms) ∧
    maxDatabaseSize perms = .ok maxSize ∧ ¬ (maxSize ≠ 0 ∧ byteSize kv.key + byteSize kv.value > maxSize)

theorem admit_deletePending_iff :
    admitWrite cfg env request st kv perms = .ok (.inl .deletePending) ↔
      ∃ maxSize, maxDatabaseSize perms = .ok maxSize ∧
        ¬ (maxSize ≠ 0 ∧ byteSize request.create.key + byteSize request.create.value > maxSize) ∧
        expired cfg env.now st request.dbUuid kv.key = .ok true := by
  constructor
  · intro h
    obtain ⟨maxSize, hmax, h⟩ := except_bind_eq_ok.mp h
    split at h
    · cases h
    · rename_i hfits
      obtain ⟨exp, hexp, h⟩ := except_bind_eq_ok.mp h
      cases exp with
      | true => exact ⟨maxSize, hmax, hfits, hexp⟩
      | false =>
        obtain ⟨exceeds, -, h⟩ := except_bind_eq_ok.mp h
        split at h
        · obtain ⟨keys, -, h⟩ := except_bind_eq_ok.mp h
          split at h
          · cases h
          · cases h
        · cases h
  · rintro ⟨maxSize, hmax, hfits, hexp⟩
    rw [admitWrite, hmax, except_ok_bind, if_neg hfits, hexp]
    rfl

theorem writeTo_ne_deletePending (request : Request) (kv : KeyValue) (st : MemStorage) :
    (writeTo request kv st).1 ≠ .deletePending := by
  rw [writeTo]
  split
  · rw [MemStorage.update]
    split
    · exact fun h => by cases h
    · split
      · exact fun h => by cases h
      · exact fun h => by cases h
  · rw [MemStorage.create]
    split
    · exact fun h => by cases h
    · split
      · exact fun h => by cases h
      · split
        · exact fun h => by cases h
        · exact fun h => by cases h

section

variable (hw : Writes request kv) (hperms : getDatabasePermissions cfg s.storage request.dbUuid = .ok (some perms))
  (hwriter : isCallerAWriter cfg callerId perms = .ok true)
include hw hperms hwriter

/-- The answers to a create or an update by a writer. -/
theorem results_write :
    (answersSince s ((handleRequest cfg env callerId request session).final s)).map Answer.result =
      match admitWrite cfg env request s.storage kv perms with
      | .error _ => []
      | .ok (.inl result) => [result]
      | .ok (.inr keys) =>
        if (writeTo request kv (evict s.storage request.dbUuid keys)).1 = .ok then
          match setExpiry env.now (generateExpireKey cfg.json request.dbUuid kv.key) kv.expire
            (writeTo request kv (evict s.storage request.dbUuid keys)).2 with
          | .ok _ => [.ok]
          | .error _ => []
        else [(writeTo request kv (evict s.storage request.dbUuid keys)).1] := by
  rw [final, runFrom_write hw hperms hwriter]
  cases admitWrite cfg env request s.storage kv perms with
  | error =>
    rw [answersSince_self]
    rfl
  | ok plan =>
    cases plan with
    | inl => exact answersSince_answered rfl
    | inr keys =>
      dsimp only
      rw [runFrom_store]
      split
      · cases setExpiry env.now (generateExpireKey cfg.json request.dbUuid kv.key) kv.expire
          (writeTo request kv (evict s.storage request.dbUuid keys)).2 with
        | ok st => exact answersSince_answered rfl
        | error e =>
          rw [answersSince, List.drop_length]
          rfl
      · exact answersSince_answered rfl

/-- A create by a writer is answered with DELETE_PENDING where the checks say so. -/
theorem deletePending_iff :
    (∃ a ∈ answersSince s ((handleRequest cfg env callerId request session).final s), a.result = .deletePending) ↔
      admitWrite cfg env request s.storage kv perms = .ok (.inl .deletePending) := by
  rw [← List.mem_map, results_write hw hperms hwriter]
  cases admitWrite cfg env request s.storage kv perms with
  | error => simp
  | ok plan =>
    cases plan with
    | inl => simp [eq_comm]
    | inr keys =>
      have hne := writeTo_ne_deletePending request kv (evict s.storage request.dbUuid keys)
      dsimp only
      split
      · cases setExpiry env.now (generateExpireKey cfg.json request.dbUuid kv.key) kv.expire
          (writeTo request kv (evict s.storage request.dbUuid keys)).2 <;> simp
      · simp [hne.symm]

end

/-- What a delete leaves: without the key there is no expiry time either, and where
the key was gone nothing has changed. -/
theorem storage_delete (hm : request.msg = .delete key)
    (hp : MayWrite cfg callerId request s.storage) :
    let s' := (handleRequest cfg env callerId request session).final s
    if s.storage.has request.dbUuid key then
      s'.storage.read ttlUuid (generateExpireKey cfg.json request.dbUuid key) = none
    else s'.storage = s.storage := by
  intro s'
  have hrun : (handleRequest cfg env callerId request session).runFrom s = _ := runFrom_delete hm hp
  split
  · rename_i hhas
    rw [if_pos hhas] at hrun
    rw [show s' = _ from congrArg Prod.snd hrun, storage_answered, MemStorage.read_remove, if_pos ⟨rfl, rfl⟩]
  · rename_i hhas
    rw [if_neg hhas] at hrun
    rw [show s' = _ from congrArg Prod.snd hrun, storage_answered]

/-- After a delete of a key by a writer, whatever its result, a create of the key by
a writer is not answered with DELETE_PENDING, unless the key was gone before the
delete and its expiry time was not. -/
theorem create_after_delete_iff (cfg : Config) (s : Crud) (delete create : Call) (kv : KeyValue)
    (hdelete : delete.request.msg = .delete kv.key) (hcreate : create.request.msg = .create kv)
    (hdb : create.request.dbUuid = delete.request.dbUuid) (hp : MayWrite cfg delete.callerId delete.request s.storage)
    (hp' : MayWrite cfg create.callerId create.request (serve cfg [delete] s).storage) :
    (∀ a ∈ answersSince (serve cfg [delete] s) (serve cfg [delete, create] s), a.result ≠ .deletePending) ↔
      ¬ StillPending cfg create.env.now create.request kv s.storage := by
  obtain ⟨perms, hperms, hwriter⟩ := hp'
  have hrequest : create.request.create = kv := by rw [Request.create, hcreate]
  have hstorage : if s.storage.has delete.request.dbUuid kv.key then
      (serve cfg [delete] s).storage.read ttlUuid (generateExpireKey cfg.json delete.request.dbUuid kv.key) = none
      else (serve cfg [delete] s).storage = s.storage := storage_delete hdelete hp
  rw [← not_iff_not, not_not]
  push Not
  refine (deletePending_iff (.inl hcreate) hperms hwriter).trans ?_
  rw [admit_deletePending_iff, hrequest]
  split at hstorage
  · -- the expiry time is gone with the key
    rename_i hhas
    constructor
    · rintro ⟨maxSize, -, -, hexp⟩
      rw [expired, expiryTime, hdb, hstorage] at hexp
      cases hexp
    · intro h
      have hgone := h.gone
      rw [hdb, hhas] at hgone
      cases hgone
  · rename_i hhas
    rw [hstorage] at hperms ⊢
    constructor
    · rintro ⟨maxSize, hmax, hfits, hexp⟩
      exact ⟨hdb ▸ eq_false_of_ne_true hhas, hexp, perms, maxSize, hperms, hmax, hfits⟩
    · rintro ⟨-, hexp, perms', maxSize, hperms', hmax, hfits⟩
      rw [hperms] at hperms'
      cases hperms'
      exact ⟨maxSize, hmax, hfits, hexp⟩

theorem create_after_delete_again :
    let delete := (callBy "alice" "db" (.delete (ascii "k"))).at 20
    let create := (callBy "alice" "db" (.create ⟨ascii "k", ascii "w", 0⟩)).at 21
    ∀ a ∈ answersSince (serve openConfig [delete] firstDatabase) (serve openConfig [delete, create] firstDatabase),
      a.result ≠ .deletePending := by
  intro delete create
  refine (create_after_delete_iff openConfig firstDatabase delete create ⟨ascii "k", ascii "w", 0⟩ rfl rfl rfl
    (mayWrite_openConfig (ascii "alice") ⟨0, .none⟩ (by decide +kernel) (by decide))
    (mayWrite_openConfig (ascii "alice") ⟨0, .none⟩ (by decide +kernel) (by decide))).mpr fun h => ?_
  have hhas : firstDatabase.storage.has (ascii "db") (ascii "k") = true := by decide +kernel
  exact absurd (hhas.symm.trans h.gone) (by decide)

/-- The only key of a database of 10 bytes has an expiry time and is evicted for
another. When the time is over it cannot be deleted, nor created again. -/
theorem pending_for_ever :
    let s := serve openConfig [callBy "alice" "db" (.createDb ⟨10, .random⟩),
      callBy "alice" "db" (.create ⟨ascii "k", ascii "value", 5⟩),
      callBy "alice" "db" (.create ⟨ascii "j", ascii "other", 0⟩),
      (callBy "alice" "db" (.delete (ascii "k"))).at 10,
      (callBy "alice" "db" (.create ⟨ascii "k", [], 0⟩)).at 11] empty
    s.answers.map Answer.result = [.ok, .ok, .ok, .notFound, .deletePending] := by
  decide +kernel

/-! ## Value and expiry time -/

/-- A request with an expiry time is answered once and throws nothing; where it is
answered with ok the key has an expiry time, and otherwise its value is as before. -/
structure Together (cfg : Config) (request : Request) (key : Bytes) (s : Crud) (run : Except Fault Unit × Crud) :
    Prop where
  returns : run.1 = .ok ()
  answer : ∃ a, answersSince s run.2 = [a] ∧
    (a.result = .ok → run.2.storage.has ttlUuid (generateExpireKey cfg.json request.dbUuid key)) ∧
    (a.result ≠ .ok → run.2.storage.read request.dbUuid key = s.storage.read request.dbUuid key)

/-- The key of an expiry time is no longer than a key may be. -/
def TtlKeyFits (cfg : Config) (request : Request) (key : Bytes) : Prop :=
  (generateExpireKey cfg.json request.dbUuid key).length ≤ maxKeySize

/-- The checks of a create or an update come to an end. Where the storage accepts the
value it has room for the key of the expiry time; where it refuses the value, the key
was not evicted for it. -/
def WritesWhole (cfg : Config) (env : Env) (request : Request) (st : MemStorage) (kv : KeyValue)
    (perms : Json) : Prop :=
  match admitWrite cfg env request st kv perms with
  | .error _ => False
  | .ok (.inl _) => True
  | .ok (.inr keys) =>
    (¬ Refused request st kv keys → TtlKeyFits cfg request kv.key) ∧
    (Refused request st kv keys → kv.key ∈ keys → st.read request.dbUuid kv.key = none)

/-- The same for an expire. -/
def ExpiresWhole (cfg : Config) (env : Env) (request : Request) (st : MemStorage) (key : Bytes)
    (expire : UInt64) : Prop :=
  match admitExpire cfg env request st key expire with
  | .error _ => False
  | .ok (some _) => True
  | .ok none => TtlKeyFits cfg request key

theorem setExpiry_ok_iff (now : UInt64) (generatedKey : Bytes) (hfit : KeysFit st)
    (hpos : expire ≠ 0) :
    (∃ st', setExpiry now generatedKey expire st = .ok st') ↔ generatedKey.length ≤ maxKeySize := by
  have hvalue := length_expires (now + expire)
  rw [setExpiry, if_pos hpos]
  dsimp only
  constructor
  · rintro ⟨st', h⟩
    split at h
    · rename_i hcreated
      exact ((MemStorage.create_result_iff ..).mp hcreated).2.1
    · split at h
      · rename_i hupdated
        exact hfit _ _ ((MemStorage.update_result_iff ..).mp hupdated).2
      · cases h
  · intro hlength
    cases hread : st.read ttlUuid generatedKey with
    | none =>
      rw [if_pos ((MemStorage.create_result_iff ..).mpr ⟨hvalue, hlength, hread⟩)]
      exact ⟨_, rfl⟩
    | some =>
      have hupdated := (MemStorage.update_result_iff ..).mpr ⟨hvalue, Option.isSome_of_eq_some hread⟩
      split <;> exact ⟨_, rfl⟩

theorem not_together_error {s' : Crud} {e : Fault} : ¬ Together cfg request key s (.error e, s') :=
  fun h => by cases h.returns

theorem together_answered_iff {s' : Crud} {result : StorageResult} (h : s'.answers = s.answers) :
    Together cfg request key s (.ok (), answered cfg request session result s') ↔
      (result = .ok → s'.storage.has ttlUuid (generateExpireKey cfg.json request.dbUuid key)) ∧
      (result ≠ .ok → s'.storage.read request.dbUuid key = s.storage.read request.dbUuid key) := by
  have hone : (answersSince s (answered cfg request session result s')).map Answer.result = [result] :=
    answersSince_answered h
  obtain ⟨a, ha, hresult⟩ := List.map_eq_singleton_iff.mp hone
  constructor
  · rintro ⟨-, a', ha', hok, hno⟩
    obtain rfl : a = a' := List.singleton_inj.mp (ha.symm.trans ha')
    rw [hresult] at hok hno
    exact ⟨hok, hno⟩
  · rintro ⟨hok, hno⟩
    exact ⟨rfl, a, ha, fun h => hok (hresult ▸ h), fun h => hno (hresult ▸ h)⟩

theorem has_of_setExpiry {now : UInt64} {st' : MemStorage} (hpos : expire ≠ 0)
    (h : setExpiry now generatedKey expire st = .ok st') : st'.has ttlUuid generatedKey := by
  rw [MemStorage.has_eq, read_setExpiry hpos h, if_pos ⟨rfl, rfl⟩]
  rfl

section

variable (hfit : KeysFit s.storage) (hperms : getDatabasePermissions cfg s.storage request.dbUuid = .ok (some perms))
  (hwriter : isCallerAWriter cfg callerId perms = .ok true)
include hfit hperms hwriter

theorem together_write_iff (hw : Writes request kv) (hpos : kv.expire ≠ 0) :
    Together cfg request kv.key s ((handleRequest cfg env callerId request session).runFrom s) ↔
      WritesWhole cfg env request s.storage kv perms := by
  rw [runFrom_write hw hperms hwriter, WritesWhole]
  cases hadmitted : admitWrite cfg env request s.storage kv perms with
  | error => exact iff_of_false not_together_error id
  | ok plan =>
    cases plan with
    | inl =>
      refine iff_of_true ((together_answered_iff (by rfl)).mpr ⟨fun h => ?_, fun _ => rfl⟩) trivial
      exact absurd h (admitWrite_ne_ok hadmitted)
    | inr keys =>
      dsimp only
      rw [runFrom_store]
      have haccepted := writeTo_evict_ok_iff request s.storage kv keys
      split
      · rename_i hok
        have hwhole := setExpiry_ok_iff env.now (generateExpireKey cfg.json request.dbUuid kv.key)
          (keysFit_kept.writeTo (keysFit_kept.evict hfit request.dbUuid keys) hok) hpos
        have hnot := haccepted.mp hok
        cases hexpiry : setExpiry env.now (generateExpireKey cfg.json request.dbUuid kv.key) kv.expire
            (writeTo request kv (evict s.storage request.dbUuid keys)).2 with
        | error e =>
          refine iff_of_false not_together_error fun h => ?_
          obtain ⟨st', hst'⟩ := hwhole.mpr (h.1 hnot)
          rw [hexpiry] at hst'
          cases hst'
        | ok st =>
          refine iff_of_true ((together_answered_iff (by rfl)).mpr ⟨fun _ => ?_, fun h => absurd rfl h⟩) ?_
          · exact has_of_setExpiry hpos hexpiry
          · exact ⟨fun _ => hwhole.mp ⟨st, hexpiry⟩, fun h => absurd h hnot⟩
      · rename_i hok
        have hrefused : Refused request s.storage kv keys := not_not.mp fun h => hok (haccepted.mpr h)
        refine (together_answered_iff (by rfl)).trans ?_
        rw [read_evict]
        constructor
        · rintro ⟨-, h⟩
          refine ⟨fun hnot => absurd hrefused hnot, fun _ hmem => ?_⟩
          rw [← h hok, if_pos ⟨rfl, hmem⟩]
        · rintro ⟨-, h⟩
          refine ⟨fun h => absurd h hok, fun _ => ?_⟩
          split
          · rename_i hmem
            exact (h hrefused hmem.2).symm
          · rfl

theorem together_expire_iff (hm : request.msg = .expire key expire) (hpos : expire ≠ 0) :
    Together cfg request key s ((handleRequest cfg env callerId request session).runFrom s) ↔
      ExpiresWhole cfg env request s.storage key expire := by
  rw [runFrom_expire hm hperms hwriter, ExpiresWhole]
  cases hadmitted : admitExpire cfg env request s.storage key expire with
  | error => exact iff_of_false not_together_error id
  | ok plan =>
    cases plan with
    | some =>
      refine iff_of_true ((together_answered_iff (by rfl)).mpr ⟨fun h => ?_, fun _ => rfl⟩) trivial
      exact absurd h (admitExpire_ne_ok hadmitted)
    | none =>
      have hwhole := setExpiry_ok_iff env.now (generateExpireKey cfg.json request.dbUuid key)
        (keysFit_kept.remove hfit ttlUuid (generateExpireKey cfg.json request.dbUuid key)) hpos
      cases hexpiry : setExpiry env.now (generateExpireKey cfg.json request.dbUuid key) expire
          (s.storage.remove ttlUuid (generateExpireKey cfg.json request.dbUuid key)).2 with
      | error e =>
        refine iff_of_false not_together_error fun h => ?_
        obtain ⟨st', hst'⟩ := hwhole.mpr h
        rw [hexpiry] at hst'
        cases hst'
      | ok st =>
        refine iff_of_true ((together_answered_iff (by rfl)).mpr ⟨fun _ => ?_, fun h => absurd rfl h⟩)
          (hwhole.mp ⟨st, hexpiry⟩)
        exact has_of_setExpiry hpos hexpiry

end

/-- A value and its expiry time are written together, or not at all, if and only if the
checks before throw nothing, the key of the expiry time is no longer than a key may be,
and a request that the storage refuses has not evicted its own key. -/
theorem written_together_iff (cfg : Config) (s : Crud) (hs : Reachable cfg (fun _ _ => True) s) (c : Call) (key : Bytes)
    (expire : UInt64) (hgives : GivesExpiry c.request key expire) (hpos : expire ≠ 0) (perms : Json)
    (hperms : getDatabasePermissions cfg s.storage c.request.dbUuid = .ok (some perms))
    (hwriter : isCallerAWriter cfg c.callerId perms = .ok true) :
    Together cfg c.request key s ((handleRequest cfg c.env c.callerId c.request c.session).runFrom s) ↔
      (∀ kv, Writes c.request kv → WritesWhole cfg c.env c.request s.storage kv perms) ∧
      (∀ key expire, c.request.msg = .expire key expire → ExpiresWhole cfg c.env c.request s.storage key expire) := by
  rcases hgives with ⟨kv, hw, rfl, rfl⟩ | hm
  · rw [together_write_iff hs.keysFit hperms hwriter hw hpos]
    constructor
    · intro h
      refine ⟨fun kv' hw' => ?_, fun key expire hm => ?_⟩
      · rcases hw with hm | hm <;> rcases hw' with hm' | hm' <;> cases hm.symm.trans hm' <;> exact h
      · rcases hw with hm' | hm' <;> cases hm'.symm.trans hm
    · exact fun h => h.1 kv hw
  · rw [together_expire_iff hs.keysFit hperms hwriter hm hpos]
    constructor
    · intro h
      refine ⟨fun kv hw => ?_, fun key' expire' hm' => ?_⟩
      · rcases hw with hm' | hm' <;> cases hm.symm.trans hm'
      · cases hm.symm.trans hm'
        exact h
    · exact fun h => h.2 _ _ hm

theorem written_together_nine :
    let create := callBy "alice" "db" (.createDb ⟨0, .none⟩)
    let s := (handleRequest openConfig create.env create.callerId create.request create.session).final empty
    let c := callBy "alice" "db" (.create ⟨ascii "k", ascii "v", 9⟩)
    Together openConfig c.request (ascii "k") s
      ((handleRequest openConfig c.env c.callerId c.request c.session).runFrom s) := by
  intro create s c
  have hadmitted : admitWrite openConfig c.env c.request s.storage ⟨ascii "k", ascii "v", 9⟩
      (createPermissionData (ascii "alice") ⟨0, .none⟩) = .ok (.inr []) := by decide +kernel
  refine (written_together_iff openConfig s (.request .start create trivial) c (ascii "k") 9
    (.inl ⟨⟨ascii "k", ascii "v", 9⟩, .inl rfl, rfl, rfl⟩) (by decide) (createPermissionData (ascii "alice") ⟨0, .none⟩)
    (permissions_openConfig _ _ (by decide +kernel)) (writer_openConfig _ (by decide))).mpr
      ⟨fun kv hw => ?_, fun key expire hm => ?_⟩
  · rcases hw with hm | hm
    · cases hm
      rw [WritesWhole, hadmitted]
      exact ⟨fun _ => by unfold TtlKeyFits; decide +kernel, fun _ h => by cases h⟩
    · cases hm
  · cases hm

/-- A key of 4090 bytes is stored, and then there is no room for the key of its expiry
time: the request throws and is not answered. -/
theorem written_without_expiry :
    let s := serve openConfig [callBy "alice" "db" (.createDb ⟨0, .none⟩)] empty
    let key := List.replicate 4090 (107 : UInt8)
    let c := callBy "alice" "db" (.create ⟨key, ascii "v", 5⟩)
    let run := (handleRequest openConfig c.env c.callerId c.request c.session).runFrom s
    run.1.isOk = false ∧ answersSince s run.2 = [] ∧ run.2.storage.read (ascii "db") key = some (ascii "v") := by
  decide +kernel

end SwarmDb.Crud
