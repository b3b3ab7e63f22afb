import SwarmDb.Crud.Outcomes

/-!
# Failed requests

A request whose answer carries an error leaves the storage as it was, unless keys were evicted for it before the
storage refused to write (`refused_unchanged_iff`).
-/

namespace SwarmDb.Crud

open Lib Program

variable {cfg : Config} {env : Env} {callerId : Bytes} {request : Request} {session : Option Nat}

/-- The answers that were given since a state. -/
def answersSince (s s' : Crud) : List Answer := s'.answers.drop s.answers.length

theorem unchanged_of_refused (s : Crud) (hv : ¬ EvictsInVain cfg env callerId request s.storage) {a : Answer}
    (ha : a ∈ answersSince s ((handleRequest cfg env callerId request session).final s)) (hne : a.result ≠ .ok) :
    ((handleRequest cfg env callerId request session).final s).storage = s.storage := by
  rcases (handleRequest_ended cfg env callerId request session s).answer with h | ⟨b, hb, hok | hsame | hvain⟩
  · rw [answersSince, h, List.drop_length] at ha
    cases ha
  · rw [answersSince, hb, List.drop_left, List.mem_singleton] at ha
    exact absurd (ha ▸ hok) hne
  · exact hsame
  · exact absurd hvain hv

/-! ## An eviction in vain -/

variable {s : Crud} {kv : KeyValue} {perms : Json} {maxSize : UInt64} {keys : List Bytes}

/-- A run that evicts keys goes on with the storage without them. -/
theorem runFrom_makeRoomAndStore (h : Evicts cfg env callerId request s.storage kv perms maxSize keys)
    (write : MemStorage → StorageResult × MemStorage) :
    (makeRoomAndStore cfg env request session write kv perms).runFrom s =
      (store cfg env request session write kv).runFrom { s with storage := evict s.storage request.dbUuid keys } := by
  have hev : (doEviction cfg request maxSize).runFrom s =
      (.ok true, { s with storage := evict s.storage request.dbUuid keys }) := by
    simp only [doEviction, runFrom_bind, runFrom_read, h.evicted, runFrom_lift]
    rw [if_neg (by simpa using h.nonempty)]
    rfl
  simp only [makeRoomAndStore, runFrom_bind, runFrom_read, runFrom_lift, h.limit, if_neg h.fits, h.fresh, h.exceeds,
    if_true, Bool.false_eq_true, if_false, hev]

theorem runFrom_handleRequest_of_evicts (h : Evicts cfg env callerId request s.storage kv perms maxSize keys) :
    (handleRequest cfg env callerId request session).runFrom s =
      (store cfg env request session (writeTo request kv) kv).runFrom
        { s with storage := evict s.storage request.dbUuid keys } := by
  rw [← runFrom_makeRoomAndStore h]
  rcases h.writes with hm | hm
  · simp only [handleRequest, hm, handleCreate, ifPermitted, runFrom_bind, runFrom_read, runFrom_lift, h.permissions,
      h.writer, if_true, writeTo_create hm]
  · simp only [handleRequest, hm, handleUpdate, ifPermitted, runFrom_bind, runFrom_read, runFrom_lift, h.permissions,
      h.writer, if_true, writeTo_update hm]

/-- The storage is asked in vain. -/
theorem final_store_of_ne_ok {write : MemStorage → StorageResult × MemStorage} (hne : (write s.storage).1 ≠ .ok) :
    (store cfg env request session write kv).final s =
      (sendResponse cfg request (write s.storage).1 .notSet session).final s := by
  simp only [store, final_read_bind, if_neg hne]

/-- The answer to a request has an error and the storage was changed only where
keys were evicted for a request that the storage refused. -/
theorem refused_unchanged_iff (cfg : Config) (env : Env) (callerId : Bytes) (request : Request) (session : Option Nat)
    (s : Crud) :
    (∀ a ∈ answersSince s ((handleRequest cfg env callerId request session).final s), a.result ≠ .ok →
      ∀ uuid key, ((handleRequest cfg env callerId request session).final s).storage.read uuid key =
        s.storage.read uuid key) ↔
      ¬ EvictsInVain cfg env callerId request s.storage := by
  constructor
  · rintro h ⟨kv, perms, maxSize, keys, hev, ⟨key, hk, hin⟩, hr⟩
    have hne : (writeTo request kv (evict s.storage request.dbUuid keys)).1 ≠ .ok := fun hok =>
      (writeTo_evict_ok_iff request s.storage kv keys).mp hok hr
    rw [final, runFrom_handleRequest_of_evicts hev, ← final, final_store_of_ne_ok hne] at h
    have hread := h _ (by
      rw [answersSince, sendResponse, final_update, List.drop_left]
      exact List.mem_singleton_self _)
      hne request.dbUuid key
    rw [sendResponse, final_update, read_evict, if_pos ⟨rfl, hk⟩] at hread
    rw [← hread] at hin
    cases hin
  · intro hv a ha hne uuid key
    rw [unchanged_of_refused s hv ha hne]

/-! ## A database that loses a key -/

/-- One call of `handle_request`. -/
structure Call where
  env : Env
  callerId : Bytes
  request : Request
  session : Option Nat

/-- The state after some calls, also of those that throw. -/
def serve (cfg : Config) (calls : List Call) (s : Crud) : Crud :=
  calls.foldl (fun s c => (handleRequest cfg c.env c.callerId c.request c.session).final s) s

/-- A `crud` over an empty storage. -/
def empty : Crud := ⟨default, default, []⟩

/-- A `crud` without owner, limit and peers. -/
def openConfig : Config where
  json := .plain
  mt := ⟨fun _ _ _ => 0, fun _ _ _ => Nat.zero_le _⟩
  order := ⟨fun l => l.mergeSort fun a b => decide (b.valueSize ≤ a.valueSize), fun l => l.mergeSort_perm _, fun l => by
    refine (l.pairwise_mergeSort ?_ ?_).imp fun h => of_decide_eq_true h
    · intro a b c hab hbc
      simp only [decide_eq_true_eq] at hab hbc ⊢
      exact UInt64.le_trans hbc hab
    · intro a b
      simp only [Bool.or_eq_true, decide_eq_true_eq]
      exact UInt64.le_total _ _⟩
  peers := []
  ownerPublicKey := []
  maxSwarmStorage := 0
  hasNode := false

/-- A call by a caller at the time `0`, without a session. -/
def callBy (callerId uuid : String) (msg : Msg) : Call :=
  ⟨⟨0, fun _ => true⟩, ascii callerId, ⟨⟨ascii uuid, 0, [], []⟩, msg⟩, none⟩

/-- A database of 4100 bytes that evicts at random, with one key. -/
def smallDatabase : List Call :=
  [callBy "alice" "db" (.createDb ⟨4100, .random⟩), callBy "alice" "db" (.create ⟨ascii "k", ascii "value", 0⟩)]

/-- A key that is too long for the storage makes the database evict its only
key, before it is refused. -/
theorem refused_create_evicts :
    let s := serve openConfig smallDatabase empty
    let s' := serve openConfig [callBy "alice" "db" (.create ⟨List.replicate 4097 97, [], 0⟩)] s
    (answersSince s s').map Answer.result = [.keyTooLarge] ∧
      s.storage.read (ascii "db") (ascii "k") = some (ascii "value") ∧
      s'.storage.read (ascii "db") (ascii "k") = none := by
  decide +kernel

end SwarmDb.Crud
