import SwarmDb.Crud.TtlTable
import SwarmDb.Crud.Writing
import SwarmDb.Storage.Sizes

/-!
# States that can be reached

A `crud` starts over an empty storage, and goes on by requests and by the timer that looks for expired keys. What every
change of the storage keeps is kept in every state that is reached (`Reachable.invariant`), and so is what every request
as a whole keeps (`Reachable.rule`).
-/

namespace SwarmDb.Crud

open Lib Program

/-- The states that are reached by requests of a kind, and by the timer. -/
inductive Reachable (cfg : Config) (allowed : Crud → Call → Prop) : Crud → Prop
  | start : Reachable cfg allowed empty
  | request {s : Crud} (h : Reachable cfg allowed s) (c : Call) (hc : allowed s c) :
      Reachable cfg allowed ((handleRequest cfg c.env c.callerId c.request c.session).final s)
  | timer {s : Crud} (h : Reachable cfg allowed s) (now : UInt64) :
      Reachable cfg allowed ((checkKeyExpiration cfg now).final s)

/-- Expiry times are removed. -/
def RemovesTtls : MemStorage → MemStorage → Prop :=
  Relation.ReflTransGen fun st st' => ∃ generatedKey, st' = (st.remove ttlUuid generatedKey).2

variable {cfg : Config} {allowed : Crud → Call → Prop} {st : MemStorage} {request : Request} {s : Crud}

theorem checkKeyExpiration_removes (cfg : Config) (now : UInt64) (s : Crud) :
    RemovesTtls s.storage ((checkKeyExpiration cfg now).final s).storage := by
  let R : Crud → Crud → Prop := fun s s' => RemovesTtls s.storage s'.storage
  have : Std.Refl R := ⟨fun _ => .refl⟩
  have : IsTrans Crud R := ⟨fun _ _ _ h h' => h.trans h'⟩
  have hentry : ∀ generatedKey, Within R (checkEntry cfg now generatedKey) := by
    intro generatedKey
    refine .bind .read fun s => ?_
    split
    · exact .pure _
    · refine .bind (.lift _) fun _ => .bind (.lift _) fun _ => .ite (.pure _) (.ite (.pure _) ?_)
      exact .bind (.update fun s => .single ⟨generatedKey, rfl⟩) fun _ => .pure _
  exact Within.bind (R := R) .read (fun s => .bind (.collect hentry _) fun _ => .pure _) s

variable {I : MemStorage → Prop}

/-- What requests keep, and the removal of an expiry time. -/
theorem Reachable.rule (hempty : I default)
    (hrequest : ∀ s c, Reachable cfg allowed s → allowed s c → I s.storage →
      I ((handleRequest cfg c.env c.callerId c.request c.session).final s).storage)
    (hremove : ∀ st generatedKey, I st → I (st.remove ttlUuid generatedKey).2) (h : Reachable cfg allowed s) :
    I s.storage := by
  induction h with
  | start => exact hempty
  | request h c hc ih => exact hrequest _ c h hc ih
  | @timer s h now ih =>
    have hremoves := checkKeyExpiration_removes cfg now s
    generalize ((checkKeyExpiration cfg now).final s).storage = st at hremoves
    induction hremoves with
    | refl => exact ih
    | tail _ hst ih' =>
      obtain ⟨generatedKey, rfl⟩ := hst
      exact hremove _ _ ih'

/-- What the changes of the storage keep. -/
theorem Reachable.invariant (hempty : I default)
    (hchange : ∀ s c st st', Reachable cfg allowed s → allowed s c → I s.storage →
      Change cfg c.env c.callerId c.request s.storage st st' → I st → I st')
    (hremove : ∀ st generatedKey, I st → I (st.remove ttlUuid generatedKey).2) (h : Reachable cfg allowed s) :
    I s.storage := by
  refine h.rule hempty (fun s c h hc ih => ?_) hremove
  exact handleRequest_changes ih fun st st' hch => hchange s c st st' h hc ih hch

/-- What every operation of the storage keeps. -/
structure KeptByStorage (P : MemStorage → Prop) : Prop where
  start : P default
  create : ∀ {st uuid key value}, P st → (st.create uuid key value).1 = .ok → P (st.create uuid key value).2
  update : ∀ {st uuid key value}, P st → (st.update uuid key value).1 = .ok → P (st.update uuid key value).2
  remove : ∀ {st}, P st → ∀ uuid key, P (st.remove uuid key).2
  removeAll : ∀ {st}, P st → ∀ uuid, P (st.removeAll uuid).2

namespace KeptByStorage

variable {P : MemStorage → Prop} (hP : KeptByStorage P)

include hP

theorem evict (h : P st) (uuid : Bytes) (keys : List Bytes) : P (evict st uuid keys) := by
  induction keys generalizing st with
  | nil => exact h
  | cons key _ ih => exact ih (hP.remove h uuid key)

theorem writeTo (h : P st) {kv : KeyValue} (hok : (writeTo request kv st).1 = .ok) : P (writeTo request kv st).2 := by
  unfold Crud.writeTo at hok ⊢
  split at hok
  · rename_i hu
    rw [if_pos hu]
    exact hP.update h hok
  · rename_i hu
    rw [if_neg hu]
    exact hP.create h hok

theorem reachable (h : Reachable cfg allowed s) : P s.storage := by
  refine h.invariant hP.start (fun s c st st' _ _ hs hch hst => ?_) fun st g hst => hP.remove hst _ _
  cases hch with
  | evict => exact hP.evict hs _ _
  | write _ _ _ _ hok => exact hP.writeTo hst hok
  | delete | removeTtl | flushTtl => exact hP.remove hst _ _
  | createTtl _ _ _ _ hok => exact hP.create hst hok
  | updateTtl _ _ _ _ hok => exact hP.update hst hok
  | createDb _ _ _ hok => exact hP.create hs hok
  | updateDb _ _ hok => exact hP.update hs hok
  | deleteDb => exact hP.removeAll (hP.remove hs _ _) _

end KeptByStorage

/-! ## The length of keys -/

/-- No key is longer than it may be. -/
def KeysFit (st : MemStorage) : Prop := ∀ uuid key, (st.read uuid key).isSome → key.length ≤ maxKeySize

/-- What is read afterwards was there before, apart from a key that fits. -/
theorem KeysFit.of_read {st' : MemStorage} (h : KeysFit st)
    (hread : ∀ uuid key, (st'.read uuid key).isSome → (st.read uuid key).isSome ∨ key.length ≤ maxKeySize) :
      KeysFit st' :=
  fun uuid key hk => (hread uuid key hk).elim (h uuid key) id

theorem keysFit_kept : KeptByStorage KeysFit where
  start uuid key hk := by
    rw [MemStorage.read_default] at hk
    cases hk
  create h hok := h.of_read fun u k hk => by
    rw [MemStorage.read_create hok] at hk
    split at hk
    · rename_i heq
      exact .inr (heq.2 ▸ ((MemStorage.create_result_iff ..).mp hok).2.1)
    · exact .inl hk
  update h hok := h.of_read fun u k hk => by
    rw [MemStorage.read_update hok] at hk
    split at hk
    · rename_i heq
      exact .inr (heq.2 ▸ h _ _ ((MemStorage.update_result_iff ..).mp hok).2)
    · exact .inl hk
  remove h uuid key := h.of_read fun u k hk => .inl <| by
    rw [MemStorage.read_remove] at hk
    split at hk
    · cases hk
    · exact hk
  removeAll h uuid := h.of_read fun u k hk => .inl <| by
    rw [MemStorage.read_removeAll] at hk
    split at hk
    · cases hk
    · exact hk

theorem Reachable.keysFit (h : Reachable cfg allowed s) : KeysFit s.storage := keysFit_kept.reachable h

/-! ## Sizes -/

theorem counted_kept : KeptByStorage MemStorage.Counted :=
  ⟨MemStorage.counted_default, .create, .update, .remove, .removeAll⟩

theorem Reachable.counted (h : Reachable cfg allowed s) : s.storage.Counted := counted_kept.reachable h

/-! ## The table of expiry times -/

/-- Every entry of the table is under the key of a database and a key, which are read
back from it. -/
def TtlNamed (cfg : Config) (st : MemStorage) : Prop :=
  ∀ generatedKey, (st.read ttlUuid generatedKey).isSome → ∃ uuid key,
    generatedKey = generateExpireKey cfg.json uuid key ∧ extractUuidKey cfg generatedKey = .ok (uuid, key)

/-- A request on a database that is not in the place of the table, whose uuid and key
are read back from the key of an expiry time as they are. -/
structure TtlSafe (cfg : Config) (request : Request) : Prop where
  notTtl : request.dbUuid ≠ ttlUuid
  readable : ∀ key, SetsExpiry request key →
    extractUuidKey cfg (generateExpireKey cfg.json request.dbUuid key) = .ok (request.dbUuid, key)

theorem TtlNamed.of_fewer {st' : MemStorage} (h : TtlNamed cfg st)
    (hfewer : ∀ g, (st'.read ttlUuid g).isSome → (st.read ttlUuid g).isSome) : TtlNamed cfg st' :=
  fun g hg => h g (hfewer g hg)

theorem TtlNamed.written {st' : MemStorage} (h : TtlNamed cfg st) {uuid key : Bytes}
    (hw : TtlWritten (generateExpireKey cfg.json uuid key) st st')
    (hread : extractUuidKey cfg (generateExpireKey cfg.json uuid key) = .ok (uuid, key)) : TtlNamed cfg st' := by
  obtain ⟨expires, hw⟩ := hw
  intro g hg
  rw [hw] at hg
  split at hg
  · rename_i heq
    exact ⟨uuid, key, heq.2.symm, heq.2 ▸ hread⟩
  · exact h g hg

theorem isSome_of_isSome_remove {uuid key u k : Bytes}
    (h : ((st.remove uuid key).2.read u k).isSome) : (st.read u k).isSome := by
  rw [MemStorage.read_remove] at h
  split at h
  · cases h
  · exact h

theorem Outcome.ttlNamed {env : Env} {callerId : Bytes} {st' : MemStorage} (h : Outcome cfg env callerId request st st')
    (hc : TtlSafe cfg request) (ht : TtlNamed cfg st) : TtlNamed cfg st' := by
  have hpt : permissionUuid ≠ ttlUuid := by decide
  cases h with
  | same => exact ht
  | refused =>
    refine ht.of_fewer fun g hg => ?_
    rwa [read_evict, if_neg fun e => hc.notTtl e.1] at hg
  | written kv keys hw _ _ hok _ httl =>
    have hwritten : TtlNamed cfg (writeTo request kv (evict st request.dbUuid keys)).2 := by
      refine ht.of_fewer fun g hg => ?_
      rw [isSome_read_writeTo hok] at hg
      have hg := hg.resolve_left fun e => hc.notTtl e.1
      rwa [read_evict, if_neg fun e => hc.notTtl e.1] at hg
    rw [TtlOutcome] at httl
    split at httl
    · rw [httl]
      exact hwritten.of_fewer fun g => isSome_of_isSome_remove
    · rename_i hz
      rcases httl with rfl | httl
      · exact hwritten
      · exact hwritten.written httl.ttlWritten (hc.readable kv.key (.inl ⟨kv, hw, rfl, hz⟩))
  | deleted =>
    exact ht.of_fewer fun g hg => isSome_of_isSome_remove (isSome_of_isSome_remove hg)
  | persisted => exact ht.of_fewer fun g => isSome_of_isSome_remove
  | expires key expire hm _ _ _ _ h₁ h =>
    rcases ttl_cases h₁ h with rfl | rfl | hwritten
    · exact ht
    · exact ht.of_fewer fun g => isSome_of_isSome_remove
    · exact ht.written hwritten (hc.readable key (.inr ⟨expire, hm⟩))
  | createdDb _ _ _ _ h =>
    refine ht.of_fewer fun g hg => ?_
    rwa [MemStorage.read_create h, if_neg fun e => hpt e.1] at hg
  | updatedDb _ _ _ _ _ _ _ _ _ h | changedWriters _ _ _ _ h =>
    refine ht.of_fewer fun g hg => ?_
    rwa [MemStorage.read_update h, if_neg fun e => hpt e.1] at hg
  | deletedDb _ _ _ h =>
    refine ht.of_fewer fun g hg => ?_
    have hg := h.fewer g hg
    rw [MemStorage.read_removeAll, if_neg hc.notTtl] at hg
    exact isSome_of_isSome_remove hg

theorem Reachable.ttlNamed (h : Reachable cfg allowed s)
    (hallowed : ∀ s c, allowed s c → TtlSafe cfg c.request) : TtlNamed cfg s.storage := by
  refine h.rule ?_ (fun s c _ hc hs => ?_) fun st g hst => hst.of_fewer fun g => isSome_of_isSome_remove
  · intro g hg
    rw [MemStorage.read_default] at hg
    cases hg
  · exact (handleRequest_ended cfg c.env c.callerId c.request c.session s).outcome.ttlNamed (hallowed s c hc) hs

end SwarmDb.Crud
