import SwarmDb.Storage.Backends
import SwarmDb.Storage.Sizes

/-!
# The size of a store over its whole life

Every operation of `mem_storage` that writes keeps its counters (`Counted.write`), so
after any sequence of them `get_size` returns the number of keys, and the number of
bytes modulo the width of the counter (`getSize_exact_iff`). Nothing bounds the number
of keys, so a store can grow beyond what its counter holds (`getSize_wraps`).
-/

namespace SwarmDb

open Lib

/-- The calls that change a storage; the bounds of a range are in order. -/
inductive StorageWrite where
  | create (uuid key value : Bytes)
  | update (uuid key value : Bytes)
  | remove (uuid key : Bytes)
  | removeAll (uuid : Bytes)
  | removeRange (uuid first last : Bytes) (ordered : first ≤ last)

namespace MemStorage

def write (s : MemStorage) : StorageWrite → Except StorageFault MemStorage
  | .create uuid key value => .ok (s.create uuid key value).2
  | .update uuid key value => .ok (s.update uuid key value).2
  | .remove uuid key => .ok (s.remove uuid key).2
  | .removeAll uuid => .ok (s.removeAll uuid).2
  | .removeRange uuid first last _ => s.removeRange uuid first last

def writes (s : MemStorage) (calls : List StorageWrite) : Except StorageFault MemStorage := calls.foldlM write s

/-! ## A range -/

theorem total_erase {m : Map Bytes Bytes} {key value : Bytes} (h : m[key]? = some value) :
    Map.total entryBytes (m.erase key) + (key.length + value.length) = Map.total entryBytes m := by
  have hothers : ∀ k, k ≠ key → (m.erase key)[k]? = m[k]? := fun k hk => by
    rw [Map.lookup_erase, if_neg (Ne.symm hk)]
  have hapart := Map.total_apart (f := entryBytes) key hothers
  rwa [Map.weight, Map.weight, Map.lookup_erase, if_pos rfl, h] at hapart

/-- The loop of `remove_range` takes each entry off the counter. -/
theorem counted_foldl_erase {l : List (Bytes × Bytes)} {db : UInt32 × Map Bytes Bytes} (hl : (l.map Prod.fst).Nodup)
    (hmem : ∀ e ∈ l, db.2[e.1]? = some e.2) (hdb : db.1 = UInt32.ofNat (Map.total entryBytes db.2)) :
    let db' := l.foldl (fun db e => (db.1 - UInt32.ofNat (e.2.length + e.1.length), db.2.erase e.1)) db
    db'.1 = UInt32.ofNat (Map.total entryBytes db'.2) := by
  induction l generalizing db with
  | nil => exact hdb
  | cons e l ih =>
    obtain ⟨hnot, hl⟩ := List.nodup_cons.mp hl
    refine ih hl (fun e' he' => ?_) ?_
    · have hne : e.1 ≠ e'.1 := fun h => hnot (h ▸ List.mem_map_of_mem he')
      rw [Map.lookup_erase, if_neg hne]
      exact hmem e' (List.mem_cons_of_mem e he')
    · have htotal := congrArg UInt32.ofNat (total_erase (hmem e (List.mem_cons_self ..)))
      rw [UInt32.ofNat_add, ← hdb, Nat.add_comm e.1.length] at htotal
      dsimp only
      rw [← htotal]
      grind

variable {s s' : MemStorage} {uuid first last : Bytes}

theorem Counted.removeRange (h : s.Counted) (hok : s.removeRange uuid first last = .ok s') : s'.Counted := by
  rw [MemStorage.removeRange] at hok
  split at hok
  · cases hok
  · split at hok
    · cases hok
      refine h.of_inner uuid (fun u hu => by rw [inner_insert, if_neg hu]) ?_
      rw [dataSize, inner_insert, if_pos rfl]
      refine counted_foldl_erase ?_ (fun e he => Map.mem_toList_iff.mp (List.mem_filter.mp he).1) (h uuid)
      exact (Map.keys_nodup _).sublist (List.filter_sublist.map _)
    · cases hok
      exact h

/-! ## Runs -/

/-- Every call that writes returns, and keeps the counters. -/
theorem Counted.write (h : s.Counted) (call : StorageWrite) : ∃ s', s.write call = .ok s' ∧ s'.Counted := by
  cases call with
  | create uuid key value =>
    refine ⟨_, rfl, ?_⟩
    by_cases hok : (s.create uuid key value).1 = .ok
    · exact h.create hok
    · rwa [create_eq_of_ne_ok hok]
  | update uuid key value =>
    refine ⟨_, rfl, ?_⟩
    by_cases hok : (s.update uuid key value).1 = .ok
    · exact h.update hok
    · rwa [update_eq_of_ne_ok hok]
  | remove uuid key => exact ⟨_, rfl, h.remove uuid key⟩
  | removeAll uuid => exact ⟨_, rfl, h.removeAll uuid⟩
  | removeRange uuid first last ordered =>
    obtain ⟨s', hs'⟩ := s.removeRange_ok uuid ordered
    exact ⟨s', hs', h.removeRange hs'⟩

theorem Counted.writes (h : s.Counted) (calls : List StorageWrite) : ∃ s', s.writes calls = .ok s' ∧ s'.Counted := by
  induction calls generalizing s with
  | nil => exact ⟨s, rfl, h⟩
  | cons call calls ih =>
    obtain ⟨s₁, hs₁, h₁⟩ := h.write call
    obtain ⟨s', hs', h'⟩ := ih h₁
    refine ⟨s', ?_, h'⟩
    rw [MemStorage.writes, List.foldlM_cons, hs₁]
    exact hs'

/-- The bytes of a store as a sum over its keys. -/
theorem dataSize_eq_sum (s : MemStorage) (uuid : Bytes) :
    s.dataSize uuid = ∑ k ∈ (s.getKeys uuid).toFinset, (k.length + ((s.read uuid k).getD []).length) := by
  rw [dataSize, Map.total_eq_sum fun k hk => List.mem_toFinset.mpr (mem_getKeys.mpr hk)]
  refine Finset.sum_congr rfl fun k hk => ?_
  obtain ⟨value, hvalue⟩ := Option.isSome_iff_exists.mp (mem_getKeys.mp (List.mem_toFinset.mp hk))
  have hweight := entrySize_eq s uuid k
  rw [hvalue] at hweight
  rw [hvalue]
  exact hweight

/-- After every sequence of calls the size returned has the number of keys, and it
has the number of bytes just where the counter can hold it. -/
theorem getSize_exact_iff (calls : List StorageWrite) :
    ∃ s, (default : MemStorage).writes calls = .ok s ∧ ∀ uuid, ∃ keys : Finset Bytes,
      (∀ k, k ∈ keys ↔ (s.read uuid k).isSome) ∧ (s.getSize uuid).1 = keys.card ∧
      ((s.getSize uuid).2.toNat = ∑ k ∈ keys, (k.length + ((s.read uuid k).getD []).length) ↔
        ∑ k ∈ keys, (k.length + ((s.read uuid k).getD []).length) < 2 ^ 32) := by
  obtain ⟨s, hs, hcounted⟩ := counted_default.writes calls
  refine ⟨s, hs, fun uuid => ⟨(s.getKeys uuid).toFinset, fun k => ?_, ?_, ?_⟩⟩
  · rw [List.mem_toFinset, mem_getKeys]
  · exact (List.toFinset_card_of_nodup (Map.keys_nodup _)).symm
  · rw [← dataSize_eq_sum, toNat_getSize hcounted]
    omega

/-! ## A store beyond its counter -/

/-- The creation of a key with a value of the greatest size. -/
def createLarge (i : Nat) : StorageWrite := .create (ascii "db") (paddedDecimal 5 i) (List.replicate 256000 0)

/-- Each key adds its bytes, and the keys after it are still free. -/
theorem writes_createLarge {n : Nat} (hn : n ≤ 10 ^ 5) :
    ∃ s, (default : MemStorage).writes ((List.range n).map createLarge) = .ok s ∧ s.Counted ∧
      s.dataSize (ascii "db") = n * 256005 ∧
      ∀ i, n ≤ i → i < 10 ^ 5 → s.read (ascii "db") (paddedDecimal 5 i) = none := by
  induction n with
  | zero =>
    refine ⟨default, rfl, counted_default, ?_, fun i _ _ => read_default _ _⟩
    rw [Nat.zero_mul, dataSize_eq_sum]
    refine Finset.sum_eq_zero fun k hk => ?_
    have hread := mem_getKeys.mp (List.mem_toFinset.mp hk)
    rw [read_default] at hread
    cases hread
  | succ n ih =>
    obtain ⟨s, hs, hcounted, hsize, hfree⟩ := ih (by omega)
    have hok : (s.create (ascii "db") (paddedDecimal 5 n) (List.replicate 256000 0)).1 = .ok := by
      rw [create_result_iff, List.length_replicate, length_paddedDecimal]
      exact ⟨by decide, by decide, hfree n (Nat.le_refl n) (by omega)⟩
    refine ⟨(s.create (ascii "db") (paddedDecimal 5 n) (List.replicate 256000 0)).2, ?_, hcounted.create hok, ?_, ?_⟩
    · rw [List.range_succ, List.map_append, List.map_singleton, writes, List.foldlM_append]
      rw [writes] at hs
      rw [hs]
      rfl
    · rw [dataSize_create hok, hsize, List.length_replicate, length_paddedDecimal]
      omega
    · intro i hi hlt
      have hne : paddedDecimal 5 n ≠ paddedDecimal 5 i := fun h => by
        have := paddedDecimal_injective (by omega) hlt h
        omega
      rw [read_create hok, if_neg fun h => hne h.2]
      exact hfree i (by omega) hlt

theorem getSize_wraps :
    ∃ s, (default : MemStorage).writes ((List.range 17000).map createLarge) = .ok s ∧
      s.dataSize (ascii "db") = 4352085000 ∧ (s.getSize (ascii "db")).2 = 57117704 := by
  obtain ⟨s, hs, hcounted, hsize, -⟩ := writes_createLarge (n := 17000) (by decide)
  refine ⟨s, hs, hsize, UInt64.toNat_inj.mp ?_⟩
  rw [toNat_getSize hcounted, hsize]
  rfl

end MemStorage

end SwarmDb
