import Mathlib

/-!
# Ordered maps

Ordered maps with the operations of `std::map`, as `Std.ExtTreeMap` has them:
two maps are equal when they hold the same entries. The lemmas below are those
of the library at a key type whose order decides equality (`LawfulEqOrd`), so
that a lookup compares keys by `=`.
-/

set_option linter.unusedSectionVars false

namespace SwarmDb.Lib

/-- A map ordered by its keys. -/
abbrev Map (κ ν : Type) [Ord κ] := Std.ExtTreeMap κ ν compare

namespace Map

variable {κ ν : Type} [Ord κ] [Std.TransOrd κ]

@[simp] theorem lookup_empty (a : κ) : (∅ : Map κ ν)[a]? = none := Std.ExtTreeMap.getElem?_empty

theorem keys_pairwise (m : Map κ ν) : (m.toList.map Prod.fst).Pairwise fun a b => compare a b = .lt := by
  rw [List.pairwise_map]
  exact Std.ExtTreeMap.ordered_keys_toList

theorem ordered_toList (m : Map κ ν) : m.toList.Pairwise fun a b => compare a.1 b.1 = .lt :=
  Std.ExtTreeMap.ordered_keys_toList

theorem keys_nodup (m : Map κ ν) : (m.toList.map Prod.fst).Nodup := by
  refine (keys_pairwise m).imp fun {a b} h => ?_
  rintro rfl
  have := (inferInstance : Std.ReflOrd κ).compare_self (a := a)
  rw [h] at this
  cases this

theorem nodup_toList (m : Map κ ν) : m.toList.Nodup := (keys_nodup m).of_map Prod.fst

variable [Std.LawfulEqOrd κ] {m : Map κ ν}

theorem ext_lookup {m' : Map κ ν} (h : ∀ k : κ, m[k]? = m'[k]?) : m = m' := Std.ExtTreeMap.ext_getElem? h

variable {k : κ} {ν' : Type} {m' : Map κ ν'} {l : List (κ × ν)} {f : ν → κ}

theorem mem_toList_iff {v : ν} : (k, v) ∈ m.toList ↔ m[k]? = some v :=
  Std.ExtTreeMap.mem_toList_iff_getElem?_eq_some

theorem lookup_filter (m : Map κ ν) (p : κ → ν → Bool) (k : κ) : (m.filter p)[k]? = (m[k]?).filter (p k) :=
  Std.ExtTreeMap.getElem?_filter'

theorem mem_keys_iff : k ∈ m.toList.map Prod.fst ↔ (m[k]?).isSome := by
  simp only [List.mem_map, Prod.exists, exists_and_right, exists_eq_right, mem_toList_iff, Option.isSome_iff_exists]

theorem lookup_filterMap (m : Map κ ν) (f : κ → ν → Option ν') (k : κ) : (m.filterMap f)[k]? = (m[k]?).bind (f k) :=
  Std.ExtTreeMap.getElem?_filterMap'

/-- A map that is not empty. -/
def nonempty? (m : Map κ ν) : Option (Map κ ν) := if m.isEmpty then none else some m

/-- The list of the keys depends only on which keys there are. -/
theorem keys_eq (h : ∀ k : κ, (m[k]?).isSome = (m'[k]?).isSome) : m.toList.map Prod.fst = m'.toList.map Prod.fst := by
  refine List.Perm.eq_of_pairwise ?_ (keys_pairwise m) (keys_pairwise m') ?_
  · intro a b _ _ hab hba
    have := (inferInstance : Std.OrientedOrd κ).eq_swap (a := a) (b := b)
    rw [hba, hab] at this
    cases this
  · rw [List.perm_ext_iff_of_nodup (keys_nodup m) (keys_nodup m')]
    intro k
    rw [mem_keys_iff, mem_keys_iff, h]

/-- Two maps whose entries correspond have values that do. -/
theorem forall₂_values {R : ν → ν' → Prop} (h : ∀ k : κ, Option.Rel R m[k]? m'[k]?) :
    List.Forall₂ R (m.toList.map Prod.snd) (m'.toList.map Prod.snd) := by
  have hkeys : m.toList.map Prod.fst = m'.toList.map Prod.fst := by
    refine keys_eq fun k => ?_
    have hk := h k
    generalize m[k]? = o at hk
    generalize m'[k]? = o' at hk
    cases hk with
    | some | none => rfl
  have hlength : m.toList.length = m'.toList.length := by simpa using congrArg List.length hkeys
  rw [List.forall₂_map_left_iff, List.forall₂_map_right_iff, List.forall₂_iff_get]
  refine ⟨hlength, fun i hi hi' => ?_⟩
  have hkey : (m.toList.get ⟨i, hi⟩).1 = (m'.toList.get ⟨i, hi'⟩).1 := by
    have hget := List.getElem_of_eq hkeys (i := i) (by rw [List.length_map]; exact hi)
    rw [List.getElem_map, List.getElem_map] at hget
    exact hget
  have hk := h (m.toList.get ⟨i, hi⟩).1
  rw [mem_toList_iff.mp (List.get_mem m.toList ⟨i, hi⟩), hkey,
    mem_toList_iff.mp (List.get_mem m'.toList ⟨i, hi'⟩)] at hk
  cases hk with
  | some hR => exact hR

/-- The entries of a map are those of any ordered list of them. -/
theorem toList_eq_of_ordered (hl : l.Pairwise fun a b => compare a.1 b.1 = .lt)
    (h : ∀ k v, (k, v) ∈ l ↔ m[k]? = some v) : m.toList = l := by
  have hnodup : l.Nodup := hl.imp fun {a b} hab => by
    rintro rfl
    rw [Std.ReflOrd.compare_self] at hab
    cases hab
  refine List.Perm.eq_of_pairwise ?_ m.ordered_toList hl ?_
  · intro a b _ _ hab hba
    have := (inferInstance : Std.OrientedOrd κ).eq_swap (a := a.1) (b := b.1)
    rw [hba, hab] at this
    cases this
  · rw [List.perm_ext_iff_of_nodup m.nodup_toList hnodup]
    rintro ⟨k, v⟩
    rw [mem_toList_iff, h]

theorem toList_filter (m : Map κ ν) (p : κ → Bool) :
    (m.filter fun k _ => p k).toList = m.toList.filter fun e => p e.1 := by
  refine toList_eq_of_ordered (m.ordered_toList.filter _) fun k v => ?_
  rw [lookup_filter, List.mem_filter, mem_toList_iff, Option.filter_eq_some_iff]

variable [DecidableEq κ]

/-- The entry of a key among all entries. -/
theorem filter_key_toList (m : Map κ ν) (k : κ) :
    (m.toList.filter fun e => decide (e.1 = k)) = (m[k]?).toList.map fun v => (k, v) := by
  rw [← toList_filter m fun a => decide (a = k)]
  refine toList_eq_of_ordered ?_ fun a v => ?_
  · cases m[k]? with
    | none => exact .nil
    | some => exact List.pairwise_singleton _ _
  · rw [lookup_filter, List.mem_map, Option.filter_eq_some_iff]
    constructor
    · rintro ⟨w, hw, heq⟩
      cases heq
      exact ⟨Option.mem_toList.mp hw, decide_eq_true rfl⟩
    · rintro ⟨hm, hk⟩
      cases of_decide_eq_true hk
      exact ⟨v, Option.mem_toList.mpr hm, rfl⟩

theorem lookup_insert (m : Map κ ν) (k a : κ) (v : ν) : (m.insert k v)[a]? = if k = a then some v else m[a]? := by
  rw [Std.ExtTreeMap.getElem?_insert]
  simp only [Std.LawfulEqCmp.compare_eq_iff_eq]

/-- Putting the entry that is there. -/
theorem insert_self {v : ν} (h : m[k]? = some v) : m.insert k v = m := by
  refine ext_lookup fun a => ?_
  rw [lookup_insert]
  split
  · rename_i hk
    rw [← hk, h]
  · rfl

theorem lookup_erase (m : Map κ ν) (k a : κ) : (m.erase k)[a]? = if k = a then none else m[a]? := by
  rw [Std.ExtTreeMap.getElem?_erase]
  simp only [Std.LawfulEqCmp.compare_eq_iff_eq]

/-! ## Maps from lists -/

theorem lookup_insertIfNew (m : Map κ ν) (k a : κ) (v : ν) :
    (m.insertIfNew k v)[a]? = (m[a]?).or (if k = a then some v else none) := by
  rw [Std.ExtTreeMap.getElem?_insertIfNew]
  simp only [Std.LawfulEqCmp.compare_eq_iff_eq]
  by_cases hk : k = a
  · subst hk
    cases hm : m[k]? with
    | none | some => simp [Std.ExtTreeMap.mem_iff_isSome_getElem?, hm]
  · simp [hk]

/-- Of the entries of a list with the same key, the first one stays. -/
theorem lookup_foldl_insertIfNew (l : List (κ × ν)) (m : Map κ ν) (a : κ) :
    (l.foldl (fun m e => m.insertIfNew e.1 e.2) m)[a]? = (m[a]?).or ((l.find? fun e => e.1 = a).map Prod.snd) := by
  induction l generalizing m with
  | nil => simp
  | cons e _ ih =>
    rw [List.foldl_cons, ih, lookup_insertIfNew, List.find?_cons]
    by_cases he : e.1 = a
    · simp [he]
    · simp [he]

omit [Ord κ] [Std.TransOrd κ] [Std.LawfulEqOrd κ] in
/-- Looking up the first entry of a list that has one value for each key. -/
theorem find_eq_some_iff (hl : ∀ a v v', (a, v) ∈ l → (a, v') ∈ l → v = v') (a : κ) (v : ν) :
    (l.find? fun e => e.1 = a).map Prod.snd = some v ↔ (a, v) ∈ l := by
  constructor
  · intro h
    obtain ⟨⟨a', v'⟩, he, rfl⟩ := Option.map_eq_some_iff.mp h
    have ha : a' = a := by simpa using List.find?_some he
    exact ha ▸ List.mem_of_find?_eq_some he
  · intro h
    cases he : l.find? fun e => e.1 = a with
    | none => exact absurd (List.find?_eq_none.mp he (a, v) h) (by simp)
    | some e =>
      have ha : e.1 = a := by simpa using List.find?_some he
      have hm : (a, e.2) ∈ l := ha ▸ List.mem_of_find?_eq_some he
      rw [Option.map_some, hl a e.2 v hm h]

/-- A map from the list of its entries. -/
theorem foldl_toList (m : Map κ ν) : m.toList.foldl (fun m e => m.insertIfNew e.1 e.2) ∅ = m := by
  refine ext_lookup fun a => ?_
  rw [lookup_foldl_insertIfNew, lookup_empty, Option.none_or]
  ext v
  rw [find_eq_some_iff, mem_toList_iff]
  intro b w w' hw hw'
  rw [mem_toList_iff] at hw hw'
  exact Option.some.inj (hw.symm.trans hw')

/-- Of a list with different keys, a map by key has each entry. -/
theorem lookup_foldl_insert_key {l : List ν} (h : (l.map f).Nodup) (m : Map κ ν) (a : κ) :
    (l.foldl (fun m x => m.insert (f x) x) m)[a]? = (l.find? fun x => f x = a).or m[a]? := by
  induction l generalizing m with
  | nil => simp
  | cons x l ih =>
    rw [List.map_cons, List.nodup_cons] at h
    rw [List.foldl_cons, ih h.2, lookup_insert, List.find?_cons]
    by_cases hx : f x = a
    · have hnone : l.find? (fun x => f x = a) = none := by
        rw [List.find?_eq_none]
        intro y hy hya
        exact h.1 (List.mem_map.mpr ⟨y, hy, by rw [hx]; simpa using hya⟩)
      simp [hx, hnone]
    · simp [hx]

theorem mem_values_foldl_insert_key {l : List ν} (h : (l.map f).Nodup) (x : ν) :
    x ∈ ((l.foldl (fun m x => m.insert (f x) x) (∅ : Map κ ν)).toList.map Prod.snd) ↔ x ∈ l := by
  have hmem : x ∈ ((l.foldl (fun m x => m.insert (f x) x) (∅ : Map κ ν)).toList.map Prod.snd) ↔
      ∃ a, l.find? (fun x => f x = a) = some x := by
    rw [List.mem_map]
    constructor
    · rintro ⟨⟨a, y⟩, hy, rfl⟩
      rw [mem_toList_iff, lookup_foldl_insert_key h, lookup_empty, Option.or_none] at hy
      exact ⟨a, hy⟩
    · rintro ⟨a, ha⟩
      refine ⟨(a, x), mem_toList_iff.mpr ?_, rfl⟩
      rw [lookup_foldl_insert_key h, lookup_empty, Option.or_none, ha]
  rw [hmem]
  constructor
  · rintro ⟨a, ha⟩
    exact List.mem_of_find?_eq_some ha
  · intro hx
    obtain ⟨y, hy⟩ := Option.isSome_iff_exists.mp (List.find?_isSome.mpr
      ⟨x, hx, by simp⟩ : (l.find? fun y => f y = f x).isSome)
    have hyx : f y = f x := by simpa using List.find?_some hy
    exact ⟨f x, List.inj_on_of_nodup_map h (List.mem_of_find?_eq_some hy) hx hyx ▸ hy⟩

/-- A map whose keys are made from the values comes back from its values. -/
theorem foldl_insert_key_values (h : ∀ (k : κ) (v : ν), m[k]? = some v → f v = k) :
    (m.toList.map Prod.snd).foldl (fun m x => m.insert (f x) x) ∅ = m := by
  have hkeys : (m.toList.map Prod.snd).map f = m.toList.map Prod.fst := by
    rw [List.map_map]
    exact List.map_congr_left fun e he => h e.1 e.2 (mem_toList_iff.mp he)
  have hnodup : ((m.toList.map Prod.snd).map f).Nodup := hkeys ▸ keys_nodup m
  refine ext_lookup fun k => ?_
  rw [lookup_foldl_insert_key hnodup, lookup_empty, Option.or_none]
  cases hk : m[k]? with
  | none =>
    rw [List.find?_eq_none]
    intro v hv hf
    obtain ⟨⟨k', v⟩, hmem, rfl⟩ := List.mem_map.mp hv
    have hlookup := mem_toList_iff.mp hmem
    rw [← h k' v hlookup, of_decide_eq_true hf, hk] at hlookup
    cases hlookup
  | some v =>
    have hmem : v ∈ m.toList.map Prod.snd := List.mem_map.mpr ⟨(k, v), mem_toList_iff.mpr hk, rfl⟩
    have hvk := h k v hk
    cases hfind : (m.toList.map Prod.snd).find? fun x => decide (f x = k) with
    | none => exact absurd (decide_eq_true hvk) (List.find?_eq_none.mp hfind v hmem)
    | some w =>
      have hwk : f w = k := by simpa using List.find?_some hfind
      rw [List.inj_on_of_nodup_map hnodup (List.mem_of_find?_eq_some hfind) hmem (hwk.trans hvk.symm)]

/-! ## Maps of maps -/

section Nested

variable {κ' : Type} [Ord κ'] [Std.TransOrd κ'] [Std.LawfulEqOrd κ'] [DecidableEq κ'] {m : Map κ' (Map κ ν)}

/-- The entry of an inner map. -/
def lookup2 (m : Map κ' (Map κ ν)) (b : κ') (a : κ) : Option ν := (m[b]?).bind fun i => i[a]?

/-- No inner map is empty. -/
def NoEmpty (m : Map κ' (Map κ ν)) : Prop := ∀ (b : κ') (i : Map κ ν), m[b]? = some i → ∃ a : κ, (i[a]?).isSome

/-- Putting an entry into an inner map, which is made where there is none. -/
def insert2 (m : Map κ' (Map κ ν)) (b : κ') (a : κ) (v : ν) : Map κ' (Map κ ν) :=
  m.insert b ((m.getD b ∅).insert a v)

theorem ext_lookup2 {m' : Map κ' (Map κ ν)} (hm : NoEmpty m) (hm' : NoEmpty m')
    (h : ∀ b a, lookup2 m b a = lookup2 m' b a) : m = m' := by
  have hnone : ∀ {m m' : Map κ' (Map κ ν)}, NoEmpty m → (∀ b a, lookup2 m b a = lookup2 m' b a) →
      ∀ b : κ', m'[b]? = none → m[b]? = none := by
    intro m m' hm h b hb
    by_contra hne
    obtain ⟨i, hi⟩ := Option.ne_none_iff_exists'.mp hne
    obtain ⟨a, ha⟩ := hm b i hi
    have := h b a
    simp only [lookup2, hi, hb, Option.bind_some, Option.bind_none] at this
    rw [this] at ha
    cases ha
  refine ext_lookup fun b => ?_
  cases hb : m'[b]? with
  | none => exact hnone hm h b hb
  | some =>
    cases hb' : m[b]? with
    | none => rw [hnone hm' (fun b a => (h b a).symm) b hb'] at hb; cases hb
    | some =>
      refine congrArg some (ext_lookup fun a => ?_)
      have := h b a
      simpa only [lookup2, hb, hb', Option.bind_some] using this

theorem getD_lookup (m : Map κ' (Map κ ν)) (b : κ') : m.getD b ∅ = (m[b]?).getD ∅ :=
  Std.ExtTreeMap.getD_eq_getD_getElem?

theorem lookup_getD (m : Map κ' (Map κ ν)) (b : κ') (a : κ) : (m.getD b ∅)[a]? = lookup2 m b a := by
  rw [getD_lookup, lookup2]
  cases m[b]? <;> simp

variable {b : κ'} {a : κ}

theorem lookup2_isSome_iff : (lookup2 m b a).isSome ↔ ∃ (i : Map κ ν) (v : ν), m[b]? = some i ∧ i[a]? = some v := by
  simp only [lookup2, Option.isSome_iff_exists, Option.bind_eq_some_iff]
  exact exists_comm

theorem lookup2_filter (m : Map κ' (Map κ ν)) (p : κ' → Bool) (b : κ') (a : κ) :
    lookup2 (m.filter fun b _ => p b) b a = if p b then lookup2 m b a else none := by
  rw [lookup2, lookup_filter, lookup2]
  cases hb : m[b]? with
  | none => simp
  | some => by_cases hp : p b <;> simp [Option.filter, hp]

theorem lookup2_insert2 (m : Map κ' (Map κ ν)) (b b' : κ') (a a' : κ) (v : ν) :
    lookup2 (insert2 m b a v) b' a' = if b = b' ∧ a = a' then some v else lookup2 m b' a' := by
  rw [lookup2, insert2, lookup_insert]
  by_cases hb : b = b'
  · subst hb
    simp only [if_true, Option.bind_some, lookup_insert, lookup_getD, true_and]
  · simp [hb, lookup2]

theorem insert2_self {v : ν} (h : lookup2 m b a = some v) : insert2 m b a v = m := by
  obtain ⟨i, hi, ha⟩ := Option.bind_eq_some_iff.mp h
  rw [insert2, getD_lookup, hi, Option.getD_some, insert_self ha, insert_self hi]

/-- Inner maps that are dropped because they are empty held no entry. -/
theorem bind_nonempty? (i : Map κ' (Map κ ν)) (b : κ')
    (a : κ) : ((nonempty? i).bind fun i => lookup2 i b a) = lookup2 i b a := by
  rw [nonempty?]
  split
  · rename_i h
    rw [Std.ExtTreeMap.isEmpty_iff.mp h, lookup2, lookup_empty]
    rfl
  · rfl

theorem lookup2_filterMap_nonempty? {ν' : Type} (m : Map κ' (Map κ ν)) (f : Map κ ν → Map κ ν') (b : κ') (a : κ) :
    lookup2 (m.filterMap fun _ i => nonempty? (f i)) b a = (m[b]?).bind fun i => (f i)[a]? := by
  rw [lookup2, lookup_filterMap]
  cases m[b]? with
  | none => rfl
  | some =>
    rw [Option.bind_some, Option.bind_some, nonempty?]
    split
    · rename_i h
      rw [Std.ExtTreeMap.isEmpty_iff.mp h, lookup_empty]
      rfl
    · rfl

/-- An empty inner map that is made on the way holds no entry. -/
theorem lookup2_insertIfNew (m : Map κ' (Map κ ν)) (b b' : κ') (a : κ) :
    lookup2 (m.insertIfNew b ∅) b' a = lookup2 m b' a := by
  rw [lookup2, lookup_insertIfNew, lookup2]
  cases m[b']? <;> by_cases hb : b = b' <;> simp [hb]

theorem insert2_insertIfNew (m : Map κ' (Map κ ν)) (b : κ') (a : κ) (v : ν) :
    insert2 (m.insertIfNew b ∅) b a v = insert2 m b a v := by
  refine ext_lookup fun b' => ?_
  rw [insert2, insert2, lookup_insert, lookup_insert]
  by_cases hb : b = b'
  · have hinner : (m.insertIfNew b ∅).getD b ∅ = m.getD b ∅ :=
      ext_lookup fun a' => by rw [lookup_getD, lookup_getD, lookup2_insertIfNew]
    rw [hinner, if_pos hb, if_pos hb]
  · simp [hb, lookup_insertIfNew]

theorem insert_getD_insertIfNew_of_none (h : lookup2 m b a = none) (v : ν) :
    m.insert b ((m.getD b ∅).insertIfNew a v) = insert2 m b a v := by
  have hinner : (m.getD b ∅).insertIfNew a v = (m.getD b ∅).insert a v := by
    refine ext_lookup fun a' => ?_
    rw [lookup_insertIfNew, lookup_insert, lookup_getD]
    by_cases ha : a = a'
    · subst ha; simp [h]
    · simp [ha]
  rw [insert2, hinner]

theorem insert_getD_insertIfNew_of_isSome (h : (lookup2 m b a).isSome) (v : ν) :
    m.insert b ((m.getD b ∅).insertIfNew a v) = m ∧ m.insertIfNew b ∅ = m := by
  obtain ⟨i, w, hi, hw⟩ := lookup2_isSome_iff.mp h
  have hinner : (m.getD b ∅).insertIfNew a v = i := by
    refine ext_lookup fun a' => ?_
    rw [lookup_insertIfNew, lookup_getD, lookup2, hi, Option.bind_some]
    by_cases ha : a = a'
    · subst ha; simp [hw]
    · simp [ha]
  refine ⟨ext_lookup fun b' => ?_, ext_lookup fun b' => ?_⟩
  · rw [hinner, lookup_insert]
    by_cases hb : b = b'
    · subst hb; simp [hi]
    · simp [hb]
  · rw [lookup_insertIfNew]
    by_cases hb : b = b'
    · subst hb; simp [hi]
    · simp [hb]

theorem noEmpty_insert2 (hm : NoEmpty m) (b : κ') (a : κ) (v : ν) :
    NoEmpty (insert2 m b a v) := by
  intro b' i hi
  rw [insert2, lookup_insert] at hi
  split at hi
  · cases hi
    exact ⟨a, by rw [lookup_insert, if_pos rfl]; rfl⟩
  · exact hm b' i hi

theorem noEmpty_empty : NoEmpty (∅ : Map κ' (Map κ ν)) := by
  intro b i hi
  simp at hi

/-- A list of entries of inner maps, of which the first with a key stays. -/
theorem foldl_insertIfNew2 (l : List ((κ × κ') × ν)) (m : Map κ' (Map κ ν)) :
    (∀ b a, lookup2 (l.foldl (fun m e => m.insert e.1.2 ((m.getD e.1.2 ∅).insertIfNew e.1.1 e.2)) m) b a =
      (lookup2 m b a).or ((l.find? fun e => e.1 = (a, b)).map Prod.snd)) ∧
    (NoEmpty m → NoEmpty (l.foldl (fun m e => m.insert e.1.2 ((m.getD e.1.2 ∅).insertIfNew e.1.1 e.2)) m)) := by
  induction l generalizing m with
  | nil => simp
  | cons e _ ih =>
    obtain ⟨⟨a', b'⟩, v⟩ := e
    obtain ⟨hl, hn⟩ := ih (m.insert b' ((m.getD b' ∅).insertIfNew a' v))
    refine ⟨fun b a => ?_, fun hm => hn fun b i hi => ?_⟩
    · rw [List.foldl_cons, hl, List.find?_cons, lookup2, lookup_insert]
      by_cases hb : b' = b
      · subst hb
        simp only [if_true, Option.bind_some, lookup_insertIfNew, lookup_getD]
        by_cases ha : a' = a
        · simp [ha]
        · simp [ha]
      · simp [hb, lookup2]
    · rw [lookup_insert] at hi
      split at hi
      · cases hi
        refine ⟨a', ?_⟩
        rw [lookup_insertIfNew, if_pos rfl]
        cases (m.getD b' ∅)[a']? <;> rfl
      · exact hm b i hi

end Nested

end Map

/-! ## Orders of record keys -/

/-- A lexicographic comparison decides equality where its parts together do. -/
theorem lawfulEqCmp_compareLex {κ : Type} (c₁ c₂ : κ → κ → Ordering) [Std.TransCmp (compareLex c₁ c₂)]
    (h : ∀ a b, c₁ a b = .eq → c₂ a b = .eq → a = b) : Std.LawfulEqCmp (compareLex c₁ c₂) where
  eq_of_compare {a b} hab := h a b (compareLex_eq_eq.mp hab).1 (compareLex_eq_eq.mp hab).2

end SwarmDb.Lib
