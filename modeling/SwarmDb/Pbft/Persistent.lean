import SwarmDb.Lib.Lists
import SwarmDb.Pbft.PersistentText

/-!
# Persistent values

`persistent<T>`: a value in memory together with its text in storage. The programs below are its constructor, its
assignment and its destruction, and the loading of a container. What they do to the storage is said by `Process.stored`:
`persistent_ok`, `assign_ok` and `destroy_ok` for the single values, `initializeContainer_ok` for the entries that
loading a container yields, and `initializeContainer_of_canonical` for when it succeeds.
-/

namespace SwarmDb

open Lib Program

/-- `STATE_UUID` -/
def stateUuid : Bytes := ascii "pbftstate"

/-- The value stored under a key. -/
def Process.stored (p : Process) (key : Bytes) : Option Bytes := p.storage.read stateUuid key

variable {α κ : Type} {name : Bytes} {ks : List Bytes} {p : Process} {c : Conversion α}

/-- The constructor of a persistent value: its value from storage where it has
one, else the default value, which is put there. -/
def persistent (c : Conversion α) (defaultValue : α) (name : Bytes) (subkeys : List Bytes) :
    Program Fault Process α := do
  let p ← read
  if subkeys ≠ [] ∧ name ∉ p.initializedContainers then
    raise "Use of uninitialized collection of persistent values"
  else
    match p.stored (persistentKey name subkeys) with
    | some val => lift (c.fromString val)
    | none =>
      let r := p.storage.create stateUuid (persistentKey name subkeys) (c.toString defaultValue)
      if r.1 = .ok then do
        act fun p => { p with storage := r.2 }
        pure defaultValue
      else raise "Error initializing value in storage"

/-- The assignment to a persistent value, as far as storage goes. -/
def assign (c : Conversion α) (value : α) (name : Bytes) (subkeys : List Bytes) : Program Fault Process Unit := do
  let p ← read
  let r := p.storage.update stateUuid (persistentKey name subkeys) (c.toString value)
  if r.1 = .ok then act fun p => { p with storage := r.2 } else raise "Error storing persistent value"

/-- `destroy` -/
def destroy (name : Bytes) (subkeys : List Bytes) : Program Fault Process Unit := do
  let p ← read
  act fun q => { q with storage := (p.storage.remove stateUuid (persistentKey name subkeys)).2 }

/-- `initialize`: the entries of a container in storage, in the order of their
keys. `decode` reads the sub-keys of a storage key, and `encode` is what the
constructor makes of them again. -/
def initializeContainer [Inhabited α] (c : Conversion α) (name : Bytes) (decode : Bytes → Except Fault κ)
    (encode : κ → List Bytes) : Program Fault Process (List (κ × α)) := do
  update fun p => { p with initializedContainers := name :: p.initializedContainers }
  let p ← read
  collect (p.storage.getKeysIf stateUuid (escape name ++ separator) (escape name ++ separatorEnd) none) fun key => do
    let k ← lift (decode (subkeyText name key))
    let t ← persistent c default name (encode k)
    pure (k, t)

/-- The sub-key of a container with one of them. -/
def decodeSubkey (k : Conversion κ) (text : Bytes) : Except Fault κ := do
  k.fromString (← unescape text)

/-- The sub-keys of a container with two of them. -/
def decodeSubkeys {κ' : Type} (k : Conversion κ) (k' : Conversion κ') (text : Bytes) : Except Fault (κ × κ') :=
  match extractSubkeys text with
  | none => .error (.exception "assertion failed")
  | some (v0, v1) => do
    let a ← k.fromString (← unescape v0)
    let b ← k'.fromString (← unescape v1)
    pure (a, b)

/-- `init_kv_container`: the first of two entries with the same key stays. -/
def initKvContainer [Inhabited α] [Ord κ] [Std.TransOrd κ] (c : Conversion α) (k : Conversion κ) (name : Bytes) :
    Program Fault Process (Map κ α) := do
  let l ← initializeContainer c name (decodeSubkey k) fun a => [k.toString a]
  pure (l.foldl (fun m e => m.insertIfNew e.1 e.2) ∅)

/-- `init_kv_container2`: the second sub-key is that of the outer map. -/
def initKvContainer2 {κ' : Type} [Inhabited α] [Ord κ] [Std.TransOrd κ] [Ord κ'] [Std.TransOrd κ']
    (c : Conversion α) (k : Conversion κ) (k' : Conversion κ') (name : Bytes) :
      Program Fault Process (Map κ' (Map κ α)) := do
  let l ← initializeContainer c name (decodeSubkeys k k') fun a => [k.toString a.1, k'.toString a.2]
  pure (l.foldl (fun m e => m.insert e.1.2 ((m.getD e.1.2 ∅).insertIfNew e.1.1 e.2)) ∅)

/-! ## Single values -/

/-- `p'` is `p` after a write of `o` under `key` (`none`: a removal). -/
structure Process.Writes (p p' : Process) (key : Bytes) (o : Option Bytes) : Prop where
  stored : p'.stored = Function.update p.stored key o
  log : p'.log = p.log
  initializedContainers : p'.initializedContainers = p.initializedContainers

variable {d a value : α} {e : Fault}

theorem persistent_ok (h : (persistent c d name ks).result p = .ok a) :
    (ks ≠ [] → name ∈ p.initializedContainers) ∧
    ((∃ val, p.stored (persistentKey name ks) = some val ∧ c.fromString val = .ok a ∧
        (persistent c d name ks).final p = p) ∨
      (p.stored (persistentKey name ks) = none ∧ a = d ∧
        p.Writes ((persistent c d name ks).final p) (persistentKey name ks) (some (c.toString d)))) := by
  simp only [persistent, result_read_bind, final_read_bind] at h ⊢
  split at h
  · cases h
  · rename_i hinit
    rw [if_neg hinit]
    refine ⟨fun hk => by by_contra hn; exact hinit ⟨hk, hn⟩, ?_⟩
    cases hs : p.stored (persistentKey name ks) with
    | some val =>
      rw [hs] at h
      exact .inl ⟨val, rfl, h, rfl⟩
    | none =>
      rw [hs] at h
      simp only at h ⊢
      split at h
      · rename_i hc
        obtain ⟨u, hu, ha⟩ := result_bind_eq_ok h
        obtain ⟨l, hl⟩ := act_ok hu
        cases ha
        refine .inr ⟨trivial, rfl, ?_⟩
        rw [if_pos hc, final_bind_ok hu, final_pure, hl]
        refine ⟨?_, rfl, rfl⟩
        funext key
        simp only [Process.stored, MemStorage.read_create hc, Function.update_apply, true_and, eq_comm]
      · cases h

theorem persistent_error (h : (persistent c d name ks).result p = .error e) : (persistent c d name ks).final p = p := by
  simp only [persistent, result_read_bind, final_read_bind] at h ⊢
  split
  · rfl
  · rename_i hinit
    rw [if_neg hinit] at h
    cases hs : p.stored (persistentKey name ks) with
    | some => rfl
    | none =>
      rw [hs] at h
      simp only at h ⊢
      split
      · rename_i hc
        rw [if_pos hc] at h
        cases hu : (act fun p' => { p' with storage := (p.storage.create stateUuid (persistentKey name ks)
          (c.toString d)).2 }).result p with
        | ok u => rw [result_bind_ok hu] at h; cases h
        | error e' => rw [final_bind_error hu, act_error hu]
      · rfl

theorem assign_ok (h : (assign c value name ks).result p = .ok ()) :
    p.Writes ((assign c value name ks).final p) (persistentKey name ks) (some (c.toString value)) := by
  simp only [assign, result_read_bind, final_read_bind] at h ⊢
  split at h
  · rename_i hc
    obtain ⟨l, hl⟩ := act_ok h
    rw [if_pos hc, hl]
    refine ⟨?_, rfl, rfl⟩
    funext key
    simp only [Process.stored, MemStorage.read_update hc, Function.update_apply, true_and, eq_comm]
  · cases h

theorem assign_error (h : (assign c value name ks).result p = .error e) : (assign c value name ks).final p = p := by
  simp only [assign, result_read_bind, final_read_bind] at h ⊢
  split at h
  · rename_i hc
    rw [if_pos hc, act_error h]
  · rename_i hc
    rw [if_neg hc]
    rfl

theorem runFrom_assign (c : Conversion α) (value : α)
    (hlife : p.lifetime = none)
    (hupdate : (p.storage.update stateUuid (persistentKey name ks) (c.toString value)).1 = .ok) :
    (assign c value name ks).runFrom p =
      (.ok (), { p with storage := (p.storage.update stateUuid (persistentKey name ks) (c.toString value)).2 }) := by
  obtain ⟨storage, initializedContainers, log, lifetime⟩ := p
  subst hlife
  rw [assign, runFrom_bind, runFrom_read]
  dsimp only
  rw [if_pos hupdate]
  rfl

theorem runFrom_destroy (name : Bytes) (ks : List Bytes) (hlife : p.lifetime = none) :
    (destroy name ks).runFrom p =
      (.ok (), { p with storage := (p.storage.remove stateUuid (persistentKey name ks)).2 }) := by
  obtain ⟨storage, initializedContainers, log, lifetime⟩ := p
  subst hlife
  rfl

theorem destroy_ok (h : (destroy name ks).result p = .ok ()) :
    p.Writes ((destroy name ks).final p) (persistentKey name ks) none := by
  simp only [destroy, final_read_bind] at h ⊢
  obtain ⟨l, hl⟩ := act_ok h
  rw [hl]
  refine ⟨?_, rfl, rfl⟩
  funext key
  simp only [Process.stored, MemStorage.read_remove, Function.update_apply, true_and, eq_comm]

theorem destroy_error (h : (destroy name ks).result p = .error e) : (destroy name ks).final p = p := by
  exact act_error h

/-! ## Containers -/

/-- The keys that `initialize` scans. -/
def containerKeys (p : Process) (name : Bytes) : List Bytes :=
  p.storage.getKeysIf stateUuid (escape name ++ separator) (escape name ++ separatorEnd) none

theorem mem_containerKeys {key : Bytes} :
    key ∈ containerKeys p name ↔ (p.stored key).isSome ∧ escape name ++ separator <+: key := by
  rw [containerKeys, MemStorage.mem_getKeysIf (by simp [separatorEnd]) (separator_lt_separatorEnd name), range_iff]
  rfl

/-- What the constructor finds for sub-keys `ks` while a container is loaded
from the storage of `p`: the stored value, or the default one. -/
def ReadBack (p : Process) (c : Conversion α) (d : α) (name : Bytes) (ks : List Bytes) (t : α) : Prop :=
  match p.stored (persistentKey name ks) with
  | some val => c.fromString val = .ok t
  | none => t = d ∨ c.fromString (c.toString d) = .ok t

/-- `q` is `p`, perhaps with default values under keys that were free. -/
def Process.Filled (c : Conversion α) (d : α) (p q : Process) : Prop :=
  q.log = p.log ∧ ∀ key, q.stored key = p.stored key ∨ (p.stored key = none ∧ q.stored key = some (c.toString d))

/-- One entry of a container that is being loaded. -/
theorem persistent_readBack {t : α} {q : Process} (hq : Process.Filled c d p q)
    (h : (persistent c d name ks).result q = .ok t) :
    ReadBack p c d name ks t ∧ Process.Filled c d p ((persistent c d name ks).final q) := by
  obtain ⟨-, ⟨val, hs, ht, hf⟩ | ⟨hs, rfl, hw⟩⟩ := persistent_ok h
  · refine ⟨?_, by rwa [hf]⟩
    unfold ReadBack
    rcases hq.2 (persistentKey name ks) with hk | ⟨hn, hk⟩
    · rw [← hk, hs]; exact ht
    · rw [hn]
      rw [hs] at hk
      cases hk
      exact .inr ht
  · have hp : p.stored (persistentKey name ks) = none := by
      rcases hq.2 (persistentKey name ks) with hk | ⟨hn, -⟩
      · rw [← hk, hs]
      · exact hn
    refine ⟨by unfold ReadBack; rw [hp]; exact .inl rfl, hw.log.trans hq.1, fun key => ?_⟩
    rw [hw.stored]
    by_cases hk : key = persistentKey name ks
    · subst hk
      exact .inr ⟨hp, by simp⟩
    · simpa [hk] using hq.2 key

/-- An entry that is loaded from a stored key. -/
def LoadedFrom [Inhabited α] (p : Process) (c : Conversion α) (name : Bytes) (decode : Bytes → Except Fault κ)
    (encode : κ → List Bytes) (key : Bytes) (e : κ × α) : Prop :=
  decode (subkeyText name key) = .ok e.1 ∧ ReadBack p c default name (encode e.1) e.2

/-- The entries that loading a container yields: one for each stored key. -/
theorem initializeContainer_ok [Inhabited α] {decode : Bytes → Except Fault κ}
    {encode : κ → List Bytes} {l : List (κ × α)}
    (h : (initializeContainer c name decode encode).result p = .ok l) :
    (∀ key ∈ containerKeys p name, ∃ e ∈ l, LoadedFrom p c name decode encode key e) ∧
    ∀ e ∈ l, ∃ key ∈ containerKeys p name, LoadedFrom p c name decode encode key e := by
  have hall : List.Forall₂ (LoadedFrom p c name decode encode) (containerKeys p name) l := by
    have hfirst : Process.Filled c default p { p with initializedContainers := name :: p.initializedContainers } :=
      ⟨rfl, fun _ => .inl rfl⟩
    refine forall₂_of_collect (fun key q e hq he => ?_) hfirst h
    obtain ⟨k, hk, he⟩ := result_bind_eq_ok he
    obtain ⟨t, ht, he⟩ := result_bind_eq_ok he
    cases he
    obtain ⟨hback, hfilled⟩ := persistent_readBack hq ht
    refine ⟨⟨hk, hback⟩, ?_⟩
    rw [final_bind_ok hk, final_bind_ok ht]
    exact hfilled
  exact ⟨fun key hkey => exists_of_forall₂ (R := fun e key => LoadedFrom p c name decode encode key e) hall.flip hkey,
    fun e he => exists_of_forall₂ hall he⟩

/-- The constructor at a key that is stored only reads. -/
theorem runFrom_persistent_stored (c : Conversion α) (d : α)
    {text : Bytes} (hinit : name ∈ p.initializedContainers) (hstored : p.stored (persistentKey name ks) = some text) :
    (persistent c d name ks).runFrom p = (c.fromString text, p) := by
  rw [persistent, runFrom_bind, runFrom_read]
  dsimp only
  rw [if_neg fun h => h.2 hinit, hstored]
  rfl

theorem persistent_of_stored {val : Bytes} (hinit : name ∈ p.initializedContainers)
    (h : p.stored (persistentKey name ks) = some val) :
    (persistent c d name ks).result p = c.fromString val ∧ (persistent c d name ks).final p = p :=
  Prod.mk.inj (runFrom_persistent_stored c d hinit h)

/-- At a key that is not stored it writes. -/
theorem runFrom_persistent_new (c : Conversion α) (d : α)
    (hlife : p.lifetime = none) (hinit : name ∈ p.initializedContainers)
    (hstored : p.stored (persistentKey name ks) = none)
    (hcreate : (p.storage.create stateUuid (persistentKey name ks) (c.toString d)).1 = .ok) :
    (persistent c d name ks).runFrom p =
      (.ok d, { p with storage := (p.storage.create stateUuid (persistentKey name ks) (c.toString d)).2 }) := by
  obtain ⟨storage, initializedContainers, log, lifetime⟩ := p
  subst hlife
  rw [persistent, runFrom_bind, runFrom_read]
  dsimp only
  rw [if_neg fun h => h.2 hinit, hstored]
  rw [if_pos hcreate]
  rfl

section Canonical

variable [Inhabited α] {c : Conversion α} {name : Bytes} {decode : Bytes → Except Fault κ} {encode : κ → List Bytes}
  {p : Process}

/-- Where the constructor finds the key it was loaded from, loading changes
nothing, and it succeeds when every key and every value can be read. -/
theorem initializeContainer_of_canonical
    (hcan : ∀ key ∈ containerKeys p name, ∀ k, decode (subkeyText name key) = .ok k →
      persistentKey name (encode k) = key) :
    (initializeContainer c name decode encode).final p =
      { p with initializedContainers := name :: p.initializedContainers } ∧
    ((∀ key ∈ containerKeys p name, (∃ k, decode (subkeyText name key) = .ok k) ∧
        ∀ val, p.stored key = some val → ∃ t, c.fromString val = .ok t) →
      ∃ l, (initializeContainer c name decode encode).result p = .ok l) := by
  -- at any decoding of a key its value is read, and the state is left
  have hentry : ∀ key ∈ containerKeys p name, ∀ k, decode (subkeyText name key) = .ok k →
      ∃ val, p.stored key = some val ∧ (persistent c default name (encode k)).runFrom
        { p with initializedContainers := name :: p.initializedContainers } =
          (c.fromString val, { p with initializedContainers := name :: p.initializedContainers }) := by
    intro key hkey k hk
    obtain ⟨val, hval⟩ := Option.isSome_iff_exists.mp (mem_containerKeys.mp hkey).1
    refine ⟨val, hval, runFrom_persistent_stored c default List.mem_cons_self ?_⟩
    rw [hcan key hkey k hk]
    exact hval
  constructor
  · refine final_collect_eq_self fun key hkey => final_lift_bind_of (P := (· = _)) rfl fun k hk => ?_
    obtain ⟨val, -, hrun⟩ := hentry key hkey k hk
    exact final_bind_eq_self (congrArg Prod.snd hrun) fun _ => rfl
  · intro hread
    obtain ⟨l, q, hl, -⟩ : ∃ l q, (initializeContainer c name decode encode).runFrom p = (.ok l, q) ∧
        q = { p with initializedContainers := name :: p.initializedContainers } := by
      refine collect_returns (I := (· = _)) (fun key hkey q hq => ?_) rfl
      obtain ⟨⟨k, hk⟩, hvalues⟩ := hread key hkey
      obtain ⟨val, hval, hrun⟩ := hentry key hkey k hk
      obtain ⟨t, ht⟩ := hvalues val hval
      rw [ht] at hrun
      refine ⟨(k, t), q, ?_, hq⟩
      rw [hq, runFrom_bind_ok ((runFrom_lift _ _).trans (by rw [hk])), runFrom_bind_ok hrun]
      rfl
    exact ⟨l, congrArg Prod.fst hl⟩

end Canonical

/-- A value is what its text is read as. -/
abbrev Conversion.ReadsBack (k : Conversion κ) (a : κ) : Prop := k.fromString (k.toString a) = .ok a

/-- The conversion reads no text as another value than the one written. -/
def Conversion.Faithful (k : Conversion κ) : Prop := ∀ a b, k.fromString (k.toString a) = .ok b → b = a

namespace Conversion

theorem faithful_of_total {k : Conversion κ} (h : ∀ a, k.ReadsBack a) : k.Faithful := by
  intro a b hb
  rw [h] at hb
  cases hb
  rfl

theorem logKey_faithful : logKey.Faithful := by
  intro a b hb
  rw [logKey_fromString] at hb
  split at hb
  · cases hb; rfl
  · cases hb

theorem operationKey_faithful : operationKey.Faithful := by
  intro a b hb
  rw [operationKey_fromString] at hb
  split at hb
  · cases hb; rfl
  · cases hb

end Conversion

theorem decodeSubkey_persistentKey (k : Conversion κ) (name : Bytes) (a : κ) :
    decodeSubkey k (subkeyText name (persistentKey name [k.toString a])) = k.fromString (k.toString a) := by
  rw [subkeyText_persistentKey, decodeSubkey]
  simp only [generateKey, List.flatMap_nil, List.append_nil, unescape_escape]
  rfl

theorem decodeSubkeys_persistentKey {κ' : Type} (k : Conversion κ) (k' : Conversion κ') (name x y : Bytes) :
    decodeSubkeys k k' (subkeyText name (persistentKey name [x, y])) = (do
      let a ← k.fromString x
      let b ← k'.fromString y
      pure (a, b)) := by
  rw [subkeyText_persistentKey, generateKey_cons, decodeSubkeys, extractSubkeys_escape]
  simp only [generateKey, List.flatMap_nil, List.append_nil, unescape_escape]
  rfl

/-- Sub-keys are read back as they were, or not at all. -/
theorem decodeSubkey_faithful {k : Conversion κ} (hk : k.Faithful) {a b : κ}
    (h : decodeSubkey k (subkeyText name (persistentKey name [k.toString a])) = .ok b) : b = a := by
  rw [decodeSubkey_persistentKey] at h
  exact hk a b h

theorem decodeSubkeys_faithful {κ' : Type} {k : Conversion κ} {k' : Conversion κ'} (hk : k.Faithful) (hk' : k'.Faithful)
    {x y : κ × κ'}
    (h : decodeSubkeys k k' (subkeyText name (persistentKey name [k.toString x.1, k'.toString x.2])) = .ok y) :
    y = x := by
  rw [decodeSubkeys_persistentKey] at h
  obtain ⟨a, ha, h⟩ := except_bind_eq_ok.mp h
  obtain ⟨b, hb, h⟩ := except_bind_eq_ok.mp h
  cases h
  rw [hk x.1 a ha, hk' x.2 b hb]

/-! ## Values and containers that are in storage -/

/-- The storage holds a value. -/
def Stored (p : Process) (c : Conversion α) (name : Bytes) (a : α) : Prop :=
  p.stored (persistentKey name []) = some (c.toString a)

/-- The storage holds exactly the entries that `lookup` gives of a container. -/
structure Holds (p : Process) (c : Conversion α) (name : Bytes) (encode : κ → List Bytes) (lookup : κ → Option α) :
    Prop where
  stored : ∀ x, p.stored (persistentKey name (encode x)) = (lookup x).map c.toString
  keys : ∀ key ∈ containerKeys p name, ∃ x, key = persistentKey name (encode x)

/-- A container that is in storage and was loaded. -/
structure Container (p : Process) (c : Conversion α) (name : Bytes) (encode : κ → List Bytes) (lookup : κ → Option α) :
    Prop extends Holds p c name encode lookup where
  init : name ∈ p.initializedContainers

/-- `p'` is `p` after writes under some names only and some effects only. -/
structure Process.Frame (names : List Bytes) (E : Effect → Prop) (p p' : Process) : Prop where
  stored : ∀ key, (∀ name ∈ names, ∀ ks, key ≠ persistentKey name ks) → p'.stored key = p.stored key
  initializedContainers : p.initializedContainers ⊆ p'.initializedContainers
  log : ∃ l, p'.log = p.log ++ l ∧ ∀ e ∈ l, E e

namespace Process.Frame

variable {names : List Bytes} {E : Effect → Prop} {p p' p'' : Process}

theorem refl (p : Process) : p.Frame names E p := ⟨fun _ _ => rfl, List.Subset.refl _, [], by simp, by simp⟩

theorem trans (h : p.Frame names E p') (h' : p'.Frame names E p'') : p.Frame names E p'' := by
  obtain ⟨l, hl, he⟩ := h.log
  obtain ⟨l', hl', he'⟩ := h'.log
  refine ⟨fun key hk => (h'.stored key hk).trans (h.stored key hk),
    List.Subset.trans h.initializedContainers h'.initializedContainers, l ++ l', by rw [hl', hl, List.append_assoc], ?_⟩
  simp only [List.mem_append]
  rintro e (h | h)
  exacts [he e h, he' e h]

instance : Std.Refl (Process.Frame names E) := ⟨refl⟩

instance : IsTrans Process (Process.Frame names E) := ⟨fun _ _ _ => trans⟩

theorem mono {names' : List Bytes} {E' : Effect → Prop} (h : p.Frame names E p') (hn : names ⊆ names')
    (hE : ∀ e, E e → E' e) : p.Frame names' E' p' := by
  obtain ⟨l, hl, he⟩ := h.log
  exact ⟨fun key hk => h.stored key fun name hname => hk name (hn hname), h.initializedContainers, l, hl,
    fun e h => hE e (he e h)⟩

theorem stored_of_notMem (h : p.Frame names E p') (hname : name ∉ names) (ks : List Bytes) :
    p'.stored (persistentKey name ks) = p.stored (persistentKey name ks) := by
  refine h.stored _ fun name' hname' ks' he => hname ?_
  rw [(persistentKey_inj he).1]
  exact hname'

section

variable (hname : name ∈ names)
include hname

theorem of_writes {o : Option Bytes} (h : p.Writes p' (persistentKey name ks) o) : p.Frame names E p' :=
  ⟨fun key hk => by rw [h.stored, Function.update_of_ne (hk name hname ks)], h.initializedContainers ▸
    List.Subset.refl _,
    [], by rw [h.log, List.append_nil], by simp⟩

theorem persistent {d : α} : Within (Process.Frame names E) (persistent c d name ks) := by
  intro p
  cases h : (SwarmDb.persistent c d name ks).result p with
  | error => rw [persistent_error h]; exact refl p
  | ok =>
    obtain ⟨-, ⟨-, -, -, hf⟩ | ⟨-, -, hw⟩⟩ := persistent_ok h
    · rw [hf]; exact refl p
    · exact of_writes hname hw

theorem assign {value : α} : Within (Process.Frame names E) (assign c value name ks) := by
  intro p
  cases h : (SwarmDb.assign c value name ks).result p with
  | error => rw [assign_error h]; exact refl p
  | ok => exact of_writes hname (assign_ok h)

theorem initializeContainer [Inhabited α] {decode : Bytes → Except Fault κ} {encode : κ → List Bytes} :
    Within (Process.Frame names E) (initializeContainer c name decode encode) :=
  .bind (.update fun p => ⟨fun _ _ => rfl, List.subset_cons_self name _, [], by simp, by simp⟩) fun _ =>
    .bind .read fun _ => .collect (fun _ => .bind (.lift _) fun _ => .bind (persistent hname) fun _ => .pure _) _

theorem destroy : Within (Process.Frame names E) (destroy name ks) := by
  intro p
  cases h : (SwarmDb.destroy name ks).result p with
  | error => rw [destroy_error h]; exact refl p
  | ok => exact of_writes hname (destroy_ok h)

end

theorem emit {e : Effect} (he : E e) : Within (Process.Frame names E) (emit e) := by
  intro p
  cases h : (SwarmDb.emit e).result p with
  | error => rw [SwarmDb.emit, act_error h]; exact refl p
  | ok =>
    obtain ⟨l, hl⟩ := act_ok h
    rw [SwarmDb.emit, hl]
    exact ⟨fun _ _ => rfl, List.Subset.refl _, [e], rfl, by simpa using he⟩

end Process.Frame

section Writes

variable {c : Conversion α} {name : Bytes} {names : List Bytes} {E : Effect → Prop} {p p' : Process}

theorem Stored.frame {a : α} (h : Stored p c name a) (hf : p.Frame names E p') (hne : name ∉ names) :
    Stored p' c name a := by
  rw [Stored, hf.stored_of_notMem hne]
  exact h

theorem Stored.writes {a : α} (hw : p.Writes p' (persistentKey name []) (some (c.toString a))) :
    Stored p' c name a := by
  rw [Stored, hw.stored, Function.update_self]

variable {encode : κ → List Bytes} {lookup : κ → Option α}

theorem Holds.frame (h : Holds p c name encode lookup) (hf : p.Frame names E p') (hne : name ∉ names) :
    Holds p' c name encode lookup where
  stored x := by
    rw [hf.stored_of_notMem hne]
    exact h.stored x
  keys key hkey := by
    rw [mem_containerKeys] at hkey
    refine h.keys key (mem_containerKeys.mpr ⟨?_, hkey.2⟩)
    rw [← hf.stored key]
    · exact hkey.1
    · rintro name' hname ks rfl
      exact hne (((persistentKey_range name name' ks).mp hkey.2).1 ▸ hname)

theorem Container.frame (h : Container p c name encode lookup) (hf : p.Frame names E p') (hne : name ∉ names) :
    Container p' c name encode lookup :=
  ⟨h.toHolds.frame hf hne, hf.initializedContainers h.init⟩

variable {x : κ} {v : Option α}

/-- Writing, or removing, one entry. -/
theorem Holds.writes [DecidableEq κ] (h : Holds p c name encode lookup) (henc : Function.Injective encode)
    (hw : p.Writes p' (persistentKey name (encode x)) (v.map c.toString)) :
    Holds p' c name encode (Function.update lookup x v) where
  stored y := by
    rw [hw.stored]
    by_cases hy : y = x
    · subst hy; simp
    · rw [Function.update_of_ne fun he => hy (henc (persistentKey_inj he).2), Function.update_of_ne hy]
      exact h.stored y
  keys key hkey := by
    by_cases hk : key = persistentKey name (encode x)
    · exact ⟨x, hk⟩
    · rw [mem_containerKeys, hw.stored, Function.update_of_ne hk] at hkey
      exact h.keys key (mem_containerKeys.mpr hkey)

section

variable (h : Container p c name encode lookup) (henc : Function.Injective encode)
include h henc

theorem Container.writes [DecidableEq κ] (hw : p.Writes p' (persistentKey name (encode x)) (v.map c.toString)) :
    Container p' c name encode (Function.update lookup x v) :=
  ⟨h.toHolds.writes henc hw, hw.initializedContainers ▸ h.init⟩

/-- The constructor for an entry of a container: the entry that is there, or
the new one, and the storage with it. -/
theorem Container.persistent_ok [DecidableEq κ] (hc : c.Faithful) {d a : α}
    (hr : (persistent c d name (encode x)).result p = .ok a) :
    a = (lookup x).getD d ∧
    Container ((persistent c d name (encode x)).final p) c name encode (Function.update lookup x (some a)) := by
  obtain ⟨-, ⟨val, hs, hv, hf⟩ | ⟨hs, rfl, hw⟩⟩ := SwarmDb.persistent_ok hr
  · rw [h.stored] at hs
    obtain ⟨b, hb, rfl⟩ := Option.map_eq_some_iff.mp hs
    obtain rfl := hc b a hv
    refine ⟨by rw [hb]; rfl, ?_⟩
    rw [hf, ← hb, Function.update_eq_self]
    exact h
  · rw [h.stored, Option.map_eq_none_iff] at hs
    exact ⟨by rw [hs]; rfl, h.writes henc hw⟩

/-- Removing the entries of a list. -/
theorem Container.destroyAll_ok [DecidableEq κ] (l : List κ)
    (hr : (forEach l fun x => destroy name (encode x)).result p = .ok ()) :
    Container ((forEach l fun x => destroy name (encode x)).final p) c name encode
      (fun x => if x ∈ l then none else lookup x) := by
  induction l generalizing p lookup with
  | nil => simpa [forEach] using h
  | cons x _ ih =>
    obtain ⟨u, hx, hl⟩ := result_bind_eq_ok hr
    have hw := destroy_ok hx
    rw [forEach, final_bind_ok hx]
    convert ih (h.writes henc (v := none) hw) hl using 2 with y
    by_cases hy : y = x <;> simp [hy]

end

end Writes

/-! ## Loading from a storage without entries -/

/-- Nothing is stored under these names. -/
def Process.FreeOf (p : Process) (names : List Bytes) : Prop :=
  ∀ key, (p.stored key).isSome → ∃ name ∉ names, ∃ ks, key = persistentKey name ks

namespace Process.FreeOf

variable {p p' : Process} {names : List Bytes} {name : Bytes}

theorem stored (h : p.FreeOf names) (hname : name ∈ names) (ks : List Bytes) :
    p.stored (persistentKey name ks) = none := by
  by_contra hne
  obtain ⟨name', hname', ks', he⟩ := h _ (Option.isSome_iff_ne_none.mpr hne)
  exact hname' ((persistentKey_inj he).1 ▸ hname)

/-- A container without entries. -/
theorem holds {encode : κ → List Bytes} (h : p.FreeOf names) (hname : name ∈ names) :
    Holds p c name encode fun _ => none where
  stored x := h.stored hname (encode x)
  keys key hkey := by
    rw [mem_containerKeys] at hkey
    obtain ⟨name', hname', ks', rfl⟩ := h key hkey.1
    exact absurd (((persistentKey_range name name' ks').mp hkey.2).1 ▸ hname) hname'

theorem start (names : List Bytes) : (Process.start default).FreeOf names := by
  intro key hkey
  cases hkey

variable {names' : List Bytes}

section

variable (h : p.FreeOf names)
include h

theorem mono (hn : names' ⊆ names) : p.FreeOf names' := by
  intro key hkey
  obtain ⟨name, hname, ks, rfl⟩ := h key hkey
  exact ⟨name, fun hm => hname (hn hm), ks, rfl⟩

theorem of_stored_eq (hs : p'.stored = p.stored) : p'.FreeOf names := by
  intro key hkey
  rw [hs] at hkey
  exact h key hkey

theorem frame {E : Effect → Prop} (hf : p.Frame names' E p') (hnames : ∀ name ∈ names', name ∉ names) :
    p'.FreeOf names := by
  intro key hkey
  by_cases hk : ∃ name ∈ names', ∃ ks, key = persistentKey name ks
  · obtain ⟨name, hname, ks, rfl⟩ := hk
    exact ⟨name, hnames name hname, ks, rfl⟩
  · rw [hf.stored key fun name hname ks he => hk ⟨name, hname, ks, he⟩] at hkey
    exact h key hkey

theorem writes {o : Option Bytes} (hw : p.Writes p' (persistentKey name ks) o) (hname : name ∉ names) :
    p'.FreeOf names := by
  have hf : p.Frame [name] (fun _ => True) p' := .of_writes (List.mem_singleton_self _) hw
  exact h.frame hf (by simpa using hname)

/-- The constructor of a value of which nothing is stored. -/
theorem persistent_ok {d a : α} (hname : name ∈ names) (hr : (persistent c d name []).result p = .ok a) :
    a = d ∧ p.Writes ((persistent c d name []).final p) (persistentKey name []) (some (c.toString d)) := by
  obtain ⟨-, ⟨val, hs, -, -⟩ | ⟨-, rfl, hw⟩⟩ := SwarmDb.persistent_ok hr
  · rw [h.stored hname] at hs
    cases hs
  · exact ⟨rfl, hw⟩

end

end Process.FreeOf

/-! ## Loading what is in storage -/

/-- A process over the same storage, as after a restart. -/
theorem Stored.of_stored_eq {q : Process} (h : Stored p c name a) (hq : q.stored = p.stored) : Stored q c name a := by
  rw [Stored, hq]
  exact h

theorem Holds.of_stored_eq {encode : κ → List Bytes} {lookup : κ → Option α} {q : Process}
    (h : Holds p c name encode lookup) (hq : q.stored = p.stored) : Holds q c name encode lookup where
  stored x := by rw [hq]; exact h.stored x
  keys key hkey := by
    rw [mem_containerKeys, hq] at hkey
    exact h.keys key (mem_containerKeys.mpr hkey)

/-- The constructor of a value that is in storage. -/
theorem Stored.persistent_runFrom (h : Stored p c name a) (hc : c.fromString (c.toString a) = .ok a) :
    (persistent c d name []).runFrom p = (.ok a, p) := by
  have hres : (persistent c d name []).result p = .ok a ∧ (persistent c d name []).final p = p := by
    simp only [persistent, result_read_bind, final_read_bind]
    rw [h]
    exact ⟨hc, rfl⟩
  rw [runFrom_eq, hres.1, hres.2]

section Load

variable [Inhabited α] {c : Conversion α} {name : Bytes} {decode : Bytes → Except Fault κ} {encode : κ → List Bytes}
  {lookup : κ → Option α} {p : Process}

/-- Every entry of a container can be read back. -/
def Readable (c : Conversion α) (name : Bytes) (decode : Bytes → Except Fault κ) (encode : κ → List Bytes)
    (lookup : κ → Option α) : Prop :=
  ∀ x v, lookup x = some v → decode (subkeyText name (persistentKey name (encode x))) = .ok x ∧
    c.fromString (c.toString v) = .ok v

omit [Inhabited α] in
theorem Holds.mem_containerKeys_iff {x : κ} (h : Holds p c name encode lookup) (hne : encode x ≠ []) :
    persistentKey name (encode x) ∈ containerKeys p name ↔ (lookup x).isSome := by
  rw [mem_containerKeys, h.stored, Option.isSome_map, and_iff_left ((persistentKey_range name name _).mpr ⟨rfl, hne⟩)]

section

variable (h : Holds p c name encode lookup)
  (hdec : ∀ x y, decode (subkeyText name (persistentKey name (encode x))) = .ok y → y = x)
include h hdec

omit [Inhabited α] in
theorem Holds.canonical (key : Bytes) (hkey : key ∈ containerKeys p name) (k : κ)
    (hk : decode (subkeyText name key) = .ok k) : persistentKey name (encode k) = key := by
  obtain ⟨x, rfl⟩ := h.keys key hkey
  rw [hdec x k hk]

/-- Loading a container that is in storage writes nothing, also where it fails. -/
theorem Holds.initializeContainer_final : (initializeContainer c name decode encode).final p =
    { p with initializedContainers := name :: p.initializedContainers } :=
  (initializeContainer_of_canonical (h.canonical hdec)).1

/-- Loading a container that is in storage: the entries are those it holds, and
it succeeds exactly when all of them can be read back. -/
theorem Holds.initializeContainer_ok (hne : ∀ x, encode x ≠ []) (hc : c.Faithful) :
    (∀ l, (initializeContainer c name decode encode).result p = .ok l →
      (∀ x t, (x, t) ∈ l ↔ lookup x = some t) ∧ Readable c name decode encode lookup) ∧
    (Readable c name decode encode lookup →
      ∃ l, (initializeContainer c name decode encode).result p = .ok l) := by
  constructor
  · intro l hl
    obtain ⟨hto, hfrom⟩ := SwarmDb.initializeContainer_ok hl
    have hback : ∀ x v t, lookup x = some v → ReadBack p c default name (encode x) t →
        c.fromString (c.toString v) = .ok t := by
      intro x v t hx hread
      unfold ReadBack at hread
      rwa [h.stored, hx] at hread
    -- each value that is held has its entry
    have hentry : ∀ x v, lookup x = some v →
        decode (subkeyText name (persistentKey name (encode x))) = .ok x ∧ c.ReadsBack v ∧ (x, v) ∈ l := by
      intro x v hx
      obtain ⟨⟨y, t⟩, hmem, hd, hread⟩ := hto _ ((h.mem_containerKeys_iff (hne x)).mpr (by rw [hx]; rfl))
      obtain rfl := hdec x y hd
      have ht := hback y v t hx hread
      obtain rfl := hc v t ht
      exact ⟨hd, ht, hmem⟩
    refine ⟨fun x t => ⟨fun hmem => ?_, fun hx => (hentry x t hx).2.2⟩,
      fun x v hx => ⟨(hentry x v hx).1, (hentry x v hx).2.1⟩⟩
    obtain ⟨key, hkey, hd, hread⟩ := hfrom _ hmem
    obtain ⟨y, rfl⟩ := h.keys _ hkey
    obtain rfl := hdec y x hd
    obtain ⟨v, hv⟩ := Option.isSome_iff_exists.mp ((h.mem_containerKeys_iff (hne x)).mp hkey)
    rw [hv, hc v t (hback x v t hv hread)]
  · intro hr
    refine (initializeContainer_of_canonical (h.canonical hdec)).2 fun key hkey => ?_
    obtain ⟨x, rfl⟩ := h.keys key hkey
    obtain ⟨v, hv⟩ := Option.isSome_iff_exists.mp ((h.mem_containerKeys_iff (hne x)).mp hkey)
    refine ⟨⟨x, (hr x v hv).1⟩, fun val hval => ?_⟩
    rw [h.stored, hv] at hval
    cases hval
    exact ⟨v, (hr x v hv).2⟩

end

end Load

section LoadFinal

variable [Inhabited α] [Ord κ] [Std.TransOrd κ] {c : Conversion α} {k : Conversion κ} {name : Bytes} {p : Process}

theorem Holds.initKvContainer_final {lookup : κ → Option α} (h : Holds p c name (fun a => [k.toString a]) lookup)
    (hk : k.Faithful) : (initKvContainer c k name).final p =
      { p with initializedContainers := name :: p.initializedContainers } := by
  rw [initKvContainer, final_bind_pure]
  exact h.initializeContainer_final fun a b => decodeSubkey_faithful hk

variable {κ' : Type} [Ord κ'] [Std.TransOrd κ'] {k' : Conversion κ'}

theorem Holds.initKvContainer2_final {lookup : κ × κ' → Option α}
    (h : Holds p c name (fun x : κ × κ' => [k.toString x.1, k'.toString x.2]) lookup) (hk : k.Faithful)
    (hk' : k'.Faithful) : (initKvContainer2 c k k' name).final p =
      { p with initializedContainers := name :: p.initializedContainers } := by
  rw [initKvContainer2, final_bind_pure]
  exact h.initializeContainer_final fun x y => decodeSubkeys_faithful hk hk'

end LoadFinal

section LoadMaps

variable [Inhabited α] [Ord κ] [Std.TransOrd κ] [Std.LawfulEqOrd κ] [DecidableEq κ] {c : Conversion α}
  {k : Conversion κ} {name : Bytes} {p : Process}

/-- Loading a map from storage: its entries are those that are held, and it loads
exactly when its keys and values can be read back. -/
theorem Holds.initKvContainer_lookup {lookup : κ → Option α} (h : Holds p c name (fun a => [k.toString a]) lookup)
    (hk : k.Faithful) (hc : c.Faithful) :
    (∀ m, (initKvContainer c k name).result p = .ok m → (∀ a, m[a]? = lookup a) ∧
      ∀ a v, lookup a = some v → k.ReadsBack a ∧ c.ReadsBack v) ∧
    ((∀ a v, lookup a = some v → k.ReadsBack a ∧ c.ReadsBack v) →
      ∃ m, (initKvContainer c k name).result p = .ok m) := by
  obtain ⟨hload, hok⟩ := h.initializeContainer_ok (fun a b => decodeSubkey_faithful hk)
    (fun a => List.cons_ne_nil (k.toString a) []) hc
  simp only [Readable, decodeSubkey_persistentKey] at hload hok
  constructor
  · intro m hm
    obtain ⟨l, hl, hfold⟩ := result_bind_eq_ok hm
    obtain ⟨hmem, hread⟩ := hload l hl
    cases hfold
    refine ⟨fun a => Option.ext fun t => ?_, hread⟩
    rw [Map.lookup_foldl_insertIfNew, Map.lookup_empty, Option.none_or, Map.find_eq_some_iff, hmem]
    intro b v v' hv hv'
    exact Option.some.inj (((hmem b v).mp hv).symm.trans ((hmem b v').mp hv'))
  · intro hread
    obtain ⟨l, hl⟩ := hok hread
    exact ⟨_, by rw [initKvContainer, result_bind_ok hl, result_pure]⟩

/-- It is the map that was written. -/
theorem Holds.initKvContainer_ok {m : Map κ α} (h : Holds p c name (fun a => [k.toString a]) fun a => m[a]?)
    (hk : k.Faithful) (hc : c.Faithful) :
    (∀ m', (initKvContainer c k name).result p = .ok m' → m' = m ∧
      (∀ (a : κ) (v : α), m[a]? = some v → k.ReadsBack a ∧ c.ReadsBack v) ∧
      (initKvContainer c k name).final p = { p with initializedContainers := name :: p.initializedContainers }) ∧
    ((∀ (a : κ) (v : α), m[a]? = some v → k.ReadsBack a ∧ c.ReadsBack v) →
      (initKvContainer c k name).result p = .ok m) := by
  obtain ⟨hload, hok⟩ := h.initKvContainer_lookup hk hc
  constructor
  · intro m' hm'
    obtain ⟨hlookup, hread⟩ := hload m' hm'
    exact ⟨Map.ext_lookup hlookup, hread, h.initKvContainer_final hk⟩
  · intro hread
    obtain ⟨m', hm'⟩ := hok hread
    rw [hm', Map.ext_lookup (hload m' hm').1]

variable {κ' : Type} [Ord κ'] [Std.TransOrd κ'] [Std.LawfulEqOrd κ'] [DecidableEq κ'] {k' : Conversion κ'}

/-- Loading a map of maps from storage. -/
theorem Holds.initKvContainer2_lookup {lookup : κ × κ' → Option α}
    (h : Holds p c name (fun x : κ × κ' => [k.toString x.1, k'.toString x.2]) lookup)
    (hk : k.Faithful) (hk' : k'.Faithful) (hc : c.Faithful) :
    (∀ m, (initKvContainer2 c k k' name).result p = .ok m → Map.NoEmpty m ∧
      (∀ a b, Map.lookup2 m b a = lookup (a, b)) ∧
      ∀ x v, lookup x = some v → c.ReadsBack v) ∧
    ((∀ x v, lookup x = some v → k.ReadsBack x.1 ∧ k'.ReadsBack x.2 ∧ c.ReadsBack v) →
      ∃ m, (initKvContainer2 c k k' name).result p = .ok m) := by
  obtain ⟨hload, hok⟩ := h.initializeContainer_ok (fun x y => decodeSubkeys_faithful hk hk')
    (fun x => List.cons_ne_nil (k.toString x.1) _) hc
  simp only [Readable, decodeSubkeys_persistentKey] at hload hok
  constructor
  · intro m hm
    obtain ⟨l, hl, hfold⟩ := result_bind_eq_ok hm
    obtain ⟨hmem, hread⟩ := hload l hl
    cases hfold
    obtain ⟨hlookup, hnoEmpty⟩ := Map.foldl_insertIfNew2 l (∅ : Map κ' (Map κ α))
    refine ⟨hnoEmpty Map.noEmpty_empty, fun a b => Option.ext fun t => ?_, fun x v hx => (hread x v hx).2⟩
    rw [hlookup, Map.lookup2, Map.lookup_empty, Option.bind_none, Option.none_or, Map.find_eq_some_iff, hmem]
    intro x v v' hv hv'
    exact Option.some.inj (((hmem x v).mp hv).symm.trans ((hmem x v').mp hv'))
  · intro hread
    obtain ⟨l, hl⟩ := hok fun x v hx => by
      obtain ⟨ha, hb, hv⟩ := hread x v hx
      rw [ha, hb]
      exact ⟨rfl, hv⟩
    exact ⟨_, by rw [initKvContainer2, result_bind_ok hl, result_pure]⟩

theorem Holds.initKvContainer2_ok {m : Map κ' (Map κ α)} (hm : Map.NoEmpty m)
    (h : Holds p c name (fun x : κ × κ' => [k.toString x.1, k'.toString x.2]) fun x => Map.lookup2 m x.2 x.1)
    (hk : k.Faithful) (hk' : k'.Faithful) (hc : c.Faithful) :
    (∀ m', (initKvContainer2 c k k' name).result p = .ok m' → m' = m ∧
      (initKvContainer2 c k k' name).final p = { p with initializedContainers := name :: p.initializedContainers }) ∧
    ((∀ (a : κ) (b : κ') (v : α), Map.lookup2 m b a = some v → k.ReadsBack a ∧
        k'.ReadsBack b ∧ c.ReadsBack v) →
      (initKvContainer2 c k k' name).result p = .ok m) := by
  obtain ⟨hload, hok⟩ := h.initKvContainer2_lookup hk hk' hc
  constructor
  · intro m' hm'
    obtain ⟨hnoEmpty, hlookup, -⟩ := hload m' hm'
    exact ⟨Map.ext_lookup2 hnoEmpty hm fun b a => hlookup a b, h.initKvContainer2_final hk hk'⟩
  · intro hread
    obtain ⟨m', hm'⟩ := hok fun x v hx => hread x.1 x.2 v hx
    obtain ⟨hnoEmpty, hlookup, -⟩ := hload m' hm'
    rw [hm', Map.ext_lookup2 hnoEmpty hm fun b a => hlookup a b]

end LoadMaps

end SwarmDb
