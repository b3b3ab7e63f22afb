import SwarmDb.Pbft.Persistent

/-!
# Containers of persistent values over whole runs

Any number of containers share one storage; entries are constructed, assigned to and destroyed in any order, also across
restarts (`ContainerRun`). At any time loading a container yields the entries that were constructed and not destroyed
since, with their last values, just where all these can be read back (`reload_iff`).
-/

namespace SwarmDb

open Lib Program

/-! ## Types -/

/-- A type of sub-keys, all of which are read back. -/
structure SubkeyType where
  Key : Type
  conversion : Conversion Key
  [ord : Ord Key]
  [transOrd : Std.TransOrd Key]
  [lawfulEqOrd : Std.LawfulEqOrd Key]
  [decidableEq : DecidableEq Key]
  fromString_toString : ∀ key, conversion.fromString (conversion.toString key) = .ok key

/-- A type of values. One that is read is the one that was written. -/
structure ValueType where
  Value : Type
  conversion : Conversion Value
  [inhabited : Inhabited Value]
  faithful : conversion.Faithful

namespace SubkeyType

attribute [instance] ord transOrd lawfulEqOrd decidableEq

def string : SubkeyType := ⟨Bytes, .string, Conversion.string_fromString⟩

def uint64 : SubkeyType := ⟨UInt64, .uint64, Conversion.uint64_fromString⟩

variable (t : SubkeyType)

theorem faithful : t.conversion.Faithful := Conversion.faithful_of_total t.fromString_toString

theorem toString_injective : Function.Injective t.conversion.toString := fun a b h => by
  have hb := t.fromString_toString b
  rw [← h, t.fromString_toString] at hb
  exact Except.ok.inj hb

end SubkeyType

namespace ValueType

attribute [instance] inhabited

def string : ValueType := ⟨Bytes, .string, Conversion.faithful_of_total Conversion.string_fromString⟩

def uint64 : ValueType := ⟨UInt64, .uint64, Conversion.faithful_of_total Conversion.uint64_fromString⟩

def bool : ValueType := ⟨Bool, .bool, Conversion.faithful_of_total Conversion.bool_fromString⟩

def checkpoint : ValueType := ⟨Checkpoint, .checkpoint, Conversion.faithful_of_total Conversion.checkpoint_fromString⟩

def envelope (wire : Wire) : ValueType :=
  ⟨BznEnvelope, .envelope wire, Conversion.faithful_of_total (Conversion.envelope_fromString wire)⟩

def logKey : ValueType := ⟨LogKey, .logKey, Conversion.logKey_faithful⟩

def operationKey : ValueType := ⟨OperationKey, .operationKey, Conversion.operationKey_faithful⟩

/-- The value can be read back. -/
def Readable (t : ValueType) (v : t.Value) : Prop := t.conversion.fromString (t.conversion.toString v) = .ok v

end ValueType

/-! ## Kinds of containers -/

/-- A map, or a map of maps whose inner keys come first. -/
inductive ContainerKind where
  | one (key : SubkeyType) (value : ValueType)
  | two (inner outer : SubkeyType) (value : ValueType)

namespace ContainerKind

def value : ContainerKind → ValueType
  | one _ value => value
  | two _ _ value => value

abbrev Value (kind : ContainerKind) : Type := kind.value.Value

def Key : ContainerKind → Type
  | one key _ => key.Key
  | two inner outer _ => inner.Key × outer.Key

instance : (kind : ContainerKind) → DecidableEq kind.Key
  | one key _ => inferInstanceAs (DecidableEq key.Key)
  | two inner outer _ => inferInstanceAs (DecidableEq (inner.Key × outer.Key))

/-- The sub-keys as they are given to the constructor. -/
def texts : (kind : ContainerKind) → kind.Key → List Bytes
  | one key _, a => [key.conversion.toString a]
  | two inner outer _, a => [inner.conversion.toString a.1, outer.conversion.toString a.2]

theorem texts_injective (kind : ContainerKind) : Function.Injective kind.texts := by
  intro a b h
  cases kind with
  | one key => exact key.toString_injective (List.cons.inj h).1
  | two inner outer =>
    obtain ⟨h₁, h₂⟩ := List.cons.inj h
    exact Prod.ext (inner.toString_injective h₁) (outer.toString_injective (List.cons.inj h₂).1)

/-- What a container is loaded into. -/
def Loaded : ContainerKind → Type
  | one key value => Map key.Key value.Value
  | two inner outer value => Map outer.Key (Map inner.Key value.Value)

def lookup : (kind : ContainerKind) → kind.Loaded → kind.Key → Option kind.Value
  | one key value, m, a => (show Map key.Key value.Value from m)[show key.Key from a]?
  | two _ _ _, m, a => Map.lookup2 m a.2 a.1

/-- `init_kv_container` or `init_kv_container2` -/
def load : (kind : ContainerKind) → Bytes → Program Fault Process kind.Loaded
  | one key value, name => initKvContainer value.conversion key.conversion name
  | two inner outer value, name => initKvContainer2 value.conversion inner.conversion outer.conversion name

variable {p : Process} {name : Bytes} {kind : ContainerKind} {entries : kind.Key → Option kind.Value}

/-- Loading a container that is in storage writes nothing. -/
theorem load_final (h : Holds p kind.value.conversion name kind.texts entries) :
    (kind.load name).final p = { p with initializedContainers := name :: p.initializedContainers } := by
  cases kind with
  | one key value =>
    have h : Holds p value.conversion name (fun a : key.Key => [key.conversion.toString a]) entries := h
    exact h.initKvContainer_final key.faithful
  | two inner outer value =>
    have h : Holds p value.conversion name (fun a : inner.Key × outer.Key =>
      [inner.conversion.toString a.1, outer.conversion.toString a.2]) entries := h
    exact h.initKvContainer2_final inner.faithful outer.faithful

/-- It yields what is held, where it can be read back. -/
theorem load_iff (h : Holds p kind.value.conversion name kind.texts entries) :
    (∃ m, (kind.load name).result p = .ok m ∧ ∀ key, kind.lookup m key = entries key) ↔
      ∀ key v, entries key = some v → kind.value.Readable v := by
  cases kind with
  | one key value =>
    have h : Holds p value.conversion name (fun a : key.Key => [key.conversion.toString a]) entries := h
    obtain ⟨hload, hok⟩ := h.initKvContainer_lookup key.faithful value.faithful
    constructor
    · rintro ⟨m, hm, -⟩ a v hv
      exact ((hload m hm).2 a v hv).2
    · intro hread
      obtain ⟨m, hm⟩ := hok fun a v hv => ⟨key.fromString_toString a, hread a v hv⟩
      exact ⟨m, hm, (hload m hm).1⟩
  | two inner outer value =>
    have h : Holds p value.conversion name (fun a : inner.Key × outer.Key =>
      [inner.conversion.toString a.1, outer.conversion.toString a.2]) entries := h
    obtain ⟨hload, hok⟩ := h.initKvContainer2_lookup inner.faithful outer.faithful value.faithful
    constructor
    · rintro ⟨m, hm, -⟩ a v hv
      exact (hload m hm).2.2 a v hv
    · intro hread
      obtain ⟨m, hm⟩ := hok fun x v hv =>
        ⟨inner.fromString_toString x.1, outer.fromString_toString x.2, hread x v hv⟩
      exact ⟨m, hm, fun x => (hload m hm).2.1 x.1 x.2⟩

end ContainerKind

/-! ## Runs -/

variable {kinds : Bytes → ContainerKind}

/-- The entries of all containers. -/
abbrev Entries (kinds : Bytes → ContainerKind) : Type := (name : Bytes) → (kinds name).Key → Option (kinds name).Value

def Entries.set (m : Entries kinds) (name : Bytes) (key : (kinds name).Key) (v : Option (kinds name).Value) :
    Entries kinds :=
  Function.update m name (Function.update (m name) key v)

theorem Entries.set_same (m : Entries kinds) (name : Bytes) (key : (kinds name).Key) (v : Option (kinds name).Value) :
    m.set name key v name key = v := by
  rw [Entries.set, Function.update_self, Function.update_self]

/-- A storage key and a text that are not too large. -/
def Storable (key text : Bytes) : Prop := key.length ≤ maxKeySize ∧ text.length ≤ maxValueSize

/-- What is reached by calls from an empty storage, and the entries there are then. A
constructor keeps the value of an entry that is there. -/
inductive ContainerRun (kinds : Bytes → ContainerKind) : Process → Entries kinds → Prop
  | start : ContainerRun kinds (Process.start default) fun _ _ => none
  | load {p : Process} {m : Entries kinds} (h : ContainerRun kinds p m) (name : Bytes) :
      ContainerRun kinds (((kinds name).load name).final p) m
  | construct {p : Process} {m : Entries kinds} (h : ContainerRun kinds p m) (name : Bytes) (key : (kinds name).Key)
      (value : (kinds name).Value) (hinit : name ∈ p.initializedContainers)
      (hfits : Storable (persistentKey name ((kinds name).texts key)) ((kinds name).value.conversion.toString value)) :
      ContainerRun kinds ((persistent (kinds name).value.conversion value name ((kinds name).texts key)).final p)
        (m.set name key (some ((m name key).getD value)))
  | assign {p : Process} {m : Entries kinds} (h : ContainerRun kinds p m) (name : Bytes) (key : (kinds name).Key)
      (value : (kinds name).Value)
      (hfits : Storable (persistentKey name ((kinds name).texts key)) ((kinds name).value.conversion.toString value)) :
      ContainerRun kinds ((assign (kinds name).value.conversion value name ((kinds name).texts key)).final p)
        (m.set name key ((m name key).map fun _ => value))
  | destroy {p : Process} {m : Entries kinds} (h : ContainerRun kinds p m) (name : Bytes) (key : (kinds name).Key) :
      ContainerRun kinds ((destroy name ((kinds name).texts key)).final p) (m.set name key none)
  | restart {p : Process} {m : Entries kinds} (h : ContainerRun kinds p m) :
      ContainerRun kinds (Process.start p.storage) m

/-- The storage holds the entries of all containers. -/
structure HoldsAll (p : Process) (m : Entries kinds) : Prop where
  lifetime : p.lifetime = none
  holds : ∀ name, Holds p (kinds name).value.conversion name (kinds name).texts (m name)

namespace HoldsAll

variable {p p' : Process} {m : Entries kinds} {name : Bytes} {key : (kinds name).Key}

theorem stored (h : HoldsAll p m) (key : (kinds name).Key) :
    p.stored (persistentKey name ((kinds name).texts key)) = (m name key).map (kinds name).value.conversion.toString :=
  (h.holds name).stored key

variable {v : Option (kinds name).Value} {value : (kinds name).Value}

section

variable (h : HoldsAll p m)
include h

/-- A write of one entry. -/
theorem writes (hlife : p'.lifetime = none)
    (hw : p.Writes p' (persistentKey name ((kinds name).texts key)) (v.map (kinds name).value.conversion.toString)) :
    HoldsAll p' (m.set name key v) := by
  refine ⟨hlife, fun other => ?_⟩
  by_cases hother : other = name
  · subst hother
    rw [Entries.set, Function.update_self]
    exact (h.holds other).writes (kinds other).texts_injective hw
  · rw [Entries.set, Function.update_of_ne hother]
    have hframe : p.Frame [name] (fun _ => True) p' := .of_writes (List.mem_singleton_self _) hw
    exact (h.holds other).frame hframe (by simpa using hother)

/-- No write. -/
theorem set_self (hv : m name key = v) : HoldsAll p (m.set name key v) := by
  subst hv
  rwa [Entries.set, Function.update_eq_self, Function.update_eq_self]

theorem load (name : Bytes) : HoldsAll (((kinds name).load name).final p) m := by
  rw [ContainerKind.load_final (h.holds name)]
  exact ⟨h.lifetime, fun other => (h.holds other).of_stored_eq rfl⟩

theorem construct (hinit : name ∈ p.initializedContainers)
    (hfits : Storable (persistentKey name ((kinds name).texts key)) ((kinds name).value.conversion.toString value)) :
    HoldsAll ((persistent (kinds name).value.conversion value name ((kinds name).texts key)).final p)
      (m.set name key (some ((m name key).getD value))) := by
  have hstored := h.stored key
  cases hm : m name key with
  | some =>
    rw [hm] at hstored
    rw [(persistent_of_stored hinit hstored).2]
    exact h.set_self hm
  | none =>
    rw [hm] at hstored
    have hcreate := (MemStorage.create_result_iff p.storage stateUuid _ _).mpr ⟨hfits.2, hfits.1, hstored⟩
    have hrun := runFrom_persistent_new _ value h.lifetime hinit hstored hcreate
    have hresult : (persistent (kinds name).value.conversion value name ((kinds name).texts key)).result p =
      .ok value :=
      congrArg Prod.fst hrun
    obtain ⟨-, ⟨val, hval, -⟩ | ⟨-, -, hw⟩⟩ := persistent_ok hresult
    · rw [hstored] at hval
      cases hval
    · refine h.writes ?_ hw
      rw [show (persistent _ value name ((kinds name).texts key)).final p = _ from congrArg Prod.snd hrun]
      exact h.lifetime

theorem assign
    (hfits : Storable (persistentKey name ((kinds name).texts key)) ((kinds name).value.conversion.toString value)) :
    HoldsAll ((SwarmDb.assign (kinds name).value.conversion value name ((kinds name).texts key)).final p)
      (m.set name key ((m name key).map fun _ => value)) := by
  have hstored := h.stored key
  cases hm : m name key with
  | none =>
    rw [hm] at hstored
    have hfails : (p.storage.update stateUuid (persistentKey name ((kinds name).texts key))
        ((kinds name).value.conversion.toString value)).1 ≠ .ok := fun hok => by
      have := ((MemStorage.update_result_iff ..).mp hok).2
      rw [show p.storage.read stateUuid _ = none from hstored] at this
      cases this
    have hfinal : (SwarmDb.assign (kinds name).value.conversion value name ((kinds name).texts key)).final p = p := by
      rw [SwarmDb.assign, final_read_bind, if_neg hfails]
      rfl
    rw [hfinal]
    exact h.set_self hm
  | some v =>
    rw [hm] at hstored
    have hupdate := (MemStorage.update_result_iff p.storage stateUuid (persistentKey name ((kinds name).texts key))
      ((kinds name).value.conversion.toString value)).mpr ⟨hfits.2, Option.isSome_iff_exists.mpr ⟨_, hstored⟩⟩
    have hrun := runFrom_assign (kinds name).value.conversion value h.lifetime hupdate
    refine h.writes (v := some value) ?_ (assign_ok (congrArg Prod.fst hrun))
    rw [show (SwarmDb.assign _ value name ((kinds name).texts key)).final p = _ from congrArg Prod.snd hrun]
    exact h.lifetime

theorem destroy : HoldsAll ((SwarmDb.destroy name ((kinds name).texts key)).final p) (m.set name key none) := by
  have hrun := runFrom_destroy name ((kinds name).texts key) h.lifetime
  refine h.writes (v := none) ?_ (destroy_ok (congrArg Prod.fst hrun))
  rw [show (SwarmDb.destroy name ((kinds name).texts key)).final p = _ from congrArg Prod.snd hrun]
  exact h.lifetime

end

end HoldsAll

theorem ContainerRun.holdsAll {p : Process} {m : Entries kinds} (h : ContainerRun kinds p m) : HoldsAll p m := by
  induction h with
  | start => exact ⟨rfl, fun name => (Process.FreeOf.start [name]).holds (List.mem_singleton_self name)⟩
  | load _ name ih => exact ih.load name
  | construct _ _ _ _ hinit hfits ih => exact ih.construct hinit hfits
  | assign _ _ _ _ hfits ih => exact ih.assign hfits
  | destroy _ _ _ ih => exact ih.destroy
  | restart _ ih => exact ⟨rfl, fun name => (ih.holds name).of_stored_eq rfl⟩

/-- Entries of different names or sub-keys have different storage keys. At any time a
container is loaded with the entries that were constructed and not destroyed since,
each with its last value, just where all of them can be read back. -/
theorem reload_iff {p : Process} {m : Entries kinds} (h : ContainerRun kinds p m) :
    Function.Injective (fun x : (name : Bytes) × (kinds name).Key => persistentKey x.1 ((kinds x.1).texts x.2)) ∧
      ∀ (name : Bytes) (q : Process), q.storage = p.storage →
        ((∃ loaded, ((kinds name).load name).result q = .ok loaded ∧
          ∀ key, (kinds name).lookup loaded key = m name key) ↔
          ∀ key v, m name key = some v → (kinds name).value.Readable v) := by
  refine ⟨?_, fun name q hq => ?_⟩
  · rintro ⟨name, key⟩ ⟨name', key'⟩ hkeys
    obtain ⟨hname, htexts⟩ := persistentKey_inj hkeys
    dsimp only at hname htexts
    subst hname
    rw [(kinds name).texts_injective htexts]
  · refine ContainerKind.load_iff ((h.holdsAll.holds name).of_stored_eq ?_)
    funext key
    rw [Process.stored, hq, Process.stored]

/-- An entry whose name and sub-key have characters of the escaping. -/
theorem reload_iff_escaped :
    let kind : ContainerKind := .one .string .string
    let p := (kind.load (ascii "a/")).final (Process.start default)
    let p' := (persistent Conversion.string (ascii "v") (ascii "a/") [ascii "/$b"]).final p
    ∃ loaded, (kind.load (ascii "a/")).result p' = .ok loaded ∧ kind.lookup loaded (ascii "/$b") =
      some (ascii "v") := by
  intro kind p p'
  have hload : ContainerRun (fun _ => kind) p fun _ _ => none := .load .start (ascii "a/")
  have hrun := hload.construct (ascii "a/") (ascii "/$b") (ascii "v") (by decide +kernel)
    ⟨by decide +kernel, by decide +kernel⟩
  obtain ⟨loaded, hloaded, hlookup⟩ := ((reload_iff hrun).2 (ascii "a/") p' rfl).mpr fun _ _ _ => rfl
  exact ⟨loaded, hloaded, (hlookup (ascii "/$b")).trans (Entries.set_same ..)⟩

/-- A container of log keys, with an entry of the view 0. -/
theorem reload_throws :
    let p := (initKvContainer Conversion.logKey Conversion.string (ascii "c")).final (Process.start default)
    let p' := (persistent Conversion.logKey ⟨0, 1⟩ (ascii "c") [ascii "k"]).final p
    (persistent Conversion.logKey ⟨0, 1⟩ (ascii "c") [ascii "k"]).result p = .ok ⟨0, 1⟩ ∧
      ((initKvContainer Conversion.logKey Conversion.string (ascii "c")).result (Process.start p'.storage)).map
        (fun _ => ()) =
        .error (.runtimeError "bad log key from persistent state") := by
  decide +kernel

end SwarmDb
