import SwarmDb.Pbft.Process

/-!
# The texts of persistent values

The storage keys and the stored values of `persistent<T>`: the escaping of names and sub-keys, and the `to_string` and
`from_string` of each type. A storage key determines the name and the sub-keys (`persistentKey_inj`), and the keys of a
container are those in the range that `initialize` scans (`persistentKey_range`). Log keys and operation keys with a
zero field or an empty hash are written but not read.
-/

namespace SwarmDb

open Lib

def slash : UInt8 := 47
def dollar : UInt8 := 36
def underscore : UInt8 := 95

/-- `SEPARATOR` -/
def separator : Bytes := [slash, slash]

/-- `SEPARATOR_END`: the separator with its last character moved on by one. -/
def separatorEnd : Bytes := [slash, slash + 1]

/-! ## Escaping -/

def escape (input : Bytes) : Bytes := input.flatMap fun ch => if ch = slash then [slash, dollar] else [ch]

def unescape : Bytes → Except Fault Bytes
  | [] => .ok []
  | ch :: rest =>
    if ch = slash then
      match rest with
      | [] => .error (.runtimeError "illegal character unescaping key for persistent value")
      | next :: rest' =>
        if next = dollar then (unescape rest').map (slash :: ·)
        else .error (.runtimeError "illegal character unescaping key for persistent value")
    else (unescape rest).map (ch :: ·)

@[simp] theorem escape_nil : escape [] = [] := rfl

theorem escape_cons (ch : UInt8) (s : Bytes) :
    escape (ch :: s) = (if ch = slash then [slash, dollar] else [ch]) ++ escape s := rfl

theorem unescape_cons {ch : UInt8} (h : ch ≠ slash) (s : Bytes) :
    unescape (ch :: s) = (unescape s).map (ch :: ·) := by
  cases s <;> simp [unescape, h]

@[simp] theorem unescape_escape (s : Bytes) : unescape (escape s) = .ok s := by
  induction s with
  | nil => rfl
  | cons _ _ ih =>
    rw [escape_cons]
    split
    · rename_i h; subst h; simp [unescape, ih, Except.map]
    · rename_i h
      rw [List.singleton_append, unescape_cons h, ih, Except.map]

/-- Where a string goes on after an escaped part: nowhere, or with a separator. -/
def AtSeparator (r : Bytes) : Prop := r = [] ∨ ∃ t, r = slash :: slash :: t

theorem not_atSeparator_escape (ch : UInt8) (s r : Bytes) : ¬ AtSeparator (escape (ch :: s) ++ r) := by
  rw [escape_cons]
  split
  · rintro (h | ⟨t, h⟩)
    · simp at h
    · simp [slash, dollar] at h
  · rename_i hch
    rintro (h | ⟨t, h⟩)
    · simp at h
    · simp only [List.cons_append, List.nil_append, List.cons.injEq] at h
      exact hch h.1

/-- What stands before a separator, or the end, is read back uniquely. -/
theorem escape_append_inj {a b r r' : Bytes} (hr : AtSeparator r) (hr' : AtSeparator r')
    (h : escape a ++ r = escape b ++ r') : a = b ∧ r = r' := by
  induction a generalizing b with
  | nil =>
    cases b with
    | nil => exact ⟨rfl, h⟩
    | cons ch b => rw [escape_nil, List.nil_append] at h; exact absurd (h ▸ hr) (not_atSeparator_escape ch b r')
  | cons ch a ih =>
    cases b with
    | nil => rw [escape_nil, List.nil_append] at h; exact absurd (h ▸ hr') (not_atSeparator_escape ch a r)
    | cons dh b =>
      have : ch = dh ∧ escape a ++ r = escape b ++ r' := by
        rw [escape_cons, escape_cons] at h
        split at h <;> split at h <;> simp_all [slash, dollar]
      obtain ⟨rfl, htail⟩ := this
      obtain ⟨rfl, hrest⟩ := ih htail
      exact ⟨rfl, hrest⟩

theorem length_escape_le (s : Bytes) : (escape s).length ≤ 2 * s.length := by
  induction s with
  | nil => exact Nat.le_refl 0
  | cons =>
    rw [escape_cons, List.length_append, List.length_cons]
    split <;> simp only [List.length_cons, List.length_nil] <;> omega

/-! ## Storage keys -/

/-- `generate_key` -/
def generateKey (subkeys : List Bytes) : Bytes := subkeys.flatMap fun k => separator ++ escape k

/-- The storage key of a value with a name and sub-keys. -/
def persistentKey (name : Bytes) (subkeys : List Bytes) : Bytes := escape name ++ generateKey subkeys

theorem generateKey_cons (k : Bytes) (ks : List Bytes) :
    generateKey (k :: ks) = slash :: slash :: (escape k ++ generateKey ks) := rfl

theorem atSeparator_generateKey (ks : List Bytes) : AtSeparator (generateKey ks) := by
  cases ks with
  | nil => exact .inl rfl
  | cons k ks => exact .inr ⟨_, generateKey_cons k ks⟩

theorem generateKey_inj {ks ks' : List Bytes} (h : generateKey ks = generateKey ks') : ks = ks' := by
  induction ks generalizing ks' with
  | nil =>
    cases ks' with
    | nil => rfl
    | cons => rw [generateKey_cons] at h; cases h
  | cons _ ks ih =>
    cases ks' with
    | nil => rw [generateKey_cons] at h; cases h
    | cons _ ks' =>
      rw [generateKey_cons, generateKey_cons, List.cons.injEq, List.cons.injEq] at h
      obtain ⟨rfl, hks⟩ := escape_append_inj (atSeparator_generateKey ks) (atSeparator_generateKey ks') h.2.2
      rw [ih hks]

/-- A storage key determines the name and the sub-keys. -/
theorem persistentKey_inj {name name' : Bytes} {ks ks' : List Bytes}
    (h : persistentKey name ks = persistentKey name' ks') : name = name' ∧ ks = ks' := by
  obtain ⟨rfl, hks⟩ := escape_append_inj (atSeparator_generateKey ks) (atSeparator_generateKey ks') h
  exact ⟨rfl, generateKey_inj hks⟩

theorem separator_lt_separatorEnd (name : Bytes) : escape name ++ separator < escape name ++ separatorEnd := by
  have : separator < separatorEnd := by decide
  induction escape name with
  | nil => exact this
  | cons _ _ ih => exact List.cons_lt_cons_iff.mpr (.inr ⟨rfl, ih⟩)

/-- The range that `initialize` scans holds the keys of its container. -/
theorem range_iff (name key : Bytes) :
    (¬ key < escape name ++ separator ∧ key < escape name ++ separatorEnd) ↔ escape name ++ separator <+: key := by
  have h := prefix_iff_between (c := slash) (d := slash + 1) (by decide) (escape name ++ [slash]) key
  simpa [separator, separatorEnd] using h

theorem persistentKey_range (name name' : Bytes) (ks : List Bytes) :
    escape name ++ separator <+: persistentKey name' ks ↔ name = name' ∧ ks ≠ [] := by
  constructor
  · rintro ⟨t, h⟩
    rw [List.append_assoc] at h
    obtain ⟨rfl, hks⟩ := escape_append_inj (.inr ⟨t, rfl⟩) (atSeparator_generateKey ks) h
    refine ⟨rfl, ?_⟩
    rintro rfl
    cases hks
  · rintro ⟨rfl, hks⟩
    obtain ⟨k, ks, rfl⟩ := List.exists_cons_of_ne_nil hks
    exact ⟨escape k ++ generateKey ks, by simp [persistentKey, generateKey_cons, separator]⟩

/-- The part of a storage key behind the name and the separator. -/
def subkeyText (name key : Bytes) : Bytes := key.drop ((escape name).length + separator.length)

@[simp] theorem subkeyText_persistentKey (name k : Bytes) (ks : List Bytes) :
    subkeyText name (persistentKey name (k :: ks)) = escape k ++ generateKey ks := by
  have : persistentKey name (k :: ks) = (escape name ++ separator) ++ (escape k ++ generateKey ks) := by
    simp [persistentKey, generateKey_cons, separator]
  rw [subkeyText, this, ← List.length_append, List.drop_left]

/-- The texts before and after the first separator, still escaped, as
`extract_subkeys` finds them; `none` where its assertions fail. -/
def extractSubkeys : Bytes → Option (Bytes × Bytes)
  | [] => none
  | ch :: rest =>
    if ch = slash then
      match rest with
      | [] => none
      | next :: rest' =>
        if next = dollar then (extractSubkeys rest').map fun p => (slash :: dollar :: p.1, p.2)
        else if next = slash then some ([], rest')
        else none
    else (extractSubkeys rest).map fun p => (ch :: p.1, p.2)

theorem extractSubkeys_cons {ch : UInt8} (h : ch ≠ slash) (s : Bytes) :
    extractSubkeys (ch :: s) = (extractSubkeys s).map fun p => (ch :: p.1, p.2) := by
  cases s <;> simp [extractSubkeys, h]

theorem extractSubkeys_escape (k t : Bytes) :
    extractSubkeys (escape k ++ slash :: slash :: t) = some (escape k, t) := by
  induction k with
  | nil => simp [extractSubkeys, slash, dollar]
  | cons _ _ ih =>
    rw [escape_cons]
    split
    · simp [extractSubkeys, ih]
    · rename_i h
      rw [List.singleton_append, List.cons_append, extractSubkeys_cons h, ih, Option.map_some]

/-! ## Numbers -/

/-- `boost::lexical_cast<uint64_t>`: a sign may stand before the digits, and a
minus wraps around. -/
def lexicalCast (s : Bytes) : Option UInt64 :=
  let unsigned (t : Bytes) : Option UInt64 :=
    (digitsValue t).bind fun n => if n < 2 ^ 64 then some (UInt64.ofNat n) else none
  match s with
  | [] => none
  | ch :: rest => if ch = 45 then (unsigned rest).map (0 - ·) else if ch = 43 then unsigned rest else unsigned s

/-- A string as `c_str()` shows it: up to the first null character. -/
def cStr (s : Bytes) : Bytes := s.takeWhile (· ≠ 0)

/-- The format `%020u`. -/
def padded (n : UInt64) : Bytes := paddedDecimal 20 n.toNat

theorem toNat_lt_padded (n : UInt64) : n.toNat < 10 ^ 20 := lt_trans n.toNat_lt (by norm_num)

theorem padded_injective {m n : UInt64} (h : padded m = padded n) : m = n :=
  UInt64.toNat_inj.mp (paddedDecimal_injective (toNat_lt_padded m) (toNat_lt_padded n) h)

@[simp] theorem length_padded (n : UInt64) : (padded n).length = 20 := length_paddedDecimal 20 n.toNat

theorem not_mem_padded {c : UInt8} (h : ¬ (48 ≤ c.toNat ∧ c.toNat ≤ 57)) (n : UInt64) : c ∉ padded n :=
  not_mem_paddedDecimal h 20 n.toNat

@[simp] theorem cStr_padded (n : UInt64) : cStr (padded n) = padded n := by
  refine List.takeWhile_eq_self_iff.mpr fun c hc => decide_eq_true ?_
  rintro rfl
  exact not_mem_padded (by decide) n hc

/-- A text of digits is read as their value. -/
theorem lexicalCast_of_digits {s : Bytes} {n : UInt64} (hvalue : digitsValue s = some n.toNat)
    (hrange : ∀ c ∈ s, 48 ≤ c.toNat ∧ c.toNat ≤ 57) : lexicalCast s = some n := by
  cases s with
  | nil => cases hvalue
  | cons c =>
    have hc := hrange c (List.mem_cons_self ..)
    rw [lexicalCast, if_neg (by rintro rfl; exact absurd hc.1 (by decide)),
      if_neg (by rintro rfl; exact absurd hc.1 (by decide))]
    simp only [hvalue, Option.bind_some, if_pos n.toNat_lt, UInt64.ofNat_toNat]

@[simp] theorem lexicalCast_decimal (n : UInt64) : lexicalCast (decimal n.toNat) = some n :=
  lexicalCast_of_digits (digitsValue_decimal n.toNat) fun _ => decimal_range

@[simp] theorem lexicalCast_padded (n : UInt64) : lexicalCast (padded n) = some n := by
  refine lexicalCast_of_digits (digitsValue_paddedDecimal (by decide) (toNat_lt_padded n)) fun c hc => ?_
  by_contra h
  exact not_mem_padded h n hc

/-! ## Conversions -/

/-- The `to_string` and `from_string` of a type. -/
structure Conversion (α : Type) where
  toString : α → Bytes
  fromString : Bytes → Except Fault α

namespace Conversion

def string : Conversion Bytes := ⟨id, .ok⟩

def logKey : Conversion LogKey where
  toString key := padded key.view ++ underscore :: padded key.sequence
  fromString value :=
    match splitAt? underscore value with
    | some (a, b) =>
      match lexicalCast (cStr a), lexicalCast (cStr b) with
      | some v0, some v1 =>
        if v0 ≠ 0 ∧ v1 ≠ 0 then .ok ⟨v0, v1⟩ else .error (.runtimeError "bad log key from persistent state")
      | _, _ => .error (.runtimeError "bad log key from persistent state")
    | none => .error (.runtimeError "bad log key from persistent state")

def operationKey : Conversion OperationKey where
  toString key := padded key.view ++ underscore :: (padded key.sequence ++ underscore :: key.requestHash)
  fromString value :=
    match splitAt? underscore value with
    | some (a, rest) =>
      match splitAt? underscore rest with
      | some (b, c) =>
        match lexicalCast (cStr a), lexicalCast (cStr b) with
        | some v0, some v1 =>
          if v0 ≠ 0 ∧ v1 ≠ 0 ∧ c ≠ [] then .ok ⟨v0, v1, c⟩
          else .error (.runtimeError "bad log key from persistent state")
        | _, _ => .error (.runtimeError "bad log key from persistent state")
      | none => .error (.runtimeError "bad log key from persistent state")
    | none => .error (.runtimeError "bad log key from persistent state")

def checkpoint : Conversion Checkpoint where
  toString cp := padded cp.sequence ++ underscore :: cp.hash
  fromString value :=
    match splitAt? underscore value with
    | some (a, b) =>
      match lexicalCast (cStr a) with
      | some v0 => .ok ⟨v0, b⟩
      | none => .error (.runtimeError "bad checkpoint from persistent state")
    | none => .error (.runtimeError "bad checkpoint from persistent state")

def uint64 : Conversion UInt64 where
  toString := padded
  fromString value :=
    match lexicalCast value with
    | some v => .ok v
    | none => .error (.runtimeError "bad uint64_t from persistent state")

/-- `boost::lexical_cast<bool>`: zeros, with a sign before them, and a last `0`
or `1`; a minus only before `0`. -/
def lexicalCastBool (s : Bytes) : Option Bool :=
  match s.getLast? with
  | none => none
  | some last =>
    if last ≠ 48 ∧ last ≠ 49 then none
    else
      let digits := match s with
        | ch :: rest => if rest ≠ [] ∧ (ch = 43 ∨ ch = 45 ∧ last = 48) then rest else s
        | [] => s
      if digits.dropLast.all (· = 48) then some (last = 49) else none

def bool : Conversion Bool where
  toString val := if val then [49] else [48]
  fromString value :=
    match lexicalCastBool value with
    | some v => .ok v
    | none => .error (.runtimeError "bad bool from persistent state")

def envelope (wire : Wire) : Conversion BznEnvelope where
  toString := wire.envelope.serialize
  fromString value :=
    match wire.envelope.parse value with
    | some env => .ok env
    | none => .error (.runtimeError "bad bzn_envelope from persistent state")

/-! ### Reading what was written -/

theorem splitAt_padded (n : UInt64) (t : Bytes) :
    splitAt? underscore (padded n ++ underscore :: t) = some (padded n, t) :=
  splitAt?_append (not_mem_padded (by decide) n) t

@[simp] theorem string_fromString (s : Bytes) : string.fromString (string.toString s) = .ok s := rfl

/-- A log key is read back exactly when neither number is zero. -/
theorem logKey_fromString (key : LogKey) : logKey.fromString (logKey.toString key) =
    if key.view ≠ 0 ∧ key.sequence ≠ 0 then .ok key
    else .error (.runtimeError "bad log key from persistent state") := by
  simp only [logKey, splitAt_padded, cStr_padded, lexicalCast_padded]

/-- An operation key is read back exactly when neither number is zero and the
hash is not empty. -/
theorem operationKey_fromString (key : OperationKey) : operationKey.fromString (operationKey.toString key) =
    if key.view ≠ 0 ∧ key.sequence ≠ 0 ∧ key.requestHash ≠ [] then .ok key
    else .error (.runtimeError "bad log key from persistent state") := by
  simp only [operationKey, splitAt_padded, cStr_padded, lexicalCast_padded]

@[simp] theorem checkpoint_fromString (cp : Checkpoint) :
    checkpoint.fromString (checkpoint.toString cp) = .ok cp := by
  simp only [checkpoint, splitAt_padded, cStr_padded, lexicalCast_padded]

@[simp] theorem uint64_fromString (n : UInt64) : uint64.fromString (uint64.toString n) = .ok n := by
  simp only [uint64, lexicalCast_padded]

@[simp] theorem bool_fromString (b : Bool) : bool.fromString (bool.toString b) = .ok b := by
  cases b <;> rfl

@[simp] theorem envelope_fromString (wire : Wire) (env : BznEnvelope) :
    (envelope wire).fromString ((envelope wire).toString env) = .ok env := by
  simp only [envelope, Codec.parse_serialize]

/-! ### Different values have different texts -/

theorem padded_append_inj {m n : UInt64} {s t : Bytes}
    (h : padded m ++ underscore :: s = padded n ++ underscore :: t) : m = n ∧ s = t := by
  have := splitAt_padded m s
  rw [h, splitAt_padded] at this
  simp only [Option.some.injEq, Prod.mk.injEq] at this
  exact ⟨(padded_injective this.1).symm, this.2.symm⟩

theorem logKey_injective : Function.Injective logKey.toString := by
  intro a b h
  obtain ⟨h₁, h₂⟩ := padded_append_inj h
  cases a; cases b
  simp only [LogKey.mk.injEq]
  exact ⟨h₁, padded_injective h₂⟩

theorem checkpoint_toString_ne_nil (cp : Checkpoint) : checkpoint.toString cp ≠ [] := by
  simp [checkpoint]

theorem checkpoint_injective : Function.Injective checkpoint.toString := by
  intro a b h
  obtain ⟨h₁, h₂⟩ := padded_append_inj h
  cases a; cases b
  simp only [Checkpoint.mk.injEq]
  exact ⟨h₁, h₂⟩

end Conversion

end SwarmDb
