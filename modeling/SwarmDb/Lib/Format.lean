import SwarmDb.Lib.Bytes

/-!
# Byte formats

A `Codec` is what a serialization library offers for one message type: a
`serialize`, and a parser that fills an object (`decode`) and says whether the
text was well formed (`accepts`). Parsing undoes serialization, and the empty
text is the default message.

A `Format` is a self-delimiting layout with a reader that undoes its writer.
Formats of words, strings, lists, options and pairs are put together by the
combinators below, and every format of a type with a default value gives a
codec of it (`Format.codec`).
-/

namespace SwarmDb.Lib

/-- Serialization of one message type. -/
structure Codec (α : Type) [Inhabited α] where
  serialize : α → Bytes
  /-- Whether a text parses. -/
  accepts : Bytes → Bool
  /-- What a parse leaves in the message object, also where it fails. -/
  decode : Bytes → α
  accepts_serialize : ∀ a, accepts (serialize a) = true
  decode_serialize : ∀ a, decode (serialize a) = a
  accepts_nil : accepts [] = true
  decode_nil : decode [] = default

/-- The message of a text that parses. -/
def Codec.parse {α : Type} [Inhabited α] (c : Codec α) (b : Bytes) : Option α :=
  if c.accepts b then some (c.decode b) else none

namespace Codec

variable {α : Type} [Inhabited α] (c : Codec α)

@[simp] theorem parse_serialize (a : α) : c.parse (c.serialize a) = some a := by
  simp [parse, c.accepts_serialize, c.decode_serialize]

theorem decode_of_parse {b : Bytes} {a : α} (h : c.parse b = some a) : c.decode b = a := by
  unfold parse at h
  split at h
  · exact Option.some.inj h
  · cases h

theorem serialize_injective : Function.Injective c.serialize :=
  fun a b h => by rw [← c.decode_serialize a, h, c.decode_serialize]

/-- Only the default message has an empty text. -/
theorem eq_default_of_serialize_eq_nil {a : α} (h : c.serialize a = []) : a = default := by
  rw [← c.decode_serialize a, h, c.decode_nil]

/-- The texts of the numbers of an encodable type. -/
def ofEncodable (α : Type) [Encodable α] [Inhabited α] : Codec α where
  serialize a := 0 :: decimal (Encodable.encode a)
  accepts _ := true
  decode
    | [] => default
    | _ :: text => (Encodable.decode (ofDecimal text)).getD default
  accepts_serialize _ := rfl
  decode_serialize a := by simp
  accepts_nil := rfl
  decode_nil := rfl

end Codec

/-- A self-delimiting layout of the values of `α`. -/
structure Format (α : Type) where
  put : α → Bytes
  get : Bytes → Option (α × Bytes)
  get_put : ∀ a rest, get (put a ++ rest) = some (a, rest)
  put_ne_nil : ∀ a, put a ≠ []

namespace Format

variable {α β : Type}

/-- The values of `α` that `f` reads off the values of `β`. -/
def ofRetract (F : Format β) (f : β → α) (g : α → β) (h : ∀ a, f (g a) = a) : Format α where
  put a := F.put (g a)
  get b := (F.get b).map fun p => (f p.1, p.2)
  get_put a rest := by rw [F.get_put, Option.map_some, h]
  put_ne_nil a := F.put_ne_nil (g a)

/-- One value after another. -/
def pair (F : Format α) (G : Format β) : Format (α × β) where
  put p := F.put p.1 ++ G.put p.2
  get b := (F.get b).bind fun p => (G.get p.2).map fun q => ((p.1, q.1), q.2)
  get_put p rest := by rw [List.append_assoc, F.get_put, Option.bind_some, G.get_put, Option.map_some]
  put_ne_nil p := List.append_ne_nil_of_left_ne_nil (F.put_ne_nil p.1) _

/-- The digits of `n` in base 256, the last one first. -/
def putDigits : Nat → Nat → Bytes
  | 0, _ => []
  | w + 1, n => UInt8.ofNat (n % 256) :: putDigits w (n / 256)

def getDigits : Nat → Bytes → Option (Nat × Bytes)
  | 0, b => some (0, b)
  | _ + 1, [] => none
  | w + 1, x :: b => (getDigits w b).map fun p => (x.toNat + 256 * p.1, p.2)

theorem getDigits_putDigits (w n : Nat) (h : n < 256 ^ w) (rest : Bytes) :
    getDigits w (putDigits w n ++ rest) = some (n, rest) := by
  induction w generalizing n with
  | zero => simp only [pow_zero, Nat.lt_one_iff] at h; subst h; rfl
  | succ w ih =>
    simp only [putDigits, List.cons_append, getDigits]
    rw [ih (n / 256) (by rw [pow_succ] at h; omega), Option.map_some]
    simp only [UInt8.toNat_ofNat', Option.some.injEq, Prod.mk.injEq, and_true]
    omega

/-- A machine word, in eight bytes. -/
def word : Format UInt64 where
  put n := putDigits 8 n.toNat
  get b := (getDigits 8 b).map fun p => (UInt64.ofNat p.1, p.2)
  get_put n rest := by
    rw [getDigits_putDigits 8 _ (lt_of_lt_of_eq n.toNat_lt (by norm_num)), Option.map_some, UInt64.ofNat_toNat]
  put_ne_nil _ := List.cons_ne_nil _ _

/-- An enumeration value, in one byte. -/
def tag : Format UInt8 where
  put c := [c]
  get
    | [] => none
    | c :: b => some (c, b)
  get_put _ _ := rfl
  put_ne_nil c := List.cons_ne_nil c []

def putList (put : α → Bytes) : List α → Bytes
  | [] => [0]
  | a :: l => 1 :: (put a ++ putList put l)

def getList (get : Bytes → Option (α × Bytes)) : Nat → Bytes → Option (List α × Bytes)
  | 0, _ => none
  | _ + 1, [] => none
  | n + 1, c :: b =>
    if c = 0 then some ([], b)
    else (get b).bind fun p => (getList get n p.2).map fun q => (p.1 :: q.1, q.2)

theorem putList_ne_nil (put : α → Bytes) (l : List α) : putList put l ≠ [] := by
  cases l <;> exact List.cons_ne_nil _ _

theorem length_le_putList (put : α → Bytes) (l : List α) : l.length < (putList put l).length := by
  induction l with
  | nil => simp [putList]
  | cons a l ih => simp only [putList, List.length_cons, List.length_append]; omega

variable {get : Bytes → Option (α × Bytes)}

theorem getList_putList {put : α → Bytes} (l : List α) (h : ∀ a ∈ l, ∀ rest, get (put a ++ rest) = some (a, rest))
    (n : Nat) (hn : l.length < n) (rest : Bytes) : getList get n (putList put l ++ rest) = some (l, rest) := by
  induction l generalizing n with
  | nil => obtain ⟨n, rfl⟩ : ∃ m, n = m + 1 := ⟨n - 1, by omega⟩; rfl
  | cons a l ih =>
    obtain ⟨n, rfl⟩ : ∃ m, n = m + 1 := ⟨n - 1, by omega⟩
    simp only [putList, List.cons_append, getList, List.append_assoc]
    rw [if_neg (by decide), h a (List.mem_cons_self ..), Option.bind_some,
      ih (fun b hb => h b (List.mem_cons_of_mem _ hb)) n (by simpa using hn), Option.map_some]

/-- The elements up to the end mark or the first malformed one, and whether the
end mark was found. -/
def scanList (get : Bytes → Option (α × Bytes)) : Nat → Bytes → List α × Bool
  | 0, _ => ([], false)
  | _ + 1, [] => ([], false)
  | n + 1, c :: b =>
    if c = 0 then ([], true)
    else
      match get b with
      | none => ([], false)
      | some p => ((p.1 :: (scanList get n p.2).1), (scanList get n p.2).2)

theorem scanList_of_getList {n : Nat} {b : Bytes} {l : List α} {rest : Bytes} (h : getList get n b = some (l, rest)) :
    scanList get n b = (l, true) := by
  induction n generalizing b l with
  | zero => cases h
  | succ n ih =>
    cases b with
    | nil => cases h
    | cons c b =>
      simp only [getList] at h
      simp only [scanList]
      split at h
      · rename_i hc
        cases h
        rw [if_pos hc]
      · rename_i hc
        obtain ⟨p, hp, h⟩ := Option.bind_eq_some_iff.mp h
        obtain ⟨q, hq, h⟩ := Option.map_eq_some_iff.mp h
        cases h
        rw [if_neg hc, hp]
        simp only [ih hq]

/-- A list, each element marked, and an end mark. -/
def list (F : Format α) : Format (List α) where
  put := putList F.put
  get b := getList F.get (b.length + 1) b
  get_put l rest := getList_putList l (fun a _ => F.get_put a) _ (by
    have := length_le_putList F.put l
    simp only [List.length_append]; omega) rest
  put_ne_nil := putList_ne_nil F.put

/-- A string. -/
def bytes : Format Bytes := list tag

/-- An optional value. -/
def option (F : Format α) : Format (Option α) :=
  (list F).ofRetract (fun l => l.head?) Option.toList fun o => by cases o <;> rfl

/-- The codec of a format: its texts, and the empty one for the default value. -/
def codec [Inhabited α] (F : Format α) : Codec α where
  serialize := F.put
  accepts b := b.isEmpty || (F.get b).isSome
  decode b := if b.isEmpty then default else ((F.get b).map Prod.fst).getD default
  accepts_serialize a := by
    have := F.get_put a []
    rw [List.append_nil] at this
    simp [this]
  decode_serialize a := by
    have := F.get_put a []
    rw [List.append_nil] at this
    simp [this, F.put_ne_nil a]
  accepts_nil := rfl
  decode_nil := rfl

/-- The codec in which nothing may follow a value: a longer text is not accepted,
but its value has been read by then. -/
def strictCodec [Inhabited α] (F : Format α) : Codec α where
  serialize := F.put
  accepts b := b.isEmpty || (F.get b).any fun p => p.2.isEmpty
  decode := F.codec.decode
  accepts_serialize a := by
    have := F.get_put a []
    rw [List.append_nil] at this
    simp [this]
  decode_serialize := F.codec.decode_serialize
  accepts_nil := rfl
  decode_nil := rfl

end Format

end SwarmDb.Lib
