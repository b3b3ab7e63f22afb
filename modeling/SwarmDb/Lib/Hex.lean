import SwarmDb.Lib.Bytes

/-!
# Hexadecimal texts

Numbers and byte strings in hexadecimal digits, and how they are read back: `hex` and `upperHex` of a byte string, which
`unhex` reads in either case (`unhex_of_sameHex`), `hexadecimal` and `paddedHex` of a number, and `strtoul16`. The
digits of a number are those of its bytes (`hex_bigEndian`); `blocks` are the parts of a fixed length of a text.
-/

namespace SwarmDb.Lib

/-! ## Digits -/

/-- A digit, in lower case. -/
def hexDigit (d : Nat) : UInt8 := if d < 10 then UInt8.ofNat (48 + d) else UInt8.ofNat (87 + d)

/-- A digit, in upper case. -/
def upperHexDigit (d : Nat) : UInt8 := if d < 10 then UInt8.ofNat (48 + d) else UInt8.ofNat (55 + d)

/-- The value of a digit of either case. -/
def hexValue? (c : UInt8) : Option Nat :=
  if 48 ≤ c ∧ c ≤ 57 then some (c.toNat - 48)
  else if 65 ≤ c ∧ c ≤ 70 then some (c.toNat - 55)
  else if 97 ≤ c ∧ c ≤ 102 then some (c.toNat - 87)
  else none

/-- `tolower` -/
def toLower (c : UInt8) : UInt8 := if 65 ≤ c ∧ c ≤ 90 then c + 32 else c

/-- A fact about every byte, checked one by one. -/
theorem forall_byte {p : UInt8 → Prop} (h : ∀ n < 256, p (UInt8.ofNat n)) (c : UInt8) : p c := by
  have hc := h c.toNat c.toNat_lt
  rwa [UInt8.ofNat_toNat] at hc

variable {d n : Nat} {b t s : Bytes}

theorem hexValue?_hexDigit (h : d < 16) : hexValue? (hexDigit d) = some d := by
  revert d
  decide

theorem toLower_hexDigit (h : d < 16) : toLower (hexDigit d) = hexDigit d := by
  revert d
  decide

theorem toLower_upperHexDigit (h : d < 16) : toLower (upperHexDigit d) = hexDigit d := by
  revert d
  decide

theorem hexValue?_toLower (c : UInt8) : hexValue? (toLower c) = hexValue? c := by
  revert c
  exact forall_byte (by decide +kernel)

theorem hexValue?_lt {c : UInt8} (h : hexValue? c = some d) : d < 16 := by
  have hall : ∀ c : UInt8, ∀ d ∈ hexValue? c, d < 16 := forall_byte (by decide +kernel)
  exact hall c d h

/-- A digit is neither white space nor a sign nor the letter of a base. -/
theorem ne_of_hexValue? {c : UInt8} (h : (hexValue? c).isSome) :
    isSpace c = false ∧ c ≠ 43 ∧ c ≠ 45 ∧ c ≠ 120 ∧ c ≠ 88 := by
  have hall : ∀ c : UInt8, (hexValue? c).isSome → isSpace c = false ∧ c ≠ 43 ∧ c ≠ 45 ∧ c ≠ 120 ∧ c ≠ 88 :=
    forall_byte (by decide +kernel)
  exact hall c h

/-! ## Byte strings -/

/-- The bytes of a text as two digits each. -/
def hex (s : Bytes) : Bytes := s.flatMap fun b => [hexDigit (b.toNat / 16), hexDigit (b.toNat % 16)]

/-- The same in upper case. -/
def upperHex (s : Bytes) : Bytes := s.flatMap fun b => [upperHexDigit (b.toNat / 16), upperHexDigit (b.toNat % 16)]

/-- What reading digits may end with instead of a result. -/
inductive HexDecodeError where
  | nonHexInput
  | notEnoughInput
  deriving DecidableEq, Repr

def hexCharToInt (c : UInt8) : Except HexDecodeError Nat :=
  match hexValue? c with
  | some d => .ok d
  | none => .error .nonHexInput

/-- The bytes of a text of two digits each. -/
def unhex : Bytes → Except HexDecodeError Bytes
  | [] => .ok []
  | [c] => do
    let _ ← hexCharToInt c
    throw .notEnoughInput
  | c :: c' :: t => do
    let d ← hexCharToInt c
    let d' ← hexCharToInt c'
    let s ← unhex t
    return UInt8.ofNat (16 * d + d') :: s

/-- Two texts that are the same but for the case of letters. -/
def SameHex (t t' : Bytes) : Prop := t.map toLower = t'.map toLower

theorem hex_append (a b : Bytes) : hex (a ++ b) = hex a ++ hex b := List.flatMap_append

theorem length_hex (s : Bytes) : (hex s).length = 2 * s.length := by
  rw [hex, List.length_flatMap]
  simp [Nat.mul_comm]

theorem length_upperHex (s : Bytes) : (upperHex s).length = 2 * s.length := by
  rw [upperHex, List.length_flatMap]
  simp [Nat.mul_comm]

theorem hex_replicate (n : Nat) : hex (List.replicate n 0) = List.replicate (2 * n) 48 := by
  induction n with
  | zero => rfl
  | succ n ih =>
    rw [List.replicate_succ, hex, List.flatMap_cons, ← hex, ih]
    rfl

theorem SameHex.refl (t : Bytes) : SameHex t t := rfl

theorem SameHex.append {a a' b' : Bytes} (ha : SameHex a a') (hb : SameHex b b') : SameHex (a ++ b) (a' ++ b') := by
  rw [SameHex, List.map_append, List.map_append, ha, hb]

theorem SameHex.length_eq {t' : Bytes} (h : SameHex t t') : t.length = t'.length := by
  have := congrArg List.length h
  rwa [List.length_map, List.length_map] at this

/-- A text that is the same as a concatenation. -/
theorem SameHex.split {a : Bytes} (h : SameHex t (a ++ b)) : ∃ t₁ t₂, t = t₁ ++ t₂ ∧ SameHex t₁ a ∧ SameHex t₂ b := by
  rw [SameHex, List.map_append, List.map_eq_append_iff] at h
  obtain ⟨t₁, t₂, ht, h₁, h₂⟩ := h
  exact ⟨t₁, t₂, ht, h₁, h₂⟩

theorem sameHex_upperHex (s : Bytes) : SameHex (upperHex s) (hex s) := by
  induction s with
  | nil => rfl
  | cons b s ih =>
    have hb := b.toNat_lt
    have hhigh : b.toNat / 16 < 16 := by omega
    have hlow : b.toNat % 16 < 16 := Nat.mod_lt _ (by decide)
    refine SameHex.append ?_ ih
    simp only [SameHex, List.map_cons, List.map_nil, toLower_upperHexDigit, toLower_hexDigit, hhigh, hlow]

theorem unhex_hex (s : Bytes) : unhex (hex s) = .ok s := by
  induction s with
  | nil => rfl
  | cons b s ih =>
    have hb := b.toNat_lt
    rw [hex, List.flatMap_cons, ← hex, List.cons_append, List.cons_append, List.nil_append, unhex, ih, hexCharToInt,
      hexCharToInt, hexValue?_hexDigit (by omega), hexValue?_hexDigit (Nat.mod_lt _ (by decide))]
    change Except.ok (UInt8.ofNat (16 * (b.toNat / 16) + b.toNat % 16) :: s) = _
    rw [Nat.div_add_mod, UInt8.ofNat_toNat]

theorem unhex_map_toLower (t : Bytes) : unhex (t.map toLower) = unhex t := by
  induction t using unhex.induct with
  | case1 => rfl
  | case2 c => simp only [List.map_cons, List.map_nil, unhex, hexCharToInt, hexValue?_toLower]
  | case3 c c' t ih => simp only [List.map_cons, unhex, hexCharToInt, hexValue?_toLower, ih]

/-- Digits of either case are read back. -/
theorem unhex_of_sameHex (h : SameHex t (hex s)) : unhex t = .ok s := by
  rw [← unhex_map_toLower, h, unhex_map_toLower, unhex_hex]

/-! ## Numbers -/

/-- The digits of a number. -/
def hexadecimal (n : Nat) : Bytes := (Nat.toDigits 16 n).map fun c => c.toNat.toUInt8

/-- A number of a fixed number of digits. -/
def paddedHex : Nat → Nat → Bytes
  | 0, _ => []
  | w + 1, n => paddedHex w (n / 16) ++ [hexDigit (n % 16)]

/-- A number of a fixed number of bytes, the greatest first. -/
def bigEndian : Nat → Nat → Bytes
  | 0, _ => []
  | w + 1, n => bigEndian w (n / 256) ++ [UInt8.ofNat n]

def ofBigEndian (s : Bytes) : Nat := s.foldl (fun v b => 256 * v + b.toNat) 0

/-- The number that the digits at the start of a text make. -/
def leadingHex (t : Bytes) : Nat :=
  (t.takeWhile fun c => (hexValue? c).isSome).foldl (fun v c => 16 * v + (hexValue? c).getD 0) 0

/-- The text after `0x`, where a digit follows. -/
def skipBase : Bytes → Bytes
  | 48 :: x :: c :: t => if (x = 120 ∨ x = 88) ∧ (hexValue? c).isSome then c :: t else 48 :: x :: c :: t
  | t => t

/-- `strtoul` in base 16: numbers that are too great become the greatest one. -/
def strtoul16 (t : Bytes) : UInt64 :=
  let number (t : Bytes) (negative : Bool) : UInt64 :=
    let n := leadingHex (skipBase t)
    if 2 ^ 64 ≤ n then 0 - 1 else if negative then 0 - UInt64.ofNat n else UInt64.ofNat n
  match t.dropWhile isSpace with
  | [] => 0
  | c :: t => if c = 45 then number t true else if c = 43 then number t false else number (c :: t) false

theorem length_bigEndian (w n : Nat) : (bigEndian w n).length = w := by
  induction w generalizing n with
  | zero => rfl
  | succ w ih => rw [bigEndian, List.length_append, ih, List.length_singleton]

theorem hex_bigEndian (w n : Nat) : hex (bigEndian w n) = paddedHex (2 * w) n := by
  induction w generalizing n with
  | zero => rfl
  | succ w ih =>
    have hhigh : n % 256 / 16 = n / 16 % 16 := by omega
    have hlow : n % 256 % 16 = n % 16 := by omega
    have hdigits : hex [UInt8.ofNat n] = [hexDigit (n / 16 % 16), hexDigit (n % 16)] := by
      rw [hex, List.flatMap_singleton, UInt8.toNat_ofNat', hhigh, hlow]
    rw [bigEndian, hex_append, ih, hdigits, show 2 * (w + 1) = 2 * w + 1 + 1 by omega, paddedHex, paddedHex,
      Nat.div_div_eq_div_mul, List.append_assoc]
    rfl

theorem ofBigEndian_bigEndian (w n : Nat) : ofBigEndian (bigEndian w n) = n % 256 ^ w := by
  induction w generalizing n with
  | zero => rw [Nat.pow_zero, Nat.mod_one]; rfl
  | succ w ih =>
    have hlast : (UInt8.ofNat n).toNat = n % 256 := UInt8.toNat_ofNat' ..
    rw [bigEndian, ofBigEndian, List.foldl_append, ← ofBigEndian, ih, List.foldl_cons, List.foldl_nil, hlast,
      Nat.pow_succ,
      Nat.mul_comm (256 ^ w), Nat.mod_mul]
    omega

theorem ofBigEndian_zeros (h : ∀ c ∈ s, c = 0) : ofBigEndian s = 0 := by
  rw [List.eq_replicate_of_mem h]
  generalize s.length = n
  induction n with
  | zero => rfl
  | succ n ih => exact ih

/-- More digits than a number needs are zeros in front. -/
theorem paddedHex_add {k : Nat} (h : n < 16 ^ k) (w : Nat) :
    paddedHex (w + k) n = List.replicate w 48 ++ paddedHex k n := by
  induction k generalizing n with
  | zero =>
    obtain rfl : n = 0 := by simpa using h
    rw [Nat.add_zero, paddedHex, List.append_nil]
    induction w with
    | zero => rfl
    | succ w ih =>
      rw [paddedHex, Nat.zero_div, ih, List.replicate_succ']
      rfl
  | succ k ih =>
    rw [Nat.pow_succ] at h
    rw [← Nat.add_assoc, paddedHex, paddedHex, ih (by omega), List.append_assoc]

theorem hexadecimal_eq (n : Nat) :
    hexadecimal n = if n < 16 then [hexDigit n] else hexadecimal (n / 16) ++ [hexDigit (n % 16)] := by
  have hd : ∀ d < 16, d.digitChar.toNat.toUInt8 = hexDigit d := by decide
  rw [hexadecimal, Nat.toDigits_eq_if (by decide)]
  split
  · rename_i h
    rw [List.map_singleton, hd n h]
  · rw [List.map_append, List.map_singleton, hd _ (Nat.mod_lt n (by decide)), hexadecimal]

/-- The digits of a number with zeros in front. -/
theorem leftpad_hexadecimal {w : Nat} (hw : 0 < w) (h : n < 16 ^ w) : (hexadecimal n).leftpad w 48 = paddedHex w n := by
  induction w generalizing n with
  | zero => omega
  | succ w ih =>
    rw [hexadecimal_eq, paddedHex]
    split
    · rename_i hn
      have hzero : paddedHex w 0 = List.replicate w 48 := by
        have := paddedHex_add (show 0 < 16 ^ 0 by decide) w
        rwa [Nat.add_zero, paddedHex, List.append_nil] at this
      rw [Nat.div_eq_of_lt hn, Nat.mod_eq_of_lt hn, hzero]
      rfl
    · rename_i hn
      rw [Nat.pow_succ] at h
      have hpos : 0 < w := by
        rcases Nat.eq_zero_or_pos w with rfl | hpos
        · omega
        · exact hpos
      rw [← ih hpos (show n / 16 < 16 ^ w by omega), List.leftpad, List.leftpad, List.length_append,
        List.length_singleton,
        Nat.add_sub_add_right, List.append_assoc]

/-- A text of digits of a byte string is read as its number. -/
theorem foldl_of_unhex (h : unhex t = .ok s) (v : Nat) :
    t.foldl (fun v c => 16 * v + (hexValue? c).getD 0) v = s.foldl (fun v b => 256 * v + b.toNat) v ∧
      ∀ c ∈ t, (hexValue? c).isSome := by
  induction t using unhex.induct generalizing s v with
  | case1 =>
    cases h
    exact ⟨rfl, fun _ hc => absurd hc List.not_mem_nil⟩
  | case2 c =>
    rw [unhex, hexCharToInt] at h
    cases hc : hexValue? c <;> rw [hc] at h <;> cases h
  | case3 c c' t ih =>
    rw [unhex, hexCharToInt, hexCharToInt] at h
    cases hc : hexValue? c with
    | none => rw [hc] at h; cases h
    | some d =>
      cases hc' : hexValue? c' with
      | none => rw [hc, hc'] at h; cases h
      | some d' =>
        cases ht : unhex t with
        | error e => rw [hc, hc', ht] at h; cases h
        | ok s' =>
          rw [hc, hc', ht] at h
          cases h
          have hd := hexValue?_lt hc
          have hd' := hexValue?_lt hc'
          have hbyte : (UInt8.ofNat (16 * d + d')).toNat = 16 * d + d' := by
            rw [UInt8.toNat_ofNat', Nat.mod_eq_of_lt (by omega)]
          obtain ⟨hfold, hdigits⟩ := ih ht (16 * (16 * v + d) + d')
          refine ⟨?_, ?_⟩
          · simp only [List.foldl_cons, hc, hc', Option.getD_some, hbyte]
            rw [hfold]
            congr 1
            omega
          · simp only [List.forall_mem_cons, hc, hc', Option.isSome_some, true_and]
            exact hdigits

theorem strtoul16_of_unhex (h : unhex t = .ok s) :
    strtoul16 t = if 2 ^ 64 ≤ ofBigEndian s then 0 - 1 else UInt64.ofNat (ofBigEndian s) := by
  obtain ⟨hfold, hdigits⟩ := foldl_of_unhex h 0
  cases t with
  | nil =>
    cases h
    rfl
  | cons c t =>
    obtain ⟨hspace, hplus, hminus, -, -⟩ := ne_of_hexValue? (hdigits c (List.mem_cons_self ..))
    have hskip : skipBase (c :: t) = c :: t := by
      unfold skipBase
      split
      · rename_i x c' t' heq
        cases heq
        obtain ⟨-, -, -, hx, hX⟩ := ne_of_hexValue? (hdigits x (by simp))
        rw [if_neg (by simp [hx, hX])]
      · rfl
    have hlead : leadingHex (c :: t) = ofBigEndian s := by
      rw [leadingHex, List.takeWhile_eq_self_iff.mpr hdigits]
      exact hfold
    rw [strtoul16, List.dropWhile_cons_of_neg (by simp [hspace])]
    dsimp only
    rw [if_neg hminus, if_neg hplus, hskip, hlead]
    rfl

/-! ## Blocks -/

/-- The parts of `n` bytes each, up to the last whole one. -/
def blocks (n : Nat) (t : Bytes) : List Bytes := (List.range (t.length / n)).map fun i => (t.drop (n * i)).take n

theorem blocks_of_lt (h : t.length < n) : blocks n t = [] := by
  rw [blocks, Nat.div_eq_of_lt h]
  rfl

theorem blocks_append (hn : 0 < n) (hb : b.length = n) (t : Bytes) : blocks n (b ++ t) = b :: blocks n t := by
  subst hb
  rw [blocks, List.length_append, Nat.add_div_left _ hn, List.range_succ_eq_map, List.map_cons, List.map_map, blocks]
  congr 1
  · rw [Nat.mul_zero, List.drop_zero, List.take_left]
  · refine List.map_congr_left fun i _ => ?_
    rw [Function.comp_apply, Nat.mul_succ, Nat.add_comm, List.drop_append, ← List.drop_drop]
    simp

theorem flatten_blocks (hn : 0 < n) (h : n ∣ t.length) : (blocks n t).flatten = t := by
  obtain ⟨k, hk⟩ := h
  induction k generalizing t with
  | zero =>
    obtain rfl : t = [] := List.length_eq_zero_iff.mp hk
    rw [blocks_of_lt hn]
    rfl
  | succ k ih =>
    rw [Nat.mul_succ] at hk
    have hfirst : (t.take n).length = n := by rw [List.length_take]; omega
    have hrest : (t.drop n).length = n * k := by rw [List.length_drop]; omega
    conv_lhs => rw [← List.take_append_drop n t]
    rw [blocks_append hn hfirst, List.flatten_cons, ih hrest, List.take_append_drop]

theorem length_of_mem_blocks (hn : 0 < n) (h : b ∈ blocks n t) : b.length = n := by
  obtain ⟨i, hi, rfl⟩ := List.mem_map.mp h
  have hle : n * (i + 1) ≤ t.length := (Nat.mul_le_mul_left n (List.mem_range.mp hi)).trans (Nat.mul_div_le t.length n)
  rw [List.length_take, List.length_drop]
  rw [Nat.mul_succ] at hle
  omega

end SwarmDb.Lib
