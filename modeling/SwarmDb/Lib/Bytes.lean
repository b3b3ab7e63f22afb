import Mathlib

/-!
# Byte strings

Strings as lists of bytes, in the order in which they compare, with what the text formats of the project need: the parts
before and after a byte (`splitAt?`, `splitAtLast?`), decimal numbers, of the least and of a fixed number of digits, and
how they are read (`digitsValue_paddedDecimal`), and the strings with a common beginning as an interval
(`prefix_of_between`).
-/

namespace SwarmDb.Lib

/-- A byte string. -/
abbrev Bytes := List UInt8

instance lawfulBEqBytes : LawfulBEq Bytes := inferInstance

/-- The bytes of an ASCII text. -/
def ascii (s : String) : Bytes := s.toList.map fun c => c.toNat.toUInt8

/-! ## Splitting at a byte -/

/-- The parts before and after the first occurrence of `c`. -/
def splitAt? (c : UInt8) : Bytes → Option (Bytes × Bytes)
  | [] => none
  | x :: xs => if x = c then some ([], xs) else (splitAt? c xs).map fun p => (x :: p.1, p.2)

variable {c : UInt8} {a b : Bytes} {n w : Nat}

theorem splitAt?_append (h : c ∉ a) (b : Bytes) : splitAt? c (a ++ c :: b) = some (a, b) := by
  induction a with
  | nil => simp [splitAt?]
  | cons _ _ ih =>
    simp only [List.mem_cons, not_or] at h
    simp [splitAt?, Ne.symm h.1, ih h.2]

/-! ## Splitting at a text and at the last byte -/

/-- The part before the first occurrence of `pattern`, all of the text where there is none. -/
def before (pattern : Bytes) : Bytes → Bytes
  | [] => []
  | c :: s => if pattern <+: c :: s then [] else c :: before pattern s

theorem before_append {pattern : Bytes} (h : ∀ t, t <:+ a → t ≠ [] → ¬ pattern <+: t ++ pattern ++ b) :
    before pattern (a ++ pattern ++ b) = a := by
  induction a with
  | nil =>
    rw [List.nil_append]
    cases pattern with
    | nil => cases b with
      | nil => rfl
      | cons => rw [List.nil_append, before, if_pos List.nil_prefix]
    | cons => rw [List.cons_append, before, if_pos]; exact List.prefix_append _ _
  | cons c a ih =>
    have hc := h (c :: a) List.suffix_rfl (List.cons_ne_nil _ _)
    rw [List.cons_append, List.cons_append] at hc ⊢
    rw [before, if_neg hc, ih fun t ht hne => h t (ht.trans (List.suffix_cons c a)) hne]

/-- The parts before and after the last occurrence of `c`. -/
def splitAtLast? (c : UInt8) (s : Bytes) : Option (Bytes × Bytes) :=
  (splitAt? c s.reverse).map fun p => (p.2.reverse, p.1.reverse)

theorem splitAtLast?_append (h : c ∉ b) (a : Bytes) : splitAtLast? c (a ++ c :: b) = some (a, b) := by
  have hrev : (a ++ c :: b).reverse = b.reverse ++ c :: a.reverse := by simp
  rw [splitAtLast?, hrev, splitAt?_append (by rwa [List.mem_reverse])]
  simp

/-! ## Decimal numbers -/

/-- The byte of a decimal digit. -/
def digitByte (d : Nat) : UInt8 := UInt8.ofNat (48 + d)

/-- The last `w` decimal digits of `n`, the leading ones first. -/
def paddedDecimal : Nat → Nat → Bytes
  | 0, _ => []
  | w + 1, n => paddedDecimal w (n / 10) ++ [digitByte (n % 10)]

/-- The decimal digits of `n`, without leading zeros. -/
def decimal (n : Nat) : Bytes := (Nat.toDigits 10 n).map fun c => c.toNat.toUInt8

/-- The value of a non-empty string of decimal digits. -/
def digitsValue (s : Bytes) : Option Nat :=
  if s.isEmpty then none
  else s.foldl (fun acc c => acc.bind fun v =>
    if 48 ≤ c.toNat ∧ c.toNat ≤ 57 then some (10 * v + (c.toNat - 48)) else none) (some 0)

theorem digitByte_toNat {d : Nat} (h : d < 10) : (digitByte d).toNat = 48 + d := by
  simp [digitByte, UInt8.toNat_ofNat']; omega

@[simp] theorem length_paddedDecimal (w n : Nat) : (paddedDecimal w n).length = w := by
  induction w generalizing n with
  | zero => rfl
  | succ _ ih => simp [paddedDecimal, ih]

theorem paddedDecimal_range (h : c ∈ paddedDecimal w n) : 48 ≤ c.toNat ∧ c.toNat ≤ 57 := by
  induction w generalizing n with
  | zero => cases h
  | succ _ ih =>
    rcases List.mem_append.mp h with h | h
    · exact ih h
    · rw [List.mem_singleton.mp h, digitByte_toNat (Nat.mod_lt _ (by decide))]
      have := Nat.mod_lt n (show 0 < 10 by decide)
      omega

/-- A byte that is no decimal digit is not in a decimal number. -/
theorem not_mem_paddedDecimal (h : ¬ (48 ≤ c.toNat ∧ c.toNat ≤ 57)) (w n : Nat) :
    c ∉ paddedDecimal w n := fun hc => h (paddedDecimal_range hc)

theorem foldl_paddedDecimal (w n : Nat) (h : n < 10 ^ w) :
    (paddedDecimal w n).foldl (fun acc c => acc.bind fun v =>
      if 48 ≤ c.toNat ∧ c.toNat ≤ 57 then some (10 * v + (c.toNat - 48)) else none) (some 0) = some n := by
  induction w generalizing n with
  | zero => simp only [pow_zero, Nat.lt_one_iff] at h; subst h; rfl
  | succ _ ih =>
    have hm := Nat.mod_lt n (show 0 < 10 by decide)
    rw [paddedDecimal, List.foldl_append, ih (n / 10) (by rw [pow_succ] at h; omega)]
    simp only [List.foldl_cons, List.foldl_nil, Option.bind_some, digitByte_toNat hm]
    rw [if_pos (by omega)]
    congr 1; omega

/-- Reading a padded decimal number gives the number. -/
theorem digitsValue_paddedDecimal (hw : 0 < w) (h : n < 10 ^ w) : digitsValue (paddedDecimal w n) = some n := by
  rw [digitsValue, if_neg, foldl_paddedDecimal w n h]
  cases w with
  | zero => omega
  | succ => simp [paddedDecimal]

theorem paddedDecimal_injective {m : Nat} (hm : m < 10 ^ w) (hn : n < 10 ^ w)
    (h : paddedDecimal w m = paddedDecimal w n) : m = n := by
  have := foldl_paddedDecimal w m hm
  rw [h, foldl_paddedDecimal w n hn] at this
  exact (Option.some.inj this).symm

theorem toDigits_range {d : Char} (h : d ∈ Nat.toDigits 10 n) : 48 ≤ d.toNat ∧ d.toNat ≤ 57 := by
  have := Nat.isDigit_of_mem_toDigits (by decide) (by decide) h
  rw [Char.isDigit, Bool.and_eq_true, decide_eq_true_eq, decide_eq_true_eq] at this
  exact ⟨UInt32.le_iff_toNat_le.mp this.1, UInt32.le_iff_toNat_le.mp this.2⟩

theorem decimal_range (h : c ∈ decimal n) : 48 ≤ c.toNat ∧ c.toNat ≤ 57 := by
  obtain ⟨d, hd, rfl⟩ := List.mem_map.mp h
  have := toDigits_range hd
  simp only [Nat.toUInt8_eq, UInt8.toNat_ofNat']
  omega

theorem length_decimal_le (hw : 0 < w) (h : n < 10 ^ w) : (decimal n).length ≤ w := by
  rw [decimal, List.length_map]
  exact Nat.toDigits_length 10 n w hw h

/-- The digits are ASCII, so the bytes determine them. -/
theorem map_char_decimal (n : Nat) : (decimal n).map (fun c => Char.ofNat c.toNat) = Nat.toDigits 10 n := by
  rw [decimal, List.map_map]
  refine (List.map_congr_left fun d hd => ?_).trans (List.map_id _)
  have := toDigits_range hd
  simp only [Function.comp_apply, Nat.toUInt8_eq, UInt8.toNat_ofNat', id_eq]
  rw [Nat.mod_eq_of_lt (by omega), Char.ofNat_toNat]

/-- The number of a decimal text. -/
def ofDecimal (s : Bytes) : Nat := Nat.ofDigitChars 10 (s.map fun c => Char.ofNat c.toNat) 0

@[simp] theorem ofDecimal_decimal (n : Nat) : ofDecimal (decimal n) = n := by
  rw [ofDecimal, map_char_decimal, Nat.ofDigitChars_ten_toDigits]

/-- Different numbers have different decimal texts. -/
theorem decimal_injective : Function.Injective decimal := fun m n h => by
  rw [← ofDecimal_decimal m, h, ofDecimal_decimal]

theorem decimal_eq (n : Nat) :
    decimal n = if n < 10 then [digitByte n] else decimal (n / 10) ++ [digitByte (n % 10)] := by
  have hd : ∀ d < 10, d.digitChar.toNat.toUInt8 = digitByte d := by decide
  rw [decimal, Nat.toDigits_eq_if (by decide)]
  split
  · rename_i h
    rw [List.map_singleton, hd n h]
  · rw [List.map_append, List.map_singleton, hd _ (Nat.mod_lt n (by decide)), decimal]

theorem foldl_decimal (n : Nat) :
    (decimal n).foldl (fun acc c => acc.bind fun v =>
      if 48 ≤ c.toNat ∧ c.toNat ≤ 57 then some (10 * v + (c.toNat - 48)) else none) (some 0) = some n := by
  induction n using Nat.strongRecOn with
  | ind n ih =>
    rw [decimal_eq]
    split
    · rename_i h
      rw [List.foldl_cons, List.foldl_nil, Option.bind_some, digitByte_toNat h, if_pos (by omega)]
      congr 1
      omega
    · rename_i h
      rw [List.foldl_append, ih (n / 10) (by omega), List.foldl_cons, List.foldl_nil, Option.bind_some,
        digitByte_toNat (Nat.mod_lt n (by decide)), if_pos (by omega)]
      congr 1
      omega

@[simp] theorem digitsValue_decimal (n : Nat) : digitsValue (decimal n) = some n := by
  have hne : (decimal n).isEmpty = false := by
    rw [decimal_eq]
    split
    · rfl
    · rw [List.isEmpty_eq_false_iff]
      exact List.append_ne_nil_of_right_ne_nil _ (List.cons_ne_nil _ _)
  rw [digitsValue, if_neg (by simp [hne]), foldl_decimal]

/-! ## The number at the start of a text -/

/-- `isspace` -/
def isSpace (c : UInt8) : Bool := c = 32 || (9 ≤ c && c ≤ 13)

/-- The number with which a text starts, after white space, as `strtol` reads it. -/
def leadingNumber (s : Bytes) : Option Int :=
  let unsigned (t : Bytes) : Option Int := (digitsValue (t.takeWhile fun c => 48 ≤ c && c ≤ 57)).map Int.ofNat
  match s.dropWhile isSpace with
  | [] => none
  | c :: t => if c = 45 then (unsigned t).map (- ·) else if c = 43 then unsigned t else unsigned (c :: t)

theorem leadingNumber_digits {s : Bytes} (hs : ∀ c ∈ s, 48 ≤ c.toNat ∧ c.toNat ≤ 57) (hn : digitsValue s = some n) :
    leadingNumber s = some (n : Int) := by
  have htake : s.takeWhile (fun c => 48 ≤ c && c ≤ 57) = s := by
    refine List.takeWhile_eq_self_iff.mpr fun c hc => ?_
    have := hs c hc
    rw [Bool.and_eq_true, decide_eq_true_eq, decide_eq_true_eq, UInt8.le_iff_toNat_le, UInt8.le_iff_toNat_le]
    exact this
  cases s with
  | nil => cases hn
  | cons c =>
    have hc := hs c (List.mem_cons_self ..)
    have hne : ∀ d : UInt8, d.toNat < 48 → c ≠ d := by
      rintro d hd rfl
      omega
    have hspace : isSpace c = false := by
      rw [isSpace, Bool.or_eq_false_iff, Bool.and_eq_false_iff, decide_eq_false_iff_not, decide_eq_false_iff_not,
        decide_eq_false_iff_not]
      refine ⟨hne 32 (by decide), .inr fun h => ?_⟩
      have : c.toNat ≤ 13 := UInt8.le_iff_toNat_le.mp h
      omega
    rw [leadingNumber, List.dropWhile_cons_of_neg (by simp [hspace])]
    dsimp only
    rw [if_neg (hne 45 (by decide)), if_neg (hne 43 (by decide)), htake, hn]
    rfl

/-! ## The order of strings of one length -/

theorem append_lt_append_of_length (h : a.length = b.length) (s t : Bytes) :
    a ++ s < b ++ t ↔ a < b ∨ a = b ∧ s < t := by
  induction a generalizing b with
  | nil =>
    cases b with
    | nil => simp
    | cons => cases h
  | cons _ _ ih =>
    cases b with
    | nil => cases h
    | cons =>
      rw [List.cons_append, List.cons_append, List.cons_lt_cons_iff, List.cons_lt_cons_iff, ih (Nat.succ.inj h),
        List.cons.injEq]
      tauto

theorem digitByte_lt_iff {d e : Nat} (hd : d < 10) (he : e < 10) : digitByte d < digitByte e ↔ d < e := by
  rw [UInt8.lt_iff_toNat_lt, digitByte_toNat hd, digitByte_toNat he]
  omega

/-- Padded numbers are in the order of the numbers. -/
theorem paddedDecimal_lt_iff {m : Nat} (hm : m < 10 ^ w) (hn : n < 10 ^ w) :
    paddedDecimal w m < paddedDecimal w n ↔ m < n := by
  induction w generalizing m n with
  | zero =>
    simp only [pow_zero, Nat.lt_one_iff] at hm hn
    subst hm hn
    simp [paddedDecimal]
  | succ w ih =>
    rw [pow_succ] at hm hn
    have hm' : m / 10 < 10 ^ w := by omega
    have hn' : n / 10 < 10 ^ w := by omega
    have hinj : paddedDecimal w (m / 10) = paddedDecimal w (n / 10) ↔ m / 10 = n / 10 :=
      ⟨paddedDecimal_injective hm' hn', fun h => by rw [h]⟩
    rw [paddedDecimal, paddedDecimal, append_lt_append_of_length (by simp), ih hm' hn', hinj, List.cons_lt_cons_iff,
      digitByte_lt_iff (Nat.mod_lt _ (by decide)) (Nat.mod_lt _ (by decide))]
    simp only [List.not_lt_nil, and_false, or_false]
    omega

/-! ## Ranges of strings -/

/-- The strings from `p ++ [c]` up to `p ++ [c + 1]` are those that start
with `p ++ [c]`. -/
theorem prefix_iff_between {d : UInt8} (hd : d.toNat = c.toNat + 1) (p s : Bytes) :
    (¬ s < p ++ [c] ∧ s < p ++ [d]) ↔ p ++ [c] <+: s := by
  induction p generalizing s with
  | nil =>
    cases s with
    | nil => simp
    | cons =>
      simp only [List.nil_append, List.cons_lt_cons_iff, List.not_lt_nil, and_false, or_false,
        UInt8.lt_iff_toNat_lt, List.cons_prefix_cons, List.nil_prefix, and_true]
      rw [← UInt8.toNat_inj, hd]
      omega
  | cons _ _ ih =>
    cases s with
    | nil => simp
    | cons _ xs =>
      simp only [List.cons_append, List.cons_lt_cons_iff, List.cons_prefix_cons, ← ih xs,
        UInt8.lt_iff_toNat_lt, ← UInt8.toNat_inj]
      constructor
      · rintro ⟨h₁, h₂ | ⟨h₂, h₃⟩⟩
        · omega
        · exact ⟨h₂.symm, fun h => h₁ (.inr ⟨h₂, h⟩), h₃⟩
      · rintro ⟨h₁, h₂, h₃⟩
        refine ⟨?_, .inr ⟨h₁.symm, h₃⟩⟩
        rintro (h | ⟨-, h⟩)
        · omega
        · exact h₂ h

/-- An end of a concatenation. -/
theorem suffix_append_cases {t : Bytes} (h : t <:+ a ++ b) : t <:+ b ∨ ∃ a', a' ≠ [] ∧ a' <:+ a ∧ t = a' ++ b := by
  obtain ⟨s, hs⟩ := h
  rcases List.append_eq_append_iff.mp hs with ⟨c, rfl, rfl⟩ | ⟨c, rfl, rfl⟩
  · cases c with
    | nil => exact .inl (by simp)
    | cons x c => exact .inr ⟨x :: c, List.cons_ne_nil _ _, List.suffix_append _ _, rfl⟩
  · exact .inl (List.suffix_append _ _)

end SwarmDb.Lib
