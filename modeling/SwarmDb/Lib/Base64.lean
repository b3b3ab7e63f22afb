import SwarmDb.Lib.Bytes

/-!
# Base64 texts

The standard encoding of bytes, three bytes in four characters, the last group filled up with `=`. `unbase64` undoes
`base64` (`unbase64_base64`); how many `=` end a text tells the length of the byte string modulo three (`ends_base64`).
-/

namespace SwarmDb.Lib

/-! ## Characters -/

/-- The character of six bits. -/
def base64Digit (d : Nat) : UInt8 :=
  if d < 26 then UInt8.ofNat (65 + d)
  else if d < 52 then UInt8.ofNat (71 + d)
  else if d < 62 then UInt8.ofNat (d - 4)
  else if d = 62 then 43
  else 47

/-- The six bits of a character. -/
def base64Value? (c : UInt8) : Option Nat :=
  if 65 ≤ c ∧ c ≤ 90 then some (c.toNat - 65)
  else if 97 ≤ c ∧ c ≤ 122 then some (c.toNat - 71)
  else if 48 ≤ c ∧ c ≤ 57 then some (c.toNat + 4)
  else if c = 43 then some 62
  else if c = 47 then some 63
  else none

/-- The character `=` that fills up the last group. -/
def base64Pad : UInt8 := 61

variable {d : Nat}

theorem base64Value?_base64Digit (h : d < 64) : base64Value? (base64Digit d) = some d := by
  revert d
  decide

theorem base64Digit_ne_pad (h : d < 64) : base64Digit d ≠ base64Pad := by
  revert d
  decide

theorem base64Digit_ne_zero (h : d < 64) : base64Digit d ≠ 0 := by
  revert d
  decide

/-! ## Groups -/

/-- The text of a byte string, group by group. -/
def base64 : Bytes → Bytes
  | [] => []
  | [a] => [base64Digit (a.toNat / 4), base64Digit (a.toNat % 4 * 16), base64Pad, base64Pad]
  | [a, b] => [base64Digit (a.toNat / 4), base64Digit (a.toNat % 4 * 16 + b.toNat / 16),
      base64Digit (b.toNat % 16 * 4), base64Pad]
  | a :: b :: c :: rest => base64Digit (a.toNat / 4) :: base64Digit (a.toNat % 4 * 16 + b.toNat / 16) ::
      base64Digit (b.toNat % 16 * 4 + c.toNat / 64) :: base64Digit (c.toNat % 64) :: base64 rest

/-- The byte string of a text. Only the last group may be filled up. -/
def unbase64 : Bytes → Option Bytes
  | [] => some []
  | w :: x :: y :: z :: rest => do
    let v ← base64Value? w
    let u ← base64Value? x
    let a := UInt8.ofNat (v * 4 + u / 16)
    if y = base64Pad then
      if z = base64Pad ∧ rest = [] then some [a] else none
    else
      let t ← base64Value? y
      let b := UInt8.ofNat (u % 16 * 16 + t / 4)
      if z = base64Pad then
        if rest = [] then some [a, b] else none
      else
        let s ← base64Value? z
        let bytes ← unbase64 rest
        some (a :: b :: UInt8.ofNat (t % 4 * 64 + s) :: bytes)
  | _ => none

/-- A byte from its parts. -/
theorem byte_eq {a : UInt8} {n : Nat} (h : n = a.toNat) : UInt8.ofNat n = a := by
  rw [h, UInt8.ofNat_toNat]

/-- The first two characters of a group of two or three bytes. -/
theorem base64_first (a b : UInt8) : base64Value? (base64Digit (a.toNat / 4)) = some (a.toNat / 4) ∧
    base64Value? (base64Digit (a.toNat % 4 * 16 + b.toNat / 16)) = some (a.toNat % 4 * 16 + b.toNat / 16) ∧
    UInt8.ofNat (a.toNat / 4 * 4 + (a.toNat % 4 * 16 + b.toNat / 16) / 16) = a := by
  have ha := a.toNat_lt
  have hb := b.toNat_lt
  exact ⟨base64Value?_base64Digit (by omega), base64Value?_base64Digit (by omega), byte_eq (by omega)⟩

/-- Reading the text of a byte string gives the byte string. -/
theorem unbase64_base64 (s : Bytes) : unbase64 (base64 s) = some s := by
  induction s using base64.induct with
  | case1 => rfl
  | case2 a =>
    have ha := a.toNat_lt
    have h₁ : base64Value? (base64Digit (a.toNat / 4)) = some (a.toNat / 4) := base64Value?_base64Digit (by omega)
    have h₂ : base64Value? (base64Digit (a.toNat % 4 * 16)) = some (a.toNat % 4 * 16) :=
      base64Value?_base64Digit (by omega)
    have hbyte : UInt8.ofNat (a.toNat / 4 * 4 + a.toNat % 4 * 16 / 16) = a := byte_eq (by omega)
    simp only [base64, unbase64, h₁, h₂, hbyte, Option.bind_eq_bind, Option.bind_some, and_self, if_true]
  | case3 a b =>
    have hb := b.toNat_lt
    obtain ⟨h₁, h₂, hbyte⟩ := base64_first a b
    have h₃ : base64Value? (base64Digit (b.toNat % 16 * 4)) = some (b.toNat % 16 * 4) :=
      base64Value?_base64Digit (by omega)
    have hpad : base64Digit (b.toNat % 16 * 4) ≠ base64Pad := base64Digit_ne_pad (by omega)
    have hbyte' : UInt8.ofNat ((a.toNat % 4 * 16 + b.toNat / 16) % 16 * 16 + b.toNat % 16 * 4 / 4) = b :=
      byte_eq (by omega)
    simp only [base64, unbase64, h₁, h₂, h₃, hpad, hbyte, hbyte', Option.bind_eq_bind, Option.bind_some,
      if_true, if_false]
  | case4 a b c _ ih =>
    have hb := b.toNat_lt
    have hc := c.toNat_lt
    obtain ⟨h₁, h₂, hbyte⟩ := base64_first a b
    have h₃ : base64Value? (base64Digit (b.toNat % 16 * 4 + c.toNat / 64)) = some (b.toNat % 16 * 4 + c.toNat / 64) :=
      base64Value?_base64Digit (by omega)
    have h₄ : base64Value? (base64Digit (c.toNat % 64)) = some (c.toNat % 64) := base64Value?_base64Digit (by omega)
    have hpad : base64Digit (b.toNat % 16 * 4 + c.toNat / 64) ≠ base64Pad := base64Digit_ne_pad (by omega)
    have hpad' : base64Digit (c.toNat % 64) ≠ base64Pad := base64Digit_ne_pad (by omega)
    have hbyte' : UInt8.ofNat ((a.toNat % 4 * 16 + b.toNat / 16) % 16 * 16 +
      (b.toNat % 16 * 4 + c.toNat / 64) / 4) = b :=
      byte_eq (by omega)
    have hbyte'' : UInt8.ofNat ((b.toNat % 16 * 4 + c.toNat / 64) % 4 * 64 + c.toNat % 64) = c := byte_eq (by omega)
    simp only [base64, unbase64, h₁, h₂, h₃, h₄, hpad, hpad', hbyte, hbyte', hbyte'', ih, Option.bind_eq_bind,
      Option.bind_some, if_false]

/-! ## Lengths and endings -/

theorem length_base64 (s : Bytes) : (base64 s).length = 4 * ((s.length + 2) / 3) := by
  induction s using base64.induct with
  | case1 => rfl
  | case2 | case3 => simp [base64]
  | case4 _ _ _ _ ih =>
    simp only [base64, List.length_cons, ih]
    omega

theorem ne_zero_of_mem_base64 {s : Bytes} {c : UInt8} (h : c ∈ base64 s) : c ≠ 0 := by
  have hpad : base64Pad ≠ 0 := by decide
  induction s using base64.induct with
  | case1 => exact absurd h List.not_mem_nil
  | case2 a =>
    have ha := a.toNat_lt
    simp only [base64, List.mem_cons, List.not_mem_nil, or_false] at h
    obtain rfl | rfl | rfl | rfl := h
    · exact base64Digit_ne_zero (by omega)
    · exact base64Digit_ne_zero (by omega)
    · exact hpad
    · exact hpad
  | case3 a b =>
    have ha := a.toNat_lt
    have hb := b.toNat_lt
    simp only [base64, List.mem_cons, List.not_mem_nil, or_false] at h
    obtain rfl | rfl | rfl | rfl := h
    · exact base64Digit_ne_zero (by omega)
    · exact base64Digit_ne_zero (by omega)
    · exact base64Digit_ne_zero (by omega)
    · exact hpad
  | case4 a b d _ ih =>
    have ha := a.toNat_lt
    have hb := b.toNat_lt
    have hd := d.toNat_lt
    simp only [base64, List.mem_cons] at h
    obtain rfl | rfl | rfl | rfl | hrest := h
    · exact base64Digit_ne_zero (by omega)
    · exact base64Digit_ne_zero (by omega)
    · exact base64Digit_ne_zero (by omega)
    · exact base64Digit_ne_zero (by omega)
    · exact ih hrest

/-- The last two characters of a text are both `=` exactly where one byte is left for the last group. -/
theorem ends_base64 {s : Bytes} (h : s ≠ []) :
    ((base64 s)[(base64 s).length - 1]? = some base64Pad ∧ (base64 s)[(base64 s).length - 2]? = some base64Pad) ↔
      s.length % 3 = 1 := by
  induction s using base64.induct with
  | case1 => exact absurd rfl h
  | case2 => simp [base64]
  | case3 _ b =>
    have hb := b.toNat_lt
    have hpad : base64Digit (b.toNat % 16 * 4) ≠ base64Pad := base64Digit_ne_pad (by omega)
    simp [base64, hpad]
  | case4 a b c rest ih =>
    have hc := c.toNat_lt
    have hpad : base64Digit (c.toNat % 64) ≠ base64Pad := base64Digit_ne_pad (by omega)
    cases hrest : rest with
    | nil => simp [base64, hpad]
    | cons =>
      have hne : rest ≠ [] := by rw [hrest]; exact List.cons_ne_nil _ _
      -- the four characters of the first group are not among the last two
      have hlen : 4 ≤ (base64 rest).length := by
        have hpos : 0 < rest.length := List.length_pos_iff.mpr hne
        rw [length_base64]
        omega
      rw [← hrest]
      have hlast : ∀ {w x y z : UInt8} {i : Nat}, 1 ≤ i → i ≤ (base64 rest).length →
          (w :: x :: y :: z :: base64 rest)[(base64 rest).length + 4 - i]? =
            (base64 rest)[(base64 rest).length - i]? := by
        intro w x y z i hone hi
        rw [show (base64 rest).length + 4 - i = (base64 rest).length - i + 4 by omega]
        rfl
      have hlength : (a :: b :: c :: rest).length % 3 = rest.length % 3 := by
        simp only [List.length_cons]
        omega
      rw [hlength, ← ih hne]
      simp only [base64, List.length_cons]
      rw [show (base64 rest).length + 1 + 1 + 1 + 1 = (base64 rest).length + 4 from rfl,
        hlast (Nat.le_refl 1) (by omega),
        hlast (by omega : 1 ≤ 2) (by omega)]

end SwarmDb.Lib
