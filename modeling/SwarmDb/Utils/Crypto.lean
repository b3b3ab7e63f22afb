import SwarmDb.Lib.Base64

/-!
# Decoding a signature

`bzn::utils::crypto::base64_decode` reads the base64 text of a node's signature through OpenSSL's filter (`Base64Bio`, a
parameter with its documented behaviour) into a vector of the length that `calculate_decode_length` computes. That
subtracts one for a text without padding too, so decoding gives back the bytes exactly where their number is no multiple
of three (`base64Decode_base64_iff`); else the filter writes one byte behind the buffer (`base64Decode_man`).
-/

namespace SwarmDb.Utils

open Lib

/-- `static_cast<int>` of a size. -/
def toInt (size : Nat) : Int := if size % 2 ^ 32 < 2 ^ 31 then (size % 2 ^ 32 : Nat) else (size % 2 ^ 32 : Nat) - 2 ^ 32

theorem toInt_of_lt {size : Nat} (h : size < 2 ^ 31) : toInt size = size := by
  unfold toInt
  rw [if_pos (by omega)]
  omega

theorem toInt_lt (size : Nat) : toInt size < 2 ^ 31 := by
  unfold toInt
  split <;> omega

/-- A memory buffer that holds a text, with OpenSSL's base64 filter pushed in front of it: what `BIO_read` returns
and the bytes it writes to the buffer it is given, by the text and the size that the call states. -/
structure Base64Bio where
  read : Bytes → Int → Int × Bytes
  /-- The result is an `int`. -/
  result_ge (text : Bytes) (size : Int) : -2 ^ 31 ≤ (read text size).1
  /-- No more bytes are read than the call asks for. -/
  result_le (text : Bytes) (size : Int) : (read text size).1 ≤ max size 0
  /-- The result counts the bytes written. -/
  length_written (text : Bytes) (size : Int) : (read text size).2.length = (read text size).1.toNat
  /-- The text of a byte string is decoded exactly, with the count of its bytes. -/
  read_base64 (b : Bytes) (size : Int) : b ≠ [] → (b.length : Int) ≤ size → read (base64 b) size = ((b.length : Int), b)

/-- `calculate_decode_length`. Only the text `=` has no second last character to compare; reading it
counts as no `=`. -/
def calculateDecodeLength (base64Input : Bytes) : UInt64 :=
  if base64Input.isEmpty then 0
  else
    let len := UInt64.ofNat base64Input.length
    let padding : UInt64 :=
      if base64Input[(len - 1).toNat]? = some base64Pad ∧ base64Input[(len - 2).toNat]? = some base64Pad then 2 else 1
    len * 3 / 4 - padding

/-- `std::vector::resize` -/
def resize (v : Bytes) (n : Nat) : Bytes := v.take n ++ List.replicate (n - v.length) 0

/-- `std::length_error`, thrown for a vector of more than its greatest length. -/
structure LengthError where
deriving DecidableEq

/-- What a call of `base64_decode` leaves: its result, the vector and the bytes written behind the vector's buffer. -/
structure Decoded where
  result : Int
  decodedMessage : Bytes
  behind : Bytes
deriving DecidableEq

/-- `base64_decode` -/
def base64Decode (bio : Base64Bio) (base64Message decodedMessage : Bytes) : Except LengthError Decoded :=
  if base64Message.isEmpty then .ok ⟨1, decodedMessage, []⟩
  else
    let decodedLength := calculateDecodeLength base64Message
    if 2 ^ 63 ≤ decodedLength.toNat then .error ⟨⟩
    else
      let buffer := resize decodedMessage decodedLength.toNat
      -- `BIO_new_mem_buf` with the length -1 takes the text up to its first NUL
      let read := bio.read (base64Message.takeWhile (· ≠ 0)) (toInt base64Message.length)
      let decoded := (read.2 ++ buffer.drop read.2.length).take buffer.length
      let behind := read.2.drop buffer.length
      if UInt64.ofInt read.1 ≠ decodedLength then .ok ⟨1, decoded, behind⟩ else .ok ⟨0, decoded, behind⟩

theorem toNat_ofInt (i : Int) : (UInt64.ofInt i).toNat = (i % 2 ^ 64).toNat := by
  refine UInt64.toNat_ofNat_of_lt' ?_
  show (i % 2 ^ 64).toNat < 2 ^ 64
  omega

@[simp]
theorem length_resize (v : Bytes) (n : Nat) : (resize v n).length = n := by
  simp only [resize, List.length_append, List.length_take, List.length_replicate]
  omega

/-! ## The text of a byte string -/

theorem takeWhile_base64 (b : Bytes) : (base64 b).takeWhile (· ≠ 0) = base64 b := by
  rw [List.takeWhile_eq_self_iff]
  intro c hc
  exact decide_eq_true (ne_zero_of_mem_base64 hc)

theorem base64_ne_nil {b : Bytes} (h : b ≠ []) : base64 b ≠ [] := by
  have hpos : 0 < b.length := List.length_pos_iff.mpr h
  have hlen := length_base64 b
  exact List.ne_nil_of_length_pos (by omega)

/-- The length computed for the text of a byte string: one byte short where the text needs no padding. -/
theorem calculateDecodeLength_base64 {b : Bytes} (hb : b ≠ []) (hlen : (base64 b).length < 2 ^ 31) :
    (calculateDecodeLength (base64 b)).toNat = if b.length % 3 = 0 then b.length - 1 else b.length := by
  have hpos : 0 < b.length := List.length_pos_iff.mpr hb
  have hlength := length_base64 b
  have hends := ends_base64 hb
  have hempty : (base64 b).isEmpty = false := List.isEmpty_eq_false_iff.mpr (base64_ne_nil hb)
  generalize ht : base64 b = t at *
  have hword : (UInt64.ofNat t.length).toNat = t.length :=
    UInt64.toNat_ofNat_of_lt' (Nat.lt_trans hlen (by decide))
  have h₁ : (UInt64.ofNat t.length - 1).toNat = t.length - 1 := by
    rw [UInt64.toNat_sub_of_le _ _ (UInt64.le_iff_toNat_le.mpr (by rw [hword]; exact (by omega : 1 ≤ t.length))), hword]
    rfl
  have h₂ : (UInt64.ofNat t.length - 2).toNat = t.length - 2 := by
    rw [UInt64.toNat_sub_of_le _ _ (UInt64.le_iff_toNat_le.mpr (by rw [hword]; exact (by omega : 2 ≤ t.length))), hword]
    rfl
  have hthree : (UInt64.ofNat t.length * 3 / 4).toNat = t.length * 3 / 4 := by
    rw [UInt64.toNat_div, UInt64.toNat_mul, hword]
    show t.length * 3 % 2 ^ 64 / 4 = t.length * 3 / 4
    rw [Nat.mod_eq_of_lt (by omega)]
  simp only [calculateDecodeLength, hempty, Bool.false_eq_true, if_false, h₁, h₂]
  by_cases hone : b.length % 3 = 1
  · rw [if_pos (hends.mpr hone), UInt64.toNat_sub_of_le _ _ (UInt64.le_iff_toNat_le.mpr (by
      rw [hthree]; exact (by omega : 2 ≤ t.length * 3 / 4))), hthree, if_neg (by omega)]
    show t.length * 3 / 4 - 2 = b.length
    omega
  · rw [if_neg (fun h => hone (hends.mp h)), UInt64.toNat_sub_of_le _ _ (UInt64.le_iff_toNat_le.mpr (by
      rw [hthree]; exact (by omega : 1 ≤ t.length * 3 / 4))), hthree]
    show t.length * 3 / 4 - 1 = _
    split <;> omega

section

variable {bio : Base64Bio} {b : Bytes} (old : Bytes)

/-- What decoding the text of a byte string comes to, where the length of the text is one of an `int`. -/
theorem base64Decode_base64 (hb : b ≠ []) (hlen : (base64 b).length < 2 ^ 31) :
    base64Decode bio (base64 b) old =
      if b.length % 3 = 0 then .ok ⟨1, b.take (b.length - 1), b.drop (b.length - 1)⟩ else .ok ⟨0, b, []⟩ := by
  have hpos : 0 < b.length := List.length_pos_iff.mpr hb
  have hempty : (base64 b).isEmpty = false := List.isEmpty_eq_false_iff.mpr (base64_ne_nil hb)
  have hlength := length_base64 b
  have hcompute := calculateDecodeLength_base64 hb hlen
  have hread : bio.read (base64 b) (toInt (base64 b).length) = ((b.length : Int), b) := by
    refine bio.read_base64 b _ hb ?_
    rw [toInt_of_lt hlen]
    omega
  have hsmall : (calculateDecodeLength (base64 b)).toNat ≤ b.length := by
    rw [hcompute]
    split <;> omega
  have hcast : (UInt64.ofInt b.length).toNat = b.length := by
    rw [toNat_ofInt]
    omega
  have hdrop : ((resize old (calculateDecodeLength (base64 b)).toNat).drop b.length) = [] := by
    rw [List.drop_eq_nil_of_le (by rw [length_resize]; exact hsmall)]
  simp only [base64Decode, hempty, Bool.false_eq_true, if_false, takeWhile_base64, hread, length_resize, hdrop,
    List.append_nil]
  rw [if_neg (by omega)]
  by_cases hthree : b.length % 3 = 0
  · rw [if_pos hthree] at hcompute
    rw [if_pos hthree, hcompute, if_pos]
    intro heq
    rw [← heq, hcast] at hcompute
    omega
  · rw [if_neg hthree] at hcompute
    rw [if_neg hthree, hcompute, if_neg, List.take_length, List.drop_length]
    exact not_not.mpr (UInt64.toNat_inj.mp (hcast.trans hcompute.symm))

/-- A vector that holds all of the bytes has their length, and the call has counted them. -/
theorem length_lt_of_decoded (hb : b ≠ []) (h : base64Decode bio (base64 b) old = .ok ⟨0, b, []⟩) :
    (base64 b).length < 2 ^ 31 := by
  have hpos : 0 < b.length := List.length_pos_iff.mpr hb
  have hempty : (base64 b).isEmpty = false := List.isEmpty_eq_false_iff.mpr (base64_ne_nil hb)
  have hlength := length_base64 b
  simp only [base64Decode, hempty, Bool.false_eq_true, if_false, takeWhile_base64, length_resize] at h
  by_cases hlarge : 2 ^ 63 ≤ (calculateDecodeLength (base64 b)).toNat
  · rw [if_pos hlarge] at h
    cases h
  rw [if_neg hlarge] at h
  have hge := bio.result_ge (base64 b) (toInt (base64 b).length)
  have hle := bio.result_le (base64 b) (toInt (base64 b).length)
  have hwritten := bio.length_written (base64 b) (toInt (base64 b).length)
  generalize bio.read (base64 b) (toInt (base64 b).length) = r at *
  by_cases hcount : UInt64.ofInt r.1 = calculateDecodeLength (base64 b)
  · rw [if_neg (not_not.mpr hcount)] at h
    injection h with h
    injection h with _ hdecoded _
    have hbuffer := congrArg List.length hdecoded
    rw [List.length_take, List.length_append, List.length_drop, length_resize] at hbuffer
    -- a negative result would stand for a length above the greatest of a vector
    have hword : (calculateDecodeLength (base64 b)).toNat = (r.1 % 2 ^ 64).toNat := by
      rw [← hcount]
      exact toNat_ofInt r.1
    have hint := toInt_lt (base64 b).length
    have hresult : (b.length : Int) = r.1 := by omega
    unfold toInt at hle
    split at hle <;> omega
  · rw [if_pos hcount] at h
    injection h with h
    injection h with hresult
    cases hresult

/-- Decoding the text of a byte string gives the byte string back, within the vector's buffer, exactly where the
number of bytes is no multiple of three and the length of the text is one of an `int`. -/
theorem base64Decode_base64_iff (hb : b ≠ []) :
    base64Decode bio (base64 b) old = .ok ⟨0, b, []⟩ ↔ b.length % 3 ≠ 0 ∧ (base64 b).length < 2 ^ 31 := by
  constructor
  · intro h
    have hlen := length_lt_of_decoded old hb h
    refine ⟨fun hthree => ?_, hlen⟩
    rw [base64Decode_base64 old hb hlen, if_pos hthree] at h
    injection h with h
    injection h with hresult
    cases hresult
  · rintro ⟨hthree, hlen⟩
    rw [base64Decode_base64 old hb hlen, if_neg hthree]

end

/-! ## A filter -/

/-- All of a text is read at once, where the call asks for as many bytes. -/
def readWhole (text : Bytes) (size : Int) : Int × Bytes :=
  match unbase64 text with
  | some b => if (b.length : Int) ≤ size then ((b.length : Int), b) else (0, [])
  | none => (-1, [])

theorem readWhole_ge (text : Bytes) (size : Int) : -2 ^ 31 ≤ (readWhole text size).1 := by
  unfold readWhole
  split
  · split
    · omega
    · norm_num
  · norm_num

theorem readWhole_le (text : Bytes) (size : Int) : (readWhole text size).1 ≤ max size 0 := by
  unfold readWhole
  split
  · split
    · rename_i h
      exact le_trans h (le_max_left _ _)
    · exact le_max_right _ _
  · exact le_trans (by norm_num) (le_max_right _ _)

theorem length_readWhole (text : Bytes) (size : Int) :
    (readWhole text size).2.length = (readWhole text size).1.toNat := by
  unfold readWhole
  split
  · split
    · exact (Int.toNat_natCast _).symm
    · rfl
  · rfl

theorem readWhole_base64 (b : Bytes) (size : Int) (_ : b ≠ []) (hle : (b.length : Int) ≤ size) :
    readWhole (base64 b) size = ((b.length : Int), b) := by
  simp only [readWhole, unbase64_base64]
  rw [if_pos hle]

/-- The filter that reads like this. -/
def wholeBio : Base64Bio where
  read := readWhole
  result_ge := readWhole_ge
  result_le := readWhole_le
  length_written := length_readWhole
  read_base64 := readWhole_base64

theorem base64Decode_base64_iff_ma :
    base64Decode wholeBio (base64 (ascii "Ma")) [] = .ok ⟨0, ascii "Ma", []⟩ :=
  (base64Decode_base64_iff [] (by decide)).mpr ⟨by decide, by decide +kernel⟩

/-- The text `TWFu` of the three bytes `Man` is refused; `n` is written behind the two bytes of the vector. -/
theorem base64Decode_man :
    base64 (ascii "Man") = ascii "TWFu" ∧
      base64Decode wholeBio (ascii "TWFu") [] = .ok ⟨1, ascii "Ma", ascii "n"⟩ := by
  decide +kernel

end SwarmDb.Utils
