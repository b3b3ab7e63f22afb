import SwarmDb.Lib.Hex

/-!
# The ABI of contracts

How values are encoded in words of 32 bytes: numbers (`word`), strings of bytes
(`string`), and several values of dynamic types, as their offsets followed by the
values (`dynamicTuple`), which is also the form of an array (`stringArray`).
`stringWords` and `stringArrayWords` are the words of which an encoding consists.
-/

namespace SwarmDb.Lib.Abi

/-- A number, the greatest byte first. -/
def word (n : Nat) : Bytes := bigEndian 32 n

/-- A text with zeros behind it, up to a whole number of words. -/
def padded (s : Bytes) : Bytes := s ++ List.replicate ((32 - s.length % 32) % 32) 0

def string (s : Bytes) : Bytes := word s.length ++ padded s

/-- The positions of values that stand one behind another. -/
def offsets : Nat → List Bytes → List Bytes
  | _, [] => []
  | first, part :: parts => word first :: offsets (first + part.length) parts

/-- Values of dynamic types: the position of each, from the start, and then the values. -/
def dynamicTuple (parts : List Bytes) : Bytes := (offsets (32 * parts.length) parts).flatten ++ parts.flatten

def stringArray (l : List Bytes) : Bytes := word l.length ++ dynamicTuple (l.map string)

/-! ## Words -/

/-- The words of a text. -/
def dataWords (s : Bytes) : List Bytes := blocks 32 (padded s)

def stringWords (s : Bytes) : List Bytes := word s.length :: dataWords s

def stringArrayWords (l : List Bytes) : List Bytes :=
  word l.length :: (offsets (32 * (l.map string).length) (l.map string) ++ l.flatMap stringWords)

theorem length_word (n : Nat) : (word n).length = 32 := length_bigEndian 32 n

theorem strtoul16_word {n : Nat} (h : n < 2 ^ 64) : strtoul16 (hex (word n)) = UInt64.ofNat n := by
  rw [strtoul16_of_unhex (unhex_hex _), word, ofBigEndian_bigEndian, Nat.mod_eq_of_lt (Nat.lt_trans h (by decide)),
    if_neg (by omega)]

theorem length_padded (s : Bytes) : (padded s).length = 32 * ((s.length + 31) / 32) := by
  rw [padded, List.length_append, List.length_replicate]
  omega

theorem length_string (s : Bytes) : (string s).length = 32 + 32 * ((s.length + 31) / 32) := by
  rw [string, List.length_append, length_word, length_padded]

theorem length_dataWords (s : Bytes) : (dataWords s).length = (s.length + 31) / 32 := by
  rw [dataWords, blocks, List.length_map, List.length_range, length_padded, Nat.mul_div_cancel_left _ (by decide)]

theorem flatten_dataWords (s : Bytes) : (dataWords s).flatten = padded s :=
  flatten_blocks (by decide) (Dvd.intro _ (length_padded s).symm)

variable {s w : Bytes} {l : List Bytes}

theorem length_of_mem_dataWords (h : w ∈ dataWords s) : w.length = 32 :=
  length_of_mem_blocks (by decide) h

/-- A text of at most 32 bytes takes one word. -/
theorem dataWords_of_le (hs : s ≠ []) (h : s.length ≤ 32) : dataWords s = [padded s] := by
  have hpos : 0 < s.length := List.length_pos_iff.mpr hs
  have hlength : (padded s).length = 32 := by
    rw [length_padded]
    omega
  rw [dataWords, ← List.append_nil (padded s), blocks_append (by decide) hlength, blocks_of_lt (by decide),
    List.append_nil]

theorem dataWords_of_lt (h : 32 < s.length) : dataWords s = s.take 32 :: dataWords (s.drop 32) := by
  have hfirst : (s.take 32).length = 32 := by
    rw [List.length_take]
    omega
  have hrest : padded s = s.take 32 ++ padded (s.drop 32) := by
    have hsize : s.length % 32 = (s.drop 32).length % 32 := by
      rw [List.length_drop]
      omega
    rw [padded, padded, ← List.append_assoc, List.take_append_drop, hsize]
  rw [dataWords, hrest, blocks_append (by decide) hfirst, dataWords]

theorem flatten_stringWords (s : Bytes) : (stringWords s).flatten = string s := by
  rw [stringWords, List.flatten_cons, flatten_dataWords, string]

theorem length_of_mem_stringWords (h : w ∈ stringWords s) : w.length = 32 := by
  rcases List.mem_cons.mp h with hw | h
  · rw [hw, length_word]
  · exact length_of_mem_dataWords h

theorem length_offsets (first : Nat) (parts : List Bytes) : (offsets first parts).length = parts.length := by
  induction parts generalizing first with
  | nil => rfl
  | cons part parts ih => rw [offsets, List.length_cons, ih, List.length_cons]

theorem length_of_mem_offsets {first : Nat} {parts : List Bytes} (h : w ∈ offsets first parts) : w.length = 32 := by
  induction parts generalizing first with
  | nil => cases h
  | cons part parts ih =>
    rcases List.mem_cons.mp h with hw | h
    · rw [hw, length_word]
    · exact ih h

theorem flatten_stringArrayWords (l : List Bytes) : (stringArrayWords l).flatten = stringArray l := by
  have hstrings : (l.flatMap stringWords).flatten = (l.map string).flatten := by
    induction l with
    | nil => rfl
    | cons s l ih => rw [List.flatMap_cons, List.flatten_append, flatten_stringWords, ih, List.map_cons,
      List.flatten_cons]
  rw [stringArrayWords, List.flatten_cons, List.flatten_append, hstrings, stringArray, dynamicTuple]

theorem length_of_mem_stringArrayWords (h : w ∈ stringArrayWords l) : w.length = 32 := by
  rcases List.mem_cons.mp h with hw | h
  · rw [hw, length_word]
  · rcases List.mem_append.mp h with h | h
    · exact length_of_mem_offsets h
    · obtain ⟨s, -, hs⟩ := List.mem_flatMap.mp h
      exact length_of_mem_stringWords hs

/-- A single value stands behind its position. -/
theorem dynamicTuple_singleton (part : Bytes) : dynamicTuple [part] = word 32 ++ part := by
  simp only [dynamicTuple, offsets, List.flatten_cons, List.flatten_nil, List.append_nil, List.length_singleton]

theorem length_dynamicTuple (parts : List Bytes) :
    (dynamicTuple parts).length = 32 * parts.length + parts.flatten.length := by
  have hoffsets : ∀ first, (offsets first parts).flatten.length = 32 * parts.length := by
    induction parts with
    | nil => exact fun _ => rfl
    | cons part parts ih =>
      intro first
      rw [offsets, List.flatten_cons, List.length_append, length_word, ih, List.length_cons]
      omega
  rw [dynamicTuple, List.length_append, hoffsets]

theorem length_stringArray (l : List Bytes) :
    (stringArray l).length = 32 + (32 * l.length + (l.map string).flatten.length) := by
  rw [stringArray, List.length_append, length_word, length_dynamicTuple, List.length_map]

theorem length_le_stringArray (h : s ∈ l) : s.length ≤ (stringArray l).length := by
  have hsublist := (List.sublist_flatten_of_mem (List.mem_map_of_mem (f := string) h)).length_le
  rw [length_string] at hsublist
  rw [length_stringArray]
  omega

/-! ## Padding -/

theorem rdropWhile_append_zeros (h : s.getLast? ≠ some 0) (n : Nat) :
    (s ++ List.replicate n 0).rdropWhile (fun c => c = 0) = s := by
  rw [List.rdropWhile, List.reverse_append, List.reverse_replicate, List.dropWhile_append_of_pos (by simp)]
  rw [List.getLast?_eq_head?_reverse] at h
  cases hs : s.reverse with
  | nil => rw [List.reverse_eq_nil_iff.mp hs]; rfl
  | cons c t =>
    rw [hs, List.head?_cons] at h
    rw [List.dropWhile_cons_of_neg (by simpa using h), ← hs, List.reverse_reverse]

/-- The zeros behind a text that does not end in one can be told from it. -/
theorem rdropWhile_padded (h : s.getLast? ≠ some 0) : (padded s).rdropWhile (fun c => c = 0) = s :=
  rdropWhile_append_zeros h _

end SwarmDb.Lib.Abi
