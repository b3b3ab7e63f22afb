import SwarmDb.Esr.EsrPeerInfo
import SwarmDb.Lib.Abi

/-!
# What is asked of the registry

The data of a call are a selector of four bytes and the encoding of the arguments. The first call pads each of its parts
on the right, so that its words line up only once the parts are put together (`getPeersHead`).
-/

namespace SwarmDb

open Lib

/-- The selector of `getPeers`. -/
def getPeersSelector : Bytes := [0x46, 0xe7, 0x6d, 0x8b]

/-- The selector of `getPeerInfo`. -/
def getPeerInfoSelector : Bytes := [0xcc, 0x85, 0x75, 0xcb]

theorem sizeTypeToHex_eq {i width : Nat} (hwidth : 8 ≤ width) (hi : i < 2 ^ 32) :
    sizeTypeToHex i width = paddedHex width i := by
  have hdigits : i < 16 ^ width := Nat.lt_of_lt_of_le hi (Nat.pow_le_pow_right (n := 16) (by decide) hwidth)
  rw [sizeTypeToHex, Nat.mod_eq_of_lt hi, leftpad_hexadecimal (by omega) hdigits]

theorem sizeTypeToHex_word {i : Nat} (hi : i < 2 ^ 32) : sizeTypeToHex i 64 = hex (Abi.word i) := by
  rw [sizeTypeToHex_eq (by decide) hi, Abi.word, hex_bigEndian]

/-- Zeros up to a whole number of words, also where there are none to add. -/
theorem padStrToMod64_eq (t : Bytes) : padStrToMod64 t = t ++ List.replicate ((64 - t.length % 64) % 64) 48 := by
  rw [padStrToMod64, requiredSizeMultiple]
  split
  · rw [Nat.mod_eq_of_lt (a := 64 - t.length % 64) (by omega)]
  · rename_i h
    rw [Decidable.not_not.mp h, Nat.sub_zero, Nat.mod_self, List.replicate_zero, List.append_nil]

theorem sameHex_padStrToMod64 (s : Bytes) : SameHex (padStrToMod64 (stringToHex s)) (hex (Abi.padded s)) := by
  have hzeros : (64 - 2 * s.length % 64) % 64 = 2 * ((32 - s.length % 32) % 32) := by omega
  rw [padStrToMod64_eq, stringToHex, length_upperHex, hzeros, Abi.padded, hex_append, hex_replicate]
  exact (sameHex_upperHex s).append (SameHex.refl _)

theorem sameHex_string {s : Bytes} (h : s.length < 2 ^ 32) :
    SameHex (sizeTypeToHex s.length 64 ++ padStrToMod64 (stringToHex s)) (hex (Abi.string s)) := by
  rw [sizeTypeToHex_word h, Abi.string, hex_append]
  exact (SameHex.refl _).append (sameHex_padStrToMod64 s)

/-- The zeros behind a part are those in front of the number in the next part. -/
theorem getPeersHead {n : Nat} (h : n < 2 ^ 32) :
    padStrToMod64 getPeersAddress ++ padStrToMod64 (ascii "00000020") ++ sizeTypeToHex n 8 =
      hex (getPeersSelector ++ Abi.word 32 ++ Abi.word n) := by
  have hselector : getPeersAddress = hex getPeersSelector := by decide
  have hposition : hex (Abi.word 32) = List.replicate 56 48 ++ ascii "00000020" := by decide +kernel
  have hnumber : hex (Abi.word n) = List.replicate 56 48 ++ paddedHex 8 n := by
    rw [Abi.word, hex_bigEndian, ← paddedHex_add h]
  rw [padStrToMod64_eq, padStrToMod64_eq, sizeTypeToHex_eq (by decide) h, hex_append, hex_append, hposition, hnumber,
    ← hselector]
  simp only [List.append_assoc]
  rfl

/-- The data of both calls are the encodings of their arguments. -/
theorem dataStrings_encode {swarmId peerId : Bytes} (hswarmId : swarmId.length < 2 ^ 29)
    (hpeerId : peerId.length < 2 ^ 29) :
    SameHex (dataStringForGetPeers swarmId)
        (ascii "0x" ++ hex (getPeersSelector ++ Abi.dynamicTuple [Abi.string swarmId])) ∧
      SameHex (dataStringForGetPeerInfo swarmId peerId)
        (ascii "0x" ++ hex (getPeerInfoSelector ++ Abi.dynamicTuple [Abi.string swarmId, Abi.string peerId])) := by
  have hlength : (sizeTypeToHex swarmId.length 64 ++ padStrToMod64 (stringToHex swarmId)).length =
      2 * (Abi.string swarmId).length := by
    rw [(sameHex_string (by omega)).length_eq, length_hex]
  refine ⟨?_, ?_⟩
  · have hgroup : dataStringForGetPeers swarmId = ascii "0x" ++
        (padStrToMod64 getPeersAddress ++ padStrToMod64 (ascii "00000020") ++ sizeTypeToHex swarmId.length 8 ++
          padStrToMod64 (stringToHex swarmId)) := by
      simp only [dataStringForGetPeers, List.append_assoc]
    have hencoding : getPeersSelector ++ Abi.dynamicTuple [Abi.string swarmId] =
        getPeersSelector ++ Abi.word 32 ++ Abi.word swarmId.length ++ Abi.padded swarmId := by
      rw [Abi.dynamicTuple_singleton, Abi.string]
      simp only [List.append_assoc]
    rw [hgroup, hencoding, getPeersHead (by omega),
      hex_append (getPeersSelector ++ Abi.word 32 ++ Abi.word swarmId.length)]
    exact (SameHex.refl _).append ((SameHex.refl _).append (sameHex_padStrToMod64 swarmId))
  · have hencoding : Abi.dynamicTuple [Abi.string swarmId, Abi.string peerId] =
        Abi.word 64 ++ Abi.word (64 + (Abi.string swarmId).length) ++ Abi.string swarmId ++ Abi.string peerId := by
      simp only [Abi.dynamicTuple, Abi.offsets, List.flatten_cons, List.flatten_nil, List.append_nil, List.append_assoc,
        List.length_cons, List.length_nil]
    have hsignature : getPeerInfoSignature = ascii "0x" ++ hex getPeerInfoSelector := by decide
    have hoffset : 64 + (Abi.string swarmId).length < 2 ^ 32 := by
      rw [Abi.length_string]
      omega
    rw [dataStringForGetPeerInfo, hlength, parameterOffset, Nat.mul_div_cancel_left _ (by decide),
      sizeTypeToHex_word (by decide), sizeTypeToHex_word hoffset, hsignature, hencoding]
    simp only [hex_append, List.append_assoc]
    refine (SameHex.refl _).append ((SameHex.refl _).append ((SameHex.refl _).append ((SameHex.refl _).append ?_)))
    rw [← List.append_assoc]
    exact (sameHex_string (by omega)).append (sameHex_string (by omega))

theorem dataStrings_encode_ids :
    SameHex (dataStringForGetPeers (ascii "BluzelleSwarm"))
        (ascii "0x" ++ hex (getPeersSelector ++ Abi.dynamicTuple [Abi.string (ascii "BluzelleSwarm")])) ∧
      SameHex (dataStringForGetPeerInfo (ascii "BluzelleSwarm") [])
        (ascii "0x" ++ hex (getPeerInfoSelector ++
          Abi.dynamicTuple [Abi.string (ascii "BluzelleSwarm"), Abi.string []])) :=
  dataStrings_encode (by decide) (by decide)

end SwarmDb
