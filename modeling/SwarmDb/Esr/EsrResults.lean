import SwarmDb.Esr.EsrPeerInfo
import SwarmDb.Lib.Abi
import SwarmDb.Lib.Program
import SwarmDb.Lib.Words

/-!
# Reading the answers of the registry

An answer is a sequence of words, each a line of digits (`responseLines_of_sameHex`), so the parsers are followed word
by word. The list of peers is read back from its encoding, element by element (`readLines_string`); the address of a
peer is read back where its host takes one word.
-/

namespace SwarmDb

open Lib Program

/-! ## Lines and words -/

variable {words : List Bytes}

/-- The lines of the digits of some words, in either case. -/
theorem responseLines_of_sameHex {result : Bytes} (h : SameHex result (hex words.flatten))
    (hwords : ∀ w ∈ words, w.length = 32) :
    List.Forall₂ (fun line w => unhex line = .ok w) (responseLines result) words := by
  have hnul : result.takeWhile (fun c => c ≠ 0) = result := by
    refine List.takeWhile_eq_self_iff.mpr fun c hc => ?_
    have hdigit := (foldl_of_unhex (unhex_of_sameHex h) 0).2 c hc
    rw [decide_eq_true_eq]
    rintro rfl
    cases hdigit
  rw [responseLines, hnul]
  clear hnul
  induction words generalizing result with
  | nil =>
    obtain rfl : result = [] := List.length_eq_zero_iff.mp h.length_eq
    exact .nil
  | cons w words ih =>
    rw [List.flatten_cons, hex_append] at h
    obtain ⟨line, rest, rfl, hline, hrest⟩ := h.split
    have hlength : line.length = esrResponseLineLength := by
      rw [hline.length_eq, length_hex, hwords w (List.mem_cons_self ..)]
      rfl
    rw [blocks_append (by decide) hlength]
    exact .cons (unhex_of_sameHex hline) (ih hrest fun w hw => hwords w (List.mem_cons_of_mem _ hw))

/-! ## The list of peers -/

variable {line w s host : Bytes} {lines results : List Bytes}

/-- A line counts for the bytes that its digits stand for. -/
theorem PeersParser.readLine_eq_of_unhex (p : PeersParser) (h : unhex line = .ok w) :
    p.readLine line = p.readLine (hex w) := by
  rw [readLine, readLine, hexToCharString, hexToCharString, h, unhex_hex, strtoul16_of_unhex h,
    strtoul16_of_unhex (unhex_hex w)]

theorem PeersParser.readLines_eq_of_unhex (p : PeersParser)
    (h : List.Forall₂ (fun line w => unhex line = .ok w) lines words) :
    p.readLines lines = p.readLines (words.map hex) := by
  induction h generalizing p with
  | nil => rfl
  | @cons line w lines words hline _ ih =>
    rw [readLines, p.readLine_eq_of_unhex hline]
    refine congrArg _ (funext fun read => ?_)
    cases read with
    | none => rfl
    | some p => exact ih p

theorem PeersParser.readLines_cons {p p' : PeersParser} (h : p.readLine line = .ok (some p')) (lines : List Bytes) :
    p.readLines (line :: lines) = p'.readLines lines := by
  rw [readLines, h]
  rfl

/-- The parser before the length of an element. -/
structure PeersParser.Expecting (p : PeersParser) (results : List Bytes) : Prop where
  state : p.state = .peerIdSize
  peerId : p.peerId = []
  results : p.results = results

variable {p : PeersParser}

/-- The offsets of the elements are passed over; the number of lines tells where they end. -/
theorem PeersParser.readLines_offsets (hstate : p.state = .headerInfo)
    (hpeerId : p.peerId = []) (hwords : words ≠ []) (hindex : p.index.toNat + words.length = p.nodeCount.toNat + 2)
    (hfits : p.nodeCount.toNat + 2 < 2 ^ 64) (lines : List Bytes) :
    ∃ p' : PeersParser, p'.Expecting p.results ∧ p.readLines (words.map hex ++ lines) = p'.readLines lines := by
  induction words generalizing p with
  | nil => exact absurd rfl hwords
  | cons w words ih =>
    rw [List.length_cons] at hindex
    have hcount : (p.nodeCount + 1).toNat = p.nodeCount.toNat + 1 := toNat_add_ofNat (i := 1) (by omega)
    have hnext : (p.index + 1).toNat = p.index.toNat + 1 := toNat_add_ofNat (i := 1) (by omega)
    rw [List.map_cons, List.cons_append]
    by_cases hlast : p.index = p.nodeCount + 1
    · have hread : p.readLine (hex w) = .ok (some { p with state := .peerIdSize, index := p.index + 1 }) := by
        rw [readLine, hstate, if_pos hlast]
        rfl
      have hnil : words = [] := by
        rw [hlast] at hindex
        exact List.length_eq_zero_iff.mp (by omega)
      refine ⟨{ p with state := .peerIdSize, index := p.index + 1 }, ⟨rfl, hpeerId, rfl⟩, ?_⟩
      rw [readLines_cons hread, hnil, List.map_nil, List.nil_append]
    · have hread : p.readLine (hex w) = .ok (some { p with state := .headerInfo, index := p.index + 1 }) := by
        rw [readLine, hstate, if_neg hlast]
        rfl
      have hne : words ≠ [] := by
        rintro rfl
        rw [List.length_nil] at hindex
        exact hlast (UInt64.toNat_inj.mp (by omega))
      rw [readLines_cons hread]
      exact ih (p := { p with state := .headerInfo, index := p.index + 1 }) rfl hpeerId hne
        (by dsimp only; rw [hnext]; omega) hfits

/-- The words of an element are collected until they make up its length. -/
theorem PeersParser.readLines_data (hstate : p.state = .peerId)
    (hwords : ∀ w ∈ words, w.length = 32) (hne : words ≠ [])
    (hlower : p.peerId.length + 32 * (words.length - 1) < p.peerIdLength.toNat)
    (hupper : p.peerIdLength.toNat ≤ p.peerId.length + 32 * words.length) (lines : List Bytes) :
    ∃ p' : PeersParser, p'.Expecting (p.results ++ [trimRightNulls (p.peerId ++ words.flatten)]) ∧
      p.readLines (words.map hex ++ lines) = p'.readLines lines := by
  induction words generalizing p with
  | nil => exact absurd rfl hne
  | cons w words ih =>
    have hw := hwords w (List.mem_cons_self ..)
    rw [List.length_cons] at hlower hupper
    rw [List.flatten_cons]
    by_cases henough : p.peerIdLength.toNat ≤ (p.peerId ++ w).length
    · have hread : p.readLine (hex w) = .ok (some { p with
          state := .peerIdSize, results := p.results ++ [trimRightNulls (p.peerId ++ w)], peerId := [], index :=
            p.index + 1 }) := by
        rw [readLine, hstate, hexToCharString, unhex_hex]
        change Except.ok (Option.map _ (some (if _ then _ else _))) = _
        rw [if_pos henough]
        rfl
      have hnil : words = [] := by
        rw [List.length_append] at henough
        exact List.length_eq_zero_iff.mp (by omega)
      subst hnil
      rw [List.flatten_nil, List.append_nil]
      exact ⟨_, ⟨rfl, rfl, rfl⟩, readLines_cons hread _⟩
    · have hread : p.readLine (hex w) = .ok (some { p with peerId := p.peerId ++ w, index := p.index + 1 }) := by
        rw [readLine, hstate, hexToCharString, unhex_hex]
        change Except.ok (Option.map _ (some (if _ then _ else _))) = _
        rw [if_neg henough]
        rfl
      rw [List.length_append] at henough
      have hne' : words ≠ [] := by
        rintro rfl
        rw [List.length_nil] at hupper
        omega
      obtain ⟨p', hp', hrun⟩ := ih (p := { p with peerId := p.peerId ++ w, index := p.index + 1 }) hstate
        (fun w hw => hwords w (List.mem_cons_of_mem _ hw)) hne'
        (by dsimp only; rw [List.length_append]; omega) (by dsimp only; rw [List.length_append]; omega)
      rw [List.append_assoc] at hp'
      exact ⟨p', hp', (readLines_cons hread _).trans hrun⟩

/-- An element is added where it is not empty. -/
theorem PeersParser.readLines_string (hp : p.Expecting results) {id : Bytes} (hnul : id.getLast? ≠ some 0)
    (hfits : id.length < 2 ^ 64) (lines : List Bytes) :
    ∃ p' : PeersParser, p'.Expecting (results ++ [id].filter (· ≠ [])) ∧
      p.readLines ((Abi.stringWords id).map hex ++ lines) = p'.readLines lines := by
  have hlength := Abi.strtoul16_word hfits
  by_cases hid : id = []
  · subst hid
    have hread : p.readLine (hex (Abi.word ([] : Bytes).length)) =
        .ok (some { p with peerIdLength := 0, nodeCount := p.nodeCount - 1, index := p.index + 1 }) := by
      rw [readLine, hp.state, hlength]
      rfl
    exact ⟨{ p with peerIdLength := 0, nodeCount := p.nodeCount - 1, index := p.index + 1 },
      ⟨hp.state, hp.peerId, hp.results.trans (List.append_nil _).symm⟩, readLines_cons hread _⟩
  · have hpos : 0 < id.length := List.length_pos_iff.mpr hid
    have htoNat : (UInt64.ofNat id.length).toNat = id.length := UInt64.toNat_ofNat_of_lt' hfits
    have hread : p.readLine (hex (Abi.word id.length)) =
        .ok (some { p with state := .peerId, peerIdLength := UInt64.ofNat id.length, index := p.index + 1 }) := by
      have hne : UInt64.ofNat id.length ≠ 0 := fun h => by
        rw [h] at htoNat
        exact absurd htoNat.symm (Nat.ne_of_gt hpos)
      rw [readLine, hp.state, hlength]
      change Except.ok (Option.map _ (some (if _ then _ else _))) = _
      rw [if_pos hne]
      rfl
    have hwords := Abi.length_dataWords id
    have hne : Abi.dataWords id ≠ [] := List.ne_nil_of_length_pos (by omega)
    obtain ⟨p', hp', hrun⟩ := readLines_data
      (p := { p with state := .peerId, peerIdLength := UInt64.ofNat id.length, index := p.index + 1 }) rfl
      (fun w hw => Abi.length_of_mem_dataWords hw) hne
      (by dsimp only; rw [hp.peerId, List.length_nil]; omega)
      (by dsimp only; rw [htoNat]; omega) lines
    refine ⟨p', ?_, (readLines_cons hread _).trans hrun⟩
    rw [hp.peerId, List.nil_append, Abi.flatten_dataWords, trimRightNulls, Abi.rdropWhile_padded hnul,
      hp.results] at hp'
    rwa [List.filter_cons_of_pos (by simpa using hid), List.filter_nil]

theorem PeersParser.readLines_strings (hp : p.Expecting results) {ids : List Bytes}
    (hnul : ∀ id ∈ ids, id.getLast? ≠ some 0) (hfits : ∀ id ∈ ids, id.length < 2 ^ 64) :
    p.readLines ((ids.flatMap Abi.stringWords).map hex) = .ok (results ++ ids.filter (· ≠ [])) := by
  induction ids generalizing p results with
  | nil =>
    rw [List.filter_nil, List.append_nil, ← hp.results]
    rfl
  | cons id ids ih =>
    obtain ⟨p', hp', hrun⟩ := readLines_string hp (hnul id (List.mem_cons_self ..)) (hfits id (List.mem_cons_self ..))
      ((ids.flatMap Abi.stringWords).map hex)
    rw [List.flatMap_cons, List.map_append, hrun, ih hp' (fun id hid => hnul id (List.mem_cons_of_mem _ hid))
      fun id hid => hfits id (List.mem_cons_of_mem _ hid), List.append_assoc, ← List.filter_append,
        List.singleton_append]

/-- The two words before the offsets: a position, which is not looked at, and the number of elements. -/
theorem PeersParser.readLines_header {count : Nat} (hcount : count ≠ 0) (hfits : count < 2 ^ 64) (position : Bytes)
    (lines : List Bytes) :
    PeersParser.readLines {} (hex position :: hex (Abi.word count) :: lines) =
      PeersParser.readLines { state := .headerInfo, nodeCount := UInt64.ofNat count, index := 2 } lines := by
  have hne : UInt64.ofNat count ≠ 0 := fun h => by
    have htoNat : (UInt64.ofNat count).toNat = count := UInt64.toNat_ofNat_of_lt' hfits
    rw [h] at htoNat
    exact hcount htoNat.symm
  have hsize : readLine { state := .headerSwarmSize, index := 1 } (hex (Abi.word count)) =
      .ok (some { state := .headerInfo, nodeCount := UInt64.ofNat count, index := 2 }) := by
    rw [readLine, Abi.strtoul16_word hfits]
    change Except.ok (Option.map _ (if _ then _ else _)) = _
    rw [if_neg hne]
    rfl
  exact (readLines_cons rfl _).trans (readLines_cons hsize _)

/-- The list of peers is read back from its encoding, in digits of either case,
without the peers that were deleted. -/
theorem parseGetPeersResult_inverts {ids : List Bytes} {result : Bytes} (hids : ids ≠ [])
    (hnul : ∀ id ∈ ids, id.getLast? ≠ some 0)
    (hresult : SameHex result (hex (Abi.dynamicTuple [Abi.stringArray ids]))) (hfits : result.length < 2 ^ 64) :
    parseGetPeersResultToVector result = .ok (ids.filter (· ≠ [])) := by
  have hwords : Abi.dynamicTuple [Abi.stringArray ids] = (Abi.word 32 :: Abi.stringArrayWords ids).flatten := by
    rw [Abi.dynamicTuple_singleton, List.flatten_cons, Abi.flatten_stringArrayWords]
  have hall : ∀ w ∈ Abi.word 32 :: Abi.stringArrayWords ids, w.length = 32 :=
    List.forall_mem_cons.mpr ⟨Abi.length_word 32, fun w hw => Abi.length_of_mem_stringArrayWords hw⟩
  -- every length and count is that of a part of the answer
  have hlength : 2 * (32 + (Abi.stringArray ids).length) < 2 ^ 64 := by
    rwa [hresult.length_eq, length_hex, Abi.dynamicTuple_singleton, List.length_append, Abi.length_word] at hfits
  have harray := Abi.length_stringArray ids
  have hcount : (UInt64.ofNat ids.length).toNat = ids.length := UInt64.toNat_ofNat_of_lt' (show _ < 2 ^ 64 by omega)
  rw [hwords] at hresult
  rw [parseGetPeersResultToVector, PeersParser.readLines_eq_of_unhex _ (responseLines_of_sameHex hresult hall),
    Abi.stringArrayWords, List.map_cons, List.map_cons,
    PeersParser.readLines_header (mt List.length_eq_zero_iff.mp hids) (by omega), List.map_append]
  have hoffsets : (Abi.offsets (32 * (ids.map Abi.string).length) (ids.map Abi.string)).length = ids.length := by
    rw [Abi.length_offsets, List.length_map]
  have hne : Abi.offsets (32 * (ids.map Abi.string).length) (ids.map Abi.string) ≠ [] :=
    List.ne_nil_of_length_pos (hoffsets ▸ List.length_pos_iff.mpr hids)
  obtain ⟨p, hp, hrun⟩ := PeersParser.readLines_offsets
    (p := { state := .headerInfo, nodeCount := UInt64.ofNat ids.length, index := 2 }) rfl rfl hne
    (by rw [hoffsets, hcount, Nat.add_comm]; rfl) (by rw [hcount]; omega)
    ((ids.flatMap Abi.stringWords).map hex)
  rw [hrun, PeersParser.readLines_strings hp hnul fun id hid => by
    have := Abi.length_le_stringArray hid
    omega]
  rfl

theorem parseGetPeersResult_inverts_three :
    parseGetPeersResultToVector (hex (Abi.dynamicTuple [Abi.stringArray [ascii "node-1", [], ascii "node-2"]])) =
      .ok [ascii "node-1", ascii "node-2"] :=
  parseGetPeersResult_inverts (by decide) (by decide) (SameHex.refl _) (by decide +kernel)

/-! ## The address of a peer -/

theorem PeerInfoParser.readLine_eq_of_unhex (p : PeerInfoParser) (h : unhex line = .ok w) :
    p.readLine line = p.readLine (hex w) := by
  rw [readLine, readLine, hexToCharString, hexToCharString, h, unhex_hex, strtoul16_of_unhex h,
    strtoul16_of_unhex (unhex_hex w)]

theorem PeerInfoParser.readLines_eq_of_unhex (p : PeerInfoParser)
    (h : List.Forall₂ (fun line w => unhex line = .ok w) lines words) :
    p.readLines lines = p.readLines (words.map hex) := by
  induction h generalizing p with
  | nil => rfl
  | @cons line w lines words hline _ ih =>
    rw [readLines, List.foldlM_cons, p.readLine_eq_of_unhex hline]
    exact congrArg _ (funext fun p => ih p)

theorem PeerInfoParser.readLines_cons {p p' : PeerInfoParser} (h : p.readLine line = .ok p') (lines : List Bytes) :
    p.readLines (line :: lines) = p'.readLines lines := by
  rw [readLines, List.foldlM_cons, h]
  rfl

theorem trimRightNulls_of_not_mem (h : 0 ∉ s) : trimRightNulls s = s := by
  have := Abi.rdropWhile_append_zeros (fun hlast => h (List.mem_of_getLast? hlast)) 0
  rwa [List.replicate_zero, List.append_nil] at this

theorem trimRightNulls_padded {t : Bytes} (hs : 0 ∉ s) (ht : 0 ∉ t) : trimRightNulls (s ++ Abi.padded t) = s ++ t := by
  rw [Abi.padded, ← List.append_assoc]
  refine Abi.rdropWhile_append_zeros (fun hlast => ?_) _
  rcases List.mem_append.mp (List.mem_of_getLast? hlast) with h | h
  · exact hs h
  · exact ht h

/-- The words of a name are added to it, up to its length. -/
theorem PeerInfoParser.readLines_name {p : PeerInfoParser} (hstate : p.state = .nodeName)
    (hsize : p.textSize.toNat = (p.name ++ s).length) (hname : 0 ∉ p.name) (hs : 0 ∉ s) :
    ∃ p' : PeerInfoParser, p.readLines ((Abi.dataWords s).map hex) = .ok p' ∧ p'.host = p.host ∧ p'.port = p.port ∧
      p'.name = p.name ++ s := by
  -- by induction on the length of what is left of the name
  induction hn : s.length using Nat.strongRecOn generalizing p s with
  | ind n ih =>
    by_cases hempty : s = []
    · subst hempty
      exact ⟨p, rfl, rfl, rfl, (List.append_nil _).symm⟩
    · by_cases hle : s.length ≤ 32
      · have hread : p.readLine (hex (Abi.padded s)) = .ok { p with state := .finished, name := p.name ++ s } := by
          rw [readLine, hstate, hexToCharString, unhex_hex]
          change Except.ok { p with state := if _ then _ else _, name := trimRightNulls _ } = _
          rw [trimRightNulls_padded hname hs, if_pos hsize]
        rw [Abi.dataWords_of_le hempty hle]
        exact ⟨_, readLines_cons hread _, rfl, rfl, rfl⟩
      · have hfirst : (s.take 32).length = 32 := by
          rw [List.length_take]
          omega
        have hnul : 0 ∉ p.name ++ s.take 32 := fun h => by
          rcases List.mem_append.mp h with h | h
          · exact hname h
          · exact hs (List.mem_of_mem_take h)
        have hshort : p.textSize.toNat ≠ (p.name ++ s.take 32).length := by
          rw [hsize, List.length_append, List.length_append]
          omega
        have hread : p.readLine (hex (s.take 32)) = .ok { p with name := p.name ++ s.take 32 } := by
          rw [readLine, hstate, hexToCharString, unhex_hex]
          change Except.ok { p with state := if _ then _ else _, name := trimRightNulls _ } = _
          rw [trimRightNulls_of_not_mem hnul, if_neg hshort]
        obtain ⟨p', hrun, hhost, hport, hname'⟩ := ih (s.drop 32).length (by rw [List.length_drop]; omega)
          (p := { p with name := p.name ++ s.take 32 }) (s := s.drop 32) hstate
          (by rw [hsize, List.append_assoc, List.take_append_drop]) hnul (fun h => hs (List.mem_of_mem_drop h)) rfl
        rw [Abi.dataWords_of_lt (by omega), List.map_cons, readLines_cons hread]
        refine ⟨p', hrun, hhost, hport, hname'.trans ?_⟩
        rw [List.append_assoc, List.take_append_drop]

/-- The host is not touched once it was read. -/
theorem PeerInfoParser.readLines_host {p p' : PeerInfoParser}
    (hstate : p.state ∈ [PeerInfoState.nodeNameSize, .nodeName, .finished]) (h : p.readLines lines = .ok p') :
    p'.host = p.host := by
  induction lines generalizing p with
  | nil =>
    cases h
    rfl
  | cons line lines ih =>
    obtain ⟨q, hq, h⟩ := except_bind_eq_ok.mp h
    have hkeeps : q.state ∈ [PeerInfoState.nodeNameSize, .nodeName, .finished] ∧ q.host = p.host := by
      rw [readLine] at hq
      simp only [List.mem_cons, List.not_mem_nil, or_false] at hstate ⊢
      rcases hstate with hstate | hstate | hstate <;> rw [hstate] at hq
      · cases hq
        exact ⟨.inr (.inl rfl), rfl⟩
      · obtain ⟨text, -, hq⟩ := except_bind_eq_ok.mp hq
        cases hq
        refine ⟨?_, rfl⟩
        split
        · exact .inr (.inr rfl)
        · exact .inr (.inl rfl)
      · cases hq
        exact ⟨.inr (.inr hstate), rfl⟩
    exact (ih hkeeps.1 h).trans hkeeps.2

/-- The parser after the four words of the head and the length of the host. -/
theorem PeerInfoParser.readLines_head (a b c : Bytes) (port : UInt16) (hhost : host.length < 2 ^ 64)
    (lines : List Bytes) :
    PeerInfoParser.readLines {}
        (hex a :: hex b :: hex c :: hex (Abi.word port.toNat) :: hex (Abi.word host.length) :: lines) =
      PeerInfoParser.readLines { state := .nodeHost, port := port, textSize := UInt64.ofNat host.length } lines := by
  have hport : readLine { state := .nodePort } (hex (Abi.word port.toNat)) =
      .ok { state := .nodeHostSize, port := port } := by
    rw [readLine, Abi.strtoul16_word (Nat.lt_trans port.toNat_lt (by decide))]
    change Except.ok ({ state := .nodeHostSize, port := (UInt64.ofNat port.toNat).toUInt16 } : PeerInfoParser) = _
    rw [UInt64.toUInt16_ofNat', UInt16.ofNat_toNat]
  have hsize : readLine { state := .nodeHostSize, port := port } (hex (Abi.word host.length)) =
      .ok { state := .nodeHost, port := port, textSize := UInt64.ofNat host.length } := by
    rw [readLine, Abi.strtoul16_word hhost]
    rfl
  exact (readLines_cons rfl _).trans ((readLines_cons rfl _).trans ((readLines_cons rfl _).trans
    ((readLines_cons hport _).trans (readLines_cons hsize _))))

/-- A host is read from one word, whatever its length is. -/
theorem PeerInfoParser.readLine_host (port : UInt16) (textSize : UInt64) (w : Bytes) :
    readLine { state := .nodeHost, port := port, textSize := textSize } (hex w) =
      .ok { state := .nodeNameSize, port := port, textSize := textSize, host := trimRightNulls w } := by
  rw [readLine, hexToCharString, unhex_hex]
  rfl

/-- A host of one word and a name are read back. -/
theorem PeerInfoParser.readLines_host_name (port : UInt16) (textSize : UInt64) {name : Bytes} (hne : host ≠ [])
    (hle : host.length ≤ 32) (hhost : 0 ∉ host) (hname : 0 ∉ name) (hfits : name.length < 2 ^ 64) :
    ∃ p : PeerInfoParser, PeerInfoParser.readLines { state := .nodeHost, port := port, textSize := textSize }
        ((Abi.dataWords host ++ Abi.stringWords name).map hex) = .ok p ∧
      p.host = host ∧ p.port = port ∧ p.name = name := by
  have htrim : trimRightNulls (Abi.padded host) = host := trimRightNulls_padded List.not_mem_nil hhost
  have hsize : readLine { state := .nodeNameSize, port := port, textSize := textSize, host := host }
      (hex (Abi.word name.length)) =
        .ok { state := .nodeName, port := port, textSize := UInt64.ofNat name.length, host := host } := by
    rw [readLine, Abi.strtoul16_word hfits]
    rfl
  obtain ⟨p, hrun, hhost', hport, hname'⟩ := readLines_name (s := name)
    (p := { state := .nodeName, port := port, textSize := UInt64.ofNat name.length, host := host }) rfl
    (UInt64.toNat_ofNat_of_lt' hfits) List.not_mem_nil hname
  refine ⟨p, ?_, hhost', hport, hname'⟩
  rw [Abi.dataWords_of_le hne hle, Abi.stringWords, List.singleton_append, List.map_cons, List.map_cons,
    readLines_cons (readLine_host port textSize _), htrim, readLines_cons hsize, hrun]

/-- The host that is returned is that of the first word after its length. -/
theorem PeerInfoParser.host_of_readLines {port : UInt16} {textSize : UInt64} {p : PeerInfoParser}
    (h : PeerInfoParser.readLines { state := .nodeHost, port := port, textSize := textSize } (hex w :: lines) = .ok p) :
    p.host = trimRightNulls w := by
  rw [readLines_cons (readLine_host port textSize w)] at h
  exact readLines_host (List.mem_cons_self ..) h

/-- The number of a word that is not zero is not trimmed away. -/
theorem trimRightNulls_word_ne {n : Nat} (hn : n ≠ 0) (hfits : n < 2 ^ 64) : trimRightNulls (Abi.word n) ≠ [] := by
  intro h
  have hzeros : ∀ c ∈ Abi.word n, c = 0 := fun c hc => by
    have := List.rdropWhile_eq_nil_iff.mp h c hc
    rwa [decide_eq_true_eq] at this
  have hvalue := ofBigEndian_zeros hzeros
  rw [Abi.word, ofBigEndian_bigEndian, Nat.mod_eq_of_lt (Nat.lt_trans hfits (by decide))] at hvalue
  exact hn hvalue

theorem parseGetPeerInfoResult_inverts_iff {a b c host name result : Bytes} (port : UInt16) (peerId : Bytes)
    (ha : a.length = 32) (hb : b.length = 32) (hc : c.length = 32) (hhost : 0 ∉ host) (hname : 0 ∉ name)
    (hresult : SameHex result
      (hex (a ++ b ++ c ++ Abi.word port.toNat ++ Abi.string host ++ Abi.string name)))
    (hfits : result.length < 2 ^ 64) :
    parseGetPeerInfoResultToPeerAddress peerId result = .ok ⟨host, port, name, peerId⟩ ↔
      (host ≠ [] ∧ host.length ≤ 32) ∨ (host = [] ∧ name = []) := by
  have hlengths : 2 * (128 + ((Abi.string host).length + (Abi.string name).length)) < 2 ^ 64 := by
    rw [hresult.length_eq, length_hex] at hfits
    simp only [List.length_append, ha, hb, hc, Abi.length_word] at hfits
    omega
  rw [Abi.length_string, Abi.length_string] at hlengths
  have hhostFits : host.length < 2 ^ 64 := by omega
  have hnameFits : name.length < 2 ^ 64 := by omega
  have hwords : a ++ b ++ c ++ Abi.word port.toNat ++ Abi.string host ++ Abi.string name =
      (a :: b :: c :: Abi.word port.toNat :: (Abi.stringWords host ++ Abi.stringWords name)).flatten := by
    simp only [List.flatten_cons, List.flatten_append, Abi.flatten_stringWords, List.append_assoc]
  have hall : ∀ w ∈ a :: b :: c :: Abi.word port.toNat :: (Abi.stringWords host ++ Abi.stringWords name),
      w.length = 32 := by
    simp only [List.forall_mem_cons, ha, hb, hc, Abi.length_word, true_and, List.forall_mem_append]
    exact ⟨fun w hw => Abi.length_of_mem_stringWords hw, fun w hw => Abi.length_of_mem_stringWords hw⟩
  rw [hwords] at hresult
  have hrun : PeerInfoParser.readLines {} (responseLines result) =
      PeerInfoParser.readLines { state := .nodeHost, port := port, textSize := UInt64.ofNat host.length }
        ((Abi.dataWords host ++ Abi.stringWords name).map hex) := by
    rw [PeerInfoParser.readLines_eq_of_unhex _ (responseLines_of_sameHex hresult hall), Abi.stringWords,
      List.cons_append]
    exact PeerInfoParser.readLines_head a b c port hhostFits _
  rw [parseGetPeerInfoResultToPeerAddress, hrun]
  constructor
  · intro h
    obtain ⟨p, hp, h⟩ := except_bind_eq_ok.mp h
    cases h
    by_cases hne : p.host = []
    · refine .inr ⟨hne, ?_⟩
      by_contra hname'
      rw [hne] at hp
      have hfirst := PeerInfoParser.host_of_readLines hp
      exact trimRightNulls_word_ne (mt List.length_eq_zero_iff.mp hname') hnameFits (hfirst.symm.trans hne)
    · refine .inl ⟨hne, ?_⟩
      by_contra hlong
      rw [Abi.dataWords_of_lt (by omega)] at hp
      have hfirst := congrArg List.length (PeerInfoParser.host_of_readLines hp)
      have hle : (trimRightNulls (p.host.take 32)).length ≤ (p.host.take 32).length :=
        List.IsPrefix.length_le <| List.rdropWhile_prefix _ _
      rw [List.length_take] at hle
      omega
  · rintro (⟨hne, hle⟩ | ⟨rfl, rfl⟩)
    · obtain ⟨p, hp, rfl, rfl, rfl⟩ :=
        PeerInfoParser.readLines_host_name port (UInt64.ofNat host.length) hne hle hhost hname hnameFits
      rw [hp]
      rfl
    · rfl

theorem parseGetPeerInfoResult_inverts_one :
    parseGetPeerInfoResultToPeerAddress (ascii "id")
      (hex (Abi.word 1 ++ Abi.word 128 ++ Abi.word 192 ++ Abi.word 51010 ++
      Abi.string (ascii "127.0.0.1") ++ Abi.string (ascii "a peer with a name of more than one word"))) =
    .ok ⟨ascii "127.0.0.1", 51010, ascii "a peer with a name of more than one word", ascii "id"⟩ :=
  (parseGetPeerInfoResult_inverts_iff 51010 (ascii "id") (Abi.length_word 1) (Abi.length_word 128) (Abi.length_word 192)
    (by decide) (by decide) (SameHex.refl _) (by decide +kernel)).mpr (.inl (by decide))

/-- A host of more than one word is cut off, and the rest of it is taken for the length of the name. -/
theorem parseGetPeerInfoResult_cuts_host :
    parseGetPeerInfoResultToPeerAddress (ascii "id")
      (hex (Abi.word 1 ++ Abi.word 128 ++ Abi.word 224 ++ Abi.word 51010 ++
      Abi.string (ascii "node-1.swarm.peers.bluzelle.network") ++ Abi.string (ascii "peer"))) =
      .ok ⟨ascii "node-1.swarm.peers.bluzelle.netw", 51010, Abi.word 4 ++ ascii "peer", ascii "id"⟩ ∧
    (⟨ascii "node-1.swarm.peers.bluzelle.netw", 51010, Abi.word 4 ++ ascii "peer", ascii "id"⟩ : PeerAddress) ≠
      ⟨ascii "node-1.swarm.peers.bluzelle.network", 51010, ascii "peer", ascii "id"⟩ := by
  decide +kernel

end SwarmDb
