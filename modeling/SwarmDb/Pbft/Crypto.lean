import SwarmDb.Pbft.Process

/-!
# Signatures and hashes

`crypto`: the text of an envelope that is signed and hashed, and the signing and
verification of envelopes. OpenSSL stands behind it as three functions
(`OpenSsl`).

The signed text covers the sender, the kind and the text of the payload, and
the timestamp, and nothing else (`deterministicSerialize_inj`). An envelope
without a payload has no text: signing, verifying and hashing it throws.
-/

namespace SwarmDb

open Lib

/-- What the code computes with OpenSSL. -/
structure OpenSsl where
  sha256 : Bytes → Hash
  /-- Whether a signature of a text is one of the holder of the public key. -/
  verifySignature : Uuid → Bytes → Bytes → Bool
  /-- The signature of a text with the private key of a node; none where that fails. -/
  signText : Uuid → Bytes → Option Bytes

/-- The options of a node. -/
structure Options where
  uuid : Uuid
  swarmId : Bytes
  cryptoEnabledIncoming : Bool
  cryptoEnabledOutgoing : Bool
  peerMessageSigning : Bool
  admissionWindow : UInt64

def extractPayload (msg : BznEnvelope) : Except Fault Bytes :=
  match msg.payload.text? with
  | some text => .ok text
  | none => .error (.runtimeError "Crypto does not know how to handle a message with type 0")

/-- The texts, each after its length and a bar. -/
def joinTokens (tokens : List Bytes) : Bytes :=
  tokens.flatMap fun token => decimal token.length ++ 124 :: token

def deterministicSerialize (msg : BznEnvelope) : Except Fault Bytes :=
  (extractPayload msg).map fun text =>
    joinTokens [msg.sender, decimal msg.payload.payloadCase, text, decimal msg.timestamp.toNat]

variable (ssl : OpenSsl) (options : Options)

def cryptoVerify (msg : BznEnvelope) : Except Fault Bool :=
  if !options.cryptoEnabledIncoming then .ok true
  else
    (deterministicSerialize msg).map fun text =>
      -- an empty sender makes no public key
      !msg.sender.isEmpty && ssl.verifySignature msg.sender text msg.signature

/-- `sign`, once the sender is set. -/
def signAsSender (msg : BznEnvelope) : Except Fault BznEnvelope :=
  if msg.sender ≠ options.uuid then .ok msg
  else if !options.cryptoEnabledOutgoing then .ok msg
  else
    (deterministicSerialize msg).map fun text =>
      match ssl.signText options.uuid text with
      | some signature => { msg with signature := signature }
      | none => msg

/-- The envelope as `sign` leaves it. -/
def cryptoSign (msg : BznEnvelope) : Except Fault BznEnvelope :=
  signAsSender ssl options (if msg.sender = [] then { msg with sender := options.uuid } else msg)

def cryptoHash (msg : BznEnvelope) : Except Fault Hash := (deterministicSerialize msg).map ssl.sha256

/-! ## The signed text -/

theorem joinTokens_inj {s t : List Bytes} (hl : s.length = t.length) (h : joinTokens s = joinTokens t) : s = t := by
  induction s generalizing t with
  | nil => exact (List.length_eq_zero_iff.mp hl.symm).symm
  | cons a s ih =>
    obtain ⟨b, t, rfl⟩ := List.exists_cons_of_length_eq_add_one hl.symm
    simp only [joinTokens, List.flatMap_cons, List.append_assoc, List.cons_append] at h
    have hbar : ∀ n, (124 : UInt8) ∉ decimal n := fun n hn => by have := decimal_range hn; revert this; decide
    -- the length stands before the first bar, and bounds the token
    have hsplit := splitAt?_append (hbar a.length) (a ++ joinTokens s)
    rw [joinTokens, h, splitAt?_append (hbar b.length)] at hsplit
    simp only [Option.some.injEq, Prod.mk.injEq] at hsplit
    obtain ⟨rfl, hs⟩ := List.append_inj hsplit.2 (decimal_injective hsplit.1)
    rw [ih (by simpa using hl) hs.symm]

variable {m : BznEnvelope}

/-- Two envelopes with the same signed text have the same sender, payload and
timestamp. -/
theorem deterministicSerialize_inj {m' : BznEnvelope} {text : Bytes} (h : deterministicSerialize m = .ok text)
    (h' : deterministicSerialize m' = .ok text) :
    m.sender = m'.sender ∧ m.payload = m'.payload ∧ m.timestamp = m'.timestamp := by
  simp only [deterministicSerialize, extractPayload] at h h'
  cases hp : m.payload.text? with
  | none => rw [hp] at h; cases h
  | some p =>
    cases hp' : m'.payload.text? with
    | none => rw [hp'] at h'; cases h'
    | some p' =>
      rw [hp] at h
      rw [hp'] at h'
      simp only [Except.map, Except.ok.injEq] at h h'
      have := joinTokens_inj (by rfl) (h.trans h'.symm)
      simp only [List.cons.injEq, and_true] at this
      obtain ⟨hs, hc, rfl, ht⟩ := this
      exact ⟨hs, Payload.ext_case_text (decimal_injective hc) (hp.trans hp'.symm),
        UInt64.toNat_inj.mp (decimal_injective ht)⟩

theorem deterministicSerialize_isOk (m : BznEnvelope) :
    (∃ text, deterministicSerialize m = .ok text) ↔ m.payload ≠ .notSet := by
  simp only [deterministicSerialize, extractPayload]
  cases hp : m.payload <;> simp [Payload.text?, Except.map]

/-- Envelopes with a payload have the same signed text just where they agree in what it covers. -/
theorem deterministicSerialize_eq_iff {m m' : BznEnvelope} (h : m.payload ≠ .notSet) (h' : m'.payload ≠ .notSet) :
    ∃ text text', deterministicSerialize m = .ok text ∧ deterministicSerialize m' = .ok text' ∧
      (text = text' ↔ m.sender = m'.sender ∧ m.payload.payloadCase = m'.payload.payloadCase ∧
        m.payload.text? = m'.payload.text? ∧ m.timestamp = m'.timestamp) := by
  obtain ⟨text, htext⟩ := (deterministicSerialize_isOk m).mpr h
  obtain ⟨text', htext'⟩ := (deterministicSerialize_isOk m').mpr h'
  refine ⟨text, text', htext, htext', ?_, ?_⟩
  · rintro rfl
    obtain ⟨hsender, hpayload, htimestamp⟩ := deterministicSerialize_inj htext htext'
    rw [hpayload]
    exact ⟨hsender, rfl, rfl, htimestamp⟩
  · rintro ⟨hsender, hcase, hpayload, htimestamp⟩
    rw [deterministicSerialize, extractPayload, hsender, hcase, hpayload, htimestamp] at htext
    rw [deterministicSerialize, extractPayload] at htext'
    exact Except.ok.inj (htext.symm.trans htext')

theorem deterministicSerialize_eq_iff_shifted :
    let m : BznEnvelope := { (default : BznEnvelope) with sender := ascii "a1|", payload := .json (ascii "2|13") }
    let m' : BznEnvelope := { (default : BznEnvelope) with sender := ascii "a", payload := .json (ascii "1|2|13") }
    ∃ text text', deterministicSerialize m = .ok text ∧ deterministicSerialize m' = .ok text' ∧
      (text = text' ↔ m.sender = m'.sender ∧ m.payload.payloadCase = m'.payload.payloadCase ∧
        m.payload.text? = m'.payload.text? ∧ m.timestamp = m'.timestamp) :=
  deterministicSerialize_eq_iff (by simp) (by simp)

/-- Hashing an envelope with a payload does not throw. -/
theorem cryptoHash_isOk (ssl : OpenSsl) (h : m.payload ≠ .notSet) : ∃ hash, cryptoHash ssl m = .ok hash := by
  obtain ⟨text, htext⟩ := (deterministicSerialize_isOk m).mpr h
  exact ⟨ssl.sha256 text, by rw [cryptoHash, htext]; rfl⟩

/-! ## Signing -/

variable {ssl options}

theorem signAsSender_ok {m' : BznEnvelope} (h : signAsSender ssl options m = .ok m') :
    ∃ signature, m' = { m with signature := signature } := by
  unfold signAsSender at h
  split at h
  · cases h; exact ⟨m.signature, by cases m; rfl⟩
  · split at h
    · cases h; exact ⟨m.signature, by cases m; rfl⟩
    · cases ht : deterministicSerialize m with
      | error e => rw [ht] at h; cases h
      | ok text =>
        rw [ht] at h
        simp only [Except.map, Except.ok.injEq] at h
        subst h
        split
        · exact ⟨_, rfl⟩
        · exact ⟨m.signature, by cases m; rfl⟩

/-- Signing touches the sender and the signature only. -/
theorem cryptoSign_ok {m' : BznEnvelope} (h : cryptoSign ssl options m = .ok m') :
    ∃ signature,
      m' = { m with sender := if m.sender = [] then options.uuid else m.sender, signature := signature } := by
  obtain ⟨signature, rfl⟩ := signAsSender_ok h
  refine ⟨signature, ?_⟩
  split <;> cases m <;> rfl

/-- Signing an envelope with a payload does not throw. -/
theorem cryptoSign_isOk (ssl : OpenSsl) (options : Options) (h : m.payload ≠ .notSet) :
    ∃ m', cryptoSign ssl options m = .ok m' := by
  have hsign : ∀ n : BznEnvelope, n.payload ≠ .notSet → ∃ m', signAsSender ssl options n = .ok m' := by
    intro n hn
    unfold signAsSender
    split
    · exact ⟨n, rfl⟩
    · split
      · exact ⟨n, rfl⟩
      · obtain ⟨text, ht⟩ := (deterministicSerialize_isOk n).mpr hn
        rw [ht]
        exact ⟨_, rfl⟩
  refine hsign _ ?_
  split <;> exact h

end SwarmDb
