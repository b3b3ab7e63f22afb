import SwarmDb.Pbft.Certificates
import SwarmDb.Pbft.Restart

/-!
# The signatures behind a stable checkpoint

A checkpoint becomes stable with the messages of `f + 1` peers. Those of a VIEWCHANGE are verified; those that come in
by themselves, or with a state, are not. `stable_authentic` says that a stable checkpoint was signed by `f + 1` peers
where all these messages verify.
-/

namespace SwarmDb

open Lib Program

/-- What an event brings in the name of a peer and is taken for a checkpoint message is one,
and the peer has signed it. The code itself verifies those of a VIEWCHANGE. -/
structure Event.Authentic (node : Node) (ev : Event) : Prop where
  direct : ∀ env session, ev = .message env session → env.IsCheckpoint → node.isPeer env.sender = true →
    node.verify env = .ok true
  state : ∀ inner env, StateReceived node ev inner → env ∈ inner.checkpointProof → node.isPeer env.sender = true →
    node.verify env = .ok true ∧ env.IsCheckpoint
  viewchange : ∀ vc env, ViewchangeReceived node ev vc → env ∈ vc.checkpointMessages → node.isPeer env.sender = true →
    node.verify env = .ok true → env.IsCheckpoint

/-- A peer has signed a checkpoint message for a checkpoint. -/
def SignedCheckpoint (node : Node) (signed : Uuid → Bytes → Prop) (cp : Checkpoint) (u : Uuid) : Prop :=
  ∃ env text signedText, env.sender = u ∧ env.payload = .checkpointMsg text ∧
    node.wire.checkpointMsg.parse text = some ⟨cp.sequence, cp.hash⟩ ∧
    deterministicSerialize env = .ok signedText ∧ signed u signedText

/-- What the manager holds is evidence with `P`; the stable checkpoint is the first one, or has enough of it. -/
structure CheckpointManager.Founded (node : Node) (P : BznEnvelope → Prop) (m : CheckpointManager) : Prop where
  supported : m.Supported node P
  enough : m.Enough node ∨ m.latestStableCheckpoint = ⟨0, initialCheckpointHash⟩

section

variable {node : Node} {P : BznEnvelope → Prop} {m : CheckpointManager}

namespace CheckpointManager.Founded

theorem initial : CheckpointManager.initial.Founded node P := ⟨initial_supported, .inr rfl⟩

theorem reached (h : m.Founded node P) (cp : Checkpoint) : (m.reached cp).Founded node P :=
  ⟨reached_supported h.supported cp, h.enough⟩

theorem handled (h : m.Founded node P) {env : BznEnvelope} (henv : P env) : (m.handled node env).Founded node P := by
  refine ⟨handled_supported h.supported henv, ?_⟩
  rcases h.enough with henough | hinitial
  · exact .inl (handled_enough henough env)
  · unfold CheckpointManager.handled
    split
    · exact .inr hinitial
    · dsimp only
      split
      · exact .inr hinitial
      · split
        · split
          · exact .inr hinitial
          · exact .inr hinitial
        · unfold maybeStabilized
          split
          · rename_i henough
            exact .inl henough
          · exact .inr hinitial

end CheckpointManager.Founded

variable {outside : Outside} {ev : Event} {s₀ s s' : Replica}

theorem Step.founded (h : Step node outside ev s₀ s s') (hs : s.Consistent node)
    (hm : s.manager.Founded node P) (hP : ∀ env, CheckpointSource node ev env → P env) : s'.manager.Founded node P := by
  cases h with
  | call c called _ _ after =>
    obtain ⟨rfl, -⟩ := after hs.manager
    cases c with
    | handleCheckpointMessage _ env => exact hm.handled (hP env called)
    | localCheckpointReached _ cp => exact hm.reached cp
  | _ => exact hm

variable {env : BznEnvelope}

/-- The messages that count in an authentic event are signed by the peers they name. -/
theorem Event.Authentic.source (h : ev.Authentic node) (hsign : node.options.peerMessageSigning = true)
    (hsource : CheckpointSource node ev env) (hpeer : node.isPeer env.sender = true) :
    node.verify env = .ok true ∧ env.IsCheckpoint := by
  cases hsource with
  | direct session event text payload => exact ⟨h.direct env session event ⟨text, payload⟩ hpeer, text, payload⟩
  | state inner received mem => exact h.state inner env received mem hpeer
  | saved vc received mem verified =>
    have hverify := Node.verify_of_not_rejects hsign verified
    exact ⟨hverify, h.viewchange vc env received mem hpeer hverify⟩

/-- What verifies was signed by its sender. -/
theorem signed_of_verify {signed : Uuid → Bytes → Prop} (hcrypto : node.options.cryptoEnabledIncoming = true)
    (hsigned : ∀ u text signature, node.ssl.verifySignature u text signature = true → signed u text)
    (h : node.verify env = .ok true) : ∃ text, deterministicSerialize env = .ok text ∧ signed env.sender text := by
  unfold Node.verify cryptoVerify at h
  rw [hcrypto] at h
  cases htext : deterministicSerialize env with
  | error =>
    rw [htext] at h
    cases h
  | ok text =>
    rw [htext] at h
    have hverified : (!env.sender.isEmpty && node.ssl.verifySignature env.sender text env.signature) = true :=
      Except.ok.inj h
    exact ⟨text, rfl, hsigned _ _ _ (Bool.and_eq_true_iff.mp hverified).2⟩

/-- The peers with a message in the stable proof. -/
def CheckpointManager.attestants (node : Node) (m : CheckpointManager) : Finset Uuid :=
  ((m.latestStableCheckpointProof.toList.filter fun pair => node.isPeer pair.1).map Prod.fst).toFinset

theorem CheckpointManager.card_attestants (h : m.Enough node) :
    honestMemberSize node.swarmSize ≤ (m.attestants node).card := by
  rw [attestants, List.toFinset_card_of_nodup, List.length_map]
  · exact h
  · exact (Map.keys_nodup m.latestStableCheckpointProof).sublist (List.filter_sublist.map Prod.fst)

/-- Where a sender whose message has `P` is a peer, the peers of the stable proof each sent such a message. -/
theorem CheckpointManager.Founded.attested (h : m.Founded node P) {u : Uuid} (hu : u ∈ m.attestants node) :
    node.isPeer u = true ∧ ∃ env, env.sender = u ∧ P env ∧
      node.wire.checkpointMsg.parse env.checkpointMsg =
        some ⟨m.latestStableCheckpoint.sequence, m.latestStableCheckpoint.hash⟩ := by
  obtain ⟨⟨u, text⟩, hpair, rfl⟩ := List.mem_map.mp (List.mem_toFinset.mp hu)
  obtain ⟨hmem, hpeer⟩ := List.mem_filter.mp hpair
  obtain ⟨env, -, hsender, hparse, henv⟩ := h.supported.proof u text (Map.mem_toList_iff.mp hmem)
  exact ⟨hpeer, env, hsender, henv, hparse⟩

end

/-! ## A stable checkpoint and its signers -/

section

variable {node : Node} {lifetime : Option Nat} {events : List (Outside × Event)} {past : List Effect} {s : Replica}

/-- After authentic events a stable checkpoint other than the first one was signed by `f + 1` peers. -/
theorem stable_authentic {signed : Uuid → Bytes → Prop} (hsign : node.options.peerMessageSigning = true)
    (hcrypto : node.options.cryptoEnabledIncoming = true)
    (hsigned : ∀ u text signature, node.ssl.verifySignature u text signature = true → signed u text)
    (hauth : ∀ e ∈ events, e.2.Authentic node) (h : Machine.serving node lifetime events = .up past s) :
    s.manager.latestStableCheckpoint = ⟨0, initialCheckpointHash⟩ ∨
      ∃ peers : Finset Uuid, honestMemberSize node.swarmSize ≤ peers.card ∧
        ∀ u ∈ peers, node.isPeer u = true ∧ SignedCheckpoint node signed s.manager.latestStableCheckpoint u := by
  let P (env : BznEnvelope) : Prop := node.isPeer env.sender = true → node.verify env = .ok true ∧ env.IsCheckpoint
  obtain ⟨-, hfounded⟩ : s.Consistent node ∧ s.manager.Founded node P := by
    refine serving_invariant (I := fun s => s.manager.Founded node P) (fun s hs _ => ?_)
      (fun e he s₀ s s' hs hm hst => ?_) h
    · rw [hs]
      exact .initial
    · exact hst.founded hs hm fun env hsource hpeer => (hauth e he).source hsign hsource hpeer
  rcases hfounded.enough with henough | hinitial
  · refine .inr ⟨s.manager.attestants node, CheckpointManager.card_attestants henough, fun u hu => ?_⟩
    obtain ⟨hpeer, env, rfl, henv, hparse⟩ := hfounded.attested hu
    obtain ⟨hverify, text, hpayload⟩ := henv hpeer
    obtain ⟨signedText, hserialize, hsignedText⟩ := signed_of_verify hcrypto hsigned hverify
    refine ⟨hpeer, env, text, signedText, rfl, hpayload, ?_, hserialize, hsignedText⟩
    have htext : env.checkpointMsg = text := by rw [BznEnvelope.checkpointMsg, hpayload]
    rwa [htext] at hparse
  · exact .inl hinitial

end

/-- The checkpoint message of a peer with a signature. -/
def checkpointFrom (sender signature : String) : Event :=
  .message { (default : BznEnvelope) with
    swarmId := ascii "swarm"
    sender := ascii sender
    signature := ascii signature
    payload := .checkpointMsg (Wire.strict.checkpointMsg.serialize ⟨100, ascii "h"⟩) } none

/-- Two checkpoint messages that come in. -/
def twoCheckpoints (signature signature' : String) : List (Outside × Event) :=
  [(laterOutside, checkpointFrom "B" signature), (laterOutside, checkpointFrom "C" signature')]

theorem authentic_checkpointFrom {sender : String}
    (h : ∀ env session, checkpointFrom sender sender = .message env session → (strictNode "A").verify env = .ok true) :
    (checkpointFrom sender sender).Authentic (strictNode "A") := by
  refine ⟨fun env session hev _ _ => h env session hev, fun inner env hreceived _ _ => ?_,
    fun vc env hreceived _ _ _ => ?_⟩
  · exact absurd hreceived (not_stateReceived rfl inner)
  · have hnone : ∀ msg env, ¬ Delivered (strictNode "A") (checkpointFrom sender sender) msg env := by
      intro msg env hdelivered
      obtain ⟨session, hev⟩ := hdelivered.event
      obtain ⟨text, hpayload⟩ := hdelivered.payload
      cases hev
      cases hpayload
    cases hreceived with
    | direct _ delivered | newview _ _ delivered => exact absurd delivered (hnone _ _)

/-- The messages that B and C signed make their checkpoint stable. -/
theorem stable_authentic_two : ∃ past s,
    Machine.serving (strictNode "A") none (twoCheckpoints "B" "C") = .up past s ∧
      s.manager.latestStableCheckpoint = ⟨100, ascii "h"⟩ ∧
      (s.manager.latestStableCheckpoint = ⟨0, initialCheckpointHash⟩ ∨
        ∃ peers : Finset Uuid, honestMemberSize (strictNode "A").swarmSize ≤ peers.card ∧
          ∀ u ∈ peers, (strictNode "A").isPeer u = true ∧
            SignedCheckpoint (strictNode "A") (fun u text => (strictNode "A").ssl.verifySignature u text u = true)
              s.manager.latestStableCheckpoint u) := by
  have hstable : (Machine.serving (strictNode "A") none (twoCheckpoints "B" "C")).replica?.map
      (fun s => s.manager.latestStableCheckpoint) = some ⟨100, ascii "h"⟩ := by decide +kernel
  cases hm : Machine.serving (strictNode "A") none (twoCheckpoints "B" "C") with
  | down past p =>
    rw [hm] at hstable
    cases hstable
  | up past s =>
    rw [hm] at hstable
    refine ⟨past, s, rfl, Option.some.inj hstable, stable_authentic rfl rfl (fun u text signature hv => ?_) ?_ hm⟩
    · exact decide_eq_true rfl
    · simp only [twoCheckpoints, List.forall_mem_cons, List.not_mem_nil, false_imp_iff, implies_true, and_true]
      refine ⟨authentic_checkpointFrom fun env session hev => ?_, authentic_checkpointFrom fun env session hev => ?_⟩
      all_goals
        cases hev
        decide +kernel

/-- A node for which nobody but A has signed anything. -/
def onlyAsigns : Node :=
  { strictNode "A" with
    ssl := { (strictNode "A").ssl with
      verifySignature := fun uuid _ signature => uuid = ascii "A" ∧ signature = uuid } }

/-- Two messages in the names of B and C, which signed none, make a checkpoint stable. -/
theorem stable_forged : ∃ past s,
    Machine.serving onlyAsigns none (twoCheckpoints "" "") = .up past s ∧
      s.manager.latestStableCheckpoint = ⟨100, ascii "h"⟩ ∧
      (∀ u text signature, onlyAsigns.ssl.verifySignature u text signature = true → u = ascii "A") ∧
      ¬ ∃ peers : Finset Uuid, honestMemberSize onlyAsigns.swarmSize ≤ peers.card ∧
          ∀ u ∈ peers, onlyAsigns.isPeer u = true ∧
            SignedCheckpoint onlyAsigns (fun u _ => u = ascii "A") s.manager.latestStableCheckpoint u := by
  have hstable : (Machine.serving onlyAsigns none (twoCheckpoints "" "")).replica?.map
      (fun s => s.manager.latestStableCheckpoint) = some ⟨100, ascii "h"⟩ := by decide +kernel
  cases hm : Machine.serving onlyAsigns none (twoCheckpoints "" "") with
  | down past p =>
    rw [hm] at hstable
    cases hstable
  | up past s =>
    rw [hm] at hstable
    refine ⟨past, s, rfl, Option.some.inj hstable, fun u text signature hv => (of_decide_eq_true hv).1, ?_⟩
    rintro ⟨peers, hcard, hpeers⟩
    have hsub : peers ⊆ {ascii "A"} := by
      intro u hu
      obtain ⟨-, env, text, signedText, -, -, -, -, hsigned⟩ := hpeers u hu
      exact Finset.mem_singleton.mpr hsigned
    have htwo : honestMemberSize onlyAsigns.swarmSize = 2 := by decide
    have hone := Finset.card_le_card hsub
    rw [Finset.card_singleton] at hone
    omega

end SwarmDb
