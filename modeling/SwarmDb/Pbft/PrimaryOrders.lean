import SwarmDb.Pbft.Certificates
import SwarmDb.Pbft.SentMessages

/-!
# Pre-prepares and the primary

A replica takes up a pre-prepare that comes in by itself from any peer, and the pre-prepares of a valid NEWVIEW. So what
it accepts, and the PREPAREs it sends, stem from the primary of the view as long as no other peer sends it pre-prepares
(`accepted_from_primary`).
-/

namespace SwarmDb

open Lib Program

/-- The sender of an envelope is the primary of a view. -/
def SentByPrimary (node : Node) (view : UInt64) (env : BznEnvelope) : Prop :=
  ∃ peer, node.primaryOf view = some peer ∧ env.sender = peer.uuid

/-- A pre-prepare that has come in: by itself, or in a NEWVIEW. -/
inductive PreprepareIn (node : Node) (hs : List Happening) (msg : PbftMsg) (env : BznEnvelope) : Prop
  | direct (outside : Outside) (session : Option Nat) (happened : .event outside (.message env session) ∈ hs)
      (parse : node.wire.pbftMsg.parse env.pbft = some msg)
  | newview (outside : Outside) (session : Option Nat) (nv : PbftMsg) (nvEnv : BznEnvelope)
      (happened : .event outside (.message nvEnv session) ∈ hs) (type : nv.type = .newview)
      (parseNewview : node.wire.pbftMsg.parse nvEnv.pbft = some nv) (mem : env ∈ nv.prePrepareMessages)
      (parse : node.wire.pbftMsg.parse env.pbft = some msg)

/-- A pre-prepare for the operation has come in that the primary of its view
sent. -/
def StemsFromPrimary (node : Node) (hs : List Happening) (key : OperationKey) : Prop :=
  ∃ msg env, PreprepareIn node hs msg env ∧ msg.type = .preprepare ∧ msg.operationKey = key ∧
    SentByPrimary node key.view env

/-- If a pre-prepare comes in by itself and is handled, then the primary of its
view has sent it. -/
def DirectFromPrimary (node : Node) : Machine → Happening → Prop
  | .up _ s, .event _ (.message env session) =>
    ∀ msg, Delivered node (.message env session) msg env → msg.type = .preprepare →
      s.pbft.preliminaryFilterMsg msg = true → SentByPrimary node msg.view env
  | _, _ => True

section

variable {node : Node} {outside : Outside} {ev : Event} {past : List Effect} {s₀ s s' : Replica} {hs : List Happening}

variable {msg : PbftMsg} {env : BznEnvelope}

theorem PreprepareIn.append (h : PreprepareIn node hs msg env) (a : Happening) :
    PreprepareIn node (hs ++ [a]) msg env := by
  cases h with
  | direct outside session happened parse => exact .direct outside session (List.mem_append_left _ happened) parse
  | newview outside session nv nvEnv happened type parseNewview mem parse =>
    exact .newview outside session nv nvEnv (List.mem_append_left _ happened) type parseNewview mem parse

theorem StemsFromPrimary.append {key : OperationKey} (h : StemsFromPrimary node hs key) (a : Happening) :
    StemsFromPrimary node (hs ++ [a]) key := by
  obtain ⟨msg, env, hin, hrest⟩ := h
  exact ⟨msg, env, hin.append a, hrest⟩

/-- The pre-prepares that are taken up are those of the primary. -/
theorem Proposed.stemsFromPrimary (h : Proposed node outside ev s₀ s msg env) (hev : .event outside ev ∈ hs)
    (hdirect : DirectFromPrimary node (.up past s₀) (.event outside ev)) :
    StemsFromPrimary node hs msg.operationKey := by
  cases h with
  | direct delivered type view valid =>
    obtain ⟨session, rfl⟩ := delivered.event
    refine ⟨msg, env, .direct outside session hev delivered.parse, type, rfl, hdirect msg delivered type ?_⟩
    simp [Pbft.preliminaryFilterMsg, valid, view]
  | newview nv nvEnv accepted mem parse =>
    obtain ⟨session, rfl⟩ := accepted.event
    obtain ⟨hsender, htype, hview⟩ := accepted.validNewview.prePrepare mem
    rw [node.wire.pbftMsg.decode_of_parse parse] at htype hview
    refine ⟨msg, env, .newview outside session nv nvEnv hev accepted.type accepted.parse mem parse, htype, rfl, ?_⟩
    rw [PbftMsg.operationKey, hview]
    obtain ⟨peer, hpeer, hnv⟩ := accepted.validNewview.primaryOf
    exact ⟨peer, hpeer, hsender.trans hnv⟩

/-- What is accepted, and every PREPARE that was sent, stems from the primary. -/
structure FromPrimary (node : Node) (hs : List Happening) (log : List Effect) (b : Pbft) : Prop where
  accepted : ∀ (lk : LogKey) (key : OperationKey), b.acceptedPreprepares[lk]? = some key → StemsFromPrimary node hs key
  prepares : ∀ e ∈ log, ∀ msg, e.said? node = some msg → msg.type = .prepare → StemsFromPrimary node hs msg.operationKey

namespace FromPrimary

variable {log : List Effect} {b b' : Pbft}

theorem append (h : FromPrimary node hs log b) (a : Happening) : FromPrimary node (hs ++ [a]) log b :=
  ⟨fun lk key hk => (h.accepted lk key hk).append a, fun e he msg hm ht => (h.prepares e he msg hm ht).append a⟩

theorem same (h : FromPrimary node hs log b) (hb : b'.acceptedPreprepares = b.acceptedPreprepares) :
    FromPrimary node hs log b' := ⟨hb ▸ h.accepted, h.prepares⟩

variable {l : List Effect}

/-- What a step sends: a PREPARE is one for an accepted pre-prepare. -/
theorem emits (h : FromPrimary node hs (past ++ s.log) s.pbft) (hl : ∀ e ∈ l, Emitted node outside ev s₀ s e) :
    FromPrimary node hs (past ++ (s.log ++ l)) s.pbft := by
  refine ⟨h.accepted, fun e he msg hm ht => ?_⟩
  rw [← List.append_assoc] at he
  rcases List.mem_append.mp he with he | he
  · exact h.prepares e he msg hm ht
  · cases (hl e he).sent hm with
    | prepare key accepted => exact h.accepted _ key accepted
    | commit => cases ht
    | preprepare _ orders => rw [orders.type] at ht; cases ht
    | viewchange _ type | newview _ type => rw [type] at ht; cases ht

/-- What a start of the process does. -/
theorem idle (h : FromPrimary node hs log b) (hl : ∀ e ∈ l, ∃ n, e = .saveServiceStateAt n) :
    FromPrimary node hs (log ++ l) b := by
  refine ⟨h.accepted, fun e he msg hm ht => ?_⟩
  rcases List.mem_append.mp he with he | he
  · exact h.prepares e he msg hm ht
  · obtain ⟨n, rfl⟩ := hl e he
    cases hm

theorem step (h : FromPrimary node hs (past ++ s.log) s.pbft) (hev : .event outside ev ∈ hs)
    (hdirect : DirectFromPrimary node (.up past s₀) (.event outside ev)) (hstep : Step node outside ev s₀ s s') :
    FromPrimary node hs (past ++ s'.log) s'.pbft := by
  obtain ⟨l, hl, he, -⟩ := hstep.log
  rw [hl]
  have hs' := h.emits he
  cases hstep with
  | accept msg _ proposed =>
    refine ⟨fun lk key hk => ?_, hs'.prepares⟩
    replace hk : (s.pbft.acceptedPreprepares.insert msg.logKey msg.operationKey)[lk]? = some key := hk
    rw [Map.lookup_insert] at hk
    split at hk
    · cases hk
      exact proposed.stemsFromPrimary hev hdirect
    · exact h.accepted lk key hk
  | memory _ same => exact hs'.same same.acceptedPreprepares
  | _ => exact hs'.same rfl

end FromPrimary

theorem fromPrimary_upheld : Upheld node (DirectFromPrimary node)
    (fun hs past s => FromPrimary node hs (past ++ s.log) s.pbft) (FromPrimary node) := by
  refine .of_step (fun hs past s a h => h.append a)
    (fun hs past s₀ outside ev s s' hev ha _ h hstep => h.step hev ha hstep) ?_ ?_ ?_ ?_ ?_ ?_
  · exact ⟨fun lk key hk => by simp [Pbft.initial] at hk, fun e he => by cases he⟩
  · intro hs past s₀ outside ev s s' b h hcrash hleaves
    obtain ⟨l, hl, he, -⟩ := hcrash.log
    rw [hl]
    exact (h.emits he).same hleaves.acceptedPreprepares
  · exact fun hs past s lifetime _ h _ => h.append _
  · exact fun hs log b a h => h.append a
  · exact fun hs log b s h hr => (h.idle hr.log).same hr.acceptedPreprepares
  · exact fun hs log b l h hl => h.idle hl

end

/-- As long as pre-prepares come in from the primary of their view only, all
that a replica accepts and all PREPAREs it sends stem from the primary. -/
theorem accepted_from_primary {node : Node} {hs : List Happening} {m : Machine}
    (h : Machine.Runs node (DirectFromPrimary node) hs m) :
    (∀ past s, m = .up past s → ∀ (lk : LogKey) (key : OperationKey), s.pbft.acceptedPreprepares[lk]? = some key →
      lk = ⟨key.view, key.sequence⟩ ∧ StemsFromPrimary node hs key) ∧
    ∀ msg ∈ m.said node, msg.type = .prepare → StemsFromPrimary node hs msg.operationKey := by
  have hsaid : ∀ {b}, FromPrimary node hs m.log b → ∀ msg ∈ m.said node, msg.type = .prepare →
      StemsFromPrimary node hs msg.operationKey := by
    intro b hb msg hmsg ht
    obtain ⟨e, he, hm⟩ := List.mem_filterMap.mp hmsg
    exact hb.prepares e he msg hm ht
  have hm := fromPrimary_upheld.run h
  cases m with
  | up past s =>
    refine ⟨?_, hsaid hm.2⟩
    rintro _ _ ⟨⟩ lk key hk
    exact ⟨hm.1.containers.acceptedKey lk key hk, hm.2.accepted lk key hk⟩
  | down past p =>
    obtain ⟨b, -, hD⟩ := hm
    exact ⟨fun past s hup => (by cases hup), hsaid hD⟩

/-- A pre-prepare in view 1. -/
def samplePreprepare (sender : String) : BznEnvelope :=
  signedBySender { (default : BznEnvelope) with
    swarmId := ascii "swarm"
    sender := ascii sender
    payload := .pbft (Wire.plain.pbftMsg.serialize { (default : PbftMsg) with
      type := .preprepare, view := 1, sequence := 1, requestHash := ascii "h" }) }

/-- A replica that is started and gets the pre-prepare of a peer. -/
def preprepareFrom (sender : String) : List Happening :=
  [.restart none, .event sampleOutside (.message (samplePreprepare sender) none)]

theorem parse_samplePreprepare (peers : PeersBeacon) (uuid sender : String) :
    (sampleNode peers uuid).wire.pbftMsg.parse (samplePreprepare sender).pbft = some { (default : PbftMsg) with
      type := .preprepare, view := 1, sequence := 1, requestHash := ascii "h" } := Codec.parse_serialize _ _

theorem accepted_from_primary_of_view :
    let node := sampleNode fourPeers "A"
    let m := Machine.after node (preprepareFrom "B")
    (m.replica?.bind fun s => s.pbft.acceptedPreprepares[(⟨1, 1⟩ : LogKey)]?) = some ⟨1, 1, ascii "h"⟩ ∧
    (∀ past s, m = .up past s → ∀ (lk : LogKey) (key : OperationKey), s.pbft.acceptedPreprepares[lk]? = some key →
      lk = ⟨key.view, key.sequence⟩ ∧ StemsFromPrimary node (preprepareFrom "B") key) ∧
    ∀ msg ∈ m.said node, msg.type = .prepare → StemsFromPrimary node (preprepareFrom "B") msg.operationKey := by
  have hdirect : ∀ m, DirectFromPrimary (sampleNode fourPeers "A") m
      (.event sampleOutside (.message (samplePreprepare "B") none)) := by
    intro m
    cases m with
    | down => trivial
    | up past s =>
      intro msg hdelivered _ _
      have hparse := hdelivered.parse
      rw [parse_samplePreprepare] at hparse
      cases hparse
      exact ⟨samplePeer "B", rfl, rfl⟩
  exact ⟨by decide +kernel,
    accepted_from_primary (.act (.act .start (Happening.restart none) trivial) (.event _ _) (hdirect _))⟩

/-- The pre-prepare of a peer that is not the primary is accepted, and a PREPARE
for it is sent. -/
theorem accepted_from_other_peer :
    let node := sampleNode fourPeers "A"
    let m := Machine.after node (preprepareFrom "C")
    Machine.Runs node (fun _ _ => True) (preprepareFrom "C") m ∧
    (m.replica?.bind fun s => s.pbft.acceptedPreprepares[(⟨1, 1⟩ : LogKey)]?) = some ⟨1, 1, ascii "h"⟩ ∧
    (m.said node).map (fun msg => (msg.type, msg.operationKey)) = [(.prepare, ⟨1, 1, ascii "h"⟩)] ∧
    ¬ StemsFromPrimary node (preprepareFrom "C") ⟨1, 1, ascii "h"⟩ := by
  refine ⟨Machine.runs_after _ _, by decide +kernel, by decide +kernel, ?_⟩
  have hmessage : ∀ {outside : Outside} {env : BznEnvelope} {session : Option Nat},
      Happening.event outside (.message env session) ∈ preprepareFrom "C" → env = samplePreprepare "C" := by
    intro outside env session h
    simp only [preprepareFrom, List.mem_cons, reduceCtorEq, Happening.event.injEq, Event.message.injEq,
      List.not_mem_nil, false_or, or_false] at h
    exact h.2.1
  rintro ⟨msg, env, hin, htype, hkey, peer, hpeer, hsender⟩
  cases hin with
  | direct outside session happened parse =>
    rw [hmessage happened] at hsender
    cases hpeer
    exact absurd hsender (by decide)
  | newview outside session nv nvEnv happened type parseNewview mem parse =>
    rw [hmessage happened, parse_samplePreprepare] at parseNewview
    cases parseNewview
    cases type

end SwarmDb
