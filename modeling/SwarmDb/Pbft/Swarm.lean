import SwarmDb.Lib.Components
import SwarmDb.Lib.Quorum
import SwarmDb.Pbft.RequestBinding
import SwarmDb.Pbft.VotePromise

/-!
# A swarm of replicas

The honest replicas of a swarm, each with its own runs, in any order. What the
faulty ones do shows in the messages that come in only: nothing is assumed of
these but that a vote in the name of an honest replica is one that it has sent.

An honest replica sends a PREPARE for the request that it has accepted for a view
and a sequence (`Promised`), and moves an operation on with the PREPAREs of enough
peers (`Counting`). With `Quorum.exists_common` no two requests get so far in a view
(`prepared_unique`). In `committed_disagree` two views commit two requests for one
sequence: a NEWVIEW may be made of VIEWCHANGE messages that nobody has signed.
-/

namespace SwarmDb

open Lib Program

/-! ## One replica -/

/-- A vote of a peer for an operation was handled. -/
def VoteHeard (node : Node) (hs : List Happening) (type : PbftMsgType) (key : OperationKey) (u : Uuid) : Prop :=
  ∃ outside ev msg env, .event outside ev ∈ hs ∧ Delivered node ev msg env ∧ msg.type = type ∧
    msg.operationKey = key ∧ env.sender = u

/-- Votes of enough peers for an operation were handled. -/
def QuorumHeard (node : Node) (hs : List Happening) (type : PbftMsgType) (key : OperationKey) : Prop :=
  ∃ peers : Finset Uuid, honestMajoritySize node.swarmSize ≤ peers.card ∧ ∀ u ∈ peers, VoteHeard node hs type key u

/-- Every PREPARE that was sent is for the request that is accepted for its view and sequence. -/
def Promised (node : Node) (log : List Effect) (b : Pbft) : Prop :=
  ∀ msg ∈ saidIn node log, msg.type = .prepare → b.acceptedPreprepares[msg.logKey]? = some msg.operationKey

section

variable {node : Node} {outside : Outside} {ev : Event} {past log : List Effect} {s₀ s s' : Replica}
  {hs : List Happening} {key : OperationKey} {op op' : MemoryOperation} {b b' : Pbft}

variable {type : PbftMsgType} {stage : OperationStage}

theorem VoteHeard.append {u : Uuid} (h : VoteHeard node hs type key u) (a : Happening) :
    VoteHeard node (hs ++ [a]) type key u := by
  obtain ⟨outside, ev, msg, env, hmem, hrest⟩ := h
  exact ⟨outside, ev, msg, env, List.mem_append_left _ hmem, hrest⟩

theorem QuorumHeard.append (h : QuorumHeard node hs type key) (a : Happening) :
    QuorumHeard node (hs ++ [a]) type key := by
  obtain ⟨peers, hcard, hall⟩ := h
  exact ⟨peers, hcard, fun u hu => (hall u hu).append a⟩

theorem Recorded.quorumHeard (h : Recorded node (VoteHeard node hs) key op)
    (hadvance : op.advanceOperationStage stage node.swarmSize = .ok op') : QuorumHeard node hs .prepare key := by
  have hop' := h.advance hadvance
  refine ⟨op'.preparesSeen, (hop'.prepared ?_).2, hop'.prepares⟩
  obtain ⟨rfl, ⟨rfl, -⟩ | ⟨rfl, -⟩⟩ := MemoryOperation.advanceOperationStage_ok hadvance <;> simp

/-- What was counted, and what moved on with it. -/
structure Counting (node : Node) (hs : List Happening) (log : List Effect) (ops : HeldOperations) : Prop where
  held : ∀ (key : OperationKey) (op : MemoryOperation), ops[key]? = some op → Recorded node (VoteHeard node hs) key op
  advanced : ∀ key stage, .advanced key stage ∈ log → QuorumHeard node hs .prepare key

namespace Counting

variable {ops : HeldOperations}

theorem append (h : Counting node hs log ops) (a : Happening) : Counting node (hs ++ [a]) log ops :=
  ⟨fun key op hop => (h.held key op hop).mono fun _ _ hv => hv.append a, fun key stage hmem =>
    (h.advanced key stage hmem).append a⟩

variable {l : List Effect}

theorem emits (h : Counting node hs (past ++ s.log) s.pbft.operations) (hl : ∀ e ∈ l, Emitted node outside ev s₀ s e)
    (key : OperationKey) (stage : OperationStage) (hmem : .advanced key stage ∈ past ++ (s.log ++ l)) :
    QuorumHeard node hs .prepare key := by
  rw [← List.append_assoc] at hmem
  rcases List.mem_append.mp hmem with hmem | hmem
  · exact h.advanced key stage hmem
  · cases hl _ hmem with
    | quiet _ quiet => exact absurd quiet id
    | advanced _ _ _ advances => exact (HeldOperations.find_of_forall .new h.held key).quorumHeard advances

theorem idle (h : Counting node hs log ops) (hl : ∀ e ∈ l, ∃ n, e = .saveServiceStateAt n) :
    Counting node hs (log ++ l) ∅ := by
  refine ⟨fun key op hop => by simp at hop, fun key stage hmem => ?_⟩
  rcases List.mem_append.mp hmem with hmem | hmem
  · exact h.advanced key stage hmem
  · obtain ⟨n, hn⟩ := hl _ hmem
    cases hn

end Counting

theorem counting_upheld : Upheld node (fun _ _ => True)
    (fun hs past s => Counting node hs (past ++ s.log) s.pbft.operations) (fun hs log _ => Counting node hs log ∅) := by
  refine .of_step (fun hs past s a h => h.append a) ?_ ?_ ?_ ?_ (fun hs log b a h => h.append a) ?_ ?_
  · intro hs past s₀ outside ev s s' hev _ _ h hstep
    obtain ⟨l, hl, hemitted, -⟩ := hstep.log
    rw [hl]
    exact ⟨hstep.held (.recorded fun msg env delivered =>
      ⟨outside, ev, msg, env, hev, delivered, rfl, rfl, rfl⟩) h.held,
      h.emits hemitted⟩
  · exact ⟨fun key op hop => by simp at hop, fun key stage hmem => by cases hmem⟩
  · intro hs past s₀ outside ev s s' b h hcrash _
    obtain ⟨l, hl, hemitted, -⟩ := hcrash.log
    rw [hl]
    exact ⟨fun key op hop => by simp at hop, h.emits hemitted⟩
  · intro hs past s lifetime _ h _
    exact ⟨fun key op hop => by simp at hop, (h.append _).advanced⟩
  · exact fun hs log b s h hr => hr.operations ▸ h.idle hr.log
  · exact fun hs log b l h hl => h.idle hl

namespace Promised

variable {l : List Effect}

theorem sending (h : Promised node log s.pbft)
    (hl : saidIn node l = [] ∨ ∃ msg, saidIn node l = [msg] ∧ Sends node outside ev s₀ s msg) :
    Promised node (log ++ l) s.pbft := by
  intro msg hmsg htype
  rw [saidIn_append, List.mem_append] at hmsg
  rcases hmsg with hmsg | hmsg
  · exact h msg hmsg htype
  · rcases hl with hl | ⟨msg', hl, hsends⟩
    · rw [hl] at hmsg
      cases hmsg
    · rw [hl, List.mem_singleton] at hmsg
      subst hmsg
      have hchecked := hsends.checked
      rw [htype] at hchecked
      exact hchecked.1

theorem same (h : Promised node log b) (hb : b'.acceptedPreprepares = b.acceptedPreprepares) :
    Promised node log b' := by
  intro msg hmsg htype
  rw [hb]
  exact h msg hmsg htype

theorem idle (h : Promised node log b) (hl : ∀ e ∈ l, ∃ n, e = .saveServiceStateAt n) : Promised node (log ++ l) b := by
  unfold Promised
  rw [saidIn_append, saidIn_of_saves hl, List.append_nil]
  exact h

end Promised

/-- What is accepted stays accepted. -/
theorem Step.accepted_mono (h : Step node outside ev s₀ s s') {lk : LogKey}
    (hlookup : s.pbft.acceptedPreprepares[lk]? = some key) : s'.pbft.acceptedPreprepares[lk]? = some key := by
  cases h with
  | memory _ same => exact same.acceptedPreprepares ▸ hlookup
  | accept msg _ _ free =>
    show (s.pbft.acceptedPreprepares.insert msg.logKey msg.operationKey)[lk]? = some key
    rw [Map.lookup_insert]
    split
    · rename_i heq
      rw [heq, hlookup] at free
      cases free
    · exact hlookup
  | _ => exact hlookup

theorem promised_upheld : Upheld node (fun _ _ => True) (fun _ past s => Promised node (past ++ s.log) s.pbft)
    (fun _ log b => Promised node log b) := by
  refine .of_step (fun hs past s a h => h) ?_ ?_ ?_ (fun hs past s lifetime _ h _ => h) (fun hs log b a h => h) ?_ ?_
  · intro hs past s₀ outside ev s s' _ _ _ h hstep msg hmsg htype
    obtain ⟨l, hl, hemitted, hone⟩ := hstep.log
    rw [hl, ← List.append_assoc] at hmsg
    exact hstep.accepted_mono (Promised.sending h (saidIn_of_emitted hemitted hone) msg hmsg htype)
  · exact fun msg hmsg => by cases hmsg
  · intro hs past s₀ outside ev s s' b h hcrash hleaves
    obtain ⟨l, hl, hemitted, hone⟩ := hcrash.log
    rw [hl, ← List.append_assoc]
    exact (Promised.sending h (saidIn_of_emitted hemitted hone)).same hleaves.acceptedPreprepares
  · exact fun hs log b s h hr => (h.idle hr.log).same hr.acceptedPreprepares
  · exact fun hs log b l h hl => h.idle hl

variable {m : Machine}

section

variable (h : Machine.Runs node (fun _ _ => True) hs m)
include h

/-- An operation that a replica has moved on. -/
theorem Machine.Runs.quorumHeard (hmem : .advanced key stage ∈ m.log) : QuorumHeard node hs .prepare key := by
  have hm := counting_upheld.run h
  cases m with
  | up => exact hm.2.advanced key stage hmem
  | down =>
    obtain ⟨b, -, hD⟩ := hm
    exact hD.advanced key stage hmem

/-- A replica sends PREPAREs for one request only in a view and for a sequence. -/
theorem Machine.Runs.prepare_unique {msg msg' : PbftMsg} (hmsg : msg ∈ m.said node) (hmsg' : msg' ∈ m.said node)
    (htype : msg.type = .prepare) (htype' : msg'.type = .prepare) (hkey : msg.logKey = msg'.logKey) :
    msg.operationKey = msg'.operationKey := by
  have hm := promised_upheld.run h
  have hpromised : ∃ b, Promised node m.log b := by
    cases m with
    | up _ s => exact ⟨s.pbft, hm.2⟩
    | down =>
      obtain ⟨b, -, hD⟩ := hm
      exact ⟨b, hD⟩
  obtain ⟨b, hb⟩ := hpromised
  have haccepted := hb msg hmsg htype
  rw [hkey, hb msg' hmsg' htype'] at haccepted
  exact (Option.some.inj haccepted).symm

/-- A machine forgets nothing that it has done. -/
theorem Machine.Runs.log_grows (a : Happening) : m.log <+: (m.happens node a).log := by
  have hm := (@promised_upheld node).run h
  cases a with
  | restart =>
    unfold Machine.happens
    dsimp only
    split
    · exact ⟨_, rfl⟩
    · exact ⟨_, rfl⟩
  | event outside ev =>
    cases m with
    | down => exact List.prefix_refl _
    | up past s =>
      have hsteps : ∀ s', Relation.ReflTransGen (Step node outside ev s) s s' → s.log <+: s'.log := by
        intro s' hs'
        induction hs' with
        | refl => exact List.prefix_refl _
        | tail _ hst ih =>
          obtain ⟨l, hl, -⟩ := hst.log
          exact ih.trans ⟨l, hl.symm⟩
      unfold Machine.happens
      dsimp only
      split
      · rename_i s' hr
        exact (List.prefix_append_right_inj past).mpr (hsteps s' (event_ok hm.1 hr))
      · rename_i e s' hr
        obtain ⟨s₁, hs₁, hcrash⟩ := event_error hm.1 hr
        obtain ⟨l, hl, -⟩ := hcrash.log
        exact (List.prefix_append_right_inj past).mpr ((hsteps s₁ hs₁).trans ⟨l, hl.symm⟩)

end

end

/-! ## The swarm -/

/-- The replicas of a swarm of `3f + 1` peers, of which at most `f` are faulty. -/
structure Swarm where
  peers : PeersBeacon
  wire : Wire
  f : Nat
  size : peers.current.length = 3 * f + 1
  faulty : Finset Uuid
  few : faulty.card ≤ f
  node : Uuid → Node
  node_uuid : ∀ u, u ∉ faulty → (node u).uuid = u
  node_peers : ∀ u, u ∉ faulty → (node u).peers = peers
  node_wire : ∀ u, u ∉ faulty → (node u).wire = wire

namespace Swarm

variable (S : Swarm)

/-- Something happens to one of the replicas. -/
def next : (Uuid → Machine) → Uuid × Happening → Uuid → Machine := stepAt fun u => Machine.happens (S.node u)

/-- A vote that an honest replica handles in the name of another one is a vote that this one has sent. -/
def Authentic (ms : Uuid → Machine) (e : Uuid × Happening) : Prop :=
  ∀ outside ev msg env, e.2 = .event outside ev → Delivered (S.node e.1) ev msg env →
    msg.type = .prepare ∨ msg.type = .commit → env.sender ∉ S.faulty →
    ∃ vote ∈ (ms env.sender).said (S.node env.sender), vote.type = msg.type ∧ vote.operationKey = msg.operationKey

/-- The runs of the honest replicas. -/
abbrev Runs : List (Uuid × Happening) → (Uuid → Machine) → Prop :=
  Reach S.next (fun ms e => e.1 ∉ S.faulty ∧ S.Authentic ms e) fun _ => .new

variable {S} {h : List (Uuid × Happening)} {ms : Uuid → Machine} {u v : Uuid} {key key' : OperationKey}

theorem Runs.machine (hruns : S.Runs h ms) (u : Uuid) :
    Machine.Runs (S.node u) (fun _ _ => True) (own h u) (ms u) :=
  Reach.component (fun _ _ _ => True) (fun _ _ _ _ => trivial) hruns u

/-- A vote that an honest replica has heard from another one was sent by it. -/
theorem Runs.sent (hruns : S.Runs h ms) (hheard : VoteHeard (S.node u) (own h u) .prepare key v) (hv : v ∉ S.faulty) :
    ∃ vote ∈ (ms v).said (S.node v), vote.type = .prepare ∧ vote.operationKey = key := by
  obtain ⟨outside, ev, msg, env, hmem, hdelivered, htype, rfl, rfl⟩ := hheard
  have hgrows : ∀ l (ms : Uuid → Machine) e, S.Runs l ms → e.1 ∉ S.faulty ∧ S.Authentic ms e →
      ∀ w, (ms w).log <+: (S.next ms e w).log := by
    intro l ms e hbefore _ w
    unfold next stepAt
    by_cases hw : w = e.1
    · subst hw
      rw [Function.update_self]
      exact (Runs.machine hbefore e.1).log_grows e.2
    · rw [Function.update_of_ne hw]
  have htrans : ∀ ms ms' ms'' : Uuid → Machine, (∀ w, (ms w).log <+: (ms' w).log) →
      (∀ w, (ms' w).log <+: (ms'' w).log) → ∀ w, (ms w).log <+: (ms'' w).log :=
    fun _ _ _ h h' w => (h w).trans (h' w)
  obtain ⟨ms', ⟨-, hauthentic⟩, hlater⟩ := hruns.found htrans hgrows (mem_own.mp hmem)
  obtain ⟨vote, hvote, hsame, hkey⟩ := hauthentic outside ev msg env rfl hdelivered (.inl htype) hv
  refine ⟨vote, ?_, hsame.trans htype, hkey⟩
  exact ((hlater env.sender).filterMap _).subset hvote

/-- Of two operations for a view and a sequence that honest replicas have moved on with the PREPAREs of enough peers,
some honest replica has sent a PREPARE for both. -/
theorem Runs.prepared_unique (hruns : S.Runs h ms) (hu : u ∉ S.faulty) (hv : v ∉ S.faulty)
    (hheard : QuorumHeard (S.node u) (own h u) .prepare key) (hheard' : QuorumHeard (S.node v) (own h v) .prepare key')
    (hview : key.view = key'.view) (hsequence : key.sequence = key'.sequence) : key = key' := by
  obtain ⟨A, hA, hheardA⟩ := hheard
  obtain ⟨B, hB, hheardB⟩ := hheard'
  have hpeer : ∀ w, w ∉ S.faulty → ∀ x k, VoteHeard (S.node w) (own h w) .prepare k x →
      x ∈ (S.peers.current.map (·.uuid)).toFinset := by
    rintro w hw x k ⟨outside, ev, msg, env, -, hdelivered, -, -, rfl⟩
    have hisPeer := hdelivered.peer
    rw [Node.isPeer, S.node_peers w hw, List.any_eq_true] at hisPeer
    obtain ⟨peer, hmem, heq⟩ := hisPeer
    exact List.mem_toFinset.mpr (List.mem_map.mpr ⟨peer, hmem, of_decide_eq_true heq⟩)
  have hmajority : ∀ w, w ∉ S.faulty → honestMajoritySize (S.node w).swarmSize = 2 * S.f + 1 := by
    intro w hw
    rw [Node.swarmSize, S.node_peers w hw, S.size, honestMajoritySize, faultyNodesBound]
    omega
  rw [hmajority u hu] at hA
  rw [hmajority v hv] at hB
  have hsize : (S.peers.current.map (·.uuid)).toFinset.card ≤ 3 * S.f + 1 := by
    rw [← S.size]
    exact (List.toFinset_card_le _).trans (List.length_map _).le
  obtain ⟨x, hxA, hxB, hx⟩ := Quorum.exists_common (by omega) S.few (fun x hx => hpeer u hu x key (hheardA x hx))
    (fun x hx => hpeer v hv x key' (hheardB x hx)) hA hB
  obtain ⟨vote, hvote, htype, rfl⟩ := hruns.sent (hheardA x hxA) hx
  obtain ⟨vote', hvote', htype', rfl⟩ := hruns.sent (hheardB x hxB) hx
  refine (hruns.machine x).prepare_unique hvote hvote' htype htype' ?_
  simp only [PbftMsg.operationKey] at hview hsequence
  rw [PbftMsg.logKey, PbftMsg.logKey, hview, hsequence]

end Swarm

/-- Two honest replicas that advance operations for one view and sequence to the commit stage do so for one request. -/
theorem commit_unique {S : Swarm} {h : List (Uuid × Happening)} {ms : Uuid → Machine} (hruns : S.Runs h ms) {u v : Uuid}
    (hu : u ∉ S.faulty) (hv : v ∉ S.faulty) {key key' : OperationKey} (hcommit : .advanced key .commit ∈ (ms u).log)
    (hcommit' : .advanced key' .commit ∈ (ms v).log) (hview : key.view = key'.view)
    (hsequence : key.sequence = key'.sequence) : key.requestHash = key'.requestHash := by
  have heard := (hruns.machine u).quorumHeard hcommit
  have heard' := (hruns.machine v).quorumHeard hcommit'
  rw [hruns.prepared_unique hu hv heard heard' hview hsequence]

/-- A check of one happening: a message in the name of an honest replica must be one that it has sent. -/
def Swarm.checks (S : Swarm) (ms : Uuid → Machine) (e : Uuid × Happening) : Bool :=
  decide (e.1 ∉ S.faulty) &&
    match e.2 with
    | .event _ (.message env _) =>
      ((S.node e.1).wire.pbftMsg.parse env.pbft).all fun msg =>
        decide (env.sender = [] ∨ env.sender ∈ S.faulty) ||
          ((ms env.sender).said (S.node env.sender)).any fun sent =>
            decide (sent.type = msg.type ∧ sent.operationKey = msg.operationKey)
    | .event _ _ => false
    | .restart _ => true

theorem Swarm.authentic_of_checks {S : Swarm} (hnamed : ∀ u, (S.node u).isPeer [] = false) {ms : Uuid → Machine}
    {e : Uuid × Happening} (h : S.checks ms e = true) : e.1 ∉ S.faulty ∧ S.Authentic ms e := by
  rw [checks, Bool.and_eq_true, decide_eq_true_eq] at h
  refine ⟨h.1, fun outside ev msg env heq hdelivered _ hsender => ?_⟩
  obtain ⟨session, rfl⟩ := hdelivered.event
  have hne : env.sender ≠ [] := by
    intro hnil
    have hpeer := hdelivered.peer
    rw [hnil, hnamed] at hpeer
    cases hpeer
  have hchecked := h.2
  rw [heq] at hchecked
  dsimp only at hchecked
  rw [hdelivered.parse, Option.all_some, decide_eq_false (not_or.mpr ⟨hne, hsender⟩), Bool.false_or,
    List.any_eq_true] at hchecked
  obtain ⟨sent, hsent, hsame⟩ := hchecked
  exact ⟨sent, hsent, of_decide_eq_true hsame⟩

/-- The operation that is advanced to a stage. -/
def Effect.advancedTo? (stage : OperationStage) : Effect → Option OperationKey
  | .advanced key stage' => if stage' = stage then some key else none
  | _ => none

theorem mem_of_advancedTo {log : List Effect} {stage : OperationStage} {key : OperationKey}
    (h : key ∈ log.filterMap (Effect.advancedTo? stage)) : .advanced key stage ∈ log := by
  obtain ⟨e, he, hkey⟩ := List.mem_filterMap.mp h
  unfold Effect.advancedTo? at hkey
  split at hkey
  · split at hkey
    · rename_i hstage
      cases hkey
      exact hstage ▸ he
    · cases hkey
  · cases hkey

/-- The replicas of four peers, of which D is faulty. -/
def threeHonest : Swarm where
  peers := fourPeers
  wire := .plain
  f := 1
  size := rfl
  faulty := {ascii "D"}
  few := by decide
  node u := { sampleNode fourPeers "A" with options := { (sampleNode fourPeers "A").options with uuid := u } }
  node_uuid _ _ := rfl
  node_peers _ _ := rfl
  node_wire _ _ := rfl

/-- What becomes of the replicas. -/
def threeHonestAfter (h : List (Uuid × Happening)) : Uuid → Machine := h.foldl threeHonest.next fun _ => .new

theorem threeHonest_runs {h : List (Uuid × Happening)}
    (hchecks : Allows threeHonest.next (fun ms e => threeHonest.checks ms e = true) (fun _ => .new) h) :
    threeHonest.Runs h (threeHonestAfter h) :=
  reach_of_allows (Allows.mono (fun _ _ => Swarm.authentic_of_checks fun _ => rfl) hchecks)

/-- The request of a client. -/
def clientRequest (nonce : UInt64) : BznEnvelope :=
  { (default : BznEnvelope) with
    swarmId := ascii "swarm"
    timestamp := laterOutside.now
    payload := .databaseMsg (Wire.plain.databaseMsg.serialize ⟨nonce, [], .other []⟩) }

/-- The first operation of a view. -/
def firstKey (view nonce : UInt64) : OperationKey :=
  ⟨view, 1, ((sampleNode fourPeers "A").hash (clientRequest nonce)).toOption.getD []⟩

/-- Something that comes in at one of the replicas. -/
def arrives (replica : String) (env : BznEnvelope) : Uuid × Happening :=
  (ascii replica, .event laterOutside (.message env none))

def signedMessage (sender : String) (msg : PbftMsg) : BznEnvelope :=
  signedBySender { (default : BznEnvelope) with
    swarmId := ascii "swarm", sender := ascii sender, payload := .pbft (Wire.plain.pbftMsg.serialize msg) }

/-- A message about the first operation of a view. -/
def firstMessage (view nonce : UInt64) (type : PbftMsgType) (replica sender : String) : Uuid × Happening :=
  arrives replica (signedMessage sender { (default : PbftMsg) with
    type := type
    view := view
    sequence := 1
    requestHash := (firstKey view nonce).requestHash
    request? := some (clientRequest nonce) })

/-- The votes of A, B and D at A and at B. -/
def firstVotes (view nonce : UInt64) (type : PbftMsgType) : List (Uuid × Happening) :=
  ["A", "B"].flatMap fun replica => ["A", "B", "D"].map (firstMessage view nonce type replica)

/-- B orders a request, and it is committed. A starts again after its first PREPARE. -/
def orderedRun : List (Uuid × Happening) :=
  [(ascii "A", .restart none), (ascii "B", .restart none), arrives "B" (clientRequest 1),
    firstMessage 1 1 .preprepare "A" "B", firstMessage 1 1 .preprepare "B" "B", (ascii "A", .restart none),
    firstMessage 1 1 .preprepare "A" "B"] ++ firstVotes 1 1 .prepare ++ firstVotes 1 1 .commit

theorem orderedRun_runs : threeHonest.Runs orderedRun (threeHonestAfter orderedRun) :=
  threeHonest_runs (by decide +kernel)

theorem commit_unique_ordered :
    let ms := threeHonestAfter orderedRun
    .advanced (firstKey 1 1) .commit ∈ (ms (ascii "A")).log ∧
      ∀ key, .advanced key .commit ∈ (ms (ascii "B")).log → key.view = 1 → key.sequence = 1 →
        (firstKey 1 1).requestHash = key.requestHash := by
  intro ms
  have hcommit : .advanced (firstKey 1 1) .commit ∈ (ms (ascii "A")).log := mem_of_advancedTo (by decide +kernel)
  refine ⟨hcommit, fun key hkey hview hsequence => ?_⟩
  exact commit_unique orderedRun_runs (by decide) (by decide) hcommit hkey hview.symm hsequence.symm

end SwarmDb
