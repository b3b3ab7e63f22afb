import SwarmDb.Pbft.SentMessages

/-!
# Requests and their hashes

Requests reach an operation with a client's message, inside or beside a pre-prepare, and beside a VIEWCHANGE. Whichever
way it came, the request of an operation, and every one that is handed to the service, has the hash that the operation
is about, and that enough PREPAREs and COMMITs have come in for (`requests_bound`).
-/

namespace SwarmDb

open Lib Program

/-! ## What a replica holds -/

/-- What is true of a new operation, and kept by all that a step does to one. -/
structure HeldInvariant (node : Node) (outside : Outside) (ev : Event) (s₀ s : Replica)
    (Q : OperationKey → MemoryOperation → Prop) : Prop where
  new : ∀ key, Q key (.new key)
  request : ∀ key op op', Q key op → op.SameVotes op' → op.Binds node key op' → Q key op'
  preprepare : ∀ msg env op, Q msg.operationKey op → Proposed node outside ev s₀ s msg env →
    Q msg.operationKey { op with preprepareMessage? := some env.clearPiggybackedRequests }
  vote : ∀ msg env op op', Q msg.operationKey op → Delivered node ev msg env → msg.type = .prepare ∨
    msg.type = .commit →
    op.recordPbftMsg msg env = .ok op' → Q msg.operationKey op'
  advance : ∀ key stage op op', Q key op → op.advanceOperationStage stage node.swarmSize = .ok op' → Q key op'

section

variable {node : Node} {outside : Outside} {ev : Event} {s₀ s s' : Replica} {Q : OperationKey → MemoryOperation → Prop}
  {ops : HeldOperations}

theorem HeldOperations.find_of_forall (hnew : ∀ key, Q key (.new key))
    (h : ∀ (key : OperationKey) (op : MemoryOperation), ops[key]? = some op → Q key op) (key : OperationKey) :
    Q key (ops.find key) := by
  unfold HeldOperations.find
  cases hop : ops[key]? with
  | none => exact hnew key
  | some op => exact h key op hop

theorem HeldOperations.forall_insert (h : ∀ (key : OperationKey) (op : MemoryOperation), ops[key]? = some op → Q key op)
    {key : OperationKey} {op : MemoryOperation} (hop : Q key op) (key' : OperationKey) (op' : MemoryOperation)
    (hop' : (ops.insert key op)[key']? = some op') : Q key' op' := by
  rw [Map.lookup_insert] at hop'
  split at hop'
  · rename_i heq
    cases hop'
    exact heq ▸ hop
  · exact h key' op' hop'

/-- A step keeps an invariant of the held operations. -/
theorem Step.held (hstep : Step node outside ev s₀ s s') (hQ : HeldInvariant node outside ev s₀ s Q)
    (h : ∀ (key : OperationKey) (op : MemoryOperation), s.pbft.operations[key]? = some op → Q key op) :
    ∀ (key : OperationKey) (op : MemoryOperation), s'.pbft.operations[key]? = some op → Q key op := by
  have hfind := HeldOperations.find_of_forall hQ.new h
  cases hstep with
  | memory _ same => exact same.operations ▸ h
  | request key op same binds => exact HeldOperations.forall_insert h (hQ.request key _ op (hfind key) same binds)
  | recordPreprepare msg env proposed =>
    exact HeldOperations.forall_insert h (hQ.preprepare msg env _ (hfind _) proposed)
  | recordVote msg env delivered type op record =>
    exact HeldOperations.forall_insert h (hQ.vote msg env _ op (hfind _) delivered type record)
  | advance key stage _ _ op advances =>
    exact HeldOperations.forall_insert h (hQ.advance key stage _ op (hfind key) advances)
  | deleteOperations =>
    intro key op hop
    replace hop : (s.pbft.operations.deleteOperationsUntil _)[key]? = some op := hop
    rw [HeldOperations.deleteOperationsUntil, Map.lookup_filter, Option.filter_eq_some_iff] at hop
    exact h key op hop.1
  | _ => exact h

end

/-! ## Votes and requests -/

/-- A vote of a sender for an operation has come in. -/
def Voted (node : Node) (hs : List Happening) (type : PbftMsgType) (key : OperationKey) (sender : Uuid) : Prop :=
  ∃ outside env session msg, .event outside (.message env session) ∈ hs ∧
    node.wire.pbftMsg.parse env.pbft = some msg ∧ msg.type = type ∧ msg.operationKey = key ∧ env.sender = sender

/-- Votes of enough different senders for an operation have come in. -/
def QuorumVoted (node : Node) (hs : List Happening) (type : PbftMsgType) (key : OperationKey) : Prop :=
  ∃ senders : Finset Uuid, honestMajoritySize node.swarmSize ≤ senders.card ∧ ∀ u ∈ senders, Voted node hs type key u

/-- What a replica may hold as the operation of a key, when `V` holds of the votes that it counts. -/
structure Recorded (node : Node) (V : PbftMsgType → OperationKey → Uuid → Prop) (key : OperationKey)
    (op : MemoryOperation) : Prop where
  filed : op.key = key
  request : ∀ request, op.request? = some request → node.hash request = .ok key.requestHash
  prepares : ∀ u ∈ op.preparesSeen, V .prepare key u
  commits : ∀ u ∈ op.commitsSeen, V .commit key u
  prepared : op.stage ≠ .prepare → op.request?.isSome ∧ honestMajoritySize node.swarmSize ≤ op.preparesSeen.card
  committed : op.stage = .execute → honestMajoritySize node.swarmSize ≤ op.commitsSeen.card

/-- What a replica may hand to the service under a key: the request that the
votes were for, or a request that does nothing in the place of one that is not
for the database. -/
structure Posted (node : Node) (hs : List Happening) (key' : OperationKey) (request : BznEnvelope) : Prop where
  hash : node.hash request = .ok key'.requestHash
  voted : ∃ key, key.view = key'.view ∧ key.sequence = key'.sequence ∧ QuorumVoted node hs .prepare key ∧
    QuorumVoted node hs .commit key ∧ (key = key' ∨ request = node.nullRequest ∧
      ∃ other, node.hash other = .ok key.requestHash ∧ ∀ text, other.payload ≠ .databaseMsg text)

section

variable {node : Node} {outside : Outside} {ev : Event} {past : List Effect} {s₀ s s' : Replica} {hs : List Happening}
  {key : OperationKey} {op op' : MemoryOperation}

variable {type : PbftMsgType}

theorem Voted.append {u : Uuid} (h : Voted node hs type key u) (a : Happening) : Voted node (hs ++ [a]) type key u := by
  obtain ⟨outside, env, session, msg, hmem, hrest⟩ := h
  exact ⟨outside, env, session, msg, List.mem_append_left _ hmem, hrest⟩

theorem QuorumVoted.append (h : QuorumVoted node hs type key) (a : Happening) :
    QuorumVoted node (hs ++ [a]) type key := by
  obtain ⟨senders, hcard, hall⟩ := h
  exact ⟨senders, hcard, fun u hu => (hall u hu).append a⟩

theorem Posted.append {request : BznEnvelope} (h : Posted node hs key request) (a : Happening) :
    Posted node (hs ++ [a]) key request := by
  obtain ⟨hhash, key', hv, hs', hp, hc, hrest⟩ := h
  exact ⟨hhash, key', hv, hs', hp.append a, hc.append a, hrest⟩

namespace Recorded

variable {V V' : PbftMsgType → OperationKey → Uuid → Prop}

theorem mono (h : Recorded node V key op) (hV : ∀ type u, V type key u → V' type key u) : Recorded node V' key op :=
  { h with
    prepares := fun u hu => hV _ u (h.prepares u hu)
    commits := fun u hu => hV _ u (h.commits u hu) }

theorem new (key : OperationKey) : Recorded node V key (.new key) where
  filed := rfl
  request request h := by cases h
  prepares u hu := by simp [MemoryOperation.new] at hu
  commits u hu := by simp [MemoryOperation.new] at hu
  prepared h := absurd rfl h
  committed h := by cases h

theorem request_step (h : Recorded node V key op) (hsame : op.SameVotes op') (hbinds : op.Binds node key op') :
    Recorded node V key op' where
  filed := hsame.key.trans h.filed
  request request hr := by
    rcases hbinds with hb | ⟨request', hb, hhash⟩
    · exact h.request request (hb ▸ hr)
    · rw [hb] at hr
      cases hr
      exact hhash
  prepares := hsame.preparesSeen ▸ h.prepares
  commits := hsame.commitsSeen ▸ h.commits
  prepared hstage := by
    obtain ⟨hrequest, hcard⟩ := h.prepared (hsame.stage ▸ hstage)
    refine ⟨?_, hsame.preparesSeen ▸ hcard⟩
    rcases hbinds with hb | ⟨request', hb, -⟩
    · rwa [hb]
    · rw [hb]
      rfl
  committed hstage := hsame.commitsSeen ▸ h.committed (hsame.stage ▸ hstage)

theorem vote (h : Recorded node V key op) {msg : PbftMsg} {env : BznEnvelope}
    (hvoted : V msg.type key env.sender) (htype : msg.type = .prepare ∨ msg.type = .commit)
    (hr : op.recordPbftMsg msg env = .ok op') : Recorded node V key op' := by
  unfold MemoryOperation.recordPbftMsg at hr
  rcases htype with ht | ht
  · rw [ht] at hr hvoted
    cases hr
    refine { h with prepares := fun u hu => ?_, prepared := fun hstage => ?_ }
    · rcases Finset.mem_insert.mp hu with rfl | hu
      · exact hvoted
      · exact h.prepares u hu
    · obtain ⟨hrequest, hcard⟩ := h.prepared hstage
      exact ⟨hrequest, hcard.trans (Finset.card_le_card (Finset.subset_insert _ _))⟩
  · rw [ht] at hr hvoted
    cases hr
    refine { h with commits := fun u hu => ?_, committed := fun hstage => ?_ }
    · rcases Finset.mem_insert.mp hu with rfl | hu
      · exact hvoted
      · exact h.commits u hu
    · exact (h.committed hstage).trans (Finset.card_le_card (Finset.subset_insert _ _))

theorem advance (h : Recorded node V key op) {stage : OperationStage}
    (hr : op.advanceOperationStage stage node.swarmSize = .ok op') : Recorded node V key op' := by
  obtain ⟨rfl, ⟨rfl, hready, -⟩ | ⟨rfl, hready, hstage⟩⟩ := MemoryOperation.advanceOperationStage_ok hr
  · simp only [MemoryOperation.isReadyForCommit, Bool.and_eq_true, decide_eq_true_eq] at hready
    exact { h with
      prepared := fun _ => ⟨hready.1.1, hready.2⟩
      committed := fun hstage => by cases hstage }
  · simp only [MemoryOperation.isReadyForExecute, Bool.and_eq_true, decide_eq_true_eq] at hready
    exact { h with
      prepared := fun _ => h.prepared (by rw [hstage]; decide)
      committed := fun _ => hready.2 }

/-- What is handed to the service for an operation. -/
theorem posted (h : Recorded node (Voted node hs) key op) (hstage : op.stage = .execute) {key' : OperationKey}
    {request : BznEnvelope} (hposts : Posts node key op key' request) : Posted node hs key' request := by
  obtain ⟨hrequest, hprepares⟩ := h.prepared (by rw [hstage]; decide)
  have hp : QuorumVoted node hs .prepare key := ⟨op.preparesSeen, hprepares, h.prepares⟩
  have hc : QuorumVoted node hs .commit key := ⟨op.commitsSeen, h.committed hstage, h.commits⟩
  cases hposts with
  | request _ has => exact ⟨h.request request has, key, rfl, rfl, hp, hc, .inl rfl⟩
  | null other _ hashes =>
    obtain ⟨request', hrequest'⟩ := Option.isSome_iff_exists.mp hrequest
    exact ⟨hashes, key, rfl, rfl, hp, hc,
      .inr ⟨rfl, request', h.request request' hrequest', fun text => other request' text hrequest'⟩⟩

end Recorded

theorem HeldInvariant.recorded {V : PbftMsgType → OperationKey → Uuid → Prop}
    (hV : ∀ msg env, Delivered node ev msg env → V msg.type msg.operationKey env.sender) :
    HeldInvariant node outside ev s₀ s (Recorded node V) where
  new := .new
  request _ _ _ h same binds := h.request_step same binds
  preprepare _ _ _ h _ := { h with }
  vote msg env _ _ h delivered type record := h.vote (hV msg env delivered) type record
  advance _ _ _ _ h advances := h.advance advances

/-- All operations are as they may be, and so is all that was handed to the
service. -/
structure Binding (node : Node) (hs : List Happening) (log : List Effect) (ops : HeldOperations) : Prop where
  held : ∀ (key : OperationKey) (op : MemoryOperation), ops[key]? = some op → Recorded node (Voted node hs) key op
  posted : ∀ key request, .applyOperation key request ∈ log → Posted node hs key request

namespace Binding

variable {log : List Effect} {ops : HeldOperations}

theorem append (h : Binding node hs log ops) (a : Happening) : Binding node (hs ++ [a]) log ops :=
  ⟨fun key op hop => (h.held key op hop).mono fun _ _ hv => hv.append a, fun key request hp =>
    (h.posted key request hp).append a⟩

variable {l : List Effect}

theorem emits (h : Binding node hs (past ++ s.log) s.pbft.operations) (hl : ∀ e ∈ l, Emitted node outside ev s₀ s e) :
    Binding node hs (past ++ (s.log ++ l)) s.pbft.operations := by
  refine ⟨h.held, fun key request hp => ?_⟩
  rw [← List.append_assoc] at hp
  rcases List.mem_append.mp hp with hp | hp
  · exact h.posted key request hp
  · cases hl _ hp with
    | quiet _ quiet => exact absurd quiet id
    | applied key op held stage _ _ posts => exact (h.held key op held).posted stage posts

theorem idle (h : Binding node hs log ops) (hl : ∀ e ∈ l, ∃ n, e = .saveServiceStateAt n) :
    Binding node hs (log ++ l) ops := by
  refine ⟨h.held, fun key request hp => ?_⟩
  rcases List.mem_append.mp hp with hp | hp
  · exact h.posted key request hp
  · obtain ⟨n, hn⟩ := hl _ hp
    cases hn

theorem step (h : Binding node hs (past ++ s.log) s.pbft.operations) (hev : .event outside ev ∈ hs)
    (hstep : Step node outside ev s₀ s s') : Binding node hs (past ++ s'.log) s'.pbft.operations := by
  obtain ⟨l, hl, he, -⟩ := hstep.log
  rw [hl]
  refine ⟨hstep.held (.recorded fun msg env delivered => ?_) h.held, (h.emits he).posted⟩
  obtain ⟨session, rfl⟩ := delivered.event
  exact ⟨outside, env, session, msg, hev, delivered.parse, rfl, rfl, rfl⟩

end Binding

theorem binding_upheld : Upheld node (fun _ _ => True)
    (fun hs past s => Binding node hs (past ++ s.log) s.pbft.operations) (fun hs log _ => Binding node hs log ∅) := by
  refine .of_step (fun hs past s a h => h.append a)
    (fun hs past s₀ outside ev s s' hev _ _ h hstep => h.step hev hstep) ?_ ?_ ?_ ?_ ?_ ?_
  · exact ⟨fun key op hop => by simp at hop, fun key request hp => by cases hp⟩
  · intro hs past s₀ outside ev s s' b h hcrash _
    obtain ⟨l, hl, he, -⟩ := hcrash.log
    rw [hl]
    exact ⟨fun key op hop => by simp at hop, (h.emits he).posted⟩
  · exact fun hs past s lifetime _ h _ => ⟨fun key op hop => by simp at hop, (h.append _).posted⟩
  · exact fun hs log b a h => h.append a
  · exact fun hs log b s h hr => hr.operations ▸ h.idle hr.log
  · exact fun hs log b l h hl => h.idle hl

end

/-- In every run, the request of an operation has the hash of the operation, and
what is handed to the service is the request that the votes were for. -/
theorem requests_bound (node : Node) (hs : List Happening) :
    (∀ past s, Machine.after node hs = .up past s →
      ∀ (key : OperationKey) (op : MemoryOperation) (request : BznEnvelope),
      s.pbft.operations[key]? = some op → op.request? = some request →
      op.key = key ∧ node.hash request = .ok op.key.requestHash) ∧
    ∀ key request, .applyOperation key request ∈ (Machine.after node hs).log → Posted node hs key request := by
  have hm := binding_upheld.run (Machine.runs_after node hs)
  cases hafter : Machine.after node hs with
  | up past s =>
    rw [hafter] at hm
    refine ⟨?_, hm.2.posted⟩
    rintro _ _ ⟨⟩ key op request hop hrequest
    have hrecorded := hm.2.held key op hop
    exact ⟨hrecorded.filed, hrecorded.filed ▸ hrecorded.request request hrequest⟩
  | down past p =>
    rw [hafter] at hm
    obtain ⟨b, -, hD⟩ := hm
    exact ⟨fun past s hup => (by cases hup), hD.posted⟩

end SwarmDb
