import SwarmDb.Pbft.Advancing
import SwarmDb.Pbft.ReplicaRuns
import SwarmDb.Pbft.Sample

/-!
# The messages of one operation, in any order

What a replica does with the pre-prepares, prepares and commits of one operation in the current view. Each message adds
to what the operation has heard, and the stage follows at once; so both depend on the messages heard and not on their
order, unless an accepted pre-prepare is read back from storage, which fails for view 0 and sequence 0.
-/

namespace SwarmDb

open Lib Program

/-! ## What was heard -/

section

variable (node : Node) (key : OperationKey) (known : Bool)

/-- The message in an envelope. -/
def messageIn (env : BznEnvelope) : PbftMsg := node.wire.pbftMsg.decode env.pbft

/-- The senders of the messages of a type. -/
def sendersOf (type : PbftMsgType) (envs : List BznEnvelope) : Finset Uuid :=
  ((envs.filter fun env => decide ((messageIn node env).type = type)).map BznEnvelope.sender).toFinset

/-- The requests that come with a pre-prepare: in the message, and the first with the envelope. -/
def carriedRequests (env : BznEnvelope) : List BznEnvelope :=
  (messageIn node env).request :: env.piggybackedRequests.take 1

/-- Whether a request has the hash of the operation. -/
def isMatching (request : BznEnvelope) : Bool := decide (node.hash request = .ok key.requestHash)

def preprepareIn (envs : List BznEnvelope) : Bool := envs.any fun env => (messageIn node env).type = .preprepare

/-- Whether the request of the operation was known before, or came with a pre-prepare. -/
def requestIn (envs : List BznEnvelope) : Bool :=
  known || envs.any fun env => decide ((messageIn node env).type = .preprepare) &&
    (carriedRequests node env).any fun request =>
      isMatching node key request && MemoryOperation.isRequest node.wire request

/-- Whether the operation is prepared by the messages: there are a pre-prepare, the
request, and prepares of `2f + 1` senders. -/
def preparedBy (envs : List BznEnvelope) : Bool :=
  requestIn node key known envs && preprepareIn node envs &&
    decide ((sendersOf node .prepare envs).card ≥ honestMajoritySize node.swarmSize)

/-- Whether there are commits of `2f + 1` senders. -/
def committedBy (envs : List BznEnvelope) : Bool :=
  decide ((sendersOf node .commit envs).card ≥ honestMajoritySize node.swarmSize)

/-- A pre-prepare, prepare or commit of the operation by a peer, which is not dropped; a
pre-prepare comes with the request. -/
structure IsMessageOf (env : BznEnvelope) : Prop where
  parses : node.wire.pbftMsg.accepts env.pbft = true
  names : (messageIn node env).operationKey = key
  type : (messageIn node env).type = .preprepare ∨ (messageIn node env).type = .prepare ∨
    (messageIn node env).type = .commit
  peer : node.isPeer env.sender = true
  verified : env.sender = [] ∨ node.rejects env = .ok false
  carries : (messageIn node env).type = .preprepare → ∃ request ∈ carriedRequests node env,
    isMatching node key request = true

/-- What an operation has heard from messages. -/
structure Heard (envs : List BznEnvelope) (op : MemoryOperation) : Prop where
  preprepare : op.preprepareMessage?.isSome = preprepareIn node envs
  request : op.request?.isSome = requestIn node key known envs
  prepares : op.preparesSeen = sendersOf node .prepare envs
  commits : op.commitsSeen = sendersOf node .commit envs

end

section

variable {node : Node} {outside : Outside} {key : OperationKey} {known : Bool} {s : Replica} {op : MemoryOperation}
  {envs : List BznEnvelope} {env : BznEnvelope}

theorem sendersOf_concat (type : PbftMsgType) (envs : List BznEnvelope) (env : BznEnvelope) :
    sendersOf node type (envs ++ [env]) =
      if (messageIn node env).type = type then insert env.sender (sendersOf node type envs)
      else sendersOf node type envs := by
  simp only [sendersOf]
  by_cases h : (messageIn node env).type = type
  · simp [h]
  · simp [h]

theorem preprepareIn_concat (envs : List BznEnvelope) (env : BznEnvelope) :
    preprepareIn node (envs ++ [env]) =
      (preprepareIn node envs || decide ((messageIn node env).type = .preprepare)) := by
  simp [preprepareIn]

theorem requestIn_concat (envs : List BznEnvelope) (env : BznEnvelope) :
    requestIn node key known (envs ++ [env]) =
      (requestIn node key known envs || (decide ((messageIn node env).type = .preprepare) &&
        (carriedRequests node env).any fun request =>
          isMatching node key request && MemoryOperation.isRequest node.wire request)) := by
  simp [requestIn, Bool.or_assoc]

namespace Heard

section

variable (h : Heard node key known envs op)
include h

theorem isReadyForCommit : op.isReadyForCommit node.swarmSize = preparedBy node key known envs := by
  rw [MemoryOperation.isReadyForCommit, MemoryOperation.hasRequest, MemoryOperation.isPreprepared, h.request,
    h.preprepare, h.prepares, preparedBy]

theorem hasCommits : op.hasCommits node.swarmSize = committedBy node envs := by
  rw [MemoryOperation.hasCommits, h.commits, committedBy]

/-- The stage and the session do not matter. -/
theorem of_eq {op' : MemoryOperation} (hpreprepare : op'.preprepareMessage? = op.preprepareMessage?)
    (hrequest : op'.request? = op.request?) (hprepares : op'.preparesSeen = op.preparesSeen)
    (hcommits : op'.commitsSeen = op.commitsSeen) : Heard node key known envs op' where
  preprepare := by rw [hpreprepare, h.preprepare]
  request := by rw [hrequest, h.request]
  prepares := by rw [hprepares, h.prepares]
  commits := by rw [hcommits, h.commits]

end

theorem start (hpreprepare : op.preprepareMessage? = none) (hprepares : op.preparesSeen = ∅)
    (hcommits : op.commitsSeen = ∅) : Heard node key op.hasRequest [] op where
  preprepare := by
    rw [hpreprepare]
    rfl
  request := by
    rw [requestIn, List.any_nil, Bool.or_false]
    rfl
  prepares := hprepares
  commits := hcommits

theorem vote (h : Heard node key known envs op)
    (htype : (messageIn node env).type = .prepare ∨ (messageIn node env).type = .commit) :
    ∃ op', op.recordPbftMsg (messageIn node env) env = .ok op' ∧ Heard node key known (envs ++ [env]) op' ∧
      op'.stage = op.stage := by
  rw [MemoryOperation.recordPbftMsg]
  rcases htype with htype | htype
  all_goals
    rw [htype]
    refine ⟨_, rfl, ⟨?_, ?_, ?_, ?_⟩, rfl⟩
    · rw [preprepareIn_concat, htype]
      simpa using h.preprepare
    · rw [requestIn_concat, htype]
      simpa using h.request
    · simp [sendersOf_concat, htype, h.prepares]
    · simp [sendersOf_concat, htype, h.commits]

end Heard

theorem preparedBy_concat (h : preparedBy node key known envs = true) (env : BznEnvelope) :
    preparedBy node key known (envs ++ [env]) = true := by
  rw [preparedBy, Bool.and_eq_true, Bool.and_eq_true, decide_eq_true_eq] at h ⊢
  obtain ⟨⟨hrequest, hpreprepare⟩, hprepares⟩ := h
  refine ⟨⟨?_, ?_⟩, ?_⟩
  · rw [requestIn_concat, hrequest, Bool.true_or]
  · rw [preprepareIn_concat, hpreprepare, Bool.true_or]
  · rw [sendersOf_concat]
    split
    · exact le_trans hprepares (Finset.card_le_card (Finset.subset_insert _ _))
    · exact hprepares

theorem committedBy_concat (h : committedBy node envs = true) (env : BznEnvelope) :
    committedBy node (envs ++ [env]) = true := by
  rw [committedBy, decide_eq_true_eq] at h ⊢
  rw [sendersOf_concat]
  split
  · exact le_trans h (Finset.card_le_card (Finset.subset_insert _ _))
  · exact h

/-! ## Pre-prepares -/

variable (node key) in
/-- The operation with a request recorded, if it has the right hash. -/
def recordMatching (op : MemoryOperation) (request : BznEnvelope) : MemoryOperation :=
  if isMatching node key request then op.recordRequest node.wire request else op

variable (node key) in
theorem foldl_recordMatching (requests : List BznEnvelope) (op : MemoryOperation) :
    op.SameVotes (requests.foldl (recordMatching node key) op) ∧
      (requests.foldl (recordMatching node key) op).request?.isSome = (op.request?.isSome || requests.any fun request =>
        isMatching node key request && MemoryOperation.isRequest node.wire request) := by
  have hone : ∀ (op : MemoryOperation) (request : BznEnvelope), op.SameVotes (recordMatching node key op request) ∧
      (recordMatching node key op request).request?.isSome =
        (op.request?.isSome || (isMatching node key request && MemoryOperation.isRequest node.wire request)) := by
    intro op request
    rw [recordMatching]
    cases isMatching node key request with
    | false => exact ⟨.refl op, by simp⟩
    | true =>
      refine ⟨op.sameVotes_recordRequest node.wire request, ?_⟩
      rw [if_pos rfl, MemoryOperation.recordRequest]
      cases MemoryOperation.isRequest node.wire request <;> simp
  induction requests generalizing op with
  | nil => exact ⟨.refl op, by simp⟩
  | cons request _ ih =>
    obtain ⟨hvotes, hrequest⟩ := hone op request
    obtain ⟨hvotes', hrequest'⟩ := ih (recordMatching node key op request)
    refine ⟨⟨hvotes'.key.trans hvotes.key, hvotes'.preprepareMessage.trans hvotes.preprepareMessage,
      hvotes'.preparesSeen.trans hvotes.preparesSeen, hvotes'.prepareMessages.trans hvotes.prepareMessages,
      hvotes'.commitsSeen.trans hvotes.commitsSeen, hvotes'.stage.trans hvotes.stage⟩, ?_⟩
    rw [List.foldl_cons, hrequest', hrequest, List.any_cons, Bool.or_assoc]

/-- What a pre-prepare adds to what an operation has heard. -/
theorem Heard.preprepare_concat (h : Heard node key known envs op) (htype : (messageIn node env).type = .preprepare) :
    Heard node key known (envs ++ [env]) ((carriedRequests node env).foldl (recordMatching node key)
      { op with preprepareMessage? := some env.clearPiggybackedRequests }) := by
  obtain ⟨hvotes, hrequest⟩ := foldl_recordMatching node key (carriedRequests node env)
    { op with preprepareMessage? := some env.clearPiggybackedRequests }
  refine ⟨?_, ?_, ?_, ?_⟩
  · rw [hvotes.preprepareMessage, preprepareIn_concat, htype]
    simp
  · rw [hrequest, requestIn_concat, htype, ← h.request]
    simp
  · rw [hvotes.preparesSeen, sendersOf_concat, if_neg (by rw [htype]; decide), ← h.prepares]
  · rw [hvotes.commitsSeen, sendersOf_concat, if_neg (by rw [htype]; decide), ← h.commits]

variable (node) in
theorem maybeRecordRequest_moves (request : BznEnvelope) (hfind : s.pbft.operations.find key = op) :
    ∃ s', (maybeRecordRequest node request key).runFrom s = (.ok (), s') ∧
      s.MovesTo key s' [] (recordMatching node key op request) := by
  rw [recordMatching]
  have hself : s.MovesTo key s [] op := hfind ▸ .refl key s
  rw [maybeRecordRequest]
  by_cases hpayload : request.payload = .notSet
  · have hnot : isMatching node key request = false := by
      have hno : ∀ hash, node.hash request ≠ .ok hash := by
        intro hash hhash
        obtain ⟨text, htext, -⟩ := except_bind_eq_ok.mp hhash
        exact (deterministicSerialize_isOk request).mp ⟨text, htext⟩ hpayload
      simpa [isMatching] using hno _
    rw [if_pos hpayload, hnot]
    exact ⟨s, rfl, hself⟩
  · obtain ⟨hash, hhash⟩ := cryptoHash_isOk node.ssl hpayload
    have hhash : node.hash request = .ok hash := hhash
    rw [if_neg hpayload, runFrom_bind, runFrom_lift, hhash]
    dsimp only
    by_cases hsame : hash = key.requestHash
    · have hmatching : isMatching node key request = true := by simp [isMatching, hhash, hsame]
      rw [if_neg (by simpa using hsame), runFrom_modifyOperation, hfind, hmatching]
      exact ⟨_, rfl, .withOperation key s _⟩
    · have hmatching : isMatching node key request = false := by simp [isMatching, hhash, hsame]
      rw [if_pos hsame, hmatching]
      exact ⟨s, rfl, hself⟩

theorem runFrom_onReplica {α : Type} {m : Program Fault Process α} {r : Except Fault α} {q : Process}
    (h : m.runFrom s.toProcess = (r, q)) : (onReplica m).runFrom s = (r, s.withProcess q) := by
  rw [runFrom_eq, result_onReplica, final_onReplica, result, final, h]

/-- The entry of an operation in `accepted_preprepares`. -/
def OperationKey.logKey (key : OperationKey) : LogKey := ⟨key.view, key.sequence⟩

/-- `s'` is `s` with the pre-prepare accepted. -/
structure Replica.AcceptsTo (node : Node) (key : OperationKey) (s s' : Replica) : Prop where
  lifetime : s'.lifetime = s.lifetime
  log : s'.log = s.log
  containers : PbftContainers node s'.toProcess s'.pbft
  pbft : s'.pbft = { s.pbft with acceptedPreprepares := s.pbft.acceptedPreprepares.insert key.logKey key }

theorem stored_accepted (key : OperationKey) (hcontainers : PbftContainers node s.toProcess s.pbft) :
    s.toProcess.stored (persistentKey acceptedPrepreparesKey [Conversion.logKey.toString key.logKey]) =
      (s.pbft.acceptedPreprepares[key.logKey]?).map Conversion.operationKey.toString :=
  hcontainers.accepted.stored key.logKey

/-- The record of an accepted pre-prepare is not too large for the storage. -/
theorem create_accepted_ok {storage : MemStorage}
    (hnone : storage.read stateUuid (persistentKey acceptedPrepreparesKey [Conversion.logKey.toString key.logKey]) =
      none)
    (hlength : key.requestHash.length = 32) :
    (storage.create stateUuid (persistentKey acceptedPrepreparesKey [Conversion.logKey.toString key.logKey])
      (Conversion.operationKey.toString key)).1 = .ok := by
  have htext : (Conversion.logKey.toString key.logKey).length = 41 := by simp [Conversion.logKey]
  refine (MemStorage.create_result_iff ..).mpr ⟨?_, ?_, hnone⟩
  · simp [Conversion.operationKey, hlength, maxValueSize]
  · have hescape := length_escape_le (Conversion.logKey.toString key.logKey)
    have hname : (escape acceptedPrepreparesKey).length = 20 := by decide
    rw [persistentKey, generateKey_cons]
    simp only [List.length_cons, List.length_append, generateKey, List.flatMap_nil, List.length_nil, maxKeySize]
    omega

/-- A pre-prepare that was not accepted before is written. -/
theorem acceptPreprepare_new (hlife : s.lifetime = none) (hcontainers : PbftContainers node s.toProcess s.pbft)
    (hnone : s.pbft.acceptedPreprepares[key.logKey]? = none) (hlength : key.requestHash.length = 32) :
    ∃ s', (acceptPreprepare key.logKey key).runFrom s = (.ok (), s') ∧ s.AcceptsTo node key s' := by
  have hstored := stored_accepted key hcontainers
  rw [hnone] at hstored
  obtain ⟨q, hrun, hlifetime, hlog⟩ : ∃ q, (persistent .operationKey key acceptedPrepreparesKey
      [Conversion.logKey.toString key.logKey]).runFrom s.toProcess = (.ok key, q) ∧ q.lifetime = s.lifetime ∧
        q.log = s.log :=
    ⟨_, runFrom_persistent_new .operationKey key hlife hcontainers.accepted.init hstored
      (create_accepted_ok hstored hlength), rfl, rfl⟩
  have hok : (persistent .operationKey key acceptedPrepreparesKey [Conversion.logKey.toString key.logKey]).result
      s.toProcess = .ok key := by
    rw [result, hrun]
  obtain ⟨-, ⟨text, hsome, -⟩ | ⟨-, -, hwrites⟩⟩ := persistent_ok hok
  · rw [hstored] at hsome
    cases hsome
  · rw [final, hrun] at hwrites
    refine ⟨(s.withProcess q).withPbft { s.pbft with
      acceptedPreprepares := s.pbft.acceptedPreprepares.insert key.logKey key }, ?_, ?_⟩
    · rw [acceptPreprepare, runFrom_bind_ok (runFrom_onReplica hrun)]
      rfl
    · exact ⟨hlifetime, hlog, hcontainers.writes_accepted key hwrites, rfl⟩

section

variable (hcontainers : PbftContainers node s.toProcess s.pbft)
  (hsome : s.pbft.acceptedPreprepares[key.logKey]? = some key)
include hcontainers hsome

/-- A pre-prepare that was accepted before is read, if it can be. -/
theorem acceptPreprepare_again (hview : key.view ≠ 0) (hsequence : key.sequence ≠ 0) (hhash : key.requestHash ≠ []) :
    ∃ s', (acceptPreprepare key.logKey key).runFrom s = (.ok (), s') ∧ s.AcceptsTo node key s' := by
  have hstored := stored_accepted key hcontainers
  rw [hsome] at hstored
  have hread := Conversion.operationKey_fromString key
  rw [if_pos ⟨hview, hsequence, hhash⟩] at hread
  have hrun := runFrom_persistent_stored .operationKey key hcontainers.accepted.init hstored
  rw [hread] at hrun
  refine ⟨s.withPbft { s.pbft with acceptedPreprepares := s.pbft.acceptedPreprepares.insert key.logKey key }, ?_, ?_⟩
  · rw [acceptPreprepare, runFrom_bind_ok (runFrom_onReplica hrun)]
    rfl
  · refine ⟨rfl, rfl, hcontainers.same ?_ rfl, rfl⟩
    exact Map.insert_self hsome

theorem acceptPreprepare_throws (hzero : key.view = 0 ∨ key.sequence = 0) :
    ∃ e, (acceptPreprepare key.logKey key).runFrom s = (.error e, s) := by
  have hstored := stored_accepted key hcontainers
  rw [hsome] at hstored
  have hread := Conversion.operationKey_fromString key
  rw [if_neg fun h => hzero.elim h.1 h.2.1] at hread
  have hrun := runFrom_persistent_stored .operationKey key hcontainers.accepted.init hstored
  rw [hread] at hrun
  exact ⟨_, by rw [acceptPreprepare, runFrom_bind, runFrom_onReplica hrun]; rfl⟩

end

/-! ## One delivery -/

variable (node key known) in
/-- A replica that has recorded some messages of an operation, and whose stage and
effects are those that some of them, maybe not yet the last, ask for. -/
structure Delivering (s₀ : Replica) (recorded settled : List BznEnvelope) (s : Replica) : Prop where
  lifetime : s.lifetime = none
  view : s.pbft.view = key.view
  viewIsValid : s.pbft.viewIsValid = true
  containers : PbftContainers node s.toProcess s.pbft
  accepted : s.pbft.acceptedPreprepares[key.logKey]? =
    if (s₀.pbft.acceptedPreprepares[key.logKey]?).isSome || preprepareIn node recorded then some key else none
  heard : Heard node key known recorded (s.pbft.operations.find key)
  stage : (s.pbft.operations.find key).stage = stageOf (preparedBy node key known settled) (committedBy node settled)
  log : ∃ es, s.log = s₀.log ++ es ∧ es.countP (Effect.commits node key) = (preparedBy node key known settled).toNat ∧
    es.countP (Effect.posts key) = (preparedBy node key known settled && committedBy node settled).toNat

variable {s₀ : Replica}

theorem PbftContainers.movesTo {s' : Replica} {es : List Effect} (h : PbftContainers node s.toProcess s.pbft)
    (hmoves : s.MovesTo key s' es op) : PbftContainers node s'.toProcess s'.pbft := by
  have hframe : s.toProcess.Frame [] (fun _ => True) s'.toProcess := by
    rw [hmoves.process]
    exact ⟨fun _ _ => rfl, List.Subset.refl _, es, rfl, fun _ _ => trivial⟩
  refine (h.frame hframe ⟨List.not_mem_nil, List.not_mem_nil⟩).same ?_ ?_
  · rw [hmoves.ops]
  · rw [hmoves.ops]

variable (outside) in
/-- The operation goes on as far as the messages recorded allow. -/
theorem Delivering.advance (h : Delivering node key known s₀ (envs ++ [env]) envs s) :
    ∃ s', (maybeAdvanceOperationState node outside key).runFrom s = (.ok (), s') ∧
      Delivering node key known s₀ (envs ++ [env]) (envs ++ [env]) s' := by
  have hready := h.heard.isReadyForCommit
  have henough := h.heard.hasCommits
  obtain ⟨s', es', session?, hs', hmoves, hcommits, hposts⟩ := maybeAdvanceOperationState_moves h.lifetime rfl h.stage
    (fun hprepared => hready.trans (preparedBy_concat hprepared env))
    (fun hcommitted => henough.trans (committedBy_concat hcommitted env))
  rw [hready] at hcommits
  rw [hready, henough] at hmoves hposts
  obtain ⟨es, hlog, hcommits₀, hposts₀⟩ := h.log
  refine ⟨s', hs', hmoves.lifetime.trans h.lifetime, ?_, ?_, h.containers.movesTo hmoves, ?_, ?_, ?_, es ++ es',
    ?_, ?_, ?_⟩
  · rw [hmoves.ops.view, h.view]
  · rw [hmoves.ops.viewIsValid, h.viewIsValid]
  · rw [hmoves.ops.acceptedPreprepares, h.accepted]
  · rw [hmoves.find]
    exact h.heard.of_eq rfl rfl rfl rfl
  · rw [hmoves.find]
  · rw [hmoves.log, hlog, List.append_assoc]
  · rw [List.countP_append, hcommits₀, Nat.add_comm, hcommits]
  · rw [List.countP_append, hposts₀, Nat.add_comm, hposts]

theorem handleVote_delivering (h : Delivering node key known s₀ envs envs s) (henv : IsMessageOf node key env)
    (htype : (messageIn node env).type = .prepare ∨ (messageIn node env).type = .commit) :
    ∃ s', (handleVote node outside (messageIn node env) env).runFrom s = (.ok (), s') ∧
      Delivering node key known s₀ (envs ++ [env]) (envs ++ [env]) s' := by
  obtain ⟨op, hrecord, hheard, hstage⟩ := h.heard.vote htype
  have hmoves := (Replica.MovesTo.withOperation key s (s.pbft.operations.find key)).trans
    (Replica.MovesTo.withOperation key (s.withOperation key (s.pbft.operations.find key)) op)
  have hfound := (Replica.MovesTo.withOperation key s (s.pbft.operations.find key)).find
  have hpreprepare : preprepareIn node (envs ++ [env]) = preprepareIn node envs := by
    rw [preprepareIn_concat]
    rcases htype with htype | htype <;> simp [htype]
  obtain ⟨es, hlog, hcommits, hposts⟩ := h.log
  have hrecorded : Delivering node key known s₀ (envs ++ [env]) envs
      ((s.withOperation key (s.pbft.operations.find key)).withOperation key op) := by
    refine ⟨hmoves.lifetime.trans h.lifetime, h.view, h.viewIsValid, h.containers.movesTo hmoves, ?_, ?_, ?_, es, ?_,
      hcommits, hposts⟩
    · rw [hmoves.ops.acceptedPreprepares, h.accepted, hpreprepare]
    · rw [hmoves.find]
      exact hheard
    · rw [hmoves.find, hstage, h.stage]
    · exact hlog
  obtain ⟨s', hs', hdelivering⟩ := hrecorded.advance outside
  refine ⟨s', ?_, hdelivering⟩
  rw [handleVote, henv.names, runFrom_bind_ok (runFrom_findOrConstruct key s),
    runFrom_bind_ok (changeOperation_moves (by rw [hfound]; exact hrecord))]
  exact hs'

variable (outside) in
/-- The part of `handle_preprepare` that records the message and the request. -/
theorem handlePreprepare_records (henv : IsMessageOf node key env) (htype : (messageIn node env).type = .preprepare)
    (hheard : Heard node key known envs (s.pbft.operations.find key))
    (haccepted : ∀ accepted : OperationKey, s.pbft.acceptedPreprepares[key.logKey]? = some accepted →
      accepted.requestHash = key.requestHash) :
    ∃ s' op, s.MovesTo key s' [] op ∧ Heard node key known (envs ++ [env]) op ∧
      op.stage = (s.pbft.operations.find key).stage ∧
      (handlePreprepare node outside (messageIn node env) env).runFrom s = (do
        acceptPreprepare key.logKey key
        doPreprepared node outside key
        maybeAdvanceOperationState node outside key : Program Fault Replica Unit).runFrom s' := by
  obtain ⟨op, hfind⟩ : ∃ op, s.pbft.operations.find key = op := ⟨_, rfl⟩
  rw [hfind] at hheard ⊢
  have hlogKey : (messageIn node env).logKey = key.logKey := by
    rw [← henv.names]
    rfl
  have hhash : (messageIn node env).requestHash = key.requestHash := by
    rw [← henv.names]
    rfl
  have hconflict : ¬ ((s.pbft.acceptedPreprepares[key.logKey]?).any fun accepted =>
      decide (accepted.requestHash ≠ key.requestHash)) = true := by
    cases hlookup : s.pbft.acceptedPreprepares[key.logKey]? with
    | none => simp
    | some accepted => simpa using haccepted accepted hlookup
  -- the operation is found, and the message recorded
  have hmoves₁ := (Replica.MovesTo.withOperation key s op).trans
    (Replica.MovesTo.withOperation key (s.withOperation key op)
      { op with preprepareMessage? := some env.clearPiggybackedRequests })
  have hrecord : (s.withOperation key op).pbft.operations.find key = op := (Replica.MovesTo.withOperation key s op).find
  have hchange : (changeOperation key (MemoryOperation.recordPbftMsg (messageIn node env)
      env.clearPiggybackedRequests)).runFrom (s.withOperation key op) =
        (.ok (), (s.withOperation key op).withOperation key
        { op with preprepareMessage? := some env.clearPiggybackedRequests }) :=
    changeOperation_moves (by rw [hrecord, MemoryOperation.recordPbftMsg, htype])
  obtain ⟨s₂, hs₂, hmoves₂⟩ := maybeRecordRequest_moves node (messageIn node env).request hmoves₁.find
  have hmoves := hmoves₁.trans hmoves₂
  have hadds := hheard.preprepare_concat htype
  have hstage := (foldl_recordMatching node key (carriedRequests node env)
    { op with preprepareMessage? := some env.clearPiggybackedRequests }).1.stage
  have hrun : (handlePreprepare node outside (messageIn node env) env).runFrom s =
      (do
        env.piggybackedRequests.head?.elim (pure ()) fun request => maybeRecordRequest node request key
        acceptPreprepare key.logKey key
        doPreprepared node outside key
        maybeAdvanceOperationState node outside key : Program Fault Replica Unit).runFrom s₂ := by
    rw [handlePreprepare, runFrom_bind, runFrom_read]
    dsimp only
    rw [hlogKey, hhash, if_neg hconflict, henv.names, runFrom_bind_ok (hfind ▸ runFrom_findOrConstruct key s),
      runFrom_bind_ok hchange]
    refine (runFrom_bind_ok hs₂).trans ?_
    cases env.piggybackedRequests <;> rfl
  rw [hrun]
  cases hpiggybacked : env.piggybackedRequests with
  | nil =>
    rw [carriedRequests, hpiggybacked] at hadds hstage
    exact ⟨s₂, _, hmoves, hadds, hstage, rfl⟩
  | cons request =>
    rw [carriedRequests, hpiggybacked] at hadds hstage
    obtain ⟨s₃, hs₃, hmoves₃⟩ := maybeRecordRequest_moves node request hmoves.find
    exact ⟨s₃, _, hmoves.trans hmoves₃, hadds, hstage, runFrom_bind_ok hs₃⟩

theorem Delivering.accepted_eq (h : Delivering node key known s₀ envs envs s) (accepted : OperationKey)
    (hlookup : s.pbft.acceptedPreprepares[key.logKey]? = some accepted) : accepted = key := by
  rw [h.accepted] at hlookup
  split at hlookup
  · exact (Option.some.inj hlookup).symm
  · cases hlookup

/-- A PREPARE is no COMMIT. -/
theorem Effect.commits_prepare
    (h : env.payload = .pbft (node.wire.pbftMsg.serialize (commonMessageSetup key .prepare))) :
    Effect.commits node key (.multicast env) = false := by
  rw [Effect.commits, h, decide_eq_false_iff_not, Payload.pbft.injEq]
  intro hsame
  have := congrArg node.wire.pbftMsg.decode hsame
  rw [Codec.decode_serialize, Codec.decode_serialize] at this
  have htypes : PbftMsgType.prepare = .commit := congrArg PbftMsg.type this
  cases htypes

/-- A pre-prepare is taken unless it was accepted before and cannot be read back. -/
theorem handlePreprepare_delivering (h : Delivering node key known s₀ envs envs s) (henv : IsMessageOf node key env)
    (htype : (messageIn node env).type = .preprepare) (hlength : key.requestHash.length = 32)
    (hread : s.pbft.acceptedPreprepares[key.logKey]? = none ∨ key.view ≠ 0 ∧ key.sequence ≠ 0) :
    ∃ s', (handlePreprepare node outside (messageIn node env) env).runFrom s = (.ok (), s') ∧
      Delivering node key known s₀ (envs ++ [env]) (envs ++ [env]) s' := by
  obtain ⟨s₁, op, hmoves₁, hheard, hstage, hrun⟩ := handlePreprepare_records outside henv htype h.heard
    fun accepted hlookup => by rw [h.accepted_eq accepted hlookup]
  have hcontainers₁ := h.containers.movesTo hmoves₁
  have hlife₁ := hmoves₁.lifetime.trans h.lifetime
  have hsame₁ : s₁.pbft.acceptedPreprepares = s.pbft.acceptedPreprepares := hmoves₁.ops.acceptedPreprepares
  obtain ⟨s₂, hs₂, haccepts⟩ : ∃ s₂, (acceptPreprepare key.logKey key).runFrom s₁ = (.ok (), s₂) ∧
      s₁.AcceptsTo node key s₂ := by
    cases hlookup : s.pbft.acceptedPreprepares[key.logKey]? with
    | none => exact acceptPreprepare_new hlife₁ hcontainers₁ (by rw [hsame₁, hlookup]) hlength
    | some accepted =>
      obtain rfl := h.accepted_eq accepted hlookup
      obtain ⟨hview, hsequence⟩ := hread.resolve_left (by rw [hlookup]; exact Option.some_ne_none _)
      refine acceptPreprepare_again hcontainers₁ (by rw [hsame₁, hlookup]) hview hsequence ?_
      intro hnil
      rw [hnil] at hlength
      cases hlength
  obtain ⟨s₃, prepare, hprepare, hs₃, hmoves₃⟩ :=
    broadcastPbftMsg_moves node outside (haccepts.lifetime.trans hlife₁) key
    (commonMessageSetup key .prepare)
  obtain ⟨es, hlog, hcommits, hposts⟩ := h.log
  have hfind : s₃.pbft.operations.find key = op := by
    rw [hmoves₃.find, haccepts.pbft]
    exact hmoves₁.find
  have hrecorded : Delivering node key known s₀ (envs ++ [env]) envs s₃ := by
    refine ⟨hmoves₃.lifetime.trans (haccepts.lifetime.trans hlife₁), ?_, ?_,
      haccepts.containers.movesTo hmoves₃, ?_, ?_,
      ?_, es ++ [.multicast prepare], ?_, ?_, ?_⟩
    · rw [hmoves₃.ops.view, haccepts.pbft]
      exact hmoves₁.ops.view.trans h.view
    · rw [hmoves₃.ops.viewIsValid, haccepts.pbft]
      exact hmoves₁.ops.viewIsValid.trans h.viewIsValid
    · rw [hmoves₃.ops.acceptedPreprepares, haccepts.pbft]
      rw [preprepareIn_concat, htype]
      simp
    · rw [hfind]
      exact hheard
    · rw [hfind, hstage, h.stage]
    · rw [hmoves₃.log, haccepts.log, hmoves₁.log, List.append_nil, hlog, List.append_assoc]
    · rw [List.countP_append, hcommits]
      simp [Effect.commits_prepare hprepare]
    · rw [List.countP_append, hposts]
      simp
  obtain ⟨s', hs', hdelivering⟩ := hrecorded.advance outside
  refine ⟨s', ?_, hdelivering⟩
  rw [hrun, runFrom_bind_ok hs₂, doPreprepared, runFrom_bind_ok hs₃]
  exact hs'

variable (outside) in
theorem handlePreprepare_throws (h : Delivering node key known s₀ envs envs s) (henv : IsMessageOf node key env)
    (htype : (messageIn node env).type = .preprepare) (haccepted : (s.pbft.acceptedPreprepares[key.logKey]?).isSome)
    (hzero : key.view = 0 ∨ key.sequence = 0) :
    ∃ e, (handlePreprepare node outside (messageIn node env) env).result s = .error e := by
  obtain ⟨s₁, op, hmoves₁, -, -, hrun⟩ := handlePreprepare_records outside henv htype h.heard
    fun accepted hlookup => by rw [h.accepted_eq accepted hlookup]
  obtain ⟨accepted, hlookup⟩ := Option.isSome_iff_exists.mp haccepted
  obtain rfl := h.accepted_eq accepted hlookup
  obtain ⟨e, he⟩ := acceptPreprepare_throws (h.containers.movesTo hmoves₁)
    (by rw [hmoves₁.ops.acceptedPreprepares, hlookup]) hzero
  exact ⟨e, by rw [result, hrun, runFrom_bind, he]⟩

variable (outside) in
theorem handleBznMessage_eq (henv : IsMessageOf node key env) (hview : s.pbft.view = key.view)
    (hvalid : s.pbft.viewIsValid = true) :
    (handleBznMessage node outside env).runFrom s =
      (if (messageIn node env).type = .preprepare then handlePreprepare node outside (messageIn node env) env
        else handleVote node outside (messageIn node env) env).runFrom s := by
  have hparse : node.wire.pbftMsg.parse env.pbft = some (messageIn node env) := by
    rw [Codec.parse, henv.parses, if_pos rfl]
    rfl
  have hmsgView : (messageIn node env).view = key.view := by
    rw [← henv.names]
    rfl
  have hpasses : s.pbft.preliminaryFilterMsg (messageIn node env) = true := by
    rcases henv.type with htype | htype | htype <;> simp [Pbft.preliminaryFilterMsg, hvalid, htype, hmsgView, hview]
  rw [handleBznMessage, hparse]
  dsimp only
  rw [handleMessage, runFrom_bind, runFrom_read]
  dsimp only
  rw [henv.peer, hpasses, Bool.not_true, if_neg Bool.false_ne_true, if_neg Bool.false_ne_true]
  split
  · rename_i hsender
    rw [runFrom_bind, runFrom_lift, henv.verified.resolve_left hsender]
    rcases henv.type with htype | htype | htype <;> rw [htype] <;> rfl
  · rcases henv.type with htype | htype | htype <;> rw [htype] <;> rfl

/-- A pre-prepare names a hash that was computed. -/
theorem IsMessageOf.length_requestHash (hsha : ∀ text, (node.ssl.sha256 text).length = 32)
    (henv : IsMessageOf node key env)
    (htype : (messageIn node env).type = .preprepare) : key.requestHash.length = 32 := by
  obtain ⟨request, -, hmatching⟩ := henv.carries htype
  rw [isMatching, decide_eq_true_eq] at hmatching
  obtain ⟨text, -, hhash⟩ := except_bind_eq_ok.mp hmatching
  rw [← Except.ok.inj hhash]
  exact hsha text

/-! ## All deliveries -/

/-- Messages delivered one after another, each with what the replica finds outside. -/
def deliver (node : Node) (deliveries : List (Outside × BznEnvelope)) : Program Fault Replica Unit :=
  forEach deliveries fun delivery => handleBznMessage node delivery.1 delivery.2

variable (node key s) in
/-- How often the pre-prepare of an operation is accepted, when it was maybe accepted before. -/
def acceptances (envs : List BznEnvelope) : Nat :=
  (s.pbft.acceptedPreprepares[key.logKey]?).isSome.toNat +
    envs.countP fun env => decide ((messageIn node env).type = .preprepare)

variable (node key s) in
/-- The pre-prepare can be read back from storage, or is not accepted a second time. -/
def Rereadable (envs : List BznEnvelope) : Prop :=
  (key.view ≠ 0 ∧ key.sequence ≠ 0) ∨ acceptances node key s envs ≤ 1

theorem acceptances_concat (envs : List BznEnvelope) (env : BznEnvelope) :
    acceptances node key s (envs ++ [env]) =
      acceptances node key s envs + (decide ((messageIn node env).type = .preprepare)).toNat := by
  rw [acceptances, acceptances, Nat.add_assoc]
  by_cases h : (messageIn node env).type = .preprepare <;> simp [h]

theorem Rereadable.of_append {envs' : List BznEnvelope} (h : Rereadable node key s (envs ++ envs')) :
    Rereadable node key s envs := by
  refine h.imp_right fun hcount => ?_
  rw [acceptances, List.countP_append] at hcount
  rw [acceptances]
  omega

theorem Delivering.isSome_accepted (h : Delivering node key known s₀ envs envs s) :
    (s.pbft.acceptedPreprepares[key.logKey]?).isSome = true ↔ 0 < acceptances node key s₀ envs := by
  rw [h.accepted, acceptances, preprepareIn]
  cases (s₀.pbft.acceptedPreprepares[key.logKey]?).isSome <;> simp

variable (outside) in
theorem handleBznMessage_delivering (hsha : ∀ text, (node.ssl.sha256 text).length = 32)
    (h : Delivering node key known s₀ envs envs s) (henv : IsMessageOf node key env)
    (hread : Rereadable node key s₀ (envs ++ [env])) :
    ∃ s', (handleBznMessage node outside env).runFrom s = (.ok (), s') ∧
      Delivering node key known s₀ (envs ++ [env]) (envs ++ [env]) s' := by
  rw [handleBznMessage_eq outside henv h.view h.viewIsValid]
  split
  · rename_i htype
    refine handlePreprepare_delivering h henv htype (henv.length_requestHash hsha htype)
      (hread.symm.imp_left fun hcount => ?_)
    rw [acceptances_concat, htype] at hcount
    by_contra hsome
    have hpos := h.isSome_accepted.mp (Option.isSome_iff_ne_none.mpr hsome)
    simp at hcount
    omega
  · rename_i htype
    exact handleVote_delivering h henv (henv.type.resolve_left htype)

variable {deliveries : List (Outside × BznEnvelope)}

section

variable (hsha : ∀ text, (node.ssl.sha256 text).length = 32) (h : Delivering node key known s₀ envs envs s)
  (hmessages : ∀ delivery ∈ deliveries, IsMessageOf node key delivery.2)
include hsha h hmessages

theorem deliver_delivering (hread : Rereadable node key s₀ (envs ++ deliveries.map Prod.snd)) :
    ∃ s', (deliver node deliveries).runFrom s = (.ok (), s') ∧
      Delivering node key known s₀ (envs ++ deliveries.map Prod.snd) (envs ++ deliveries.map Prod.snd) s' := by
  induction deliveries generalizing envs s with
  | nil => exact ⟨s, rfl, by rwa [List.map_nil, List.append_nil]⟩
  | cons delivery _ ih =>
    rw [List.map_cons, List.append_cons] at hread ⊢
    obtain ⟨s₁, hs₁, h₁⟩ := handleBznMessage_delivering delivery.1 hsha h (hmessages delivery List.mem_cons_self)
      hread.of_append
    obtain ⟨s', hs', h'⟩ := ih h₁ (fun d hd => hmessages d (List.mem_cons_of_mem _ hd)) hread
    exact ⟨s', by rw [deliver, forEach, runFrom_bind_ok hs₁]; exact hs', h'⟩

/-- A replica ends as soon as it cannot read a pre-prepare back. -/
theorem deliver_throws (hzero : key.view = 0 ∨ key.sequence = 0) (hbefore : acceptances node key s₀ envs ≤ 1)
    (hafter : 1 < acceptances node key s₀ (envs ++ deliveries.map Prod.snd)) :
    ∃ e, (deliver node deliveries).result s = .error e := by
  induction deliveries generalizing envs s with
  | nil =>
    rw [List.map_nil, List.append_nil] at hafter
    omega
  | cons delivery _ ih =>
    rw [List.map_cons, List.append_cons] at hafter
    have henv := hmessages delivery List.mem_cons_self
    by_cases hone : acceptances node key s₀ (envs ++ [delivery.2]) ≤ 1
    · obtain ⟨s₁, hs₁, h₁⟩ := handleBznMessage_delivering delivery.1 hsha h henv (.inr hone)
      obtain ⟨e, he⟩ := ih h₁ (fun d hd => hmessages d (List.mem_cons_of_mem _ hd)) hone hafter
      refine ⟨e, ?_⟩
      rw [result, deliver, forEach, runFrom_bind_ok hs₁]
      exact he
    · -- this message is the second pre-prepare
      rw [acceptances_concat] at hone
      have htype : (messageIn node delivery.2).type = .preprepare := by
        by_contra htype
        rw [decide_eq_false htype] at hone
        exact hone hbefore
      rw [htype] at hone
      simp at hone
      obtain ⟨e, he⟩ := handlePreprepare_throws delivery.1 h henv htype (h.isSome_accepted.mpr (by omega)) hzero
      have hfirst : (handleBznMessage node delivery.1 delivery.2).result s = .error e := by
        rw [result, handleBznMessage_eq delivery.1 henv h.view h.viewIsValid, if_pos htype]
        exact he
      exact ⟨e, by rw [deliver, forEach, result_bind_error hfirst]⟩

end

/-! ## Any two orders -/

variable (node key s) in
/-- A replica in the view of an operation that has heard no message of it and accepted no
other pre-prepare in its place. Its process goes on, and its containers are as in every
replica that can be reached. The request may be known already, as it is at the primary. -/
structure Awaits : Prop where
  lifetime : s.lifetime = none
  containers : PbftContainers node s.toProcess s.pbft
  view : s.pbft.view = key.view
  viewIsValid : s.pbft.viewIsValid = true
  noConflict : ∀ accepted : OperationKey, s.pbft.acceptedPreprepares[key.logKey]? = some accepted →
    accepted.requestHash = key.requestHash
  preprepare : (s.pbft.operations.find key).preprepareMessage? = none
  prepares : (s.pbft.operations.find key).preparesSeen = ∅
  commits : (s.pbft.operations.find key).commitsSeen = ∅
  stage : (s.pbft.operations.find key).stage = .prepare

theorem Awaits.accepted_eq (h : Awaits node key s) (accepted : OperationKey)
    (hlookup : s.pbft.acceptedPreprepares[key.logKey]? = some accepted) : accepted = key := by
  obtain ⟨view, sequence, requestHash⟩ := accepted
  obtain ⟨view', sequence', requestHash'⟩ := key
  have hhash : requestHash = requestHash' := h.noConflict _ hlookup
  obtain ⟨rfl, rfl⟩ := LogKey.mk.inj (h.containers.acceptedKey _ _ hlookup)
  rw [hhash]

theorem Awaits.delivering (h : Awaits node key s) :
    Delivering node key (s.pbft.operations.find key).hasRequest s [] [] s where
  lifetime := h.lifetime
  view := h.view
  viewIsValid := h.viewIsValid
  containers := h.containers
  accepted := by
    cases hlookup : s.pbft.acceptedPreprepares[key.logKey]? with
    | none => rfl
    | some accepted => rw [h.accepted_eq accepted hlookup]; rfl
  heard := .start h.preprepare h.prepares h.commits
  stage := by
    rw [h.stage, preparedBy, preprepareIn, List.any_nil, Bool.and_false]
    rfl
  log := by
    refine ⟨[], (List.append_nil _).symm, ?_, ?_⟩ <;>
      rw [preparedBy, preprepareIn, List.any_nil, Bool.and_false] <;> rfl

section

variable (node key known) {envs' : List BznEnvelope} (hsame : ∀ env, env ∈ envs ↔ env ∈ envs')
include hsame

theorem sendersOf_congr (type : PbftMsgType) : sendersOf node type envs = sendersOf node type envs' := by
  ext sender
  simp only [sendersOf, List.mem_toFinset, List.mem_map, List.mem_filter, hsame]

theorem preparedBy_congr : preparedBy node key known envs = preparedBy node key known envs' := by
  have hany : ∀ f : BznEnvelope → Bool, envs.any f = envs'.any f := by
    intro f
    rw [Bool.eq_iff_iff, List.any_eq_true, List.any_eq_true]
    simp only [hsame]
  rw [preparedBy, preparedBy, requestIn, requestIn, preprepareIn, preprepareIn, hany, hany, sendersOf_congr node hsame]

theorem committedBy_congr : committedBy node envs = committedBy node envs' := by
  rw [committedBy, committedBy, sendersOf_congr node hsame]

end

variable (node key s) in
/-- The stage of an operation after some deliveries. -/
def stageAfter (deliveries : List (Outside × BznEnvelope)) : OperationStage :=
  (((deliver node deliveries).final s).pbft.operations.find key).stage

variable (node s) in
/-- What a replica does for some deliveries. -/
def effectsOf (deliveries : List (Outside × BznEnvelope)) : List Effect :=
  ((deliver node deliveries).final s).log.drop s.log.length

variable (node key s) in
/-- The deliveries are all handled. A COMMIT is broadcast once if they prepare the operation
and else never, and the operation is posted once if they also commit it and else never. -/
structure Settles (deliveries : List (Outside × BznEnvelope)) : Prop where
  returns : (deliver node deliveries).result s = .ok ()
  commits : (effectsOf node s deliveries).countP (Effect.commits node key) =
    (preparedBy node key (s.pbft.operations.find key).hasRequest (deliveries.map Prod.snd)).toNat
  posts : (effectsOf node s deliveries).countP (Effect.posts key) =
    (preparedBy node key (s.pbft.operations.find key).hasRequest (deliveries.map Prod.snd) &&
      committedBy node (deliveries.map Prod.snd)).toNat

theorem Awaits.settles (h : Awaits node key s) (hsha : ∀ text, (node.ssl.sha256 text).length = 32)
    (hmessages : ∀ delivery ∈ deliveries, IsMessageOf node key delivery.2)
    (hread : Rereadable node key s (deliveries.map Prod.snd)) :
    Settles node key s deliveries ∧ stageAfter node key s deliveries =
      stageOf (preparedBy node key (s.pbft.operations.find key).hasRequest (deliveries.map Prod.snd))
        (committedBy node (deliveries.map Prod.snd)) := by
  obtain ⟨s', hs', hdelivering⟩ := deliver_delivering hsha h.delivering hmessages (by rwa [List.nil_append])
  rw [List.nil_append] at hdelivering
  obtain ⟨es, hlog, hcommits, hposts⟩ := hdelivering.log
  have hresult : (deliver node deliveries).result s = .ok () := by rw [result, hs']
  have hfinal : (deliver node deliveries).final s = s' := by rw [final, hs']
  have heffects : effectsOf node s deliveries = es := by
    rw [effectsOf, hfinal, hlog, List.drop_left]
  refine ⟨⟨hresult, ?_, ?_⟩, ?_⟩
  · rw [heffects, hcommits]
  · rw [heffects, hposts]
  · rw [stageAfter, hfinal, hdelivering.stage]

theorem Settles.rereadable (h : Settles node key s deliveries) (hsha : ∀ text, (node.ssl.sha256 text).length = 32)
    (hawaits : Awaits node key s) (hmessages : ∀ delivery ∈ deliveries, IsMessageOf node key delivery.2) :
    Rereadable node key s (deliveries.map Prod.snd) := by
  by_contra hread
  rw [Rereadable, not_or, not_and_or, not_not, not_not, Nat.not_le] at hread
  have hbefore : acceptances node key s [] ≤ 1 := by
    exact Bool.toNat_le _
  obtain ⟨e, he⟩ := deliver_throws hsha hawaits.delivering hmessages hread.1 hbefore
    (by rw [List.nil_append]; exact hread.2)
  rw [h.returns] at he
  cases he

/-- The messages of one operation, delivered in two orders and with repetitions, are handled
alike and leave the same stage exactly if no pre-prepare has to be read back for view 0 or
sequence 0. -/
theorem deliver_any_order_iff (node : Node) (hsha : ∀ text, (node.ssl.sha256 text).length = 32) (key : OperationKey)
    (s : Replica) (hawaits : Awaits node key s) (deliveries deliveries' : List (Outside × BznEnvelope))
    (hmessages : ∀ env ∈ deliveries.map Prod.snd, IsMessageOf node key env)
    (hsame : ∀ env, env ∈ deliveries.map Prod.snd ↔ env ∈ deliveries'.map Prod.snd) :
    (Settles node key s deliveries ∧ Settles node key s deliveries' ∧
        stageAfter node key s deliveries = stageAfter node key s deliveries') ↔
      Rereadable node key s (deliveries.map Prod.snd) ∧ Rereadable node key s (deliveries'.map Prod.snd) := by
  have hl : ∀ delivery ∈ deliveries, IsMessageOf node key delivery.2 := fun delivery hdelivery =>
    hmessages _ (List.mem_map_of_mem hdelivery)
  have hl' : ∀ delivery ∈ deliveries', IsMessageOf node key delivery.2 := fun delivery hdelivery =>
    hmessages _ ((hsame _).mpr (List.mem_map_of_mem hdelivery))
  constructor
  · rintro ⟨hsettles, hsettles', -⟩
    exact ⟨hsettles.rereadable hsha hawaits hl, hsettles'.rereadable hsha hawaits hl'⟩
  · rintro ⟨hread, hread'⟩
    obtain ⟨hsettles, hstage⟩ := hawaits.settles hsha hl hread
    obtain ⟨hsettles', hstage'⟩ := hawaits.settles hsha hl' hread'
    refine ⟨hsettles, hsettles', ?_⟩
    rw [hstage, hstage', preparedBy_congr node key _ hsame, committedBy_congr node hsame]

end

/-- A node that is alone in its swarm and whose hashes have the right length. -/
def aloneNode : Node :=
  { sampleNode onePeer "A" with
    options := { (sampleNode onePeer "A").options with peerMessageSigning := false }
    ssl := { sampleSsl with sha256 := fun _ => List.replicate 32 7 } }

def aloneKey (sequence : UInt64) : OperationKey := ⟨1, sequence, List.replicate 32 7⟩

/-- A message of the node to itself. -/
def aloneMessage (sequence : UInt64) (type : PbftMsgType) : Outside × BznEnvelope :=
  (sampleOutside, { (default : BznEnvelope) with
    swarmId := ascii "swarm"
    sender := ascii "A"
    payload := .pbft (Wire.plain.pbftMsg.serialize { (default : PbftMsg) with
      type := type
      view := 1
      sequence := sequence
      requestHash := List.replicate 32 7
      request? := some { (default : BznEnvelope) with
        payload := .databaseMsg (Wire.plain.databaseMsg.serialize default) } }) })

theorem messageIn_aloneMessage (sequence : UInt64) (type : PbftMsgType) :
    messageIn aloneNode (aloneMessage sequence type).2 = { (default : PbftMsg) with
      type := type
      view := 1
      sequence := sequence
      requestHash := List.replicate 32 7
      request? := some { (default : BznEnvelope) with
        payload := .databaseMsg (Wire.plain.databaseMsg.serialize default) } } :=
  Codec.decode_serialize _ _

theorem isMessageOf_aloneMessage (sequence : UInt64) {type : PbftMsgType}
    (htype : type = .preprepare ∨ type = .prepare ∨ type = .commit) :
    IsMessageOf aloneNode (aloneKey sequence) (aloneMessage sequence type).2 where
  parses := Codec.accepts_serialize _ _
  names := by
    rw [messageIn_aloneMessage]
    rfl
  type := by
    rw [messageIn_aloneMessage]
    exact htype
  peer := by
    show aloneNode.isPeer (ascii "A") = true
    decide
  verified := .inr rfl
  carries := by
    intro _
    refine ⟨_, List.mem_cons_self, ?_⟩
    rfl

theorem awaits_aloneReplica (sequence : UInt64) : Awaits aloneNode (aloneKey sequence) (sampleReplica aloneNode) := by
  have hstart : replicaOver aloneNode none default =
    (.ok (sampleReplica aloneNode), (newPbft aloneNode).final (.start default)) := rfl
  have hfind : (sampleReplica aloneNode).pbft.operations.find (aloneKey sequence) = .new (aloneKey sequence) := rfl
  refine ⟨rfl, (replicaOver_default hstart).1.containers, rfl, rfl, ?_, ?_, ?_, ?_, ?_⟩
  · intro accepted h
    cases h
  all_goals rw [hfind]; rfl

theorem deliver_any_order_three :
    let commitFirst := [.commit, .preprepare, .prepare].map (aloneMessage 1)
    let preprepareFirst := [.preprepare, .prepare, .preprepare, .commit].map (aloneMessage 1)
    Settles aloneNode (aloneKey 1) (sampleReplica aloneNode) commitFirst ∧
      Settles aloneNode (aloneKey 1) (sampleReplica aloneNode) preprepareFirst ∧
      stageAfter aloneNode (aloneKey 1) (sampleReplica aloneNode) commitFirst =
        stageAfter aloneNode (aloneKey 1) (sampleReplica aloneNode) preprepareFirst := by
  refine (deliver_any_order_iff aloneNode (fun _ => List.length_replicate) (aloneKey 1) (sampleReplica aloneNode)
    (awaits_aloneReplica 1) ([.commit, .preprepare, .prepare].map (aloneMessage 1))
    ([.preprepare, .prepare, .preprepare, .commit].map (aloneMessage 1)) ?_ ?_).mpr ⟨.inl (by decide), .inl (by decide)⟩
  · simp [isMessageOf_aloneMessage]
  · intro env
    simp only [List.map_cons, List.map_nil, List.mem_cons, List.not_mem_nil]
    tauto

/-- With sequence 0, a second pre-prepare ends the replica before the prepare, or after it. -/
theorem stages_differ_at_zero :
    let preprepareLast := [.preprepare, .prepare, .preprepare].map (aloneMessage 0)
    let prepareLast := [.preprepare, .preprepare, .prepare].map (aloneMessage 0)
    stageAfter aloneNode (aloneKey 0) (sampleReplica aloneNode) preprepareLast = .commit ∧
      (deliver aloneNode preprepareLast).result (sampleReplica aloneNode) =
        .error (.runtimeError "bad log key from persistent state") ∧
      stageAfter aloneNode (aloneKey 0) (sampleReplica aloneNode) prepareLast = .prepare ∧
      (effectsOf aloneNode (sampleReplica aloneNode) prepareLast).countP
        (Effect.commits aloneNode (aloneKey 0)) = 0 := by
  decide +kernel

end SwarmDb
