import SwarmDb.Pbft.SentMessages
import SwarmDb.Pbft.Construction
import SwarmDb.Pbft.Sample

/-!
# Requests that come again

A primary remembers the requests it has ordered, and forgets them when they are too old. `handle_request` accepts a
request that is as old as is allowed, and `saw_request` forgets it at that very age. If none is handled at this instant,
then no request is ordered twice (`ordered_once`).
-/

namespace SwarmDb

open Lib Program

/-- The replica has gone on with effects that satisfy `P` only. -/
def Appends (P : Effect → Prop) (s s' : Replica) : Prop := ∃ l, s'.log = s.log ++ l ∧ ∀ e ∈ l, P e

instance (P : Effect → Prop) : Std.Refl (Appends P) := ⟨fun _ => ⟨[], (List.append_nil _).symm, fun _ h => by cases h⟩⟩

instance (P : Effect → Prop) : IsTrans Replica (Appends P) where
  trans := by
    rintro s s' s'' ⟨l, hl, hP⟩ ⟨l', hl', hP'⟩
    refine ⟨l ++ l', by rw [hl', hl, List.append_assoc], fun e he => ?_⟩
    rcases List.mem_append.mp he with he | he
    · exact hP e he
    · exact hP' e he

/-- The request has the right age. -/
def Young (outside : Outside) (timestamp : UInt64) : Prop :=
  ¬ (timestamp < outside.now - maxRequestAgeMs ∨ outside.now + maxRequestAgeMs < timestamp)

section

variable {node : Node} {outside : Outside} {P : Effect → Prop} {α : Type}

/-! ## The effects of programs -/

theorem Appends.of_log_eq {s s' : Replica} (h : s'.log = s.log) : Appends P s s' :=
  ⟨[], h.trans (List.append_nil _).symm, fun _ h => by cases h⟩

theorem modifyPbft_appends (f : Pbft → Pbft) : Within (Appends P) (modifyPbft f) := fun _ => .of_log_eq rfl

theorem emit_appends {e : Effect} (h : P e) : Within (Appends P) (onReplica (emit e)) := by
  intro s
  cases hr : (emit e).result s.toProcess with
  | ok => exact ⟨[e], (emit_ok hr).log, by simpa using h⟩
  | error => exact .of_log_eq (congrArg Process.log (act_error hr))

theorem multicast_appends {env : BznEnvelope} (h : ∀ env', env'.payload = env.payload → P (.multicast env')) :
    Within (Appends P) (onReplica (node.multicast env)) := by
  intro s
  cases hr : (node.multicast env).result s.toProcess with
  | ok =>
    obtain ⟨env', henv', hemits⟩ := Node.multicast_ok hr
    exact ⟨[_], hemits.log, by simpa using h env' (Node.maybeSigned_payload henv')⟩
  | error => exact .of_log_eq (congrArg Process.log (Node.multicast_error hr))

theorem assignMember_appends (c : Conversion α) (name : Bytes) (put : α → Pbft → Pbft) (v : α) :
    Within (Appends P) (assignMember c name put v) := by
  intro s
  cases hr : (assignMember c name put v).result s with
  | ok =>
    obtain ⟨q, hwrites, hq⟩ := assignMember_ok hr
    rw [hq]
    exact .of_log_eq hwrites.log
  | error => exact .of_log_eq (congrArg Process.log (assignMember_error hr))

/-! ## Handling a request -/

/-- A primary has more open requests than it may have. -/
def Pbft.Busy (node : Node) (p : Pbft) : Prop :=
  node.options.admissionWindow < p.nextIssuedSequenceNumber - p.lastExecutedSequenceNumber

/-- A request is sent on, or answered with an error, which is TOO_BUSY only if `busy`. -/
def Effect.TurnsDown (node : Node) (busy : Prop) : Effect → Prop
  | send _ _ => True
  | reply _ env => ∀ err, node.wire.swarmError.parse env.swarmError = some err → err.message = tooBusyErrorMsg → busy
  | _ => False

/-- What is remembered after a request was ordered. -/
def remembered (outside : Outside) (requestEnv : BznEnvelope) (hash : Hash) (p : Pbft) : List (UInt64 × Uuid × Hash) :=
  ((requestEnv.timestamp, requestEnv.sender, hash) :: p.recentRequests).filter fun r =>
    outside.now - maxRequestAgeMs < r.1

/-- What becomes of a request: it is passed by, with nothing remembered or forgotten, or
it is young and not remembered yet, and then it is, with those that are not too old. -/
inductive Treated (node : Node) (outside : Outside) (requestEnv : BznEnvelope) (hash : Hash) (s s' : Replica) : Prop
  | passed (recent : s'.pbft.recentRequests = s.pbft.recentRequests)
      (log : Appends (Effect.TurnsDown node (s.pbft.Busy node)) s s')
  | ordered (young : Young outside requestEnv.timestamp) (new : alreadySeenRequest s.pbft requestEnv hash = false)
      (recent : s'.pbft.recentRequests = remembered outside requestEnv hash s.pbft)
      (log : Appends (fun e => ∃ env, e = .multicast env) s s')

variable {requestEnv : BznEnvelope} {hash : Hash} {session : Option Nat} {s : Replica}

theorem sendErrorResponse_treated {msg : Bytes} (hmsg : msg = tooBusyErrorMsg → s.pbft.Busy node) :
    Treated node outside requestEnv hash s ((sendErrorResponse node outside requestEnv session hash msg).final s) := by
  unfold sendErrorResponse
  split
  · refine .passed rfl (emit_appends (fun err hparse hbusy => ?_) s)
    cases (Codec.parse_serialize _ _).symm.trans hparse
    exact hmsg hbusy
  · exact .passed rfl (Std.Refl.refl s)

theorem forwardRequestToPrimary_treated :
    Treated node outside requestEnv hash s ((forwardRequestToPrimary node requestEnv).final s) := by
  unfold forwardRequestToPrimary
  rw [final_read_bind]
  split
  · exact .passed rfl (Std.Refl.refl s)
  · exact final_lift_bind_of (P := Treated node outside requestEnv hash s) (.passed rfl (Std.Refl.refl s))
      fun _ _ => .passed rfl (emit_appends trivial s)

theorem order_appends (h : ∀ env, P (.multicast env)) :
    Within (Appends P) (do
      sawRequest outside requestEnv hash
      let key ← setupRequestOperation node requestEnv hash
      doPreprepare node outside key : Program Fault Replica Unit) := by
  refine .bind (modifyPbft_appends _) fun _ => .bind ?_ fun key => ?_
  · exact .bind .read fun _ => .bind (assignMember_appends _ _ _ _) fun _ => .bind .read fun _ =>
      .bind (modifyPbft_appends _) fun _ => .bind (modifyPbft_appends _) fun _ => .pure _
  · refine .bind .read fun s => .bind (.lift _) fun reqEnv => ?_
    split
    · exact multicast_appends fun _ _ => h _
    · exact multicast_appends fun _ _ => h _

theorem setupRequestOperation_recentRequests :
    Keeps (fun s : Replica => s.pbft.recentRequests) (setupRequestOperation node requestEnv hash) := by
  have hnext : ∀ v, Keeps (fun s : Replica => s.pbft.recentRequests) (setNextIssuedSequenceNumber v) := by
    intro v
    refine assignMember_keeps _ _ ?_ v
    exact fun _ _ => rfl
  exact .bind .read fun _ => .bind (hnext _) fun _ => .bind .read fun _ =>
    .bind (modifyPbft_keeps fun _ => rfl) fun _ =>
    .bind (modifyPbft_keeps fun _ => rfl) fun _ => .pure _

theorem doPreprepare_recentRequests (key : OperationKey) :
    Keeps (fun s : Replica => s.pbft.recentRequests) (doPreprepare node outside key) := by
  refine .bind .read fun _ => .bind (.lift _) fun _ => ?_
  split
  · exact onReplica_keeps _
  · exact onReplica_keeps _

theorem order_recentRequests : ((do
    sawRequest outside requestEnv hash
    let key ← setupRequestOperation node requestEnv hash
    doPreprepare node outside key : Program Fault Replica Unit).final s).pbft.recentRequests =
      remembered outside requestEnv hash s.pbft := by
  rw [sawRequest, modifyPbft, final_update_bind]
  exact setupRequestOperation_recentRequests.bind (fun key => doPreprepare_recentRequests key) _

theorem orderRequest_treated (hyoung : Young outside requestEnv.timestamp) :
    Treated node outside requestEnv hash s ((orderRequest node outside requestEnv session hash).final s) := by
  have hself : Treated node outside requestEnv hash s s := .passed rfl (Std.Refl.refl s)
  unfold orderRequest
  refine final_ite_of (fun hbusy => sendErrorResponse_treated fun _ => hbusy) fun _ => ?_
  refine final_ite_of (fun _ => sendErrorResponse_treated fun h => absurd h (by decide)) fun hseen => ?_
  rw [Bool.not_eq_true] at hseen
  have hverified : ∀ verified : Bool, Treated node outside requestEnv hash s ((if !verified then pure () else do
      sawRequest outside requestEnv hash
      let key ← setupRequestOperation node requestEnv hash
      doPreprepare node outside key : Program Fault Replica Unit).final s) := by
    intro verified
    refine final_ite_of (P := Treated node outside requestEnv hash s) (fun _ => ?_) fun _ => ?_
    · rwa [final_pure]
    · exact .ordered hyoung hseen order_recentRequests (order_appends (fun env => ⟨env, rfl⟩) s)
  refine final_ite_of (P := Treated node outside requestEnv hash s) (fun _ => ?_) fun _ => ?_
  · exact final_lift_bind_of (P := Treated node outside requestEnv hash s) hself fun verified _ => hverified verified
  · rw [pure_bind]
    exact hverified true

theorem addSessionToSessionsWaiting_ok (hash : Hash) (session : Option Nat) (s : Replica) :
    ∃ p, (addSessionToSessionsWaiting hash session).runFrom s = (.ok (), s.withPbft p) ∧ s.pbft.SameProtocol p ∧
      p.recentRequests = s.pbft.recentRequests := by
  unfold addSessionToSessionsWaiting
  split
  · exact ⟨s.pbft, rfl, .refl _, rfl⟩
  · exact ⟨_, rfl, ⟨rfl, rfl, rfl, rfl, rfl, rfl, rfl, rfl, rfl, rfl⟩, rfl⟩

/-- The sessions that wait for responses do not matter to a request. -/
theorem Treated.of_withPbft {p : Pbft} {s' : Replica} (h : Treated node outside requestEnv hash (s.withPbft p) s')
    (hsame : s.pbft.SameProtocol p) (hrecent : p.recentRequests = s.pbft.recentRequests) :
    Treated node outside requestEnv hash s s' := by
  have hbusy : p.Busy node = s.pbft.Busy node := by
    rw [Pbft.Busy, Pbft.Busy, hsame.nextIssuedSequenceNumber, hsame.lastExecutedSequenceNumber]
  cases h with
  | passed recent log => exact .passed (recent.trans hrecent) (hbusy ▸ log)
  | ordered young new recent log =>
    replace new : (p.recentRequests.any _) = false := new
    replace recent : _ = remembered outside requestEnv hash p := recent
    rw [hrecent] at new
    rw [remembered, hrecent] at recent
    exact .ordered young new recent log

theorem handleRequest_treated (hhash : node.hash requestEnv = .ok hash) (session : Option Nat) (s : Replica) :
    Treated node outside requestEnv hash s ((handleRequest node outside requestEnv session).final s) := by
  obtain ⟨p, hrun, hsame, hrecent⟩ := addSessionToSessionsWaiting_ok hash session s
  have hok : (addSessionToSessionsWaiting hash session).result s = .ok () := by rw [result, hrun]
  have hfinal : (addSessionToSessionsWaiting hash session).final s = s.withPbft p := by rw [final, hrun]
  unfold handleRequest
  rw [hhash]
  refine final_ite_of (P := Treated node outside requestEnv hash s)
    (fun _ => sendErrorResponse_treated fun h => absurd h (by decide)) fun hyoung => ?_
  refine final_ite_of (P := Treated node outside requestEnv hash s)
    (fun _ => sendErrorResponse_treated fun h => absurd h (by decide)) fun _ => ?_
  rw [final_bind_ok hok, hfinal]
  refine Treated.of_withPbft ?_ hsame hrecent
  exact final_ite_of (P := Treated node outside requestEnv hash (s.withPbft p))
    (fun _ => forwardRequestToPrimary_treated) fun _ => orderRequest_treated hyoung

/-- A request without a hash is dropped. -/
theorem handleRequest_error {e : Fault} (hhash : node.hash requestEnv = .error e) (session : Option Nat) (s : Replica) :
    (handleRequest node outside requestEnv session).final s = s := by
  rw [handleRequest, hhash]
  rfl

/-- All that is done with a request is to send it on, to order it or to send an error. -/
theorem handleRequest_appends (hmulticast : ∀ env, P (.multicast env))
    (hother : ∀ e, e.TurnsDown node (s.pbft.Busy node) → P e) :
    Appends P s ((handleRequest node outside requestEnv session).final s) := by
  cases hhash : node.hash requestEnv with
  | error =>
    rw [handleRequest_error hhash]
    exact Std.Refl.refl s
  | ok =>
    rcases handleRequest_treated hhash session s with ⟨-, l, hl, hall⟩ | ⟨-, -, -, l, hl, hall⟩
    · exact ⟨l, hl, fun e he => hother e (hall e he)⟩
    · refine ⟨l, hl, fun e he => ?_⟩
      obtain ⟨env, rfl⟩ := hall e he
      exact hmulticast env

/-! ## A clock that does not go back -/

theorem Young.le_now {t : UInt64} (h : Young outside t) : maxRequestAgeMs ≤ outside.now := by
  rw [Young, not_or, UInt64.not_lt, UInt64.not_lt, UInt64.le_iff_toNat_le, UInt64.le_iff_toNat_le, UInt64.toNat_sub,
    UInt64.toNat_add, show maxRequestAgeMs.toNat = 3600000 from rfl] at h
  rw [UInt64.le_iff_toNat_le, show maxRequestAgeMs.toNat = 3600000 from rfl]
  omega

theorem sub_le_sub_now {now now' : UInt64} (h : maxRequestAgeMs ≤ now) (hle : now ≤ now') :
    now - maxRequestAgeMs ≤ now' - maxRequestAgeMs := by
  have h' := UInt64.le_trans h hle
  rw [UInt64.le_iff_toNat_le, UInt64.toNat_sub_of_le _ _ h, UInt64.toNat_sub_of_le _ _ h']
  exact Nat.sub_le_sub_right (UInt64.le_iff_toNat_le.mp hle) _

end

/-- A request as it reaches a primary. -/
structure Arrival where
  outside : Outside
  env : BznEnvelope
  session : Option Nat

namespace Arrival

variable (node : Node)

/-- The primary after the request. -/
def handled (s : Replica) (r : Arrival) : Replica := (handleRequest node r.outside r.env r.session).final s

/-- The primary after some requests, one after the other. -/
def handledAll (s : Replica) (rs : List Arrival) : Replica := rs.foldl (handled node) s

/-- A pre-prepare is sent for the request. -/
def Ordered (s : Replica) (r : Arrival) : Prop :=
  ∃ l, (r.handled node s).log = s.log ++ l ∧ ∃ e ∈ l, ∃ msg, e.said? node = some msg ∧ msg.type = .preprepare

end Arrival

section

variable {node : Node} {s : Replica} {r : Arrival} {hash : Hash} {rs : List Arrival}

/-- A request that is ordered has a hash, is young and new, and is remembered. -/
theorem Arrival.Ordered.remembered (h : r.Ordered node s) : ∃ hash, node.hash r.env = .ok hash ∧
    Young r.outside r.env.timestamp ∧ alreadySeenRequest s.pbft r.env hash = false ∧
    (r.handled node s).pbft.recentRequests = SwarmDb.remembered r.outside r.env hash s.pbft := by
  obtain ⟨l, hl, e, he, msg, hsaid, -⟩ := h
  cases hhash : node.hash r.env with
  | error =>
    rw [Arrival.handled, handleRequest_error hhash] at hl
    have hnil : l = [] := List.append_cancel_left (hl.symm.trans (List.append_nil _).symm)
    rw [hnil] at he
    cases he
  | ok hash =>
    rcases handleRequest_treated hhash r.session s with ⟨-, l', hl', hall⟩ | ⟨hyoung, hseen, hr, -⟩
    · -- what is sent instead says nothing
      rw [Arrival.handled, hl', List.append_cancel_left_eq] at hl
      obtain ⟨env, text, rfl, -⟩ := Effect.said?_eq_some hsaid
      exact absurd (hall _ (hl ▸ he)) id
    · exact ⟨hash, rfl, hyoung, hseen, hr⟩

variable {now : UInt64} {x : UInt64 × Uuid × Hash}

/-- A request that is young when the clock has moved on is not forgotten. -/
theorem Arrival.handled_recentRequests (hx : x ∈ s.pbft.recentRequests) (hclock : r.outside.now ≤ now)
    (hyoung : now - maxRequestAgeMs < x.1) : x ∈ (r.handled node s).pbft.recentRequests := by
  cases hhash : node.hash r.env with
  | error =>
    rwa [Arrival.handled, handleRequest_error hhash]
  | ok =>
    rcases handleRequest_treated hhash r.session s with ⟨hr, -⟩ | ⟨hy, -, hr, -⟩
    · exact hr ▸ hx
    · rw [Arrival.handled, hr, SwarmDb.remembered, List.mem_filter, decide_eq_true_eq]
      exact ⟨List.mem_cons_of_mem _ hx, UInt64.lt_of_le_of_lt (sub_le_sub_now hy.le_now hclock) hyoung⟩

theorem Arrival.handledAll_recentRequests (hx : x ∈ s.pbft.recentRequests) (hclock : ∀ r ∈ rs, r.outside.now ≤ now)
    (hyoung : now - maxRequestAgeMs < x.1) : x ∈ (Arrival.handledAll node s rs).pbft.recentRequests := by
  induction rs generalizing s with
  | nil => exact hx
  | cons r _ ih =>
    exact ih (handled_recentRequests hx (hclock r (List.mem_cons_self ..)) hyoung) fun r' hr' =>
      hclock r' (List.mem_cons_of_mem _ hr')

theorem Young.lt {outside : Outside} {t : UInt64} (h : Young outside t) (hne : t ≠ outside.now - maxRequestAgeMs) :
    outside.now - maxRequestAgeMs < t := by
  rw [Young, not_or, UInt64.not_lt] at h
  exact UInt64.lt_of_le_of_ne h.1 hne.symm

end

/-- Where no request is handled at the very instant at which it becomes too old,
a request that comes again is not ordered again. -/
theorem ordered_once (node : Node) (s : Replica) (rs : List Arrival)
    (hclock : rs.Pairwise fun r r' => r.outside.now ≤ r'.outside.now)
    (hinstant : ∀ r ∈ rs, r.env.timestamp ≠ r.outside.now - maxRequestAgeMs) (before between after : List Arrival)
    (r r' : Arrival) (hrs : rs = before ++ r :: (between ++ r' :: after)) (hsender : r.env.sender = r'.env.sender)
    (htimestamp : r.env.timestamp = r'.env.timestamp) (hhash : node.hash r.env = node.hash r'.env)
    (h : r.Ordered node (Arrival.handledAll node s before)) :
    ¬ r'.Ordered node (Arrival.handledAll node s (before ++ r :: between)) := by
  intro h'
  obtain ⟨hash, hok, hyoung, -, hr⟩ := h.remembered
  obtain ⟨hash', hok', hyoung', hseen', -⟩ := h'.remembered
  rw [← hhash, hok, Except.ok.injEq] at hok'
  subst hok'
  have hlt := hyoung.lt (hinstant r (by rw [hrs]; simp))
  have hlt' := hyoung'.lt (hinstant r' (by rw [hrs]; simp))
  rw [hrs, List.pairwise_append, List.pairwise_cons] at hclock
  have hbetween : ∀ r'' ∈ between, r''.outside.now ≤ r'.outside.now := by
    intro r'' hr''
    have hpair := (List.pairwise_append.mp hclock.2.1.2).2.2
    exact hpair r'' hr'' r' (List.mem_cons_self ..)
  have hmem : (r.env.timestamp, r.env.sender, hash) ∈
      (r.handled node (Arrival.handledAll node s before)).pbft.recentRequests := by
    rw [hr, remembered, List.mem_filter, decide_eq_true_eq]
    exact ⟨List.mem_cons_self .., hlt⟩
  have hstill : (r.env.timestamp, r.env.sender, hash) ∈
      (Arrival.handledAll node s (before ++ r :: between)).pbft.recentRequests := by
    rw [Arrival.handledAll, List.foldl_append, List.foldl_cons]
    exact Arrival.handledAll_recentRequests hmem hbetween (htimestamp ▸ hlt')
  rw [alreadySeenRequest, List.any_eq_false] at hseen'
  exact hseen' _ hstill (by simp [htimestamp, hsender])

/-- A request of a client with a timestamp, handled at a time. -/
def sampleArrival (now timestamp : UInt64) : Arrival :=
  ⟨{ sampleOutside with now := now }, { (default : BznEnvelope) with
    swarmId := ascii "swarm"
    timestamp := timestamp
    payload := .databaseMsg (Wire.plain.databaseMsg.serialize ⟨1, [], .other []⟩) }, none⟩

/-- The node that is the primary of the first view. -/
abbrev samplePrimary : Node := sampleNode fourPeers "B"

theorem Arrival.ordered_iff {node : Node} {s : Replica} {r : Arrival} : r.Ordered node s ↔
    ((r.handled node s).log.drop s.log.length).any (fun e => (e.said? node).any fun msg => msg.type = .preprepare) := by
  obtain ⟨l, hl, -⟩ : Appends (fun _ => True) s (r.handled node s) :=
    handleRequest_appends (fun _ => trivial) fun _ _ => trivial
  simp [Arrival.Ordered, hl, Option.any_eq_true]

theorem ordered_once_young :
    (sampleArrival 3600005 6).Ordered samplePrimary (sampleReplica samplePrimary) ∧
      ¬ (sampleArrival 3600005 6).Ordered samplePrimary (Arrival.handledAll samplePrimary (sampleReplica samplePrimary)
        [sampleArrival 3600005 6, sampleArrival 3600005 7]) := by
  have hfirst : (sampleArrival 3600005 6).Ordered samplePrimary (sampleReplica samplePrimary) :=
    Arrival.ordered_iff.mpr (by decide +kernel)
  exact ⟨hfirst, ordered_once samplePrimary (sampleReplica samplePrimary)
    [sampleArrival 3600005 6, sampleArrival 3600005 7, sampleArrival 3600005 6] (by decide) (by decide)
    [] [sampleArrival 3600005 7] [] _ _ rfl rfl rfl rfl hfirst⟩

/-- A request comes twice in the millisecond in which it is as old as it may be,
and is ordered twice. -/
theorem ordered_twice :
    let r := sampleArrival 3600005 5
    r.Ordered samplePrimary (sampleReplica samplePrimary) ∧
      r.Ordered samplePrimary (r.handled samplePrimary (sampleReplica samplePrimary)) :=
  ⟨Arrival.ordered_iff.mpr (by decide +kernel), Arrival.ordered_iff.mpr (by decide +kernel)⟩

end SwarmDb
