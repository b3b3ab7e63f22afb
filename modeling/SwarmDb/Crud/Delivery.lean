import SwarmDb.Lib.Lists
import SwarmDb.Crud.Subscriptions

/-!
# What a subscription is sent

A run of the subscription manager is a list of calls by any sessions. From a `subscribe` that is accepted on, as long
as the session is open and does not unsubscribe, the subscription is sent one update for each commit of its key, and
the numbers of the updates go up by one (`subscription_delivered`).
-/

namespace SwarmDb.Crud.SubscriptionManager

open Lib

/-- A call of the subscription manager. -/
inductive Action where
  | subscribe (uuid key : Bytes) (transactionId : UInt64) (session : Nat)
  | unsubscribe (uuid key : Bytes) (transactionId : UInt64) (session : Nat)
  | purgeClosedSessions (cancelled : Bool)
  | inspectCommit (request : Request)

/-- A call, and the sessions that are open then. -/
structure Event where
  alive : Nat → Bool
  action : Action

def Event.apply (e : Event) (m : SubscriptionManager) : SubscriptionManager :=
  match e.action with
  | .subscribe uuid key transactionId session => (m.subscribe uuid key transactionId session).2
  | .unsubscribe uuid key transactionId session => (m.unsubscribe uuid key transactionId session).2
  | .purgeClosedSessions cancelled => m.purgeClosedSessions e.alive cancelled
  | .inspectCommit request => m.inspectCommit e.alive request

def runs (events : List Event) (m : SubscriptionManager) : SubscriptionManager := events.foldl (fun m e => e.apply m) m

/-- The key and the value that a request commits, and whether it is an update. -/
def change (r : Request) : Option (Bytes × Bytes × Bool) :=
  match r.msg with
  | .create kv => some (kv.key, kv.value, true)
  | .update kv => some (kv.key, kv.value, true)
  | .delete key => some (key, [], false)
  | _ => none

/-- What a call commits for a key of a database. -/
def Event.committed (uuid key : Bytes) (e : Event) : Option (Bytes × Bool) :=
  match e.action with
  | .inspectCommit r => (change r).bind fun c => if r.dbUuid = uuid ∧ c.1 = key then some c.2 else none
  | _ => none

/-- The updates of a key after number `seq`. -/
def updates (uuid key : Bytes) (nonce : UInt64) : UInt64 → List (Bytes × Bool) → List Response
  | _, [] => []
  | seq, c :: commits =>
    ⟨⟨uuid, nonce, [], []⟩, .subscriptionUpdate key c.1 (seq + 1) c.2⟩ :: updates uuid key nonce (seq + 1) commits

/-- Whether a message is an update of a key for a nonce of a session. -/
def updateFor (uuid key : Bytes) (nonce : UInt64) (session : Nat) (sent : Nat × Response) : Bool :=
  match sent.2.body with
  | .subscriptionUpdate k _ _ _ =>
    decide (sent.1 = session ∧ sent.2.header.dbUuid = uuid ∧ sent.2.header.nonce = nonce ∧ k = key)
  | _ => false

/-! ## Looking a subscription up -/

/-- The session that holds a subscription. -/
def subscription (m : SubscriptionManager) (uuid key : Bytes) (session : Nat) (nonce : UInt64) : Option Nat :=
  (Map.lookup2 m.subscribers uuid key).bind fun sessions => Map.lookup2 sessions session nonce

variable {m : SubscriptionManager} {uuid key : Bytes} {session : Nat} {nonce : UInt64} {alive : Nat → Bool}

theorem add_eq (m : SubscriptionManager) (uuid key : Bytes) (nonce : UInt64) (session : Nat) :
    m.add uuid key nonce session = { m with
      subscribers := Map.insert2 m.subscribers uuid key
        (Map.insert2 ((Map.lookup2 m.subscribers uuid key).getD ∅) session nonce session) } := by
  rw [← Map.lookup_getD, ← Std.ExtTreeMap.getD_eq_getD_getElem?]
  rfl

theorem subscription_add (m : SubscriptionManager) (u k uuid key : Bytes) (n nonce : UInt64) (s session : Nat) :
    (m.add u k n s).subscription uuid key session nonce =
      if u = uuid ∧ k = key ∧ s = session ∧ n = nonce then some s else m.subscription uuid key session nonce := by
  rw [add_eq, subscription, subscription, Map.lookup2_insert2]
  by_cases hkey : u = uuid ∧ k = key
  · obtain ⟨rfl, rfl⟩ := hkey
    rw [if_pos ⟨rfl, rfl⟩, Option.bind_some, Map.lookup2_insert2]
    simp only [true_and]
    split
    · rfl
    · cases Map.lookup2 m.subscribers u k with
      | none => exact Option.bind_none _
      | some => rfl
  · rw [if_neg hkey, if_neg fun h => hkey ⟨h.1, h.2.1⟩]

theorem seqNumber_eq (m : SubscriptionManager) (uuid key : Bytes) :
    m.seqNumber uuid key = (Map.lookup2 m.keySeqNumber uuid key).getD 0 := by
  rw [seqNumber, Std.ExtTreeMap.getD_eq_getD_getElem?, Map.lookup_getD]

theorem seqNumber_setSeqNumber (m : SubscriptionManager) (u k uuid key : Bytes) (n : UInt64) :
    (m.setSeqNumber u k n).seqNumber uuid key = if u = uuid ∧ k = key then n else m.seqNumber uuid key := by
  rw [seqNumber_eq, seqNumber_eq, show (m.setSeqNumber u k n).keySeqNumber = Map.insert2 m.keySeqNumber u k n from rfl,
    Map.lookup2_insert2]
  split <;> rfl

theorem subscription_purgeClosedSessions (m : SubscriptionManager) (alive : Nat → Bool) (uuid key : Bytes)
    (session : Nat) (nonce : UInt64) :
    (m.purgeClosedSessions alive false).subscription uuid key session nonce =
      (m.subscription uuid key session nonce).filter alive := by
  simp only [subscription, purgeClosedSessions, Bool.false_eq_true, if_false, Map.lookup2_filterMap_nonempty?,
    Map.lookup_filterMap]
  rw [Map.lookup2]
  cases m.subscribers[uuid]? with
  | none => rfl
  | some keys =>
    rw [Option.bind_some, Option.bind_some]
    cases keys[key]? with
    | none => rfl
    | some sessions =>
      rw [Option.bind_some, Option.bind_some, Map.bind_nonempty?, Map.lookup2_filterMap_nonempty?, Map.lookup2]
      cases sessions[session]? with
      | none => rfl
      | some => rw [Option.bind_some, Option.bind_some, Map.lookup_filter]

/-- Every subscription holds the session it is under. -/
def Own (m : SubscriptionManager) : Prop :=
  ∀ uuid key session nonce holder, m.subscription uuid key session nonce = some holder → holder = session

theorem subscription_subscribe (h : Own m) (u k uuid key : Bytes) (n nonce : UInt64) (s session : Nat) :
    (m.subscribe u k n s).2.subscription uuid key session nonce =
      if u = uuid ∧ k = key ∧ s = session ∧ n = nonce then some s else m.subscription uuid key session nonce := by
  rw [subscribe]
  split
  · rename_i keys hkeys
    split
    · exact subscription_add m u k uuid key n nonce s session
    · rename_i sessions hsessions
      split
      · rename_i hdup
        split
        · rename_i heq
          obtain ⟨rfl, rfl, rfl, rfl⟩ := heq
          have hsub : m.subscription u k s n = Map.lookup2 sessions s n := by
            rw [subscription, Map.lookup2, hkeys, Option.bind_some, hsessions, Option.bind_some]
          obtain ⟨holder, hholder⟩ := Option.isSome_iff_exists.mp hdup
          rw [hsub, Map.lookup2, hholder]
          rw [← Map.lookup2, ← hsub] at hholder
          rw [h _ _ _ _ _ hholder]
        · rfl
      · exact subscription_add m u k uuid key n nonce s session
  · exact subscription_add m u k uuid key n nonce s session

theorem subscription_unsubscribe (m : SubscriptionManager) (u k uuid key : Bytes) (n nonce : UInt64) (s session : Nat) :
    (m.unsubscribe u k n s).2.subscription uuid key session nonce =
      if u = uuid ∧ k = key ∧ s = session ∧ n = nonce then none else m.subscription uuid key session nonce := by
  -- where there is nothing to remove, the subscription is not there
  have herror : m.subscription u k s n = none →
      m.subscription uuid key session nonce =
        if u = uuid ∧ k = key ∧ s = session ∧ n = nonce then none else m.subscription uuid key session nonce := by
    intro hnone
    split
    · rename_i heq
      obtain ⟨rfl, rfl, rfl, rfl⟩ := heq
      exact hnone
    · rfl
  rw [unsubscribe]
  split
  · rename_i hkeys
    exact herror (by rw [subscription, Map.lookup2, hkeys]; rfl)
  · rename_i keys hkeys
    split
    · rename_i hsessions
      exact herror (by rw [subscription, Map.lookup2, hkeys, Option.bind_some, hsessions]; rfl)
    · rename_i sessions hsessions
      have hlookup : Map.lookup2 m.subscribers u k = some sessions := by
        rw [Map.lookup2, hkeys, Option.bind_some, hsessions]
      split
      · rename_i hsubs
        exact herror (by rw [subscription, hlookup, Option.bind_some, Map.lookup2, hsubs]; rfl)
      · rename_i subs hsubs
        split
        · simp only [subscription]
          by_cases hkey : u = uuid ∧ k = key
          · obtain ⟨rfl, rfl⟩ := hkey
            rw [Map.lookup2, Map.lookup_insert, if_pos rfl, Option.bind_some, Map.lookup_insert, if_pos rfl, hlookup,
              Option.bind_some, Option.bind_some, Map.lookup2, Map.lookup_insert]
            by_cases hs : s = session
            · subst hs
              rw [if_pos rfl, Option.bind_some, Map.lookup_erase, Map.lookup2, hsubs, Option.bind_some]
              simp only [true_and]
            · rw [if_neg hs, if_neg fun h => hs h.2.2.1, Map.lookup2]
          · rw [if_neg fun h => hkey ⟨h.1, h.2.1⟩, Map.lookup2, Map.lookup_insert]
            by_cases hu : u = uuid
            · subst hu
              rw [if_pos rfl, Option.bind_some, Map.lookup_insert, if_neg fun h => hkey ⟨rfl, h⟩, Map.lookup2, hkeys,
                Option.bind_some]
            · rw [if_neg hu, Map.lookup2]
        · rename_i hcontains
          refine herror ?_
          rw [subscription, hlookup, Option.bind_some, Map.lookup2, hsubs]
          exact Std.ExtTreeMap.getElem?_eq_none_of_contains_eq_false (Bool.eq_false_iff.mpr hcontains)

/-- The number of a key that has subscriptions is not set back. -/
theorem seqNumber_subscribe (h : (Map.lookup2 m.subscribers uuid key).isSome) (u k : Bytes) (n : UInt64) (s : Nat) :
    (m.subscribe u k n s).2.seqNumber uuid key = m.seqNumber uuid key := by
  rw [subscribe]
  split
  · rename_i keys hkeys
    split
    · rename_i hnone
      rw [seqNumber_setSeqNumber, if_neg]
      · rfl
      · rintro ⟨rfl, rfl⟩
        rw [Map.lookup2, hkeys, Option.bind_some, hnone] at h
        cases h
    · split <;> rfl
  · rfl

theorem seqNumber_unsubscribe (m : SubscriptionManager) (u k uuid key : Bytes) (n : UInt64) (s : Nat) :
    (m.unsubscribe u k n s).2.seqNumber uuid key = m.seqNumber uuid key := by
  rw [unsubscribe]
  split
  · rfl
  · split
    · rfl
    · split
      · rfl
      · split <;> rfl

theorem sent_subscribe (m : SubscriptionManager) (u k : Bytes) (n : UInt64) (s : Nat) :
    (m.subscribe u k n s).2.sent = m.sent := by
  rw [subscribe]
  split
  · split
    · rfl
    · split <;> rfl
  · rfl

theorem sent_unsubscribe (m : SubscriptionManager) (u k : Bytes) (n : UInt64) (s : Nat) :
    (m.unsubscribe u k n s).2.sent = m.sent := by
  rw [unsubscribe]
  split
  · rfl
  · split
    · rfl
    · split
      · rfl
      · split <;> rfl

/-! ## Commits -/

/-- The messages of a commit, one for each subscription with an open session. -/
def messages (alive : Nat → Bool) (uuid key value : Bytes) (seq : UInt64) (update : Bool)
    (sessions : Map Nat (Map UInt64 Nat)) : List (Nat × Response) :=
  sessions.toList.flatMap fun subs => (subs.2.toList.filter fun sub => alive sub.2).map fun sub =>
    (sub.2, ⟨⟨uuid, sub.1, [], []⟩, .subscriptionUpdate key value seq update⟩)

theorem mem_messages {value : Bytes} {seq : UInt64} {update : Bool}
    {sessions : Map Nat (Map UInt64 Nat)} {msg : Nat × Response}
    (h : msg ∈ messages alive uuid key value seq update sessions) :
    ∃ s n holder, Map.lookup2 sessions s n = some holder ∧ msg = (holder, ⟨⟨uuid, n, [], []⟩,
      .subscriptionUpdate key value seq update⟩) := by
  obtain ⟨⟨s, subs⟩, hs, hmsg⟩ := List.mem_flatMap.mp h
  obtain ⟨⟨n, holder⟩, hn, rfl⟩ := List.mem_map.mp hmsg
  refine ⟨s, n, holder, ?_, rfl⟩
  rw [Map.lookup2, Map.mem_toList_iff.mp hs, Option.bind_some, Map.mem_toList_iff.mp (List.mem_filter.mp hn).1]

/-- A subscription whose session is open has one message. -/
theorem filter_messages {value : Bytes} {seq : UInt64} {update : Bool}
    {sessions : Map Nat (Map UInt64 Nat)} (hown : ∀ s n holder, Map.lookup2 sessions s n = some holder → holder = s)
    (hsub : Map.lookup2 sessions session nonce = some session) (halive : alive session) :
    (messages alive uuid key value seq update sessions).filter (updateFor uuid key nonce session) =
      [(session, ⟨⟨uuid, nonce, [], []⟩, .subscriptionUpdate key value seq update⟩)] := by
  obtain ⟨subs, hsubs, hholder⟩ := Option.bind_eq_some_iff.mp hsub
  have hlookup : ∀ s (subs : Map UInt64 Nat), (s, subs) ∈ sessions.toList → ∀ n holder, (n, holder) ∈ subs.toList →
      holder = s := by
    intro s subs hs n holder hn
    refine hown s n holder ?_
    rw [Map.lookup2, Map.mem_toList_iff.mp hs, Option.bind_some, Map.mem_toList_iff.mp hn]
  -- of all sessions only the one of the subscription counts, and of its nonces only one
  rw [messages, List.filter_flatMap, flatMap_eq_flatMap_filter fun e => decide (e.1 = session),
    Map.filter_key_toList, hsubs]
  · rw [Option.toList_some, List.map_singleton, List.flatMap_singleton, List.filter_map, List.filter_filter]
    have hcongr : ∀ sub ∈ subs.toList, ((updateFor uuid key nonce session ∘ fun sub : UInt64 × Nat =>
        (sub.2, (⟨⟨uuid, sub.1, [], []⟩, .subscriptionUpdate key value seq update⟩ : Response))) sub && alive sub.2) =
        decide (sub.1 = nonce) := by
      rintro ⟨n, holder⟩ hn
      cases hlookup session subs (Map.mem_toList_iff.mpr hsubs) n holder hn
      simp [updateFor, halive]
    rw [List.filter_congr hcongr, Map.filter_key_toList, hholder]
    rfl
  · rintro ⟨s, subs⟩ hs hne
    refine List.filter_eq_nil_iff.mpr fun msg hmsg hupdate => ?_
    obtain ⟨⟨n, holder⟩, hn, rfl⟩ := List.mem_map.mp hmsg
    have hs' := hlookup s subs hs n holder (List.mem_filter.mp hn).1
    rw [updateFor, decide_eq_true_iff] at hupdate
    rw [decide_eq_true_iff] at hne
    exact hne (hs'.symm.trans hupdate.1)

/-- A commit of a key without sessions changes nothing; otherwise its number goes
up and the messages are sent. -/
theorem notifySessions_cases (alive : Nat → Bool) (u : Bytes) (update : Bool) (k value : Bytes)
    (m : SubscriptionManager) :
    ((∀ s n, m.subscription u k s n = none) ∧ m.notifySessions alive u update k value = m) ∨
      ∃ sessions, Map.lookup2 m.subscribers u k = some sessions ∧
        m.notifySessions alive u update k value = { m.setSeqNumber u k (m.seqNumber u k + 1) with
          sent := m.sent ++ messages alive u k value (m.seqNumber u k + 1) update sessions } := by
  rw [notifySessions, ← Map.lookup2]
  cases h : Map.lookup2 m.subscribers u k with
  | none => exact .inl ⟨fun s n => by rw [subscription, h]; rfl, rfl⟩
  | some sessions =>
    by_cases hempty : sessions.isEmpty
    · refine .inl ⟨fun s n => ?_, if_pos hempty⟩
      rw [subscription, h, Std.ExtTreeMap.isEmpty_iff.mp hempty]
      rfl
    · exact .inr ⟨sessions, rfl, if_neg hempty⟩

theorem inspectCommit_eq (alive : Nat → Bool) (r : Request) (m : SubscriptionManager) :
    m.inspectCommit alive r = match change r with
      | some c => m.notifySessions alive r.dbUuid c.2.2 c.1 c.2.1
      | none => m := by
  rw [inspectCommit, change]
  cases r.msg <;> rfl

theorem subscribers_inspectCommit (alive : Nat → Bool) (r : Request) (m : SubscriptionManager) :
    (m.inspectCommit alive r).subscribers = m.subscribers := by
  rw [inspectCommit_eq]
  split
  · rename_i c _
    rcases notifySessions_cases alive r.dbUuid c.2.2 c.1 c.2.1 m with ⟨-, h⟩ | ⟨sessions, -, h⟩
    · rw [h]
    · rw [h]
      rfl
  · rfl

/-! ## Runs -/

theorem Own.apply (h : Own m) (e : Event) : Own (e.apply m) := by
  intro uuid key session nonce holder hsub
  rw [Event.apply] at hsub
  split at hsub
  · rw [subscription_subscribe h] at hsub
    split at hsub
    · rename_i heq
      exact (Option.some.inj hsub).symm.trans heq.2.2.1
    · exact h _ _ _ _ _ hsub
  · rw [subscription_unsubscribe] at hsub
    split at hsub
    · cases hsub
    · exact h _ _ _ _ _ hsub
  · rename_i cancelled _
    cases cancelled with
    | true => exact h _ _ _ _ _ hsub
    | false =>
      rw [subscription_purgeClosedSessions] at hsub
      exact h _ _ _ _ _ (Option.filter_eq_some_iff.mp hsub).1
  · rw [subscription, subscribers_inspectCommit] at hsub
    exact h _ _ _ _ _ hsub

theorem Own.runs (h : Own m) (events : List Event) : Own (runs events m) := by
  induction events generalizing m with
  | nil => exact h
  | cons e _ ih => exact ih (h.apply e)

/-- A subscription that is there, of a session under its own number. -/
structure Stands (m : SubscriptionManager) (uuid key : Bytes) (nonce : UInt64) (session : Nat) : Prop where
  own : Own m
  held : m.subscription uuid key session nonce = some session

/-- Only its own `unsubscribe` and a purge after its session was closed end a
subscription. -/
theorem Stands.apply (h : Stands m uuid key nonce session) {e : Event} (halive : e.alive session)
    (hne : e.action ≠ .unsubscribe uuid key nonce session) : Stands (e.apply m) uuid key nonce session := by
  refine ⟨h.own.apply e, ?_⟩
  rw [Event.apply]
  split
  · rw [subscription_subscribe h.own]
    split
    · rename_i heq
      rw [heq.2.2.1]
    · exact h.held
  · rename_i u k n s he
    rw [subscription_unsubscribe, if_neg]
    · exact h.held
    · rintro ⟨rfl, rfl, rfl, rfl⟩
      exact hne he
  · rename_i cancelled _
    cases cancelled with
    | true => exact h.held
    | false => rw [subscription_purgeClosedSessions, h.held, Option.filter_some, if_pos halive]
  · rw [subscription, subscribers_inspectCommit]
    exact h.held

theorem Stands.sessions (h : Stands m uuid key nonce session) :
    ∃ sessions, Map.lookup2 m.subscribers uuid key = some sessions ∧
      Map.lookup2 sessions session nonce = some session :=
  Option.bind_eq_some_iff.mp h.held

theorem filter_messages_of_ne {u k value : Bytes} {seq : UInt64} {update : Bool}
    {sessions : Map Nat (Map UInt64 Nat)} (hne : ¬ (u = uuid ∧ k = key)) :
    (messages alive u k value seq update sessions).filter (updateFor uuid key nonce session) = [] := by
  refine List.filter_eq_nil_iff.mpr fun msg hmsg hupdate => ?_
  obtain ⟨s, n, holder, -, rfl⟩ := mem_messages hmsg
  rw [updateFor, decide_eq_true_iff] at hupdate
  exact hne ⟨hupdate.2.1, hupdate.2.2.2⟩

/-- One call sends one update for what it commits of the key, with the next
number, and otherwise none. -/
theorem Stands.delivers (h : Stands m uuid key nonce session) {e : Event} (halive : e.alive session) :
    (e.apply m).sent.filter (updateFor uuid key nonce session) =
        m.sent.filter (updateFor uuid key nonce session) ++
          (updates uuid key nonce (m.seqNumber uuid key) (e.committed uuid key).toList).map (Prod.mk session) ∧
      (e.apply m).seqNumber uuid key =
        if (e.committed uuid key).isSome then m.seqNumber uuid key + 1 else m.seqNumber uuid key := by
  obtain ⟨sessions, hsessions, hsub⟩ := h.sessions
  have hsame : ∀ {m' : SubscriptionManager}, m'.sent = m.sent → m'.seqNumber uuid key = m.seqNumber uuid key →
      e.committed uuid key = none →
      m'.sent.filter (updateFor uuid key nonce session) = m.sent.filter (updateFor uuid key nonce session) ++
          (updates uuid key nonce (m.seqNumber uuid key) (e.committed uuid key).toList).map (Prod.mk session) ∧
        m'.seqNumber uuid key =
          if (e.committed uuid key).isSome then m.seqNumber uuid key + 1 else m.seqNumber uuid key := by
    intro m' hsent hseq hnone
    rw [hsent, hseq, hnone]
    exact ⟨(List.append_nil _).symm, rfl⟩
  rw [Event.apply]
  split
  · rename_i he
    refine hsame (sent_subscribe ..) (seqNumber_subscribe (Option.isSome_of_eq_some hsessions) ..) ?_
    rw [Event.committed, he]
  · rename_i he
    refine hsame (sent_unsubscribe ..) (seqNumber_unsubscribe ..) ?_
    rw [Event.committed, he]
  · rename_i cancelled he
    refine hsame ?_ ?_ (by rw [Event.committed, he])
    · cases cancelled <;> rfl
    · cases cancelled <;> rfl
  · rename_i r he
    rw [inspectCommit_eq]
    split
    · rename_i c hc
      have hcommitted : e.committed uuid key = if r.dbUuid = uuid ∧ c.1 = key then some c.2 else none := by
        rw [Event.committed, he]
        simp only [hc, Option.bind_some]
      rcases notifySessions_cases e.alive r.dbUuid c.2.2 c.1 c.2.1 m with ⟨hnone, heq⟩ | ⟨sessions', hlookup, heq⟩
      · rw [heq]
        refine hsame rfl rfl ?_
        rw [hcommitted, if_neg]
        rintro ⟨rfl, rfl⟩
        have := hnone session nonce
        rw [h.held] at this
        cases this
      · rw [heq, hcommitted]
        have hseq : ({ m.setSeqNumber r.dbUuid c.1 (m.seqNumber r.dbUuid c.1 + 1) with
            sent := m.sent ++ messages e.alive r.dbUuid c.1 c.2.1 (m.seqNumber r.dbUuid c.1 + 1) c.2.2 sessions' } :
            SubscriptionManager).seqNumber uuid key =
              if r.dbUuid = uuid ∧ c.1 = key then m.seqNumber r.dbUuid c.1 + 1 else m.seqNumber uuid key :=
          seqNumber_setSeqNumber ..
        rw [hseq, List.filter_append]
        by_cases hkey : r.dbUuid = uuid ∧ c.1 = key
        · obtain ⟨rfl, rfl⟩ := hkey
          cases hsessions.symm.trans hlookup
          rw [if_pos ⟨rfl, rfl⟩, if_pos ⟨rfl, rfl⟩, filter_messages (fun s n holder hs => ?_) hsub halive]
          · exact ⟨rfl, rfl⟩
          · exact h.own r.dbUuid c.1 s n holder (by rw [subscription, hsessions, Option.bind_some, hs])
        · rw [if_neg hkey, if_neg hkey, filter_messages_of_ne hkey]
          exact ⟨rfl, rfl⟩
    · rename_i hc
      refine hsame rfl rfl ?_
      rw [Event.committed, he]
      simp only [hc, Option.bind_none]

theorem Stands.delivered (h : Stands m uuid key nonce session) (events : List Event)
    (hstays : ∀ e ∈ events, e.alive session ∧ e.action ≠ .unsubscribe uuid key nonce session) :
    (runs events m).sent.filter (updateFor uuid key nonce session) =
      m.sent.filter (updateFor uuid key nonce session) ++
        (updates uuid key nonce (m.seqNumber uuid key) (events.filterMap fun e => e.committed uuid key)).map
          (Prod.mk session) := by
  induction events generalizing m with
  | nil => exact (List.append_nil _).symm
  | cons e _ ih =>
    obtain ⟨halive, hne⟩ := hstays e (List.mem_cons_self ..)
    obtain ⟨hsent, hseq⟩ := h.delivers halive
    rw [runs, List.foldl_cons, ← runs, ih (h.apply halive hne) fun d hd => hstays d (List.mem_cons_of_mem e hd), hsent,
      hseq, List.append_assoc]
    cases hc : e.committed uuid key with
    | none => rw [List.filterMap_cons_none hc]; rfl
    | some => rw [List.filterMap_cons_some hc]; rfl

/-- Whatever a call sends is an update of the key it commits, for a subscription
to that key. -/
theorem sent_of_subscribed (h : Own m) (e : Event) : ∃ since, (e.apply m).sent = m.sent ++ since ∧
    ∀ msg ∈ since, ∃ k value seq update, msg.2.body = .subscriptionUpdate k value seq update ∧
      e.committed msg.2.header.dbUuid k = some (value, update) ∧
      m.subscription msg.2.header.dbUuid k msg.1 msg.2.header.nonce = some msg.1 := by
  have hsame : ∀ {m' : SubscriptionManager}, m'.sent = m.sent → ∃ since, m'.sent = m.sent ++ since ∧
      ∀ msg ∈ since, ∃ k value seq update, msg.2.body = .subscriptionUpdate k value seq update ∧
        e.committed msg.2.header.dbUuid k = some (value, update) ∧
        m.subscription msg.2.header.dbUuid k msg.1 msg.2.header.nonce = some msg.1 :=
    fun hsent => ⟨[], by rw [hsent, List.append_nil], fun _ hmsg => by cases hmsg⟩
  rw [Event.apply]
  split
  · exact hsame (sent_subscribe ..)
  · exact hsame (sent_unsubscribe ..)
  · rename_i cancelled _
    exact hsame (by cases cancelled <;> rfl)
  · rename_i r he
    rw [inspectCommit_eq]
    split
    · rename_i c hc
      rcases notifySessions_cases e.alive r.dbUuid c.2.2 c.1 c.2.1 m with ⟨-, heq⟩ | ⟨sessions, hlookup, heq⟩
      · exact hsame (by rw [heq])
      · refine ⟨_, by rw [heq], fun msg hmsg => ?_⟩
        obtain ⟨s, n, holder, hholder, rfl⟩ := mem_messages hmsg
        have hsub : m.subscription r.dbUuid c.1 s n = some holder := by
          rw [subscription, hlookup, Option.bind_some, hholder]
        cases h _ _ _ _ _ hsub
        refine ⟨_, _, _, _, rfl, ?_, hsub⟩
        rw [Event.committed, he]
        simp only [hc, Option.bind_some, and_self, if_true]
    · exact hsame rfl

/-- From a `subscribe` on, which is accepted unless the session has the
subscription already, and as long as the session is open and does not unsubscribe,
it is sent one update for each commit of the key, in order and with numbers that
go up by one. What it is sent with the nonce for another key is for a subscription
to that key. -/
theorem subscription_delivered (before events : List Event) (uuid key : Bytes) (nonce : UInt64) (session : Nat)
    (hstays : ∀ e ∈ events, e.alive session ∧ e.action ≠ .unsubscribe uuid key nonce session) :
    let m := (subscribe uuid key nonce session (runs before default)).2
    (runs events m).sent.filter (updateFor uuid key nonce session) =
        m.sent.filter (updateFor uuid key nonce session) ++
          (updates uuid key nonce (m.seqNumber uuid key) (events.filterMap fun e => e.committed uuid key)).map
            (Prod.mk session) ∧
      ∀ earlier e later, events = earlier ++ e :: later →
        ∃ since, (e.apply (runs earlier m)).sent = (runs earlier m).sent ++ since ∧
          ∀ msg ∈ since, msg.1 = session → msg.2.header.nonce = nonce →
            ∃ k value seq update, msg.2.body = .subscriptionUpdate k value seq update ∧
              e.committed msg.2.header.dbUuid k = some (value, update) ∧
              (runs earlier m).subscription msg.2.header.dbUuid k session nonce = some session := by
  intro m
  have hown : Own (runs before default) := by
    refine Own.runs (fun uuid key session nonce holder hsub => ?_) before
    rw [subscription, show (default : SubscriptionManager).subscribers = ∅ from rfl, Map.lookup2,
      Map.lookup_empty] at hsub
    cases hsub
  have hm : m = Event.apply ⟨fun _ => true, .subscribe uuid key nonce session⟩ (runs before default) := rfl
  have hstands : Stands m uuid key nonce session := by
    refine ⟨hm ▸ hown.apply _, ?_⟩
    rw [hm, Event.apply, subscription_subscribe hown, if_pos ⟨rfl, rfl, rfl, rfl⟩]
  refine ⟨hstands.delivered events hstays, fun earlier e later _ => ?_⟩
  obtain ⟨since, hsince, hmsgs⟩ := sent_of_subscribed (hstands.own.runs earlier) e
  refine ⟨since, hsince, fun msg hmsg hsession hnonce => ?_⟩
  rw [← hsession, ← hnonce]
  exact hmsgs msg hmsg

/-- Two commits of a key between which another session comes and goes. -/
theorem subscription_delivered_twice :
    let opened : Nat → Bool := fun _ => true
    let commit : Msg → Event := fun msg => ⟨opened, .inspectCommit ⟨⟨ascii "db", 0, [], []⟩, msg⟩⟩
    let events := [commit (.create ⟨ascii "k", ascii "a", 0⟩), ⟨opened, .subscribe (ascii "db") (ascii "k") 5 2⟩,
      commit (.create ⟨ascii "j", ascii "b", 0⟩), ⟨fun s => s == 1, .purgeClosedSessions false⟩,
        commit (.delete (ascii "k"))]
    let m := (subscribe (ascii "db") (ascii "k") 7 1 (runs [] default)).2
    (runs events m).sent.filter (updateFor (ascii "db") (ascii "k") 7 1) =
      [(1, ⟨⟨ascii "db", 7, [], []⟩, .subscriptionUpdate (ascii "k") (ascii "a") 1 true⟩),
        (1, ⟨⟨ascii "db", 7, [], []⟩, .subscriptionUpdate (ascii "k") [] 2 false⟩)] := by
  refine (subscription_delivered [] _ (ascii "db") (ascii "k") 7 1 fun e he => ?_).1.trans (by decide +kernel)
  simp only [List.mem_cons, List.not_mem_nil, or_false] at he
  rcases he with rfl | rfl | rfl | rfl | rfl
  · exact ⟨rfl, nofun⟩
  · exact ⟨rfl, nofun⟩
  · exact ⟨rfl, nofun⟩
  · exact ⟨rfl, nofun⟩
  · exact ⟨rfl, nofun⟩

end SwarmDb.Crud.SubscriptionManager
