import SwarmDb.Node.Session
import SwarmDb.Pbft.Events

/-!
# Connections

The sessions of a process, as `node` and `pbft` hold them. `node::find_session` registers a session for an endpoint, and
the shutdown handler that it gives the session takes the registration back. `pbft` holds a session for each request that
waits, and gives it a handler that lets it go. The handlers that a session posts when it closes are run later.

* `handlers_posted_once`, `late_handler_kept`: each handler is posted once, unless it reaches a session that is closing
  already.
* `one_session_per_endpoint`, `replacement_removed`: there is one live session for an endpoint at most, unless a handler
  of `node` finds a session that is still connecting.
-/

namespace SwarmDb

open Lib

/-- `boost::asio::ip::tcp::endpoint` -/
structure Endpoint where
  address : Bytes
  port : UInt16
deriving DecidableEq

/-- `key_from_ep` -/
def keyFromEp (ep : Endpoint) : Bytes := ep.address ++ ascii ":" ++ decimal ep.port.toNat

/-- The shutdown handlers that sessions are given. -/
inductive ShutdownHandler where
  /-- The handler of a session that was accepted, which does nothing. -/
  | nothing
  /-- `priv_session_shutdown_handler` of a key. -/
  | node (epKey : Bytes)
  /-- The handler with which `pbft` lets the session go that waits for the response to a request. -/
  | forwarded (msgHash : Hash)
  deriving DecidableEq

/-- A session that was made, the endpoint it was made for by `find_session`, and whether a pointer to it is held. -/
structure Connection where
  session : Session ShutdownHandler
  ep? : Option Endpoint
  alive : Bool

structure Connections where
  sessionIdCounter : Nat
  /-- `node::sessions`: weak pointers, by the ids of the sessions. -/
  sessions : Map Bytes Nat
  /-- `pbft::sessions_waiting_on_forwarded_requests` -/
  sessionsWaitingOnForwardedRequests : Map Hash Nat
  /-- The sessions by their ids. -/
  made : Map Nat Connection
  /-- The shutdown handlers posted to the io context that did not run yet, with the sessions that posted them. -/
  ioContext : List (Nat × ShutdownHandler)

namespace Connections

/-- A process that has just started. -/
def new : Connections := ⟨0, ∅, ∅, ∅, []⟩

/-- `lock` of a weak pointer. -/
def lock (c : Connections) (id : Nat) : Option (Session ShutdownHandler) :=
  (c.made[id]?).bind fun connection => if connection.alive then some connection.session else none

def privSessionShutdownHandler (c : Connections) (epKey : Bytes) : Connections :=
  match (c.sessions[epKey]?).bind c.lock with
  | some session => if session.isOpen then c else { c with sessions := c.sessions.erase epKey }
  | none => { c with sessions := c.sessions.erase epKey }

/-- A session is made. -/
def make (c : Connections) (session : Session ShutdownHandler) (ep? : Option Endpoint) : Connections :=
  { c with
    sessionIdCounter := c.sessionIdCounter + 1
    made := c.made.insert (c.sessionIdCounter + 1) ⟨session, ep?, true⟩ }

/-- A session is made for an endpoint, opened and registered. -/
def makeFor (c : Connections) (ep : Endpoint) : Connections :=
  let c := c.make ((Session.new [.node (keyFromEp ep)]).next .openSession) (some ep)
  { c with sessions := c.sessions.insert (keyFromEp ep) c.sessionIdCounter }

def findSession (c : Connections) (ep : Endpoint) : Connections :=
  match (c.sessions[keyFromEp ep]?).bind c.lock with
  | some session => if session.isClosing then c.makeFor ep else c
  | none => c.makeFor ep

/-- A connection that `do_accept` accepts. -/
def acceptConnection (c : Connections) : Connections :=
  c.make ((Session.new [.nothing]).next .acceptSession) none

/-- An event of a session. The handlers it posts are for the io context to run. -/
def onSession (c : Connections) (id : Nat) (e : Session.Event ShutdownHandler) : Connections :=
  match c.made[id]? with
  | none => c
  | some connection =>
    let session := connection.session.next e
    { c with
      made := c.made.insert id { connection with session := session }
      ioContext := c.ioContext ++ (session.posted.drop connection.session.posted.length).map fun handler =>
        (id, handler) }

/-- A request arrives over a session: the session is held for it, unless one is held already. -/
def request (c : Connections) (msgHash : Hash) (id : Nat) : Connections :=
  if (c.sessionsWaitingOnForwardedRequests[msgHash]?).isSome then c
  else
    { c with sessionsWaitingOnForwardedRequests := c.sessionsWaitingOnForwardedRequests.insert msgHash id }.onSession id
      (.addShutdownHandler (.forwarded msgHash))

/-- A posted handler of a session runs. -/
def runHandler (c : Connections) (id : Nat) : ShutdownHandler → Connections
  | .nothing => c
  | .node epKey => c.privSessionShutdownHandler epKey
  | .forwarded msgHash =>
    if c.sessionsWaitingOnForwardedRequests[msgHash]? = some id then
      { c with sessionsWaitingOnForwardedRequests := c.sessionsWaitingOnForwardedRequests.erase msgHash }
    else c

/-! ## Runs -/

/-- What may happen: calls of `find_session`, connections accepted, requests, events of sessions, handlers that the io
context runs, in any order, and sessions to which no pointer is held any more. -/
inductive Event where
  | findSession (ep : Endpoint)
  | acceptConnection
  | request (msgHash : Hash) (id : Nat)
  | session (id : Nat) (e : Session.Event ShutdownHandler)
  | handler (i : Nat)
  | destroyed (id : Nat)

def next (c : Connections) : Event → Connections
  | .findSession ep => c.findSession ep
  | .acceptConnection => c.acceptConnection
  | .request msgHash id => c.request msgHash id
  | .session id e => c.onSession id e
  | .handler i =>
    match c.ioContext[i]? with
    | none => c
    | some posted => { c with ioContext := c.ioContext.eraseIdx i }.runHandler posted.1 posted.2
  | .destroyed id =>
    match c.made[id]? with
    | none => c
    | some connection => { c with made := c.made.insert id { connection with alive := false } }

/-- Whether pointers to a session are held by its tasks and operations, by its own handlers, by posted ones or by the
requests that wait. -/
def held (c : Connections) (id : Nat) (s : Session ShutdownHandler) : Bool :=
  !s.strand.isEmpty || decide (0 < s.connects + s.handshakes + s.accepts + s.reads + s.closes + s.waits) ||
    !s.writes.isEmpty || !s.rescheduled.isEmpty || s.shutdownHandlers.any (fun h => h matches .forwarded _) ||
    c.ioContext.any (fun p => decide (p.1 = id) && p.2 matches .forwarded _) ||
    c.sessionsWaitingOnForwardedRequests.toList.any fun entry => decide (entry.2 = id)

/-- An event can happen to sessions that live; one to which a pointer is held is not destroyed. -/
def Enabled (c : Connections) : Event → Prop
  | .findSession _ | .acceptConnection => True
  | .request _ id => (c.lock id).isSome
  | .session id e => ∃ s ∈ c.lock id, s.Enabled e
  | .handler i => i < c.ioContext.length
  | .destroyed id => ∃ s ∈ c.lock id, c.held id s = false

instance (c : Connections) (e : Event) : Decidable (c.Enabled e) := by
  unfold Enabled
  split <;> infer_instance

/-! ## What the parts of an event do -/

theorem made_onSession (c : Connections) (id : Nat) (e : Session.Event ShutdownHandler) (id' : Nat) :
    (c.onSession id e).made[id']? =
      if id = id' then (c.made[id]?).map fun connection => { connection with session := connection.session.next e }
      else c.made[id']? := by
  unfold onSession
  split
  · next hnone =>
    split
    · next heq => rw [← heq, hnone, Option.map_none]
    · rfl
  · next connection hsome =>
    rw [hsome]
    exact Map.lookup_insert _ _ _ _

theorem onSession_rest (c : Connections) (id : Nat) (e : Session.Event ShutdownHandler) :
    (c.onSession id e).sessions = c.sessions ∧ (c.onSession id e).sessionIdCounter = c.sessionIdCounter ∧
      (c.onSession id e).sessionsWaitingOnForwardedRequests = c.sessionsWaitingOnForwardedRequests := by
  unfold onSession
  split <;> exact ⟨rfl, rfl, rfl⟩

theorem made_make (c : Connections) (session : Session ShutdownHandler) (ep? : Option Endpoint) (id : Nat) :
    (c.make session ep?).made[id]? =
      if c.sessionIdCounter + 1 = id then some ⟨session, ep?, true⟩ else c.made[id]? :=
  Map.lookup_insert _ _ _ _

/-- What `find_session` comes to: the session registered lives and is not closing, or one is made. -/
theorem findSession_cases (c : Connections) (ep : Endpoint) :
    (∃ session, (c.sessions[keyFromEp ep]?).bind c.lock = some session ∧ session.closing = false ∧
      c.findSession ep = c) ∨
    (∀ session, (c.sessions[keyFromEp ep]?).bind c.lock = some session → session.closing = true) ∧
      c.findSession ep = c.makeFor ep := by
  unfold findSession
  cases hlock : (c.sessions[keyFromEp ep]?).bind c.lock with
  | none => exact .inr ⟨fun session h => (by cases h), rfl⟩
  | some session =>
    cases hclosing : session.closing with
    | false => exact .inl ⟨session, rfl, hclosing, by simp [Session.isClosing, hclosing]⟩
    | true =>
      refine .inr ⟨fun session' h => ?_, by simp [Session.isClosing, hclosing]⟩
      cases h
      exact hclosing

/-- Running a handler changes no session, and no handler that waits. -/
theorem runHandler_rest (c : Connections) (id : Nat) (handler : ShutdownHandler) :
    (c.runHandler id handler).made = c.made ∧ (c.runHandler id handler).ioContext = c.ioContext ∧
      (c.runHandler id handler).sessionIdCounter = c.sessionIdCounter := by
  cases handler with
  | nothing => exact ⟨rfl, rfl, rfl⟩
  | node =>
    simp only [runHandler, privSessionShutdownHandler]
    split
    · split <;> exact ⟨rfl, rfl, rfl⟩
    · exact ⟨rfl, rfl, rfl⟩
  | forwarded =>
    simp only [runHandler]
    split <;> exact ⟨rfl, rfl, rfl⟩

/-! ## Shutdown handlers -/

/-- An event in which no handler reaches a session that is closing already. -/
def InTime (c : Connections) : Event → Prop
  | .session id e => ∀ s ∈ c.lock id, s.InTime e
  | _ => True

instance (c : Connections) (e : Event) : Decidable (c.InTime e) := by
  unfold InTime
  split <;> infer_instance

/-- The handler that lets a session go is on its way. -/
def Releases (c : Connections) (msgHash : Hash) (id : Nat) : Prop :=
  ∃ connection, c.made[id]? = some connection ∧
    (connection.session.Awaits (.forwarded msgHash) ∨ (id, .forwarded msgHash) ∈ c.ioContext)

/-- Every session has told its handlers, and for every request that waits there is a handler that lets the
session go. -/
structure Sound (c : Connections) : Prop where
  numbered : ∀ (id : Nat) (connection : Connection), c.made[id]? = some connection → id ≤ c.sessionIdCounter
  tells : ∀ (id : Nat) (connection : Connection), c.made[id]? = some connection → connection.session.Tells
  releases : ∀ (msgHash : Hash) (id : Nat), c.sessionsWaitingOnForwardedRequests[msgHash]? = some id →
    c.Releases msgHash id

variable {c : Connections} {session : Session ShutdownHandler} {e : Session.Event ShutdownHandler} {id : Nat}

variable {msgHash : Hash} {ep : Endpoint}

theorem releases_onSession {id' : Nat} (h : c.Releases msgHash id')
    (he : ∀ connection, c.made[id]? = some connection → connection.session.InTime e) :
    (c.onSession id e).Releases msgHash id' := by
  obtain ⟨connection, hmade, hway⟩ := h
  by_cases heq : id = id'
  · subst heq
    refine ⟨{ connection with session := connection.session.next e }, ?_, ?_⟩
    · rw [made_onSession, if_pos rfl, hmade, Option.map_some]
    · have hio : (c.onSession id e).ioContext = c.ioContext ++ ((connection.session.next e).posted.drop
          connection.session.posted.length).map fun handler => (id, handler) := by
        rw [onSession, hmade]
      rw [hio]
      rcases hway with hawaits | hposted
      · rcases Session.awaits_next (he connection hmade) hawaits with hstill | hnew
        · exact .inl hstill
        · exact .inr (List.mem_append_right _ (List.mem_map_of_mem hnew))
      · exact .inr (List.mem_append_left _ hposted)
  · refine ⟨connection, ?_, hway.imp_right fun hposted => ?_⟩
    · rw [made_onSession, if_neg heq, hmade]
    · unfold onSession
      split
      · exact hposted
      · exact List.mem_append_left _ hposted

theorem releases_make
    (hnumbered : ∀ (id : Nat) (connection : Connection), c.made[id]? = some connection → id ≤ c.sessionIdCounter)
    (h : c.Releases msgHash id) (session : Session ShutdownHandler) (ep? : Option Endpoint) :
    (c.make session ep?).Releases msgHash id := by
  obtain ⟨connection, hmade, hway⟩ := h
  have hle := hnumbered id connection hmade
  exact ⟨connection, by rw [made_make, if_neg (by omega), hmade], hway⟩

theorem Sound.make (h : Sound c) (hsession : session.Tells)
    (ep? : Option Endpoint) : Sound (c.make session ep?) := by
  refine ⟨fun id connection hmade => ?_, fun id connection hmade => ?_, fun msgHash id hwaits => ?_⟩
  · rw [made_make] at hmade
    split at hmade
    · next heq => exact Nat.le_of_eq heq.symm
    · exact Nat.le_succ_of_le (h.numbered id connection hmade)
  · rw [made_make] at hmade
    split at hmade
    · cases hmade
      exact hsession
    · exact h.tells id connection hmade
  · exact releases_make h.numbered (h.releases msgHash id hwaits) session ep?

theorem Sound.findSession (h : Sound c) (ep : Endpoint) : Sound (c.findSession ep) := by
  rcases findSession_cases c ep with ⟨session, -, -, hsame⟩ | ⟨-, hmake⟩
  · rw [hsame]
    exact h
  · rw [hmake]
    have htells := Session.tells_next (Session.tells_new [ShutdownHandler.node (keyFromEp ep)]) (e :=
      .openSession) trivial
    obtain ⟨hnumbered, htells, hreleases⟩ := h.make htells (some ep)
    exact ⟨hnumbered, htells, hreleases⟩

/-- The session part of an event in time: the sessions have told, and the handlers are on their way. -/
theorem Sound.onSession (h : Sound c)
    (he : ∀ connection, c.made[id]? = some connection → connection.session.InTime e) : Sound (c.onSession id e) := by
  obtain ⟨-, hcounter, hwaiting⟩ := onSession_rest c id e
  refine ⟨fun id' connection hmade => ?_, fun id' connection hmade => ?_, fun msgHash id' hwaits => ?_⟩
  · rw [hcounter]
    rw [made_onSession] at hmade
    split at hmade
    · next heq =>
      obtain ⟨before, hbefore, -⟩ := Option.map_eq_some_iff.mp hmade
      rw [← heq]
      exact h.numbered id before hbefore
    · exact h.numbered id' connection hmade
  · rw [made_onSession] at hmade
    split at hmade
    · obtain ⟨before, hbefore, rfl⟩ := Option.map_eq_some_iff.mp hmade
      exact Session.tells_next (h.tells id before hbefore) (he before hbefore)
    · exact h.tells id' connection hmade
  · rw [hwaiting] at hwaits
    exact releases_onSession (h.releases msgHash id' hwaits) he

/-- A session held for a request gets the handler that lets it go. -/
theorem releases_added (hmade : (c.made[id]?).isSome) (msgHash : Hash) :
    (c.onSession id (.addShutdownHandler (.forwarded msgHash))).Releases msgHash id := by
  obtain ⟨connection, hconnection⟩ := Option.isSome_iff_exists.mp hmade
  refine ⟨_, by rw [made_onSession, if_pos rfl, hconnection, Option.map_some], .inl (.inl ?_)⟩
  simp [Session.next, Session.addShutdownHandler, Session.post, Session.Task.handler?]

theorem isSome_made_of_lock {s : Session ShutdownHandler} (h : c.lock id = some s) :
    ∃ connection, c.made[id]? = some connection ∧ connection.alive = true ∧ connection.session = s := by
  obtain ⟨connection, hmade, halive⟩ := Option.bind_eq_some_iff.mp h
  split at halive
  · next hlive =>
    cases halive
    exact ⟨connection, hmade, hlive, rfl⟩
  · cases halive

theorem Sound.request (h : Sound c) (hlock : (c.lock id).isSome) : Sound (c.request msgHash id) := by
  unfold Connections.request
  split
  · exact h
  · obtain ⟨s, hs⟩ := Option.isSome_iff_exists.mp hlock
    obtain ⟨connection, hmade, -⟩ := isSome_made_of_lock hs
    have hin : ∀ connection, c.made[id]? = some connection →
        connection.session.InTime (.addShutdownHandler (.forwarded msgHash)) := fun _ _ => trivial
    obtain ⟨hnumbered, htells, -⟩ := h.onSession hin
    -- the event of the session reads and writes nothing of the requests
    have hcomm : ({ c with
          sessionsWaitingOnForwardedRequests := c.sessionsWaitingOnForwardedRequests.insert msgHash id }.onSession id
        (.addShutdownHandler (.forwarded msgHash))) =
        { c.onSession id (.addShutdownHandler (.forwarded msgHash)) with
          sessionsWaitingOnForwardedRequests := c.sessionsWaitingOnForwardedRequests.insert msgHash id } := by
      simp only [Connections.onSession, hmade]
    rw [hcomm]
    refine ⟨hnumbered, htells, fun msgHash' id' hwaits => ?_⟩
    have hlookup := hwaits
    simp only [Map.lookup_insert] at hlookup
    split at hlookup
    · next heq =>
      cases hlookup
      subst heq
      exact releases_added (by rw [hmade]; rfl) msgHash
    · exact releases_onSession (h.releases msgHash' id' hlookup) hin

/-- A handler that runs lets the session go that it was for, and leaves the other handlers where they are. -/
theorem Sound.handler (h : Sound c) (i : Nat) : Sound (c.next (.handler i)) := by
  simp only [Connections.next]
  split
  · exact h
  · next posted hposted =>
    obtain ⟨hmade, hio, hcounter⟩ := runHandler_rest { c with ioContext := c.ioContext.eraseIdx i } posted.1 posted.2
    refine ⟨?_, ?_, fun msgHash id hwaits => ?_⟩
    · rw [hmade, hcounter]
      exact h.numbered
    · rw [hmade]
      exact h.tells
    · have hkept : c.sessionsWaitingOnForwardedRequests[msgHash]? = some id ∧ posted ≠ (id, .forwarded msgHash) := by
        obtain ⟨id', handler⟩ := posted
        cases handler with
        | nothing => exact ⟨hwaits, fun heq => by cases heq⟩
        | node =>
          refine ⟨?_, fun heq => by cases heq⟩
          simp only [runHandler, privSessionShutdownHandler] at hwaits
          split at hwaits
          · split at hwaits <;> exact hwaits
          · exact hwaits
        | forwarded =>
          simp only [runHandler] at hwaits
          split at hwaits
          · next hreleased =>
            rw [Map.lookup_erase] at hwaits
            split at hwaits
            · cases hwaits
            · next hother => exact ⟨hwaits, fun heq => hother (by cases heq; rfl)⟩
          · next hother =>
            refine ⟨hwaits, fun heq => hother ?_⟩
            cases heq
            exact hwaits
      obtain ⟨connection, hconnection, hway⟩ := h.releases msgHash id hkept.1
      refine ⟨connection, by rw [hmade]; exact hconnection, hway.imp_right fun hmem => ?_⟩
      obtain ⟨j, hj⟩ := List.mem_iff_getElem?.mp hmem
      rw [hio, List.mem_eraseIdx_iff_getElem?]
      refine ⟨j, fun heq => hkept.2 ?_, hj⟩
      rw [heq, hposted] at hj
      exact Option.some.inj hj

theorem Sound.destroyed (h : Sound c) (id : Nat) : Sound (c.next (.destroyed id)) := by
  simp only [Connections.next]
  split
  · exact h
  · next connection hconnection =>
    -- the session itself is as it was
    have hlookup : ∀ (id' : Nat) (connection' : Connection),
        (c.made.insert id { connection with alive := false })[id']? = some connection' →
        ∃ before : Connection, c.made[id']? = some before ∧ before.session = connection'.session := by
      intro id' connection' hmade
      rw [Map.lookup_insert] at hmade
      split at hmade
      · next heq =>
        cases hmade
        exact ⟨connection, heq ▸ hconnection, rfl⟩
      · exact ⟨connection', hmade, rfl⟩
    refine ⟨fun id' connection' hmade => ?_, fun id' connection' hmade => ?_, fun msgHash id' hwaits => ?_⟩
    · obtain ⟨before, hbefore, -⟩ := hlookup id' connection' hmade
      exact h.numbered id' before hbefore
    · obtain ⟨before, hbefore, hsession⟩ := hlookup id' connection' hmade
      rw [← hsession]
      exact h.tells id' before hbefore
    · obtain ⟨before, hbefore, hway⟩ := h.releases msgHash id' hwaits
      by_cases heq : id = id'
      · subst heq
        rw [hconnection] at hbefore
        cases hbefore
        exact ⟨_, (Map.lookup_insert _ _ _ _).trans (if_pos rfl), hway⟩
      · exact ⟨before, by rw [Map.lookup_insert, if_neg heq]; exact hbefore, hway⟩

/-- An event in time keeps the connections sound. -/
theorem Sound.next {e : Event} (h : Sound c) (henabled : c.Enabled e) (he : c.InTime e) :
    Sound (c.next e) := by
  cases e with
  | findSession ep => exact h.findSession ep
  | acceptConnection =>
    exact h.make (Session.tells_next (Session.tells_new [ShutdownHandler.nothing]) (e := .acceptSession) trivial) none
  | request => exact h.request henabled
  | session =>
    obtain ⟨s, hs, -⟩ := henabled
    obtain ⟨connection, hmade, -, hsession⟩ := isSome_made_of_lock hs
    refine h.onSession fun connection' hmade' => ?_
    rw [hmade] at hmade'
    cases hmade'
    rw [hsession]
    exact he s hs
  | handler i => exact h.handler i
  | destroyed id => exact h.destroyed id

theorem sound_new : Sound new := by
  refine ⟨fun id connection h => ?_, fun id connection h => ?_, fun msgHash id h => ?_⟩ <;>
  simp [new] at h

/-- In every run in which no handler reaches a session that is closing already: a session that is closing, and whose
strand is empty, has posted each handler it was given once; and once they have run, no request waits with it. -/
theorem handlers_posted_once {events : List Event} {c : Connections}
    (h : Reach next (fun c e => c.Enabled e ∧ c.InTime e) new events c) {id : Nat} {connection : Connection}
    (hmade : c.made[id]? = some connection) (hclosing : connection.session.closing = true)
    (hdrained : connection.session.strand = []) :
    connection.session.posted = connection.session.given ∧
      ((∀ posted ∈ c.ioContext, posted.1 ≠ id) →
        ∀ msgHash : Hash, c.sessionsWaitingOnForwardedRequests[msgHash]? ≠ some id) := by
  have hsound : Sound c := Reach.invariant (I := fun _ c => Sound c) sound_new
    (fun _ _ _ _ hc ha => hc.next ha.1 ha.2) h
  have htells := hsound.tells id connection hmade
  refine ⟨?_, fun hran msgHash hwaits => ?_⟩
  · rw [htells.after hclosing, htells.given, hdrained, List.filterMap_nil, List.append_nil]
  · obtain ⟨connection', hmade', hway⟩ := hsound.releases msgHash id hwaits
    rw [hmade] at hmade'
    cases hmade'
    rcases hway with (hstrand | ⟨hopen, -⟩) | hposted
    · rw [hdrained] at hstrand
      exact List.not_mem_nil hstrand
    · rw [hclosing] at hopen
      cases hopen
    · exact hran _ hposted rfl

/-- A client's connection over which a request arrives before it is closed. -/
def requestThenClose : List Event :=
  [.acceptConnection, .session 1 .task, .request (ascii "hash") 1, .session 1 .close, .session 1 .task,
    .session 1 .task,
    .handler 0, .handler 0]

theorem handlers_posted_once_request :
    let c := requestThenClose.foldl next new
    (c.made[1]?).map (fun connection => (connection.session.posted, connection.session.given)) =
        some ([.nothing, .forwarded (ascii "hash")], [.nothing, .forwarded (ascii "hash")]) ∧
      c.sessionsWaitingOnForwardedRequests[ascii "hash"]? ≠ some 1 := by
  intro c
  have hrun : Reach next (fun c e => c.Enabled e ∧ c.InTime e) new requestThenClose c :=
    reach_of_allows (by decide +kernel)
  obtain ⟨connection, hmade⟩ : ∃ connection, c.made[1]? = some connection :=
    Option.isSome_iff_exists.mp (by decide +kernel)
  have hstate : (c.made[1]?).map (fun connection => (connection.session.closing, connection.session.strand,
      connection.session.given)) = some (true, [], [.nothing, .forwarded (ascii "hash")]) := by decide +kernel
  rw [hmade, Option.map_some] at hstate
  injection hstate with hstate
  injection hstate with hclosing hstate
  injection hstate with hdrained hgiven
  obtain ⟨hposted, hreleased⟩ := handlers_posted_once hrun hmade hclosing hdrained
  refine ⟨?_, hreleased (by decide +kernel) (ascii "hash")⟩
  rw [hmade, Option.map_some, hposted, hgiven]

/-- A client's connection that is closing when the request arrives: the handler is never posted, and the session is held
for good. -/
theorem late_handler_kept :
    let events : List Event := [.acceptConnection, .session 1 .task, .session 1 .close, .session 1 .task,
      .request (ascii "hash") 1, .session 1 .task, .handler 0]
    let c := events.foldl next new
    Allows next Enabled new events ∧ c.ioContext = [] ∧ c.sessionsWaitingOnForwardedRequests[ascii "hash"]? = some 1 ∧
      (c.made[1]?).map (fun connection => (connection.session.closing, connection.session.strand,
        connection.session.posted, connection.session.given)) =
        some (true, [], [.nothing], [.nothing, .forwarded (ascii "hash")]) := by
  decide +kernel

/-! ## Sessions of endpoints -/

/-- A session that `find_session` made for an endpoint, to which a pointer is held and which is not closing. -/
def Live (c : Connections) (ep : Endpoint) (id : Nat) : Prop :=
  ∃ connection, c.made[id]? = some connection ∧ connection.ep? = some ep ∧ connection.alive = true ∧
    connection.session.closing = false

/-- An event in which no shutdown handler of `node` finds a session under its key that lives, is not closing and is not
open: one that is still connecting. -/
def Settled (c : Connections) : Event → Prop
  | .handler i =>
    match c.ioContext[i]? with
    | some (_, .node epKey) =>
      ∀ session ∈ (c.sessions[epKey]?).bind c.lock, session.closing = false → session.isOpen = true
    | _ => True
  | _ => True

instance (c : Connections) (e : Event) : Decidable (c.Settled e) := by
  unfold Settled
  split
  · split <;> infer_instance
  · infer_instance

/-- Every live session of an endpoint is the one registered. -/
def Registers (c : Connections) : Prop :=
  ∀ (ep : Endpoint) (id : Nat), c.Live ep id → c.sessions[keyFromEp ep]? = some id

theorem lock_of_live (h : c.Live ep id) : ∃ session, c.lock id = some session ∧ session.closing = false := by
  obtain ⟨connection, hmade, -, halive, hopen⟩ := h
  refine ⟨connection.session, ?_, hopen⟩
  rw [lock, hmade, Option.bind_some, if_pos halive]

theorem live_make {ep? : Option Endpoint} (h : (c.make session ep?).Live ep id) :
    c.Live ep id ∨ ep? = some ep ∧ id = c.sessionIdCounter + 1 := by
  obtain ⟨connection, hmade, hep, hrest⟩ := h
  rw [made_make] at hmade
  split at hmade
  · next heq =>
    cases hmade
    exact .inr ⟨hep, heq.symm⟩
  · exact .inl ⟨connection, hmade, hep, hrest⟩

theorem live_onSession {id' : Nat} (h : (c.onSession id e).Live ep id') : c.Live ep id' := by
  obtain ⟨connection, hmade, hep, halive, hopen⟩ := h
  rw [made_onSession] at hmade
  split at hmade
  · next heq =>
    obtain ⟨before, hbefore, rfl⟩ := Option.map_eq_some_iff.mp hmade
    refine ⟨before, heq ▸ hbefore, hep, halive, ?_⟩
    -- a session that was closing would be so still
    cases hclosing : before.session.closing with
    | false => rfl
    | true => exact absurd (Session.closing_next e hclosing) (by rw [hopen]; decide)
  · exact ⟨connection, hmade, hep, halive, hopen⟩

theorem Registers.findSession (h : Registers c) (ep : Endpoint) : Registers (c.findSession ep) := by
  rcases findSession_cases c ep with ⟨session, -, -, hsame⟩ | ⟨hclosing, hmake⟩
  · rw [hsame]
    exact h
  · rw [hmake]
    intro ep' id hlive
    show (c.sessions.insert (keyFromEp ep) (c.sessionIdCounter + 1))[keyFromEp ep']? = some id
    rw [Map.lookup_insert]
    rcases live_make (show (c.make _ (some ep)).Live ep' id from hlive) with hlive | ⟨hep, rfl⟩
    · -- a live session would be the one registered, which is closing or not held
      have hregistered := h ep' id hlive
      obtain ⟨session, hlock, hopen⟩ := lock_of_live hlive
      rw [if_neg, hregistered]
      intro hkey
      have hfound := hclosing session (by rw [hkey, hregistered]; exact hlock)
      rw [hopen] at hfound
      cases hfound
    · cases hep
      rw [if_pos rfl]

/-- The shutdown handler of a key leaves a live session where it is, if it is settled. -/
theorem sessions_privSessionShutdownHandler {epKey key : Bytes}
    (hsettled : ∀ session ∈ (c.sessions[epKey]?).bind c.lock, session.closing = false → session.isOpen = true)
    (hregistered : c.sessions[key]? = some id) (hlock : c.lock id = some session) (hopen : session.closing = false) :
    (c.privSessionShutdownHandler epKey).sessions[key]? = some id := by
  have hother : epKey ≠ key → (c.sessions.erase epKey)[key]? = some id := fun hne => by
    rw [Map.lookup_erase, if_neg hne, hregistered]
  unfold privSessionShutdownHandler
  by_cases hkey : epKey = key
  · subst hkey
    have hfound : (c.sessions[epKey]?).bind c.lock = some session := by rw [hregistered]; exact hlock
    have hisOpen := hsettled session hfound hopen
    simp only [hfound, hisOpen]
    exact hregistered
  · split
    · split
      · exact hregistered
      · exact hother hkey
    · exact hother hkey

/-- A posted handler that runs leaves a live session registered. -/
theorem sessions_handler {i : Nat} (hsettled : c.Settled (.handler i)) {key : Bytes}
    (hregistered : c.sessions[key]? = some id) (hlock : c.lock id = some session)
    (hopen : session.closing = false) : (c.next (.handler i)).sessions[key]? = some id := by
  simp only [next]
  split
  · exact hregistered
  · next posted hposted =>
    obtain ⟨id', handler⟩ := posted
    cases handler with
    | nothing => exact hregistered
    | node =>
      simp only [Settled, hposted] at hsettled
      exact sessions_privSessionShutdownHandler (c :=
        { c with ioContext := c.ioContext.eraseIdx i }) hsettled hregistered
        hlock hopen
    | forwarded =>
      simp only [runHandler]
      split <;> exact hregistered

theorem Registers.onSession (h : Registers c) (id : Nat) (e : Session.Event ShutdownHandler) :
    Registers (c.onSession id e) := by
  intro ep id' hlive
  rw [(onSession_rest c id e).1]
  exact h ep id' (live_onSession hlive)

theorem Registers.next {e : Event} (h : Registers c) (he : c.Settled e) : Registers (c.next e) := by
  cases e with
  | findSession ep => exact h.findSession ep
  | acceptConnection =>
    intro ep id hlive
    rcases live_make hlive with hlive | ⟨hep, -⟩
    · exact h ep id hlive
    · cases hep
  | request msgHash id =>
    simp only [Connections.next, request]
    split
    · exact h
    · have hwaits : Registers { c with
          sessionsWaitingOnForwardedRequests := c.sessionsWaitingOnForwardedRequests.insert msgHash id } := h
      exact hwaits.onSession id _
  | session id e => exact h.onSession id e
  | handler =>
    intro ep id hlive
    have hbefore : c.Live ep id := by
      obtain ⟨connection, hmade, hrest⟩ := hlive
      refine ⟨connection, ?_, hrest⟩
      simp only [Connections.next] at hmade
      split at hmade
      · exact hmade
      · rw [(runHandler_rest _ _ _).1] at hmade
        exact hmade
    obtain ⟨session, hlock, hopen⟩ := lock_of_live hbefore
    exact sessions_handler he (h ep id hbefore) hlock hopen
  | destroyed =>
    intro ep id' hlive
    simp only [Connections.next] at hlive ⊢
    split at hlive
    · exact h ep id' hlive
    · next connection hconnection =>
      obtain ⟨connection', hmade, hep, halive, hopen⟩ := hlive
      rw [Map.lookup_insert] at hmade
      split at hmade
      · cases hmade
        cases halive
      · exact h ep id' ⟨connection', hmade, hep, halive, hopen⟩

/-- In every run in which no shutdown handler of `node` finds a session that is still connecting: there is one live
session for an endpoint at most, and a posted handler that runs leaves a live session registered. -/
theorem one_session_per_endpoint {events : List Event} {c : Connections}
    (h : Reach next (fun c e => c.Enabled e ∧ c.Settled e) new events c) :
    (∀ ep id id', c.Live ep id → c.Live ep id' → id = id') ∧
      ∀ i, c.Settled (.handler i) → ∀ (key : Bytes) (id : Nat) (session : Session ShutdownHandler),
        c.sessions[key]? = some id → c.lock id = some session → session.closing = false →
          (c.next (.handler i)).sessions[key]? = some id := by
  have hregisters : Registers c := Reach.invariant (I := fun _ c => Registers c)
    (fun ep id hlive => by obtain ⟨connection, hmade, -⟩ := hlive; simp [new] at hmade)
    (fun _ _ _ _ hc ha => hc.next ha.2) h
  refine ⟨fun ep id id' hlive hlive' => ?_, fun i hsettled key id session hregistered hlock hopen =>
    sessions_handler hsettled hregistered hlock hopen⟩
  have hid := (hregisters ep id hlive).symm.trans (hregisters ep id' hlive')
  exact Option.some.inj hid

/-- The endpoint of a sample peer. -/
def sampleEndpoint : Endpoint := ⟨ascii "127.0.0.1", 50000⟩

/-- A session is opened and closed, and its replacement opened before the handler of the first one runs. -/
def replaceWhenOpen : List Event :=
  [.findSession sampleEndpoint, .session 1 .task, .session 1 .close, .session 1 .task, .findSession sampleEndpoint,
    .session 2 .task, .session 2 (.connected none), .session 2 (.websocketChanges true), .session 2 (.handshaken none),
    .handler 0, .findSession sampleEndpoint]

theorem one_session_per_endpoint_open :
    let c := replaceWhenOpen.foldl next new
    c.Live sampleEndpoint 2 ∧ ∀ id, c.Live sampleEndpoint id → id = 2 := by
  intro c
  have hrun : Reach next (fun c e => c.Enabled e ∧ c.Settled e) new replaceWhenOpen c :=
    reach_of_allows (by decide +kernel)
  have hlive : c.Live sampleEndpoint 2 := by
    obtain ⟨connection, hmade⟩ : ∃ connection, c.made[2]? = some connection :=
      Option.isSome_iff_exists.mp (by decide +kernel)
    have hstate : (c.made[2]?).map (fun connection => (connection.ep?, connection.alive, connection.session.closing)) =
        some (some sampleEndpoint, true, false) := by decide +kernel
    rw [hmade, Option.map_some] at hstate
    injection hstate with hstate
    injection hstate with hep hstate
    injection hstate with halive hopen
    exact ⟨connection, hmade, hep, halive, hopen⟩
  exact ⟨hlive, fun id hid => (one_session_per_endpoint hrun).1 sampleEndpoint id 2 hid hlive⟩

/-- The handler of a closed session removes its replacement, which is still connecting; the next call of `find_session`
makes a third session, and two of them live. -/
theorem replacement_removed :
    let events : List Event := [.findSession sampleEndpoint, .session 1 .task, .session 1 .close, .session 1 .task,
      .findSession sampleEndpoint, .handler 0, .findSession sampleEndpoint]
    let c := events.foldl next new
    Allows next Enabled new events ∧ c.sessions[keyFromEp sampleEndpoint]? = some 3 ∧
      ∀ id ∈ [2, 3], (c.made[id]?).map (fun connection =>
        (connection.ep?, connection.alive, connection.session.closing)) =
        some (some sampleEndpoint, true, false) := by
  decide +kernel

end Connections

end SwarmDb
