import SwarmDb.Lib.History
import SwarmDb.Proto.Messages

/-!
# Session

`session`: a connection over a websocket. Its methods post tasks to a strand, which runs them one at a time; between
them it runs the handlers of the asynchronous operations that end. The websocket, the other side and the clock are
outside: an operation in flight may end at any time with any result.

A message goes from the strand to the write queue, from its front to the operation in flight, and, where writing fails,
back to the front: all messages are written in order (`written_in_order`). A shutdown handler goes from the strand to
the list of handlers, which is posted to the io context once, when the session closes (`tells_next`).
-/

namespace SwarmDb

open Lib

/-- The errors that a session tells apart. -/
inductive ErrorCode where
  /-- `boost::beast::websocket::error::closed` -/
  | closed
  /-- `boost::asio::error::eof` -/
  | eof
  | other
  deriving DecidableEq

/-- What the chaos module decides about a message; without chaos every message passes. -/
inductive ChaosDecision where
  | passed
  | delayed
  | dropped
  deriving DecidableEq

namespace Session

/-- What the methods post to the strand. -/
inductive Task (η : Type) where
  | openSession
  | acceptSession
  | addShutdownHandler (handler : η)
  | sendMessage (msg : Bytes)
  | privateClose
  deriving DecidableEq

/-- The message that a task puts into the write queue. -/
def Task.message? {η : Type} : Task η → Option Bytes
  | sendMessage msg => some msg
  | _ => none

/-- The handler that a task adds. -/
def Task.handler? {η : Type} : Task η → Option η
  | addShutdownHandler handler => some handler
  | _ => none

end Session

/-- A session, with shutdown handlers of a type. -/
structure Session (η : Type) where
  /-- The websocket, and whether it is open. -/
  websocket : Option Bool
  writeQueue : List Bytes
  shutdownHandlers : List η
  writing : Bool
  reading : Bool
  closing : Bool
  activity : Bool
  /-- The tasks posted to the strand that did not run yet. -/
  strand : List (Session.Task η)
  /-- The operations in flight: `async_connect`, `async_handshake`, `async_accept`, `async_read`, `async_close` and
  `async_wait`, and the messages of `async_write`. -/
  connects : Nat
  handshakes : Nat
  accepts : Nat
  reads : Nat
  closes : Nat
  waits : Nat
  writes : List Bytes
  /-- The messages that the chaos module sends again later. -/
  rescheduled : List Bytes
  /-- The messages written, and the errors given to the callback of `open`. -/
  written : List Bytes
  connectErrors : List ErrorCode
  /-- The messages and the shutdown handlers posted to the io context. -/
  received : List BznEnvelope
  posted : List η
  /-- The handlers given to the constructor and to `add_shutdown_handler`. -/
  given : List η

namespace Session

variable {η : Type} {s : Session η} {rest : List (Task η)}

/-- A new session. -/
def new (shutdownHandlers : List η) : Session η where
  websocket := none
  writeQueue := []
  shutdownHandlers := shutdownHandlers
  writing := false
  reading := false
  closing := false
  activity := false
  strand := []
  connects := 0
  handshakes := 0
  accepts := 0
  reads := 0
  closes := 0
  waits := 0
  writes := []
  rescheduled := []
  written := []
  connectErrors := []
  received := []
  posted := []
  given := shutdownHandlers

/-! ## Methods -/

def isOpen (s : Session η) : Bool := decide (s.websocket = some true) && !s.closing

def isClosing (s : Session η) : Bool := s.closing

/-- `strand->post` -/
def post (s : Session η) (task : Task η) : Session η := { s with strand := s.strand ++ [task] }

def close (s : Session η) : Session η := s.post .privateClose

def addShutdownHandler (s : Session η) (handler : η) : Session η :=
  { s.post (.addShutdownHandler handler) with given := s.given ++ [handler] }

def sendMessage (s : Session η) (chaos : ChaosDecision) (msg : Bytes) : Session η :=
  match chaos with
  | .delayed => { s with rescheduled := s.rescheduled ++ [msg] }
  | .dropped => s
  | .passed => s.post (.sendMessage msg)

def startIdleTimeout (s : Session η) : Session η := { s with activity := false, waits := s.waits + 1 }

def doRead (s : Session η) : Session η :=
  if s.reading || !s.isOpen || s.closing then s else { s with reading := true, reads := s.reads + 1 }

def doWrite (s : Session η) : Session η :=
  if s.writing || !s.isOpen || s.closing then s
  else
    match s.writeQueue with
    | [] => s
    | msg :: rest => { s with writing := true, writeQueue := rest, writes := s.writes ++ [msg] }

/-- `private_close`. The waits of the idle timer are canceled: they end with an error. -/
def privateClose (s : Session η) : Session η :=
  if s.closing then s
  else
    { s with
      closing := true
      posted := s.posted ++ s.shutdownHandlers
      closes := if s.websocket = some true then s.closes + 1 else s.closes }

/-- A task of the strand. The websocket given to `accept` is not open before it has accepted. -/
def run (s : Session η) : Task η → Session η
  | .openSession => { s with connects := s.connects + 1 }
  | .acceptSession => { s with websocket := some false, accepts := s.accepts + 1 }
  | .addShutdownHandler handler => { s with shutdownHandlers := s.shutdownHandlers ++ [handler] }
  | .sendMessage msg => { s with writeQueue := s.writeQueue ++ [msg] }.doWrite
  | .privateClose => s.privateClose

/-! ## The handlers of the operations -/

def connected (s : Session η) (ec : Option ErrorCode) : Session η :=
  let s := { s with connects := s.connects - 1, activity := true }
  match ec with
  | some e => { s with connectErrors := s.connectErrors ++ [e] }
  | none => { s with websocket := some false, handshakes := s.handshakes + 1 }

/-- The session is ready: the ends of `async_handshake` and of `async_accept`. -/
def ready (s : Session η) (ec : Option ErrorCode) : Session η :=
  let s := { s with activity := true }
  match ec with
  | some _ => s
  | none => s.startIdleTimeout.doRead.doWrite

/-- The end of `async_read`, with the message that was parsed. -/
def readDone (s : Session η) (ec : Option ErrorCode) (msg : Option BznEnvelope) : Session η :=
  let s := { s with reads := s.reads - 1, activity := true }
  match ec with
  | some e => if e ≠ .closed then s.close else s
  | none => { s with received := s.received ++ msg.toList, reading := false }.doRead

/-- The end of `async_write`. -/
def writeDone (s : Session η) (ec : Option ErrorCode) : Session η :=
  match s.writes with
  | [] => s
  | msg :: rest =>
    let s := { s with writes := rest, activity := true }
    match ec with
    | some e =>
      let s := { s with writeQueue := msg :: s.writeQueue }
      if e ≠ .closed then s.close else s
    | none => { s with written := s.written ++ [msg], writing := false }.doWrite

/-- The end of a wait of the idle timer. -/
def waited (s : Session η) (ec : Option ErrorCode) : Session η :=
  let s := { s with waits := s.waits - 1 }
  if !s.activity then s.close
  else if s.closing || ec.isSome then s
  else s.startIdleTimeout

/-! ## Events -/

/-- What may happen to a session: calls of its methods, the first task of its strand, the ends of its operations, a
message that the chaos module sends again, and a change of the websocket. -/
inductive Event (η : Type) where
  | openSession
  | acceptSession
  | addShutdownHandler (handler : η)
  | sendMessage (chaos : ChaosDecision) (msg : Bytes)
  | close
  | task
  | connected (ec : Option ErrorCode)
  | handshaken (ec : Option ErrorCode)
  | accepted (ec : Option ErrorCode)
  | readDone (ec : Option ErrorCode) (msg : Option BznEnvelope)
  | writeDone (ec : Option ErrorCode)
  | waited (ec : Option ErrorCode)
  | closeDone (ec : Option ErrorCode)
  | resent (chaos : ChaosDecision)
  | websocketChanges (isOpen : Bool)

def next (s : Session η) : Event η → Session η
  | .openSession => s.post .openSession
  | .acceptSession => s.post .acceptSession
  | .addShutdownHandler handler => s.addShutdownHandler handler
  | .sendMessage chaos msg => s.sendMessage chaos msg
  | .close => s.close
  | .task =>
    match s.strand with
    | [] => s
    | task :: rest => { s with strand := rest }.run task
  | .connected ec => s.connected ec
  | .handshaken ec => { s with handshakes := s.handshakes - 1 }.ready ec
  | .accepted ec => { s with accepts := s.accepts - 1 }.ready ec
  | .readDone ec msg => s.readDone ec msg
  | .writeDone ec => s.writeDone ec
  | .waited ec => s.waited ec
  | .closeDone _ => { s with closes := s.closes - 1 }
  | .resent chaos =>
    match s.rescheduled with
    | [] => s
    | msg :: rest => { s with rescheduled := rest }.sendMessage chaos msg
  | .websocketChanges isOpen => { s with websocket := s.websocket.map fun _ => isOpen }

/-- An event can happen where there is a task, an operation or a message for it. -/
def Enabled (s : Session η) : Event η → Prop
  | .task => s.strand ≠ []
  | .connected _ => 0 < s.connects
  | .handshaken _ => 0 < s.handshakes
  | .accepted _ => 0 < s.accepts
  | .readDone _ _ => 0 < s.reads
  | .writeDone _ => s.writes ≠ []
  | .waited _ => 0 < s.waits
  | .closeDone _ => 0 < s.closes
  | .resent _ => s.rescheduled ≠ []
  | .websocketChanges _ => s.websocket.isSome
  | _ => True

instance (s : Session η) (e : Event η) : Decidable (s.Enabled e) := by
  unfold Enabled
  split <;> infer_instance

/-! ## What has no part in writing or closing -/

/-- Nothing changed of the messages. -/
structure SameMessages (s s' : Session η) : Prop where
  written : s'.written = s.written
  writes : s'.writes = s.writes
  writeQueue : s'.writeQueue = s.writeQueue
  writing : s'.writing = s.writing
  rescheduled : s'.rescheduled = s.rescheduled
  strandMessages : s'.strand.filterMap Task.message? = s.strand.filterMap Task.message?

/-- Nothing changed of the shutdown handlers. -/
structure SameHandlers (s s' : Session η) : Prop where
  given : s'.given = s.given
  strandHandlers : s'.strand.filterMap Task.handler? = s.strand.filterMap Task.handler?
  shutdownHandlers : s'.shutdownHandlers = s.shutdownHandlers
  closing : s'.closing = s.closing
  posted : s'.posted = s.posted

/-- Nothing changed of either. -/
structure Aside (s s' : Session η) : Prop extends SameMessages s s', SameHandlers s s'

theorem SameMessages.refl (s : Session η) : SameMessages s s := ⟨rfl, rfl, rfl, rfl, rfl, rfl⟩

variable {s' s'' : Session η} {task : Task η} {handler : η}

theorem SameMessages.trans (h : SameMessages s s') (h' : SameMessages s' s'') : SameMessages s s'' :=
  ⟨h'.written.trans h.written, h'.writes.trans h.writes, h'.writeQueue.trans h.writeQueue, h'.writing.trans h.writing,
    h'.rescheduled.trans h.rescheduled, h'.strandMessages.trans h.strandMessages⟩

theorem SameHandlers.refl (s : Session η) : SameHandlers s s := ⟨rfl, rfl, rfl, rfl, rfl⟩

theorem SameHandlers.trans (h : SameHandlers s s') (h' : SameHandlers s' s'') : SameHandlers s s'' :=
  ⟨h'.given.trans h.given, h'.strandHandlers.trans h.strandHandlers, h'.shutdownHandlers.trans h.shutdownHandlers,
    h'.closing.trans h.closing, h'.posted.trans h.posted⟩

theorem Aside.refl (s : Session η) : Aside s s := ⟨.refl s, .refl s⟩

theorem Aside.trans (h : Aside s s') (h' : Aside s' s'') : Aside s s'' :=
  ⟨h.toSameMessages.trans h'.toSameMessages, h.toSameHandlers.trans h'.toSameHandlers⟩

/-- A task that carries neither a message nor a handler is posted. -/
theorem post_aside (s : Session η) (hmessage : task.message? = none) (hhandler : task.handler? = none) :
    Aside s (s.post task) := by
  refine ⟨⟨rfl, rfl, rfl, rfl, rfl, ?_⟩, ⟨rfl, ?_, rfl, rfl, rfl⟩⟩
  · rw [post, List.filterMap_append, List.filterMap_cons_none hmessage, List.filterMap_nil, List.append_nil]
  · rw [post, List.filterMap_append, List.filterMap_cons_none hhandler, List.filterMap_nil, List.append_nil]

theorem close_aside (s : Session η) : Aside s s.close := post_aside s rfl rfl

theorem doRead_aside (s : Session η) : Aside s s.doRead := by
  unfold doRead
  split
  · exact .refl s
  · exact ⟨⟨rfl, rfl, rfl, rfl, rfl, rfl⟩, ⟨rfl, rfl, rfl, rfl, rfl⟩⟩

theorem readDone_aside (s : Session η) (ec : Option ErrorCode) (msg : Option BznEnvelope) :
    Aside s (s.readDone ec msg) := by
  cases ec with
  | some =>
    have hread : Aside s { s with reads := s.reads - 1, activity := true } :=
      ⟨⟨rfl, rfl, rfl, rfl, rfl, rfl⟩, ⟨rfl, rfl, rfl, rfl, rfl⟩⟩
    simp only [readDone]
    split
    · exact hread.trans (close_aside _)
    · exact hread
  | none =>
    have hread : Aside s { s with
        reads := s.reads - 1, activity := true, received := s.received ++ msg.toList, reading := false } :=
      ⟨⟨rfl, rfl, rfl, rfl, rfl, rfl⟩, ⟨rfl, rfl, rfl, rfl, rfl⟩⟩
    exact hread.trans (doRead_aside _)

theorem waited_aside (s : Session η) (ec : Option ErrorCode) : Aside s (s.waited ec) := by
  have hwait : Aside s { s with waits := s.waits - 1 } := ⟨⟨rfl, rfl, rfl, rfl, rfl, rfl⟩, ⟨rfl, rfl, rfl, rfl, rfl⟩⟩
  simp only [waited]
  split
  · exact hwait.trans (close_aside _)
  split
  · exact hwait
  · exact hwait.trans ⟨⟨rfl, rfl, rfl, rfl, rfl, rfl⟩, ⟨rfl, rfl, rfl, rfl, rfl⟩⟩

theorem connected_aside (s : Session η) (ec : Option ErrorCode) : Aside s (s.connected ec) := by
  cases ec <;> exact ⟨⟨rfl, rfl, rfl, rfl, rfl, rfl⟩, ⟨rfl, rfl, rfl, rfl, rfl⟩⟩

/-- The session is ready, up to the call of `do_write`. -/
theorem startIdleTimeout_doRead_aside (s : Session η) :
    Aside s (startIdleTimeout { s with activity := true }).doRead := by
  have hstart : Aside s (startIdleTimeout { s with activity := true }) :=
    ⟨⟨rfl, rfl, rfl, rfl, rfl, rfl⟩, ⟨rfl, rfl, rfl, rfl, rfl⟩⟩
  exact hstart.trans (doRead_aside _)

variable {e : Event η}

/-- The events that have no part in either. -/
theorem next_aside (h : match e with
      | .openSession | .acceptSession | .close | .connected _ | .readDone _ _ | .waited _ | .closeDone _
      | .websocketChanges _ => True
      | _ => False) : Aside s (s.next e) := by
  cases e with
  | openSession | acceptSession => exact post_aside s rfl rfl
  | close => exact close_aside s
  | connected ec => exact connected_aside s ec
  | readDone ec msg => exact readDone_aside s ec msg
  | waited ec => exact waited_aside s ec
  | closeDone | websocketChanges => exact ⟨⟨rfl, rfl, rfl, rfl, rfl, rfl⟩, ⟨rfl, rfl, rfl, rfl, rfl⟩⟩
  | addShutdownHandler | sendMessage | task | handshaken | accepted | writeDone | resent => exact h.elim

/-! ## Messages -/

/-- The messages on their way, those that have come furthest first: written, in flight, in the write queue, and in tasks
of the strand. -/
def messages (s : Session η) : List Bytes :=
  s.written ++ s.writes ++ s.writeQueue ++ s.strand.filterMap Task.message?

/-- One write at most is in flight, and none where the session is not writing. -/
structure Flows (s : Session η) : Prop where
  single : s.writes.length ≤ 1
  idle : s.writing = false → s.writes = []
  /-- Nothing waits for the chaos module. -/
  calm : s.rescheduled = []

/-- The messages went on, with more behind them. -/
structure Passes (s s' : Session η) (more : List Bytes) : Prop where
  flows : Flows s'
  messages : s'.messages = s.messages ++ more

theorem Passes.trans {more more' : List Bytes} (h : Passes s s' more) (h' : Passes s' s'' more') :
    Passes s s'' (more ++ more') :=
  ⟨h'.flows, by rw [h'.messages, h.messages, List.append_assoc]⟩

theorem SameMessages.passes (h : SameMessages s s') (hs : Flows s) : Passes s s' [] := by
  refine ⟨⟨?_, ?_, ?_⟩, ?_⟩
  · rw [h.writes]
    exact hs.single
  · rw [h.writing, h.writes]
    exact hs.idle
  · rw [h.rescheduled]
    exact hs.calm
  · rw [Session.messages, Session.messages, h.written, h.writes, h.writeQueue, h.strandMessages, List.append_nil]

theorem privateClose_sameMessages (s : Session η) : SameMessages s s.privateClose := by
  unfold privateClose
  split
  · exact .refl s
  · exact ⟨rfl, rfl, rfl, rfl, rfl, rfl⟩

/-- The front of the write queue goes to the operation in flight. -/
theorem doWrite_passes (h : Flows s) : Passes s s.doWrite [] := by
  unfold doWrite
  split
  · exact (SameMessages.refl s).passes h
  · next hwrite =>
    simp only [Bool.or_eq_true, not_or, Bool.not_eq_true] at hwrite
    have hidle : s.writes = [] := h.idle hwrite.1.1
    split
    · exact (SameMessages.refl s).passes h
    · next msg rest hqueue =>
      refine ⟨⟨?_, fun hw => Bool.noConfusion hw, h.calm⟩, ?_⟩
      · simp [hidle]
      · simp [messages, hqueue]

theorem ready_passes (h : Flows s) (ec : Option ErrorCode) : Passes s (s.ready ec) [] := by
  cases ec with
  | some => exact (⟨rfl, rfl, rfl, rfl, rfl, rfl⟩ : SameMessages s { s with activity := true }).passes h
  | none =>
    have hread := (startIdleTimeout_doRead_aside s).toSameMessages.passes h
    exact hread.trans (doWrite_passes hread.flows)

/-- The message in flight is written, or goes back to the front of the write queue. -/
theorem writeDone_passes (h : Flows s) (ec : Option ErrorCode) : Passes s (s.writeDone ec) [] := by
  unfold writeDone
  split
  · exact (SameMessages.refl s).passes h
  · next msg rest hwrites =>
    have hrest : rest = [] := by
      have hsingle := h.single
      rw [hwrites, List.length_cons] at hsingle
      exact List.length_eq_zero_iff.mp (by omega)
    subst hrest
    cases ec with
    | some =>
      have hback : Passes s { s with writes := [], activity := true, writeQueue := msg :: s.writeQueue } [] :=
        ⟨⟨Nat.zero_le _, fun _ => rfl, h.calm⟩, by simp [messages, hwrites]⟩
      dsimp only
      split
      · exact hback.trans ((close_aside _).toSameMessages.passes hback.flows)
      · exact hback
    | none =>
      have hwritten : Passes s
          { s with writes := [], activity := true, written := s.written ++ [msg], writing := false } [] :=
        ⟨⟨Nat.zero_le _, fun _ => rfl, h.calm⟩, by simp [messages, hwrites]⟩
      exact hwritten.trans (doWrite_passes hwritten.flows)

/-- The message of a task comes into the write queue; the other tasks have no part in writing. -/
theorem run_passes (h : Flows s) (hstrand : s.strand = task :: rest) :
    Passes s ({ s with strand := rest }.run task) [] := by
  have hsame : task.message? = none → SameMessages s { s with strand := rest } := fun hnone =>
    ⟨rfl, rfl, rfl, rfl, rfl, by rw [hstrand, List.filterMap_cons_none hnone]⟩
  cases task with
  | openSession | acceptSession | addShutdownHandler =>
    refine SameMessages.passes ?_ h
    exact (hsame rfl).trans ⟨rfl, rfl, rfl, rfl, rfl, rfl⟩
  | sendMessage msg =>
    have hqueued : Passes s { s with strand := rest, writeQueue := s.writeQueue ++ [msg] } [] :=
      ⟨⟨h.single, h.idle, h.calm⟩, by simp [messages, hstrand, Task.message?]⟩
    exact hqueued.trans (doWrite_passes hqueued.flows)
  | privateClose => exact ((hsame rfl).trans (privateClose_sameMessages _)).passes h

/-- The message that a call sends. -/
def Event.message? : Event η → Option Bytes
  | .sendMessage _ msg => some msg
  | _ => none

/-- An event in which the chaos module, where it is asked, lets a message pass. -/
def Event.Undisturbed : Event η → Prop
  | .sendMessage chaos _ => chaos = .passed
  | .resent chaos => chaos = .passed
  | _ => True

instance (e : Event η) : Decidable e.Undisturbed := by
  unfold Event.Undisturbed
  split <;> infer_instance

/-- What an event does to the messages: a call that sends one adds it behind the others. -/
theorem flows_next (h : Flows s) (he : e.Undisturbed) :
    Passes s (s.next e) e.message?.toList := by
  cases e with
  | addShutdownHandler =>
    refine SameMessages.passes ⟨rfl, rfl, rfl, rfl, rfl, ?_⟩ h
    simp [next, addShutdownHandler, post, Task.message?]
  | sendMessage =>
    cases he
    exact ⟨⟨h.single, h.idle, h.calm⟩, by
      simp [next, sendMessage, post, messages, Event.message?, Task.message?]⟩
  | task =>
    simp only [next]
    split
    · exact (SameMessages.refl s).passes h
    · next hstrand => exact run_passes h hstrand
  | handshaken ec =>
    have hsame : SameMessages s { s with handshakes := s.handshakes - 1 } := ⟨rfl, rfl, rfl, rfl, rfl, rfl⟩
    exact (hsame.passes h).trans (ready_passes (hsame.passes h).flows ec)
  | accepted ec =>
    have hsame : SameMessages s { s with accepts := s.accepts - 1 } := ⟨rfl, rfl, rfl, rfl, rfl, rfl⟩
    exact (hsame.passes h).trans (ready_passes (hsame.passes h).flows ec)
  | writeDone ec => exact writeDone_passes h ec
  | resent =>
    simp only [next, h.calm]
    exact (SameMessages.refl s).passes h
  | openSession | acceptSession | close | connected | readDone | waited | closeDone | websocketChanges =>
    exact (next_aside trivial).toSameMessages.passes h

/-- In every run without chaos, the messages written, followed by the one in flight, by the write queue and by those in
tasks of the strand, are the messages sent in the order of the calls; one write at most is in flight. -/
theorem written_in_order {handlers : List η} {events : List (Event η)} {s : Session η}
    (h : Reach next (fun s e => s.Enabled e ∧ e.Undisturbed) (new handlers) events s) :
    s.written ++ s.writes ++ s.writeQueue ++ s.strand.filterMap Task.message? = events.filterMap Event.message? ∧
      s.writes.length ≤ 1 := by
  have hflow : Flows s ∧ s.messages = events.filterMap Event.message? := by
    refine Reach.invariant (I := fun l s => Flows s ∧ s.messages = l.filterMap Event.message?) ?_ ?_ h
    · exact ⟨⟨Nat.zero_le _, fun _ => rfl, rfl⟩, rfl⟩
    · rintro l s e - ⟨hs, hl⟩ ⟨-, he⟩
      have hnext := flows_next hs he
      refine ⟨hnext.flows, ?_⟩
      rw [hnext.messages, hl, List.filterMap_append]
      rfl
  exact ⟨hflow.2, hflow.1.single⟩

/-- Two messages sent before the handshake; the first is written, and writing the second fails. -/
def sampleEvents : List (Event Unit) :=
  [.openSession, .sendMessage .passed (ascii "a"), .task, .task, .connected none,
    .sendMessage .passed (ascii "b"), .task,
    .websocketChanges true, .handshaken none, .writeDone none, .writeDone (some .eof), .task]

theorem written_in_order_sample :
    let s := sampleEvents.foldl next (new [()])
    s.written = [ascii "a"] ∧ s.writeQueue = [ascii "b"] ∧ s.closing = true ∧
      s.written ++ s.writes ++ s.writeQueue ++ s.strand.filterMap Task.message? = [ascii "a", ascii "b"] := by
  have hrun : Reach next (fun s e => s.Enabled e ∧ e.Undisturbed) (new [()]) sampleEvents
      (sampleEvents.foldl next (new [()])) := reach_of_allows (by decide +kernel)
  exact ⟨by decide +kernel, by decide +kernel, by decide +kernel, (written_in_order hrun).1⟩

/-! ## Shutdown handlers -/

/-- What an event does to the shutdown handlers. -/
inductive Moves (s : Session η) (e : Event η) (s' : Session η) : Prop
  /-- Handlers may be posted to the strand. -/
  | posts (more : List η) (given : s'.given = s.given ++ more)
      (strand : s'.strand.filterMap Task.handler? = s.strand.filterMap Task.handler? ++ more)
      (shutdownHandlers : s'.shutdownHandlers = s.shutdownHandlers) (closing : s'.closing = s.closing)
      (posted : s'.posted = s.posted)
  /-- The strand adds a handler to the list. -/
  | adds (task : e = .task) (handler : η) (rest : List (Task η))
    (first : s.strand = .addShutdownHandler handler :: rest)
      (strand : s'.strand = rest) (given : s'.given = s.given)
      (shutdownHandlers : s'.shutdownHandlers = s.shutdownHandlers ++ [handler]) (closing : s'.closing = s.closing)
      (posted : s'.posted = s.posted)
  /-- The session closes, and the handlers of the list are posted to the io context. -/
  | closes (was : s.closing = false) (given : s'.given = s.given)
      (strand : s'.strand.filterMap Task.handler? = s.strand.filterMap Task.handler?)
      (shutdownHandlers : s'.shutdownHandlers = s.shutdownHandlers) (closing : s'.closing = true)
      (posted : s'.posted = s.posted ++ s.shutdownHandlers)

theorem SameHandlers.moves (h : SameHandlers s s') (e : Event η) : Moves s e s' :=
  .posts [] (by rw [h.given, List.append_nil])
    (by rw [h.strandHandlers, List.append_nil]) h.shutdownHandlers h.closing h.posted

theorem doWrite_sameHandlers (s : Session η) : SameHandlers s s.doWrite := by
  unfold doWrite
  split
  · exact .refl s
  split <;> exact ⟨rfl, rfl, rfl, rfl, rfl⟩

theorem sendMessage_sameHandlers (s : Session η) (chaos : ChaosDecision) (msg : Bytes) :
    SameHandlers s (s.sendMessage chaos msg) := by
  cases chaos with
  | passed =>
    refine ⟨rfl, ?_, rfl, rfl, rfl⟩
    simp [sendMessage, post, Task.handler?]
  | delayed => exact ⟨rfl, rfl, rfl, rfl, rfl⟩
  | dropped => exact .refl s

theorem ready_sameHandlers (s : Session η) (ec : Option ErrorCode) : SameHandlers s (s.ready ec) := by
  cases ec with
  | some => exact ⟨rfl, rfl, rfl, rfl, rfl⟩
  | none => exact (startIdleTimeout_doRead_aside s).toSameHandlers.trans (doWrite_sameHandlers _)

theorem writeDone_sameHandlers (s : Session η) (ec : Option ErrorCode) : SameHandlers s (s.writeDone ec) := by
  unfold writeDone
  split
  · exact .refl s
  · next msg rest hwrites =>
    cases ec with
    | some =>
      have hback : SameHandlers s { s with writes := rest, activity := true, writeQueue := msg :: s.writeQueue } :=
        ⟨rfl, rfl, rfl, rfl, rfl⟩
      dsimp only
      split
      · exact hback.trans (close_aside _).toSameHandlers
      · exact hback
    | none =>
      have hwritten : SameHandlers s
          { s with writes := rest, activity := true, written := s.written ++ [msg], writing := false } :=
        ⟨rfl, rfl, rfl, rfl, rfl⟩
      exact hwritten.trans (doWrite_sameHandlers _)

theorem run_moves (hstrand : s.strand = task :: rest) : Moves s .task ({ s with strand := rest }.run task) := by
  have hsame : task.handler? = none → SameHandlers s { s with strand := rest } := fun hnone =>
    ⟨rfl, by rw [hstrand, List.filterMap_cons_none hnone], rfl, rfl, rfl⟩
  cases task with
  | openSession | acceptSession =>
    refine SameHandlers.moves ?_ _
    exact (hsame rfl).trans ⟨rfl, rfl, rfl, rfl, rfl⟩
  | addShutdownHandler handler => exact .adds rfl handler rest hstrand rfl rfl rfl rfl rfl
  | sendMessage msg =>
    have hqueued : SameHandlers s { s with strand := rest, writeQueue := s.writeQueue ++ [msg] } :=
      (hsame rfl).trans ⟨rfl, rfl, rfl, rfl, rfl⟩
    exact (hqueued.trans (doWrite_sameHandlers _)).moves _
  | privateClose =>
    show Moves s .task (privateClose { s with strand := rest })
    unfold privateClose
    split
    · exact (hsame rfl).moves _
    · next hopen => exact .closes (Bool.not_eq_true _ |>.mp hopen) rfl (hsame rfl).strandHandlers rfl rfl rfl

theorem moves_next (s : Session η) (e : Event η) : Moves s e (s.next e) := by
  cases e with
  | addShutdownHandler handler =>
    refine .posts [handler] rfl ?_ rfl rfl rfl
    simp [next, addShutdownHandler, post, Task.handler?]
  | sendMessage chaos msg => exact (sendMessage_sameHandlers s chaos msg).moves _
  | task =>
    simp only [next]
    split
    · exact (SameHandlers.refl s).moves _
    · next hstrand => exact run_moves hstrand
  | handshaken ec =>
    have hsame : SameHandlers s { s with handshakes := s.handshakes - 1 } := ⟨rfl, rfl, rfl, rfl, rfl⟩
    exact (hsame.trans (ready_sameHandlers _ ec)).moves _
  | accepted ec =>
    have hsame : SameHandlers s { s with accepts := s.accepts - 1 } := ⟨rfl, rfl, rfl, rfl, rfl⟩
    exact (hsame.trans (ready_sameHandlers _ ec)).moves _
  | writeDone ec => exact (writeDone_sameHandlers s ec).moves _
  | resent chaos =>
    simp only [next]
    split
    · exact (SameHandlers.refl s).moves _
    · next msg rest hrest =>
      have hsame : SameHandlers s { s with rescheduled := rest } := ⟨rfl, rfl, rfl, rfl, rfl⟩
      exact (hsame.trans (sendMessage_sameHandlers _ chaos msg)).moves _
  | openSession | acceptSession | close | connected | readDone | waited | closeDone | websocketChanges =>
    exact (next_aside trivial).toSameHandlers.moves _

/-- A session that closes does so for good. -/
theorem closing_next (e : Event η) (h : s.closing = true) : (s.next e).closing = true := by
  cases moves_next s e with
  | posts _ _ _ _ closing | adds _ _ _ _ _ _ _ closing => rw [closing, h]
  | closes _ _ _ _ closing => exact closing

/-- An event that adds no handler to the list of a session that is closing already. -/
def InTime (s : Session η) : Event η → Prop
  | .task =>
    match s.strand with
    | .addShutdownHandler _ :: _ => s.closing = false
    | _ => True
  | _ => True

instance (s : Session η) (e : Event η) : Decidable (s.InTime e) := by
  unfold InTime
  split
  · split <;> infer_instance
  · infer_instance

/-- The handlers given are in the list or in tasks of the strand, and those of the list are posted where the session is
closing, once each, and not before. -/
structure Tells (s : Session η) : Prop where
  given : s.given = s.shutdownHandlers ++ s.strand.filterMap Task.handler?
  before : s.closing = false → s.posted = []
  after : s.closing = true → s.posted = s.shutdownHandlers

theorem tells_new (handlers : List η) : Tells (new handlers) :=
  ⟨(List.append_nil _).symm, fun _ => rfl, fun h => Bool.noConfusion h⟩

theorem closing_eq_false_of_adds (h : s.InTime .task) (hstrand : s.strand = .addShutdownHandler handler :: rest) :
    s.closing = false := by
  simp only [InTime, hstrand] at h
  exact h

/-- An event in time keeps this. -/
theorem tells_next (h : Tells s) (he : s.InTime e) : Tells (s.next e) := by
  cases moves_next s e with
  | posts _ given strand shutdownHandlers closing posted =>
    refine ⟨?_, ?_, ?_⟩
    · rw [given, strand, shutdownHandlers, h.given, List.append_assoc]
    · rw [closing, posted]
      exact h.before
    · rw [closing, posted, shutdownHandlers]
      exact h.after
  | adds task _ _ first strand given shutdownHandlers closing posted =>
    subst task
    have hopen := closing_eq_false_of_adds he first
    refine ⟨?_, ?_, ?_⟩
    · rw [given, strand, shutdownHandlers, h.given, first]
      simp [Task.handler?]
    · rw [closing, posted]
      exact h.before
    · intro hclosing
      rw [closing, hopen] at hclosing
      cases hclosing
  | closes was given strand shutdownHandlers closing posted =>
    refine ⟨?_, ?_, ?_⟩
    · rw [given, strand, shutdownHandlers, h.given]
    · intro hopen
      rw [closing] at hopen
      cases hopen
    · intro
      rw [posted, shutdownHandlers, h.before was, List.nil_append]

/-- A handler that is on its way: in a task of the strand, or in the list of a session that is not closing. -/
def Awaits (s : Session η) (handler : η) : Prop :=
  handler ∈ s.strand.filterMap Task.handler? ∨ s.closing = false ∧ handler ∈ s.shutdownHandlers

/-- A handler on its way stays so, or is posted to the io context. -/
theorem awaits_next (he : s.InTime e) (hawaits : s.Awaits handler) :
    (s.next e).Awaits handler ∨ handler ∈ (s.next e).posted.drop s.posted.length := by
  cases moves_next s e with
  | posts _ _ strand shutdownHandlers closing =>
    left
    rw [Awaits, strand, closing, shutdownHandlers]
    exact hawaits.imp_left (List.mem_append_left _)
  | adds task added rest first strand _ shutdownHandlers closing =>
    subst task
    left
    rw [Awaits, strand, closing, shutdownHandlers]
    have hopen := closing_eq_false_of_adds he first
    rcases hawaits with hstrand | ⟨-, hlist⟩
    · rw [first] at hstrand
      rcases List.mem_cons.mp (by simpa [Task.handler?] using hstrand : handler ∈ added :: rest.filterMap Task.handler?)
        with rfl | hrest
      · exact .inr ⟨hopen, by simp⟩
      · exact .inl hrest
    · exact .inr ⟨hopen, List.mem_append_left _ hlist⟩
  | closes _ _ strand _ _ posted =>
    rcases hawaits with hstrand | ⟨-, hlist⟩
    · exact .inl (.inl (by rw [strand]; exact hstrand))
    · right
      rw [posted, List.drop_left]
      exact hlist

end Session

end SwarmDb
