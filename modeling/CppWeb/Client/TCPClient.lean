/-
  Client/TCPClient.lean --- a client, its connector and their loop.

  `TCPClient` with its `Connector`, the kernel's side of the one socket, the
  retry timer, every connection `newConnection` has made on the socket, and the
  rounds of the loop all of them live on.  A step is one handler or closure
  with what it calls in the client; the loop goes on only when no callback of
  the user is running.  User code calls `start()` and destroys the client.

  The events of a round are collected before the first handler runs.  The event
  of the timer descriptor becomes, when its turn comes, the batch of the retry
  timers that have expired by then.  Cancelling a timer deletes it, but does not
  take it out of such a batch: `TimerQueue::handleRead`, which reads a timer
  before it runs its callback and again afterwards, then reads a deleted one.

  The model keeps whether the client is alive, and for every `::close` of its
  socket whether a connection that was not disconnected still used it.
-/
import CppWeb.Tcp.Shared

set_option autoImplicit false

namespace CppWeb.Client

open CppWeb.Foundation CppWeb.Poll CppWeb.Tcp

/-! ## The kernel's side -/

/-- What `::connect` answers. -/
inductive ConnectResult where
  | ok
  | inProgress
  | already
  | isConn
  | fail (errno : Nat)
  deriving DecidableEq, Repr

/-- The socket in the kernel. -/
inductive Socket where
  /-- no attempt, or the last one has been reported as failed -/
  | unconnected
  /-- the handshake is under way -/
  | connecting
  /-- the handshake has completed, `::connect` has not said so yet -/
  | established
  /-- `::connect` has returned 0 -/
  | connected
  deriving DecidableEq, Repr

/-- The answers `::connect` can give, and the socket afterwards. -/
def Socket.connect : Socket → ConnectResult → Option Socket
  | .unconnected, .inProgress => some .connecting
  | .unconnected, .ok => some .connected
  | .unconnected, .fail _ => some .unconnected
  | .connecting, .already => some .connecting
  | .connecting, .fail _ => some .unconnected
  | .established, .ok => some .connected
  | .established, .fail _ => some .unconnected
  | .connected, .isConn => some .connected
  | _, _ => none

/-! ## The loop's side -/

/-- A channel of the loop. -/
inductive Source where
  | timerfd
  | connector
  | connection (id : Nat)
  deriving DecidableEq, Repr

/-- What a round still has to do for its events. -/
inductive Event where
  /-- `TimerQueue::handleRead` -/
  | timerfd
  /-- `handleRead` comes to an expired retry timer, and calls it back -/
  | retry (timer : Nat)
  /-- `handleRead` goes on after the callback, and puts the timer back -/
  | restart (timer : Nat)
  /-- `Connector::handleWrite` -/
  | connector
  /-- a callback of a connection's channel -/
  | connection (id : Nat) (cb : Callback)
  deriving DecidableEq, Repr

/-- The connection whose callback the event is. -/
def Event.connectionId : Event → Option Nat
  | .connection id _ => some id
  | _ => none

/-- What `handleRead` does with an expired retry timer. -/
def expiry (timer : Nat) : List Event := [.retry timer, .restart timer]

/-- The callbacks of an active channel; the timer descriptor's has only the one
for reading set, the connector's only the one for writing. -/
def eventsOf : Source × Mask → List Event
  | (.timerfd, revents) =>
      ((handleEventsWithGuard revents).filter (· == .read)).map fun _ => .timerfd
  | (.connector, revents) =>
      ((handleEventsWithGuard revents).filter (· == .write)).map fun _ => .connector
  | (.connection id, revents) => (handleEventsWithGuard revents).map fun cb => .connection id cb

/-- Where the loop is. -/
inductive Phase where
  /-- not in a round: blocked, or before or after `loop()` -/
  | outside
  | dispatch (todo : List Event)
  /-- running the tasks of the batch -/
  | tasks
  deriving DecidableEq, Repr

/-- Why the program stops. -/
inductive Stop where
  | abort (reason : Abort)
  /-- `cancelTimer(nullptr)` -/
  | nullTimer
  /-- `newConnection` overwrites the last reference to a connection, whose
  destructor fails -/
  | overwritten
  /-- a member function of a destroyed client, or of its connector, is called -/
  | destroyedClient
  deriving DecidableEq, Repr

/-- The client, its connections and its loop. -/
structure TCPClient where
  /-- which of the client's callbacks are set -/
  connectionCallback : Bool
  messageCallback : Bool
  writeCompleteCallback : Bool
  /-- the destructor has not run -/
  alive : Bool
  /-- `m_connected` -/
  connected : Bool
  /-- `m_retryTimer`; the timers are named in the order of their creation -/
  retryTimer : Option Nat
  /-- `m_connection` -/
  connection : Option Nat
  /-- `m_connector.m_channel` -/
  channel : Channel
  socket : Socket
  connections : Connections
  /-- the callback of the user that is running was given `m_connection` itself
  and no reference of its own -/
  lent : Bool
  /-- the connection whose `handleEvents` has begun and has callbacks left to
  call; until it returns it keeps a `shared_ptr` -/
  guard : Option Nat
  /-- the retry timers that have not been deleted -/
  timers : List Nat
  timersMade : Nat
  phase : Phase
  /-- the calls of `::close` on the socket: whether it was still in use -/
  closes : List Bool
  deriving DecidableEq, Repr

/-- What can happen next. -/
inductive Action where
  /-- user code calls `start()` -/
  | start (connect : ConnectResult) (soError : Nat)
  /-- the handshake completes -/
  | handshake
  /-- `epoll_wait` returns these channels -/
  | poll (active : List (Source × Mask))
  /-- the next event of the round is handled -/
  | handleEvents (io : Io) (connect : ConnectResult) (soError : Nat) (expired : List Nat)
  /-- the user's callback returns -/
  | callbackReturn
  | swap
  | runTask (io : Io)
  | endRound
  /-- user code does something with a connection -/
  | user (a : SharedAction)
  /-- the last reference to a connection is gone -/
  | destroyConnection (id : Nat)
  /-- user code destroys the client -/
  | destroy

namespace TCPClient

/-- `TCPClient::TCPClient`, with the callbacks set on it. -/
def new (connectionCallback messageCallback writeCompleteCallback : Bool) : TCPClient :=
  { connectionCallback := connectionCallback
    messageCallback := messageCallback
    writeCompleteCallback := writeCompleteCallback
    alive := true
    connected := false
    retryTimer := none
    connection := none
    channel := Channel.new
    socket := .unconnected
    connections := Connections.empty
    lent := false
    guard := none
    timers := []
    timersMade := 0
    phase := .outside
    closes := [] }

/-- The settings of a connection of the client. -/
def settings (s : TCPClient) : Settings :=
  { writeCompleteCallback := s.writeCompleteCallback
    closeCallback := true
    highWaterMarkCallback := false
    highWaterMark := 0 }

/-- A connection that is not disconnected uses the socket. -/
def inUse (s : TCPClient) : Bool := s.connections.all.any fun shared => decide shared.conn.IsOpen

/-- `::close(m_sockfd)` -/
def close (s : TCPClient) : TCPClient := { s with closes := s.closes ++ [s.inUse] }

/-- `EventLoop::cancelTimer` for a retry timer. -/
def cancelTimer (s : TCPClient) (timer : Nat) : TCPClient :=
  { s with timers := s.timers.filter (· != timer) }

/-! ## References -/

/-- Something other than `m_connection` holds the connection: user code, a
callback that was given a reference, a queued closure, or the guard of
`handleEvents`. -/
def HeldElsewhere (s : TCPClient) (id : Nat) : Prop :=
  s.connections.UserHolds id ∨ (s.connections.current = some id ∧ s.lent = false) ∨
    s.connections.Queued id ∨ s.guard = some id

instance (s : TCPClient) (id : Nat) : Decidable (s.HeldElsewhere id) :=
  inferInstanceAs (Decidable (_ ∨ _ ∨ _ ∨ _))

/-- `m_connection` lets go of its connection; if that was the last reference the
destructor runs. -/
def resetConnection (s : TCPClient) : Except Abort Unit :=
  require .destructor (∀ id ∈ s.connection, ¬ s.HeldElsewhere id →
    ∀ shared ∈ s.connections.all[id]?, shared.conn.destructor = .ok ())

theorem resetConnection_of_none {s : TCPClient} (h : s.connection = none) :
    s.resetConnection = .ok () := by
  rw [resetConnection, require_ok]
  intro id hid
  rw [h] at hid
  cases hid

/-- The guard of `handleEvents` after a callback of the connection, with what is
then left to handle: each channel is active once, so `handleEvents` has another
callback to call if the next event is of the same connection. -/
def guardAfter (id : Nat) (rest : List Event) : Option Nat :=
  if rest.head?.bind Event.connectionId = some id then some id else none

/-! ## Establishing -/

/-- `TCPClient::newConnection` -/
def newConnection (s : TCPClient) : Outcome Stop TCPClient :=
  match s.retryTimer with
  | none => .abort .nullTimer
  | some timer =>
      match s.resetConnection with
      | .error _ => .abort .overwritten
      | .ok () =>
          match s.connections.make s.connectionCallback s.messageCallback s.settings with
          | .error reason => .abort (.abort reason)
          | .ok connections => .next { s.cancelTimer timer with
              retryTimer := none
              connected := true
              connection := some s.connections.all.length
              connections := connections
              lent := true }

/-- `Connector::handleWrite`; `soError` is `errno` after `::getsockopt`. -/
def handleWrite (s : TCPClient) (soError : Nat) : Outcome Stop TCPClient :=
  match (if !s.channel.isNoneEvents then s.channel.disableAll else .ok s.channel) with
  | .error reason => .abort (.abort reason)
  | .ok channel =>
      if soError ≠ 0 then .next { s with channel := channel }
      else { s with channel := channel }.newConnection

/-- `Connector::start` -/
def connectorStart (s : TCPClient) (connect : ConnectResult) (soError : Nat) :
    Outcome Stop TCPClient :=
  match s.socket.connect connect with
  | none => .disabled
  | some socket =>
      match connect with
      | .inProgress =>
          match s.channel.enableWrite with
          | .error reason => .abort (.abort reason)
          | .ok channel => .next { s with socket := socket, channel := channel }
      | .ok => { s with socket := socket }.handleWrite soError
      | .already | .isConn | .fail _ => .next { s with socket := socket }

/-- The timer that `TCPClient::start` makes. -/
def armRetryTimer (s : TCPClient) : TCPClient :=
  { s with
    timers := s.timers ++ [s.timersMade]
    timersMade := s.timersMade + 1
    retryTimer := some s.timersMade }

/-- `TCPClient::start` -/
def start (s : TCPClient) (connect : ConnectResult) (soError : Nat) : Outcome Stop TCPClient :=
  s.armRetryTimer.connectorStart connect soError

/-- `TCPClient::retry` -/
def retry (s : TCPClient) (connect : ConnectResult) (soError : Nat) : Outcome Stop TCPClient :=
  if s.connected then .next s else s.connectorStart connect soError

/-! ## Closing -/

/-- `TCPClient::closeConnection`, up to the connection callback; the argument
holds the connection that is closed. -/
def closeConnection (s : TCPClient) (id : Nat) : Outcome Stop TCPClient :=
  match s.connection with
  | none => .abort (.abort (.assertion .closeConnection))
  | some current =>
      match (if current = id then .ok () else s.resetConnection) with
      | .error reason => .abort (.abort reason)
      | .ok () => .next { s with connection := none }

/-- The loop runs a handler or closure of a connection, whose close callback is
a member function of the client. -/
def runJob (s : TCPClient) (id : Nat) (io : Io) (job : Connection.Job) :
    Outcome Stop TCPClient :=
  match s.connections.all[id]? with
  | none => .disabled
  | some shared =>
      -- `m_activeChannels` keeps a `Channel*` and no reference
      if shared.destroyed then .abort (.abort .useAfterFree)
      else
        match shared.conn.execute io job with
        | .error reason => .abort (.abort reason)
        | .ok r =>
            let ran := { s with
              connections := s.connections.after s.connectionCallback id shared io job r
              lent := false }
            if Connections.closeCallbackRan shared r.1 then
              if s.alive then ran.closeConnection id else .abort .destroyedClient
            else .next ran

/-- The connection is told to close, and a closure is queued for that. -/
def forceClose (s : TCPClient) (id : Nat) : TCPClient :=
  match s.connections.all[id]? with
  | none => s
  | some shared => { s with connections := { s.connections with
      all := s.connections.all.set id { shared with conn := shared.conn.forceClose.1 }
      queue := s.connections.queue.pushAll (shared.conn.forceClose.2.map fun task => (id, task)) } }

/-- `TCPClient::~TCPClient`: its body, then the destructor of `m_connector` and
that of the `shared_ptr` in `m_connection`. -/
def destructor (s : TCPClient) : TCPClient :=
  -- `forceClose` does nothing to a connection that is disconnected
  let closing := s.connection.elim s s.forceClose
  let cancelled := s.retryTimer.elim closing closing.cancelTimer
  { cancelled.close with alive := false, connection := none }

/-! ## Steps -/

/-- The kernel has the channel in its table; a closed descriptor is not there
any more. -/
def Registered (s : TCPClient) : Source → Prop
  | .timerfd => True
  | .connector => s.closes = [] ∧ s.channel.interest ≠ none
  | .connection id => s.closes = [] ∧
      ∃ shared ∈ s.connections.all[id]?, shared.conn.channel.interest ≠ none

instance (s : TCPClient) : ∀ source : Source, Decidable (s.Registered source)
  | .timerfd => isTrue trivial
  | .connector => inferInstanceAs (Decidable (_ ∧ _))
  | .connection _ => inferInstanceAs (Decidable (_ ∧ ∃ shared ∈ _, _))

/-- What `::epoll_wait` can return: registered channels, each once. -/
def CanPoll (s : TCPClient) (active : List (Source × Mask)) : Prop :=
  (active.map Prod.fst).Nodup ∧ ∀ entry ∈ active, s.Registered entry.1

instance (s : TCPClient) (active : List (Source × Mask)) : Decidable (s.CanPoll active) :=
  inferInstanceAs (Decidable (_ ∧ ∀ entry ∈ _, _))

/-- The next event of the round. -/
def handleEvent (s : TCPClient) (event : Event) (rest : List Event) (io : Io)
    (connect : ConnectResult) (soError : Nat) (expired : List Nat) : Outcome Stop TCPClient :=
  match event with
  | .timerfd =>
      if expired.Nodup ∧ ∀ timer ∈ expired, timer ∈ s.timers then
        .next { s with phase := .dispatch (expired.flatMap expiry ++ rest) }
      else .disabled
  | .retry timer =>
      if timer ∈ s.timers then
        if s.alive then { s with phase := .dispatch rest }.retry connect soError
        else .abort .destroyedClient
      else .abort (.abort .useAfterFree)
  | .restart timer =>
      if timer ∈ s.timers then .next { s with phase := .dispatch rest }
      else .abort (.abort .useAfterFree)
  | .connector =>
      if s.alive then { s with phase := .dispatch rest }.handleWrite soError
      else .abort .destroyedClient
  | .connection id cb =>
      { s with phase := .dispatch rest, guard := guardAfter id rest }.runJob id io (.callback cb)

/-- Steps of the connections are steps of the client. -/
def withConnections (s : TCPClient) : Outcome Abort Connections → Outcome Stop TCPClient
  | .disabled => .disabled
  | .abort reason => .abort (.abort reason)
  | .next connections => .next { s with connections := connections }

/-- One step of the loop thread. -/
def step (s : TCPClient) : Action → Outcome Stop TCPClient
  | .start connect soError => if s.alive then s.start connect soError else .disabled
  | .handshake =>
      if s.socket = .connecting then .next { s with socket := .established } else .disabled
  | .poll active =>
      if s.phase = .outside ∧ s.connections.current = none ∧ s.CanPoll active then
        .next { s with phase := .dispatch (active.flatMap eventsOf) }
      else .disabled
  | .handleEvents io connect soError expired =>
      match s.phase, s.connections.current with
      | .dispatch (event :: rest), none => s.handleEvent event rest io connect soError expired
      | _, _ => .disabled
  | .callbackReturn =>
      if s.connections.current = none then .disabled
      else .next { s with connections := { s.connections with current := none } }
  | .swap =>
      if s.phase = .dispatch [] ∧ s.connections.current = none then
        .next { s with
          connections := { s.connections with queue := s.connections.queue.swap }
          phase := .tasks }
      else .disabled
  | .runTask io =>
      match s.phase, s.connections.current, s.connections.queue.batch with
      | .tasks, none, (id, task) :: _ =>
          { s with connections := { s.connections with
            queue := s.connections.queue.advance } }.runJob id io (.task task)
      | _, _, _ => .disabled
  | .endRound =>
      if s.phase = .tasks ∧ s.connections.current = none ∧ s.connections.queue.batch = [] then
        .next { s with phase := .outside }
      else .disabled
  | .user a => s.withConnections (s.connections.userStep a)
  | .destroyConnection id =>
      if s.connection = some id ∨ s.HeldElsewhere id then .disabled
      else
        match s.connections.all[id]? with
        | none => .disabled
        | some shared =>
            if shared.destroyed then .disabled
            else s.close.withConnections (Outcome.ofExcept (s.connections.destroy id shared))
  | .destroy => if s.alive then .next s.destructor else .disabled

theorem withConnections_next {s t : TCPClient} {o : Outcome Abort Connections} :
    s.withConnections o = .next t ↔ ∃ cs, o = .next cs ∧ t = { s with connections := cs } := by
  cases o with
  | disabled => simp [withConnections]
  | abort reason => simp [withConnections]
  | next cs => simp [withConnections, eq_comm]

theorem withConnections_abort {s : TCPClient} {o : Outcome Abort Connections} {stop : Stop}
    (h : s.withConnections o = .abort stop) : ∃ reason, stop = .abort reason := by
  cases o with
  | disabled => cases h
  | abort reason =>
    cases h
    exact ⟨reason, rfl⟩
  | next cs => cases h

end TCPClient

end CppWeb.Client
