/-
  Server/TCPServerSingle.lean --- a server on one loop.

  `TCPServerSingle` with its `Acceptor`, every connection it has accepted, and
  the rounds of the loop all of them live on: the active channels with their
  callbacks, then the queued closures.  A step is one handler or closure with
  what it calls in the server; the user's callback at its end is left by a
  step of its own.  The loop goes on only when no callback of the user is
  running.
-/
import CppWeb.Tcp.Shared
import Mathlib.Data.Finset.Insert

set_option autoImplicit false

namespace CppWeb.Server

open CppWeb.Foundation CppWeb.Poll CppWeb.Tcp

def eConnAborted : Nat := 103
def eMFile : Nat := 24

/-- What `::accept4` answers. -/
inductive AcceptResult where
  | accepted
  | fail (errno : Nat)
  deriving DecidableEq, Repr

/-- A channel of the loop. -/
inductive Source where
  | acceptor
  | connection (id : Nat)
  deriving DecidableEq, Repr

/-- Where the loop is. -/
inductive Phase where
  /-- not in a round: blocked, or before or after `loop()` -/
  | outside
  /-- the callbacks of the active channels that are still to be called -/
  | dispatch (todo : List (Source × Callback))
  /-- running the tasks of the batch -/
  | tasks
  deriving DecidableEq, Repr

/-- The server, the connections it has accepted and its loop. -/
structure TCPServerSingle where
  /-- which of the server's callbacks are set -/
  connectionCallback : Bool
  messageCallback : Bool
  writeCompleteCallback : Bool
  acceptChannel : Channel
  connectionSet : Finset Nat
  accepted : Connections
  phase : Phase
  /-- the connection whose `handleEvents` has begun and has callbacks left to
  call; until it returns it keeps a `shared_ptr` -/
  guard : Option Nat
  deriving DecidableEq

/-- What can happen next. -/
inductive Action where
  /-- `start()`; `::listen` succeeds or fails -/
  | start (listens : Bool)
  /-- `epoll_wait` returns these channels -/
  | poll (active : List (Source × Mask))
  /-- the next callback of the active channels is called -/
  | handleEvents (io : Io) (accept : AcceptResult)
  /-- the user's callback returns -/
  | callbackReturn
  | swap
  | runTask (io : Io)
  | endRound
  /-- user code does something with a connection -/
  | user (a : SharedAction)
  /-- the last reference to a connection is gone -/
  | destroyConnection (id : Nat)

namespace TCPServerSingle

/-- `TCPServerSingle::TCPServerSingle`, with the callbacks set on it. -/
def new (connectionCallback messageCallback writeCompleteCallback : Bool) : TCPServerSingle :=
  { connectionCallback := connectionCallback
    messageCallback := messageCallback
    writeCompleteCallback := writeCompleteCallback
    acceptChannel := Channel.new
    connectionSet := ∅
    accepted := Connections.empty
    phase := .outside
    guard := none }

/-! ## The acceptor -/

/-- `TCPServerSingle::start` and `Acceptor::listen`. -/
def start (s : TCPServerSingle) (listens : Bool) : Except Abort TCPServerSingle :=
  if listens then do
    let acceptChannel ← s.acceptChannel.enableRead
    .ok { s with acceptChannel := acceptChannel }
  else .error .exit

/-- The settings of a connection of the server. -/
def settings (s : TCPServerSingle) : Settings :=
  { writeCompleteCallback := s.writeCompleteCallback
    closeCallback := true
    highWaterMarkCallback := false
    highWaterMark := 0 }

/-- `TCPServerSingle::newConnetction` -/
def newConnetction (s : TCPServerSingle) : Except Abort TCPServerSingle := do
  let accepted ← s.accepted.make s.connectionCallback s.messageCallback s.settings
  .ok { s with
    connectionSet := insert s.accepted.all.length s.connectionSet
    accepted := accepted }

/-- `Acceptor::handleRead` -/
def acceptHandleRead (s : TCPServerSingle) : AcceptResult → Except Abort TCPServerSingle
  | .accepted => s.newConnetction
  | .fail errno =>
      if errno = eConnAborted ∨ errno = eMFile then .ok s
      else .error .exit

/-! ## Handlers and closures of connections -/

/-- The server after a handler or closure of a connection that ended with `r`.
If it has run the close callback, that is `closeConnection`, the connection is
no longer in `m_connectionSet`. -/
def after (s : TCPServerSingle) (id : Nat) (shared : Shared) (io : Io) (job : Connection.Job)
    (r : Connection × List Task) : TCPServerSingle :=
  { s with
    connectionSet :=
      if Connections.closeCallbackRan shared r.1 then s.connectionSet.erase id
      else s.connectionSet
    accepted := s.accepted.after s.connectionCallback id shared io job r }

/-- The loop runs a handler or closure of a connection. -/
def runJob (s : TCPServerSingle) (id : Nat) (io : Io) (job : Connection.Job) :
    Outcome Abort TCPServerSingle :=
  match s.accepted.all[id]? with
  | none => .disabled
  | some shared =>
      -- `m_activeChannels` keeps a `Channel*` and no reference
      if shared.destroyed then .abort .useAfterFree
      else Outcome.ofExcept do
        let r ← shared.conn.execute io job
        .ok (s.after id shared io job r)

/-! ## References -/

/-- The guard of `handleEvents` after a callback of the connection, with what is
then left to call: each channel is active once, so `handleEvents` has another
callback to call if the next one is of the same connection. -/
def guardAfter (id : Nat) (rest : List (Source × Callback)) : Option Nat :=
  if rest.head?.map Prod.fst = some (.connection id) then some id else none

/-- Something other than `m_connectionSet` holds the connection: user code, a
callback that is running, a queued closure, or the guard of `handleEvents`. -/
def HeldElsewhere (s : TCPServerSingle) (id : Nat) : Prop :=
  s.accepted.MayUse id ∨ s.accepted.Queued id ∨ s.guard = some id

instance (s : TCPServerSingle) (id : Nat) : Decidable (s.HeldElsewhere id) :=
  inferInstanceAs (Decidable (_ ∨ _ ∨ _))

/-! ## Steps -/

/-- The kernel has the channel in its table; the destructor of a connection
closes the descriptor. -/
def Registered (s : TCPServerSingle) : Source → Prop
  | .acceptor => s.acceptChannel.interest ≠ none
  | .connection id => ∃ shared ∈ s.accepted.all[id]?,
      shared.destroyed = false ∧ shared.conn.channel.interest ≠ none

instance (s : TCPServerSingle) : ∀ source : Source, Decidable (s.Registered source)
  | .acceptor => inferInstanceAs (Decidable (_ ≠ _))
  | .connection _ => inferInstanceAs (Decidable (∃ shared ∈ _, _))

/-- What `::epoll_wait` can return: registered channels, each once. -/
def CanPoll (s : TCPServerSingle) (active : List (Source × Mask)) : Prop :=
  (active.map Prod.fst).Nodup ∧ ∀ entry ∈ active, s.Registered entry.1

instance (s : TCPServerSingle) (active : List (Source × Mask)) : Decidable (s.CanPoll active) :=
  inferInstanceAs (Decidable (_ ∧ ∀ entry ∈ _, _))

/-- The callbacks of an active channel; the acceptor's has only one set. -/
def callbacksOf : Source × Mask → List (Source × Callback)
  | (.acceptor, revents) =>
      ((handleEventsWithGuard revents).filter (· == .read)).map fun cb => (.acceptor, cb)
  | (.connection id, revents) =>
      (handleEventsWithGuard revents).map fun cb => (.connection id, cb)

/-- Steps of the connections are steps of the server. -/
def withAccepted (s : TCPServerSingle) : Outcome Abort Connections → Outcome Abort TCPServerSingle
  | .disabled => .disabled
  | .abort reason => .abort reason
  | .next accepted => .next { s with accepted := accepted }

/-- One step of the loop thread. -/
def step (s : TCPServerSingle) : Action → Outcome Abort TCPServerSingle
  | .start listens => Outcome.ofExcept (s.start listens)
  | .poll active =>
      if s.phase = .outside ∧ s.accepted.current = none ∧ s.CanPoll active then
        .next { s with phase := .dispatch (active.flatMap callbacksOf) }
      else .disabled
  | .handleEvents io accept =>
      match s.phase, s.accepted.current with
      | .dispatch ((.acceptor, _) :: rest), none =>
          Outcome.ofExcept ({ s with phase := .dispatch rest }.acceptHandleRead accept)
      | .dispatch ((.connection id, cb) :: rest), none =>
          { s with phase := .dispatch rest, guard := guardAfter id rest }.runJob id io
            (.callback cb)
      | _, _ => .disabled
  | .callbackReturn =>
      if s.accepted.current = none then .disabled
      else .next { s with accepted := { s.accepted with current := none } }
  | .swap =>
      if s.phase = .dispatch [] ∧ s.accepted.current = none then
        .next { s with
          accepted := { s.accepted with queue := s.accepted.queue.swap }
          phase := .tasks }
      else .disabled
  | .runTask io =>
      match s.phase, s.accepted.current, s.accepted.queue.batch with
      | .tasks, none, (id, task) :: _ =>
          { s with accepted := { s.accepted with queue := s.accepted.queue.advance } }.runJob id
            io (.task task)
      | _, _, _ => .disabled
  | .endRound =>
      if s.phase = .tasks ∧ s.accepted.current = none ∧ s.accepted.queue.batch = [] then
        .next { s with phase := .outside }
      else .disabled
  | .user a => s.withAccepted (s.accepted.userStep a)
  | .destroyConnection id =>
      if id ∉ s.connectionSet ∧ ¬ s.HeldElsewhere id then
        match s.accepted.all[id]? with
        | none => .disabled
        | some shared =>
            if shared.destroyed then .disabled
            else s.withAccepted (Outcome.ofExcept (s.accepted.destroy id shared))
      else .disabled

/-- `TCPServerSingle::~TCPServerSingle`: `m_acceptor` goes first, then
`m_connectionSet` with its references; a connection of which that was the last
one is destroyed. -/
def destructor (s : TCPServerSingle) : Except Abort Unit := do
  let _acceptChannel ← s.acceptChannel.disableAll
  require .destructor (∀ id ∈ s.connectionSet, ¬ s.HeldElsewhere id →
    ∀ shared ∈ s.accepted.all[id]?, shared.conn.destructor = .ok ())

/-- The end of `runInThread`, and of a `main` with a server: the server is
destroyed, and then its loop with `m_pendingTasks`; a connection of which a
closure had the last reference is destroyed. -/
def teardown (s : TCPServerSingle) : Except Abort Unit := do
  s.destructor
  require .destructor (∀ entry ∈ s.accepted.queue.toList, ¬ s.accepted.UserHolds entry.1 →
    ∀ shared ∈ s.accepted.all[entry.1]?, shared.conn.destructor = .ok ())

theorem withAccepted_next {s t : TCPServerSingle} {o : Outcome Abort Connections} :
    s.withAccepted o = .next t ↔ ∃ cs, o = .next cs ∧ t = { s with accepted := cs } := by
  cases o with
  | disabled => simp [withAccepted]
  | abort reason => simp [withAccepted]
  | next cs => simp [withAccepted, eq_comm]

end TCPServerSingle

end CppWeb.Server
