/-
  Abort.lean --- the ways a step of the program can end the process.

  Every function of the library that contains an `assert`, grows a vector or
  writes through a pointer is modelled as `Except Abort`.  The assertions are
  named after the function that contains them; the ones that only check which
  thread they run on (`assertInLoopThread`) are not among them, since in the
  model a step that belongs to the loop is only ever taken by the loop.
-/
import Mathlib.Data.List.Basic

set_option autoImplicit false

namespace CppWeb

/-- The `assert`s of the modelled functions. -/
inductive Assertion where
  /-- `Buffer::Buffer`, `readableBytes() == 0` -/
  | bufferReadable
  /-- `Buffer::Buffer`, `writeableBytes() == initialSize` -/
  | bufferWriteable
  /-- `Buffer::Buffer`, `prependableBytes() == kCheapPrepend` -/
  | bufferPrependable
  /-- `Buffer::retrieve`, `len <= readableBytes()` -/
  | retrieve
  /-- `Buffer::retrieveAsString`, `len <= readableBytes()` -/
  | retrieveAsString
  /-- `Buffer::peekIntN`, `readableBytes() >= sizeof(intN_t)` -/
  | peekInt
  /-- `Buffer::prepend`, `len <= prependableBytes() - kCheapPrepend` -/
  | prepend
  /-- `Buffer::hasWritten`, `len <= writeableBytes()` -/
  | hasWritten
  /-- `Buffer::ensureWriteableBytes`, `writeableBytes() >= len` -/
  | ensureWriteableBytes
  /-- `Buffer::makeSpace`, `kCheapPrepend < m_readerIndex` -/
  | makeSpace
  /-- `Buffer::findCRLF`, `peek() <= start` -/
  | findCRLFPeek
  /-- `Buffer::findCRLF`, `start <= beginWrite` -/
  | findCRLFBeginWrite
  /-- `Buffer::findEOL`, `peek() <= start` -/
  | findEOLPeek
  /-- `Buffer::findEOL`, `start <= beginWrite` -/
  | findEOLBeginWrite
  /-- `Epoller::updateChannel`, `!channel->isNoneEvents()` -/
  | updateChannel
  /-- `EventLoop::quit`, `!m_quit` -/
  | quit
  /-- `TCPConnection::connectEstablished`, `m_state == kConnecting` -/
  | connectEstablished
  /-- `TCPConnection::sendInLoop`, `m_outputBuffer.readableBytes() == 0` -/
  | sendInLoop
  /-- `TCPConnection::shutdown`, `m_state <= kDisconnecting` -/
  | shutdown
  /-- `TCPConnection::handleRead`, `m_state != kDisconnected` -/
  | handleRead
  /-- `TCPConnection::handleWrite`, `m_outputBuffer.readableBytes() > 0` -/
  | handleWriteReadable
  /-- `TCPConnection::handleWrite`, `m_channel.isWriting()` -/
  | handleWriteWriting
  /-- `TCPConnection::handleClose`, `m_state == kConnected || kDisconnecting` -/
  | handleClose
  /-- `TCPConnection::~TCPConnection`, `m_state == kDisconnected` -/
  | destructor
  /-- `Timer::cancel`, `!m_canceled` -/
  | timerCancel
  /-- `Timer::restart`, `m_repeat` -/
  | timerRestart
  /-- `TimerQueue::addTimer`, `ret.second` -/
  | addTimer
  /-- `TimerQueue::handleRead`, `timer->expired(now)` -/
  | timerExpired
  /-- `ThreadPool::ThreadPool`, `maxQueueSize > 0` -/
  | threadPool
  /-- `ThreadPool::stop`, `m_running` -/
  | threadPoolStop
  /-- `ThreadPool::runTask`, `m_running` -/
  | runTask
  /-- `TCPClient::closeConnection`, `m_connection != nullptr` -/
  | closeConnection
  /-- `TCPServer::setThreadNum`, `n > 0` -/
  | setThreadNumPositive
  /-- `TCPServer::setThreadNum`, `!m_started` -/
  | setThreadNumStarted
  /-- `EventLoopThread::startLoop`, `!m_started` -/
  | startLoop
  deriving DecidableEq, Repr

/-- Why the process stops. -/
inductive Abort where
  /-- an assertion fails -/
  | assertion (site : Assertion)
  /-- `std::vector` throws `std::length_error`, and nothing catches it -/
  | lengthError
  /-- a write outside the storage of a vector -/
  | outOfBounds
  /-- a read of an object that was deleted -/
  | useAfterFree
  /-- a second `delete` of the same object -/
  | doubleFree
  /-- `FATAL` or `SYSFATAL`: the process exits -/
  | exit
  deriving DecidableEq, Repr

/-- `assert(p)` at one site. -/
def require (site : Assertion) (p : Prop) [Decidable p] : Except Abort Unit :=
  if p then .ok () else .error (.assertion site)

section Rules

variable {α β : Type}

theorem require_ok {site : Assertion} {p : Prop} [Decidable p] (h : p) :
    require site p = .ok () := by
  simp [require, h]

theorem require_error {site : Assertion} {p : Prop} [Decidable p] (h : ¬ p) :
    require site p = .error (.assertion site) := by
  simp [require, h]

@[simp] theorem require_eq_ok {site : Assertion} {p : Prop} [Decidable p] :
    require site p = .ok () ↔ p := by
  unfold require
  split <;> simp_all

@[simp] theorem ok_bind (a : α) (f : α → Except Abort β) :
    (Except.ok a >>= f) = f a := rfl

@[simp] theorem error_bind (e : Abort) (f : α → Except Abort β) :
    ((Except.error e : Except Abort α) >>= f) = .error e := rfl

/-- A sequence of two steps succeeds when both do. -/
theorem bind_eq_ok {x : Except Abort α} {f : α → Except Abort β} {b : β} :
    (x >>= f) = .ok b ↔ ∃ a, x = .ok a ∧ f a = .ok b := by
  cases x with
  | error e => simp
  | ok a => simp

/-- A sequence of two steps stops where the first of them does. -/
theorem bind_eq_error {x : Except Abort α} {f : α → Except Abort β} {e : Abort} :
    (x >>= f) = .error e ↔ x = .error e ∨ ∃ a, x = .ok a ∧ f a = .error e := by
  cases x with
  | error e' => simp
  | ok a => simp

/-! ## Specifications of fallible steps -/

/-- The step returns a value that meets `post`, or stops for a reason that meets
`stop`. -/
def Ensures (x : Except Abort α) (post : α → Prop) (stop : Abort → Prop) : Prop :=
  match x with
  | .ok a => post a
  | .error e => stop e

/-- The only reason to stop is an allocation that is refused. -/
def Refused (e : Abort) : Prop := e = .lengthError

theorem Ensures.of_ok {x : Except Abort α} {post : α → Prop} {stop : Abort → Prop} {a : α}
    (h : Ensures x post stop) (hx : x = .ok a) : post a := by
  subst hx
  exact h

theorem Ensures.of_error {x : Except Abort α} {post : α → Prop} {stop : Abort → Prop}
    {e : Abort} (h : Ensures x post stop) (hx : x = .error e) : stop e := by
  subst hx
  exact h

theorem Ensures.mono {x : Except Abort α} {post post' : α → Prop} {stop : Abort → Prop}
    (h : Ensures x post stop) (hpost : ∀ a, post a → post' a) : Ensures x post' stop := by
  cases x with
  | error e => exact h
  | ok a => exact hpost a h

/-- The rule for a sequence of two steps. -/
theorem Ensures.bind {x : Except Abort α} {f : α → Except Abort β} {mid : α → Prop}
    {post : β → Prop} {stop : Abort → Prop} (hx : Ensures x mid stop)
    (hf : ∀ a, mid a → Ensures (f a) post stop) : Ensures (x >>= f) post stop := by
  cases x with
  | error e => exact hx
  | ok a => exact hf a hx

/-- The rule for an assertion that holds. -/
theorem Ensures.require {site : Assertion} {p : Prop} [Decidable p] (hp : p)
    {f : Unit → Except Abort β} {post : β → Prop} {stop : Abort → Prop}
    (hf : Ensures (f ()) post stop) : Ensures (CppWeb.require site p >>= f) post stop := by
  rw [require_ok hp]
  exact hf

end Rules

end CppWeb
