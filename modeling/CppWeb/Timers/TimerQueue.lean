/-
  Timers/TimerQueue.lean --- the timers of an event loop.

  `m_timers` holds pairs of a deadline and a `Timer*` in the order of deadlines,
  and of addresses where deadlines are equal.  `addTimer` and `cancelTimer` may
  be called by any thread, and end in closures that the loop thread runs: at
  once when it made the call itself, from the queue of pending tasks otherwise.
  `handleRead` takes all expired entries out of `m_timers` and goes through
  that batch; the callbacks that it runs may make any calls.

  A step is what one thread does between two points where others, or a
  callback, may do something: a call, one closure of the queue, and in
  `handleRead` the beginning, each entry up to its callback, each entry from its
  callback on, and the end.  The clocks are read where the source reads them;
  between two steps they may advance, and `system_clock` may be set to any
  value.
-/
import CppWeb.Foundation.Heap
import CppWeb.Foundation.OrderedSet
import CppWeb.Loop.EventLoop
import CppWeb.Timers.Timer

set_option autoImplicit false

namespace CppWeb.Timers

open CppWeb.Foundation CppWeb.Loop

/-! ## State -/

/-- `TimerQueue::Entry`: the order of pairs is lexicographic. -/
abbrev Entry := TimePoint ×ₗ Ptr

/-- The pair `{when, timer}`. -/
def entry (when : TimePoint) (timer : Ptr) : Entry := toLex (when, timer)

/-- Its first member. -/
def Entry.when (e : Entry) : TimePoint := (ofLex e).1

/-- Its second member. -/
def Entry.timer (e : Entry) : Ptr := (ofLex e).2

theorem entry_eta (e : Entry) : entry e.when e.timer = e := rfl

theorem Entry.ext {e f : Entry} (hwhen : e.when = f.when) (htimer : e.timer = f.timer) : e = f := by
  rw [← entry_eta e, ← entry_eta f, hwhen, htimer]

/-- The closures that `addTimer` and `cancelTimer` hand to the loop. -/
inductive Task where
  | insert (when : TimePoint) (timer : Ptr)
  | cancel (timer : Ptr)
  deriving DecidableEq, Repr

/-- Where the loop thread is. -/
inductive Phase where
  /-- not in `handleRead`; handlers of other channels may be running -/
  | handlers
  /-- in `handleRead`, before the next entry of the batch -/
  | expired (now : TimePoint) (entries : List Entry)
  /-- in `handleRead`, in the callback of an entry, the rest still to come -/
  | callback (now : TimePoint) (e : Entry) (entries : List Entry)
  /-- running the batch of pending tasks; other tasks may be running -/
  | tasks
  /-- the queue has been destroyed -/
  | destroyed
  deriving DecidableEq

/-- User code may be running on the loop thread: a handler of another channel, a
callback, or a task. -/
def Phase.isUserCode : Phase → Bool
  | .handlers => true
  | .expired .. => false
  | .callback .. => true
  | .tasks => true
  | .destroyed => false

/-- A `TimerQueue`, the objects it allocated, its part of the loop's pending
tasks, and four histories: the timers that `addTimer` returned, as they were
constructed; the arguments of `cancelTimer`; the closures of both that the loop
has run; and the runs of callbacks, with the sample of the clock that
`handleRead` took. -/
structure TimerQueue where
  timers : OrderedSet Entry
  heap : Heap Timer
  timerFd : TimerFd
  queue : BatchQueue Task
  phase : Phase
  wall : TimePoint
  monotonic : Int
  added : List (Ptr × Timer)
  cancels : List Ptr
  executed : List Task
  runs : List (Ptr × TimePoint)

/-- The calls that add a timer. -/
inductive Request where
  /-- `TimerQueue::addTimer` -/
  | addTimer (when : TimePoint) (interval : Nanoseconds)
  /-- `EventLoop::runAt` -/
  | runAt (when : TimePoint)
  /-- `EventLoop::runEvery` -/
  | runEvery (interval : Nanoseconds)
  /-- `EventLoop::runAfter` -/
  | runAfter (interval : Nanoseconds)
  deriving DecidableEq, Repr

/-- What they pass to `addTimer`: the deadline. -/
def Request.when (now : TimePoint) : Request → TimePoint
  | .addTimer when _ => when
  | .runAt when => when
  | .runEvery interval => nowAfter now interval
  | .runAfter interval => nowAfter now interval

/-- What they pass to `addTimer`: the interval. -/
def Request.interval : Request → Nanoseconds
  | .addTimer _ interval => interval
  | .runAt _ => 0
  | .runEvery interval => interval
  | .runAfter _ => 0

inductive Action where
  /-- time passes: `system_clock` changes by any amount -/
  | elapse (wall : Int) (monotonic : Nat)
  /-- the setting of the timerfd expires -/
  | expire
  /-- a thread adds a timer, and the allocator returns an address -/
  | add (t : Thread) (request : Request) (addr : Nat)
  /-- a thread calls `cancelTimer` -/
  | cancel (t : Thread) (timer : Ptr)
  /-- `handleRead` up to its loop -/
  | handleRead
  /-- an entry of the batch up to its callback -/
  | runTimer
  /-- an entry of the batch from the return of its callback on -/
  | callbackReturn
  /-- the end of `handleRead` -/
  | rearm
  /-- the loop thread takes the pending tasks -/
  | swap
  /-- it runs the first task of its batch -/
  | runTask
  /-- the batch is done -/
  | endRound
  /-- the destructor -/
  | destroy
  deriving DecidableEq, Repr

namespace TimerQueue

/-- A new queue at some time. -/
def new (wall : TimePoint) (monotonic : Int) : TimerQueue :=
  { timers := OrderedSet.empty
    heap := Heap.empty
    timerFd := TimerFd.create
    queue := BatchQueue.empty
    phase := .handlers
    wall := wall
    monotonic := monotonic
    added := []
    cancels := []
    executed := []
    runs := [] }

/-! ## The functions of the queue -/

/-- `timerfdSet`. -/
def timerfdSet (s : TimerQueue) (when : TimePoint) : TimerQueue :=
  { s with timerFd := s.timerFd.settime s.monotonic (durationFromNow when s.wall) }

/-- Access to a member of a timer. -/
def deref (s : TimerQueue) (timer : Ptr) : Except Abort Timer :=
  match s.heap.read timer with
  | some value => .ok value
  | none => .error .useAfterFree

/-- An assignment to a timer that has been accessed. -/
def store (s : TimerQueue) (timer : Ptr) (value : Timer) : TimerQueue :=
  { s with heap := s.heap.write timer value }

/-- `delete timer`. -/
def deleteTimer (s : TimerQueue) (timer : Ptr) : Except Abort TimerQueue :=
  match s.heap.read timer with
  | some _ => .ok { s with heap := s.heap.delete timer }
  | none => .error .doubleFree

/-- The insertion into `m_timers`: a new minimum sets the timerfd. -/
def place (s : TimerQueue) (when : TimePoint) (timer : Ptr) : TimerQueue :=
  let s := { s with timers := s.timers.insert (entry when timer) }
  if s.timers.first? = some (entry when timer) then s.timerfdSet when else s

/-- The closure of `addTimer`. -/
def insertTimer (s : TimerQueue) (when : TimePoint) (timer : Ptr) : Except Abort TimerQueue := do
  require .addTimer (entry when timer ∉ s.timers)
  .ok (s.place when timer)

/-- The closure of `cancelTimer`. -/
def cancelInLoop (s : TimerQueue) (timer : Ptr) : Except Abort TimerQueue := do
  let value ← s.deref timer
  let value ← value.cancel
  let s := s.store timer value
  let s := { s with timers := s.timers.erase (entry value.when timer) }
  s.deleteTimer timer

/-- The history of closures that the loop has run. -/
def log (s : TimerQueue) (task : Task) : TimerQueue :=
  { s with executed := s.executed ++ [task] }

/-- What the loop thread runs for the queue. -/
def execute (s : TimerQueue) : Task → Except Abort TimerQueue
  | .insert when timer => (s.log (.insert when timer)).insertTimer when timer
  | .cancel timer => (s.log (.cancel timer)).cancelInLoop timer

/-- `EventLoop::runInLoop`. -/
def runInLoop (s : TimerQueue) (t : Thread) (task : Task) : Except Abort TimerQueue :=
  if t = .loop then s.execute task else .ok { s with queue := s.queue.push task }

/-- `new Timer` at an address. -/
def allocate (s : TimerQueue) (addr : Nat) (timer : Timer) : TimerQueue :=
  { s with
    heap := s.heap.alloc addr timer
    added := s.added ++ [(s.heap.next addr, timer)] }

/-- `addTimer`, with the address that `new` returns. -/
def addTimer (s : TimerQueue) (t : Thread) (addr : Nat) (when : TimePoint)
    (interval : Nanoseconds) : Except Abort TimerQueue :=
  (s.allocate addr (Timer.new when interval)).runInLoop t (.insert when (s.heap.next addr))

/-- `cancelTimer`. -/
def cancelTimer (s : TimerQueue) (t : Thread) (timer : Ptr) : Except Abort TimerQueue :=
  let s := { s with cancels := s.cancels ++ [timer] }
  s.runInLoop t (.cancel timer)

/-- The bound of the expired entries: `{now + 1ns, nullptr}`. -/
def expiredBound (now : TimePoint) : Entry := entry (now + 1) Ptr.null

/-- `getExpired`: the entries it returns, and the queue it leaves. -/
def getExpired (s : TimerQueue) (now : TimePoint) : List Entry × TimerQueue :=
  (s.timers.below (expiredBound now),
    { s with timers := s.timers.dropBelow (expiredBound now) })

/-- `handleRead`, up to its loop. -/
def handleRead (s : TimerQueue) : TimerQueue :=
  let s := { s with timerFd := s.timerFd.read }
  let now := s.wall
  let expired := s.getExpired now
  { expired.2 with phase := .expired now expired.1 }

/-- The loop of `handleRead` on one entry, from the second `if` on. -/
def afterRun (s : TimerQueue) (now : TimePoint) (e : Entry) (rest : List Entry) :
    Except Abort TimerQueue := do
  let value ← s.deref e.timer
  let s := { s with phase := .expired now rest }
  if value.isCanceled = false ∧ value.isRepeat = true then do
    let value ← value.restart
    let s := s.store e.timer value
    .ok { s with timers := s.timers.insert (entry value.when e.timer) }
  else
    s.deleteTimer e.timer

/-- The loop of `handleRead` on one entry, up to the callback if it is run. -/
def runTimer (s : TimerQueue) (now : TimePoint) (e : Entry) (rest : List Entry) :
    Except Abort TimerQueue := do
  let value ← s.deref e.timer
  require .timerExpired (value.expired now = true)
  if value.isCanceled = false then
    .ok { s with
      phase := .callback now e rest
      runs := s.runs ++ [(e.timer, now)] }
  else
    s.afterRun now e rest

/-- The end of `handleRead`. -/
def rearm (s : TimerQueue) : TimerQueue :=
  let s := { s with phase := .handlers }
  match s.timers.first? with
  | some e => s.timerfdSet e.when
  | none => s

/-- The destructor: it deletes the timers in `m_timers`. -/
def destroy (s : TimerQueue) : Except Abort TimerQueue := do
  let s ← s.timers.toList.foldlM (fun s e => s.deleteTimer e.timer) s
  .ok { s with
    timers := OrderedSet.empty
    phase := .destroyed }

/-! ## What they do when they go through -/

variable {s : TimerQueue} {value : Timer}

theorem insertTimer_of_not_mem {when : TimePoint} {timer : Ptr}
    (h : entry when timer ∉ s.timers) : s.insertTimer when timer = .ok (s.place when timer) := by
  rw [insertTimer, require_ok h, ok_bind]

theorem deleteTimer_of_read {timer : Ptr} (hread : s.heap.read timer = some value) :
    s.deleteTimer timer = .ok { s with heap := s.heap.delete timer } := by
  rw [deleteTimer, hread]

/-- An entry of `m_timers` is erased, and its timer cancelled and deleted. -/
def discard (s : TimerQueue) (e : Entry) (value : Timer) : TimerQueue :=
  { s with
    heap := (s.heap.write e.timer { value with isCanceled := true }).delete e.timer
    timers := s.timers.erase e }

theorem cancelInLoop_of_read {e : Entry} (hread : s.heap.read e.timer = some value)
    (hwhen : value.when = e.when) (hcanceled : value.isCanceled = false) :
    s.cancelInLoop e.timer = .ok (s.discard e value) := by
  have hstored := Heap.read_write_self hread { value with isCanceled := true }
  have hentry : entry value.when e.timer = e := Entry.ext hwhen rfl
  rw [cancelInLoop, deref, hread, ok_bind, Timer.cancel_of_not_canceled hcanceled, ok_bind]
  simp only [hentry]
  exact deleteTimer_of_read hstored

theorem runTimer_of_read {now : TimePoint} {e : Entry} {rest : List Entry}
    (hread : s.heap.read e.timer = some value) (hdue : value.when ≤ now)
    (hcanceled : value.isCanceled = false) :
    s.runTimer now e rest = .ok { s with
      phase := .callback now e rest
      runs := s.runs ++ [(e.timer, now)] } := by
  have hexpired : value.expired now = true := decide_eq_true hdue
  rw [runTimer, deref, hread, ok_bind, require_ok hexpired, ok_bind, if_pos hcanceled]

theorem afterRun_of_repeat {now : TimePoint} {e : Entry} {rest : List Entry}
    (hread : s.heap.read e.timer = some value) (hcanceled : value.isCanceled = false)
    (hrepeat : value.isRepeat = true) :
    s.afterRun now e rest = .ok { s with
      phase := .expired now rest
      heap := s.heap.write e.timer { value with when := value.when + value.interval }
      timers := s.timers.insert (entry (value.when + value.interval) e.timer) } := by
  rw [afterRun, deref, hread, ok_bind, if_pos ⟨hcanceled, hrepeat⟩,
    Timer.restart_of_repeat hrepeat, ok_bind]
  rfl

theorem afterRun_of_once {now : TimePoint} {e : Entry} {rest : List Entry}
    (hread : s.heap.read e.timer = some value) (honce : value.isRepeat = false) :
    s.afterRun now e rest = .ok { s with
      phase := .expired now rest
      heap := s.heap.delete e.timer } := by
  have hnot : ¬ (value.isCanceled = false ∧ value.isRepeat = true) := by
    rw [honce]
    simp
  rw [afterRun, deref, hread, ok_bind, if_neg hnot]
  exact deleteTimer_of_read (s := { s with phase := .expired now rest }) hread

/-- The entries that `getExpired` returns are due. -/
theorem when_le_of_lt_expiredBound {now : TimePoint} {e : Entry} (h : e < expiredBound now) :
    e.when ≤ now := by
  have hlex : toLex (e.when, e.timer) < toLex (now + 1, Ptr.null) := h
  rcases Prod.Lex.toLex_lt_toLex.mp hlex with hlt | ⟨_, hlt⟩
  · exact Int.lt_add_one_iff.mp hlt
  · exact absurd hlt (Ptr.not_lt_null e.timer)

/-! ## Steps -/

/-- The thread may make a call. -/
def MayCall (s : TimerQueue) : Thread → Prop
  | .loop => s.phase.isUserCode = true
  | .worker _ => s.phase ≠ .destroyed

instance (s : TimerQueue) : ∀ t, Decidable (s.MayCall t)
  | .loop => inferInstanceAs (Decidable (_ = _))
  | .worker _ => inferInstanceAs (Decidable (_ ≠ _))

def step (s : TimerQueue) : Action → Outcome Abort TimerQueue
  | .elapse wall monotonic =>
    .next { s with wall := s.wall + wall, monotonic := s.monotonic + monotonic }
  | .expire =>
    match s.timerFd.setting with
    | some setting =>
      if setting.expiry ≤ s.monotonic then .next { s with timerFd := s.timerFd.expire }
      else .disabled
    | none => .disabled
  | .add t request addr =>
    if s.MayCall t ∧ s.heap.Usable addr then
      .ofExcept (s.addTimer t addr (request.when s.wall) request.interval)
    else .disabled
  | .cancel t timer => if s.MayCall t then .ofExcept (s.cancelTimer t timer) else .disabled
  | .handleRead => if s.phase = .handlers then .next s.handleRead else .disabled
  | .runTimer =>
    match s.phase with
    | .expired now (e :: rest) => .ofExcept (s.runTimer now e rest)
    | _ => .disabled
  | .callbackReturn =>
    match s.phase with
    | .callback now e rest => .ofExcept (s.afterRun now e rest)
    | _ => .disabled
  | .rearm =>
    match s.phase with
    | .expired _ [] => .next s.rearm
    | _ => .disabled
  | .swap =>
    if s.phase = .handlers then .next { s with queue := s.queue.swap, phase := .tasks }
    else .disabled
  | .runTask =>
    match s.phase, s.queue.batch with
    | .tasks, task :: _ => .ofExcept ({ s with queue := s.queue.advance }.execute task)
    | _, _ => .disabled
  | .endRound =>
    if s.phase = .tasks ∧ s.queue.batch = [] then .next { s with phase := .handlers }
    else .disabled
  | .destroy => if s.phase = .handlers then .ofExcept s.destroy else .disabled

end TimerQueue

end CppWeb.Timers
