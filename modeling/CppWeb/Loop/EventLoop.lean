/-
  Loop/EventLoop.lean --- the event loop and the threads that hand it work.

  One thread runs `EventLoop::loop`; any number of others, and the handlers and
  tasks that the loop itself runs, call `queueInLoop`, `runInLoop` and `quit`.
  A step is what one thread does between two accesses to what they share: the
  mutex-protected vector `m_pendingTasks`, the flag `m_quit` and the eventfd.
  So `queueInLoop` is two steps (the push under the mutex, the write to the
  eventfd), and so is everything else that another thread can get between.

  What a handler or a task does is not fixed: while the loop is inside one, its
  thread may make any calls.  The kernel's part is the eventfd, a counter that
  a write increments and a read clears, and `epoll_wait`, which reports the
  eventfd only when its counter is positive.
-/
import CppWeb.Abort
import CppWeb.Foundation.BatchQueue
import CppWeb.Foundation.Transition
import Mathlib.Algebra.Group.Nat.Defs
import Mathlib.Logic.Function.Basic

set_option autoImplicit false

namespace CppWeb.Loop

open CppWeb.Foundation

/-! ## State -/

/-- The loop thread (`isInLoopThread()`) and all others. -/
inductive Thread where
  | loop
  | worker (i : Nat)
  deriving DecidableEq, Repr

/-- A channel in `m_activeChannels`: the loop's own wakeup channel, or any
other one. -/
inductive ActiveChannel where
  | wakeup
  | other
  deriving DecidableEq, Repr

/-- Where the loop thread is. -/
inductive Control where
  /-- not in `loop()`: before the call, or after it returned -/
  | outside
  /-- about to evaluate `!m_quit` -/
  | testQuit
  /-- blocked in `epoll_wait` -/
  | poll
  /-- between two handlers, with the channels still to be handled -/
  | dispatch (active : List ActiveChannel)
  /-- inside the handler of another channel -/
  | handler (active : List ActiveChannel)
  /-- between two tasks of the batch -/
  | tasks
  /-- inside a task -/
  | task
  deriving DecidableEq, Repr

/-- The call a thread is in the middle of. -/
inductive Call where
  | none
  /-- `queueInLoop`, between the push and `wakeup()`; `ticket` counts the pushes
  before this one -/
  | queueWakeup (ticket : Nat)
  /-- `quit`, between the assertion and the store -/
  | quitStore
  /-- `quit`, between the store and `wakeup()` -/
  | quitWakeup
  deriving DecidableEq, Repr

/-- The shared state of an `EventLoop`, where every thread is, and three
histories: what was pushed onto `m_pendingTasks`, which queued tasks were
started, and whether some call of `quit` has returned. -/
structure EventLoop (τ : Type) where
  quit : Bool
  wakeupFd : Nat
  queue : BatchQueue τ
  control : Control
  calls : Thread → Call
  pushed : List τ
  started : List τ
  quitReturned : Bool

/-- What the loop thread does on its own. -/
inductive LoopAction where
  | enter
  | testQuit
  | pollReturn (active : List ActiveChannel)
  | handleEvents
  | handlerReturn
  | swap
  | runTask
  | taskReturn
  | endRound
  deriving DecidableEq, Repr

/-- A step of a call that any thread may make. -/
inductive CallAction (τ : Type) where
  | queueInLoop (task : τ)
  | runInLoop (task : τ)
  | wakeup
  | quit
  | quitStore
  deriving DecidableEq, Repr

inductive Action (τ : Type) where
  | loop (a : LoopAction)
  | call (t : Thread) (a : CallAction τ)
  deriving DecidableEq, Repr

namespace EventLoop

variable {τ : Type}

/-- A newly constructed loop. -/
def new : EventLoop τ :=
  { quit := false
    wakeupFd := 0
    queue := BatchQueue.empty
    control := .outside
    calls := fun _ => .none
    pushed := []
    started := []
    quitReturned := false }

/-! ## The functions of the loop -/

/-- The largest value an eventfd counter can have. -/
def maxCounter : Nat := 2 ^ 64 - 2

/-- `EventLoop::wakeup`: the write adds one; it fails when the counter would
overflow, which is only logged. -/
def wakeup (s : EventLoop τ) : EventLoop τ :=
  { s with wakeupFd := if s.wakeupFd < maxCounter then s.wakeupFd + 1 else s.wakeupFd }

/-- `EventLoop::handleRead`: the read clears the counter; it fails when the
counter is zero already, which is only logged. -/
def handleRead (s : EventLoop τ) : EventLoop τ :=
  { s with wakeupFd := 0 }

/-- The critical section of `EventLoop::queueInLoop`. -/
def push (s : EventLoop τ) (t : Thread) (task : τ) : EventLoop τ :=
  { s with
    queue := s.queue.push task
    calls := Function.update s.calls t (.queueWakeup s.pushed.length)
    pushed := s.pushed ++ [task] }

/-- The thread runs code of the user: on the loop thread only inside a handler
or a task, or outside `loop()`. -/
def inUserCode (s : EventLoop τ) : Thread → Bool
  | .worker _ => true
  | .loop =>
      match s.control with
      | .outside | .handler _ | .task => true
      | .testQuit | .poll | .dispatch _ | .tasks => false

/-- The thread can make a call. -/
def MayCall (s : EventLoop τ) (t : Thread) : Prop :=
  s.calls t = .none ∧ s.inUserCode t = true

instance (s : EventLoop τ) (t : Thread) : Decidable (s.MayCall t) :=
  inferInstanceAs (Decidable (_ ∧ _))

/-- `EventLoop::loop`, one step. -/
def loopStep (s : EventLoop τ) : LoopAction → Option (EventLoop τ)
  | .enter =>
      if s.control = .outside then some { s with control := .testQuit } else none
  | .testQuit =>
      if s.control = .testQuit then
        some { s with control := if s.quit then .outside else .poll }
      else none
  | .pollReturn active =>
      if s.control = .poll ∧ (.wakeup ∈ active → 0 < s.wakeupFd) then
        some { s with control := .dispatch active }
      else none
  | .handleEvents =>
      match s.control with
      | .dispatch (.wakeup :: rest) => some { s.handleRead with control := .dispatch rest }
      | .dispatch (.other :: rest) => some { s with control := .handler rest }
      | _ => none
  | .handlerReturn =>
      match s.control with
      | .handler rest => some { s with control := .dispatch rest }
      | _ => none
  | .swap =>
      if s.control = .dispatch [] then
        some { s with queue := s.queue.swap, control := .tasks }
      else none
  | .runTask =>
      match s.control, s.queue.batch with
      | .tasks, task :: _ =>
          some { s with
            queue := s.queue.advance
            control := .task
            started := s.started ++ [task] }
      | _, _ => none
  | .taskReturn =>
      if s.control = .task then some { s with control := .tasks } else none
  | .endRound =>
      if s.control = .tasks ∧ s.queue.batch.length = 0 then
        some { s with control := .testQuit }
      else none

/-- `queueInLoop`, `runInLoop` and `quit`, one step of one thread. -/
def callStep (s : EventLoop τ) (t : Thread) : CallAction τ → Outcome Abort (EventLoop τ)
  | .queueInLoop task => if s.MayCall t then .next (s.push t task) else .disabled
  | .runInLoop task =>
      if s.MayCall t then
        -- on the loop thread `task()` runs here and now: what it does are the
        -- next steps of this thread
        if t = .loop then .next s else .next (s.push t task)
      else .disabled
  | .wakeup =>
      match s.calls t with
      | .queueWakeup _ => .next { s.wakeup with calls := Function.update s.calls t .none }
      | .quitWakeup =>
          .next { s.wakeup with
            calls := Function.update s.calls t .none
            quitReturned := true }
      | .none | .quitStore => .disabled
  | .quit =>
      if s.MayCall t then
        if s.quit then .abort (.assertion .quit)
        else .next { s with calls := Function.update s.calls t .quitStore }
      else .disabled
  | .quitStore =>
      if s.calls t = .quitStore then
        if t = .loop then
          .next { s with
            quit := true
            calls := Function.update s.calls t .none
            quitReturned := true }
        else .next { s with quit := true, calls := Function.update s.calls t .quitWakeup }
      else .disabled

/-- One step of any thread.  The loop goes on only when its thread is not in
the middle of a call. -/
def step (s : EventLoop τ) : Action τ → Outcome Abort (EventLoop τ)
  | .loop a =>
      if s.calls .loop = .none then
        match s.loopStep a with
        | some t => .next t
        | none => .disabled
      else .disabled
  | .call t a => s.callStep t a

/-! ## Steps, one by one -/

theorem loopStep_of_step {s t : EventLoop τ} {a : LoopAction} (h : s.step (.loop a) = .next t) :
    s.calls .loop = .none ∧ s.loopStep a = some t := by
  rw [step] at h
  split at h
  · rename_i hidle
    split at h
    · rename_i u hu
      cases h
      exact ⟨hidle, hu⟩
    · simp at h
  · simp at h

theorem step_loop_of_loopStep {s t : EventLoop τ} {a : LoopAction}
    (hidle : s.calls .loop = .none) (h : s.loopStep a = some t) :
    s.step (.loop a) = .next t := by
  rw [step, if_pos hidle, h]

/-- What the loop thread can do: each action with its guard and the state it
leads to. -/
inductive LoopStep (s : EventLoop τ) : LoopAction → EventLoop τ → Prop where
  | enter (h : s.control = .outside) : LoopStep s .enter { s with control := .testQuit }
  | testQuit (h : s.control = .testQuit) :
      LoopStep s .testQuit { s with control := if s.quit then .outside else .poll }
  | pollReturn (active : List ActiveChannel) (h : s.control = .poll) :
      LoopStep s (.pollReturn active) { s with control := .dispatch active }
  | handleWakeup (rest : List ActiveChannel) (h : s.control = .dispatch (.wakeup :: rest)) :
      LoopStep s .handleEvents { s.handleRead with control := .dispatch rest }
  | handleOther (rest : List ActiveChannel) (h : s.control = .dispatch (.other :: rest)) :
      LoopStep s .handleEvents { s with control := .handler rest }
  | handlerReturn (rest : List ActiveChannel) (h : s.control = .handler rest) :
      LoopStep s .handlerReturn { s with control := .dispatch rest }
  | swap (h : s.control = .dispatch []) :
      LoopStep s .swap { s with queue := s.queue.swap, control := .tasks }
  | runTask (task : τ) (rest : List τ) (h : s.control = .tasks)
      (hbatch : s.queue.batch = task :: rest) :
      LoopStep s .runTask { s with
        queue := s.queue.advance
        control := .task
        started := s.started ++ [task] }
  | taskReturn (h : s.control = .task) : LoopStep s .taskReturn { s with control := .tasks }
  | endRound (h : s.control = .tasks) (hbatch : s.queue.batch = []) :
      LoopStep s .endRound { s with control := .testQuit }

theorem loopStep_cases {s u : EventLoop τ} {a : LoopAction} (h : s.loopStep a = some u) :
    LoopStep s a u := by
  cases a with
  | enter =>
    simp only [loopStep, Option.ite_none_right_eq_some, Option.some.injEq] at h
    obtain ⟨hcontrol, rfl⟩ := h
    exact .enter hcontrol
  | testQuit =>
    simp only [loopStep, Option.ite_none_right_eq_some, Option.some.injEq] at h
    obtain ⟨hcontrol, rfl⟩ := h
    exact .testQuit hcontrol
  | pollReturn active =>
    simp only [loopStep, Option.ite_none_right_eq_some, Option.some.injEq] at h
    obtain ⟨⟨hcontrol, _⟩, rfl⟩ := h
    exact .pollReturn active hcontrol
  | handleEvents =>
    rw [loopStep] at h
    split at h
    · rename_i rest hcontrol
      cases h
      exact .handleWakeup rest hcontrol
    · rename_i rest hcontrol
      cases h
      exact .handleOther rest hcontrol
    · simp at h
  | handlerReturn =>
    rw [loopStep] at h
    split at h
    · rename_i rest hcontrol
      cases h
      exact .handlerReturn rest hcontrol
    · simp at h
  | swap =>
    simp only [loopStep, Option.ite_none_right_eq_some, Option.some.injEq] at h
    obtain ⟨hcontrol, rfl⟩ := h
    exact .swap hcontrol
  | runTask =>
    rw [loopStep] at h
    split at h
    · rename_i task rest hcontrol hbatch
      cases h
      exact .runTask task rest hcontrol hbatch
    · simp at h
  | taskReturn =>
    simp only [loopStep, Option.ite_none_right_eq_some, Option.some.injEq] at h
    obtain ⟨hcontrol, rfl⟩ := h
    exact .taskReturn hcontrol
  | endRound =>
    simp only [loopStep, Option.ite_none_right_eq_some, Option.some.injEq] at h
    obtain ⟨⟨hcontrol, hbatch⟩, rfl⟩ := h
    exact .endRound hcontrol (List.eq_nil_of_length_eq_zero hbatch)

@[simp] theorem wakeupFd_wakeup_pos (s : EventLoop τ) : 0 < s.wakeup.wakeupFd := by
  unfold wakeup
  dsimp only
  split
  · exact Nat.succ_pos _
  · rename_i hfull
    exact Nat.lt_of_lt_of_le (by decide) (Nat.le_of_not_lt hfull)

/-- **What a call can change.**  A step of a call leaves the loop's place, its
batch and what it started alone; it pushes one task and leaves the thread
before its wakeup, or pushes nothing. -/
theorem callStep_frame {s u : EventLoop τ} {t : Thread} {a : CallAction τ}
    (h : s.callStep t a = .next u) :
    u.control = s.control ∧ u.queue.batch = s.queue.batch ∧ u.started = s.started ∧
      ((∃ task, u = s.push t task) ∨ (u.queue = s.queue ∧ u.pushed = s.pushed)) := by
  cases a with
  | queueInLoop task =>
    rw [callStep] at h
    split at h
    · cases h
      exact ⟨rfl, rfl, rfl, Or.inl ⟨task, rfl⟩⟩
    · simp at h
  | runInLoop task =>
    rw [callStep] at h
    split at h
    · split at h
      · cases h
        exact ⟨rfl, rfl, rfl, Or.inr ⟨rfl, rfl⟩⟩
      · cases h
        exact ⟨rfl, rfl, rfl, Or.inl ⟨task, rfl⟩⟩
    · simp at h
  | wakeup =>
    rw [callStep] at h
    split at h
    · cases h
      exact ⟨rfl, rfl, rfl, Or.inr ⟨rfl, rfl⟩⟩
    · cases h
      exact ⟨rfl, rfl, rfl, Or.inr ⟨rfl, rfl⟩⟩
    · simp at h
    · simp at h
  | quit =>
    rw [callStep] at h
    split at h
    · split at h
      · simp at h
      · cases h
        exact ⟨rfl, rfl, rfl, Or.inr ⟨rfl, rfl⟩⟩
    · simp at h
  | quitStore =>
    rw [callStep] at h
    split at h
    · split at h
      · cases h
        exact ⟨rfl, rfl, rfl, Or.inr ⟨rfl, rfl⟩⟩
      · cases h
        exact ⟨rfl, rfl, rfl, Or.inr ⟨rfl, rfl⟩⟩
    · simp at h

end EventLoop

end CppWeb.Loop
