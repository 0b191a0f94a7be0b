/-
  Pool/ThreadPool.lean --- `ThreadPool` as a system of threads.

  The workers run `runInThread`; calls of `runTask` come from threads outside
  the pool and from the tasks that the workers execute, any number of them at a
  time; one thread outside the pool calls `stop`.  A step is what a thread does
  between two points at which another thread can be seen: the test of
  `m_running` at the head of a worker's loop, taking the mutex, a section under
  the mutex up to its unlock or its `wait`, and the store to `m_running`, which
  `stop` makes without the mutex.  In `takeTask` the test of the predicate and
  the `wait` are two steps, since that store can fall between them.

  `notify_one` wakes one sleeper if there is one, the step says which; a
  sleeper may also wake out of turn at any time.

  A task is a callable `std::function`.  The model names it by the number of
  the call of `runTask` that submitted it.  `pushed`, `taken` and `executed` are
  histories that the code does not keep and no step reads.
-/
import CppWeb.Abort
import CppWeb.Foundation.Monitor
import CppWeb.Foundation.Transition

set_option autoImplicit false

namespace CppWeb.Pool

open CppWeb.Foundation

/-- A submitted task: the number of the call of `runTask` that submitted it. -/
abbrev Task := Nat

/-- Where a worker is in `runInThread` and `takeTask`. -/
inductive Worker where
  /-- in `m_threadInitCallback` -/
  | starting
  /-- at `while (m_running)` -/
  | loop
  /-- in `takeTask`, waiting for the mutex, for the first time or out of `wait` -/
  | entering
  /-- holds the mutex, at `m_taskQueue.empty() && m_running` -/
  | testing
  /-- holds the mutex, has found the queue empty and `m_running` true -/
  | parking
  /-- in `m_notEmpty.wait`, not notified -/
  | asleep
  /-- in `task()` -/
  | executing (task : Task)
  /-- has left `runInThread` -/
  | exited
  deriving DecidableEq, Repr

/-- The worker holds the mutex. -/
def Worker.inside : Worker → Bool
  | .testing => true
  | .parking => true
  | _ => false

/-- Where a call of `runTask` is. -/
inductive Progress where
  /-- past `assert(m_running)`, waiting for the mutex -/
  | entering
  /-- holds the mutex, at `m_taskQueue.size() >= m_maxQueueSize` -/
  | testing
  /-- in `m_notFull.wait`, not notified -/
  | asleep
  /-- notified, waiting for the mutex -/
  | notified
  /-- woken out of turn, waiting for the mutex -/
  | roused
  /-- the pool has no threads and the call executes the task itself -/
  | inline
  | returned
  deriving DecidableEq, Repr

/-- The call is on its way through the mutex to the queue. -/
def Progress.queuing : Progress → Bool
  | .inline => false
  | .returned => false
  | _ => true

/-- The call waits for the mutex. -/
def Progress.wantsMutex : Progress → Bool
  | .entering => true
  | .notified => true
  | .roused => true
  | _ => false

/-- A call of `runTask`. -/
structure Call where
  /-- the worker whose task makes the call, if it does not come from outside -/
  caller : Option Nat
  progress : Progress
  deriving DecidableEq, Repr

/-- Who holds `m_mutex`. -/
inductive Holder where
  | worker (i : Nat)
  | call (i : Nat)
  deriving DecidableEq, Repr

/-- Where the call of `stop` is. -/
inductive Stopping where
  /-- not called yet -/
  | notCalled
  /-- in the loop that waits for an empty queue -/
  | draining
  /-- about to store `m_running = false` -/
  | clearing
  /-- about to take the mutex and notify all -/
  | notifying
  /-- about to join the thread at this index -/
  | joining (i : Nat)
  | returned
  deriving DecidableEq, Repr

/-- The pool, its threads and the calls it has seen. -/
structure ThreadPool where
  threadList : List Worker
  taskQueue : List Task
  maxQueueSize : Nat
  running : Bool
  mutex : Option Holder
  calls : List Call
  stopping : Stopping
  /-- the tasks pushed onto the queue, in order -/
  pushed : List Task
  /-- the tasks taken from the queue with the worker that took them, in order -/
  taken : List (Nat × Task)
  /-- the tasks whose execution has ended -/
  executed : List Task
  deriving DecidableEq, Repr

/-- What can happen next. -/
inductive Action where
  /-- the init callback of a worker returns -/
  | initReturn (w : Nat)
  /-- a worker tests `m_running` at the head of its loop -/
  | testRunning (w : Nat)
  /-- a thread takes the mutex -/
  | lock (holder : Holder)
  /-- a worker goes on in `takeTask`; `woken` is the call `notify_one` wakes -/
  | takeTask (w : Nat) (woken : Option Nat)
  /-- a worker goes to sleep -/
  | park (w : Nat)
  /-- a sleeping worker wakes out of turn -/
  | rouseWorker (w : Nat)
  /-- a worker's task returns -/
  | taskReturn (w : Nat)
  /-- `runTask` is called -/
  | runTask (caller : Option Nat)
  /-- a call goes on in `runTask`; `woken` is the worker `notify_one` wakes -/
  | pushTask (c : Nat) (woken : Option Nat)
  /-- a sleeping call wakes out of turn -/
  | rouseCall (c : Nat)
  /-- a task that its own call executes returns -/
  | inlineReturn (c : Nat)
  /-- `stop` is called -/
  | stop
  /-- `stop` looks whether the queue is empty -/
  | drain
  /-- `stop` stores `m_running = false` -/
  | clearRunning
  /-- `stop` notifies all workers -/
  | notifyAll
  /-- `stop` joins a thread, or has joined all of them -/
  | join
  deriving DecidableEq, Repr

/-- `m_notEmpty`, on which workers sleep. -/
def notEmpty : Condition Worker where
  asleep w := w == .asleep
  wake _ := .entering
  awake _ := rfl

/-- `m_notFull`, on which calls sleep. -/
def notFull : Condition Call where
  asleep call := call.progress == .asleep
  wake call := { call with progress := .notified }
  awake _ := rfl

@[simp] theorem notEmpty_asleep (w : Worker) : notEmpty.asleep w = (w == .asleep) := rfl

@[simp] theorem notEmpty_wake (w : Worker) : notEmpty.wake w = .entering := rfl

@[simp] theorem notFull_asleep (call : Call) :
    notFull.asleep call = (call.progress == .asleep) := rfl

@[simp] theorem notFull_wake (call : Call) :
    notFull.wake call = { call with progress := .notified } := rfl

namespace ThreadPool

/-- `ThreadPool::ThreadPool`. -/
def new (numThread maxQueueSize : Nat) : Except Abort ThreadPool := do
  require .threadPool (0 < maxQueueSize)
  return {
    threadList := List.replicate numThread .starting
    taskQueue := []
    maxQueueSize := maxQueueSize
    running := true
    mutex := none
    calls := []
    stopping := .notCalled
    pushed := []
    taken := []
    executed := [] }

/-- The worker moves. -/
def setWorker (s : ThreadPool) (w : Nat) (worker : Worker) : ThreadPool :=
  { s with threadList := s.threadList.set w worker }

/-- The call moves. -/
def setCall (s : ThreadPool) (c : Nat) (call : Call) (progress : Progress) : ThreadPool :=
  { s with calls := s.calls.set c { call with progress := progress } }

/-- The mutex is free. -/
def unlock (s : ThreadPool) : ThreadPool := { s with mutex := none }

/-- The task that the worker executes has a call of `runTask` that has not
returned. -/
def Submitting (s : ThreadPool) (w : Nat) : Prop :=
  ∃ call ∈ s.calls, call.caller = some w ∧ call.progress ≠ .returned

instance (s : ThreadPool) (w : Nat) : Decidable (s.Submitting w) :=
  inferInstanceAs (Decidable (∃ call ∈ s.calls, _))

/-- The thread can call `runTask`: it is outside the pool, or it is a worker in
the code of a task. -/
def MayCall (s : ThreadPool) : Option Nat → Prop
  | none => True
  | some w => (∃ task, s.threadList[w]? = some (.executing task)) ∧ ¬ s.Submitting w

instance (s : ThreadPool) : ∀ caller : Option Nat, Decidable (s.MayCall caller)
  | none => isTrue trivial
  | some w =>
      have _executing : Decidable (∃ task, s.threadList[w]? = some (.executing task)) :=
        match h : s.threadList[w]? with
        | some (.executing task) => isTrue ⟨task, rfl⟩
        | some .starting => isFalse (by simp)
        | some .loop => isFalse (by simp)
        | some .entering => isFalse (by simp)
        | some .testing => isFalse (by simp)
        | some .parking => isFalse (by simp)
        | some .asleep => isFalse (by simp)
        | some .exited => isFalse (by simp)
        | none => isFalse (by simp)
      inferInstanceAs (Decidable (_ ∧ _))

/-- `ThreadPool::takeTask`, under the mutex up to the unlock or the `wait`. -/
def takeTask (s : ThreadPool) (w : Nat) (woken : Option Nat) : Outcome Abort ThreadPool :=
  match s.taskQueue with
  | task :: rest =>
      match notFull.notifyOne s.calls woken with
      | some calls =>
          .next ({ s.setWorker w (.executing task) with
            taskQueue := rest
            calls := calls
            taken := s.taken ++ [(w, task)] }).unlock
      | none => .disabled
  | [] =>
      if s.running then .next (s.setWorker w .parking)
      -- the empty `std::function` that is returned is not called
      else .next (s.setWorker w .loop).unlock

/-- `ThreadPool::runTask` up to the mutex. -/
def runTask (s : ThreadPool) (caller : Option Nat) : Except Abort ThreadPool := do
  require .runTask (s.running = true)
  return { s with
    calls := s.calls ++
      [{ caller, progress := if s.threadList.isEmpty then .inline else .entering }] }

/-- `ThreadPool::runTask` under the mutex, up to the unlock or the `wait`. -/
def pushTask (s : ThreadPool) (c : Nat) (call : Call) (woken : Option Nat) :
    Outcome Abort ThreadPool :=
  if s.taskQueue.length ≥ s.maxQueueSize then .next (s.setCall c call .asleep).unlock
  else
    match notEmpty.notifyOne s.threadList woken with
    | some threadList =>
        .next ({ s.setCall c call .returned with
          threadList := threadList
          taskQueue := s.taskQueue ++ [c]
          pushed := s.pushed ++ [c] }).unlock
    | none => .disabled

/-- The thread list entry that `stop` joins next has ended, or none is left. -/
def joinNext (s : ThreadPool) (i : Nat) : Outcome Abort ThreadPool :=
  match s.threadList[i]? with
  | some .exited => .next { s with stopping := .joining (i + 1) }
  | some _ => .disabled
  | none => .next { s with stopping := .returned }

/-- One step of one thread. -/
def step (s : ThreadPool) : Action → Outcome Abort ThreadPool
  | .initReturn w =>
      if s.threadList[w]? = some .starting then .next (s.setWorker w .loop) else .disabled
  | .testRunning w =>
      if s.threadList[w]? = some .loop then
        .next (s.setWorker w (if s.running then .entering else .exited))
      else .disabled
  | .lock (.worker w) =>
      if s.mutex = none ∧ s.threadList[w]? = some .entering then
        .next { s.setWorker w .testing with mutex := some (.worker w) }
      else .disabled
  | .lock (.call c) =>
      match s.calls[c]? with
      | some call =>
          if s.mutex = none ∧ call.progress.wantsMutex = true then
            .next { s.setCall c call .testing with mutex := some (.call c) }
          else .disabled
      | none => .disabled
  | .takeTask w woken =>
      if s.threadList[w]? = some .testing then s.takeTask w woken else .disabled
  | .park w =>
      if s.threadList[w]? = some .parking then .next (s.setWorker w .asleep).unlock
      else .disabled
  | .rouseWorker w =>
      if s.threadList[w]? = some .asleep then .next (s.setWorker w .entering) else .disabled
  | .taskReturn w =>
      match s.threadList[w]? with
      | some (.executing task) =>
          if s.Submitting w then .disabled
          else .next { s.setWorker w .loop with executed := s.executed ++ [task] }
      | _ => .disabled
  | .runTask caller =>
      if s.MayCall caller then Outcome.ofExcept (s.runTask caller) else .disabled
  | .pushTask c woken =>
      match s.calls[c]? with
      | some call => if call.progress = .testing then s.pushTask c call woken else .disabled
      | none => .disabled
  | .rouseCall c =>
      match s.calls[c]? with
      | some call =>
          if call.progress = .asleep then .next (s.setCall c call .roused) else .disabled
      | none => .disabled
  | .inlineReturn c =>
      match s.calls[c]? with
      | some call =>
          if call.progress = .inline then
            .next { s.setCall c call .returned with executed := s.executed ++ [c] }
          else .disabled
      | none => .disabled
  | .stop =>
      if s.stopping = .notCalled then
        Outcome.ofExcept do
          require .threadPoolStop (s.running = true)
          return { s with stopping := .draining }
      else .disabled
  | .drain =>
      if s.stopping = .draining ∧ s.mutex = none then
        if s.taskQueue.isEmpty then .next { s with stopping := .clearing } else .next s
      else .disabled
  | .clearRunning =>
      if s.stopping = .clearing then .next { s with running := false, stopping := .notifying }
      else .disabled
  | .notifyAll =>
      if s.stopping = .notifying ∧ s.mutex = none then
        .next { s with
          threadList := notEmpty.notifyAll s.threadList
          stopping := .joining 0 }
      else .disabled
  | .join =>
      match s.stopping with
      | .joining i => s.joinNext i
      | _ => .disabled

/-! ## What a step can do -/

/-- Every step that leads to a next state, with what is known before it. -/
inductive Moves (s : ThreadPool) : Action → ThreadPool → Prop where
  | initReturn (w : Nat) (hw : s.threadList[w]? = some .starting) :
      Moves s (.initReturn w) (s.setWorker w .loop)
  | enter (w : Nat) (hw : s.threadList[w]? = some .loop) (hrunning : s.running = true) :
      Moves s (.testRunning w) (s.setWorker w .entering)
  | leave (w : Nat) (hw : s.threadList[w]? = some .loop) (hrunning : s.running = false) :
      Moves s (.testRunning w) (s.setWorker w .exited)
  | lockWorker (w : Nat) (hmutex : s.mutex = none) (hw : s.threadList[w]? = some .entering) :
      Moves s (.lock (.worker w)) { s.setWorker w .testing with mutex := some (.worker w) }
  | lockCall (c : Nat) (call : Call) (hmutex : s.mutex = none) (hc : s.calls[c]? = some call)
      (hwants : call.progress.wantsMutex = true) :
      Moves s (.lock (.call c)) { s.setCall c call .testing with mutex := some (.call c) }
  | take (w : Nat) (woken : Option Nat) (task : Task) (rest : List Task) (calls : List Call)
      (hw : s.threadList[w]? = some .testing) (hqueue : s.taskQueue = task :: rest)
      (hnotify : notFull.notifyOne s.calls woken = some calls) :
      Moves s (.takeTask w woken)
        ({ s.setWorker w (.executing task) with
          taskQueue := rest
          calls := calls
          taken := s.taken ++ [(w, task)] }).unlock
  | findEmpty (w : Nat) (woken : Option Nat) (hw : s.threadList[w]? = some .testing)
      (hqueue : s.taskQueue = []) (hrunning : s.running = true) :
      Moves s (.takeTask w woken) (s.setWorker w .parking)
  | giveUp (w : Nat) (woken : Option Nat) (hw : s.threadList[w]? = some .testing)
      (hqueue : s.taskQueue = []) (hrunning : s.running = false) :
      Moves s (.takeTask w woken) (s.setWorker w .loop).unlock
  | park (w : Nat) (hw : s.threadList[w]? = some .parking) :
      Moves s (.park w) (s.setWorker w .asleep).unlock
  | rouseWorker (w : Nat) (hw : s.threadList[w]? = some .asleep) :
      Moves s (.rouseWorker w) (s.setWorker w .entering)
  | taskReturn (w : Nat) (task : Task) (hw : s.threadList[w]? = some (.executing task)) :
      Moves s (.taskReturn w) { s.setWorker w .loop with executed := s.executed ++ [task] }
  | call (caller : Option Nat) (progress : Progress)
      (hprogress : s.threadList = [] ∧ progress = .inline ∨
        s.threadList ≠ [] ∧ progress = .entering) (hrunning : s.running = true) :
      Moves s (.runTask caller) { s with calls := s.calls ++ [{ caller, progress }] }
  | full (c : Nat) (woken : Option Nat) (call : Call) (hc : s.calls[c]? = some call)
      (htesting : call.progress = .testing) (hfull : s.maxQueueSize ≤ s.taskQueue.length) :
      Moves s (.pushTask c woken) (s.setCall c call .asleep).unlock
  | push (c : Nat) (woken : Option Nat) (call : Call) (threadList : List Worker)
      (hc : s.calls[c]? = some call) (htesting : call.progress = .testing)
      (hroom : s.taskQueue.length < s.maxQueueSize)
      (hnotify : notEmpty.notifyOne s.threadList woken = some threadList) :
      Moves s (.pushTask c woken)
        ({ s.setCall c call .returned with
          threadList := threadList
          taskQueue := s.taskQueue ++ [c]
          pushed := s.pushed ++ [c] }).unlock
  | rouseCall (c : Nat) (call : Call) (hc : s.calls[c]? = some call)
      (hasleep : call.progress = .asleep) : Moves s (.rouseCall c) (s.setCall c call .roused)
  | inlineReturn (c : Nat) (call : Call) (hc : s.calls[c]? = some call)
      (hinline : call.progress = .inline) :
      Moves s (.inlineReturn c)
        { s.setCall c call .returned with executed := s.executed ++ [c] }
  | stop (hstopping : s.stopping = .notCalled) (hrunning : s.running = true) :
      Moves s .stop { s with stopping := .draining }
  | drainAgain (hstopping : s.stopping = .draining) : Moves s .drain s
  | drained (hstopping : s.stopping = .draining) (hmutex : s.mutex = none)
      (hqueue : s.taskQueue = []) : Moves s .drain { s with stopping := .clearing }
  | clearRunning (hstopping : s.stopping = .clearing) :
      Moves s .clearRunning { s with running := false, stopping := .notifying }
  | notifyAll (hstopping : s.stopping = .notifying) (hmutex : s.mutex = none) :
      Moves s .notifyAll
        { s with
          threadList := notEmpty.notifyAll s.threadList
          stopping := .joining 0 }
  | joinOne (i : Nat) (hstopping : s.stopping = .joining i)
      (hexited : s.threadList[i]? = some .exited) :
      Moves s .join { s with stopping := .joining (i + 1) }
  | joinedAll (i : Nat) (hstopping : s.stopping = .joining i)
      (hall : s.threadList.length ≤ i) : Moves s .join { s with stopping := .returned }

/-- `takeTask`, under the mutex. -/
theorem moves_of_takeTask {s t : ThreadPool} {w : Nat} {woken : Option Nat}
    (hw : s.threadList[w]? = some .testing) (h : s.takeTask w woken = .next t) :
    s.Moves (.takeTask w woken) t := by
  rw [takeTask] at h
  split at h
  · rename_i task rest hqueue
    split at h
    · rename_i calls hnotify
      cases h
      exact .take w woken task rest calls hw hqueue hnotify
    · cases h
  · rename_i hqueue
    split at h
    · rename_i hrunning
      cases h
      exact .findEmpty w woken hw hqueue hrunning
    · rename_i hrunning
      cases h
      exact .giveUp w woken hw hqueue (Bool.eq_false_iff.mpr hrunning)

/-- `runTask`, under the mutex. -/
theorem moves_of_pushTask {s t : ThreadPool} {c : Nat} {call : Call} {woken : Option Nat}
    (hc : s.calls[c]? = some call) (htesting : call.progress = .testing)
    (h : s.pushTask c call woken = .next t) : s.Moves (.pushTask c woken) t := by
  rw [pushTask] at h
  split at h
  · rename_i hfull
    cases h
    exact .full c woken call hc htesting hfull
  · rename_i hroom
    split at h
    · rename_i threadList hnotify
      cases h
      exact .push c woken call threadList hc htesting (Nat.lt_of_not_le hroom) hnotify
    · cases h

/-- `stop`, in its loop over the threads. -/
theorem moves_of_joinNext {s t : ThreadPool} {i : Nat} (hstopping : s.stopping = .joining i)
    (h : s.joinNext i = .next t) : s.Moves .join t := by
  rw [joinNext] at h
  split at h
  · rename_i hexited
    cases h
    exact .joinOne i hstopping hexited
  · cases h
  · rename_i hnone
    cases h
    exact .joinedAll i hstopping (List.getElem?_eq_none_iff.mp hnone)

/-- **Inversion.** -/
theorem moves_of_step {s t : ThreadPool} {a : Action} (h : s.step a = .next t) :
    s.Moves a t := by
  cases a with
  | initReturn w =>
    obtain ⟨hw, rfl⟩ := Outcome.ite_next_eq_next.mp h
    exact .initReturn w hw
  | testRunning w =>
    rw [step] at h
    split at h
    · rename_i hw
      cases hrunning : s.running with
      | true =>
        rw [if_pos hrunning] at h
        cases h
        exact .enter w hw hrunning
      | false =>
        rw [if_neg (by rw [hrunning]; exact Bool.false_ne_true)] at h
        cases h
        exact .leave w hw hrunning
    · cases h
  | lock holder =>
    cases holder with
    | worker w =>
      obtain ⟨hlock, rfl⟩ := Outcome.ite_next_eq_next.mp h
      exact .lockWorker w hlock.1 hlock.2
    | call c =>
      rw [step] at h
      split at h
      · rename_i call hc
        obtain ⟨hlock, rfl⟩ := Outcome.ite_next_eq_next.mp h
        exact .lockCall c call hlock.1 hc hlock.2
      · cases h
  | takeTask w woken =>
    obtain ⟨hw, h⟩ := Outcome.ite_eq_next.mp h
    exact moves_of_takeTask hw h
  | park w =>
    obtain ⟨hw, rfl⟩ := Outcome.ite_next_eq_next.mp h
    exact .park w hw
  | rouseWorker w =>
    obtain ⟨hw, rfl⟩ := Outcome.ite_next_eq_next.mp h
    exact .rouseWorker w hw
  | taskReturn w =>
    rw [step] at h
    split at h
    · rename_i task hw
      split at h
      · cases h
      · cases h
        exact .taskReturn w task hw
    · cases h
  | runTask caller =>
    rw [step] at h
    split at h
    · rw [Outcome.ofExcept_eq_next, runTask, bind_eq_ok] at h
      obtain ⟨_, hrunning, heq⟩ := h
      cases heq
      refine .call caller _ ?_ (require_eq_ok.mp hrunning)
      cases hthreads : s.threadList with
      | nil => exact Or.inl ⟨rfl, rfl⟩
      | cons worker rest => exact Or.inr ⟨List.cons_ne_nil _ _, rfl⟩
    · cases h
  | pushTask c woken =>
    rw [step] at h
    split at h
    · rename_i call hc
      obtain ⟨htesting, h⟩ := Outcome.ite_eq_next.mp h
      exact moves_of_pushTask hc htesting h
    · cases h
  | rouseCall c =>
    rw [step] at h
    split at h
    · rename_i call hc
      obtain ⟨hasleep, rfl⟩ := Outcome.ite_next_eq_next.mp h
      exact .rouseCall c call hc hasleep
    · cases h
  | inlineReturn c =>
    rw [step] at h
    split at h
    · rename_i call hc
      obtain ⟨hinline, rfl⟩ := Outcome.ite_next_eq_next.mp h
      exact .inlineReturn c call hc hinline
    · cases h
  | stop =>
    rw [step] at h
    split at h
    · rename_i hstopping
      rw [Outcome.ofExcept_eq_next, bind_eq_ok] at h
      obtain ⟨_, hrunning, heq⟩ := h
      cases heq
      exact .stop hstopping (require_eq_ok.mp hrunning)
    · cases h
  | drain =>
    rw [step] at h
    split at h
    · rename_i hdrain
      split at h
      · rename_i hqueue
        cases h
        exact .drained hdrain.1 hdrain.2 (List.isEmpty_iff.mp hqueue)
      · cases h
        exact .drainAgain hdrain.1
    · cases h
  | clearRunning =>
    obtain ⟨hstopping, rfl⟩ := Outcome.ite_next_eq_next.mp h
    exact .clearRunning hstopping
  | notifyAll =>
    obtain ⟨hnotify, rfl⟩ := Outcome.ite_next_eq_next.mp h
    exact .notifyAll hnotify.1 hnotify.2
  | join =>
    rw [step] at h
    split at h
    · rename_i i hstopping
      exact moves_of_joinNext hstopping h
    · cases h

/-- The state after the constructor. -/
theorem new_eq_ok {numThread maxQueueSize : Nat} {s : ThreadPool}
    (h : new numThread maxQueueSize = .ok s) :
    0 < maxQueueSize ∧
      s = { threadList := List.replicate numThread .starting, taskQueue := [],
            maxQueueSize, running := true, mutex := none, calls := [],
            stopping := .notCalled, pushed := [], taken := [], executed := [] } := by
  rw [new, bind_eq_ok] at h
  obtain ⟨_, hsize, heq⟩ := h
  cases heq
  exact ⟨require_eq_ok.mp hsize, rfl⟩

end ThreadPool

end CppWeb.Pool
