/-
  Pool/Progress.lean --- the pool does not go round in circles.

  Every place of a thread has a rank: the steps that are left to it until it
  sleeps, leaves or returns, with what it hands on to other threads.  A queued
  task is worth the steps of the worker that it wakes and of the worker that
  executes it; a call of `runTask` is worth those of the task that it brings.
  `stop` has in store what it takes to wake all workers and to join them.

  A step of a thread uses up one unit of the sum.  Only three things add to it:
  a new call, and a worker or a call that wakes out of turn.  The loop in which
  `stop` waits for an empty queue is the one place where a thread runs without
  getting anywhere, and it changes nothing.
-/
import CppWeb.Foundation.Potential
import CppWeb.Pool.ThreadPool

set_option autoImplicit false

namespace CppWeb.Pool

open CppWeb.Foundation

/-- The steps of a worker until it sleeps or leaves, when it finds no task. -/
def Worker.rank (running : Bool) : Worker → Nat
  | .starting => if running then 5 else 2
  | .loop => if running then 4 else 1
  | .entering => 3
  | .testing => 2
  | .parking => 1
  | .asleep => 0
  | .executing _ => if running then 5 else 2
  | .exited => 0

/-- The steps of a call until it returns, and what its task is worth. -/
def Progress.rank : Progress → Nat
  | .entering => 11
  | .testing => 10
  | .asleep => 9
  | .notified => 11
  | .roused => 11
  | .inline => 1
  | .returned => 0

/-- The steps of `stop` until it returns, and what the workers that it wakes
are worth. -/
def Stopping.rank (threads : Nat) : Stopping → Nat
  | .notCalled => 4 * threads + 5
  | .draining => 4 * threads + 4
  | .clearing => 4 * threads + 3
  | .notifying => 4 * threads + 2
  | .joining i => threads - i + 1
  | .returned => 0

/-- A thread gets on with its code.  The test of `stop` for an empty queue is
not counted, since it can be made any number of times. -/
def Action.works : Action → Bool
  | .runTask _ => false
  | .rouseWorker _ => false
  | .rouseCall _ => false
  | .drain => false
  | _ => true

/-- What a call, and a thread that wakes out of turn, add. -/
def Action.charge : Action → Nat
  | .runTask _ => 11
  | .rouseWorker _ => 3
  | .rouseCall _ => 2
  | _ => 0

/-- The pool's own step: nobody calls `runTask` or `stop`, and no thread wakes
out of turn. -/
def Action.own : Action → Bool
  | .runTask _ => false
  | .rouseWorker _ => false
  | .rouseCall _ => false
  | .stop => false
  | _ => true

/-- An own step that works adds nothing. -/
theorem Action.charge_of_own {a : Action} (hown : a.own = true) : a.charge = 0 := by
  cases a <;> first | rfl | cases hown

namespace ThreadPool

/-- What the pool still has to do. -/
def potential (s : ThreadPool) : Nat :=
  (s.threadList.map (Worker.rank s.running)).sum + 6 * s.taskQueue.length +
    (s.calls.map fun call => call.progress.rank).sum + s.stopping.rank s.threadList.length

/-- A worker moves. -/
theorem potential_setWorker {s : ThreadPool} {w : Nat} {old : Worker} (worker : Worker)
    (hw : s.threadList[w]? = some old) :
    (s.setWorker w worker).potential + old.rank s.running =
      s.potential + worker.rank s.running := by
  have hsum := sum_map_set (Worker.rank s.running) worker hw
  simp only [potential, setWorker, List.length_set]
  omega

/-- A worker gets on. -/
theorem pays_setWorker {s : ThreadPool} {w : Nat} {old worker : Worker}
    (hw : s.threadList[w]? = some old) (h : worker.rank s.running < old.rank s.running) :
    1 + (s.setWorker w worker).potential ≤ s.potential := by
  have := potential_setWorker worker hw
  omega

/-- A call moves. -/
theorem potential_setCall {s : ThreadPool} {c : Nat} {call : Call} (progress : Progress)
    (hc : s.calls[c]? = some call) :
    (s.setCall c call progress).potential + call.progress.rank =
      s.potential + progress.rank := by
  have hsum := sum_map_set (fun call : Call => call.progress.rank)
    { call with progress := progress } hc
  simp only at hsum
  simp only [potential, setCall]
  omega

/-- A call gets on. -/
theorem pays_setCall {s : ThreadPool} {c : Nat} {call : Call} {progress : Progress}
    (hc : s.calls[c]? = some call) (h : progress.rank < call.progress.rank) :
    1 + (s.setCall c call progress).potential ≤ s.potential := by
  have := potential_setCall progress hc
  omega

/-- `notify_one` of `m_notEmpty` brings at most one worker back. -/
theorem rank_notified {threads after : List Worker} (h : notEmpty.Notified threads after)
    (running : Bool) :
    (after.map (Worker.rank running)).sum ≤ (threads.map (Worker.rank running)).sum + 3 := by
  cases h with
  | nobody _ => exact Nat.le_add_right _ _
  | one i worker hget hasleep =>
    have hsum := sum_map_set (Worker.rank running) (notEmpty.wake worker) hget
    have hentering : Worker.rank running (notEmpty.wake worker) = 3 := rfl
    omega

/-- `notify_one` of `m_notFull` brings at most one call back. -/
theorem rank_notified_calls {calls after : List Call} (h : notFull.Notified calls after) :
    (after.map fun call => call.progress.rank).sum ≤
      (calls.map fun call => call.progress.rank).sum + 2 := by
  cases h with
  | nobody _ => exact Nat.le_add_right _ _
  | one i call hget hasleep =>
    have hsum := sum_map_set (fun call : Call => call.progress.rank) (notFull.wake call) hget
    have hprogress : call.progress = .asleep := by simpa using hasleep
    have hold : call.progress.rank = 9 := by rw [hprogress]; rfl
    have hnew : (notFull.wake call).progress.rank = 11 := rfl
    omega

/-- `notify_all` brings every worker back at most. -/
theorem rank_notifyAll (threads : List Worker) (running : Bool) :
    ((notEmpty.notifyAll threads).map (Worker.rank running)).sum ≤
      (threads.map (Worker.rank running)).sum + 3 * threads.length := by
  apply sum_map_le
  intro worker
  split
  · exact Nat.le_add_left _ _
  · exact Nat.le_add_right _ _

/-- No worker has more to do once `m_running` is false. -/
theorem rank_cleared (threads : List Worker) (running : Bool) :
    (threads.map (Worker.rank false)).sum ≤ (threads.map (Worker.rank running)).sum := by
  have h := sum_map_le (Worker.rank running) (Worker.rank false) (k := 0) (f := id)
    (fun worker => by cases worker <;> cases running <;> simp [Worker.rank]) threads
  simpa using h

/-- `takeTask` with a task: its two units for the worker and two for the call
that `notify_one` wakes are what the task was worth in the queue. -/
theorem pays_take {s : ThreadPool} {w : Nat} {task : Task} {rest : List Task} {calls : List Call}
    (hw : s.threadList[w]? = some .testing) (hqueue : s.taskQueue = task :: rest)
    (hnotified : notFull.Notified s.calls calls) :
    1 + ({ s.setWorker w (.executing task) with
      taskQueue := rest
      calls := calls
      taken := s.taken ++ [(w, task)] }).unlock.potential ≤ s.potential := by
  have hworker := sum_map_set (Worker.rank s.running) (.executing task) hw
  have hcalls := rank_notified_calls hnotified
  have htesting : Worker.rank s.running .testing = 2 := rfl
  have hexecuting : Worker.rank s.running (.executing task) ≤ 5 := by
    rw [Worker.rank]
    split <;> omega
  simp only [potential, unlock, setWorker, List.length_set, hqueue, List.length_cons]
  omega

/-- `runTask` with room in the queue: the call hands what it has in store on to
its task and to the worker that `notify_one` wakes. -/
theorem pays_push {s : ThreadPool} {c : Nat} {call : Call} {threadList : List Worker}
    (hc : s.calls[c]? = some call) (htesting : call.progress = .testing)
    (hnotified : notEmpty.Notified s.threadList threadList) :
    1 + ({ s.setCall c call .returned with
      threadList := threadList
      taskQueue := s.taskQueue ++ [c]
      pushed := s.pushed ++ [c] }).unlock.potential ≤ s.potential := by
  have hcall := sum_map_set (fun call : Call => call.progress.rank)
    { call with progress := .returned } hc
  have hworkers := rank_notified hnotified s.running
  have hlength := hnotified.length_eq
  have hbefore : call.progress.rank = 10 := by rw [htesting]; rfl
  have hafter : Progress.rank .returned = 0 := rfl
  simp only [potential, unlock, setCall, List.length_append, List.length_singleton, hlength]
    at hcall ⊢
  omega

/-- **Every step pays for itself.** -/
theorem Moves.pays {s t : ThreadPool} {a : Action} (h : s.Moves a t) :
    (if a.works then 1 else 0) + t.potential ≤ s.potential + a.charge := by
  cases h with
  | initReturn w hw =>
    refine pays_setWorker hw ?_
    cases s.running <;> decide
  | enter w hw hrunning =>
    refine pays_setWorker hw ?_
    rw [hrunning]
    decide
  | leave w hw hrunning =>
    refine pays_setWorker hw ?_
    rw [hrunning]
    decide
  | lockWorker w hmutex hw =>
    have hpays : 1 + (s.setWorker w .testing).potential ≤ s.potential :=
      pays_setWorker hw (Nat.lt_succ_self 2)
    exact hpays
  | lockCall c call hmutex hc hwants =>
    have hpays : 1 + (s.setCall c call .testing).potential ≤ s.potential := by
      apply pays_setCall hc
      cases hprogress : call.progress <;> rw [hprogress] at hwants <;>
        first | decide | cases hwants
    exact hpays
  | take w woken task rest calls hw hqueue hnotify =>
    exact pays_take hw hqueue (Condition.notified_of_notifyOne hnotify)
  | findEmpty w woken hw hqueue hrunning => exact pays_setWorker hw (Nat.lt_succ_self 1)
  | giveUp w woken hw hqueue hrunning =>
    have hpays : 1 + (s.setWorker w .loop).potential ≤ s.potential := by
      apply pays_setWorker hw
      rw [hrunning]
      decide
    exact hpays
  | park w hw =>
    have hpays : 1 + (s.setWorker w .asleep).potential ≤ s.potential :=
      pays_setWorker hw Nat.zero_lt_one
    exact hpays
  | rouseWorker w hw =>
    have hsum := potential_setWorker .entering hw
    have hasleep : Worker.rank s.running .asleep = 0 := rfl
    have hentering : Worker.rank s.running .entering = 3 := rfl
    simp only [Action.works, Action.charge, Bool.false_eq_true, if_false]
    omega
  | taskReturn w task hw =>
    have hpays : 1 + (s.setWorker w .loop).potential ≤ s.potential := by
      apply pays_setWorker hw
      cases s.running <;> simp [Worker.rank]
    exact hpays
  | call caller progress hprogress hrunning =>
    have hrank : progress.rank ≤ 11 := by
      rcases hprogress with ⟨_, rfl⟩ | ⟨_, rfl⟩ <;> decide
    simp only [Action.works, Action.charge, Bool.false_eq_true, if_false, potential,
      List.map_append, List.sum_append, List.map_singleton, List.sum_singleton]
    omega
  | full c woken call hc htesting hfull =>
    have hpays : 1 + (s.setCall c call .asleep).potential ≤ s.potential := by
      apply pays_setCall hc
      rw [htesting]
      decide
    exact hpays
  | push c woken call threadList hc htesting hroom hnotify =>
    exact pays_push hc htesting (Condition.notified_of_notifyOne hnotify)
  | rouseCall c call hc hasleep =>
    have hsum := potential_setCall .roused hc
    have hbefore : call.progress.rank = 9 := by rw [hasleep]; rfl
    have hroused : Progress.rank .roused = 11 := rfl
    simp only [Action.works, Action.charge, Bool.false_eq_true, if_false]
    omega
  | inlineReturn c call hc hinline =>
    have hpays : 1 + (s.setCall c call .returned).potential ≤ s.potential := by
      apply pays_setCall hc
      rw [hinline]
      decide
    exact hpays
  | stop hstopping hrunning =>
    simp only [Action.works, Action.charge, if_true, potential, hstopping, Stopping.rank]
    omega
  | drainAgain hstopping => simp [Action.works]
  | drained hstopping hmutex hqueue =>
    simp only [Action.works, Action.charge, Bool.false_eq_true, if_false, potential, hstopping,
      Stopping.rank]
    omega
  | clearRunning hstopping =>
    have hrank := rank_cleared s.threadList s.running
    simp only [Action.works, Action.charge, if_true, potential, hstopping, Stopping.rank]
    omega
  | notifyAll hstopping hmutex =>
    have hrank := rank_notifyAll s.threadList s.running
    have hlength : (notEmpty.notifyAll s.threadList).length = s.threadList.length :=
      List.length_map _
    simp only [Action.works, Action.charge, if_true, potential, hstopping, Stopping.rank, hlength]
    omega
  | joinOne i hstopping hexited =>
    have hi := (List.getElem?_eq_some_iff.mp hexited).1
    simp only [Action.works, Action.charge, if_true, potential, hstopping, Stopping.rank]
    omega
  | joinedAll i hstopping hall =>
    simp only [Action.works, Action.charge, if_true, potential, hstopping, Stopping.rank]
    omega

/-- The pool's steps are amortised. -/
theorem amortised : Amortised step potential Action.works Action.charge :=
  fun _ _ _ h => (moves_of_step h).pays

/-- An own step changes nothing or uses up some of the potential. -/
theorem potential_lt_of_own {s t : ThreadPool} {a : Action} (hown : a.own = true)
    (h : s.step a = .next t) : t = s ∨ t.potential < s.potential := by
  have hmoves := moves_of_step h
  have hpays := hmoves.pays
  rw [Action.charge_of_own hown, Nat.add_zero] at hpays
  by_cases hworks : a.works = true
  · rw [if_pos hworks] at hpays
    exact Or.inr (by omega)
  · -- only the test for an empty queue is an own step that does not count
    cases hmoves with
    | drainAgain hstopping => exact Or.inl rfl
    | drained hstopping hmutex hqueue =>
      refine Or.inr ?_
      simp only [potential, hstopping, Stopping.rank]
      omega
    | _ => first | exact absurd rfl hworks | cases hown

/-- What a new pool has before it. -/
theorem potential_new {numThread maxQueueSize : Nat} {s : ThreadPool}
    (h : new numThread maxQueueSize = .ok s) : s.potential = 9 * numThread + 5 := by
  obtain ⟨_, rfl⟩ := new_eq_ok h
  have hsum : (List.replicate numThread 5).sum = numThread * 5 := List.sum_replicate_nat
  simp only [potential, List.map_replicate, Worker.rank, if_true, hsum, Stopping.rank,
    List.map_nil, List.sum_nil, List.length_nil, List.length_replicate]
  omega

/-- One task on one worker, and `stop`, which looks at the queue in vain once. -/
def submitAndStop : List Action :=
  [.runTask none, .lock (.call 0), .pushTask 0 none, .stop, .drain, .initReturn 0,
    .testRunning 0, .lock (.worker 0), .takeTask 0 none, .drain, .clearRunning, .taskReturn 0,
    .testRunning 0, .notifyAll, .join, .join]

end ThreadPool

end CppWeb.Pool
