/-
  Pool/Wakeup.lean --- the pool loses no wakeup.

  A push notifies one worker and a worker that takes a task notifies one call,
  but the thread that is woken still has to get the mutex, and a newcomer may
  be faster.  For the workers that does no harm: somebody is awake, and nobody
  goes to sleep before the queue is empty.  For the calls it takes counting: as
  long as somebody sleeps on `m_notFull`, the free places in the queue are at
  most as many as the calls that are notified or at their test.  A sleeper can
  come only when the queue is full; a place that a worker frees comes with a
  notification; and a call that takes a place, whoever it is, was at its test.

  `stop` stores `m_running = false` without the mutex, possibly between a
  worker's test and its `wait`, but takes the mutex before it notifies: by then
  such a worker is asleep, and no later test can end in a `wait`.
-/
import CppWeb.Pool.Discipline

set_option autoImplicit false

namespace CppWeb.Pool

open CppWeb.Foundation

/-- The call is notified, or it holds the mutex and is at its test. -/
def Progress.ready : Progress → Bool
  | .notified => true
  | .testing => true
  | _ => false

/-- `stop` has stored `m_running = false`. -/
def Stopping.cleared : Stopping → Bool
  | .notifying => true
  | .joining _ => true
  | .returned => true
  | _ => false

/-- `stop` has notified all workers. -/
def Stopping.notifiedAll : Stopping → Bool
  | .joining _ => true
  | .returned => true
  | _ => false

namespace ThreadPool

/-! ## Workers while there is work -/

/-- A task in the queue has a worker that is not asleep. -/
def Attended (s : ThreadPool) : Prop :=
  s.taskQueue ≠ [] → ∃ worker ∈ s.threadList, worker ≠ .asleep

/-- A worker goes somewhere else than to sleep. -/
theorem Attended.of_mem {s : ThreadPool} {worker : Worker} (hmem : worker ∈ s.threadList)
    (hawake : worker ≠ .asleep) : s.Attended :=
  fun _ => ⟨worker, hmem, hawake⟩

/-- Every step keeps a worker awake while there are tasks. -/
theorem Attended.moves {s t : ThreadPool} {a : Action} (h : s.Attended) (he : s.Exclusive)
    (hmoves : s.Moves a t) : t.Attended := by
  cases hmoves with
  | initReturn w hw => exact .of_mem (mem_set_of_getElem? Worker.loop hw) (by decide)
  | enter w hw hrunning => exact .of_mem (mem_set_of_getElem? Worker.entering hw) (by decide)
  | leave w hw hrunning => exact .of_mem (mem_set_of_getElem? Worker.exited hw) (by decide)
  | lockWorker w hmutex hw => exact .of_mem (mem_set_of_getElem? Worker.testing hw) (by decide)
  | lockCall c call hmutex hc hwants => exact h
  | take w woken task rest calls hw hqueue hnotify =>
    refine .of_mem (mem_set_of_getElem? (Worker.executing task) hw) ?_
    intro heq
    cases heq
  | findEmpty w woken hw hqueue hrunning => exact fun hne => absurd hqueue hne
  | giveUp w woken hw hqueue hrunning => exact fun hne => absurd hqueue hne
  | park w hw => exact fun hne => absurd (he.parking w hw) hne
  | rouseWorker w hw => exact .of_mem (mem_set_of_getElem? Worker.entering hw) (by decide)
  | taskReturn w task hw => exact .of_mem (mem_set_of_getElem? Worker.loop hw) (by decide)
  | call caller progress hprogress hrunning => exact h
  | full c woken call hc htesting hfull => exact h
  | push c woken call threadList hc htesting hroom hnotify =>
    have hnotified := Condition.notified_of_notifyOne hnotify
    have hthreads : s.threadList ≠ [] := by
      refine he.threads c call hc ?_
      rw [htesting]
      rfl
    obtain ⟨worker, hmem, hawake⟩ := hnotified.exists_awake hthreads
    refine .of_mem hmem ?_
    rintro rfl
    cases hawake
  | rouseCall c call hc hasleep => exact h
  | inlineReturn c call hc hinline => exact h
  | stop hstopping hrunning => exact h
  | drainAgain hstopping => exact h
  | drained hstopping hmutex hqueue => exact h
  | clearRunning hstopping => exact h
  | notifyAll hstopping hmutex =>
    intro hne
    obtain ⟨worker, hmem, hawake⟩ := h hne
    refine ⟨worker, List.mem_map.mpr ⟨worker, hmem, ?_⟩, hawake⟩
    rw [if_neg]
    simpa using hawake
  | joinOne i hstopping hexited => exact h
  | joinedAll i hstopping hall => exact h

/-! ## Calls while there is room -/

/-- The calls that sleep on `m_notFull`. -/
def sleepers (s : ThreadPool) : Nat := s.calls.countP notFull.asleep

/-- The calls that are notified or at their test. -/
def readyCalls (s : ThreadPool) : Nat := s.calls.countP fun call : Call => call.progress.ready

/-- While a call sleeps, the free places are at most as many as the calls that
are about to use one. -/
def Claimed (s : ThreadPool) : Prop :=
  0 < s.sleepers → s.maxQueueSize ≤ s.taskQueue.length + s.readyCalls

/-- A call moves: the count of the sleepers. -/
theorem sleepers_setCall {s : ThreadPool} {c : Nat} {call : Call} (progress : Progress)
    (hc : s.calls[c]? = some call) :
    (s.setCall c call progress).sleepers + (if call.progress == .asleep then 1 else 0) =
      s.sleepers + (if progress == .asleep then 1 else 0) :=
  countP_set notFull.asleep { call with progress := progress } hc

/-- A call moves: the count of the ready calls. -/
theorem readyCalls_setCall {s : ThreadPool} {c : Nat} {call : Call} (progress : Progress)
    (hc : s.calls[c]? = some call) :
    (s.setCall c call progress).readyCalls + (if call.progress.ready then 1 else 0) =
      s.readyCalls + (if progress.ready then 1 else 0) :=
  countP_set (fun call : Call => call.progress.ready) { call with progress := progress } hc

/-- `notify_one` of `m_notFull`: nobody sleeps, or a sleeper becomes ready. -/
theorem count_of_notified {calls after : List Call} (h : notFull.Notified calls after) :
    (calls.countP notFull.asleep = 0 ∧ after = calls) ∨
      (after.countP notFull.asleep + 1 = calls.countP notFull.asleep ∧
        after.countP (fun call : Call => call.progress.ready) =
          calls.countP (fun call : Call => call.progress.ready) + 1) := by
  refine h.count (fun call hasleep => ?_) fun call _ => rfl
  have hprogress : call.progress = .asleep := by simpa using hasleep
  change call.progress.ready = false
  rw [hprogress]
  rfl

/-- Every step keeps the free places claimed. -/
theorem Claimed.moves {s t : ThreadPool} {a : Action} (h : s.Claimed) (hmoves : s.Moves a t) :
    t.Claimed := by
  cases hmoves with
  | initReturn w hw => exact h
  | enter w hw hrunning => exact h
  | leave w hw hrunning => exact h
  | lockWorker w hmutex hw => exact h
  | lockCall c call hmutex hc hwants =>
    -- an ordinary newcomer raises the count, a notified call keeps it
    intro hsleep
    have hsleepers := sleepers_setCall .testing hc
    have hready := readyCalls_setCall .testing hc
    change 0 < (s.setCall c call .testing).sleepers at hsleep
    change s.maxQueueSize ≤ s.taskQueue.length + (s.setCall c call .testing).readyCalls
    have hle := h (by simp at hsleepers; omega)
    have hone : (if call.progress.ready then 1 else 0) ≤ 1 := by split <;> omega
    simp only [Progress.ready, if_true] at hready hone
    omega
  | take w woken task rest calls hw hqueue hnotify =>
    have hnotified := Condition.notified_of_notifyOne hnotify
    intro hsleep
    change 0 < calls.countP notFull.asleep at hsleep
    change s.maxQueueSize ≤ rest.length + calls.countP fun call : Call => call.progress.ready
    rcases count_of_notified hnotified with ⟨hnone, rfl⟩ | ⟨hasleep, hready⟩
    · omega
    · have hle := h (by unfold sleepers; omega)
      unfold readyCalls at hle
      rw [hqueue, List.length_cons] at hle
      omega
  | findEmpty w woken hw hqueue hrunning => exact h
  | giveUp w woken hw hqueue hrunning => exact h
  | park w hw => exact h
  | rouseWorker w hw => exact h
  | taskReturn w task hw => exact h
  | call caller progress hprogress hrunning =>
    have hawake : notFull.asleep { caller, progress } = false ∧ progress.ready = false := by
      rcases hprogress with ⟨_, rfl⟩ | ⟨_, rfl⟩ <;> exact ⟨rfl, rfl⟩
    intro hsleep
    change 0 < (s.calls ++ [_]).countP notFull.asleep at hsleep
    change s.maxQueueSize ≤ s.taskQueue.length +
      (s.calls ++ [_]).countP fun call : Call => call.progress.ready
    rw [List.countP_append, List.countP_singleton, hawake.1] at hsleep
    rw [List.countP_append, List.countP_singleton, hawake.2]
    exact h hsleep
  | full c woken call hc htesting hfull =>
    intro _
    exact Nat.le_trans hfull (Nat.le_add_right _ _)
  | push c woken call threadList hc htesting hroom hnotify =>
    intro hsleep
    have hsleepers := sleepers_setCall .returned hc
    have hready := readyCalls_setCall .returned hc
    change 0 < (s.setCall c call .returned).sleepers at hsleep
    change s.maxQueueSize ≤ (s.taskQueue ++ [c]).length + (s.setCall c call .returned).readyCalls
    rw [htesting] at hsleepers hready
    simp only [Progress.ready, if_true, Bool.false_eq_true, if_false, Nat.add_zero] at hready
    have hle := h (by simp at hsleepers; omega)
    rw [List.length_append, List.length_singleton]
    omega
  | rouseCall c call hc hasleep =>
    intro hsleep
    have hsleepers := sleepers_setCall .roused hc
    have hready := readyCalls_setCall .roused hc
    rw [hasleep] at hsleepers hready
    simp only [Progress.ready, Bool.false_eq_true, if_false, Nat.add_zero] at hready
    change s.maxQueueSize ≤ s.taskQueue.length + (s.setCall c call .roused).readyCalls
    rw [hready]
    exact h (by simp at hsleepers; omega)
  | inlineReturn c call hc hinline =>
    intro hsleep
    have hsleepers := sleepers_setCall .returned hc
    have hready := readyCalls_setCall .returned hc
    rw [hinline] at hsleepers hready
    simp only [Progress.ready, Bool.false_eq_true, if_false, Nat.add_zero] at hready
    change 0 < (s.setCall c call .returned).sleepers at hsleep
    change s.maxQueueSize ≤ s.taskQueue.length + (s.setCall c call .returned).readyCalls
    rw [hready]
    exact h (by simp at hsleepers; omega)
  | stop hstopping hrunning => exact h
  | drainAgain hstopping => exact h
  | drained hstopping hmutex hqueue => exact h
  | clearRunning hstopping => exact h
  | notifyAll hstopping hmutex => exact h
  | joinOne i hstopping hexited => exact h
  | joinedAll i hstopping hall => exact h

/-! ## Workers after `stop` has notified them -/

/-- Once `stop` has stored `m_running = false` it stays false; once it has
notified all, no worker is asleep or about to go to sleep. -/
structure Roused (s : ThreadPool) : Prop where
  cleared : s.stopping.cleared = true → s.running = false
  awake : s.stopping.notifiedAll = true →
    ∀ worker ∈ s.threadList, worker ≠ .asleep ∧ worker ≠ .parking

theorem cleared_of_notifiedAll {stopping : Stopping} (h : stopping.notifiedAll = true) :
    stopping.cleared = true := by
  cases stopping <;> first | rfl | cases h

/-- A worker moves, but not to sleep. -/
theorem Roused.setWorker {s : ThreadPool} (h : s.Roused) {w : Nat} {worker : Worker}
    (hworker : worker ≠ .asleep ∧ worker ≠ .parking) : (s.setWorker w worker).Roused :=
  ⟨h.cleared, fun hnotified => forall_mem_set (h.awake hnotified) hworker⟩

/-- Every step of a thread keeps the workers awake. -/
theorem Roused.moves {s t : ThreadPool} {a : Action} (h : s.Roused) (he : s.Exclusive)
    (hmoves : s.Moves a t) : t.Roused := by
  cases hmoves with
  | initReturn w hw => exact h.setWorker (by decide)
  | enter w hw hrunning => exact h.setWorker (by decide)
  | leave w hw hrunning => exact h.setWorker (by decide)
  | lockWorker w hmutex hw =>
    exact ⟨h.cleared, fun hnotified => forall_mem_set (h.awake hnotified) (by decide)⟩
  | lockCall c call hmutex hc hwants => exact ⟨h.cleared, h.awake⟩
  | take w woken task rest calls hw hqueue hnotify =>
    refine ⟨h.cleared, fun hnotified => forall_mem_set (h.awake hnotified) ⟨?_, ?_⟩⟩
    · intro heq
      cases heq
    · intro heq
      cases heq
  | findEmpty w woken hw hqueue hrunning =>
    refine ⟨h.cleared, fun hnotified => ?_⟩
    rw [h.cleared (cleared_of_notifiedAll hnotified)] at hrunning
    cases hrunning
  | giveUp w woken hw hqueue hrunning =>
    exact ⟨h.cleared, fun hnotified => forall_mem_set (h.awake hnotified) (by decide)⟩
  | park w hw =>
    refine ⟨h.cleared, fun hnotified => ?_⟩
    exact absurd rfl (h.awake hnotified _ (List.mem_of_getElem? hw)).2
  | rouseWorker w hw => exact h.setWorker (by decide)
  | taskReturn w task hw =>
    exact ⟨h.cleared, fun hnotified => forall_mem_set (h.awake hnotified) (by decide)⟩
  | call caller progress hprogress hrunning => exact ⟨h.cleared, h.awake⟩
  | full c woken call hc htesting hfull => exact ⟨h.cleared, h.awake⟩
  | push c woken call threadList hc htesting hroom hnotify =>
    have hnotified := Condition.notified_of_notifyOne hnotify
    refine ⟨h.cleared, fun hall => ?_⟩
    have hwoken : ∀ (w : Nat) (worker : Worker), threadList[w]? = some worker →
        worker ≠ .asleep ∧ worker ≠ .parking :=
      hnotified.forall (fun w worker hw => h.awake hall worker (List.mem_of_getElem? hw))
        fun _ _ _ _ => ⟨Worker.noConfusion, Worker.noConfusion⟩
    intro worker hmem
    obtain ⟨w, hw⟩ := List.mem_iff_getElem?.mp hmem
    exact hwoken w worker hw
  | rouseCall c call hc hasleep => exact ⟨h.cleared, h.awake⟩
  | inlineReturn c call hc hinline => exact ⟨h.cleared, h.awake⟩
  | stop hstopping hrunning => exact ⟨fun hc => (by cases hc), fun hn => (by cases hn)⟩
  | drainAgain hstopping => exact h
  | drained hstopping hmutex hqueue => exact ⟨fun hc => (by cases hc), fun hn => (by cases hn)⟩
  | clearRunning hstopping => exact ⟨fun _ => rfl, fun hn => by cases hn⟩
  | notifyAll hstopping hmutex =>
    refine ⟨fun _ => h.cleared (by rw [hstopping]; rfl), fun _ worker hmem => ⟨?_, ?_⟩⟩
    · rintro rfl
      cases Condition.not_asleep_of_mem_notifyAll hmem
    · -- the mutex is free, so no worker is between its test and its `wait`
      rintro rfl
      obtain ⟨w, hw⟩ := List.mem_iff_getElem?.mp hmem
      have hnone : NoneInside (notEmpty.notifyAll s.threadList) :=
        Condition.forall_notifyAll (he.outside hmutex) fun _ _ _ _ => rfl
      exact hnone.not_parking hw
  | joinOne i hstopping hexited =>
    have hnotified : s.stopping.notifiedAll = true := by
      rw [hstopping]
      rfl
    exact ⟨fun _ => h.cleared (cleared_of_notifiedAll hnotified), fun _ => h.awake hnotified⟩
  | joinedAll i hstopping hall =>
    have hnotified : s.stopping.notifiedAll = true := by
      rw [hstopping]
      rfl
    exact ⟨fun _ => h.cleared (cleared_of_notifiedAll hnotified), fun _ => h.awake hnotified⟩

/-! ## No lost wakeup -/

/-- The two condition variables lose no wakeup: while the pool runs a task in
the queue has a worker that is not asleep; room in the queue and a sleeping
call mean that another call is notified or holds the mutex to use the room; and
once `stop` has notified all, no worker is asleep. -/
structure NoLostWakeup (s : ThreadPool) : Prop where
  onNotEmpty : s.running = true → s.taskQueue ≠ [] → ∃ worker ∈ s.threadList, worker ≠ .asleep
  onNotFull : s.taskQueue.length < s.maxQueueSize →
    ∀ call ∈ s.calls, call.progress = .asleep →
      ∃ other ∈ s.calls, other.progress = .notified ∨ other.progress = .testing
  onStop : s.stopping.notifiedAll = true → ∀ worker ∈ s.threadList, worker ≠ .asleep

/-- What the wakeups rest on. -/
structure Wakeful (s : ThreadPool) : Prop where
  exclusive : s.Exclusive
  attended : s.Attended
  claimed : s.Claimed
  roused : s.Roused

theorem wakeful_new {numThread maxQueueSize : Nat} {s : ThreadPool}
    (h : new numThread maxQueueSize = .ok s) : s.Wakeful := by
  refine ⟨exclusive_new h, ?_, ?_, ?_⟩
  all_goals obtain ⟨_, rfl⟩ := new_eq_ok h
  · exact fun hne => absurd rfl hne
  · exact fun hsleep => absurd hsleep (Nat.lt_irrefl 0)
  · exact ⟨fun hc => (by cases hc), fun hn => (by cases hn)⟩

theorem Wakeful.moves {s t : ThreadPool} {a : Action} (h : s.Wakeful) (hmoves : s.Moves a t) :
    t.Wakeful :=
  ⟨h.exclusive.moves hmoves, h.attended.moves h.exclusive hmoves, h.claimed.moves hmoves,
    h.roused.moves h.exclusive hmoves⟩

theorem Wakeful.noLostWakeup {s : ThreadPool} (h : s.Wakeful) : s.NoLostWakeup := by
  refine ⟨fun _ => h.attended, fun hroom call hmem hasleep => ?_, fun hnotified worker hmem =>
    (h.roused.awake hnotified worker hmem).1⟩
  have hsleepers : 0 < s.sleepers :=
    List.countP_pos_iff.mpr ⟨call, hmem, by rw [notFull_asleep, hasleep]; rfl⟩
  have hclaimed := h.claimed hsleepers
  have hready : 0 < s.readyCalls := by omega
  obtain ⟨other, hother, hprogress⟩ := List.countP_pos_iff.mp hready
  refine ⟨other, hother, ?_⟩
  cases heq : other.progress with
  | notified => exact Or.inl rfl
  | testing => exact Or.inr rfl
  | entering => simp [heq, Progress.ready] at hprogress
  | asleep => simp [heq, Progress.ready] at hprogress
  | roused => simp [heq, Progress.ready] at hprogress
  | inline => simp [heq, Progress.ready] at hprogress
  | returned => simp [heq, Progress.ready] at hprogress

/-- **No wakeup is lost**, in any run of any number of workers and calls with
`stop`. -/
theorem no_wakeup_lost {numThread maxQueueSize : Nat} {s : ThreadPool}
    (h : new numThread maxQueueSize = .ok s) (as : List Action) :
    Throughout step NoLostWakeup s as := by
  have hwakeful : Throughout step Wakeful s as :=
    throughout_of_invariant step (wakeful_new h)
      (fun _ _ _ hw ht => hw.moves (moves_of_step ht)) as
  exact hwakeful.mono fun t ht => ht.noLostWakeup

/-- `stop` clears `m_running` while a worker is between its test and its `wait`,
and notifies it afterwards. -/
def stopWhileParking : List Action :=
  [.initReturn 0, .testRunning 0, .lock (.worker 0), .takeTask 0 none, .stop, .park 0, .drain,
    .rouseWorker 0, .lock (.worker 0), .takeTask 0 none, .clearRunning, .park 0, .notifyAll,
    .lock (.worker 0), .takeTask 0 none, .testRunning 0, .join, .join]

theorem no_wakeup_lost_stopWhileParking :
    ∃ s, new 1 1 = .ok s ∧
      (run step s stopWhileParking).map ThreadPool.stopping = some .returned ∧
      Throughout step NoLostWakeup s stopWhileParking :=
  ⟨_, rfl, by decide +kernel, no_wakeup_lost (show new 1 1 = .ok _ from rfl) _⟩

end ThreadPool

end CppWeb.Pool
