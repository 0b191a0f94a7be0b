/-
  Pool/Rest.lean --- where the pool stops by itself.

  Without new calls, a call of `stop` and wakeups out of turn, the threads of
  the pool come to rest after a bounded number of steps.  They can do so in
  three ways only: the work is done and all workers sleep; `stop` has returned;
  or every worker that is left executes a task that waits in `runTask` for a
  place in the full queue, which only a worker could free.  The pool has no
  guard against the last one, so tasks must not submit tasks; if they do not,
  and no call comes too late for `stop`, every task is executed.

  What rules out the rest: whoever holds the mutex can go on; while a worker
  sleeps, there are as many workers on their way to the queue as it has tasks;
  and a worker leaves only when `m_running` is false.
-/
import CppWeb.Pool.Progress
import CppWeb.Pool.Stop

set_option autoImplicit false

namespace CppWeb.Pool

open CppWeb.Foundation

/-- The worker is on its way to the queue: it will look at it before it sleeps. -/
def Worker.coming : Worker → Bool
  | .entering => true
  | .testing => true
  | _ => false

/-- A task calls `runTask`. -/
def Action.fromTask : Action → Bool
  | .runTask (some _) => true
  | _ => false

namespace ThreadPool

/-! ## The holder of the mutex -/

/-- Whoever holds the mutex is inside a section. -/
structure Held (s : ThreadPool) : Prop where
  worker : ∀ w, s.mutex = some (.worker w) →
    ∃ worker : Worker, s.threadList[w]? = some worker ∧ worker.inside = true
  call : ∀ c, s.mutex = some (.call c) →
    ∃ call : Call, s.calls[c]? = some call ∧ call.progress = .testing

/-- The mutex is free. -/
theorem Held.of_free {s : ThreadPool} (hmutex : s.mutex = none) : s.Held := by
  refine ⟨fun w hw => ?_, fun c hc => ?_⟩
  · rw [hmutex] at hw
    cases hw
  · rw [hmutex] at hc
    cases hc

theorem held_new {numThread maxQueueSize : Nat} {s : ThreadPool}
    (h : new numThread maxQueueSize = .ok s) : s.Held := by
  obtain ⟨_, rfl⟩ := new_eq_ok h
  exact .of_free rfl

/-- Steps that touch neither the mutex nor a thread. -/
theorem Held.congr {s t : ThreadPool} (h : s.Held) (hmutex : t.mutex = s.mutex)
    (hthreads : t.threadList = s.threadList) (hcalls : t.calls = s.calls) : t.Held := by
  refine ⟨fun w hw => ?_, fun c hc => ?_⟩
  · rw [hthreads]
    exact h.worker w (hmutex ▸ hw)
  · rw [hcalls]
    exact h.call c (hmutex ▸ hc)

/-- A worker moves, but not out of a section. -/
theorem Held.setWorker {s : ThreadPool} (h : s.Held) {w : Nat} {old worker : Worker}
    (hw : s.threadList[w]? = some old) (hinside : old.inside = true → worker.inside = true) :
    (s.setWorker w worker).Held := by
  refine ⟨fun v hv => ?_, h.call⟩
  obtain ⟨holder, hget, hholder⟩ := h.worker v hv
  by_cases heq : w = v
  · subst heq
    rw [hw] at hget
    cases hget
    obtain ⟨hi, _⟩ := List.getElem?_eq_some_iff.mp hw
    exact ⟨worker, List.getElem?_set_self hi, hinside hholder⟩
  · exact ⟨holder, by rw [ThreadPool.setWorker, List.getElem?_set_ne heq]; exact hget, hholder⟩

/-- A call outside moves. -/
theorem Held.setCall {s : ThreadPool} (h : s.Held) {c : Nat} {call : Call} {progress : Progress}
    (hc : s.calls[c]? = some call) (hcall : call.progress ≠ .testing) :
    (s.setCall c call progress).Held := by
  refine ⟨h.worker, fun d hd => ?_⟩
  obtain ⟨holder, hget, hholder⟩ := h.call d hd
  have hne : c ≠ d := by
    rintro rfl
    rw [hc] at hget
    cases hget
    exact hcall hholder
  exact ⟨holder, by rw [ThreadPool.setCall, List.getElem?_set_ne hne]; exact hget, hholder⟩

/-- Every step keeps the holder inside. -/
theorem Held.moves {s t : ThreadPool} {a : Action} (h : s.Held) (hmoves : s.Moves a t) :
    t.Held := by
  cases hmoves with
  | initReturn w hw => exact h.setWorker hw Bool.noConfusion
  | enter w hw hrunning => exact h.setWorker hw Bool.noConfusion
  | leave w hw hrunning => exact h.setWorker hw Bool.noConfusion
  | lockWorker w hmutex hw =>
    refine ⟨fun v hv => ?_, fun c hc => by cases hc⟩
    cases hv
    obtain ⟨hi, _⟩ := List.getElem?_eq_some_iff.mp hw
    exact ⟨.testing, List.getElem?_set_self hi, rfl⟩
  | lockCall c call hmutex hc hwants =>
    refine ⟨fun w hw => (by cases hw), fun d hd => ?_⟩
    cases hd
    obtain ⟨hi, _⟩ := List.getElem?_eq_some_iff.mp hc
    exact ⟨_, List.getElem?_set_self hi, rfl⟩
  | take w woken task rest calls hw hqueue hnotify => exact .of_free rfl
  | findEmpty w woken hw hqueue hrunning => exact h.setWorker hw fun _ => rfl
  | giveUp w woken hw hqueue hrunning => exact .of_free rfl
  | park w hw => exact .of_free rfl
  | rouseWorker w hw => exact h.setWorker hw Bool.noConfusion
  | taskReturn w task hw =>
    have hset : (s.setWorker w .loop).Held := h.setWorker hw Bool.noConfusion
    exact hset.congr rfl rfl rfl
  | call caller progress hprogress hrunning =>
    refine ⟨h.worker, fun c hc => ?_⟩
    obtain ⟨call, hget, htesting⟩ := h.call c hc
    exact ⟨call, List.getElem?_append_left (List.getElem?_eq_some_iff.mp hget).1 ▸ hget, htesting⟩
  | full c woken call hc htesting hfull => exact .of_free rfl
  | push c woken call threadList hc htesting hroom hnotify => exact .of_free rfl
  | rouseCall c call hc hasleep => exact h.setCall hc (by rw [hasleep]; decide)
  | inlineReturn c call hc hinline =>
    have hset : (s.setCall c call .returned).Held := h.setCall hc (by rw [hinline]; decide)
    exact hset.congr rfl rfl rfl
  | stop hstopping hrunning => exact h.congr rfl rfl rfl
  | drainAgain hstopping => exact h
  | drained hstopping hmutex hqueue => exact h.congr rfl rfl rfl
  | clearRunning hstopping => exact h.congr rfl rfl rfl
  | notifyAll hstopping hmutex => exact .of_free hmutex
  | joinOne i hstopping hexited => exact h.congr rfl rfl rfl
  | joinedAll i hstopping hall => exact h.congr rfl rfl rfl

/-! ## Workers for the queued tasks -/

/-- The workers on their way to the queue. -/
def comingWorkers (s : ThreadPool) : Nat := s.threadList.countP Worker.coming

/-- While a worker sleeps, every queued task has another worker on its way. -/
def Manned (s : ThreadPool) : Prop :=
  .asleep ∈ s.threadList → s.taskQueue.length ≤ s.comingWorkers

theorem Manned.of_empty {s : ThreadPool} (hqueue : s.taskQueue = []) : s.Manned := by
  intro _
  rw [hqueue]
  exact Nat.zero_le _

/-- A worker moves, but neither to sleep nor off its way to the queue. -/
theorem Manned.setWorker {s : ThreadPool} (h : s.Manned) {w : Nat} {old worker : Worker}
    (hw : s.threadList[w]? = some old) (hawake : worker ≠ .asleep)
    (hcoming : old.coming = true → worker.coming = true) : (s.setWorker w worker).Manned := by
  intro hasleep
  have hle := h ((List.mem_or_eq_of_mem_set hasleep).resolve_right fun heq => hawake heq.symm)
  have hcount := countP_set Worker.coming worker hw
  have hone : (if old.coming = true then 1 else 0) ≤ if worker.coming = true then 1 else 0 := by
    by_cases hold : old.coming = true
    · rw [if_pos hold, if_pos (hcoming hold)]
    · rw [if_neg hold]
      exact Nat.zero_le _
  change s.taskQueue.length ≤ (s.threadList.set w worker).countP Worker.coming
  unfold comingWorkers at hle
  omega

/-- Every step keeps the queued tasks manned. -/
theorem Manned.moves {s t : ThreadPool} {a : Action} (h : s.Manned) (he : s.Exclusive)
    (hmoves : s.Moves a t) : t.Manned := by
  cases hmoves with
  | initReturn w hw => exact h.setWorker hw (by decide) Bool.noConfusion
  | enter w hw hrunning => exact h.setWorker hw (by decide) Bool.noConfusion
  | leave w hw hrunning => exact h.setWorker hw (by decide) Bool.noConfusion
  | lockWorker w hmutex hw =>
    have hset : (s.setWorker w .testing).Manned := h.setWorker hw (by decide) fun _ => rfl
    exact hset
  | lockCall c call hmutex hc hwants => exact h
  | take w woken task rest calls hw hqueue hnotify =>
    -- one task less, and one worker less on its way
    intro hasleep
    have hle := h ((List.mem_or_eq_of_mem_set hasleep).resolve_right Worker.noConfusion)
    have hcount := countP_set Worker.coming (.executing task) hw
    simp only [Worker.coming, if_true, Bool.false_eq_true, if_false] at hcount
    change rest.length ≤ (s.threadList.set w (.executing task)).countP Worker.coming
    rw [hqueue, List.length_cons] at hle
    unfold comingWorkers at hle
    omega
  | findEmpty w woken hw hqueue hrunning => exact .of_empty hqueue
  | giveUp w woken hw hqueue hrunning => exact .of_empty hqueue
  | park w hw => exact .of_empty (he.parking w hw)
  | rouseWorker w hw => exact h.setWorker hw (by decide) Bool.noConfusion
  | taskReturn w task hw =>
    have hset : (s.setWorker w .loop).Manned := h.setWorker hw (by decide) Bool.noConfusion
    exact hset
  | call caller progress hprogress hrunning => exact h
  | full c woken call hc htesting hfull => exact h
  | push c woken call threadList hc htesting hroom hnotify =>
    intro hasleep
    change .asleep ∈ threadList at hasleep
    cases Condition.notified_of_notifyOne hnotify with
    | nobody hall => cases hall _ hasleep
    | one i worker hget hslept =>
      -- one task more, and the worker that is woken for it
      obtain rfl : worker = .asleep := by simpa using hslept
      have hle := h (List.mem_of_getElem? hget)
      have hcount := countP_set Worker.coming (notEmpty.wake .asleep) hget
      simp only [notEmpty_wake, Worker.coming, if_true, Bool.false_eq_true, if_false] at hcount
      change (s.taskQueue ++ [c]).length ≤
        (s.threadList.set i (notEmpty.wake .asleep)).countP Worker.coming
      rw [List.length_append, List.length_singleton, notEmpty_wake]
      unfold comingWorkers at hle
      omega
  | rouseCall c call hc hasleep => exact h
  | inlineReturn c call hc hinline => exact h
  | stop hstopping hrunning => exact h
  | drainAgain hstopping => exact h
  | drained hstopping hmutex hqueue => exact h
  | clearRunning hstopping => exact h
  | notifyAll hstopping hmutex =>
    intro hasleep
    have hawake : notEmpty.asleep .asleep = false := Condition.not_asleep_of_mem_notifyAll hasleep
    cases hawake
  | joinOne i hstopping hexited => exact h
  | joinedAll i hstopping hall => exact h

theorem manned_new {numThread maxQueueSize : Nat} {s : ThreadPool}
    (h : new numThread maxQueueSize = .ok s) : s.Manned := by
  obtain ⟨_, rfl⟩ := new_eq_ok h
  exact .of_empty rfl

/-- **A worker sleeps only while the others suffice.**  In every state that any
run reaches, if a worker sleeps on `m_notEmpty`, then the tasks in the queue
are at most as many as the workers that are on their way to it. -/
theorem queued_tasks_manned {numThread maxQueueSize : Nat} {s : ThreadPool}
    (h : new numThread maxQueueSize = .ok s) (as : List Action) :
    Throughout step Manned s as := by
  have hall : Throughout step (fun s => s.Exclusive ∧ s.Manned) s as :=
    throughout_of_invariant step ⟨exclusive_new h, manned_new h⟩
      (fun _ _ _ hs ht => ⟨hs.1.moves (moves_of_step ht), hs.2.moves hs.1 (moves_of_step ht)⟩) as
  exact hall.mono fun t ht => ht.2

theorem queued_tasks_manned_stopWhileParking :
    ∃ s, new 1 1 = .ok s ∧
      (run step s stopWhileParking).map ThreadPool.stopping = some .returned ∧
      Throughout step Manned s stopWhileParking :=
  ⟨_, rfl, by decide +kernel, queued_tasks_manned (show new 1 1 = .ok _ from rfl) _⟩

/-! ## Workers that have left -/

/-- `m_running` is false only after `stop` has stored it, and a worker leaves
only then. -/
structure Leaving (s : ThreadPool) : Prop where
  running : s.running = false → s.stopping.cleared = true
  exited : .exited ∈ s.threadList → s.running = false

theorem leaving_new {numThread maxQueueSize : Nat} {s : ThreadPool}
    (h : new numThread maxQueueSize = .ok s) : s.Leaving :=
  ⟨(settled_new h).running, (settled_new h).exited⟩

/-- A worker moves, but not to the exit. -/
theorem Leaving.setWorker {s : ThreadPool} (h : s.Leaving) {w : Nat} {worker : Worker}
    (hworker : worker ≠ .exited) : (s.setWorker w worker).Leaving := by
  refine ⟨h.running, fun hmem => h.exited ?_⟩
  exact (List.mem_or_eq_of_mem_set hmem).resolve_right fun heq => hworker heq.symm

/-- Every step keeps who may leave. -/
theorem Leaving.moves {s t : ThreadPool} {a : Action} (h : s.Leaving) (hmoves : s.Moves a t) :
    t.Leaving := by
  cases hmoves with
  | initReturn w hw => exact h.setWorker (by decide)
  | enter w hw hrunning => exact h.setWorker (by decide)
  | leave w hw hrunning => exact ⟨h.running, fun _ => hrunning⟩
  | lockWorker w hmutex hw =>
    have hset : (s.setWorker w .testing).Leaving := h.setWorker (by decide)
    exact ⟨hset.running, hset.exited⟩
  | lockCall c call hmutex hc hwants => exact ⟨h.running, h.exited⟩
  | take w woken task rest calls hw hqueue hnotify =>
    have hset : (s.setWorker w (.executing task)).Leaving := h.setWorker Worker.noConfusion
    exact ⟨hset.running, hset.exited⟩
  | findEmpty w woken hw hqueue hrunning => exact h.setWorker (by decide)
  | giveUp w woken hw hqueue hrunning =>
    have hset : (s.setWorker w .loop).Leaving := h.setWorker (by decide)
    exact ⟨hset.running, hset.exited⟩
  | park w hw =>
    have hset : (s.setWorker w .asleep).Leaving := h.setWorker (by decide)
    exact ⟨hset.running, hset.exited⟩
  | rouseWorker w hw => exact h.setWorker (by decide)
  | taskReturn w task hw =>
    have hset : (s.setWorker w .loop).Leaving := h.setWorker (by decide)
    exact ⟨hset.running, hset.exited⟩
  | call caller progress hprogress hrunning => exact ⟨h.running, h.exited⟩
  | full c woken call hc htesting hfull => exact ⟨h.running, h.exited⟩
  | push c woken call threadList hc htesting hroom hnotify =>
    refine ⟨h.running, fun hmem => h.exited ?_⟩
    change .exited ∈ threadList at hmem
    cases Condition.notified_of_notifyOne hnotify with
    | nobody _ => exact hmem
    | one i worker _ _ => exact (List.mem_or_eq_of_mem_set hmem).resolve_right Worker.noConfusion
  | rouseCall c call hc hasleep => exact ⟨h.running, h.exited⟩
  | inlineReturn c call hc hinline => exact ⟨h.running, h.exited⟩
  | stop hstopping hrunning =>
    refine ⟨fun hstopped => ?_, h.exited⟩
    change s.running = false at hstopped
    rw [hrunning] at hstopped
    cases hstopped
  | drainAgain hstopping => exact h
  | drained hstopping hmutex hqueue =>
    refine ⟨fun hstopped => ?_, h.exited⟩
    have hcleared := h.running hstopped
    rw [hstopping] at hcleared
    cases hcleared
  | clearRunning hstopping => exact ⟨fun _ => rfl, fun _ => rfl⟩
  | notifyAll hstopping hmutex =>
    refine ⟨fun _ => rfl, fun hmem => h.exited ?_⟩
    obtain ⟨worker, hworker, heq⟩ := List.mem_map.mp hmem
    split at heq
    · cases heq
    · exact heq ▸ hworker
  | joinOne i hstopping hexited => exact ⟨fun _ => rfl, h.exited⟩
  | joinedAll i hstopping hall => exact ⟨fun _ => rfl, h.exited⟩

/-! ## No thread can go on -/

/-- What the rest of the pool turns on. -/
structure Steady (s : ThreadPool) : Prop where
  wakeful : s.Wakeful
  held : s.Held
  manned : s.Manned
  leaving : s.Leaving
  joined : s.Joined
  room : 0 < s.maxQueueSize
  threads : s.threadList ≠ []

theorem steady_new {numThread maxQueueSize : Nat} {s : ThreadPool} (hthreads : 0 < numThread)
    (h : new numThread maxQueueSize = .ok s) : s.Steady where
  wakeful := wakeful_new h
  held := held_new h
  manned := manned_new h
  leaving := leaving_new h
  joined := (sound_new hthreads h).joined
  room := by
    obtain ⟨hsize, rfl⟩ := new_eq_ok h
    exact hsize
  threads := (accounted_new hthreads h).threads

/-- The size of the queue and the number of the threads are fixed. -/
theorem maxQueueSize_of_moves {s t : ThreadPool} {a : Action} (h : s.Moves a t) :
    t.maxQueueSize = s.maxQueueSize := by
  cases h <;> rfl

theorem Steady.moves {s t : ThreadPool} {a : Action} (h : s.Steady) (hmoves : s.Moves a t) :
    t.Steady where
  wakeful := h.wakeful.moves hmoves
  held := h.held.moves hmoves
  manned := h.manned.moves h.wakeful.exclusive hmoves
  leaving := h.leaving.moves hmoves
  joined := h.joined.moves hmoves
  room := maxQueueSize_of_moves hmoves ▸ h.room
  threads := by
    intro hnil
    have hlength := (exited_of_moves hmoves).1
    rw [hnil] at hlength
    exact h.threads (List.length_eq_zero_iff.mp hlength.symm)

/-- The pool's own steps change nothing. -/
def Resting (s : ThreadPool) : Prop := AtRest step (fun a : Action => a.own = true) s

/-- No thread is at a place that it can leave by itself. -/
structure Stuck (s : ThreadPool) : Prop where
  workers : ∀ (w : Nat) (worker : Worker), s.threadList[w]? = some worker →
    worker = .asleep ∨ worker = .exited ∨ (∃ task, worker = .executing task) ∧ s.Submitting w
  calls : ∀ call ∈ s.calls, call.progress = .asleep ∨ call.progress = .returned
  stopping : s.stopping = .notCalled ∨ s.stopping = .draining ∧ s.taskQueue ≠ [] ∨
    (∃ i worker, s.stopping = .joining i ∧ s.threadList[i]? = some worker ∧ worker ≠ .exited) ∨
    s.stopping = .returned

/-- A step that works is not possible at rest. -/
theorem Resting.not_next {s t : ThreadPool} (h : s.Resting) {a : Action} (hown : a.own = true)
    (hworks : a.works = true) (ht : s.step a = .next t) : False := by
  have hpays := (moves_of_step ht).pays
  rw [h a t hown ht, if_pos hworks, Action.charge_of_own hown] at hpays
  omega

/-- Whoever is at its test can go on, some choice of the sleeper given. -/
theorem exists_takeTask {s : ThreadPool} {w : Nat} (hw : s.threadList[w]? = some .testing) :
    ∃ woken t, s.step (.takeTask w woken) = .next t := by
  obtain ⟨woken, calls, hnotify⟩ := notFull.exists_notifyOne s.calls
  refine ⟨woken, ?_⟩
  rw [step, if_pos hw]
  unfold takeTask
  cases s.taskQueue with
  | nil => cases s.running <;> exact ⟨_, rfl⟩
  | cons task rest => exact ⟨_, by rw [hnotify]⟩

theorem exists_pushTask {s : ThreadPool} {c : Nat} {call : Call} (hc : s.calls[c]? = some call)
    (htesting : call.progress = .testing) : ∃ woken t, s.step (.pushTask c woken) = .next t := by
  obtain ⟨woken, threadList, hnotify⟩ := notEmpty.exists_notifyOne s.threadList
  refine ⟨woken, ?_⟩
  simp only [step, hc, if_pos htesting]
  unfold pushTask
  split
  · exact ⟨_, rfl⟩
  · exact ⟨_, by rw [hnotify]⟩

/-- At rest the mutex is free. -/
theorem Resting.mutex {s : ThreadPool} (h : s.Resting) (hh : s.Held) : s.mutex = none := by
  cases hmutex : s.mutex with
  | none => rfl
  | some holder =>
    exfalso
    cases holder with
    | worker w =>
      obtain ⟨worker, hw, hinside⟩ := hh.worker w hmutex
      cases worker with
      | testing =>
        obtain ⟨woken, t, ht⟩ := exists_takeTask hw
        exact h.not_next rfl rfl ht
      | parking => exact h.not_next (a := .park w) rfl rfl (if_pos hw)
      | _ => cases hinside
    | call c =>
      obtain ⟨call, hc, htesting⟩ := hh.call c hmutex
      obtain ⟨woken, t, ht⟩ := exists_pushTask hc htesting
      exact h.not_next rfl rfl ht

/-- At rest no worker is at a place that it can leave. -/
theorem Resting.workers {s : ThreadPool} (h : s.Resting) (hs : s.Steady) {w : Nat}
    {worker : Worker} (hw : s.threadList[w]? = some worker) :
    worker = .asleep ∨ worker = .exited ∨
      (∃ task, worker = .executing task) ∧ s.Submitting w := by
  have hmutex := h.mutex hs.held
  cases worker with
  | asleep => exact Or.inl rfl
  | exited => exact Or.inr (Or.inl rfl)
  | executing task =>
    refine Or.inr (Or.inr ⟨⟨task, rfl⟩, ?_⟩)
    by_contra hnot
    have ht : s.step (.taskReturn w) =
        .next { s.setWorker w .loop with executed := s.executed ++ [task] } := by
      simp only [step, hw, if_neg hnot]
    exact h.not_next rfl rfl ht
  | starting => exact (h.not_next (a := .initReturn w) rfl rfl (if_pos hw)).elim
  | loop => exact (h.not_next (a := .testRunning w) rfl rfl (if_pos hw)).elim
  | entering =>
    exact (h.not_next (a := .lock (.worker w)) rfl rfl (if_pos ⟨hmutex, hw⟩)).elim
  | testing => cases hs.wakeful.exclusive.outside hmutex w _ hw
  | parking => cases hs.wakeful.exclusive.outside hmutex w _ hw

/-- At rest no call is at a place that it can leave. -/
theorem Resting.calls {s : ThreadPool} (h : s.Resting) (hs : s.Steady) {c : Nat} {call : Call}
    (hc : s.calls[c]? = some call) : call.progress = .asleep ∨ call.progress = .returned := by
  have hmutex := h.mutex hs.held
  have hlock : call.progress.wantsMutex = true → False := by
    intro hwants
    have ht : s.step (.lock (.call c)) =
        .next { s.setCall c call .testing with mutex := some (.call c) } := by
      simp only [step, hc, if_pos (And.intro hmutex hwants)]
    exact h.not_next rfl rfl ht
  cases hprogress : call.progress with
  | asleep => exact Or.inl rfl
  | returned => exact Or.inr rfl
  | entering => exact (hlock (by rw [hprogress]; rfl)).elim
  | notified => exact (hlock (by rw [hprogress]; rfl)).elim
  | roused => exact (hlock (by rw [hprogress]; rfl)).elim
  | testing =>
    obtain ⟨woken, t, ht⟩ := exists_pushTask hc hprogress
    exact (h.not_next rfl rfl ht).elim
  | inline =>
    have ht : s.step (.inlineReturn c) =
        .next { s.setCall c call .returned with executed := s.executed ++ [c] } := by
      simp only [step, hc, if_pos hprogress]
    exact (h.not_next rfl rfl ht).elim

/-- At rest `stop` has not been called, waits, or has returned. -/
theorem Resting.stopping {s : ThreadPool} (h : s.Resting) (hs : s.Steady) :
    s.stopping = .notCalled ∨ s.stopping = .draining ∧ s.taskQueue ≠ [] ∨
      (∃ i worker, s.stopping = .joining i ∧ s.threadList[i]? = some worker ∧
        worker ≠ .exited) ∨ s.stopping = .returned := by
  have hmutex := h.mutex hs.held
  cases hstopping : s.stopping with
  | notCalled => exact Or.inl rfl
  | returned => exact Or.inr (Or.inr (Or.inr rfl))
  | draining =>
    refine Or.inr (Or.inl ⟨rfl, fun hqueue => ?_⟩)
    have ht : s.step .drain = .next { s with stopping := .clearing } := by
      simp only [step, if_pos (And.intro hstopping hmutex), hqueue, List.isEmpty_nil, if_true]
    have hsame := congrArg ThreadPool.stopping (h .drain _ rfl ht)
    rw [hstopping] at hsame
    cases hsame
  | clearing => exact (h.not_next (a := .clearRunning) rfl rfl (if_pos hstopping)).elim
  | notifying =>
    exact (h.not_next (a := .notifyAll) rfl rfl (if_pos ⟨hstopping, hmutex⟩)).elim
  | joining i =>
    have hjoin : s.step .join = s.joinNext i := by simp only [step, hstopping]
    unfold joinNext at hjoin
    cases hi : s.threadList[i]? with
    | none =>
      rw [hi] at hjoin
      exact (h.not_next rfl rfl hjoin).elim
    | some worker =>
      refine Or.inr (Or.inr (Or.inl ⟨i, worker, rfl, hi, ?_⟩))
      rintro rfl
      rw [hi] at hjoin
      exact h.not_next rfl rfl hjoin

/-- A worker that is stuck is at none of the places from which a worker goes
on. -/
theorem Stuck.not_at {s : ThreadPool} (h : s.Stuck) {w : Nat} {worker : Worker}
    (hw : s.threadList[w]? = some worker) (hasleep : worker ≠ .asleep)
    (hexited : worker ≠ .exited) : (∃ task, worker = .executing task) ∧ s.Submitting w := by
  rcases h.workers w worker hw with heq | heq | hexecuting
  · exact absurd heq hasleep
  · exact absurd heq hexited
  · exact hexecuting

/-- A call that is stuck sleeps or has returned. -/
theorem Stuck.call_at {s : ThreadPool} (h : s.Stuck) {c : Nat} {call : Call}
    (hc : s.calls[c]? = some call) : call.progress = .asleep ∨ call.progress = .returned :=
  h.calls call (List.mem_of_getElem? hc)

/-- The places of `stop` at which it is stuck. -/
theorem Stuck.not_stopping {s : ThreadPool} (h : s.Stuck) :
    s.stopping ≠ .clearing ∧ s.stopping ≠ .notifying ∧
      (s.stopping = .draining → s.taskQueue ≠ []) ∧
      ∀ i, s.stopping = .joining i → ∃ worker, s.threadList[i]? = some worker ∧
        worker ≠ .exited := by
  rcases h.stopping with heq | ⟨heq, hqueue⟩ | ⟨i, worker, heq, hi, hworker⟩ | heq
  · simp [heq]
  · simpa [heq] using hqueue
  · simp only [heq, ne_eq, reduceCtorEq, not_false_eq_true, Stopping.joining.injEq, true_and,
      false_implies]
    rintro j rfl
    exact ⟨worker, hi, hworker⟩
  · simp [heq]

/-- Nothing changes when every thread is stuck. -/
theorem Stuck.resting {s : ThreadPool} (h : s.Stuck) : s.Resting := by
  intro a t hown ht
  obtain ⟨hclearing, hnotifying, hdraining, hjoining⟩ := h.not_stopping
  cases moves_of_step ht with
  | initReturn w hw => cases (h.not_at hw (by decide) (by decide)).1.choose_spec
  | enter w hw hrunning => cases (h.not_at hw (by decide) (by decide)).1.choose_spec
  | leave w hw hrunning => cases (h.not_at hw (by decide) (by decide)).1.choose_spec
  | lockWorker w hmutex hw => cases (h.not_at hw (by decide) (by decide)).1.choose_spec
  | lockCall c call hmutex hc hwants =>
    rcases h.call_at hc with heq | heq <;> rw [heq] at hwants <;> cases hwants
  | take w woken task rest calls hw hqueue hnotify =>
    cases (h.not_at hw (by decide) (by decide)).1.choose_spec
  | findEmpty w woken hw hqueue hrunning =>
    cases (h.not_at hw (by decide) (by decide)).1.choose_spec
  | giveUp w woken hw hqueue hrunning =>
    cases (h.not_at hw (by decide) (by decide)).1.choose_spec
  | park w hw => cases (h.not_at hw (by decide) (by decide)).1.choose_spec
  | rouseWorker w hw => cases hown
  | taskReturn w task hw =>
    have hsubmitting := (h.not_at hw Worker.noConfusion Worker.noConfusion).2
    simp only [step, hw, if_pos hsubmitting] at ht
    cases ht
  | call caller progress hprogress hrunning => cases hown
  | full c woken call hc htesting hfull =>
    rcases h.call_at hc with heq | heq <;> rw [heq] at htesting <;> cases htesting
  | push c woken call threadList hc htesting hroom hnotify =>
    rcases h.call_at hc with heq | heq <;> rw [heq] at htesting <;> cases htesting
  | rouseCall c call hc hasleep => cases hown
  | inlineReturn c call hc hinline =>
    rcases h.call_at hc with heq | heq <;> rw [heq] at hinline <;> cases hinline
  | stop hstopping hrunning => cases hown
  | drainAgain hstopping => rfl
  | drained hstopping hmutex hqueue => exact absurd hqueue (hdraining hstopping)
  | clearRunning hstopping => exact absurd hstopping hclearing
  | notifyAll hstopping hmutex => exact absurd hstopping hnotifying
  | joinOne i hstopping hexited =>
    obtain ⟨worker, hi, hworker⟩ := hjoining i hstopping
    rw [hexited] at hi
    exact absurd (Option.some.inj hi).symm hworker
  | joinedAll i hstopping hall =>
    obtain ⟨worker, hi, hworker⟩ := hjoining i hstopping
    rw [List.getElem?_eq_none hall] at hi
    cases hi

/-- **The local view.**  The pool is at rest when each of its threads is stuck. -/
theorem resting_iff_stuck {s : ThreadPool} (hs : s.Steady) : s.Resting ↔ s.Stuck := by
  constructor
  · intro h
    refine ⟨fun w worker hw => h.workers hs hw, fun call hmem => ?_, h.stopping hs⟩
    obtain ⟨c, hc⟩ := List.mem_iff_getElem?.mp hmem
    exact h.calls hs hc
  · exact Stuck.resting

/-! ## The three ways to stop -/

/-- The work is done. -/
structure Idle (s : ThreadPool) : Prop where
  workers : ∀ worker ∈ s.threadList, worker = .asleep
  calls : ∀ call ∈ s.calls, call.progress = .returned
  queue : s.taskQueue = []
  stopping : s.stopping = .notCalled

/-- The worker executes a task whose call of `runTask` sleeps on `m_notFull`. -/
def Blocked (s : ThreadPool) (w : Nat) : Prop :=
  (∃ task, s.threadList[w]? = some (.executing task)) ∧
    ∃ call ∈ s.calls, call.caller = some w ∧ call.progress = .asleep

/-- Every worker that has not left is blocked, and only a worker can make room
in the queue; `stop` waits for ever too, if it has been called. -/
structure Deadlocked (s : ThreadPool) : Prop where
  workers : ∀ (w : Nat) (worker : Worker), s.threadList[w]? = some worker →
    worker = .exited ∨ s.Blocked w
  some : ∃ w, s.Blocked w
  calls : ∀ call ∈ s.calls, call.progress = .asleep ∨ call.progress = .returned
  queue : s.maxQueueSize ≤ s.taskQueue.length
  stopping : s.stopping = .notCalled ∨ s.stopping = .draining ∨
    ∃ i, s.stopping = .joining i ∧ s.Blocked i

/-- `stop` has returned.  Calls that came too late may wait for ever, in front
of a full queue. -/
structure Stopped (s : ThreadPool) : Prop where
  workers : s.AllExited
  calls : ∀ call ∈ s.calls, call.progress = .returned ∨
    call.progress = .asleep ∧ s.maxQueueSize ≤ s.taskQueue.length
  stopping : s.stopping = .returned

/-- A call that sleeps while every thread is stuck sleeps in front of a full
queue. -/
theorem Stuck.full {s : ThreadPool} (h : s.Stuck) (hs : s.Steady) {call : Call}
    (hmem : call ∈ s.calls) (hasleep : call.progress = .asleep) :
    s.maxQueueSize ≤ s.taskQueue.length := by
  have hnone : s.readyCalls = 0 := by
    refine List.countP_eq_zero.mpr fun other hother => ?_
    rcases h.calls other hother with heq | heq <;> rw [heq] <;> exact Bool.false_ne_true
  have hsleepers : 0 < s.sleepers :=
    List.countP_pos_iff.mpr ⟨call, hmem, by rw [notFull_asleep, hasleep]; rfl⟩
  have hclaimed := hs.wakeful.claimed hsleepers
  omega

/-- A worker that sleeps while every thread is stuck has left no task. -/
theorem Stuck.queue_of_asleep {s : ThreadPool} (h : s.Stuck) (hs : s.Steady)
    (hasleep : .asleep ∈ s.threadList) : s.taskQueue = [] := by
  have hnone : s.comingWorkers = 0 := by
    refine List.countP_eq_zero.mpr fun worker hmem => ?_
    obtain ⟨w, hw⟩ := List.mem_iff_getElem?.mp hmem
    rcases h.workers w worker hw with rfl | rfl | ⟨⟨task, rfl⟩, _⟩ <;> exact Bool.false_ne_true
  have hmanned := hs.manned hasleep
  rw [hnone] at hmanned
  exact List.length_eq_zero_iff.mp (Nat.le_zero.mp hmanned)

/-- A task that waits for its own call waits for a call that sleeps. -/
theorem Stuck.blocked {s : ThreadPool} (h : s.Stuck) {w : Nat}
    (hexecuting : ∃ task, s.threadList[w]? = some (.executing task))
    (hsubmitting : s.Submitting w) :
    s.Blocked w := by
  obtain ⟨call, hmem, hcaller, hprogress⟩ := hsubmitting
  exact ⟨hexecuting, call, hmem, hcaller, (h.calls call hmem).resolve_right hprogress⟩

/-- `m_running` is true until `stop` stores it, and nobody has left. -/
theorem Steady.not_exited {s : ThreadPool} (hs : s.Steady)
    (hstopping : s.stopping.cleared = false) {worker : Worker} (hmem : worker ∈ s.threadList) :
    worker ≠ .exited := by
  rintro rfl
  rw [hs.leaving.running (hs.leaving.exited hmem)] at hstopping
  cases hstopping

/-- Stuck threads and an empty queue. -/
theorem Stuck.of_empty {s : ThreadPool} (h : s.Stuck) (hs : s.Steady)
    (hqueue : s.taskQueue = []) : s.Idle ∨ s.Stopped := by
  have hcalls : ∀ call ∈ s.calls, call.progress = .returned := by
    intro call hmem
    refine (h.calls call hmem).resolve_left fun hasleep => ?_
    have hfull := h.full hs hmem hasleep
    rw [hqueue] at hfull
    exact absurd hfull (Nat.not_le_of_lt hs.room)
  have hworkers : ∀ worker ∈ s.threadList, worker = .asleep ∨ worker = .exited := by
    intro worker hmem
    obtain ⟨w, hw⟩ := List.mem_iff_getElem?.mp hmem
    rcases h.workers w worker hw with heq | heq | ⟨_, call, hcall, _, hprogress⟩
    · exact Or.inl heq
    · exact Or.inr heq
    · exact absurd (hcalls call hcall) hprogress
  rcases h.stopping with heq | ⟨_, hne⟩ | ⟨i, worker, heq, hi, hworker⟩ | heq
  · refine Or.inl ⟨fun worker hmem => ?_, hcalls, hqueue, heq⟩
    exact (hworkers worker hmem).resolve_right (hs.not_exited (by rw [heq]; rfl) hmem)
  · exact absurd hqueue hne
  · -- `stop` has notified all workers by now, so the one it waits for is awake
    have hmem := List.mem_of_getElem? hi
    have hasleep := (hworkers worker hmem).resolve_right hworker
    exact absurd hasleep (hs.wakeful.roused.awake (by rw [heq]; rfl) worker hmem).1
  · exact Or.inr ⟨hs.joined.allExited heq, fun call hmem => Or.inl (hcalls call hmem), heq⟩

/-- Stuck threads and tasks in the queue. -/
theorem Stuck.of_nonempty {s : ThreadPool} (h : s.Stuck) (hs : s.Steady)
    (hqueue : s.taskQueue ≠ []) : s.Deadlocked ∨ s.Stopped := by
  have hworkers : ∀ (w : Nat) (worker : Worker), s.threadList[w]? = some worker →
      worker = .exited ∨ s.Blocked w := by
    intro w worker hw
    rcases h.workers w worker hw with rfl | heq | ⟨⟨task, rfl⟩, hsubmitting⟩
    · exact absurd (h.queue_of_asleep hs (List.mem_of_getElem? hw)) hqueue
    · exact Or.inl heq
    · exact Or.inr (h.blocked ⟨task, hw⟩ hsubmitting)
  have hdeadlocked : (∃ w, s.Blocked w) →
      (s.stopping = .notCalled ∨ s.stopping = .draining ∨
        ∃ i, s.stopping = .joining i ∧ s.Blocked i) → s.Deadlocked := by
    rintro ⟨w, hblocked⟩ hstopping
    obtain ⟨_, call, hmem, _, hasleep⟩ := id hblocked
    exact ⟨hworkers, ⟨w, hblocked⟩, h.calls, h.full hs hmem hasleep, hstopping⟩
  have hrunning : s.stopping.cleared = false → ∃ w, s.Blocked w := by
    intro hcleared
    obtain ⟨worker, hmem⟩ := List.exists_mem_of_ne_nil _ hs.threads
    obtain ⟨w, hw⟩ := List.mem_iff_getElem?.mp hmem
    exact ⟨w, (hworkers w worker hw).resolve_left (hs.not_exited hcleared hmem)⟩
  rcases h.stopping with heq | ⟨heq, _⟩ | ⟨i, worker, heq, hi, hworker⟩ | heq
  · exact Or.inl (hdeadlocked (hrunning (by rw [heq]; rfl)) (Or.inl heq))
  · exact Or.inl (hdeadlocked (hrunning (by rw [heq]; rfl)) (Or.inr (Or.inl heq)))
  · have hblocked := (hworkers i worker hi).resolve_left hworker
    exact Or.inl (hdeadlocked ⟨i, hblocked⟩ (Or.inr (Or.inr ⟨i, heq, hblocked⟩)))
  · refine Or.inr ⟨hs.joined.allExited heq, fun call hmem => ?_, heq⟩
    rcases h.calls call hmem with hasleep | hreturned
    · exact Or.inr ⟨hasleep, h.full hs hmem hasleep⟩
    · exact Or.inl hreturned

/-- A blocked worker waits for its own call. -/
theorem Blocked.submitting {s : ThreadPool} {w : Nat} (h : s.Blocked w) : s.Submitting w := by
  obtain ⟨_, call, hmem, hcaller, hasleep⟩ := h
  exact ⟨call, hmem, hcaller, by rw [hasleep]; decide⟩

theorem Idle.stuck {s : ThreadPool} (h : s.Idle) : s.Stuck :=
  ⟨fun _ worker hw => Or.inl (h.workers worker (List.mem_of_getElem? hw)),
    fun call hmem => Or.inr (h.calls call hmem), Or.inl h.stopping⟩

theorem Deadlocked.stuck {s : ThreadPool} (h : s.Deadlocked) (hroom : 0 < s.maxQueueSize) :
    s.Stuck := by
  refine ⟨fun w worker hw => ?_, h.calls, ?_⟩
  · rcases h.workers w worker hw with heq | hblocked
    · exact Or.inr (Or.inl heq)
    · obtain ⟨task, htask⟩ := hblocked.1
      rw [hw] at htask
      exact Or.inr (Or.inr ⟨⟨task, Option.some.inj htask⟩, hblocked.submitting⟩)
  · rcases h.stopping with heq | heq | ⟨i, heq, hblocked⟩
    · exact Or.inl heq
    · refine Or.inr (Or.inl ⟨heq, fun hqueue => ?_⟩)
      have hfull := h.queue
      rw [hqueue] at hfull
      exact absurd hfull (Nat.not_le_of_lt hroom)
    · obtain ⟨task, htask⟩ := hblocked.1
      exact Or.inr (Or.inr (Or.inl ⟨i, _, heq, htask, Worker.noConfusion⟩))

theorem Stopped.stuck {s : ThreadPool} (h : s.Stopped) : s.Stuck := by
  refine ⟨fun _ worker hw => Or.inr (Or.inl (h.workers worker (List.mem_of_getElem? hw))),
    fun call hmem => ?_, Or.inr (Or.inr (Or.inr h.stopping))⟩
  rcases h.calls call hmem with hreturned | hasleep
  · exact Or.inr hreturned
  · exact Or.inl hasleep.1

/-- **Where the pool stops by itself.**  In every state that any run of a pool
with threads reaches, none of the pool's own steps changes anything exactly if
the work is done, or every worker that is left is blocked in front of the full
queue, or `stop` has returned. -/
theorem resting_iff {numThread maxQueueSize : Nat} {s : ThreadPool} (hthreads : 0 < numThread)
    (h : new numThread maxQueueSize = .ok s) (as : List Action) :
    Throughout step (fun t => t.Resting ↔ t.Idle ∨ t.Deadlocked ∨ t.Stopped) s as := by
  have hall : Throughout step Steady s as :=
    throughout_of_invariant step (steady_new hthreads h)
      (fun _ _ _ hs ht => hs.moves (moves_of_step ht)) as
  refine hall.mono fun t ht => ?_
  rw [resting_iff_stuck ht]
  constructor
  · intro hstuck
    by_cases hqueue : t.taskQueue = []
    · rcases hstuck.of_empty ht hqueue with hidle | hstopped
      · exact Or.inl hidle
      · exact Or.inr (Or.inr hstopped)
    · exact Or.inr (hstuck.of_nonempty ht hqueue)
  · rintro (hidle | hdeadlocked | hstopped)
    · exact hidle.stuck
    · exact hdeadlocked.stuck ht.room
    · exact hstopped.stuck

/-- The only worker executes a task that submits another one while the queue is
full. -/
def submitToFullQueue : List Action :=
  [.initReturn 0, .runTask none, .lock (.call 0), .pushTask 0 none, .testRunning 0,
    .lock (.worker 0), .takeTask 0 none, .runTask none, .lock (.call 1), .pushTask 1 none,
    .runTask (some 0), .lock (.call 2), .pushTask 2 none]

theorem resting_iff_submitToFullQueue :
    ∃ s, new 1 1 = .ok s ∧
      (run step s submitToFullQueue).map
          (fun t => (t.threadList, t.taskQueue, t.calls.map Call.progress)) =
        some ([.executing 0], [1], [.returned, .returned, .asleep]) ∧
      Throughout step (fun t => t.Resting ↔ t.Idle ∨ t.Deadlocked ∨ t.Stopped) s
        submitToFullQueue :=
  ⟨_, rfl, by decide +kernel, resting_iff Nat.one_pos (show new 1 1 = .ok _ from rfl) _⟩

/-- **The pool comes to rest.**  From every state that a run of a pool with
threads reaches, every schedule of the pool's own steps does a bounded amount
of work, and some schedule no longer than the bound leads to one of the three
ways in which the pool stops. -/
theorem comes_to_rest {numThread maxQueueSize : Nat} {s t : ThreadPool} (hthreads : 0 < numThread)
    (h : new numThread maxQueueSize = .ok s) {as : List Action} (hrun : run step s as = some t) :
    (∀ bs u, (∀ b ∈ bs, b.own = true) → run step t bs = some u →
      bs.countP Action.works ≤ t.potential) ∧
    ∃ bs u, (∀ b ∈ bs, b.own = true) ∧ bs.length ≤ t.potential ∧ run step t bs = some u ∧
      (u.Idle ∨ u.Deadlocked ∨ u.Stopped) := by
  constructor
  · intro bs u hown hbs
    have hbound := amortised.run hbs
    have hfree : (bs.map Action.charge).sum = 0 := by
      refine List.sum_eq_zero fun n hn => ?_
      obtain ⟨b, hb, rfl⟩ := List.mem_map.mp hn
      exact Action.charge_of_own (hown b hb)
    omega
  · obtain ⟨bs, u, hown, hlength, hbs, hrest⟩ :=
      exists_run_atRest
        (fun _ (a : Action) _ (hown : a.own = true) => potential_lt_of_own hown) t
    have hiff := throughout_iff_run.mp (resting_iff hthreads h (as ++ bs)) (as ++ bs) u
      (List.prefix_refl _) (by rw [run_append hrun, hbs])
    exact ⟨bs, u, hown, hlength, hbs, hiff.mp hrest⟩

theorem comes_to_rest_submitToFullQueue :
    ∃ s t, new 1 1 = .ok s ∧ run step s submitToFullQueue = some t ∧
      (∀ bs u, (∀ b ∈ bs, b.own = true) → run step t bs = some u →
        bs.countP Action.works ≤ t.potential) ∧
      ∃ bs u, (∀ b ∈ bs, b.own = true) ∧ bs.length ≤ t.potential ∧ run step t bs = some u ∧
        (u.Idle ∨ u.Deadlocked ∨ u.Stopped) := by
  obtain ⟨s, hs⟩ : ∃ s, new 1 1 = .ok s := ⟨_, rfl⟩
  obtain ⟨t, ht⟩ : ∃ t, run step s submitToFullQueue = some t := by
    cases hs
    exact Option.isSome_iff_exists.mp (by decide +kernel)
  exact ⟨s, t, hs, ht, comes_to_rest Nat.one_pos hs ht⟩

/-! ## Tasks that submit no tasks -/

instance (s : ThreadPool) : ∀ a : Action, Decidable (s.Quiet a)
  | .pushTask _ _ => inferInstanceAs (Decidable (_ ∨ _))
  | .initReturn _ => isTrue trivial
  | .testRunning _ => isTrue trivial
  | .lock _ => isTrue trivial
  | .takeTask _ _ => isTrue trivial
  | .park _ => isTrue trivial
  | .rouseWorker _ => isTrue trivial
  | .taskReturn _ => isTrue trivial
  | .runTask _ => isTrue trivial
  | .rouseCall _ => isTrue trivial
  | .inlineReturn _ => isTrue trivial
  | .stop => isTrue trivial
  | .drain => isTrue trivial
  | .clearRunning => isTrue trivial
  | .notifyAll => isTrue trivial
  | .join => isTrue trivial

/-- No task calls `runTask`, and no call pushes once `stop` has found the queue
empty. -/
def Orderly (s : ThreadPool) (a : Action) : Prop :=
  s.Quiet a ∧ a.fromTask = false

instance (s : ThreadPool) (a : Action) : Decidable (s.Orderly a) :=
  inferInstanceAs (Decidable (_ ∧ _))

/-- Every call comes from outside the pool, and a call that has returned has
pushed its task. -/
structure Submitted (s : ThreadPool) : Prop where
  outside : ∀ (c : Nat) (call : Call), s.calls[c]? = some call → call.caller = none
  pushed : ∀ (c : Nat) (call : Call), s.calls[c]? = some call → call.progress = .returned →
    c ∈ s.pushed

theorem submitted_new {numThread maxQueueSize : Nat} {s : ThreadPool}
    (h : new numThread maxQueueSize = .ok s) : s.Submitted := by
  obtain ⟨_, rfl⟩ := new_eq_ok h
  exact ⟨fun c call hget => (by simp at hget), fun c call hget => by simp at hget⟩

/-- A call moves, but does not return. -/
theorem Submitted.setCall {s : ThreadPool} (h : s.Submitted) {c : Nat} {call : Call}
    {progress : Progress} (hc : s.calls[c]? = some call) (hprogress : progress ≠ .returned) :
    (s.setCall c call progress).Submitted :=
  ⟨forall_set (fun d old _ hd => h.outside d old hd) (h.outside c call hc),
    forall_set (fun d old _ hd => h.pushed d old hd) fun heq => absurd heq hprogress⟩

/-- Every step of an orderly run keeps the calls outside and their tasks
pushed. -/
theorem Submitted.moves {s t : ThreadPool} {a : Action} (h : s.Submitted) (ha : s.Accounted)
    (hgood : s.Orderly a) (hmoves : s.Moves a t) : t.Submitted := by
  cases hmoves with
  | initReturn w hw => exact ⟨h.outside, h.pushed⟩
  | enter w hw hrunning => exact ⟨h.outside, h.pushed⟩
  | leave w hw hrunning => exact ⟨h.outside, h.pushed⟩
  | lockWorker w hmutex hw => exact ⟨h.outside, h.pushed⟩
  | lockCall c call hmutex hc hwants =>
    have hset : (s.setCall c call .testing).Submitted := h.setCall hc (by decide)
    exact ⟨hset.outside, hset.pushed⟩
  | take w woken task rest calls hw hqueue hnotify =>
    have hnotified := Condition.notified_of_notifyOne hnotify
    refine ⟨hnotified.forall h.outside fun c call hc _ => h.outside c call hc,
      hnotified.forall h.pushed fun c call hc hasleep hreturned => ?_⟩
    cases hreturned
  | findEmpty w woken hw hqueue hrunning => exact ⟨h.outside, h.pushed⟩
  | giveUp w woken hw hqueue hrunning => exact ⟨h.outside, h.pushed⟩
  | park w hw => exact ⟨h.outside, h.pushed⟩
  | rouseWorker w hw => exact ⟨h.outside, h.pushed⟩
  | taskReturn w task hw => exact ⟨h.outside, h.pushed⟩
  | call caller progress hprogress hrunning =>
    refine ⟨forall_concat h.outside ?_, forall_concat h.pushed fun hreturned => ?_⟩
    · cases caller with
      | none => rfl
      | some w => cases hgood.2
    · rcases hprogress with ⟨_, rfl⟩ | ⟨_, rfl⟩ <;> cases hreturned
  | full c woken call hc htesting hfull =>
    have hset : (s.setCall c call .asleep).Submitted := h.setCall hc (by decide)
    exact ⟨hset.outside, hset.pushed⟩
  | push c woken call threadList hc htesting hroom hnotify =>
    refine ⟨forall_set (fun d old _ hd => h.outside d old hd) (h.outside c call hc),
      forall_set (fun d old _ hd hreturned => ?_) fun _ => ?_⟩
    · exact List.mem_append_left _ (h.pushed d old hd hreturned)
    · exact List.mem_append_right _ (List.mem_singleton_self c)
  | rouseCall c call hc hasleep => exact h.setCall hc (by decide)
  | inlineReturn c call hc hinline => exact absurd hinline (ha.inline c call hc)
  | stop hstopping hrunning => exact ⟨h.outside, h.pushed⟩
  | drainAgain hstopping => exact h
  | drained hstopping hmutex hqueue => exact ⟨h.outside, h.pushed⟩
  | clearRunning hstopping => exact ⟨h.outside, h.pushed⟩
  | notifyAll hstopping hmutex => exact ⟨h.outside, h.pushed⟩
  | joinOne i hstopping hexited => exact ⟨h.outside, h.pushed⟩
  | joinedAll i hstopping hall => exact ⟨h.outside, h.pushed⟩

/-- Every call of `runTask` has returned, and its task has been executed
once. -/
def Completed (s : ThreadPool) : Prop :=
  ∀ (c : Nat) (call : Call), s.calls[c]? = some call →
    call.progress = .returned ∧ s.executed.count c = 1

/-- The queue is empty and nobody is in a task: what was pushed was executed. -/
theorem executedOnce_of_nobody {s : ThreadPool} (ho : s.Ordered) (ha : s.Accounted)
    (hnobody : ∀ worker ∈ s.threadList, ∀ task, worker ≠ .executing task)
    (hqueue : s.taskQueue = []) : s.ExecutedOnce := by
  intro task htask
  have hnone : s.threadList.countP (· == .executing task) = 0 :=
    List.countP_eq_zero.mpr fun worker hmem => by simpa using hnobody worker hmem task
  have hcount := ha.counts task
  rw [hnone, Nat.add_zero] at hcount
  have hhistory := ho.history
  rw [hqueue, List.append_nil] at hhistory
  rw [← hcount, ← hhistory]
  exact List.count_eq_one_of_mem ho.once htask

/-- All calls have returned, the queue is empty and nobody is in a task. -/
theorem completed_of_returned {s : ThreadPool} (hs : s.Sound) (hb : s.Submitted)
    (hnobody : ∀ worker ∈ s.threadList, ∀ task, worker ≠ .executing task)
    (hqueue : s.taskQueue = []) (hcalls : ∀ call ∈ s.calls, call.progress = .returned) :
    s.Completed := by
  intro c call hc
  have hreturned := hcalls call (List.mem_of_getElem? hc)
  have honce := executedOnce_of_nobody hs.ordered hs.accounted hnobody hqueue
  exact ⟨hreturned, honce c (hb.pushed c call hc hreturned)⟩

/-- What an orderly run keeps. -/
structure Tidy (s : ThreadPool) : Prop where
  sound : s.Sound
  settled : s.Settled
  submitted : s.Submitted
  steady : s.Steady

theorem Tidy.moves {s t : ThreadPool} {a : Action} (h : s.Tidy) (hgood : s.Orderly a)
    (hmoves : s.Moves a t) : t.Tidy :=
  ⟨h.sound.moves hmoves, h.settled.moves hgood.1 hmoves,
    h.submitted.moves h.sound.accounted hgood hmoves, h.steady.moves hmoves⟩

/-- Nobody is blocked when the calls come from outside the pool. -/
theorem Tidy.not_blocked {s : ThreadPool} (h : s.Tidy) (w : Nat) : ¬ s.Blocked w := by
  rintro ⟨_, call, hmem, hcaller, _⟩
  obtain ⟨c, hc⟩ := List.mem_iff_getElem?.mp hmem
  rw [h.submitted.outside c call hc] at hcaller
  cases hcaller

/-- `stop` has returned, and no call has come too late. -/
theorem Tidy.completed_of_stopped {s : ThreadPool} (h : s.Tidy) (hstopped : s.Stopped) :
    s.Completed := by
  have hqueue : s.taskQueue = [] := by
    apply h.settled.queue <;> rw [hstopped.stopping] <;> decide
  refine completed_of_returned h.sound h.submitted (fun worker hmem task => ?_) hqueue
    fun call hmem => ?_
  · rw [hstopped.workers worker hmem]
    exact Worker.noConfusion
  · refine (hstopped.calls call hmem).resolve_right fun hasleep => ?_
    have hfull := hasleep.2
    rw [hqueue] at hfull
    exact absurd hfull (Nat.not_le_of_lt h.steady.room)

theorem Tidy.completed_of_idle {s : ThreadPool} (h : s.Tidy) (hidle : s.Idle) : s.Completed := by
  refine completed_of_returned h.sound h.submitted (fun worker hmem task => ?_) hidle.queue
    hidle.calls
  rw [hidle.workers worker hmem]
  exact Worker.noConfusion

/-- **Nobody waits for ever.**  In a run in which tasks submit no tasks and no
call pushes once `stop` has found the queue empty: whenever the pool is at
rest, every call of `runTask` has returned and its task has been executed
exactly once, and `stop` has returned if it has been called. -/
theorem completed_at_rest {numThread maxQueueSize : Nat} {s : ThreadPool}
    (hthreads : 0 < numThread) (h : new numThread maxQueueSize = .ok s) {as : List Action}
    (hgood : Along step Orderly s as) :
    Throughout step (fun t => t.Resting →
      t.Completed ∧ (t.stopping = .notCalled ∨ t.stopping = .returned)) s as := by
  have hinit : s.Tidy :=
    ⟨sound_new hthreads h, settled_new h, submitted_new h, steady_new hthreads h⟩
  have htidy : Throughout step Tidy s as :=
    throughout_of_along hinit (fun _ _ _ hs hg ht => hs.moves hg (moves_of_step ht)) hgood
  refine (htidy.and (resting_iff hthreads h as)).mono fun t ht hrest => ?_
  obtain ⟨htidy, hiff⟩ := ht
  rcases hiff.mp hrest with hidle | hdeadlocked | hstopped
  · exact ⟨htidy.completed_of_idle hidle, Or.inl hidle.stopping⟩
  · obtain ⟨w, hblocked⟩ := hdeadlocked.some
    exact absurd hblocked (htidy.not_blocked w)
  · exact ⟨htidy.completed_of_stopped hstopped, Or.inr hstopped.stopping⟩

theorem completed_at_rest_submitThenStop :
    ∃ s, new 1 1 = .ok s ∧
      (run step s submitThenStop).map (fun t => (t.stopping, t.executed)) =
        some (.returned, [0]) ∧
      Throughout step (fun t => t.Resting →
        t.Completed ∧ (t.stopping = .notCalled ∨ t.stopping = .returned)) s submitThenStop :=
  ⟨_, rfl, by decide +kernel,
    completed_at_rest Nat.one_pos (show new 1 1 = .ok _ from rfl) (by decide +kernel)⟩

end ThreadPool

end CppWeb.Pool
