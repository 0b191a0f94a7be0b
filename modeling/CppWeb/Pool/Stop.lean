/-
  Pool/Stop.lean --- which tasks `stop` loses.

  `stop` waits for an empty queue, lets go of the mutex and only then clears
  `m_running`.  A call of `runTask` that is past its assertion can push in
  between, or later still, when it has slept on `m_notFull`; and a worker looks
  at `m_running`, not at the queue, before it calls `takeTask` again.  The task
  is lost when the last worker leaves its loop while the queue is not empty, or
  when it comes after the last worker has left; every other accepted task has
  been executed once when all workers have left, which is before `stop` has
  joined them.
-/
import CppWeb.Pool.Wakeup

set_option autoImplicit false

namespace CppWeb.Pool

open CppWeb.Foundation

namespace ThreadPool

/-- All workers have left `runInThread`. -/
def AllExited (s : ThreadPool) : Prop := ∀ worker ∈ s.threadList, worker = .exited

instance (s : ThreadPool) : Decidable s.AllExited :=
  inferInstanceAs (Decidable (∀ worker ∈ s.threadList, _))

/-- Every accepted task has been executed exactly once. -/
def ExecutedOnce (s : ThreadPool) : Prop := ∀ task ∈ s.pushed, s.executed.count task = 1

instance (s : ThreadPool) : Decidable s.ExecutedOnce :=
  inferInstanceAs (Decidable (∀ task ∈ s.pushed, _))

/-- The steps that leave a task behind: the last worker leaves its loop while
the queue is not empty, or a call pushes after the last worker has left. -/
def Abandons (s : ThreadPool) : Action → Prop
  | .testRunning w =>
      s.threadList[w]? = some .loop ∧ s.running = false ∧ s.taskQueue ≠ [] ∧
        ∀ (v : Nat) (worker : Worker), v ≠ w → s.threadList[v]? = some worker → worker = .exited
  | .pushTask c none =>
      (∃ call : Call, s.calls[c]? = some call ∧ call.progress = .testing) ∧
        s.taskQueue.length < s.maxQueueSize ∧ s.AllExited
  | _ => False

theorem others_exited_iff {s : ThreadPool} {w : Nat} :
    (∀ v < s.threadList.length, v ≠ w → s.threadList[v]? = some .exited) ↔
      ∀ (v : Nat) (worker : Worker), v ≠ w → s.threadList[v]? = some worker → worker = .exited := by
  constructor
  · intro h v worker hne hv
    have hexited := h v (List.getElem?_eq_some_iff.mp hv).1 hne
    exact Option.some.inj (hv.symm.trans hexited)
  · intro h v hlt hne
    have hv := List.getElem?_eq_getElem hlt
    rw [hv, h v _ hne hv]

instance (s : ThreadPool) (a : Action) : Decidable (s.Abandons a) := by
  unfold Abandons
  split
  · rename_i w
    exact decidable_of_iff (s.threadList[w]? = some .loop ∧ s.running = false ∧
      s.taskQueue ≠ [] ∧ ∀ v < s.threadList.length, v ≠ w → s.threadList[v]? = some .exited)
      (by rw [others_exited_iff])
  · rename_i c
    exact decidable_of_iff ((∃ call ∈ s.calls[c]?, call.progress = .testing) ∧
      s.taskQueue.length < s.maxQueueSize ∧ s.AllExited) Iff.rfl
  · exact inferInstance

/-! ## Taken tasks -/

/-- The pool has threads, so that no call executes its own task, and a task
that was taken is being executed or has been. -/
structure Accounted (s : ThreadPool) : Prop where
  threads : s.threadList ≠ []
  inline : ∀ (c : Nat) (call : Call), s.calls[c]? = some call → call.progress ≠ .inline
  counts : ∀ task, (s.taken.map Prod.snd).count task =
    s.executed.count task + s.threadList.countP (· == .executing task)

theorem accounted_new {numThread maxQueueSize : Nat} {s : ThreadPool} (hthreads : 0 < numThread)
    (h : new numThread maxQueueSize = .ok s) : s.Accounted := by
  obtain ⟨_, rfl⟩ := new_eq_ok h
  refine ⟨fun hnil => ?_, fun c call hget => ?_, fun task => ?_⟩
  · have hlength := congrArg List.length hnil
    rw [List.length_replicate] at hlength
    exact absurd hlength (Nat.ne_of_gt hthreads)
  · simp at hget
  · rw [List.countP_replicate]
    rfl

/-- A worker moves from a place outside a task to another one. -/
theorem Accounted.setWorker {s : ThreadPool} (h : s.Accounted) {w : Nat} {old worker : Worker}
    (hw : s.threadList[w]? = some old) (hold : ∀ task, old ≠ .executing task)
    (hworker : ∀ task, worker ≠ .executing task) : (s.setWorker w worker).Accounted := by
  refine ⟨ne_nil_set h.threads, h.inline, fun task => ?_⟩
  have hcount := countP_set (· == .executing task) worker hw
  rw [if_neg (by simpa using hold task), if_neg (by simpa using hworker task)] at hcount
  rw [ThreadPool.setWorker, h.counts task]
  exact congrArg (s.executed.count task + ·) hcount.symm

/-- Steps that touch no worker, no call and no history. -/
theorem Accounted.congr {s t : ThreadPool} (h : s.Accounted)
    (hthreads : t.threadList = s.threadList) (hcalls : t.calls = s.calls)
    (htaken : t.taken = s.taken) (hexecuted : t.executed = s.executed) : t.Accounted := by
  refine ⟨?_, ?_, ?_⟩
  · rw [hthreads]
    exact h.threads
  · rw [hcalls]
    exact h.inline
  · rw [htaken, hexecuted, hthreads]
    exact h.counts

/-- A call moves. -/
theorem Accounted.setCall {s : ThreadPool} (h : s.Accounted) {c : Nat} {call : Call}
    {progress : Progress} (hprogress : progress ≠ .inline) :
    (s.setCall c call progress).Accounted :=
  ⟨h.threads, forall_set (fun d old _ hd => h.inline d old hd) hprogress, h.counts⟩

/-- Threads that are not in a task, after waking some of them. -/
theorem countP_executing_notified {threads after : List Worker}
    (h : notEmpty.Notified threads after) (task : Task) :
    after.countP (· == .executing task) = threads.countP (· == .executing task) := by
  cases h with
  | nobody _ => rfl
  | one i worker hget hasleep =>
    have hcount := countP_set (· == .executing task) (notEmpty.wake worker) hget
    obtain rfl : worker = .asleep := by simpa using hasleep
    simpa using hcount

theorem countP_executing_notifyAll (threads : List Worker) (task : Task) :
    (notEmpty.notifyAll threads).countP (· == .executing task) =
      threads.countP (· == .executing task) := by
  rw [Condition.notifyAll, List.countP_map]
  refine List.countP_congr fun worker _ => ?_
  cases worker <;> simp

/-- Every step keeps the account. -/
theorem Accounted.moves {s t : ThreadPool} {a : Action} (h : s.Accounted)
    (hmoves : s.Moves a t) : t.Accounted := by
  cases hmoves with
  | initReturn w hw => exact h.setWorker hw (by simp) (by simp)
  | enter w hw hrunning => exact h.setWorker hw (by simp) (by simp)
  | leave w hw hrunning => exact h.setWorker hw (by simp) (by simp)
  | lockWorker w hmutex hw =>
    have hset : (s.setWorker w .testing).Accounted := h.setWorker hw (by simp) (by simp)
    exact hset.congr rfl rfl rfl rfl
  | lockCall c call hmutex hc hwants =>
    have hset : (s.setCall c call .testing).Accounted := h.setCall (by decide)
    exact hset.congr rfl rfl rfl rfl
  | take w woken task rest calls hw hqueue hnotify =>
    have hnotified := Condition.notified_of_notifyOne hnotify
    refine ⟨ne_nil_set h.threads, ?_, fun other => ?_⟩
    · exact hnotified.forall h.inline fun _ _ _ _ heq => by cases heq
    · have hcount := countP_set (· == .executing other) (.executing task) hw
      have hcounts := h.counts other
      change ((s.taken ++ [(w, task)]).map Prod.snd).count other = s.executed.count other +
        (s.threadList.set w (.executing task)).countP (· == .executing other)
      rw [List.map_append, List.count_append, List.map_singleton, List.count_singleton]
      by_cases heq : task = other
      · subst heq
        simp only [beq_self_eq_true, if_true] at hcount ⊢
        simp at hcount
        omega
      · simp [heq] at hcount ⊢
        omega
  | findEmpty w woken hw hqueue hrunning => exact h.setWorker hw (by simp) (by simp)
  | giveUp w woken hw hqueue hrunning =>
    have hset : (s.setWorker w .loop).Accounted := h.setWorker hw (by simp) (by simp)
    exact hset.congr rfl rfl rfl rfl
  | park w hw =>
    have hset : (s.setWorker w .asleep).Accounted := h.setWorker hw (by simp) (by simp)
    exact hset.congr rfl rfl rfl rfl
  | rouseWorker w hw => exact h.setWorker hw (by simp) (by simp)
  | taskReturn w task hw =>
    refine ⟨ne_nil_set h.threads, h.inline, fun other => ?_⟩
    have hcount := countP_set (· == .executing other) .loop hw
    have hcounts := h.counts other
    change (s.taken.map Prod.snd).count other = (s.executed ++ [task]).count other +
      (s.threadList.set w .loop).countP (· == .executing other)
    rw [List.count_append, List.count_singleton]
    by_cases heq : task = other
    · subst heq
      simp at hcount ⊢
      omega
    · simp [heq] at hcount ⊢
      omega
  | call caller progress hprogress hrunning =>
    refine ⟨h.threads, forall_concat h.inline ?_, h.counts⟩
    rcases hprogress with ⟨hnil, _⟩ | ⟨_, rfl⟩
    · exact absurd hnil h.threads
    · exact Progress.noConfusion
  | full c woken call hc htesting hfull =>
    have hset : (s.setCall c call .asleep).Accounted := h.setCall (by decide)
    exact hset.congr rfl rfl rfl rfl
  | push c woken call threadList hc htesting hroom hnotify =>
    have hnotified := Condition.notified_of_notifyOne hnotify
    have hset : (s.setCall c call .returned).Accounted := h.setCall (by decide)
    refine ⟨fun hnil => h.threads ?_, hset.inline, fun task => ?_⟩
    · have hlength := hnotified.length_eq
      change threadList = [] at hnil
      rw [hnil] at hlength
      exact List.length_eq_zero_iff.mp hlength.symm
    · change (s.taken.map Prod.snd).count task =
        s.executed.count task + threadList.countP (· == .executing task)
      rw [countP_executing_notified hnotified]
      exact h.counts task
  | rouseCall c call hc hasleep => exact h.setCall (by decide)
  | inlineReturn c call hc hinline => exact absurd hinline (h.inline c call hc)
  | stop hstopping hrunning => exact h.congr rfl rfl rfl rfl
  | drainAgain hstopping => exact h
  | drained hstopping hmutex hqueue => exact h.congr rfl rfl rfl rfl
  | clearRunning hstopping => exact h.congr rfl rfl rfl rfl
  | notifyAll hstopping hmutex =>
    refine ⟨fun hnil => h.threads (List.map_eq_nil_iff.mp hnil), h.inline, fun task => ?_⟩
    change (s.taken.map Prod.snd).count task =
      s.executed.count task + (notEmpty.notifyAll s.threadList).countP (· == .executing task)
    rw [countP_executing_notifyAll]
    exact h.counts task
  | joinOne i hstopping hexited => exact h.congr rfl rfl rfl rfl
  | joinedAll i hstopping hall => exact h.congr rfl rfl rfl rfl

/-- When all workers have left and the queue is empty, every accepted task has
been executed once. -/
theorem executedOnce_of_allExited {s : ThreadPool} (ho : s.Ordered) (ha : s.Accounted)
    (hexited : s.AllExited) (hqueue : s.taskQueue = []) : s.ExecutedOnce := by
  intro task htask
  have hnobody : s.threadList.countP (· == .executing task) = 0 := by
    refine List.countP_eq_zero.mpr fun worker hmem => ?_
    rw [hexited worker hmem]
    simp
  have hcount := ha.counts task
  rw [hnobody, Nat.add_zero] at hcount
  have hhistory := ho.history
  rw [hqueue, List.append_nil] at hhistory
  rw [← hcount, ← hhistory]
  exact List.count_eq_one_of_mem ho.once htask

/-- A task in the queue has not been executed. -/
theorem not_executedOnce_of_queue {s : ThreadPool} (ho : s.Ordered) (ha : s.Accounted)
    (hqueue : s.taskQueue ≠ []) : ¬ s.ExecutedOnce := by
  intro honce
  obtain ⟨task, htask⟩ := List.exists_mem_of_ne_nil _ hqueue
  have hpushed : task ∈ s.pushed := by
    rw [ho.history]
    exact List.mem_append_right _ htask
  have hnot : task ∉ s.taken.map Prod.snd := by
    have hnodup := ho.once
    rw [ho.history] at hnodup
    exact fun hmem => (List.disjoint_of_nodup_append hnodup) hmem htask
  have hcount := ha.counts task
  rw [List.count_eq_zero_of_not_mem hnot, honce task hpushed] at hcount
  omega

/-! ## The last worker -/

/-- When all workers have left, they have left an empty queue. -/
def Drained (s : ThreadPool) : Prop := s.AllExited → s.taskQueue = []

/-- A worker that has not left. -/
theorem not_allExited_of_mem {s : ThreadPool} {worker : Worker} (hmem : worker ∈ s.threadList)
    (hworker : worker ≠ .exited) : ¬ s.AllExited :=
  fun h => hworker (h worker hmem)

/-- A worker moves, but not to the exit. -/
theorem Drained.of_mem {s : ThreadPool} {worker : Worker} (hmem : worker ∈ s.threadList)
    (hworker : worker ≠ .exited) : s.Drained :=
  fun hexited => absurd hexited (not_allExited_of_mem hmem hworker)

/-- The steps that leave no task behind. -/
theorem Drained.moves {s t : ThreadPool} {a : Action} (h : s.Drained) (hgood : ¬ s.Abandons a)
    (hmoves : s.Moves a t) : t.Drained := by
  cases hmoves with
  | initReturn w hw => exact .of_mem (mem_set_of_getElem? Worker.loop hw) (by decide)
  | enter w hw hrunning => exact .of_mem (mem_set_of_getElem? Worker.entering hw) (by decide)
  | leave w hw hrunning =>
    -- all workers have left now, so this one was the last
    intro hexited
    by_contra hqueue
    refine hgood ⟨hw, hrunning, hqueue, fun v worker hne hv => hexited worker ?_⟩
    refine List.mem_iff_getElem?.mpr ⟨v, ?_⟩
    rw [setWorker, List.getElem?_set_ne (Ne.symm hne)]
    exact hv
  | lockWorker w hmutex hw => exact .of_mem (mem_set_of_getElem? Worker.testing hw) (by decide)
  | lockCall c call hmutex hc hwants => exact h
  | take w woken task rest calls hw hqueue hnotify =>
    exact .of_mem (mem_set_of_getElem? (Worker.executing task) hw) Worker.noConfusion
  | findEmpty w woken hw hqueue hrunning => exact fun _ => hqueue
  | giveUp w woken hw hqueue hrunning => exact fun _ => hqueue
  | park w hw => exact .of_mem (mem_set_of_getElem? Worker.asleep hw) (by decide)
  | rouseWorker w hw => exact .of_mem (mem_set_of_getElem? Worker.entering hw) (by decide)
  | taskReturn w task hw => exact .of_mem (mem_set_of_getElem? Worker.loop hw) (by decide)
  | call caller progress hprogress hrunning => exact h
  | full c woken call hc htesting hfull => exact h
  | push c woken call threadList hc htesting hroom hnotify =>
    intro hexited
    exfalso
    cases Condition.notified_of_notifyOne hnotify with
    | one i worker hget hasleep =>
      exact not_allExited_of_mem (mem_set_of_getElem? (notEmpty.wake worker) hget) (by simp) hexited
    | nobody hall =>
      cases woken with
      | none => exact hgood ⟨⟨call, hc, htesting⟩, hroom, hexited⟩
      | some i =>
        -- nobody is asleep, so nobody can be the one that is woken
        rw [Condition.notifyOne] at hnotify
        split at hnotify
        · rename_i worker hget
          rw [if_neg] at hnotify
          · cases hnotify
          · rw [hall worker (List.mem_of_getElem? hget)]
            exact Bool.false_ne_true
        · cases hnotify
  | rouseCall c call hc hasleep => exact h
  | inlineReturn c call hc hinline => exact h
  | stop hstopping hrunning => exact h
  | drainAgain hstopping => exact h
  | drained hstopping hmutex hqueue => exact h
  | clearRunning hstopping => exact h
  | notifyAll hstopping hmutex =>
    intro hexited
    refine h fun worker hmem => ?_
    have hmapped := hexited _ (List.mem_map_of_mem hmem)
    split at hmapped
    · cases hmapped
    · exact hmapped
  | joinOne i hstopping hexited => exact h
  | joinedAll i hstopping hall => exact h

/-! ## Joining -/

/-- The threads that `stop` has joined have ended. -/
def Joined (s : ThreadPool) : Prop :=
  match s.stopping with
  | .joining i => ∀ j < i, s.threadList[j]? = some .exited
  | .returned => ∀ j < s.threadList.length, s.threadList[j]? = some .exited
  | _ => True

/-- A thread that has ended has ended for good. -/
theorem exited_of_moves {s t : ThreadPool} {a : Action} (hmoves : s.Moves a t) :
    t.threadList.length = s.threadList.length ∧
      ∀ j : Nat, s.threadList[j]? = some .exited → t.threadList[j]? = some .exited := by
  have hset : ∀ (w : Nat) (old worker : Worker), s.threadList[w]? = some old → old ≠ .exited →
      ∀ j : Nat, s.threadList[j]? = some .exited →
        (s.threadList.set w worker)[j]? = some .exited := by
    intro w old worker hw hold j hj
    have hne : w ≠ j := by
      rintro rfl
      rw [hw] at hj
      exact hold (Option.some.inj hj)
    rw [List.getElem?_set_ne hne]
    exact hj
  cases hmoves with
  | initReturn w hw => exact ⟨List.length_set, hset w _ _ hw (by decide)⟩
  | enter w hw hrunning => exact ⟨List.length_set, hset w _ _ hw (by decide)⟩
  | leave w hw hrunning => exact ⟨List.length_set, hset w _ _ hw (by decide)⟩
  | lockWorker w hmutex hw => exact ⟨List.length_set, hset w _ _ hw (by decide)⟩
  | lockCall c call hmutex hc hwants => exact ⟨rfl, fun j hj => hj⟩
  | take w woken task rest calls hw hqueue hnotify =>
    exact ⟨List.length_set, hset w _ _ hw (by decide)⟩
  | findEmpty w woken hw hqueue hrunning => exact ⟨List.length_set, hset w _ _ hw (by decide)⟩
  | giveUp w woken hw hqueue hrunning => exact ⟨List.length_set, hset w _ _ hw (by decide)⟩
  | park w hw => exact ⟨List.length_set, hset w _ _ hw (by decide)⟩
  | rouseWorker w hw => exact ⟨List.length_set, hset w _ _ hw (by decide)⟩
  | taskReturn w task hw => exact ⟨List.length_set, hset w _ _ hw Worker.noConfusion⟩
  | call caller progress hprogress hrunning => exact ⟨rfl, fun j hj => hj⟩
  | full c woken call hc htesting hfull => exact ⟨rfl, fun j hj => hj⟩
  | push c woken call threadList hc htesting hroom hnotify =>
    have hnotified := Condition.notified_of_notifyOne hnotify
    exact ⟨hnotified.length_eq, fun j hj => hnotified.getElem? hj rfl⟩
  | rouseCall c call hc hasleep => exact ⟨rfl, fun j hj => hj⟩
  | inlineReturn c call hc hinline => exact ⟨rfl, fun j hj => hj⟩
  | stop hstopping hrunning => exact ⟨rfl, fun j hj => hj⟩
  | drainAgain hstopping => exact ⟨rfl, fun j hj => hj⟩
  | drained hstopping hmutex hqueue => exact ⟨rfl, fun j hj => hj⟩
  | clearRunning hstopping => exact ⟨rfl, fun j hj => hj⟩
  | notifyAll hstopping hmutex =>
    refine ⟨List.length_map _, fun j hj => ?_⟩
    change (notEmpty.notifyAll s.threadList)[j]? = some .exited
    rw [Condition.notifyAll, List.getElem?_map, hj]
    rfl
  | joinOne i hstopping hexited => exact ⟨rfl, fun j hj => hj⟩
  | joinedAll i hstopping hall => exact ⟨rfl, fun j hj => hj⟩

/-- A step that does not move `stop` keeps what has been joined. -/
theorem Joined.of_stopping_eq {s t : ThreadPool} {a : Action} (h : s.Joined)
    (hmoves : s.Moves a t) (hstopping : t.stopping = s.stopping) : t.Joined := by
  obtain ⟨hlength, hexited⟩ := exited_of_moves hmoves
  unfold Joined at h ⊢
  rw [hstopping]
  split
  · rename_i i heq
    rw [heq] at h
    exact fun j hj => hexited j (h j hj)
  · rename_i heq
    rw [heq] at h
    exact fun j hj => hexited j (h j (hlength ▸ hj))
  · trivial

/-- Every step keeps what has been joined. -/
theorem Joined.moves {s t : ThreadPool} {a : Action} (h : s.Joined) (hmoves : s.Moves a t) :
    t.Joined := by
  have hkept := h.of_stopping_eq hmoves
  cases hmoves with
  | initReturn w hw => exact hkept rfl
  | enter w hw hrunning => exact hkept rfl
  | leave w hw hrunning => exact hkept rfl
  | lockWorker w hmutex hw => exact hkept rfl
  | lockCall c call hmutex hc hwants => exact hkept rfl
  | take w woken task rest calls hw hqueue hnotify => exact hkept rfl
  | findEmpty w woken hw hqueue hrunning => exact hkept rfl
  | giveUp w woken hw hqueue hrunning => exact hkept rfl
  | park w hw => exact hkept rfl
  | rouseWorker w hw => exact hkept rfl
  | taskReturn w task hw => exact hkept rfl
  | call caller progress hprogress hrunning => exact hkept rfl
  | full c woken call hc htesting hfull => exact hkept rfl
  | push c woken call threadList hc htesting hroom hnotify => exact hkept rfl
  | rouseCall c call hc hasleep => exact hkept rfl
  | inlineReturn c call hc hinline => exact hkept rfl
  | stop hstopping hrunning => trivial
  | drainAgain hstopping => exact h
  | drained hstopping hmutex hqueue => trivial
  | clearRunning hstopping => trivial
  | notifyAll hstopping hmutex => exact fun j hj => absurd hj (Nat.not_lt_zero j)
  | joinOne i hstopping hexited =>
    rw [Joined, hstopping] at h
    intro j hj
    rcases Nat.lt_succ_iff_lt_or_eq.mp hj with hlt | rfl
    · exact h j hlt
    · exact hexited
  | joinedAll i hstopping hall =>
    rw [Joined, hstopping] at h
    exact fun j hj => h j (Nat.lt_of_lt_of_le hj hall)

/-- When `stop` returns all workers have left. -/
theorem Joined.allExited {s : ThreadPool} (h : s.Joined) (hreturned : s.stopping = .returned) :
    s.AllExited := by
  rw [Joined, hreturned] at h
  intro worker hmem
  obtain ⟨j, hj⟩ := List.mem_iff_getElem?.mp hmem
  have hexited := h j (List.getElem?_eq_some_iff.mp hj).1
  rw [hj] at hexited
  exact Option.some.inj hexited

/-! ## What `stop` loses -/

/-- The histories and the queue agree. -/
structure Sound (s : ThreadPool) : Prop where
  ordered : s.Ordered
  accounted : s.Accounted
  joined : s.Joined

theorem sound_new {numThread maxQueueSize : Nat} {s : ThreadPool} (hthreads : 0 < numThread)
    (h : new numThread maxQueueSize = .ok s) : s.Sound := by
  refine ⟨ordered_new h, accounted_new hthreads h, ?_⟩
  obtain ⟨_, rfl⟩ := new_eq_ok h
  trivial

theorem Sound.moves {s t : ThreadPool} {a : Action} (h : s.Sound) (hmoves : s.Moves a t) :
    t.Sound :=
  ⟨h.ordered.moves hmoves, h.accounted.moves hmoves, h.joined.moves hmoves⟩

/-- When all workers have left, every accepted task has been executed once. -/
def Lossless (s : ThreadPool) : Prop := s.AllExited → s.ExecutedOnce

/-- A step that leaves a task behind. -/
theorem step_of_abandons {s : ThreadPool} {a : Action} (h : s.Abandons a) :
    ∃ t, s.step a = .next t ∧ t.AllExited ∧ t.taskQueue ≠ [] := by
  cases a with
  | testRunning w =>
    obtain ⟨hw, hrunning, hqueue, hothers⟩ := h
    refine ⟨s.setWorker w .exited, ?_, fun worker hmem => ?_, hqueue⟩
    · rw [step, if_pos hw, hrunning]
      rfl
    · obtain ⟨v, hv⟩ := List.mem_iff_getElem?.mp hmem
      have hall : ∀ (v : Nat) (worker : Worker),
          (s.threadList.set w .exited)[v]? = some worker → worker = .exited :=
        forall_set hothers rfl
      exact hall v worker hv
  | pushTask c woken =>
    cases woken with
    | some i => cases h
    | none =>
      obtain ⟨⟨call, hc, htesting⟩, hroom, hexited⟩ := h
      have hnotify : notEmpty.notifyOne s.threadList none = some s.threadList := by
        refine Condition.notifyOne_none fun worker hmem => ?_
        rw [hexited worker hmem]
        rfl
      refine ⟨({ s.setCall c call .returned with
          threadList := s.threadList
          taskQueue := s.taskQueue ++ [c]
          pushed := s.pushed ++ [c] }).unlock, ?_, hexited, ?_⟩
      · rw [step, hc]
        dsimp only
        rw [if_pos htesting, pushTask, if_neg (Nat.not_le_of_lt hroom), hnotify]
      · exact List.append_ne_nil_of_right_ne_nil _ (List.cons_ne_nil c [])
  | initReturn w => cases h
  | lock holder => cases h
  | takeTask w woken => cases h
  | park w => cases h
  | rouseWorker w => cases h
  | taskReturn w => cases h
  | runTask caller => cases h
  | rouseCall c => cases h
  | inlineReturn c => cases h
  | stop => cases h
  | drain => cases h
  | clearRunning => cases h
  | notifyAll => cases h
  | join => cases h

/-- **What `stop` loses.**  In a run in which no step leaves a task behind,
every accepted task has been executed exactly once when `stop` returns; and
these are exactly the runs in which every accepted task has been executed once
whenever all workers have left. -/
theorem stop_keeps_tasks_iff {numThread maxQueueSize : Nat} {s : ThreadPool}
    (hthreads : 0 < numThread) (h : new numThread maxQueueSize = .ok s) (as : List Action) :
    (Along step (fun s a => ¬ s.Abandons a) s as →
      Throughout step (fun s => s.stopping = .returned → s.ExecutedOnce) s as) ∧
    (Throughout step Lossless s as ↔ Along step (fun s a => ¬ s.Abandons a) s as) := by
  have hinit : s.Sound ∧ s.Drained := by
    refine ⟨sound_new hthreads h, ?_⟩
    obtain ⟨_, rfl⟩ := new_eq_ok h
    exact fun _ => rfl
  have hstep : ∀ (s : ThreadPool) (a : Action) (t : ThreadPool), s.Sound ∧ s.Drained →
      ¬ s.Abandons a → s.step a = .next t → t.Sound ∧ t.Drained := by
    intro s a t hs hgood ht
    exact ⟨hs.1.moves (moves_of_step ht), hs.2.moves hgood (moves_of_step ht)⟩
  have honce : ∀ s : ThreadPool, s.Sound ∧ s.Drained → s.Lossless := by
    intro s hs hexited
    exact executedOnce_of_allExited hs.1.ordered hs.1.accounted hexited (hs.2 hexited)
  constructor
  · intro hgood
    have hall : Throughout step (fun s => s.Sound ∧ s.Drained) s as :=
      throughout_of_along (I := fun s => s.Sound ∧ s.Drained) hinit hstep hgood
    exact hall.mono fun t ht hreturned => honce t ht (ht.1.joined.allExited hreturned)
  · refine throughout_iff_along (I := fun s => s.Sound ∧ s.Drained) hinit hstep honce
      (fun s a hs hbad => ?_) as
    obtain ⟨t, ht, hexited, hqueue⟩ := step_of_abandons (not_not.mp hbad)
    have hsound := hs.1.moves (moves_of_step ht)
    refine ⟨t, ht, fun hlossless => ?_⟩
    exact not_executedOnce_of_queue hsound.ordered hsound.accounted hqueue (hlossless hexited)

/-- One worker and one task that is submitted before `stop` is called: it is
executed before `stop` returns. -/
def submitThenStop : List Action :=
  [.initReturn 0, .runTask none, .lock (.call 0), .pushTask 0 none, .stop, .testRunning 0,
    .lock (.worker 0), .takeTask 0 none, .drain, .clearRunning, .taskReturn 0, .testRunning 0,
    .notifyAll, .join, .join]

theorem stop_keeps_tasks_submitThenStop :
    ∃ s, new 1 1 = .ok s ∧
      (run step s submitThenStop).map (fun t => (t.stopping, t.pushed)) = some (.returned, [0]) ∧
      Throughout step (fun s => s.stopping = .returned → s.ExecutedOnce) s submitThenStop ∧
      Throughout step Lossless s submitThenStop := by
  refine ⟨_, rfl, by decide +kernel, ?_⟩
  obtain ⟨hreturned, hlossless⟩ :=
    stop_keeps_tasks_iff Nat.one_pos (show new 1 1 = .ok _ from rfl) submitThenStop
  exact ⟨hreturned (by decide +kernel), hlossless.mpr (by decide +kernel)⟩

/-- A task submits another one after `stop` has found the queue empty. -/
def submitFromTask : List Action :=
  [.initReturn 0, .runTask none, .lock (.call 0), .pushTask 0 none, .testRunning 0,
    .lock (.worker 0), .takeTask 0 none, .stop, .drain, .runTask (some 0), .lock (.call 1),
    .pushTask 1 none, .clearRunning, .taskReturn 0, .testRunning 0, .notifyAll, .join, .join]

/-- The submitted task is never executed, and `stop` returns. -/
theorem stop_loses_submitFromTask :
    ∃ s, new 1 65536 = .ok s ∧
      (run step s submitFromTask).map (fun t => (t.stopping, t.pushed, t.executed)) =
        some (.returned, [0, 1], [0]) :=
  ⟨_, rfl, by decide +kernel⟩

/-! ## A condition on the callers -/

/-- No call pushes once `stop` has found the queue empty. -/
def Quiet (s : ThreadPool) : Action → Prop
  | .pushTask _ _ => s.stopping = .notCalled ∨ s.stopping = .draining
  | _ => True

/-- From then on the queue is empty; `m_running` is false only after `stop` has
stored it, and a worker leaves only then. -/
structure Settled (s : ThreadPool) : Prop where
  queue : s.stopping ≠ .notCalled → s.stopping ≠ .draining → s.taskQueue = []
  running : s.running = false → s.stopping.cleared = true
  exited : .exited ∈ s.threadList → s.running = false

theorem settled_new {numThread maxQueueSize : Nat} {s : ThreadPool}
    (h : new numThread maxQueueSize = .ok s) : s.Settled := by
  obtain ⟨_, rfl⟩ := new_eq_ok h
  refine ⟨fun _ _ => rfl, fun hrunning => (by cases hrunning), fun hmem => ?_⟩
  have := List.eq_of_mem_replicate hmem
  cases this

/-- A worker moves, but not to the exit. -/
theorem Settled.of_set {s : ThreadPool} (h : s.Settled) {w : Nat} {worker : Worker}
    (hworker : worker ≠ .exited) (hmem : .exited ∈ s.threadList.set w worker) :
    s.running = false := by
  rcases List.mem_or_eq_of_mem_set hmem with hold | heq
  · exact h.exited hold
  · exact absurd heq.symm hworker

/-- Once `m_running` is stored, the queue is empty. -/
theorem Settled.queue_of_cleared {s : ThreadPool} (h : s.Settled)
    (hcleared : s.stopping.cleared = true) : s.taskQueue = [] := by
  apply h.queue
  · intro heq
    rw [heq] at hcleared
    cases hcleared
  · intro heq
    rw [heq] at hcleared
    cases hcleared

/-- Every step of a quiet run keeps the pool settled. -/
theorem Settled.moves {s t : ThreadPool} {a : Action} (h : s.Settled) (hquiet : s.Quiet a)
    (hmoves : s.Moves a t) : t.Settled := by
  cases hmoves with
  | initReturn w hw => exact ⟨h.queue, h.running, h.of_set (by decide)⟩
  | enter w hw hrunning => exact ⟨h.queue, h.running, h.of_set (by decide)⟩
  | leave w hw hrunning => exact ⟨h.queue, h.running, fun _ => hrunning⟩
  | lockWorker w hmutex hw => exact ⟨h.queue, h.running, h.of_set (by decide)⟩
  | lockCall c call hmutex hc hwants => exact ⟨h.queue, h.running, h.exited⟩
  | take w woken task rest calls hw hqueue hnotify =>
    refine ⟨fun hcalled hdraining => ?_, h.running, h.of_set Worker.noConfusion⟩
    have hnil := h.queue hcalled hdraining
    rw [hqueue] at hnil
    cases hnil
  | findEmpty w woken hw hqueue hrunning => exact ⟨h.queue, h.running, h.of_set (by decide)⟩
  | giveUp w woken hw hqueue hrunning => exact ⟨h.queue, h.running, h.of_set (by decide)⟩
  | park w hw => exact ⟨h.queue, h.running, h.of_set (by decide)⟩
  | rouseWorker w hw => exact ⟨h.queue, h.running, h.of_set (by decide)⟩
  | taskReturn w task hw => exact ⟨h.queue, h.running, h.of_set (by decide)⟩
  | call caller progress hprogress hrunning => exact ⟨h.queue, h.running, h.exited⟩
  | full c woken call hc htesting hfull => exact ⟨h.queue, h.running, h.exited⟩
  | push c woken call threadList hc htesting hroom hnotify =>
    refine ⟨fun hcalled hdraining => ?_, h.running, fun hmem => ?_⟩
    · rcases hquiet with heq | heq
      · exact absurd heq hcalled
      · exact absurd heq hdraining
    · cases Condition.notified_of_notifyOne hnotify with
      | nobody _ => exact h.exited hmem
      | one i worker _ _ => exact h.of_set (by simp) hmem
  | rouseCall c call hc hasleep => exact ⟨h.queue, h.running, h.exited⟩
  | inlineReturn c call hc hinline => exact ⟨h.queue, h.running, h.exited⟩
  | stop hstopping hrunning =>
    refine ⟨fun _ hne => absurd rfl hne, fun hstopped => ?_, h.exited⟩
    change s.running = false at hstopped
    rw [hrunning] at hstopped
    cases hstopped
  | drainAgain hstopping => exact h
  | drained hstopping hmutex hqueue =>
    refine ⟨fun _ _ => hqueue, fun hstopped => ?_, h.exited⟩
    have hcleared := h.running hstopped
    rw [hstopping] at hcleared
    cases hcleared
  | clearRunning hstopping =>
    refine ⟨fun _ _ => h.queue ?_ ?_, fun _ => rfl, fun _ => rfl⟩
    · rw [hstopping]
      decide
    · rw [hstopping]
      decide
  | notifyAll hstopping hmutex =>
    refine ⟨fun _ _ => h.queue_of_cleared ?_, fun _ => rfl, fun hmem => ?_⟩
    · rw [hstopping]
      rfl
    · obtain ⟨worker, hworker, heq⟩ := List.mem_map.mp hmem
      split at heq
      · cases heq
      · subst heq
        exact h.exited hworker
  | joinOne i hstopping hexited =>
    refine ⟨fun _ _ => h.queue_of_cleared ?_, fun _ => rfl, h.exited⟩
    rw [hstopping]
    rfl
  | joinedAll i hstopping hall =>
    refine ⟨fun _ _ => h.queue_of_cleared ?_, fun _ => rfl, h.exited⟩
    rw [hstopping]
    rfl

/-- A quiet step leaves no task behind. -/
theorem Settled.not_abandons {s : ThreadPool} (h : s.Settled) (hthreads : s.threadList ≠ [])
    {a : Action} (hquiet : s.Quiet a) : ¬ s.Abandons a := by
  intro hbad
  unfold Abandons at hbad
  split at hbad
  · obtain ⟨_, hrunning, hne, _⟩ := hbad
    exact hne (h.queue_of_cleared (h.running hrunning))
  · obtain ⟨_, _, hexited⟩ := hbad
    obtain ⟨worker, hmem⟩ := List.exists_mem_of_ne_nil _ hthreads
    have hworker := hexited worker hmem
    subst hworker
    have hcleared := h.running (h.exited hmem)
    rcases hquiet with heq | heq <;> rw [heq] at hcleared <;> cases hcleared
  · exact hbad

/-- **What callers can do about it.**  If no call pushes once `stop` has found
the queue empty, no task is left behind. -/
theorem not_abandons_of_quiet {numThread maxQueueSize : Nat} {s : ThreadPool}
    (hthreads : 0 < numThread) (h : new numThread maxQueueSize = .ok s) {as : List Action}
    (hquiet : Along step Quiet s as) : Along step (fun s a => ¬ s.Abandons a) s as := by
  refine along_of_along (I := fun s => s.Settled ∧ s.Accounted)
    ⟨settled_new h, accounted_new hthreads h⟩ (fun s a t hs hq ht => ?_) (fun s a hs hq => ?_)
    hquiet
  · exact ⟨hs.1.moves hq (moves_of_step ht), hs.2.moves (moves_of_step ht)⟩
  · exact hs.1.not_abandons hs.2.threads hq

end ThreadPool

end CppWeb.Pool
