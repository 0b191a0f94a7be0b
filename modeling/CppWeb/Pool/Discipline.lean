/-
  Pool/Discipline.lean --- the mutex excludes, and the queue is one.

  Whoever is inside a section holds the mutex, so at most one thread is; a
  worker that is about to wait has found the queue empty, and nobody can have
  pushed since.  A call pushes when it leaves its section and never again, so
  every task is pushed once, and what has been pushed is what has been taken,
  in the order of the pushes, followed by what is in the queue.
-/
import CppWeb.Pool.ThreadPool

set_option autoImplicit false

namespace CppWeb.Pool

open CppWeb.Foundation

namespace ThreadPool

/-! ## Mutual exclusion -/

/-- Only the holder of the mutex is inside a section; a worker about to wait
has an empty queue before it; only a pool with threads has calls on their way
to the queue. -/
structure Exclusive (s : ThreadPool) : Prop where
  worker : ∀ (w : Nat) (worker : Worker), s.threadList[w]? = some worker → worker.inside = true →
    s.mutex = some (.worker w)
  call : ∀ (c : Nat) (call : Call), s.calls[c]? = some call → call.progress = .testing →
    s.mutex = some (.call c)
  parking : ∀ w : Nat, s.threadList[w]? = some Worker.parking → s.taskQueue = []
  threads : ∀ (c : Nat) (call : Call), s.calls[c]? = some call →
    call.progress.queuing = true → s.threadList ≠ []

theorem exclusive_new {numThread maxQueueSize : Nat} {s : ThreadPool}
    (h : new numThread maxQueueSize = .ok s) : s.Exclusive := by
  obtain ⟨_, rfl⟩ := new_eq_ok h
  have hstarting : ∀ (w : Nat) (worker : Worker),
      (List.replicate numThread Worker.starting)[w]? = some worker → worker = .starting := by
    intro w worker hget
    exact List.eq_of_mem_replicate (List.mem_of_getElem? hget)
  refine ⟨fun w worker hget hinside => ?_, fun c call hget => ?_, fun w hget => rfl,
    fun c call hget => ?_⟩
  · rw [hstarting w worker hget] at hinside
    cases hinside
  · simp at hget
  · simp at hget

/-- No worker is inside a section. -/
def NoneInside (threads : List Worker) : Prop :=
  ∀ (w : Nat) (worker : Worker), threads[w]? = some worker → worker.inside = false

/-- A worker that parks is inside. -/
theorem NoneInside.not_parking {threads : List Worker} (h : NoneInside threads) {w : Nat} :
    threads[w]? ≠ some .parking := by
  intro hw
  cases h w .parking hw

/-- Nobody is inside while the mutex is free. -/
theorem Exclusive.outside {s : ThreadPool} (h : s.Exclusive) (hmutex : s.mutex = none) :
    NoneInside s.threadList := by
  intro w worker hw
  rw [Bool.eq_false_iff]
  intro hinside
  rw [h.worker w worker hw hinside] at hmutex
  cases hmutex

/-- A worker inside is the only thread inside. -/
theorem Exclusive.outside_of_worker {s : ThreadPool} (h : s.Exclusive) {w : Nat}
    (hmutex : s.mutex = some (.worker w)) :
    (∀ (v : Nat) (worker : Worker), v ≠ w → s.threadList[v]? = some worker →
        worker.inside = false) ∧
      ∀ (c : Nat) (call : Call), s.calls[c]? = some call → call.progress ≠ .testing := by
  constructor
  · intro v worker hne hv
    rw [Bool.eq_false_iff]
    intro hinside
    rw [h.worker v worker hv hinside] at hmutex
    cases hmutex
    exact hne rfl
  · intro c call hc htesting
    rw [h.call c call hc htesting] at hmutex
    cases hmutex

/-- A call inside is the only thread inside. -/
theorem Exclusive.outside_of_call {s : ThreadPool} (h : s.Exclusive) {c : Nat}
    (hmutex : s.mutex = some (.call c)) :
    NoneInside s.threadList ∧
      ∀ (d : Nat) (call : Call), d ≠ c → s.calls[d]? = some call → call.progress ≠ .testing := by
  constructor
  · intro w worker hw
    rw [Bool.eq_false_iff]
    intro hinside
    rw [h.worker w worker hw hinside] at hmutex
    cases hmutex
  · intro d call hne hd htesting
    rw [h.call d call hd htesting] at hmutex
    cases hmutex
    exact hne rfl

/-- A pool in which no worker is inside. -/
theorem Exclusive.of_noneInside {s : ThreadPool} (hnone : NoneInside s.threadList)
    (hcall : ∀ (c : Nat) (call : Call), s.calls[c]? = some call → call.progress = .testing →
      s.mutex = some (.call c))
    (hthreads : ∀ (c : Nat) (call : Call), s.calls[c]? = some call →
      call.progress.queuing = true → s.threadList ≠ []) : s.Exclusive where
  worker := by
    intro w worker hw hinside
    rw [hnone w worker hw] at hinside
    cases hinside
  call := hcall
  parking := fun _ hw => absurd hw hnone.not_parking
  threads := hthreads

theorem ne_nil_set {θ : Type} {l : List θ} {i : Nat} {u : θ} (h : l ≠ []) : l.set i u ≠ [] := by
  intro hnil
  exact h ((List.set_eq_nil_iff i u).mp hnil)

/-- A worker outside moves to a place outside. -/
theorem Exclusive.setWorker {s : ThreadPool} (h : s.Exclusive) {w : Nat} {worker : Worker}
    (hworker : worker.inside = false) : (s.setWorker w worker).Exclusive := by
  refine ⟨forall_set (fun v worker _ hv => h.worker v worker hv) fun hinside => ?_, h.call,
    fun v hv => ?_, fun c call hc hqueuing => ne_nil_set (h.threads c call hc hqueuing)⟩
  · rw [hworker] at hinside
    cases hinside
  · have hmem : ∀ (v : Nat) (u : Worker), (s.threadList.set w worker)[v]? = some u →
        u = .parking → s.taskQueue = [] := by
      refine forall_set (fun j t _ hj heq => ?_) fun heq => ?_
      · subst heq
        exact h.parking j hj
      · rw [heq] at hworker
        cases hworker
    exact hmem v _ hv rfl

/-- The holder of the mutex leaves its section. -/
theorem Exclusive.leaveWorker {s : ThreadPool} (h : s.Exclusive) {w : Nat} {old worker : Worker}
    (hw : s.threadList[w]? = some old) (hinside : old.inside = true)
    (hworker : worker.inside = false) : (s.setWorker w worker).unlock.Exclusive := by
  obtain ⟨hothers, hcalls⟩ := h.outside_of_worker (h.worker w old hw hinside)
  have hnone : NoneInside (s.threadList.set w worker) := forall_set hothers hworker
  refine .of_noneInside hnone (fun c call hc htesting => ?_) fun c call hc hqueuing => ?_
  · exact absurd htesting (hcalls c call hc)
  · exact ne_nil_set (h.threads c call hc hqueuing)

/-- A call outside moves to a place outside. -/
theorem Exclusive.setCall {s : ThreadPool} (h : s.Exclusive) {c : Nat} {call : Call}
    {progress : Progress} (hc : s.calls[c]? = some call) (hprogress : progress ≠ .testing)
    (hqueuing : progress.queuing = true → call.progress.queuing = true) :
    (s.setCall c call progress).Exclusive :=
  ⟨h.worker, forall_set (fun d old _ hd => h.call d old hd) fun heq => absurd heq hprogress,
    h.parking, forall_set (fun d old _ hd => h.threads d old hd)
      fun hq => h.threads c call hc (hqueuing hq)⟩

/-- Every step keeps the exclusion. -/
theorem Exclusive.moves {s t : ThreadPool} {a : Action} (h : s.Exclusive) (hmoves : s.Moves a t) :
    t.Exclusive := by
  cases hmoves with
  | initReturn w hw => exact h.setWorker rfl
  | enter w hw hrunning => exact h.setWorker rfl
  | leave w hw hrunning => exact h.setWorker rfl
  | lockWorker w hmutex hw =>
    have hnone := h.outside hmutex
    refine ⟨forall_set (fun v worker _ hv hinside => ?_) fun _ => rfl,
      fun c call hc htesting => ?_, fun v hv => ?_,
      fun c call hc hqueuing => ne_nil_set (h.threads c call hc hqueuing)⟩
    · rw [hnone v worker hv] at hinside
      cases hinside
    · have hheld := h.call c call hc htesting
      rw [hmutex] at hheld
      cases hheld
    · have hmem : ∀ (v : Nat) (u : Worker), (s.threadList.set w .testing)[v]? = some u →
          u ≠ .parking := by
        refine forall_set (fun j u _ hj heq => ?_) (by decide)
        subst heq
        exact hnone.not_parking hj
      exact absurd rfl (hmem v _ hv)
  | lockCall c call hmutex hc hwants =>
    refine ⟨fun w worker hw hinside => ?_, ?_, h.parking, ?_⟩
    · have hheld := h.worker w worker hw hinside
      rw [hmutex] at hheld
      cases hheld
    · refine forall_set (fun d old _ hd htesting => ?_) fun _ => rfl
      have hheld := h.call d old hd htesting
      rw [hmutex] at hheld
      cases hheld
    · refine forall_set (fun d old _ hd => h.threads d old hd) fun _ => h.threads c call hc ?_
      cases hprogress : call.progress <;> rw [hprogress] at hwants <;> cases hwants <;> rfl
  | take w woken task rest calls hw hqueue hnotify =>
    have hnotified := Condition.notified_of_notifyOne hnotify
    obtain ⟨hothers, hcalls⟩ := h.outside_of_worker (h.worker w _ hw rfl)
    have hnone : NoneInside (s.threadList.set w (.executing task)) := forall_set hothers rfl
    have hnocall : ∀ (c : Nat) (call : Call), calls[c]? = some call → call.progress ≠ .testing :=
      hnotified.forall hcalls fun i call _ _ heq => by cases heq
    refine .of_noneInside hnone (fun c call hc htesting => ?_) fun c call hc hqueuing => ?_
    · exact absurd htesting (hnocall c call hc)
    · have hthreads : s.threadList ≠ [] := by
        intro hnil
        rw [hnil] at hw
        simp at hw
      exact ne_nil_set hthreads
  | findEmpty w woken hw hqueue hrunning =>
    refine ⟨forall_set (fun v worker _ hv => h.worker v worker hv) fun _ => h.worker w _ hw rfl,
      h.call, fun v hv => hqueue,
      fun c call hc hqueuing => ne_nil_set (h.threads c call hc hqueuing)⟩
  | giveUp w woken hw hqueue hrunning => exact h.leaveWorker hw rfl rfl
  | park w hw => exact h.leaveWorker hw rfl rfl
  | rouseWorker w hw => exact h.setWorker rfl
  | taskReturn w task hw =>
    have hset : (s.setWorker w .loop).Exclusive := h.setWorker rfl
    exact ⟨hset.worker, hset.call, hset.parking, hset.threads⟩
  | call caller progress hprogress hrunning =>
    refine ⟨h.worker, forall_concat h.call fun htesting => ?_, h.parking,
      forall_concat h.threads fun hqueuing => ?_⟩
    · rcases hprogress with ⟨_, rfl⟩ | ⟨_, rfl⟩ <;> cases htesting
    · rcases hprogress with ⟨_, rfl⟩ | ⟨hthreads, _⟩
      · cases hqueuing
      · exact hthreads
  | full c woken call hc htesting hfull =>
    obtain ⟨hworkers, hothers⟩ := h.outside_of_call (h.call c call hc htesting)
    refine ⟨fun w worker hw hinside => ?_, ?_, h.parking, ?_⟩
    · rw [hworkers w worker hw] at hinside
      cases hinside
    · refine forall_set (fun d old hne hd heq => absurd heq (hothers d old hne hd)) fun heq => ?_
      cases heq
    · refine forall_set (fun d old _ hd => h.threads d old hd) fun _ => h.threads c call hc ?_
      rw [htesting]
      rfl
  | push c woken call threadList hc htesting hroom hnotify =>
    have hnotified := Condition.notified_of_notifyOne hnotify
    obtain ⟨hworkers, hothers⟩ := h.outside_of_call (h.call c call hc htesting)
    have hnone : NoneInside threadList := hnotified.forall hworkers fun _ _ _ _ => rfl
    refine .of_noneInside hnone ?_ ?_
    · refine forall_set (fun d old hne hd heq => absurd heq (hothers d old hne hd)) fun heq => ?_
      cases heq
    · have hlength := hnotified.length_eq
      refine forall_set (fun d old _ hd hqueuing hnil => ?_) fun hqueuing => ?_
      · change threadList = [] at hnil
        rw [hnil] at hlength
        exact h.threads d old hd hqueuing (List.length_eq_zero_iff.mp hlength.symm)
      · cases hqueuing
  | rouseCall c call hc hasleep =>
    refine h.setCall hc (by decide) fun _ => ?_
    rw [hasleep]
    rfl
  | inlineReturn c call hc hinline =>
    have hset : (s.setCall c call .returned).Exclusive :=
      h.setCall hc (by decide) fun hq => by cases hq
    exact ⟨hset.worker, hset.call, hset.parking, hset.threads⟩
  | stop hstopping hrunning => exact ⟨h.worker, h.call, h.parking, h.threads⟩
  | drainAgain hstopping => exact h
  | drained hstopping hmutex hqueue => exact ⟨h.worker, h.call, h.parking, h.threads⟩
  | clearRunning hstopping => exact ⟨h.worker, h.call, h.parking, h.threads⟩
  | notifyAll hstopping hmutex =>
    have hnone : NoneInside (notEmpty.notifyAll s.threadList) :=
      Condition.forall_notifyAll (h.outside hmutex) fun _ _ _ _ => rfl
    refine .of_noneInside hnone h.call fun c call hc hqueuing hnil => ?_
    exact h.threads c call hc hqueuing (List.map_eq_nil_iff.mp hnil)
  | joinOne i hstopping hexited => exact ⟨h.worker, h.call, h.parking, h.threads⟩
  | joinedAll i hstopping hall => exact ⟨h.worker, h.call, h.parking, h.threads⟩

/-! ## The queue and its histories -/

/-- The queue is within its bound and continues the history; every task was
pushed by a call that has returned since, and once. -/
structure Ordered (s : ThreadPool) : Prop where
  bound : s.taskQueue.length ≤ s.maxQueueSize
  history : s.pushed = s.taken.map Prod.snd ++ s.taskQueue
  once : s.pushed.Nodup
  returned : ∀ task ∈ s.pushed, ∃ call : Call,
    s.calls[task]? = some call ∧ call.progress = .returned

theorem ordered_new {numThread maxQueueSize : Nat} {s : ThreadPool}
    (h : new numThread maxQueueSize = .ok s) : s.Ordered := by
  obtain ⟨_, rfl⟩ := new_eq_ok h
  exact ⟨Nat.zero_le _, rfl, List.nodup_nil, fun task htask => absurd htask List.not_mem_nil⟩

/-- A call that has not returned has not pushed. -/
theorem Ordered.not_pushed {s : ThreadPool} (h : s.Ordered) {c : Nat} {call : Call}
    (hc : s.calls[c]? = some call) (hprogress : call.progress ≠ .returned) : c ∉ s.pushed := by
  intro hmem
  obtain ⟨old, hold, hreturned⟩ := h.returned c hmem
  rw [hc] at hold
  cases hold
  exact hprogress hreturned

/-- The move of a call that has not returned is not a move of a call that has
pushed. -/
theorem Ordered.setCall {s : ThreadPool} (h : s.Ordered) {c : Nat} {call : Call}
    {progress : Progress} (hc : s.calls[c]? = some call)
    (hprogress : call.progress ≠ .returned) : (s.setCall c call progress).Ordered := by
  refine ⟨h.bound, h.history, h.once, fun task htask => ?_⟩
  obtain ⟨old, hold, hreturned⟩ := h.returned task htask
  have hne : c ≠ task := by
    rintro rfl
    exact h.not_pushed hc hprogress htask
  exact ⟨old, by rw [ThreadPool.setCall, List.getElem?_set_ne hne]; exact hold, hreturned⟩

/-- Steps that touch neither the queue nor a call. -/
theorem Ordered.congr {s t : ThreadPool} (h : s.Ordered) (hsize : t.maxQueueSize = s.maxQueueSize)
    (hqueue : t.taskQueue = s.taskQueue) (hcalls : t.calls = s.calls)
    (hpushed : t.pushed = s.pushed) (htaken : t.taken = s.taken) : t.Ordered := by
  refine ⟨?_, ?_, ?_, ?_⟩
  · rw [hqueue, hsize]
    exact h.bound
  · rw [hpushed, htaken, hqueue]
    exact h.history
  · rw [hpushed]
    exact h.once
  · rw [hpushed, hcalls]
    exact h.returned

/-- Every step keeps the order. -/
theorem Ordered.moves {s t : ThreadPool} {a : Action} (h : s.Ordered) (hmoves : s.Moves a t) :
    t.Ordered := by
  cases hmoves with
  | initReturn w hw => exact h.congr rfl rfl rfl rfl rfl
  | enter w hw hrunning => exact h.congr rfl rfl rfl rfl rfl
  | leave w hw hrunning => exact h.congr rfl rfl rfl rfl rfl
  | lockWorker w hmutex hw => exact h.congr rfl rfl rfl rfl rfl
  | lockCall c call hmutex hc hwants =>
    have hprogress : call.progress ≠ .returned := by
      intro heq
      rw [heq] at hwants
      cases hwants
    exact (h.setCall hc hprogress).congr rfl rfl rfl rfl rfl
  | take w woken task rest calls hw hqueue hnotify =>
    have hnotified := Condition.notified_of_notifyOne hnotify
    have hbound := h.bound
    have hhistory := h.history
    rw [hqueue] at hbound hhistory
    refine ⟨Nat.le_of_succ_le hbound, ?_, h.once, fun pushed hpushed => ?_⟩
    · change s.pushed = (s.taken ++ [(w, task)]).map Prod.snd ++ rest
      rw [hhistory, List.map_append, List.append_assoc]
      rfl
    · obtain ⟨call, hcall, hreturned⟩ := h.returned pushed hpushed
      refine ⟨call, hnotified.getElem? hcall ?_, hreturned⟩
      rw [notFull_asleep, hreturned]
      rfl
  | findEmpty w woken hw hqueue hrunning => exact h.congr rfl rfl rfl rfl rfl
  | giveUp w woken hw hqueue hrunning => exact h.congr rfl rfl rfl rfl rfl
  | park w hw => exact h.congr rfl rfl rfl rfl rfl
  | rouseWorker w hw => exact h.congr rfl rfl rfl rfl rfl
  | taskReturn w task hw => exact h.congr rfl rfl rfl rfl rfl
  | call caller progress hprogress hrunning =>
    refine ⟨h.bound, h.history, h.once, fun task htask => ?_⟩
    obtain ⟨call, hcall, hreturned⟩ := h.returned task htask
    refine ⟨call, ?_, hreturned⟩
    rw [List.getElem?_append_left (List.getElem?_eq_some_iff.mp hcall).1]
    exact hcall
  | full c woken call hc htesting hfull =>
    have hprogress : call.progress ≠ .returned := by
      rw [htesting]
      decide
    exact (h.setCall hc hprogress).congr rfl rfl rfl rfl rfl
  | push c woken call threadList hc htesting hroom hnotify =>
    have hnotified := Condition.notified_of_notifyOne hnotify
    have hprogress : call.progress ≠ .returned := by
      rw [htesting]
      decide
    have hset : (s.setCall c call .returned).Ordered := h.setCall hc hprogress
    refine ⟨?_, ?_, ?_, fun task htask => ?_⟩
    · change (s.taskQueue ++ [c]).length ≤ s.maxQueueSize
      rw [List.length_append, List.length_singleton]
      exact hroom
    · change s.pushed ++ [c] = s.taken.map Prod.snd ++ (s.taskQueue ++ [c])
      rw [h.history, List.append_assoc]
    · have hdisjoint := List.disjoint_singleton.mpr (h.not_pushed hc hprogress)
      exact List.Nodup.append h.once (List.nodup_singleton c) hdisjoint
    · rcases List.mem_append.mp htask with hold | hnew
      · exact hset.returned task hold
      · obtain rfl := List.mem_singleton.mp hnew
        refine ⟨{ call with progress := .returned }, ?_, rfl⟩
        exact List.getElem?_set_self (List.getElem?_eq_some_iff.mp hc).1
  | rouseCall c call hc hasleep =>
    refine h.setCall hc ?_
    rw [hasleep]
    decide
  | inlineReturn c call hc hinline =>
    have hprogress : call.progress ≠ .returned := by
      rw [hinline]
      decide
    exact (h.setCall hc hprogress).congr rfl rfl rfl rfl rfl
  | stop hstopping hrunning => exact h.congr rfl rfl rfl rfl rfl
  | drainAgain hstopping => exact h
  | drained hstopping hmutex hqueue => exact h.congr rfl rfl rfl rfl rfl
  | clearRunning hstopping => exact h.congr rfl rfl rfl rfl rfl
  | notifyAll hstopping hmutex => exact h.congr rfl rfl rfl rfl rfl
  | joinOne i hstopping hexited => exact h.congr rfl rfl rfl rfl rfl
  | joinedAll i hstopping hall => exact h.congr rfl rfl rfl rfl rfl

/-- No task is pushed twice, so none is taken twice. -/
theorem Ordered.nodup_taken {s : ThreadPool} (h : s.Ordered) :
    (s.taken.map Prod.snd).Nodup := by
  have honce := h.once
  rw [h.history] at honce
  exact honce.of_append_left

/-! ## The discipline -/

/-- The discipline of the queue: it holds no more than `m_maxQueueSize` tasks,
no task is taken twice or by two workers, and the tasks pushed are the tasks
taken, in the same order, followed by the tasks in the queue. -/
structure Disciplined (s : ThreadPool) : Prop where
  bound : s.taskQueue.length ≤ s.maxQueueSize
  history : s.pushed = s.taken.map Prod.snd ++ s.taskQueue
  once : (s.taken.map Prod.snd).Nodup
  oneWorker : ∀ task w v, (w, task) ∈ s.taken → (v, task) ∈ s.taken → w = v

/-- A worker that took the task is the worker that took it. -/
theorem eq_of_nodup_snd {taken : List (Nat × Task)} (h : (taken.map Prod.snd).Nodup) :
    ∀ task w v, (w, task) ∈ taken → (v, task) ∈ taken → w = v := by
  intro task w v hw hv
  have hinj := List.inj_on_of_nodup_map h hw hv rfl
  exact congrArg Prod.fst hinj

/-- **Queue discipline.**  Whatever the calls of `runTask`, the workers and
`stop` do, and in whatever order and with whatever wakeups out of turn, the
queue keeps its bound and its order. -/
theorem queue_disciplined {numThread maxQueueSize : Nat} {s : ThreadPool}
    (h : new numThread maxQueueSize = .ok s) (as : List Action) :
    Throughout step Disciplined s as := by
  have hordered : Throughout step Ordered s as :=
    throughout_of_invariant step (ordered_new h)
      (fun _ _ _ ho ht => ho.moves (moves_of_step ht)) as
  refine hordered.mono fun t ht => ⟨ht.bound, ht.history, ht.nodup_taken, ?_⟩
  exact eq_of_nodup_snd ht.nodup_taken

/-- One worker, a queue of one: a second call finds the queue full and waits
for the room that the worker makes. -/
def waitForRoom : List Action :=
  [.initReturn 0, .runTask none, .lock (.call 0), .pushTask 0 none, .runTask none,
    .lock (.call 1), .pushTask 1 none, .testRunning 0, .lock (.worker 0), .takeTask 0 (some 1),
    .taskReturn 0, .lock (.call 1), .pushTask 1 none, .testRunning 0, .lock (.worker 0),
    .takeTask 0 none]

theorem queue_disciplined_waitForRoom :
    ∃ s, new 1 1 = .ok s ∧
      (run step s waitForRoom).map ThreadPool.taken = some [(0, 0), (0, 1)] ∧
      Throughout step Disciplined s waitForRoom :=
  ⟨_, rfl, by decide +kernel, queue_disciplined (show new 1 1 = .ok _ from rfl) _⟩

end ThreadPool

end CppWeb.Pool
