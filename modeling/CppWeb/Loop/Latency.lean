/-
  Loop/Latency.lean --- when a queued task runs, and when the loop leaves.

  The loop thread makes a bounded number of steps before it starts a queued
  task, whatever the other threads do meanwhile: what they queue comes after
  the task, and a wakeup of theirs does not move the loop.  Only the channels
  that `epoll_wait` reports come before it.  With what is known of wakeups the
  loop is not blocked before the task has been started, so a task is late only
  as long as a handler or another task does not return.

  The same count, with the tasks that are queued meanwhile added, bounds what
  the loop does after `m_quit` has been set.  It waits at most once more; but
  the swap before it leaves is the last one, and what is queued after it is
  not run any more.
-/
import CppWeb.Foundation.Potential
import CppWeb.Loop.Wakeup

set_option autoImplicit false

namespace CppWeb.Loop

open CppWeb.Foundation

variable {τ : Type}

/-! ## The steps of the loop thread -/

/-- A step of the loop thread in `loop()`. -/
def Action.isLoop : Action τ → Bool
  | .loop _ => true
  | .call _ _ => false

/-- The return of `epoll_wait`. -/
def Action.isPollReturn : Action τ → Bool
  | .loop (.pollReturn _) => true
  | _ => false

/-- Two steps for each channel that a wait reports: its handler is called, and
returns. -/
def Action.reports : Action τ → Nat
  | .loop (.pollReturn active) => 2 * active.length
  | _ => 0

namespace EventLoop

/-- The steps of the loop thread up to the next swap, without what `epoll_wait`
reports until then. -/
def toSwap (s : EventLoop τ) : Nat :=
  match s.control with
  | .outside => 4
  | .testQuit => 3
  | .poll => 2
  | .dispatch active => 2 * active.length + 1
  | .handler active => 2 * active.length + 2
  | .tasks => 2 * s.queue.batch.length + 4
  | .task => 2 * s.queue.batch.length + 5

/-- The steps of the loop thread up to the start of a task: those for the tasks
before it, after the swap that takes it. -/
def ahead (s : EventLoop τ) (ticket : Nat) : Nat :=
  if ticket < s.taken then
    (if s.control = .task then 1 else 0) + 2 * (ticket - s.started.length) + 1
  else s.toSwap + 2 * (ticket - s.taken) + 1

/-- The task has not been started, and `m_quit` is not set. -/
def Awaited (s : EventLoop τ) (ticket : Nat) : Prop :=
  s.quit = false ∧ s.started.length ≤ ticket

theorem ahead_pos (s : EventLoop τ) (ticket : Nat) : 0 < s.ahead ticket := by
  unfold ahead
  split <;> omega

/-- What is ahead of a task depends on the loop thread only. -/
theorem ahead_congr {s u : EventLoop τ} (hcontrol : u.control = s.control)
    (hbatch : u.queue.batch = s.queue.batch) (hstarted : u.started = s.started) (ticket : Nat) :
    u.ahead ticket = s.ahead ticket := by
  unfold ahead taken toSwap
  rw [hcontrol, hbatch, hstarted]

/-- `m_quit` is never cleared. -/
theorem quit_of_callStep {s u : EventLoop τ} {t : Thread} {a : CallAction τ}
    (h : s.callStep t a = .next u) (hquit : s.quit = true) : u.quit = true := by
  cases a with
  | queueInLoop task =>
    obtain ⟨_, rfl⟩ := Outcome.ite_next_eq_next.mp h
    exact hquit
  | runInLoop task =>
    rw [callStep] at h
    split at h
    · split at h <;> cases h <;> exact hquit
    · cases h
  | wakeup =>
    rw [callStep] at h
    split at h <;> cases h <;> exact hquit
  | quit =>
    rw [callStep, if_pos hquit] at h
    split at h <;> cases h
  | quitStore =>
    rw [callStep] at h
    split at h
    · split at h <;> cases h <;> rfl
    · cases h

/-- A step of the loop thread is not one of a call. -/
theorem calls_of_loopStep {s u : EventLoop τ} {a : LoopAction} (h : LoopStep s a u) :
    u.quit = s.quit ∧ u.quitReturned = s.quitReturned ∧ u.calls = s.calls := by
  cases h <;> exact ⟨rfl, rfl, rfl⟩

theorem quit_of_step {s u : EventLoop τ} {a : Action τ} (h : s.step a = .next u)
    (hquit : s.quit = true) : u.quit = true := by
  cases a with
  | loop a =>
    obtain ⟨_, h⟩ := loopStep_of_step h
    rw [(calls_of_loopStep (loopStep_cases h)).1, hquit]
  | call t a => exact quit_of_callStep h hquit

/-- The histories only grow. -/
theorem length_le_of_step {s u : EventLoop τ} {a : Action τ} (h : s.step a = .next u) :
    s.started.length ≤ u.started.length ∧ s.pushed.length ≤ u.pushed.length := by
  cases a with
  | loop a =>
    obtain ⟨_, h⟩ := loopStep_of_step h
    cases loopStep_cases h <;> simp [handleRead]
  | call t a =>
    obtain ⟨_, _, hstarted, hpush⟩ := callStep_frame h
    rw [hstarted]
    refine ⟨Nat.le_refl _, ?_⟩
    rcases hpush with ⟨task, rfl⟩ | ⟨_, hpushed⟩
    · simp [push]
    · rw [hpushed]

/-! ## Before a task is started -/

/-- Outside a round, a task that has not been started is not taken. -/
theorem ahead_of_batch_nil {s : EventLoop τ} {ticket : Nat} (hbatch : s.queue.batch = [])
    (hstarted : s.started.length ≤ ticket) :
    s.ahead ticket = s.toSwap + 2 * (ticket - s.started.length) + 1 := by
  have htaken : s.taken = s.started.length := by
    rw [taken, hbatch, List.length_nil, Nat.add_zero]
  rw [ahead, if_neg (by omega), htaken]

/-- A step of the loop thread that moves it towards the swap. -/
theorem ahead_of_move {s u : EventLoop τ} {ticket k : Nat} (hbatch : s.queue.batch = [])
    (hbatch' : u.queue.batch = []) (hstarted : u.started = s.started)
    (hwaiting : s.started.length ≤ ticket) (htoSwap : 1 + u.toSwap ≤ s.toSwap + k) :
    1 + u.ahead ticket ≤ s.ahead ticket + k := by
  rw [ahead_of_batch_nil hbatch hwaiting, ahead_of_batch_nil hbatch' (hstarted ▸ hwaiting),
    hstarted]
  omega

/-- A step of the loop thread brings a queued task nearer. -/
theorem ahead_of_loopStep {s u : EventLoop τ} {a : LoopAction} {ticket : Nat} (ho : s.Ordered)
    (hpushed : ticket < s.pushed.length) (hquit : s.quit = false) (h : LoopStep s a u)
    (hwaiting : u.started.length ≤ ticket) :
    1 + u.ahead ticket ≤ s.ahead ticket + Action.reports (.loop a : Action τ) := by
  have hnil : ∀ {c : Control}, s.control = c → c ≠ .tasks → c ≠ .task → s.queue.batch = [] :=
    fun hcontrol htasks htask => ho.batch_nil (not_inRound_of_control hcontrol htasks htask)
  cases h with
  | enter hcontrol =>
    have hbatch := hnil hcontrol (by simp) (by simp)
    exact ahead_of_move hbatch hbatch rfl hwaiting (by simp [toSwap, hcontrol])
  | testQuit hcontrol =>
    have hbatch := hnil hcontrol (by simp) (by simp)
    exact ahead_of_move hbatch hbatch rfl hwaiting (by simp [toSwap, hcontrol, hquit])
  | pollReturn active hcontrol =>
    have hbatch := hnil hcontrol (by simp) (by simp)
    refine ahead_of_move hbatch hbatch rfl hwaiting ?_
    simp only [toSwap, hcontrol, Action.reports]
    omega
  | handleWakeup rest hcontrol =>
    have hbatch := hnil hcontrol (by simp) (by simp)
    refine ahead_of_move hbatch hbatch rfl hwaiting ?_
    simp only [toSwap, hcontrol, List.length_cons]
    omega
  | handleOther rest hcontrol =>
    have hbatch := hnil hcontrol (by simp) (by simp)
    refine ahead_of_move hbatch hbatch rfl hwaiting ?_
    simp only [toSwap, hcontrol, List.length_cons]
    omega
  | handlerReturn rest hcontrol =>
    have hbatch := hnil hcontrol (by simp) (by simp)
    refine ahead_of_move hbatch hbatch rfl hwaiting ?_
    simp only [toSwap, hcontrol]
    omega
  | swap hcontrol =>
    -- the swap takes every task that has been pushed
    have hbatch := hnil hcontrol (by simp) (by simp)
    have hall := length_pushed_of_swap ho hcontrol
    rw [ahead_of_batch_nil hbatch hwaiting, ahead, if_pos (by rw [taken, ← hall]; exact hpushed)]
    simp only [toSwap, hcontrol, reduceCtorEq, if_false, List.length_nil]
    omega
  | runTask task rest hcontrol hbatch =>
    simp only [List.length_append, List.length_singleton] at hwaiting
    simp only [ahead, taken, toSwap, hcontrol, hbatch, BatchQueue.advance, List.tail_cons,
      List.length_append, List.length_cons, List.length_nil, if_true, reduceCtorEq, if_false]
    split <;> split <;> omega
  | taskReturn hcontrol =>
    simp only [ahead, taken, toSwap, hcontrol, if_true, reduceCtorEq, if_false]
    split <;> omega
  | endRound hcontrol hbatch =>
    refine ahead_of_move hbatch hbatch rfl hwaiting ?_
    simp only [toSwap, hcontrol, hbatch, List.length_nil]
    omega

/-- **One step.**  While a queued task is not started, the loop thread only
gets nearer to it, and no other thread puts anything before it. -/
theorem ahead_of_step {s u : EventLoop τ} {a : Action τ} {ticket : Nat} (ho : s.Ordered)
    (hpushed : ticket < s.pushed.length) (hquit : s.quit = false) (h : s.step a = .next u)
    (hwaiting : u.started.length ≤ ticket) :
    (if a.isLoop then 1 else 0) + u.ahead ticket ≤ s.ahead ticket + a.reports := by
  cases a with
  | loop a =>
    obtain ⟨_, h⟩ := loopStep_of_step h
    exact ahead_of_loopStep ho hpushed hquit (loopStep_cases h) hwaiting
  | call t a =>
    obtain ⟨hcontrol, hbatch, hstarted, _⟩ := callStep_frame h
    rw [ahead_congr hcontrol hbatch hstarted]
    exact Nat.le_of_eq (Nat.zero_add _)

/-- The number of steps before a queued task is started. -/
theorem countP_lt_ahead {s t : EventLoop τ} {as : List (Action τ)} {ticket : Nat}
    (ho : s.Ordered) (hpushed : ticket < s.pushed.length) (hrun : run step s as = some t)
    (hwaits : t.Awaited ticket) :
    as.countP Action.isLoop < s.ahead ticket + (as.map Action.reports).sum := by
  have hbound : as.countP Action.isLoop + t.ahead ticket ≤
      s.ahead ticket + (as.map Action.reports).sum := (countP_le_of_lasting
    (I := fun s : EventLoop τ => s.Ordered ∧ ticket < s.pushed.length)
    (W := fun s => s.Awaited ticket)
    (fun s a t hi hst => ⟨hi.1.step hst, Nat.lt_of_lt_of_le hi.2 (length_le_of_step hst).2⟩)
    (fun s a t hi hst ht => by
      have hquit : s.quit = false := by
        cases hset : s.quit with
        | false => rfl
        | true => exact (quit_of_step hst hset).symm.trans ht.1
      exact ⟨⟨hquit, Nat.le_trans (length_le_of_step hst).1 ht.2⟩,
        ahead_of_step hi.1 hi.2 hquit hst ht.2⟩)
    ⟨ho, hpushed⟩ hrun hwaits).2
  have hpos := ahead_pos t ticket
  omega

/-! ## The loop is not blocked -/

/-- The loop thread is in code of the user, or can make a step. -/
def CanGoOn (s : EventLoop τ) : Prop :=
  s.inUserCode .loop = true ∨ ∃ a u, s.step (.loop a) = .next u

/-- A loop that is not in `epoll_wait` can go on. -/
theorem canGoOn_of_not_poll {s : EventLoop τ} (hs : s.Signalled) (hpoll : s.control ≠ .poll) :
    s.CanGoOn := by
  unfold CanGoOn
  cases huser : s.inUserCode .loop with
  | true => exact Or.inl rfl
  | false =>
    refine Or.inr ?_
    have hidle : s.calls .loop = .none := by
      by_contra hcall
      exact Bool.false_ne_true (huser.symm.trans (hs.user hcall))
    suffices ∃ a u, s.loopStep a = some u by
      obtain ⟨a, u, h⟩ := this
      exact ⟨a, u, step_loop_of_loopStep hidle h⟩
    cases hcontrol : s.control with
    | outside => simp [inUserCode, hcontrol] at huser
    | testQuit => exact ⟨.testQuit, _, if_pos hcontrol⟩
    | poll => exact absurd hcontrol hpoll
    | dispatch active =>
      cases active with
      | nil => exact ⟨.swap, _, if_pos hcontrol⟩
      | cons channel rest =>
        cases channel with
        | wakeup => exact ⟨.handleEvents, _, by rw [loopStep, hcontrol]⟩
        | other => exact ⟨.handleEvents, _, by rw [loopStep, hcontrol]⟩
    | handler active => simp [inUserCode, hcontrol] at huser
    | tasks =>
      cases hbatch : s.queue.batch with
      | nil => exact ⟨.endRound, _, if_pos ⟨hcontrol, by rw [hbatch, List.length_nil]⟩⟩
      | cons task rest => exact ⟨.runTask, _, by rw [loopStep, hcontrol, hbatch]⟩
    | task => simp [inUserCode, hcontrol] at huser

/-- A loop with something to do can go on. -/
theorem canGoOn {s : EventLoop τ} (ho : s.Ordered) (hs : s.Signalled)
    (hwork : (∃ ticket, s.started.length ≤ ticket ∧ s.Queued ticket) ∨ s.quitReturned = true) :
    s.CanGoOn := by
  by_cases hpoll : s.control = .poll
  · obtain ⟨_, u, hu⟩ := hs.notAsleep ho hpoll hwork
    exact Or.inr ⟨_, u, hu⟩
  · exact canGoOn_of_not_poll hs hpoll

/-- A loop that is told to quit, between two calls of its thread and inside
`loop()`, can make a step. -/
theorem exists_step_of_inside {s : EventLoop τ} (ho : s.Ordered) (hs : s.Signalled)
    (hidle : s.calls .loop = .none) (hinside : s.control ≠ .outside)
    (hquit : s.quitReturned = true) : ∃ a u, a ≠ .enter ∧ s.step (.loop a) = .next u := by
  have hreturn : ∀ {a u}, a ≠ .enter → s.loopStep a = some u →
      ∃ a u, a ≠ .enter ∧ s.step (.loop a) = .next u :=
    fun hne h => ⟨_, _, hne, step_loop_of_loopStep hidle h⟩
  cases huser : s.inUserCode .loop with
  | false =>
    obtain hbad | ⟨a, u, h⟩ := canGoOn ho hs (Or.inr hquit)
    · rw [huser] at hbad
      cases hbad
    · refine ⟨a, u, ?_, h⟩
      rintro rfl
      obtain ⟨_, hloop⟩ := loopStep_of_step h
      cases loopStep_cases hloop with
      | enter hcontrol => exact hinside hcontrol
  | true =>
    cases hcontrol : s.control with
    | outside => exact absurd hcontrol hinside
    | handler active => exact hreturn (a := .handlerReturn) (by simp) (by rw [loopStep, hcontrol])
    | task => exact hreturn (a := .taskReturn) (by simp) (if_pos hcontrol)
    | testQuit | poll | dispatch _ | tasks => simp [inUserCode, hcontrol] at huser

theorem sound_of_run {as : List (Action τ)} {s : EventLoop τ} (hrun : run step new as = some s) :
    s.Ordered ∧ s.Signalled := by
  have hall := throughout_of_invariant step
    (I := fun s : EventLoop τ => s.Ordered ∧ s.Signalled) ⟨ordered_new, signalled_new⟩
    (fun _ _ _ hi hstep => ⟨hi.1.step hstep, hi.2.step hi.1 hstep⟩) as
  exact throughout_iff_run.mp hall as s List.prefix_rfl hrun

/-- **A queued task is started.**  Take any run of a loop and any threads, and a
task that has been pushed.  As long as it has not been started and nobody has
called `quit`, the loop thread has made fewer steps than were ahead of the
task, and two for each channel that `epoll_wait` has reported meanwhile,
whatever the other threads have done; and once its `queueInLoop` has returned
the loop thread is never blocked before it is started. -/
theorem queued_task_starts {as bs : List (Action τ)} {s t : EventLoop τ} {ticket : Nat}
    (hs : run step new as = some s) (hpushed : ticket < s.pushed.length)
    (ht : run step s bs = some t) (hwaits : t.Awaited ticket) :
    bs.countP Action.isLoop < s.ahead ticket + (bs.map Action.reports).sum ∧
      (t.Queued ticket → t.CanGoOn) := by
  refine ⟨countP_lt_ahead (sound_of_run hs).1 hpushed ht hwaits, fun hqueued => ?_⟩
  obtain ⟨hordered, hsignalled⟩ := sound_of_run ((run_append hs bs).trans ht)
  exact canGoOn hordered hsignalled (Or.inl ⟨ticket, hwaits.2, hqueued⟩)

/-- One task, queued by another thread before the loop is entered. -/
def queueOne : List (Action Nat) := [.call (.worker 0) (.queueInLoop 7)]

/-- The loop up to the swap that takes it; meanwhile another thread and a
handler queue more. -/
def upToSwap : List (Action Nat) :=
  [.loop .enter, .loop .testQuit, .call (.worker 0) .wakeup, .call (.worker 1) (.queueInLoop 8),
    .loop (.pollReturn [.other, .wakeup]), .loop .handleEvents, .call .loop (.queueInLoop 9),
    .call .loop .wakeup, .loop .handlerReturn, .loop .handleEvents, .loop .swap]

theorem queued_task_starts_upToSwap :
    ∃ s t, run step new queueOne = some s ∧ run step s upToSwap = some t ∧ s.ahead 0 = 5 ∧
      upToSwap.countP Action.isLoop < s.ahead 0 + (upToSwap.map Action.reports).sum ∧
      (t.Queued 0 → t.CanGoOn) := by
  obtain ⟨s, hs⟩ : ∃ s, run step (new : EventLoop Nat) queueOne = some s := ⟨_, rfl⟩
  obtain ⟨t, ht, hwaits⟩ : ∃ t, run step s upToSwap = some t ∧ t.Awaited 0 := by
    cases hs
    exact ⟨_, rfl, rfl, Nat.le_refl 0⟩
  have hpushed : 0 < s.pushed.length := by
    cases hs
    decide
  have hahead : s.ahead 0 = 5 := by
    cases hs
    decide
  exact ⟨s, t, hs, ht, hahead, queued_task_starts hs hpushed ht hwaits⟩

/-! ## After `m_quit` has been set -/

/-- The steps of the loop thread until it has left, without what `epoll_wait`
reports and what is queued until then. -/
def toLeave (s : EventLoop τ) : Nat :=
  match s.control with
  | .outside => 0
  | .testQuit => 1
  | .poll => 2 * s.queue.pending.length + 4
  | .dispatch active => 2 * active.length + 2 * s.queue.pending.length + 3
  | .handler active => 2 * active.length + 2 * s.queue.pending.length + 4
  | .tasks => 2 * s.queue.batch.length + 2
  | .task => 2 * s.queue.batch.length + 3

/-- What is added to these steps: two for each channel reported and for each
task queued, and two when `loop()` is called again. -/
def addsToLeave : Action τ → Nat
  | .loop (.pollReturn active) => 2 * active.length
  | .loop .enter => 2
  | .call _ (.queueInLoop _) => 2
  | .call _ (.runInLoop _) => 2
  | _ => 0

theorem toLeave_of_loopStep {s u : EventLoop τ} {a : LoopAction} (hquit : s.quit = true)
    (h : LoopStep s a u) : 1 + u.toLeave ≤ s.toLeave + addsToLeave (.loop a : Action τ) := by
  cases h with
  | enter hcontrol => simp [toLeave, hcontrol, addsToLeave]
  | testQuit hcontrol => simp [toLeave, hcontrol, hquit]
  | pollReturn active hcontrol =>
    simp only [toLeave, hcontrol, addsToLeave]
    omega
  | handleWakeup rest hcontrol =>
    simp only [toLeave, hcontrol, List.length_cons, handleRead]
    omega
  | handleOther rest hcontrol =>
    simp only [toLeave, hcontrol, List.length_cons]
    omega
  | handlerReturn rest hcontrol =>
    simp only [toLeave, hcontrol]
    omega
  | swap hcontrol =>
    simp only [toLeave, hcontrol, BatchQueue.swap, List.length_nil]
    omega
  | runTask task rest hcontrol hbatch =>
    simp only [toLeave, hcontrol, hbatch, BatchQueue.advance, List.tail_cons, List.length_cons]
    omega
  | taskReturn hcontrol =>
    simp only [toLeave, hcontrol]
    omega
  | endRound hcontrol hbatch =>
    simp only [toLeave, hcontrol, hbatch, List.length_nil]
    omega

/-- A pending task more is two steps more, where the loop still has a swap
before it. -/
theorem toLeave_push (s : EventLoop τ) (t : Thread) (task : τ) :
    (s.push t task).toLeave ≤ s.toLeave + 2 := by
  unfold toLeave push
  cases s.control <;> simp only [BatchQueue.push, List.length_append, List.length_singleton] <;>
    omega

theorem toLeave_of_callStep {s u : EventLoop τ} {t : Thread} {a : CallAction τ}
    (h : s.callStep t a = .next u) : u.toLeave ≤ s.toLeave + addsToLeave (.call t a) := by
  cases a with
  | queueInLoop task =>
    obtain ⟨_, rfl⟩ := Outcome.ite_next_eq_next.mp h
    exact toLeave_push s t task
  | runInLoop task =>
    rw [callStep] at h
    split at h
    · split at h
      · cases h
        exact Nat.le_add_right _ _
      · cases h
        exact toLeave_push s t task
    · cases h
  | wakeup =>
    rw [callStep] at h
    split at h <;> cases h <;> exact Nat.le_refl _
  | quit =>
    rw [callStep] at h
    split at h
    · split at h
      · cases h
      · cases h
        exact Nat.le_refl _
    · cases h
  | quitStore =>
    rw [callStep] at h
    split at h
    · split at h <;> cases h <;> exact Nat.le_refl _
    · cases h

/-- 1 for a loop that is before the return of a wait. -/
def waits (s : EventLoop τ) : Nat :=
  if s.control = .poll then 1 else 0

/-- With `m_quit` set the loop does not go back into `epoll_wait`. -/
theorem waits_of_step {s u : EventLoop τ} {a : Action τ} (hquit : s.quit = true)
    (h : s.step a = .next u) : (if a.isPollReturn then 1 else 0) + u.waits ≤ s.waits := by
  cases a with
  | loop a =>
    obtain ⟨_, h⟩ := loopStep_of_step h
    cases loopStep_cases h with
    | testQuit hcontrol => simp [waits, hquit, Action.isPollReturn]
    | pollReturn active hcontrol => simp [waits, hcontrol, Action.isPollReturn]
    | _ => simp [waits, Action.isPollReturn]
  | call t a =>
    obtain ⟨hcontrol, _⟩ := callStep_frame h
    rw [waits, waits, hcontrol]
    exact Nat.le_of_eq (Nat.zero_add _)

theorem toLeave_of_step {s u : EventLoop τ} {a : Action τ} (hquit : s.quit = true)
    (h : s.step a = .next u) :
    (if a.isLoop then 1 else 0) + u.toLeave ≤ s.toLeave + addsToLeave a := by
  cases a with
  | loop a =>
    obtain ⟨_, h⟩ := loopStep_of_step h
    exact toLeave_of_loopStep hquit (loopStep_cases h)
  | call t a =>
    have hle := toLeave_of_callStep h
    change 0 + u.toLeave ≤ s.toLeave + addsToLeave (.call t a)
    omega

/-- **A loop that has been told to quit leaves.**  From a state of any run in
which `m_quit` is set, whatever all threads do: the loop thread makes at most
`toLeave` steps and what is added to them, `epoll_wait` returns once more at
most, and only when the loop was waiting; and once the call of `quit` has
returned the loop thread is never blocked. -/
theorem quit_leaves {as bs : List (Action τ)} {s t : EventLoop τ}
    (hs : run step new as = some s) (hquit : s.quit = true) (ht : run step s bs = some t) :
    bs.countP Action.isLoop ≤ s.toLeave + (bs.map addsToLeave).sum ∧
      bs.countP Action.isPollReturn ≤ s.waits ∧ (t.quitReturned = true → t.CanGoOn) := by
  have hstays : ∀ (s : EventLoop τ) a t, s.quit = true → s.step a = .next t → t.quit = true :=
    fun _ _ _ hquit hst => quit_of_step hst hquit
  have hsteps : bs.countP Action.isLoop + t.toLeave ≤ s.toLeave + (bs.map addsToLeave).sum :=
    (countP_le_of_lasting (I := fun s : EventLoop τ => s.quit = true) (W := fun _ => True) hstays
      (fun _ _ _ hquit hst _ => ⟨trivial, toLeave_of_step hquit hst⟩) hquit ht trivial).2
  have hwaits : bs.countP Action.isPollReturn + t.waits ≤ s.waits + (bs.map fun _ => 0).sum :=
    (countP_le_of_lasting (I := fun s : EventLoop τ => s.quit = true) (W := fun _ => True) hstays
      (fun _ _ _ hquit hst _ => ⟨trivial, waits_of_step hquit hst⟩) hquit ht trivial).2
  have hnone : (bs.map fun _ : Action τ => 0).sum = 0 := by simp
  refine ⟨by omega, by omega, fun hreturned => ?_⟩
  obtain ⟨hordered, hsignalled⟩ := sound_of_run ((run_append hs bs).trans ht)
  exact canGoOn hordered hsignalled (Or.inr hreturned)

/-- Another thread tells a waiting loop to quit. -/
def quitWaiting : List (Action Nat) :=
  [.loop .enter, .loop .testQuit, .call (.worker 0) .quit, .call (.worker 0) .quitStore]

/-- The rest of that call, and the loop until it has left. -/
def leave : List (Action Nat) :=
  [.call (.worker 0) .wakeup, .loop (.pollReturn [.wakeup]), .loop .handleEvents, .loop .swap,
    .loop .endRound, .loop .testQuit]

theorem quit_leaves_leave :
    ∃ s t, run step new quitWaiting = some s ∧ run step s leave = some t ∧ t.control = .outside ∧
      leave.countP Action.isLoop ≤ s.toLeave + (leave.map addsToLeave).sum ∧
      leave.countP Action.isPollReturn ≤ s.waits ∧ (t.quitReturned = true → t.CanGoOn) := by
  obtain ⟨s, hs⟩ : ∃ s, run step (new : EventLoop Nat) quitWaiting = some s := ⟨_, rfl⟩
  have hquit : s.quit = true := by
    cases hs
    rfl
  obtain ⟨t, ht, hout⟩ : ∃ t, run step s leave = some t ∧ t.control = .outside := by
    cases hs
    exact ⟨_, rfl, rfl⟩
  exact ⟨s, t, hs, ht, hout, quit_leaves hs hquit ht⟩

/-! ## What is left behind -/

/-- Only a swap changes what the loop has started and is about to start. -/
theorem started_append_batch_of_step {s u : EventLoop τ} {a : Action τ}
    (h : s.step a = .next u) (hswap : a ≠ .loop .swap) :
    u.started ++ u.queue.batch = s.started ++ s.queue.batch := by
  cases a with
  | loop a =>
    obtain ⟨_, h⟩ := loopStep_of_step h
    cases loopStep_cases h with
    | swap hcontrol => exact absurd rfl hswap
    | runTask task rest hcontrol hbatch =>
      simp only [hbatch, BatchQueue.advance, List.tail_cons, List.append_assoc,
        List.singleton_append]
    | _ => rfl
  | call t a =>
    obtain ⟨_, hbatch, hstarted, _⟩ := callStep_frame h
    rw [hbatch, hstarted]

theorem started_append_batch_of_run {s u : EventLoop τ} {as : List (Action τ)}
    (h : run step s as = some u) (hswap : .loop .swap ∉ as) :
    u.started ++ u.queue.batch = s.started ++ s.queue.batch := by
  induction as generalizing s with
  | nil =>
    cases h
    rfl
  | cons a as ih =>
    obtain ⟨t, ht, hrest⟩ := run_cons_eq_some.mp h
    rw [List.mem_cons, not_or] at hswap
    rw [ih hrest hswap.2, started_append_batch_of_step ht fun heq => hswap.1 heq.symm]

/-- A loop that has left with `m_quit` set. -/
def Left (s : EventLoop τ) : Prop :=
  s.quit = true ∧ (s.control = .outside ∨ s.control = .testQuit)

/-- A loop that has left starts nothing. -/
theorem Left.step {s u : EventLoop τ} {a : Action τ} (hs : s.Left) (h : s.step a = .next u) :
    u.Left ∧ u.started = s.started := by
  obtain ⟨hquit, hcontrol⟩ := hs
  have hquit' := quit_of_step h hquit
  cases a with
  | loop a =>
    obtain ⟨_, h⟩ := loopStep_of_step h
    cases loopStep_cases h with
    | enter _ => exact ⟨⟨hquit', Or.inr rfl⟩, rfl⟩
    | testQuit _ => exact ⟨⟨hquit', Or.inl (if_pos hquit)⟩, rfl⟩
    | pollReturn _ hc | handleWakeup _ hc | handleOther _ hc | handlerReturn _ hc | swap hc
    | runTask _ _ hc | taskReturn hc | endRound hc =>
      rw [hc] at hcontrol
      simp at hcontrol
  | call t a =>
    obtain ⟨hsame, _, hstarted, _⟩ := callStep_frame h
    refine ⟨⟨hquit', ?_⟩, hstarted⟩
    rw [hsame]
    exact hcontrol

theorem Left.run {s u : EventLoop τ} {as : List (Action τ)} (hs : s.Left)
    (h : run EventLoop.step s as = some u) : u.Left ∧ u.started = s.started := by
  induction as generalizing s with
  | nil =>
    cases h
    exact ⟨hs, rfl⟩
  | cons a as ih =>
    obtain ⟨t, ht, hrest⟩ := run_cons_eq_some.mp h
    obtain ⟨hleft, hstarted⟩ := hs.step ht
    obtain ⟨hleft', hstarted'⟩ := ih hleft hrest
    exact ⟨hleft', hstarted'.trans hstarted⟩

theorem Left.not_inRound {s : EventLoop τ} (hs : s.Left) : ¬ s.InRound := by
  rcases hs.2 with h | h
  · exact not_inRound_of_control h (by simp) (by simp)
  · exact not_inRound_of_control h (by simp) (by simp)

/-- **What is left behind.**  When a loop that was told to quit has left, the
tasks it has run are exactly those that were pushed before its last swap.  All
others stay pending and are never started, also when their `queueInLoop`
returned before `quit` was called. -/
theorem left_behind {before after rest : List (Action τ)} {r s t : EventLoop τ}
    (hr : run step new before = some r) (hs : run step r (.loop .swap :: after) = some s)
    (hlast : .loop .swap ∉ after) (hquit : s.quit = true) (hout : s.control = .outside)
    (ht : run step s rest = some t) :
    s.started = r.pushed ∧ t.started = r.pushed ∧ t.pushed = r.pushed ++ t.queue.pending := by
  obtain ⟨q, hq, hafter⟩ := run_cons_eq_some.mp hs
  obtain ⟨hordered, _⟩ := sound_of_run ((run_append hr _).trans hs)
  have hbatch := hordered.batch_nil (not_inRound_of_control hout (by simp) (by simp))
  -- right after the swap everything pushed has been started or is in the batch
  have hq' : q.started ++ q.queue.batch = r.pushed := by
    obtain ⟨_, hloop⟩ := loopStep_of_step hq
    have hr' := (sound_of_run hr).1
    cases loopStep_cases hloop with
    | swap hcontrol =>
      have hnil := hr'.batch_nil (not_inRound_of_control hcontrol (by simp) (by simp))
      rw [hr'.history, BatchQueue.toList, hnil, List.nil_append]
      rfl
  have hstarted : s.started = r.pushed := by
    rw [← hq', ← started_append_batch_of_run hafter hlast, hbatch, List.append_nil]
  have hleft : s.Left := ⟨hquit, Or.inl hout⟩
  obtain ⟨hleft', hkept⟩ := hleft.run ht
  obtain ⟨hordered', _⟩ := sound_of_run ((run_append ((run_append hr _).trans hs) rest).trans ht)
  have hnil := hordered'.batch_nil hleft'.not_inRound
  refine ⟨hstarted, hkept.trans hstarted, ?_⟩
  rw [hordered'.history, BatchQueue.toList, hnil, List.nil_append, hkept, hstarted]

/-- A loop up to its only swap, with one task pending. -/
def upToLastSwap : List (Action Nat) :=
  [.loop .enter, .loop .testQuit, .call (.worker 0) (.queueInLoop 1), .call (.worker 0) .wakeup,
    .loop (.pollReturn [.wakeup]), .loop .handleEvents]

/-- While that task runs another thread queues a second one, and then tells the
loop to quit. -/
def queueThenQuit : List (Action Nat) :=
  [.loop .runTask, .call (.worker 0) (.queueInLoop 2), .call (.worker 0) .wakeup,
    .call (.worker 0) .quit, .call (.worker 0) .quitStore, .call (.worker 0) .wakeup,
    .loop .taskReturn, .loop .endRound, .loop .testQuit]

theorem left_behind_queueThenQuit :
    ∃ r s t, run step new upToLastSwap = some r ∧
      run step r (.loop .swap :: queueThenQuit) = some s ∧ s.pushed = [1, 2] ∧
      run step s [.loop .enter, .loop .testQuit] = some t ∧
      s.started = r.pushed ∧ t.started = r.pushed ∧ t.pushed = r.pushed ++ t.queue.pending := by
  obtain ⟨r, hr⟩ : ∃ r, run step (new : EventLoop Nat) upToLastSwap = some r := ⟨_, rfl⟩
  obtain ⟨s, hs, hquit, hout, hpushed⟩ : ∃ s, run step r (.loop .swap :: queueThenQuit) = some s ∧
      s.quit = true ∧ s.control = .outside ∧ s.pushed = [1, 2] := by
    cases hr
    exact ⟨_, rfl, rfl, rfl, rfl⟩
  obtain ⟨t, ht⟩ : ∃ t, run step s [.loop .enter, .loop .testQuit] = some t := by
    cases hr
    cases hs
    exact ⟨_, rfl⟩
  exact ⟨r, s, t, hr, hs, hpushed, ht, left_behind hr hs (by decide) hquit hout ht⟩

end EventLoop

end CppWeb.Loop
