/-
  Loop/Wakeup.lean --- no wakeup is lost.

  One read of the eventfd swallows any number of wakeups, and it is not the
  last thing a round does before it blocks again: later handlers may queue, and
  so may other threads between their push and their wakeup.  What holds is
  weaker than "a pending task has a positive counter" and not needed at all
  between the return of `epoll_wait` and the swap, because the swap takes
  whatever is pending by then.  Everywhere else a pending task that no thread
  is about to wake the loop for has a positive counter.
-/
import CppWeb.Loop.TaskQueue

set_option autoImplicit false

namespace CppWeb.Loop.EventLoop

open CppWeb.Foundation

variable {τ : Type}

/-- A pushed task whose `queueInLoop` has returned: no thread is between that
push and its wakeup. -/
def Queued (s : EventLoop τ) (ticket : Nat) : Prop :=
  ticket < s.pushed.length ∧ ∀ t, s.calls t ≠ .queueWakeup ticket

/-- The loop is past `epoll_wait` and has not yet swapped the pending tasks
out. -/
def BeforeSwap (s : EventLoop τ) : Prop :=
  (∃ active, s.control = .dispatch active) ∨ ∃ active, s.control = .handler active

/-- The number of tasks that were started or are in the current batch. -/
def taken (s : EventLoop τ) : Nat := s.started.length + s.queue.batch.length

/-- Outside the stretch before the swap, a queued task that is not in the batch
keeps the counter positive; and a call of `quit` that has returned is either
still to be seen by the next test of `m_quit` or keeps the counter positive. -/
structure Signalled (s : EventLoop τ) : Prop where
  task : ¬ s.BeforeSwap → ∀ ticket, s.taken ≤ ticket → s.Queued ticket → 0 < s.wakeupFd
  quit : s.quitReturned = true → s.quit = true
  poll : s.control = .poll → s.quitReturned = true → 0 < s.wakeupFd
  waking : ∀ t, s.calls t = .quitWakeup → s.quit = true
  user : s.calls .loop ≠ .none → s.inUserCode .loop = true

theorem signalled_new : (new : EventLoop τ).Signalled :=
  ⟨fun _ ticket _ h => absurd h.1 (Nat.not_lt_zero ticket), fun h => h,
    fun h => by simp [new] at h, fun t h => by simp [new] at h, fun h => absurd rfl h⟩

theorem not_beforeSwap_of_control {s : EventLoop τ} {c : Control} (h : s.control = c)
    (hdispatch : ∀ active, c ≠ .dispatch active) (hhandler : ∀ active, c ≠ .handler active) :
    ¬ s.BeforeSwap := by
  subst h
  rintro (⟨active, h⟩ | ⟨active, h⟩)
  · exact hdispatch active h
  · exact hhandler active h

/-! ## Steps of the loop thread -/

/-- Right after the swap every pushed task has been started or is in the
batch. -/
theorem length_pushed_of_swap {s : EventLoop τ} (hs : s.Ordered)
    (h : s.control = .dispatch []) :
    s.pushed.length = s.started.length + s.queue.swap.batch.length := by
  have hbatch := hs.batch_nil (not_inRound_of_control h (by simp) (by simp))
  rw [hs.history, BatchQueue.toList, hbatch, List.nil_append, List.length_append]
  rfl

/-- A step of the loop thread keeps the signals. -/
theorem Signalled.loopStep {s u : EventLoop τ} {a : LoopAction} (ho : s.Ordered)
    (hs : s.Signalled) (hidle : s.calls .loop = .none) (h : LoopStep s a u) :
    u.Signalled := by
  cases h with
  | enter h =>
    refine ⟨fun _ => hs.task ?_, hs.quit, fun hpoll => by simp at hpoll, hs.waking,
      fun h => absurd hidle h⟩
    exact not_beforeSwap_of_control h (by simp) (by simp)
  | testQuit h =>
    refine ⟨fun _ => hs.task ?_, hs.quit, fun hpoll hquit => ?_, hs.waking,
      fun h => absurd hidle h⟩
    · exact not_beforeSwap_of_control h (by simp) (by simp)
    · -- a `quit` that has returned before the test is seen by the test
      simp [hs.quit hquit] at hpoll
  | pollReturn active h =>
    exact ⟨fun hbefore => absurd (Or.inl ⟨active, rfl⟩) hbefore, hs.quit,
      fun hpoll => by simp at hpoll, hs.waking,
      fun h => absurd hidle h⟩
  | handleWakeup rest h =>
    exact ⟨fun hbefore => absurd (Or.inl ⟨rest, rfl⟩) hbefore, hs.quit,
      fun hpoll => by simp at hpoll, hs.waking,
      fun h => absurd hidle h⟩
  | handleOther rest h =>
    exact ⟨fun hbefore => absurd (Or.inr ⟨rest, rfl⟩) hbefore, hs.quit,
      fun hpoll => by simp at hpoll, hs.waking,
      fun h => absurd hidle h⟩
  | handlerReturn rest h =>
    exact ⟨fun hbefore => absurd (Or.inl ⟨rest, rfl⟩) hbefore, hs.quit,
      fun hpoll => by simp at hpoll, hs.waking,
      fun h => absurd hidle h⟩
  | swap h =>
    refine ⟨fun _ ticket htaken hqueued => ?_, hs.quit, fun hpoll => by simp at hpoll, hs.waking,
      fun h => absurd hidle h⟩
    have hall := length_pushed_of_swap ho h
    have hlt := hqueued.1
    simp only [taken] at htaken
    dsimp only at hlt
    omega
  | runTask task rest h hbatch =>
    refine ⟨fun _ ticket htaken hqueued => hs.task ?_ ticket ?_ hqueued, hs.quit,
      fun hpoll => by simp at hpoll, hs.waking,
      fun h => absurd hidle h⟩
    · exact not_beforeSwap_of_control h (by simp) (by simp)
    · simp only [taken, BatchQueue.advance, hbatch, List.tail_cons, List.length_append,
        List.length_cons] at htaken ⊢
      omega
  | taskReturn h =>
    refine ⟨fun _ => hs.task ?_, hs.quit, fun hpoll => by simp at hpoll, hs.waking,
      fun h => absurd hidle h⟩
    exact not_beforeSwap_of_control h (by simp) (by simp)
  | endRound h hbatch =>
    refine ⟨fun _ => hs.task ?_, hs.quit, fun hpoll => by simp at hpoll, hs.waking,
      fun h => absurd hidle h⟩
    exact not_beforeSwap_of_control h (by simp) (by simp)

/-! ## Steps of calls -/

/-- A push keeps the signals: the thread that pushed is before its wakeup. -/
theorem Signalled.push {s : EventLoop τ} (hs : s.Signalled) (t : Thread) (task : τ)
    (hmay : s.MayCall t) : (s.push t task).Signalled := by
  obtain ⟨hidle, huser⟩ := hmay
  refine ⟨fun hbefore ticket htaken hqueued => ?_, hs.quit, hs.poll, fun t' h => ?_,
    fun h => ?_⟩
  · obtain ⟨hlt, hcalls⟩ := hqueued
    have hne : ticket ≠ s.pushed.length := by
      intro heq
      exact hcalls t (by simp [EventLoop.push, heq])
    refine hs.task hbefore ticket htaken ⟨?_, fun t' => ?_⟩
    · simp only [EventLoop.push, List.length_append, List.length_singleton] at hlt
      omega
    · by_cases ht : t' = t
      · subst ht
        simp [hidle]
      · have hcall := hcalls t'
        simpa [EventLoop.push, ht] using hcall
  · by_cases ht : t' = t
    · subst ht
      simp [EventLoop.push] at h
    · exact hs.waking t' (by simpa [EventLoop.push, ht] using h)
  · by_cases ht : t = .loop
    · subst ht
      exact huser
    · exact hs.user (by simpa [EventLoop.push, Ne.symm ht] using h)

/-- A wakeup makes the counter positive, which settles every signal. -/
theorem Signalled.wakeup {s : EventLoop τ} (hs : s.Signalled) (t : Thread) (quitReturned : Bool)
    (hquit : quitReturned = true → s.quit = true) :
    ({ s.wakeup with
        calls := Function.update s.calls t .none
        quitReturned := quitReturned } : EventLoop τ).Signalled := by
  have hpos := wakeupFd_wakeup_pos s
  refine ⟨fun _ _ _ _ => hpos, hquit, fun _ _ => hpos, fun t' h => ?_, fun h => ?_⟩
  · by_cases ht : t' = t
    · subst ht
      simp at h
    · exact hs.waking t' (by simpa [ht] using h)
  · by_cases ht : t = .loop
    · subst ht
      simp at h
    · exact hs.user (by simpa [Ne.symm ht] using h)

/-- A step of a call that neither pushes nor wakes keeps the signals when it
leaves `m_quit` set wherever it was set. -/
theorem Signalled.callChange {s : EventLoop τ} (hs : s.Signalled) (t : Thread)
    (call : Call) (quit : Bool) (hcall : ∀ ticket, s.calls t ≠ .queueWakeup ticket)
    (hquit : s.quit = true → quit = true) (hset : call = .quitWakeup → quit = true)
    (huser : call ≠ .none → s.inUserCode t = true) :
    ({ s with calls := Function.update s.calls t call, quit := quit } :
      EventLoop τ).Signalled := by
  refine ⟨fun hbefore ticket htaken hqueued => hs.task hbefore ticket htaken ⟨hqueued.1, ?_⟩,
    fun h => hquit (hs.quit h), hs.poll, fun t' h => ?_, fun h => ?_⟩
  · intro t'
    by_cases ht : t' = t
    · subst ht
      exact hcall ticket
    · simpa [ht] using hqueued.2 t'
  · by_cases ht : t' = t
    · subst ht
      exact hset (by simpa using h)
    · exact hquit (hs.waking t' (by simpa [ht] using h))
  · by_cases ht : t = .loop
    · subst ht
      exact huser (by simpa using h)
    · exact hs.user (by simpa [Ne.symm ht] using h)

/-- A step of a call keeps the signals. -/
theorem Signalled.callStep {s u : EventLoop τ} {t : Thread} {a : CallAction τ}
    (hs : s.Signalled) (h : s.callStep t a = .next u) : u.Signalled := by
  cases a with
  | queueInLoop task =>
    rw [EventLoop.callStep] at h
    split at h
    · rename_i hmay
      cases h
      exact hs.push t task hmay
    · simp at h
  | runInLoop task =>
    rw [EventLoop.callStep] at h
    split at h
    · rename_i hmay
      split at h
      · cases h
        exact hs
      · cases h
        exact hs.push t task hmay
    · simp at h
  | wakeup =>
    rw [EventLoop.callStep] at h
    split at h
    · cases h
      exact hs.wakeup t s.quitReturned hs.quit
    · rename_i hcall
      cases h
      exact hs.wakeup t true fun _ => hs.waking t hcall
    · simp at h
    · simp at h
  | quit =>
    rw [EventLoop.callStep] at h
    split at h
    · rename_i hmay
      split at h
      · simp at h
      · cases h
        exact hs.callChange t .quitStore s.quit (by simp [hmay.1]) id (by simp)
          (fun _ => hmay.2)
    · simp at h
  | quitStore =>
    rw [EventLoop.callStep] at h
    split at h
    · rename_i hcall
      split at h
      · rename_i hloop
        subst hloop
        cases h
        have hchange := hs.callChange .loop .none true (by simp [hcall]) (fun _ => rfl)
          (by simp) (fun h => absurd rfl h)
        refine ⟨hchange.task, fun _ => rfl, fun hpoll _ => ?_, hchange.waking, hchange.user⟩
        -- the loop thread is in code of the user, not in `epoll_wait`
        have huser := hs.user (by simp [hcall])
        dsimp only at hpoll
        simp [inUserCode, hpoll] at huser
      · cases h
        rename_i hother
        refine hs.callChange t .quitWakeup true (by simp [hcall]) (fun _ => rfl) (fun _ => rfl)
          (fun _ => ?_)
        cases t with
        | loop => exact absurd rfl hother
        | worker i => rfl
    · simp at h

/-- **One step.**  Whatever any thread does keeps the signals. -/
theorem Signalled.step {s u : EventLoop τ} {a : Action τ} (ho : s.Ordered)
    (hs : s.Signalled) (h : s.step a = .next u) : u.Signalled := by
  cases a with
  | loop a =>
    obtain ⟨hidle, h⟩ := loopStep_of_step h
    exact hs.loopStep ho hidle (loopStep_cases h)
  | call t a => exact hs.callStep h

/-! ## Runs -/

/-- The loop is not left asleep: when it is blocked in `epoll_wait` and some
task whose `queueInLoop` returned has not been started, or some `quit` that
returned has not been observed, the counter is positive and the wait can
return. -/
def NotAsleep (s : EventLoop τ) : Prop :=
  s.control = .poll →
    ((∃ ticket, s.started.length ≤ ticket ∧ s.Queued ticket) ∨ s.quitReturned = true) →
      0 < s.wakeupFd ∧
        ∃ u, s.step (.loop (.pollReturn [.wakeup])) = .next u

theorem Signalled.notAsleep {s : EventLoop τ} (ho : s.Ordered) (hs : s.Signalled) :
    s.NotAsleep := by
  intro hpoll hwork
  have hpos : 0 < s.wakeupFd := by
    rcases hwork with ⟨ticket, hstarted, hqueued⟩ | hquit
    · have hbatch := ho.batch_nil (not_inRound_of_control hpoll (by simp) (by simp))
      refine hs.task (not_beforeSwap_of_control hpoll (by simp) (by simp)) ticket ?_ hqueued
      simpa [taken, hbatch] using hstarted
    · exact hs.poll hpoll hquit
  have hidle : s.calls .loop = .none := by
    by_contra hcall
    have huser := hs.user hcall
    simp [inUserCode, hpoll] at huser
  refine ⟨hpos, { s with control := .dispatch [.wakeup] }, ?_⟩
  exact step_loop_of_loopStep hidle (if_pos ⟨hpoll, fun _ => hpos⟩)

/-- **No wakeup is lost.**  In every state of every run of a loop and any
threads, a loop that is blocked with work to do has a positive eventfd
counter. -/
theorem no_lost_wakeup (actions : List (Action τ)) :
    Throughout step NotAsleep new actions := by
  have hall := throughout_of_invariant step
    (I := fun s : EventLoop τ => s.Ordered ∧ s.Signalled) ⟨ordered_new, signalled_new⟩
    (fun _ _ _ hi hstep => ⟨hi.1.step hstep, hi.2.step hi.1 hstep⟩) actions
  exact hall.mono fun _ hs => hs.2.notAsleep hs.1

end CppWeb.Loop.EventLoop
