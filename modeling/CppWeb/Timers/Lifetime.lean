/-
  Timers/Lifetime.lean --- no timer is used after it was deleted.

  In the runs in which every closure of `cancelTimer` finds its timer in
  `m_timers`, ownership (`Timers/Ownership.lean`) gives that no step reads, runs
  or deletes a timer that has been deleted, and that `m_timers` holds none.  In
  others a deleted timer is read: `TCPClient`, for one, cancels its retry timer
  from the callback of that timer when `connect` succeeds at once.
-/
import CppWeb.Timers.Ownership

set_option autoImplicit false

namespace CppWeb.Timers.TimerQueue

open CppWeb.Foundation CppWeb.Loop

/-- Every timer in `m_timers` is alive. -/
def NoneDangling (s : TimerQueue) : Prop :=
  ∀ e ∈ s.timers.toList, (s.heap.read e.timer).isSome = true

instance (s : TimerQueue) : Decidable s.NoneDangling :=
  inferInstanceAs (Decidable (∀ e ∈ s.timers.toList, _))

/-- The program does not stop for a deleted timer: none is read, and none is
deleted again. -/
def Spares (reason : Abort) : Prop := reason ≠ .useAfterFree ∧ reason ≠ .doubleFree

instance (reason : Abort) : Decidable (Spares reason) :=
  inferInstanceAs (Decidable (_ ≠ _ ∧ _ ≠ _))

/-- In all of the run no deleted timer is read, run or deleted again, and none
is put or left in `m_timers`. -/
def LifetimesKept (s : TimerQueue) (actions : List Action) : Prop :=
  Throughout step NoneDangling s actions ∧
    Along step (fun s a => (s.step a).Stops Spares) s actions

instance (s : TimerQueue) (actions : List Action) : Decidable (LifetimesKept s actions) :=
  inferInstanceAs (Decidable (_ ∧ _))

theorem Owned.noneDangling {s : TimerQueue} (h : s.Owned) : s.NoneDangling := by
  intro e he
  obtain ⟨timer, hread, _⟩ := h.owns.inTimers e he
  rw [hread]
  rfl

/-- **Lifetimes of timers.**  In every run in which the closures of `cancelTimer`
find their timers in `m_timers`, no timer is deleted twice, and no deleted timer
is read, run, put back into `m_timers` or left there. -/
theorem timer_lifetime (wall : TimePoint) (monotonic : Int) (actions : List Action)
    (h : Along step (fun s a => ¬ s.CancelsAstray a) (new wall monotonic) actions) :
    LifetimesKept (new wall monotonic) actions := by
  have hstep : ∀ (s : TimerQueue) a v, s.Owned → ¬ s.CancelsAstray a → s.step a = .next v →
      v.Owned := fun _ _ _ hs hgood hout => (hs.step hgood).leads hout
  refine ⟨?_, along_of_along (owned_new wall monotonic) hstep (fun s a hs hgood => ?_) h⟩
  · exact (throughout_of_along (owned_new wall monotonic) hstep h).mono
      fun _ hs => hs.noneDangling
  · exact (hs.step hgood).stops Spares

/-- A repeating timer and two that expire with it; the callback of the first
adds a timer and cancels one that is pending, a worker cancels the repeating
timer between two of its runs, and the queue is destroyed. -/
def cancelledInTime : List Action :=
  [.add .loop (.runEvery 1000) 1, .add (.worker 0) (.runAfter 1000) 2,
    .add .loop (.runAt 1000) 3, .add .loop (.runAt 5000) 4, .swap, .runTask, .endRound,
    .elapse 2000 2000, .handleRead, .runTimer, .add .loop (.runAfter 10) 5,
    .cancel .loop ⟨4, 3⟩, .callbackReturn, .runTimer, .callbackReturn, .runTimer,
    .callbackReturn, .rearm, .cancel (.worker 0) ⟨1, 0⟩, .swap, .runTask, .endRound, .destroy]

/-- In that run three callbacks have been run, and all five timers are deleted. -/
theorem timer_lifetime_cancelledInTime :
    Along step (fun s a => ¬ s.CancelsAstray a) (new 0 0) cancelledInTime ∧
      (run step (new 0 0) cancelledInTime).map
          (fun s => (s.runs.length, s.heap.objects.map Object.deleted)) =
        some (3, [true, true, true, true, true]) ∧
      LifetimesKept (new 0 0) cancelledInTime :=
  ⟨by decide +kernel, by decide +kernel, timer_lifetime 0 0 _ (by decide +kernel)⟩

/-! ## Cancelling a timer that is being run -/

/-- The cancel is one that a caller may make: `addTimer` returned the pointer,
it has not been cancelled before, and the timer repeats or has not finished its
one run. -/
def Permitted (s : TimerQueue) : Action → Prop
  | .cancel _ timer =>
    (∃ a ∈ s.added, a.1 = timer ∧ (a.2.isRepeat = true ∨ timer ∉ s.runs.map Prod.fst ∨
      timer ∈ (match s.phase with
        | .callback _ e _ => [e.timer]
        | _ => []))) ∧
      timer ∉ s.cancels
  | _ => True

instance (s : TimerQueue) : ∀ a, Decidable (s.Permitted a)
  | .cancel _ _ => inferInstanceAs (Decidable (_ ∧ _))
  | .elapse .. => isTrue trivial
  | .expire => isTrue trivial
  | .add .. => isTrue trivial
  | .handleRead => isTrue trivial
  | .runTimer => isTrue trivial
  | .callbackReturn => isTrue trivial
  | .rearm => isTrue trivial
  | .swap => isTrue trivial
  | .runTask => isTrue trivial
  | .endRound => isTrue trivial
  | .destroy => isTrue trivial

/-- A repeating timer is cancelled by its own callback. -/
def cancelledByItself : List Action :=
  [.add .loop (.runEvery 1000) 1, .elapse 2000 2000, .handleRead, .runTimer,
    .cancel .loop ⟨1, 0⟩, .callbackReturn]

/-- `handleRead` reads the deleted timer when the callback returns. -/
theorem not_lifetimesKept_cancelledByItself :
    Along step Permitted (new 0 0) cancelledByItself ∧
      ¬ LifetimesKept (new 0 0) cancelledByItself := by
  decide +kernel

end CppWeb.Timers.TimerQueue
