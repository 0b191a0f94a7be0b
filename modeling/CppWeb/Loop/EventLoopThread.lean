/-
  Loop/EventLoopThread.lean --- an event loop in a thread of its own.

  `startLoop` creates a thread and waits on `m_cond` until the thread has
  constructed its `EventLoop` and notified.  It waits once, for the notification
  itself: no predicate is tested, neither before the `wait` nor after it.  So the
  hand-shake rests on two coincidences.  The notification has to find
  `startLoop` asleep, and nothing else may wake it before `m_loop` is stored.

  A step is what a thread does between two points at which the other can be
  seen.  `m_mutex` is taken by nobody but `startLoop`.  The loop is named by its
  address on the stack of its thread.
-/
import CppWeb.Abort
import CppWeb.Foundation.Monitor
import CppWeb.Foundation.Transition

set_option autoImplicit false

namespace CppWeb.Loop

open CppWeb.Foundation

/-- Where the call of `startLoop` is. -/
inductive Starter where
  | notCalled
  /-- past the assertion, about to create the thread -/
  | spawning
  /-- about to take the mutex -/
  | locking
  /-- holds the mutex, at `m_cond.wait` -/
  | waiting
  /-- in `m_cond.wait`, not woken -/
  | asleep
  /-- woken, about to take the mutex again -/
  | waking
  /-- holds the mutex, at `return m_loop` -/
  | leaving
  | returned (loop : Option Nat)
  deriving DecidableEq, Repr

/-- Where the new thread is in `runInThread`. -/
inductive Runner where
  /-- not created yet -/
  | absent
  | constructing
  /-- about to store the address of its loop to `m_loop` -/
  | storing (loop : Nat)
  /-- about to call `notify_one` -/
  | notifying (loop : Nat)
  /-- past `notify_one`, in `loop.loop()` -/
  | looping (loop : Nat)
  deriving DecidableEq, Repr

/-- The thread that calls `startLoop` has created the other and is not asleep
yet. -/
def Starter.early : Starter → Bool
  | .locking => true
  | .waiting => true
  | _ => false

/-- The thread has done its `notify_one`. -/
def Runner.notified : Runner → Bool
  | .looping _ => true
  | _ => false

/-- The loop, once the thread has stored it to `m_loop`. -/
def Runner.stored : Runner → Option Nat
  | .absent => none
  | .constructing => none
  | .storing _ => none
  | .notifying loop => some loop
  | .looping loop => some loop

/-- An `EventLoopThread`, the call of `startLoop` and the thread. -/
structure EventLoopThread where
  started : Bool
  loop : Option Nat
  starter : Starter
  runner : Runner
  deriving DecidableEq, Repr

/-- What can happen next. -/
inductive HandOver where
  /-- a call of `startLoop`, up to the creation of the thread -/
  | startLoop
  | spawn
  | lock
  /-- `m_cond.wait` unlocks the mutex and puts the thread to sleep -/
  | sleep
  /-- the sleeper wakes out of turn -/
  | rouse
  /-- `m_cond.wait` takes the mutex again and returns -/
  | relock
  /-- `return m_loop` -/
  | ret
  /-- the new thread has constructed its loop, at this address -/
  | construct (loop : Nat)
  | store
  | notify
  deriving DecidableEq, Repr

namespace EventLoopThread

/-- `m_cond`, on which only `startLoop` waits. -/
def cond : Condition Starter where
  asleep
    | .asleep => true
    | _ => false
  wake
    | .asleep => .waking
    | starter => starter
  awake starter := by cases starter <;> rfl

/-- `EventLoopThread::EventLoopThread` -/
def new : EventLoopThread :=
  { started := false, loop := none, starter := .notCalled, runner := .absent }

/-- The head of `startLoop`. -/
def startLoop (s : EventLoopThread) : Except Abort EventLoopThread := do
  require .startLoop (s.started = false)
  .ok { s with started := true, starter := .spawning }

/-- One step of one thread. -/
def step (s : EventLoopThread) : HandOver → Outcome Abort EventLoopThread
  | .startLoop => Outcome.ofExcept s.startLoop
  | .spawn =>
      if s.starter = .spawning then
        .next { s with starter := .locking, runner := .constructing }
      else .disabled
  | .lock => if s.starter = .locking then .next { s with starter := .waiting } else .disabled
  | .sleep => if s.starter = .waiting then .next { s with starter := .asleep } else .disabled
  | .rouse => if s.starter = .asleep then .next { s with starter := .waking } else .disabled
  | .relock => if s.starter = .waking then .next { s with starter := .leaving } else .disabled
  | .ret =>
      if s.starter = .leaving then .next { s with starter := .returned s.loop } else .disabled
  | .construct loop =>
      if s.runner = .constructing then .next { s with runner := .storing loop } else .disabled
  | .store =>
      match s.runner with
      | .storing loop => .next { s with loop := some loop, runner := .notifying loop }
      | _ => .disabled
  | .notify =>
      match s.runner with
      | .notifying loop =>
          .next { s with starter := cond.notify s.starter, runner := .looping loop }
      | _ => .disabled

/-- What a step can do. -/
inductive Stepped (s : EventLoopThread) : HandOver → EventLoopThread → Prop where
  | startLoop (hstarted : s.started = false) :
      Stepped s .startLoop { s with started := true, starter := .spawning }
  | spawn (hplace : s.starter = .spawning) :
      Stepped s .spawn { s with starter := .locking, runner := .constructing }
  | lock (hplace : s.starter = .locking) : Stepped s .lock { s with starter := .waiting }
  | sleep (hplace : s.starter = .waiting) : Stepped s .sleep { s with starter := .asleep }
  | rouse (hplace : s.starter = .asleep) : Stepped s .rouse { s with starter := .waking }
  | relock (hplace : s.starter = .waking) : Stepped s .relock { s with starter := .leaving }
  | ret (hplace : s.starter = .leaving) : Stepped s .ret { s with starter := .returned s.loop }
  | construct (loop : Nat) (hrunner : s.runner = .constructing) :
      Stepped s (.construct loop) { s with runner := .storing loop }
  | store (loop : Nat) (hrunner : s.runner = .storing loop) :
      Stepped s .store { s with loop := some loop, runner := .notifying loop }
  | notify (loop : Nat) (hrunner : s.runner = .notifying loop) :
      Stepped s .notify { s with starter := cond.notify s.starter, runner := .looping loop }

theorem step_cases {s t : EventLoopThread} {a : HandOver} (h : s.step a = .next t) :
    Stepped s a t := by
  cases a with
  | startLoop =>
    rw [step, Outcome.ofExcept_eq_next, startLoop, bind_eq_ok] at h
    obtain ⟨_, hstarted, h⟩ := h
    cases h
    exact .startLoop (require_eq_ok.mp hstarted)
  | spawn =>
    obtain ⟨hplace, rfl⟩ := Outcome.ite_next_eq_next.mp h
    exact .spawn hplace
  | lock =>
    obtain ⟨hplace, rfl⟩ := Outcome.ite_next_eq_next.mp h
    exact .lock hplace
  | sleep =>
    obtain ⟨hplace, rfl⟩ := Outcome.ite_next_eq_next.mp h
    exact .sleep hplace
  | rouse =>
    obtain ⟨hplace, rfl⟩ := Outcome.ite_next_eq_next.mp h
    exact .rouse hplace
  | relock =>
    obtain ⟨hplace, rfl⟩ := Outcome.ite_next_eq_next.mp h
    exact .relock hplace
  | ret =>
    obtain ⟨hplace, rfl⟩ := Outcome.ite_next_eq_next.mp h
    exact .ret hplace
  | construct loop =>
    obtain ⟨hrunner, rfl⟩ := Outcome.ite_next_eq_next.mp h
    exact .construct loop hrunner
  | store =>
    rw [step] at h
    split at h
    · rename_i loop hrunner
      cases h
      exact .store loop hrunner
    · cases h
  | notify =>
    rw [step] at h
    split at h
    · rename_i loop hrunner
      cases h
      exact .notify loop hrunner
    · cases h

/-! ## The hand-shake -/

/-- `startLoop` returns the loop of the new thread, and it is not asleep once
that thread has stored its loop and notified. -/
def Sound (s : EventLoopThread) : Prop :=
  match s.starter with
  | .returned loop => loop ≠ none ∧ s.runner.stored = loop
  | .asleep => s.runner.notified = false
  | _ => True

instance (s : EventLoopThread) : Decidable s.Sound := by
  unfold Sound
  split <;> infer_instance

/-- The notification does not come before `startLoop` is asleep, and no other
wakeup comes before `m_loop` is stored. -/
def Meets (s : EventLoopThread) : HandOver → Prop
  | .notify => s.starter.early = false
  | .rouse => s.loop ≠ none
  | _ => True

instance (s : EventLoopThread) : ∀ a : HandOver, Decidable (s.Meets a)
  | .notify => inferInstanceAs (Decidable (_ = _))
  | .rouse => inferInstanceAs (Decidable (_ ≠ _))
  | .startLoop | .spawn | .lock | .sleep | .relock | .ret | .construct _ | .store => isTrue trivial

/-- `m_loop` holds what the thread has stored, and there is no thread before it
is created. -/
structure Inv (s : EventLoopThread) : Prop where
  before : s.started = false → s.starter = .notCalled
  absent : s.starter = .notCalled ∨ s.starter = .spawning → s.runner = .absent
  loop : s.loop = s.runner.stored

theorem inv_new : new.Inv := ⟨fun _ => rfl, fun _ => rfl, rfl⟩

/-- The call of `startLoop` goes on from where it has been made. -/
theorem Inv.goOn {s : EventLoopThread} (hs : s.Inv) {place starter : Starter}
    (hplace : s.starter = place) (hcalled : place ≠ .notCalled)
    (hthere : starter ≠ .notCalled ∧ starter ≠ .spawning) :
    ({ s with starter := starter } : EventLoopThread).Inv := by
  refine ⟨fun hnot => ?_, fun hat => ?_, hs.loop⟩
  · have hidle := hs.before hnot
    rw [hplace] at hidle
    exact absurd hidle hcalled
  · rcases hat with hat | hat
    · exact absurd hat hthere.1
    · exact absurd hat hthere.2

/-- The thread goes on, once it has been created. -/
theorem Inv.work {s : EventLoopThread} (hs : s.Inv) (hthere : s.runner ≠ .absent)
    {loop : Option Nat} {runner : Runner} (hloop : loop = runner.stored) :
    ({ s with loop := loop, runner := runner } : EventLoopThread).Inv :=
  ⟨hs.before, fun hat => absurd (hs.absent hat) hthere, hloop⟩

/-- A notification reaches a call of `startLoop` only where it is asleep. -/
theorem notify_cases (starter : Starter) :
    starter = .asleep ∧ cond.notify starter = .waking ∨
      starter ≠ .asleep ∧ cond.notify starter = starter := by
  cases starter with
  | asleep => exact Or.inl ⟨rfl, rfl⟩
  | _ => exact Or.inr ⟨nofun, rfl⟩

theorem Inv.step {s t : EventLoopThread} {a : HandOver} (hs : s.Inv) (h : s.step a = .next t) :
    t.Inv := by
  cases step_cases h with
  | startLoop hstarted =>
    exact ⟨nofun, fun _ => hs.absent (Or.inl (hs.before hstarted)), hs.loop⟩
  | spawn hplace =>
    have hloop : s.loop = none := by
      rw [hs.loop, hs.absent (Or.inr hplace)]
      rfl
    refine ⟨fun hnot => ?_, nofun, hloop⟩
    have hidle := hs.before hnot
    rw [hplace] at hidle
    cases hidle
  | lock hplace => exact hs.goOn hplace nofun ⟨nofun, nofun⟩
  | sleep hplace => exact hs.goOn hplace nofun ⟨nofun, nofun⟩
  | rouse hplace => exact hs.goOn hplace nofun ⟨nofun, nofun⟩
  | relock hplace => exact hs.goOn hplace nofun ⟨nofun, nofun⟩
  | ret hplace => exact hs.goOn hplace nofun ⟨nofun, nofun⟩
  | construct loop hrunner =>
    refine hs.work (by rw [hrunner]; nofun) ?_
    rw [hs.loop, hrunner]
    rfl
  | store loop hrunner => exact hs.work (by rw [hrunner]; nofun) rfl
  | notify loop hrunner =>
    have hwork : ({ s with runner := .looping loop } : EventLoopThread).Inv := by
      refine hs.work (by rw [hrunner]; nofun) ?_
      rw [hs.loop, hrunner]
      rfl
    rcases notify_cases s.starter with ⟨hasleep, hwoken⟩ | ⟨_, hstays⟩
    · rw [hwoken]
      exact hwork.goOn hasleep nofun ⟨nofun, nofun⟩
    · rw [hstays]
      exact hwork

/-- How far the two have come, in a run whose notifications and wakeups come at
the right time: the notification is still to come until `startLoop` is woken,
and then there is a loop. -/
structure HandShake (s : EventLoopThread) : Prop where
  awaited : s.starter.early = true ∨ s.starter = .asleep → s.runner.notified = false
  woken : s.starter = .waking ∨ s.starter = .leaving → s.loop ≠ none
  returned : ∀ loop, s.starter = .returned loop → loop ≠ none ∧ s.loop = loop

theorem handShake_new : new.HandShake := ⟨nofun, nofun, nofun⟩

theorem HandShake.sound {s : EventLoopThread} (hs : s.HandShake) (hinv : s.Inv) : s.Sound := by
  unfold Sound
  split
  · rename_i loop hreturned
    obtain ⟨hsome, hloop⟩ := hs.returned loop hreturned
    exact ⟨hsome, hinv.loop.symm.trans hloop⟩
  · rename_i hasleep
    exact hs.awaited (Or.inr hasleep)
  · trivial

theorem HandShake.step {s t : EventLoopThread} {a : HandOver} (hs : s.HandShake) (hinv : s.Inv)
    (hgood : s.Meets a) (h : s.step a = .next t) : t.HandShake := by
  cases step_cases h with
  | startLoop hstarted => exact ⟨nofun, nofun, nofun⟩
  | spawn hplace => exact ⟨fun _ => rfl, nofun, nofun⟩
  | lock hplace => exact ⟨fun _ => hs.awaited (Or.inl (by rw [hplace]; rfl)), nofun, nofun⟩
  | sleep hplace => exact ⟨fun _ => hs.awaited (Or.inl (by rw [hplace]; rfl)), nofun, nofun⟩
  | rouse hplace => exact ⟨nofun, fun _ => hgood, nofun⟩
  | relock hplace => exact ⟨nofun, fun _ => hs.woken (Or.inl hplace), nofun⟩
  | ret hplace =>
    refine ⟨nofun, nofun, ?_⟩
    rintro loop hreturned
    cases hreturned
    exact ⟨hs.woken (Or.inr hplace), rfl⟩
  | construct loop hrunner => exact ⟨fun _ => rfl, hs.woken, hs.returned⟩
  | store loop hrunner =>
    refine ⟨fun _ => rfl, fun _ => nofun, fun loop' hreturned => ?_⟩
    -- nothing is stored yet, so `startLoop` has not returned
    obtain ⟨hsome, hloop⟩ := hs.returned loop' hreturned
    rw [hinv.loop, hrunner] at hloop
    exact absurd hloop.symm hsome
  | notify loop hrunner =>
    have hstored : s.loop = some loop := by
      rw [hinv.loop, hrunner]
      rfl
    have hearly : s.starter.early = false := hgood
    rcases notify_cases s.starter with ⟨_, hwoken⟩ | ⟨hnot, hstays⟩
    · rw [hwoken]
      exact ⟨nofun, fun _ => by rw [hstored]; nofun, nofun⟩
    · rw [hstays]
      refine ⟨?_, hs.woken, hs.returned⟩
      rintro (hat | hat)
      · rw [hearly] at hat
        cases hat
      · exact absurd hat hnot

/-! ## Runs -/

/-- A notification that comes before `startLoop` is asleep is lost. -/
theorem lost_of_early {s : EventLoopThread} (hearly : s.starter.early = true)
    (hnotified : s.runner.notified = true) : ∃ more u, run step s more = some u ∧ ¬ u.Sound := by
  have hunsound : ¬ ({ s with starter := .asleep } : EventLoopThread).Sound := by
    intro hsound
    have hnot : s.runner.notified = false := hsound
    rw [hnotified] at hnot
    cases hnot
  cases hplace : s.starter with
  | locking =>
    refine ⟨[.lock, .sleep], _, ?_, hunsound⟩
    simp [run, step, hplace]
  | waiting =>
    refine ⟨[.sleep], _, ?_, hunsound⟩
    simp [run, step, hplace]
  | _ =>
    rw [hplace] at hearly
    cases hearly

/-- A wakeup that finds nothing stored makes `startLoop` return a null pointer. -/
theorem null_of_waking {s : EventLoopThread} (hwaking : s.starter = .waking)
    (hnull : s.loop = none) : ∃ more u, run step s more = some u ∧ ¬ u.Sound := by
  refine ⟨[.relock, .ret], { s with starter := .returned none }, ?_, fun hsound => ?_⟩
  · simp [run, step, hwaking, hnull]
  · have hreturned : (none : Option Nat) ≠ none ∧ s.runner.stored = none := hsound
    exact hreturned.1 rfl

/-- **When the loop is handed over.**  As long as the notification does not come
before `startLoop` is asleep, and no other wakeup before the loop is stored,
`startLoop` returns the loop of the new thread, and is not asleep once the
thread has notified.  After a step that breaks this, the run can go on to a
state where one of the two fails. -/
theorem handed_over (actions : List HandOver) :
    (Along step Meets new actions → Throughout step Sound new actions) ∧
      (∀ s a t, run step new actions = some s → s.step a = .next t → ¬ s.Meets a →
        ∃ more u, run step t more = some u ∧ ¬ u.Sound) := by
  refine ⟨fun hgood => ?_, fun s a t _ ht hbad => ?_⟩
  · have hinv := throughout_of_along (I := fun s => s.Inv ∧ s.HandShake)
      ⟨inv_new, handShake_new⟩
      (fun s a t hs hgood ht => ⟨hs.1.step ht, hs.2.step hs.1 hgood ht⟩) hgood
    exact hinv.mono fun s hs => hs.2.sound hs.1
  · cases step_cases ht with
    | notify loop hrunner =>
      have hearly : s.starter.early = true := Bool.not_eq_false _ ▸ hbad
      have hawake : cond.asleep s.starter = false := by
        cases hplace : s.starter with
        | asleep =>
          rw [hplace] at hearly
          cases hearly
        | _ => rfl
      rw [Condition.notify_of_awake hawake]
      exact lost_of_early hearly rfl
    | rouse hplace => exact null_of_waking rfl (not_not.mp hbad)
    | _ => exact absurd trivial hbad

/-- `startLoop` is asleep before the thread has constructed its loop, and wakes by
its notification. -/
def handedOver : List HandOver :=
  [.startLoop, .spawn, .lock, .sleep, .construct 4096, .store, .notify, .relock, .ret]

theorem handed_over_handedOver :
    ((run step new handedOver).map fun s => s.starter) = some (.returned (some 4096)) ∧
      Throughout step Sound new handedOver :=
  ⟨by decide, (handed_over handedOver).1 (by decide)⟩

/-- The thread notifies while `startLoop` is still to take the mutex. -/
def notifiedEarly : List HandOver :=
  [.startLoop, .spawn, .construct 4096, .store, .notify, .lock, .sleep]

/-- `startLoop` wakes out of turn while the thread constructs its loop. -/
def wokenEarly : List HandOver :=
  [.startLoop, .spawn, .lock, .sleep, .rouse, .relock, .ret]

/-- The first run ends with `startLoop` asleep for good, the second with a null
pointer. -/
theorem not_handed_over :
    ((run step new notifiedEarly).map fun s => (s.starter, s.runner)) =
        some (.asleep, .looping 4096) ∧
      ((run step new wokenEarly).map fun s => s.starter) = some (.returned none) ∧
      ¬ ∀ actions, Throughout step Sound new actions := by
  refine ⟨by decide, by decide, fun h => ?_⟩
  exact absurd (h notifiedEarly) (by decide)

end EventLoopThread

end CppWeb.Loop
