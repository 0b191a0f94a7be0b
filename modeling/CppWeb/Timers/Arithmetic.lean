/-
  Timers/Arithmetic.lean --- the timer arithmetic on 64-bit counts.

  The other modules on timers let time points and durations be exact integers.
  Here they are what they are in the program, 64-bit signed counts of
  nanoseconds whose sums and differences wrap, and the question is when the
  functions of the program compute what they compute on integers.

  A timer is made by one of the three requests at some time.  Later it is
  restarted, when it is due and repeats, and the timerfd is armed for it, each
  any number of times.
-/
import CppWeb.Foundation.Transition
import CppWeb.Timers.TimerQueue
import Mathlib.Algebra.Group.Int.Defs

set_option autoImplicit false

namespace CppWeb.Timers.Machine

open CppWeb.Foundation

/-- The representation of `TimePoint` and of `Nanoseconds`. -/
abbrev Count := Int64

/-! ## The functions -/

/-- `clock::nowAfter` -/
def nowAfter (now interval : Count) : Count := now + interval

/-- The members of a `Timer` that its arithmetic uses. -/
structure Timer where
  when : Count
  interval : Count
  isRepeat : Bool
  deriving DecidableEq

namespace Timer

/-- The constructor. -/
def new (when interval : Count) : Timer :=
  { when := when
    interval := interval
    isRepeat := decide (interval > 0) }

/-- `Timer::expired` -/
def expired (timer : Timer) (now : Count) : Bool := now ≥ timer.when

/-- `Timer::restart` -/
def restart (timer : Timer) : Except Abort Timer := do
  require .timerRestart (timer.isRepeat = true)
  .ok { timer with when := timer.when + timer.interval }

end Timer

/-- A `struct timespec`. -/
structure Timespec where
  tvSec : Int64
  tvNsec : Int64
  deriving DecidableEq

/-- `durationFromNow` -/
def durationFromNow (when now : Count) : Timespec :=
  let ns := when - now
  let ns := if ns < 1000000 then 1000000 else ns
  { tvSec := ns / 1000000000
    tvNsec := ns % 1000000000 }

/-- The calls of `EventLoop` that add a timer. -/
inductive Request where
  /-- `EventLoop::runAt` -/
  | runAt (when : Count)
  /-- `EventLoop::runEvery` -/
  | runEvery (interval : Count)
  /-- `EventLoop::runAfter` -/
  | runAfter (interval : Count)
  deriving DecidableEq

namespace Request

/-- The timer that they add. -/
def timer (now : Count) : Request → Timer
  | .runAt when => Timer.new when 0
  | .runEvery interval => Timer.new (nowAfter now interval) interval
  | .runAfter interval => Timer.new (nowAfter now interval) 0

/-- The interval that is passed is not negative. -/
def Nonneg : Request → Prop
  | .runAt _ => True
  | .runEvery interval => 0 ≤ interval
  | .runAfter interval => 0 ≤ interval

instance : ∀ request : Request, Decidable request.Nonneg
  | .runAt _ => isTrue trivial
  | .runEvery _ => inferInstanceAs (Decidable (_ ≤ _))
  | .runAfter _ => inferInstanceAs (Decidable (_ ≤ _))

/-- The request on exact integers. -/
def exact : Request → Timers.Request
  | .runAt when => .runAt when.toInt
  | .runEvery interval => .runEvery interval.toInt
  | .runAfter interval => .runAfter interval.toInt

end Request

/-! ## The life of a timer -/

inductive Action where
  /-- `handleRead` with this sample finds the timer due and restarts it -/
  | restart (now : Count)
  /-- `timerfdSet` with the deadline of the timer, at this time -/
  | arm (now : Count)

/-- The clock is never negative. -/
def step (timer : Timer) : Action → Outcome Abort Timer
  | .restart now =>
    if 0 ≤ now ∧ timer.expired now = true ∧ timer.isRepeat = true then .ofExcept timer.restart
    else .disabled
  | .arm now => if 0 ≤ now then .next timer else .disabled

/-! ## What should be computed, and when it is -/

/-- The deadline is the sum of the clock and the interval. -/
def Request.Exact (request : Request) (now : Count) : Prop :=
  (request.timer now).when.toInt = request.exact.when now.toInt

/-- The sum is a 64-bit count. -/
def Request.Fits (now : Count) : Request → Prop
  | .runAt _ => True
  | .runEvery interval => now.toInt + interval.toInt < 2 ^ 63
  | .runAfter interval => now.toInt + interval.toInt < 2 ^ 63

instance (request : Request) (now : Count) : Decidable (request.Exact now) :=
  inferInstanceAs (Decidable (_ = _))

instance (now : Count) : ∀ request : Request, Decidable (request.Fits now)
  | .runAt _ => isTrue trivial
  | .runEvery _ => inferInstanceAs (Decidable (_ < _))
  | .runAfter _ => inferInstanceAs (Decidable (_ < _))

/-- The value is a proper one, does not disarm, and stands for the time left,
but for one millisecond at least. -/
structure Timespec.Denotes (value : Timespec) (left : Int) : Prop where
  sec : 0 ≤ value.tvSec.toInt
  nsec : 0 ≤ value.tvNsec.toInt
  nsec_lt : value.tvNsec.toInt < 1000000000
  nonzero : ¬ (value.tvSec = 0 ∧ value.tvNsec = 0)
  count : value.tvSec.toInt * 1000000000 + value.tvNsec.toInt = max 1000000 left

/-- A restart adds the interval, and arming uses the time left. -/
def StepExact (timer : Timer) : Action → Prop
  | .restart now => (step timer (.restart now)).Leads fun timer' =>
      timer'.when.toInt = timer.when.toInt + timer.interval.toInt
  | .arm now => 0 ≤ now →
      (durationFromNow timer.when now).Denotes (timer.when.toInt - now.toInt)

/-- The sum is a 64-bit count; so is the difference, or it wraps to at most the
one millisecond that is the least to be armed for. -/
def StepFits (timer : Timer) : Action → Prop
  | .restart now => 0 ≤ now → timer.expired now = true → timer.isRepeat = true →
      timer.when.toInt + timer.interval.toInt < 2 ^ 63
  | .arm now => 0 ≤ now → -2 ^ 63 ≤ timer.when.toInt - now.toInt ∨
      timer.when.toInt - now.toInt ≤ 1000000 - 2 ^ 64

instance (timer : Timer) : ∀ a : Action, Decidable (StepFits timer a)
  | .restart _ => inferInstanceAs (Decidable (_ → _ → _ → _))
  | .arm _ => inferInstanceAs (Decidable (_ → _))

/-! ## Sums -/

theorem bmod_eq_self_iff {z : Int} :
    z.bmod (2 ^ 64) = z ↔ -2 ^ 63 ≤ z ∧ z < 2 ^ 63 := by
  rw [Int.bmod_def]
  split <;> omega

/-- A sum of which one part is not negative is exact unless it is too large. -/
theorem add_exact_iff {a b : Count} (hb : 0 ≤ b.toInt) :
    (a + b).toInt = a.toInt + b.toInt ↔ a.toInt + b.toInt < 2 ^ 63 := by
  have hle := a.le_toInt
  rw [Int64.toInt_add, bmod_eq_self_iff]
  constructor
  · exact fun h => h.2
  · exact fun h => ⟨by omega, h⟩

theorem toInt_nonneg_iff {a : Count} : 0 ≤ a ↔ 0 ≤ a.toInt := by
  rw [Int64.le_iff_toInt_le]
  rfl

theorem Request.exact_iff {request : Request} {now : Count} (h : request.Nonneg) :
    request.Exact now ↔ request.Fits now := by
  cases request with
  | runAt when => exact iff_of_true rfl trivial
  | runEvery interval => exact add_exact_iff (toInt_nonneg_iff.mp h)
  | runAfter interval => exact add_exact_iff (toInt_nonneg_iff.mp h)

/-! ## Differences -/

/-- The duration that is left after the clamp. -/
def atLeastOneMs (ns : Count) : Count := if ns < 1000000 then 1000000 else ns

theorem toInt_atLeastOneMs (ns : Count) : (atLeastOneMs ns).toInt = max 1000000 ns.toInt := by
  have hms : (1000000 : Count).toInt = 1000000 := by decide
  rw [atLeastOneMs]
  split
  · rename_i hlt
    rw [Int64.lt_iff_toInt_lt, hms] at hlt
    rw [hms]
    omega
  · rename_i hge
    rw [Int64.lt_iff_toInt_lt, hms] at hge
    omega

/-- Seconds and nanoseconds of a duration that is not negative: they stand for
it, and for nothing else. -/
theorem denotes_iff {ns : Count} {left : Int} :
    Timespec.Denotes
        { tvSec := atLeastOneMs ns / 1000000000
          tvNsec := atLeastOneMs ns % 1000000000 } left ↔
      max 1000000 ns.toInt = max 1000000 left := by
  have hbillion : (1000000000 : Count).toInt = 1000000000 := by decide
  have hms := toInt_atLeastOneMs ns
  generalize atLeastOneMs ns = d at hms ⊢
  have hpos : 1000000 ≤ d.toInt := by omega
  have hsec : (d / 1000000000).toInt = d.toInt / 1000000000 := by
    rw [Int64.toInt_div_of_ne_right _ _ (by decide), hbillion,
      Int.tdiv_eq_ediv_of_nonneg (by omega)]
  have hnsec : (d % 1000000000).toInt = d.toInt % 1000000000 := by
    rw [Int64.toInt_mod, hbillion, Int.tmod_eq_emod_of_nonneg (by omega)]
  have hcount : (d / 1000000000).toInt * 1000000000 + (d % 1000000000).toInt = d.toInt := by
    rw [hsec, hnsec]
    omega
  constructor
  · intro h
    have hleft := h.count
    dsimp only at hleft
    omega
  · intro h
    refine ⟨?_, ?_, ?_, ?_, ?_⟩
    · dsimp only
      omega
    · dsimp only
      omega
    · dsimp only
      omega
    · rintro ⟨hsec0, hnsec0⟩
      dsimp only at hsec0 hnsec0
      rw [hsec0, hnsec0] at hcount
      have hzero : (0 : Count).toInt = 0 := by decide
      rw [hzero] at hcount
      omega
    · dsimp only
      omega

theorem durationFromNow_eq (when now : Count) :
    durationFromNow when now =
      { tvSec := atLeastOneMs (when - now) / 1000000000
        tvNsec := atLeastOneMs (when - now) % 1000000000 } := rfl

theorem durationFromNow_denotes_iff {when now : Count} (hnow : 0 ≤ now) :
    (durationFromNow when now).Denotes (when.toInt - now.toInt) ↔
      (-2 ^ 63 ≤ when.toInt - now.toInt ∨ when.toInt - now.toInt ≤ 1000000 - 2 ^ 64) := by
  have hnow' := toInt_nonneg_iff.mp hnow
  have hwhen := when.toInt_lt
  have hlow := when.le_toInt
  have hhigh := now.toInt_lt
  rw [durationFromNow_eq, denotes_iff, Int64.toInt_sub, Int.bmod_def]
  split <;> omega

/-! ## The life of a timer -/

theorem restart_eq {timer : Timer} (h : timer.isRepeat = true) :
    timer.restart = .ok { timer with when := timer.when + timer.interval } := by
  rw [Timer.restart, require_ok h, ok_bind]

/-- The interval of a timer that repeats is positive, and stays so. -/
def Timer.Positive (timer : Timer) : Prop := timer.isRepeat = true → 0 ≤ timer.interval.toInt

theorem positive_new (when interval : Count) : (Timer.new when interval).Positive := by
  intro hrepeat
  have hpos : 0 < interval := of_decide_eq_true hrepeat
  rw [Int64.lt_iff_toInt_lt] at hpos
  exact Int.le_of_lt hpos

theorem Request.positive (request : Request) (now : Count) : (request.timer now).Positive := by
  cases request with
  | runAt when => exact positive_new when 0
  | runEvery interval => exact positive_new _ interval
  | runAfter interval => exact positive_new _ 0

theorem Timer.Positive.step {timer timer' : Timer} {a : Action} (h : timer.Positive)
    (hstep : step timer a = .next timer') : timer'.Positive := by
  cases a with
  | restart now =>
    rw [Machine.step] at hstep
    split at hstep
    · rename_i hdue
      rw [restart_eq hdue.2.2] at hstep
      cases hstep
      exact h
    · cases hstep
  | arm now =>
    rw [Machine.step] at hstep
    split at hstep
    · cases hstep
      exact h
    · cases hstep

theorem stepExact_iff {timer : Timer} (h : timer.Positive) (a : Action) :
    StepExact timer a ↔ StepFits timer a := by
  cases a with
  | restart now =>
    rw [StepExact, StepFits, Machine.step]
    split
    · rename_i hdue
      rw [restart_eq hdue.2.2]
      have hexact := add_exact_iff (a := timer.when) (h hdue.2.2)
      constructor
      · intro hleads _ _ _
        exact hexact.mp hleads
      · intro hfits
        exact hexact.mpr (hfits hdue.1 hdue.2.1 hdue.2.2)
    · rename_i hnot
      refine iff_of_true trivial ?_
      intro hnow hexpired hrepeat
      exact absurd ⟨hnow, hexpired, hrepeat⟩ hnot
  | arm now =>
    constructor
    · intro h hnow
      exact (durationFromNow_denotes_iff hnow).mp (h hnow)
    · intro h hnow
      exact (durationFromNow_denotes_iff hnow).mpr (h hnow)

/-- **The timer arithmetic is exact exactly as long as it stays within 64
bits.**  For every request with an interval that is not negative, and everything
that happens to the timer afterwards, the deadline is the sum of the clock and
the interval, every restart adds the interval, and the timerfd is armed for the
time that is left, but for one millisecond at least, if and only if the sums
stay below `2 ^ 63` and the differences do not fall below `-2 ^ 63` (or so far
that they wrap to less than the one millisecond). -/
theorem arithmetic_exact_iff (request : Request) (now : Count) (hnonneg : request.Nonneg)
    (actions : List Action) :
    (request.Exact now ∧ Along step StepExact (request.timer now) actions) ↔
      (request.Fits now ∧ Along step StepFits (request.timer now) actions) := by
  have hsteps : Along step StepExact (request.timer now) actions ↔
      Along step StepFits (request.timer now) actions := by
    refine along_iff_along (I := Timer.Positive) (request.positive now) ?_ ?_ actions
    · intro timer a timer' h _ hstep
      exact h.step hstep
    · intro timer a h
      exact stepExact_iff h a
  rw [Request.exact_iff hnonneg, hsteps]

/-- `runEvery(1s)` in November 2023, armed, restarted and armed again. -/
theorem arithmetic_exact_everySecond :
    (Request.runEvery 1000000000).Exact 1700000000000000000 ∧
      Along step StepExact ((Request.runEvery 1000000000).timer 1700000000000000000)
        [.arm 1700000000000000000, .restart 1700000001000000000, .arm 1700000001000000000] :=
  (arithmetic_exact_iff _ _ (by decide) _).mpr (by decide +kernel)

/-- `runAfter(Nanoseconds::max())` in November 2023 makes a timer that has been
due for centuries, so that it is the first of the queue, and arms the timerfd for
292 years.  `runAt(TimePoint::min())`, which is due at once, arms it for more
than two centuries as well. -/
theorem arithmetic_not_exact_wrapped :
    ¬ (Request.runAfter 9223372036854775807).Exact 1700000000000000000 ∧
      ((Request.runAfter 9223372036854775807).timer 1700000000000000000).expired
        1700000000000000000 = true ∧
      durationFromNow ((Request.runAfter 9223372036854775807).timer 1700000000000000000).when
        1700000000000000000 = { tvSec := 9223372036, tvNsec := 854775807 } ∧
      ¬ Along step StepExact ((Request.runAt (-9223372036854775808)).timer 1700000000000000000)
        [.arm 1700000000000000000] ∧
      durationFromNow (-9223372036854775808) 1700000000000000000 =
        { tvSec := 7523372036, tvNsec := 854775808 } := by
  refine ⟨by decide +kernel, by decide +kernel, by decide +kernel, ?_, by decide +kernel⟩
  intro h
  have hdenotes := (h.1 (by decide)).count
  revert hdenotes
  decide +kernel

end CppWeb.Timers.Machine
