/-
  Timers/Timer.lean --- one timer, the clocks, and the timerfd.

  Time points and durations count nanoseconds and are exact integers.  There
  are two clocks: deadlines are points of `system_clock`, which may be set, and
  the timerfd runs on `CLOCK_MONOTONIC`, which only advances.  So a deadline is
  turned into a duration from now when the timerfd is set.

  What the callback of a timer does is not part of the timer: while one is
  running, the loop thread may make any calls (`Timers/TimerQueue.lean`).
-/
import CppWeb.Abort
import Mathlib.Order.Lattice

set_option autoImplicit false

namespace CppWeb.Timers

/-- A point of `system_clock`, in nanoseconds. -/
abbrev TimePoint := Int

/-- A duration in nanoseconds. -/
abbrev Nanoseconds := Int

/-- `clock::nowAfter`. -/
def nowAfter (now : TimePoint) (interval : Nanoseconds) : TimePoint := now + interval

/-- The members of a `Timer`, its callback apart. -/
structure Timer where
  when : TimePoint
  interval : Nanoseconds
  isRepeat : Bool
  isCanceled : Bool
  deriving DecidableEq, Repr

namespace Timer

/-- The constructor. -/
def new (when : TimePoint) (interval : Nanoseconds) : Timer :=
  { when := when
    interval := interval
    isRepeat := decide (interval > 0)
    isCanceled := false }

/-- `Timer::expired`. -/
def expired (timer : Timer) (now : TimePoint) : Bool := now ≥ timer.when

/-- `Timer::cancel`. -/
def cancel (timer : Timer) : Except Abort Timer := do
  require .timerCancel (timer.isCanceled = false)
  .ok { timer with isCanceled := true }

/-- `Timer::restart`. -/
def restart (timer : Timer) : Except Abort Timer := do
  require .timerRestart (timer.isRepeat = true)
  .ok { timer with when := timer.when + timer.interval }

theorem cancel_of_not_canceled {timer : Timer} (h : timer.isCanceled = false) :
    timer.cancel = .ok { timer with isCanceled := true } := by
  rw [cancel, require_ok h, ok_bind]

theorem restart_of_repeat {timer : Timer} (h : timer.isRepeat = true) :
    timer.restart = .ok { timer with when := timer.when + timer.interval } := by
  rw [restart, require_ok h, ok_bind]

end Timer

/-! ## The timerfd -/

/-- A `struct timespec`. -/
structure Timespec where
  tvSec : Int
  tvNsec : Int
  deriving DecidableEq, Repr

/-- The duration it stands for. -/
def Timespec.count (value : Timespec) : Nanoseconds := value.tvSec * 1000000000 + value.tvNsec

/-- `durationFromNow`: never below one millisecond. -/
def durationFromNow (when now : TimePoint) : Timespec :=
  let ns := when - now
  let ns := if ns < 1000000 then 1000000 else ns
  { tvSec := ns.tdiv 1000000000
    tvNsec := ns.tmod 1000000000 }

/-- A setting of the timerfd: when it was made, and after what time it
expires. -/
structure Setting where
  armedAt : Int
  duration : Nanoseconds
  deriving DecidableEq, Repr

/-- The moment of the monotonic clock at which it expires. -/
def Setting.expiry (setting : Setting) : Int := setting.armedAt + setting.duration

/-- A timerfd: its setting, if it is armed, and the expirations not read yet.
It is readable when there are any. -/
structure TimerFd where
  setting : Option Setting
  expirations : Nat
  deriving DecidableEq, Repr

namespace TimerFd

/-- `timerfd_create`. -/
def create : TimerFd := ⟨none, 0⟩

/-- `timerfdRead`: the read clears the expirations; there may be none, which is
only logged. -/
def read (fd : TimerFd) : TimerFd := { fd with expirations := 0 }

/-- `timerfd_settime` without an interval: the new setting replaces the old one
and clears the expirations; zero disarms; a value that is not a proper
`timespec` is refused, which is only logged. -/
def settime (fd : TimerFd) (now : Int) (value : Timespec) : TimerFd :=
  if value.tvSec < 0 ∨ value.tvNsec < 0 ∨ value.tvNsec ≥ 1000000000 then fd
  else if value.tvSec = 0 ∧ value.tvNsec = 0 then ⟨none, 0⟩
  else ⟨some ⟨now, value.count⟩, 0⟩

/-- The setting expires. -/
def expire (fd : TimerFd) : TimerFd := ⟨none, fd.expirations + 1⟩

end TimerFd

/-! ## What the timerfd is set to -/

/-- `durationFromNow` is a proper `timespec`, not zero, and stands for the time
that is left, but for one millisecond at least. -/
theorem durationFromNow_spec (when now : TimePoint) :
    0 ≤ (durationFromNow when now).tvSec ∧ 0 ≤ (durationFromNow when now).tvNsec ∧
      (durationFromNow when now).tvNsec < 1000000000 ∧
      (durationFromNow when now).count = max 1000000 (when - now) := by
  have hpos : ∀ ns : Int, 1000000 ≤ ns → 0 ≤ ns.tdiv 1000000000 ∧ 0 ≤ ns.tmod 1000000000 ∧
      ns.tmod 1000000000 < 1000000000 ∧
      ns.tdiv 1000000000 * 1000000000 + ns.tmod 1000000000 = ns := by
    intro ns hns
    have hnonneg : 0 ≤ ns := by omega
    rw [Int.tdiv_eq_ediv_of_nonneg hnonneg, Int.tmod_eq_emod_of_nonneg hnonneg]
    omega
  by_cases hlt : when - now < 1000000
  · rw [durationFromNow, Timespec.count]
    simp only [if_pos hlt]
    obtain ⟨hsec, hnsec, hbound, hsum⟩ := hpos 1000000 (le_refl _)
    exact ⟨hsec, hnsec, hbound, by rw [hsum, max_eq_left (le_of_lt hlt)]⟩
  · rw [durationFromNow, Timespec.count]
    simp only [if_neg hlt]
    obtain ⟨hsec, hnsec, hbound, hsum⟩ := hpos (when - now) (not_lt.mp hlt)
    exact ⟨hsec, hnsec, hbound, by rw [hsum, max_eq_right (not_lt.mp hlt)]⟩

/-- So it is never refused and never disarms. -/
theorem settime_durationFromNow (fd : TimerFd) (monotonic : Int) (when now : TimePoint) :
    fd.settime monotonic (durationFromNow when now) =
      ⟨some ⟨monotonic, max 1000000 (when - now)⟩, 0⟩ := by
  obtain ⟨hsec, hnsec, hbound, hcount⟩ := durationFromNow_spec when now
  have hproper : ¬ ((durationFromNow when now).tvSec < 0 ∨ (durationFromNow when now).tvNsec < 0 ∨
      (durationFromNow when now).tvNsec ≥ 1000000000) := by
    rintro (h | h | h)
    · exact absurd hsec (not_le.mpr h)
    · exact absurd hnsec (not_le.mpr h)
    · exact absurd hbound (not_lt.mpr h)
  have hnonzero : ¬ ((durationFromNow when now).tvSec = 0 ∧
      (durationFromNow when now).tvNsec = 0) := by
    rintro ⟨hsec0, hnsec0⟩
    rw [Timespec.count, hsec0, hnsec0] at hcount
    have hzero : (0 : Int) = max 1000000 (when - now) := hcount
    have hle : (1000000 : Int) ≤ max 1000000 (when - now) := le_max_left _ _
    rw [← hzero] at hle
    exact absurd hle (by decide)
  rw [TimerFd.settime, if_neg hproper, if_neg hnonzero, hcount]

end CppWeb.Timers
