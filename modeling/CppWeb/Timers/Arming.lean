/-
  Timers/Arming.lean --- the timerfd is armed early enough.

  The timerfd is set in two places: when a timer becomes the first of
  `m_timers`, and at the end of `handleRead`.  Between two handlers or tasks the
  first entry can otherwise only go away, which makes the setting too early at
  worst.  Deadlines are points of `system_clock` and the timerfd expires on
  `CLOCK_MONOTONIC`; when the two advance together, a moment of one is a moment
  of the other.
-/
import CppWeb.Timers.Ownership
import Mathlib.Order.MinMax

set_option autoImplicit false

namespace CppWeb.Timers

open CppWeb.Foundation CppWeb.Loop

theorem Entry.when_le_of_le {e f : Entry} (h : e ≤ f) : e.when ≤ f.when := by
  have hlex : toLex (e.when, e.timer) ≤ toLex (f.when, f.timer) := h
  rcases Prod.Lex.toLex_le_toLex.mp hlex with hlt | ⟨heq, _⟩
  · exact le_of_lt hlt
  · exact le_of_eq heq

/-- The loop thread is neither in `handleRead` nor past the destructor. -/
def Phase.isOutside : Phase → Bool
  | .handlers => true
  | .expired .. => false
  | .callback .. => false
  | .tasks => true
  | .destroyed => false

namespace TimerQueue

/-- A moment of the monotonic clock as one of `system_clock`. -/
def onWall (s : TimerQueue) (moment : Int) : TimePoint := moment + (s.wall - s.monotonic)

/-- The timerfd is readable, or armed to expire no later than the deadline and
no later than one millisecond after it was armed, whichever is later. -/
def ArmedFor (s : TimerQueue) (deadline : TimePoint) : Prop :=
  0 < s.timerFd.expirations ∨
    ∃ setting, s.timerFd.setting = some setting ∧
      s.onWall setting.expiry ≤ max deadline (s.onWall (setting.armedAt + 1000000))

/-- When no handler of the queue is running, the timerfd is armed for the
earliest deadline in `m_timers`. -/
def Armed (s : TimerQueue) : Prop :=
  s.phase.isOutside = true → ∀ e, s.timers.first? = some e → s.ArmedFor e.when

/-- The clocks advance together. -/
def Together : Action → Prop
  | .elapse wall monotonic => wall = monotonic
  | _ => True

instance : ∀ a, Decidable (Together a)
  | .elapse _ _ => inferInstanceAs (Decidable (_ = _))
  | .expire => isTrue trivial
  | .add .. => isTrue trivial
  | .cancel .. => isTrue trivial
  | .handleRead => isTrue trivial
  | .runTimer => isTrue trivial
  | .callbackReturn => isTrue trivial
  | .rearm => isTrue trivial
  | .swap => isTrue trivial
  | .runTask => isTrue trivial
  | .endRound => isTrue trivial
  | .destroy => isTrue trivial

/-! ## Setting the timerfd -/

theorem ArmedFor.mono {s : TimerQueue} {deadline later : TimePoint} (h : s.ArmedFor deadline)
    (hle : deadline ≤ later) : s.ArmedFor later := by
  rcases h with h | ⟨setting, hsetting, hexpiry⟩
  · exact Or.inl h
  · exact Or.inr ⟨setting, hsetting, le_trans hexpiry (max_le_max hle (le_refl _))⟩

/-- The setting does not depend on anything but the timerfd and the distance of
the clocks. -/
theorem ArmedFor.congr {s v : TimerQueue} {deadline : TimePoint} (h : s.ArmedFor deadline)
    (hfd : v.timerFd = s.timerFd) (hclocks : v.wall - v.monotonic = s.wall - s.monotonic) :
    v.ArmedFor deadline := by
  rw [ArmedFor, hfd]
  rcases h with h | ⟨setting, hsetting, hexpiry⟩
  · exact Or.inl h
  · refine Or.inr ⟨setting, hsetting, ?_⟩
    rw [onWall, onWall, hclocks]
    exact hexpiry

/-- `timerfdSet` arms for the deadline it is given. -/
theorem armedFor_timerfdSet (s : TimerQueue) (when : TimePoint) :
    (s.timerfdSet when).ArmedFor when := by
  refine Or.inr ⟨⟨s.monotonic, max 1000000 (when - s.wall)⟩, ?_, ?_⟩
  · rw [timerfdSet, settime_durationFromNow]
  · change s.monotonic + max 1000000 (when - s.wall) + (s.wall - s.monotonic) ≤
      max when (s.monotonic + 1000000 + (s.wall - s.monotonic))
    omega

/-- An insertion sets the timerfd if the new timer is the first, and need not
otherwise. -/
theorem Armed.place {s : TimerQueue} (h : s.Armed) (when : TimePoint) (p : Ptr) :
    (s.place when p).Armed := by
  intro hphase e hfirst
  rw [timers_place] at hfirst
  rw [phase_place] at hphase
  rw [TimerQueue.place]
  by_cases hnew : (s.timers.insert (entry when p)).first? = some (entry when p)
  · rw [hnew, Option.some.injEq] at hfirst
    rw [← hfirst]
    simp only [if_pos hnew]
    exact armedFor_timerfdSet _ when
  · simp only [if_neg hnew]
    obtain ⟨hmem, hle⟩ := OrderedSet.first?_eq_some.mp hfirst
    have hne : e ≠ entry when p := by
      rintro rfl
      exact hnew hfirst
    have hold : s.timers.first? = some e := by
      refine OrderedSet.first?_eq_some.mpr ⟨?_, fun f hf => ?_⟩
      · exact (OrderedSet.mem_insert.mp hmem).resolve_left hne
      · exact hle f (OrderedSet.mem_insert.mpr (Or.inr hf))
    exact (h hphase e hold).congr rfl rfl

/-- Taking entries away leaves the timerfd armed for what is left. -/
theorem Armed.shrink {s v : TimerQueue} (h : s.Armed) (hphase : v.phase = s.phase)
    (htimers : ∀ e ∈ v.timers, e ∈ s.timers) (hfd : v.timerFd = s.timerFd)
    (hclocks : v.wall - v.monotonic = s.wall - s.monotonic) : v.Armed := by
  intro houtside e hfirst
  rw [hphase] at houtside
  obtain ⟨f, hf, hle⟩ := OrderedSet.exists_first? (htimers e (OrderedSet.mem_of_first? hfirst))
  exact ((h houtside f hf).mono (Entry.when_le_of_le hle)).congr hfd hclocks

/-! ## Steps -/

theorem armed_new (wall : TimePoint) (monotonic : Int) : (new wall monotonic).Armed := by
  intro _ e hfirst
  cases hfirst

/-- **One step.** -/
theorem Armed.step {s v : TimerQueue} {a : Action} (h : s.Armed) (htogether : Together a)
    (hmoved : s.Moved a v) : v.Armed := by
  cases hmoved with
  | elapse wall monotonic =>
    refine h.shrink rfl (fun _ he => he) rfl ?_
    have heq : wall = monotonic := htogether
    rw [heq]
    exact Int.add_sub_add_right ..
  | expire setting hsetting hexpired => exact fun _ e _ => Or.inl (Nat.succ_pos _)
  | addQueued i request addr hmay => exact h.shrink rfl (fun _ he => he) rfl rfl
  | addNow request addr hmay =>
    have hbase : ((s.allocate addr (Timer.new (request.when s.wall) request.interval)).log
        (.insert (request.when s.wall) (s.heap.next addr))).Armed :=
      h.shrink rfl (fun _ he => he) rfl rfl
    exact hbase.place _ _
  | cancelQueued i timer hmay => exact h.shrink rfl (fun _ he => he) rfl rfl
  | cancelNow e value hmay hmem hread =>
    exact h.shrink rfl (fun _ he => (OrderedSet.mem_erase.mp he).2) rfl rfl
  | handleRead hphase =>
    intro houtside
    cases houtside
  | runTimer now e rest value hphase hread hwhen hdue =>
    intro houtside
    cases houtside
  | restart now e rest value hphase hread hwhen hcanceled hrepeat =>
    intro houtside
    cases houtside
  | finish now e rest value hphase hread honce =>
    intro houtside
    cases houtside
  | rearm now hphase =>
    intro _ e hfirst
    rw [timers_rearm] at hfirst
    rw [TimerQueue.rearm]
    simp only [hfirst]
    exact armedFor_timerfdSet _ e.when
  | swap hphase =>
    intro _ e hfirst
    exact (h (by rw [hphase]; rfl) e hfirst).congr rfl rfl
  | runInsert when timer rest hphase hbatch =>
    have hbase : ({ s with queue := s.queue.advance }.log (.insert when timer)).Armed :=
      h.shrink rfl (fun _ he => he) rfl rfl
    exact hbase.place when timer
  | runCancel e value rest hphase hbatch hmem hread =>
    exact h.shrink rfl (fun _ he => (OrderedSet.mem_erase.mp he).2) rfl rfl
  | endRound hphase hbatch =>
    intro _ e hfirst
    exact (h (by rw [hphase]; rfl) e hfirst).congr rfl rfl
  | destroy heap hphase howns hread hlength =>
    intro houtside
    cases houtside

/-- **The timerfd is armed early enough.**  In every run in which the clocks
advance together and the closures of `cancelTimer` find their timers in
`m_timers`, whenever `m_timers` is not empty and no handler of the queue is
running, the timerfd is readable or armed for the earliest deadline. -/
theorem timerfd_armed (wall : TimePoint) (monotonic : Int) (actions : List Action)
    (h : Along step (fun s a => ¬ s.CancelsAstray a ∧ Together a) (new wall monotonic) actions) :
    Throughout step Armed (new wall monotonic) actions := by
  have hinv := throughout_of_along (I := fun s => s.Owned ∧ s.Armed)
    ⟨owned_new wall monotonic, armed_new wall monotonic⟩ (fun s a v hs hgood hout => ?_) h
  · exact hinv.mono fun s hs => hs.2
  · have hmoved := (hs.1.moved hgood.1).leads hout
    exact ⟨hmoved.owned hs.1, hs.2.step hgood.2 hmoved⟩

/-- The earliest timer is cancelled, a repeating one falls three intervals
behind, and its callback adds a timer that is already past. -/
def fallenBehind : List Action :=
  [.add .loop (.runAfter 2000000) 1, .add (.worker 0) (.runEvery 5000000) 2, .swap, .runTask,
    .endRound, .cancel .loop ⟨1, 0⟩, .elapse 17000000 17000000, .expire, .handleRead, .runTimer,
    .add .loop (.runAt 1000000) 3, .callbackReturn, .rearm, .elapse 1000000 1000000, .expire]

theorem timerfd_armed_fallenBehind :
    Along step (fun s a => ¬ s.CancelsAstray a ∧ Together a) (new 0 0) fallenBehind ∧
      (run step (new 0 0) fallenBehind).map (fun s => (s.timers.toList, s.timerFd)) =
        some ([entry 1000000 ⟨3, 2⟩, entry 10000000 ⟨2, 1⟩], ⟨none, 1⟩) ∧
      Throughout step Armed (new 0 0) fallenBehind :=
  ⟨by decide +kernel, by decide +kernel, timerfd_armed 0 0 _ (by decide +kernel)⟩

end TimerQueue

end CppWeb.Timers
