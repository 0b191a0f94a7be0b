/-
  Timers/Accounts.lean --- timers are neither lost nor duplicated.

  What `m_timers` should contain is read off the histories: the timers whose
  closure of `addTimer` has run, whose closure of `cancelTimer` has not, and
  which repeat or have not been run yet.  During `handleRead` these are the
  timers in `m_timers` together with those of the batch that are still to come,
  the one in its callback included; outside `handleRead` they are in `m_timers`.
-/
import CppWeb.Timers.Ownership

set_option autoImplicit false

namespace CppWeb.Timers

open CppWeb.Foundation CppWeb.Loop

/-- The timer whose callback is running. -/
def Phase.current : Phase → Option Ptr
  | .callback _ e _ => some e.timer
  | .handlers | .expired .. | .tasks | .destroyed => none

namespace TimerQueue

/-! ## What the histories say -/

/-- The closure of `addTimer` has run. -/
def Inserted (s : TimerQueue) (p : Ptr) : Prop := ∃ when, .insert when p ∈ s.executed

/-- The closure of `cancelTimer` has run. -/
def Cancelled (s : TimerQueue) (p : Ptr) : Prop := .cancel p ∈ s.executed

/-- The timer was constructed as a repeating one. -/
def Repeats (s : TimerQueue) (p : Ptr) : Prop := ∃ a ∈ s.added, a.1 = p ∧ a.2.isRepeat = true

/-- Its callback has been run. -/
def HasRun (s : TimerQueue) (p : Ptr) : Prop := p ∈ s.runs.map Prod.fst

/-- The timer was added, not cancelled, and repeats or has not been run. -/
def Expected (s : TimerQueue) (p : Ptr) : Prop :=
  s.Inserted p ∧ ¬ s.Cancelled p ∧ (s.Repeats p ∨ ¬ s.HasRun p)

/-- Outside `handleRead` the timers of `m_timers` are the expected ones; always
each is there once, and has the deadline that its entry has. -/
structure Accounted (s : TimerQueue) : Prop where
  contents : s.phase = .handlers ∨ s.phase = .tasks →
    ∀ p, (∃ e ∈ s.timers, e.timer = p) ↔ s.Expected p
  once : ∀ e ∈ s.timers, ∀ f ∈ s.timers, e.timer = f.timer → e = f
  keys : ∀ e ∈ s.timers, ∃ timer, s.heap.read e.timer = some timer ∧ timer.when = e.when

/-- A step that runs the closure of `cancelTimer` removes the one entry of the
timer and no other. -/
def ErasesOne (s : TimerQueue) (a : Action) : Prop :=
  ∀ p, s.taskOf a = some (.cancel p) →
    ∃ e ∈ s.timers, e.timer = p ∧
      (s.step a).Leads fun v => ∀ f, f ∈ v.timers ↔ f ≠ e ∧ f ∈ s.timers

/-! ## The invariant -/

/-- The timer is in `m_timers` or in the rest of the batch. -/
def InLoop (s : TimerQueue) (p : Ptr) : Prop :=
  ∃ e, (e ∈ s.timers ∨ e ∈ s.phase.entries) ∧ e.timer = p

/-- The histories agree with each other and with what the loop holds. -/
structure Balanced (s : TimerQueue) : Prop where
  inLoop : s.phase ≠ .destroyed → ∀ p, s.InLoop p ↔
    s.Inserted p ∧ ¬ s.Cancelled p ∧ (s.Repeats p ∨ ¬ s.HasRun p ∨ s.phase.current = some p)
  repeats : ∀ p timer, s.heap.read p = some timer → (timer.isRepeat = true ↔ s.Repeats p)
  inserted : ∀ p, s.Inserted p → p.serial < s.heap.objects.length
  added : ∀ a ∈ s.added, a.1.serial < s.heap.objects.length
  waiting : ∀ e ∈ s.queuedEntries, ¬ s.Inserted e.timer
  cancelled : ∀ p, s.Cancelled p → s.Inserted p
  ran : ∀ p, s.HasRun p → s.Inserted p
  current : ∀ p, s.phase.current = some p → s.HasRun p

theorem balanced_new (wall : TimePoint) (monotonic : Int) : (new wall monotonic).Balanced := by
  refine ⟨fun _ p => ⟨?_, ?_⟩, ?_, ?_, ?_, ?_, ?_, ?_, ?_⟩
  · rintro ⟨e, he | he, _⟩
    · exact absurd he (OrderedSet.not_mem_empty e)
    · exact absurd he List.not_mem_nil
  · rintro ⟨⟨when, hmem⟩, _⟩
    exact absurd hmem List.not_mem_nil
  · intro p timer hread
    cases hread
  · rintro p ⟨when, hmem⟩
    exact absurd hmem List.not_mem_nil
  · exact fun a ha => absurd ha List.not_mem_nil
  · exact fun e he => absurd he List.not_mem_nil
  · exact fun p hp => absurd hp List.not_mem_nil
  · exact fun p hp => absurd hp List.not_mem_nil
  · intro p hp
    cases hp

/-- The entries of one timer that the loop holds are equal. -/
theorem Owned.eq_of_timer {s : TimerQueue} (h : s.Owned) {e f : Entry}
    (he : e ∈ s.timers ∨ e ∈ s.held) (hf : f ∈ s.timers ∨ f ∈ s.held)
    (heq : e.timer = f.timer) : e = f := by
  have hkeep : ∀ g, g ∈ s.timers ∨ g ∈ s.held → Keeps s.heap g := by
    rintro g (hg | hg)
    · exact h.owns.inTimers g hg
    · exact h.owns.inHeld g hg
  exact (hkeep e he).eq_of_timer (hkeep f hf) heq

theorem mem_held_of_entries {s : TimerQueue} {e : Entry} (h : e ∈ s.phase.entries) :
    e ∈ s.held := List.mem_append_left _ h

/-- What the invariant says of a state outside `handleRead`. -/
theorem Balanced.accounted {s : TimerQueue} (hs : s.Balanced) (howned : s.Owned) :
    s.Accounted := by
  refine ⟨fun hphase p => ?_, ?_, ?_⟩
  · have hnone : s.phase.entries = [] ∧ s.phase.current = none ∧ s.phase ≠ .destroyed := by
      rcases hphase with hphase | hphase
      · rw [hphase]
        exact ⟨rfl, rfl, fun h => by cases h⟩
      · rw [hphase]
        exact ⟨rfl, rfl, fun h => by cases h⟩
    obtain ⟨hentries, hcurrent, hopen⟩ := hnone
    have hiff := hs.inLoop hopen p
    rw [InLoop, hentries, hcurrent] at hiff
    simpa [Expected] using hiff
  · exact fun e he f hf heq => howned.eq_of_timer (Or.inl he) (Or.inl hf) heq
  · intro e he
    obtain ⟨timer, hread, hwhen, _⟩ := howned.owns.inTimers e he
    exact ⟨timer, hread, hwhen⟩

/-! ## What the parts of a step do to it -/

/-- A step that changes none of it. -/
theorem Balanced.congr {s v : TimerQueue} (hs : s.Balanced) (hheap : v.heap = s.heap)
    (htimers : v.timers = s.timers) (hentries : v.phase.entries = s.phase.entries)
    (hcurrent : v.phase.current = s.phase.current)
    (hopen : v.phase ≠ .destroyed → s.phase ≠ .destroyed) (hadded : v.added = s.added)
    (hexecuted : v.executed = s.executed) (hruns : v.runs = s.runs)
    (hqueued : ∀ e ∈ v.queuedEntries, e ∈ s.queuedEntries) : v.Balanced := by
  have hins : ∀ p, v.Inserted p ↔ s.Inserted p := fun p => by rw [Inserted, Inserted, hexecuted]
  have hcan : ∀ p, v.Cancelled p ↔ s.Cancelled p := fun p => by
    rw [Cancelled, Cancelled, hexecuted]
  have hrep : ∀ p, v.Repeats p ↔ s.Repeats p := fun p => by rw [Repeats, Repeats, hadded]
  have hran : ∀ p, v.HasRun p ↔ s.HasRun p := fun p => by rw [HasRun, HasRun, hruns]
  refine ⟨fun hv p => ?_, ?_, ?_, ?_, ?_, ?_, ?_, ?_⟩
  · rw [InLoop, htimers, hentries, hins, hcan, hrep, hran, hcurrent]
    exact hs.inLoop (hopen hv) p
  · intro p timer hread
    rw [hheap] at hread
    rw [hrep]
    exact hs.repeats p timer hread
  · intro p hp
    rw [hheap]
    exact hs.inserted p ((hins p).mp hp)
  · intro a ha
    rw [hadded] at ha
    rw [hheap]
    exact hs.added a ha
  · intro e he
    rw [hins]
    exact hs.waiting e (hqueued e he)
  · intro p hp
    rw [hins]
    exact hs.cancelled p ((hcan p).mp hp)
  · intro p hp
    rw [hins]
    exact hs.ran p ((hran p).mp hp)
  · intro p hp
    rw [hcurrent] at hp
    rw [hran]
    exact hs.current p hp

/-- An allocation makes a timer that nothing has been recorded of. -/
theorem Balanced.not_inserted_next {s : TimerQueue} (hs : s.Balanced) (addr : Nat) :
    ¬ s.Inserted (s.heap.next addr) :=
  fun hins => Nat.lt_irrefl _ (hs.inserted _ hins)

theorem Balanced.allocate {s : TimerQueue} (hs : s.Balanced) (addr : Nat) (timer : Timer) :
    (s.allocate addr timer).Balanced := by
  have hlength : (s.allocate addr timer).heap.objects.length = s.heap.objects.length + 1 :=
    Heap.length_alloc ..
  have hrep : ∀ p, p ≠ s.heap.next addr →
      ((s.allocate addr timer).Repeats p ↔ s.Repeats p) := by
    intro p hne
    constructor
    · rintro ⟨a, ha, rfl, hrepeat⟩
      rcases List.mem_append.mp ha with ha | ha
      · exact ⟨a, ha, rfl, hrepeat⟩
      · rw [List.mem_singleton.mp ha] at hne
        exact absurd rfl hne
    · rintro ⟨a, ha, hp⟩
      exact ⟨a, List.mem_append_left _ ha, hp⟩
  refine ⟨fun hopen p => ?_, ?_, ?_, ?_, hs.waiting, hs.cancelled, hs.ran, hs.current⟩
  · have hiff := hs.inLoop hopen p
    by_cases hins : s.Inserted p
    · have hne : p ≠ s.heap.next addr := by
        rintro rfl
        exact hs.not_inserted_next addr hins
      rw [hrep p hne]
      exact hiff
    · exact ⟨fun hin => absurd (hiff.mp hin).1 hins, fun hout => absurd hout.1 hins⟩
  · intro p value hread
    rcases Heap.read_of_alloc hread with ⟨rfl, rfl⟩ | hold
    · constructor
      · intro hrepeat
        exact ⟨_, List.mem_append_right _ (List.mem_singleton_self _), rfl, hrepeat⟩
      · rintro ⟨a, ha, hp, hrepeat⟩
        rcases List.mem_append.mp ha with ha | ha
        · have hlt := hs.added a ha
          rw [hp] at hlt
          exact absurd hlt (Nat.lt_irrefl _)
        · rwa [List.mem_singleton.mp ha] at hrepeat
    · rw [hrep p (Heap.next_ne_of_read hold addr)]
      exact hs.repeats p value hold
  · intro p hins
    rw [hlength]
    exact Nat.lt_succ_of_lt (hs.inserted p hins)
  · intro a ha
    rw [hlength]
    rcases List.mem_append.mp ha with ha | ha
    · exact Nat.lt_succ_of_lt (hs.added a ha)
    · rw [List.mem_singleton.mp ha]
      exact Nat.lt_succ_self _

theorem inserted_log_insert {s : TimerQueue} {when : TimePoint} {p q : Ptr} :
    (s.log (.insert when p)).Inserted q ↔ q = p ∨ s.Inserted q := by
  constructor
  · rintro ⟨when', hmem⟩
    rcases List.mem_append.mp hmem with hmem | hmem
    · exact Or.inr ⟨when', hmem⟩
    · rw [List.mem_singleton, Task.insert.injEq] at hmem
      exact Or.inl hmem.2
  · rintro (rfl | ⟨when', hmem⟩)
    · exact ⟨when, List.mem_append_right _ (List.mem_singleton_self _)⟩
    · exact ⟨when', List.mem_append_left _ hmem⟩

theorem cancelled_log_insert {s : TimerQueue} {when : TimePoint} {p q : Ptr} :
    (s.log (.insert when p)).Cancelled q ↔ s.Cancelled q := by
  rw [Cancelled, log, List.mem_append, List.mem_singleton]
  simp [Cancelled]

theorem inserted_log_cancel {s : TimerQueue} {p q : Ptr} :
    (s.log (.cancel p)).Inserted q ↔ s.Inserted q := by
  simp [Inserted, log]

theorem cancelled_log_cancel {s : TimerQueue} {p q : Ptr} :
    (s.log (.cancel p)).Cancelled q ↔ s.Cancelled q ∨ q = p := by
  rw [Cancelled, log, List.mem_append, List.mem_singleton, Task.cancel.injEq]
  rfl

@[simp] theorem executed_place (s : TimerQueue) (when : TimePoint) (timer : Ptr) :
    (s.place when timer).executed = s.executed := by
  rw [place]
  split <;> rfl

@[simp] theorem added_place (s : TimerQueue) (when : TimePoint) (timer : Ptr) :
    (s.place when timer).added = s.added := by
  rw [place]
  split <;> rfl

@[simp] theorem runs_place (s : TimerQueue) (when : TimePoint) (timer : Ptr) :
    (s.place when timer).runs = s.runs := by
  rw [place]
  split <;> rfl

/-- A closure of `addTimer` puts a timer into `m_timers` of which nothing has
been recorded but its allocation. -/
theorem Balanced.place {s : TimerQueue} (hs : s.Balanced) {when : TimePoint} {p : Ptr}
    (hnew : ¬ s.Inserted p) (hlength : p.serial < s.heap.objects.length)
    (hqueued : ∀ e ∈ s.queuedEntries, e.timer ≠ p) :
    ((s.log (.insert when p)).place when p).Balanced := by
  have hins : ∀ q, ((s.log (.insert when p)).place when p).Inserted q ↔ q = p ∨ s.Inserted q := by
    intro q
    rw [Inserted, executed_place]
    exact inserted_log_insert
  have hcan : ∀ q, ((s.log (.insert when p)).place when p).Cancelled q ↔ s.Cancelled q := by
    intro q
    rw [Cancelled, executed_place]
    exact cancelled_log_insert
  have hrep : ∀ q, ((s.log (.insert when p)).place when p).Repeats q ↔ s.Repeats q := by
    intro q
    rw [Repeats, added_place]
    rfl
  have hran : ∀ q, ((s.log (.insert when p)).place when p).HasRun q ↔ s.HasRun q := by
    intro q
    rw [HasRun, runs_place]
    rfl
  have hphase : ((s.log (.insert when p)).place when p).phase = s.phase := phase_place ..
  have hloop : ∀ q, ((s.log (.insert when p)).place when p).InLoop q ↔ q = p ∨ s.InLoop q := by
    intro q
    rw [InLoop, InLoop, hphase, timers_place]
    constructor
    · rintro ⟨e, he | he, rfl⟩
      · rcases OrderedSet.mem_insert.mp he with rfl | he
        · exact Or.inl rfl
        · exact Or.inr ⟨e, Or.inl he, rfl⟩
      · exact Or.inr ⟨e, Or.inr he, rfl⟩
    · rintro (rfl | ⟨e, he | he, rfl⟩)
      · exact ⟨entry when q, Or.inl (OrderedSet.mem_insert.mpr (Or.inl rfl)), rfl⟩
      · exact ⟨e, Or.inl (OrderedSet.mem_insert.mpr (Or.inr he)), rfl⟩
      · exact ⟨e, Or.inr he, rfl⟩
  refine ⟨fun hopen q => ?_, ?_, ?_, ?_, ?_, ?_, ?_, ?_⟩
  · rw [hphase] at hopen ⊢
    rw [hloop, hins, hcan, hrep, hran]
    by_cases hq : q = p
    · subst hq
      exact ⟨fun _ => ⟨Or.inl rfl, fun hc => hnew (hs.cancelled q hc),
        Or.inr (Or.inl fun hr => hnew (hs.ran q hr))⟩, fun _ => Or.inl rfl⟩
    · rw [or_iff_right hq, or_iff_right hq]
      exact hs.inLoop hopen q
  · intro q timer hread
    rw [heap_place] at hread
    rw [hrep]
    exact hs.repeats q timer hread
  · intro q hq
    rw [heap_place]
    rcases (hins q).mp hq with rfl | hq
    · exact hlength
    · exact hs.inserted q hq
  · intro a ha
    rw [added_place] at ha
    rw [heap_place]
    exact hs.added a ha
  · intro e he
    rw [queuedEntries, queue_place] at he
    rw [hins]
    rintro (heq | hq)
    · exact hqueued e he heq
    · exact hs.waiting e he hq
  · intro q hq
    rw [hins]
    exact Or.inr (hs.cancelled q ((hcan q).mp hq))
  · intro q hq
    rw [hins]
    exact Or.inr (hs.ran q ((hran q).mp hq))
  · intro q hq
    rw [hphase] at hq
    rw [hran]
    exact hs.current q hq

/-- A closure of `cancelTimer` takes the only entry of its timer away. -/
theorem Balanced.discard {s : TimerQueue} (hs : s.Balanced) (hopen : s.phase ≠ .destroyed)
    {e : Entry} (hmem : e ∈ s.timers)
    (hone : ∀ f, f ∈ s.timers ∨ f ∈ s.phase.entries → f.timer = e.timer → f = e)
    (hout : e ∉ s.phase.entries) {value : Timer} (hread : s.heap.read e.timer = some value) :
    ((s.log (.cancel e.timer)).discard e value).Balanced := by
  have hlength : ((s.log (.cancel e.timer)).discard e value).heap.objects.length =
      s.heap.objects.length := by
    rw [TimerQueue.discard, Heap.length_delete, Heap.length_write]
    rfl
  have hins : ∀ q, ((s.log (.cancel e.timer)).discard e value).Inserted q ↔ s.Inserted q :=
    fun q => inserted_log_cancel
  have hcan : ∀ q, ((s.log (.cancel e.timer)).discard e value).Cancelled q ↔
      s.Cancelled q ∨ q = e.timer := fun q => cancelled_log_cancel
  have hloop : ∀ q, ((s.log (.cancel e.timer)).discard e value).InLoop q ↔
      q ≠ e.timer ∧ s.InLoop q := by
    intro q
    constructor
    · rintro ⟨f, hf | hf, rfl⟩
      · obtain ⟨hne, hf⟩ := OrderedSet.mem_erase.mp hf
        exact ⟨fun heq => hne (hone f (Or.inl hf) heq), f, Or.inl hf, rfl⟩
      · refine ⟨fun heq => ?_, f, Or.inr hf, rfl⟩
        have hsame := hone f (Or.inr hf) heq
        rw [hsame] at hf
        exact hout hf
    · rintro ⟨hne, f, hf | hf, rfl⟩
      · refine ⟨f, Or.inl (OrderedSet.mem_erase.mpr ⟨?_, hf⟩), rfl⟩
        rintro rfl
        exact hne rfl
      · exact ⟨f, Or.inr hf, rfl⟩
  refine ⟨fun _ q => ?_, ?_, ?_, ?_, ?_, ?_, ?_, hs.current⟩
  · have hiff := hs.inLoop hopen q
    rw [hloop, hins, hcan]
    constructor
    · rintro ⟨hne, hin⟩
      obtain ⟨hi, hc, hr⟩ := hiff.mp hin
      exact ⟨hi, fun h => h.elim hc hne, hr⟩
    · rintro ⟨hi, hc, hr⟩
      exact ⟨fun heq => hc (Or.inr heq), hiff.mpr ⟨hi, fun h => hc (Or.inl h), hr⟩⟩
  · intro q timer hq
    rcases Heap.read_of_write hread (Heap.read_of_delete hq) with ⟨rfl, rfl⟩ | hq
    · exact hs.repeats e.timer value hread
    · exact hs.repeats q timer hq
  · intro q hq
    rw [hlength]
    exact hs.inserted q ((hins q).mp hq)
  · intro a ha
    rw [hlength]
    exact hs.added a ha
  · intro f hf
    rw [hins]
    exact hs.waiting f hf
  · intro q hq
    rw [hins]
    rcases (hcan q).mp hq with hq | rfl
    · exact hs.cancelled q hq
    · exact ((hs.inLoop hopen e.timer).mp ⟨e, Or.inl hmem, rfl⟩).1
  · intro q hq
    rw [hins]
    exact hs.ran q hq

/-! ## Steps -/

/-- The entry of a closure at the front of the batch has a timer of its own. -/
theorem Owned.queued_ne {s : TimerQueue} (h : s.Owned) {when : TimePoint} {p : Ptr}
    {rest : List Task} (hbatch : s.queue.batch = .insert when p :: rest) :
    ∀ e ∈ ({ s with queue := s.queue.advance } : TimerQueue).queuedEntries, e.timer ≠ p := by
  intro e he heq
  have hqueued := queuedEntries_of_batch hbatch
  have hfirst : entry when p ∈ s.held := by
    rw [held_eq, hqueued]
    exact List.mem_append_right _ List.mem_cons_self
  have hin : e ∈ s.held := by
    rw [held_eq, hqueued]
    exact List.mem_append_right _ (List.mem_cons_of_mem _ he)
  have hsame := h.eq_of_timer (Or.inr hin) (Or.inr hfirst) heq
  have honce := h.owns.once
  rw [held_eq, hqueued, List.nodup_append] at honce
  rw [hsame] at he
  exact (List.nodup_cons.mp honce.2.1).1 he

/-- The batch is taken out of `m_timers`. -/
theorem Balanced.handleRead {s : TimerQueue} (hs : s.Balanced) (hphase : s.phase = .handlers) :
    s.handleRead.Balanced := by
  refine ⟨fun _ p => ?_, hs.repeats, hs.inserted, hs.added, hs.waiting, hs.cancelled, hs.ran,
    fun p hp => by cases hp⟩
  have hiff := hs.inLoop (by rw [hphase]; simp) p
  have hloop : s.handleRead.InLoop p ↔ s.InLoop p := by
    rw [InLoop, InLoop, hphase]
    constructor
    · rintro ⟨e, he | he, rfl⟩
      · exact ⟨e, Or.inl (OrderedSet.mem_dropBelow.mp he).1, rfl⟩
      · exact ⟨e, Or.inl (OrderedSet.mem_below.mp he).1, rfl⟩
    · rintro ⟨e, he | he, rfl⟩
      · by_cases hlt : e < expiredBound s.wall
        · exact ⟨e, Or.inr (OrderedSet.mem_below.mpr ⟨he, hlt⟩), rfl⟩
        · exact ⟨e, Or.inl (OrderedSet.mem_dropBelow.mpr ⟨he, not_lt.mp hlt⟩), rfl⟩
      · exact absurd he List.not_mem_nil
  rw [hloop, hiff, hphase]
  rfl

/-- The run of a callback is recorded while the loop still holds the timer. -/
theorem Balanced.runTimer {s : TimerQueue} (hs : s.Balanced) {now : TimePoint} {e : Entry}
    {rest : List Entry} (hphase : s.phase = .expired now (e :: rest)) :
    ({ s with
      phase := .callback now e rest
      runs := s.runs ++ [(e.timer, now)] } : TimerQueue).Balanced := by
  have hopen : s.phase ≠ .destroyed := by rw [hphase]; simp
  have hself : s.Inserted e.timer ∧ ¬ s.Cancelled e.timer ∧ _ :=
    (hs.inLoop hopen e.timer).mp ⟨e, Or.inr (by rw [hphase]; exact List.mem_cons_self), rfl⟩
  have hran : ∀ p, p ∈ (s.runs ++ [(e.timer, now)]).map Prod.fst ↔ s.HasRun p ∨ p = e.timer := by
    intro p
    rw [List.map_append, List.mem_append]
    exact or_congr_right List.mem_singleton
  refine ⟨fun _ p => ?_, hs.repeats, hs.inserted, hs.added, hs.waiting, hs.cancelled, ?_, ?_⟩
  · have hiff := hs.inLoop hopen p
    rw [InLoop, hphase] at hiff
    rw [InLoop, HasRun, hran]
    refine hiff.trans ?_
    change _ ∧ _ ∧ (_ ∨ _ ∨ none = some p) ↔ _ ∧ _ ∧ (_ ∨ _ ∨ some e.timer = some p)
    by_cases hp : p = e.timer
    · subst hp
      exact ⟨fun h => ⟨h.1, h.2.1, Or.inr (Or.inr rfl)⟩,
        fun _ => ⟨hself.1, hself.2.1, by simpa [hphase, Phase.current] using hself.2.2⟩⟩
    · have hne : some e.timer ≠ some p := fun h => hp (Option.some.inj h).symm
      have hnone : ¬ (none : Option Ptr) = some p := fun h => by cases h
      rw [or_iff_left hp, or_iff_left hne, or_iff_left hnone]
      exact Iff.rfl
  · intro p hp
    rcases (hran p).mp hp with hp | rfl
    · exact hs.ran p hp
    · exact hself.1
  · intro p hp
    refine (hran p).mpr (Or.inr ?_)
    exact (Option.some.inj hp).symm

/-- A repeating timer goes back into `m_timers` with its next deadline. -/
theorem Balanced.restart {s : TimerQueue} (hs : s.Balanced) {now : TimePoint} {e : Entry}
    {rest : List Entry} {value : Timer} (hphase : s.phase = .callback now e rest)
    (hread : s.heap.read e.timer = some value) (hrepeat : value.isRepeat = true)
    (when : TimePoint) :
    ({ s with
      phase := .expired now rest
      heap := s.heap.write e.timer { value with when := when }
      timers := s.timers.insert (entry when e.timer) } : TimerQueue).Balanced := by
  have hopen : s.phase ≠ .destroyed := by rw [hphase]; simp
  have hrepeats : s.Repeats e.timer := (hs.repeats e.timer value hread).mp hrepeat
  have hself : s.Inserted e.timer ∧ ¬ s.Cancelled e.timer ∧ _ :=
    (hs.inLoop hopen e.timer).mp ⟨e, Or.inr (by rw [hphase]; exact List.mem_cons_self), rfl⟩
  refine ⟨fun _ p => ?_, ?_, ?_, ?_, hs.waiting, hs.cancelled, hs.ran, fun p hp => by cases hp⟩
  · have hiff := hs.inLoop hopen p
    have hloop : (∃ f, (f ∈ s.timers.insert (entry when e.timer) ∨ f ∈ rest) ∧ f.timer = p) ↔
        s.InLoop p := by
      rw [InLoop, hphase]
      constructor
      · rintro ⟨f, hf | hf, rfl⟩
        · rcases OrderedSet.mem_insert.mp hf with rfl | hf
          · exact ⟨e, Or.inr List.mem_cons_self, rfl⟩
          · exact ⟨f, Or.inl hf, rfl⟩
        · exact ⟨f, Or.inr (List.mem_cons_of_mem _ hf), rfl⟩
      · rintro ⟨f, hf | hf, rfl⟩
        · exact ⟨f, Or.inl (OrderedSet.mem_insert.mpr (Or.inr hf)), rfl⟩
        · rcases List.mem_cons.mp hf with rfl | hf
          · exact ⟨_, Or.inl (OrderedSet.mem_insert.mpr (Or.inl rfl)), rfl⟩
          · exact ⟨f, Or.inr hf, rfl⟩
    refine hloop.trans (hiff.trans ?_)
    rw [hphase]
    change _ ∧ _ ∧ (_ ∨ _ ∨ some e.timer = some p) ↔ _ ∧ _ ∧ (_ ∨ _ ∨ none = some p)
    by_cases hp : p = e.timer
    · subst hp
      exact ⟨fun h => ⟨h.1, h.2.1, Or.inl hrepeats⟩, fun _ => ⟨hself.1, hself.2.1, Or.inl hrepeats⟩⟩
    · have hne : some e.timer ≠ some p := fun h => hp (Option.some.inj h).symm
      rw [or_iff_left hne, or_iff_left (fun h : none = some p => by cases h)]
      exact Iff.rfl
  · intro p timer hp
    rcases Heap.read_of_write hread hp with ⟨rfl, rfl⟩ | hp
    · exact hs.repeats e.timer value hread
    · exact hs.repeats p timer hp
  · intro p hp
    rw [Heap.length_write]
    exact hs.inserted p hp
  · intro a ha
    rw [Heap.length_write]
    exact hs.added a ha

/-- A one-shot timer is gone once it has been run. -/
theorem Balanced.finish {s : TimerQueue} (hs : s.Balanced) (howned : s.Owned) {now : TimePoint}
    {e : Entry} {rest : List Entry} {value : Timer} (hphase : s.phase = .callback now e rest)
    (hread : s.heap.read e.timer = some value) (honce : value.isRepeat = false) :
    ({ s with
      phase := .expired now rest
      heap := s.heap.delete e.timer } : TimerQueue).Balanced := by
  have hopen : s.phase ≠ .destroyed := by rw [hphase]; simp
  have hnot : ¬ s.Repeats e.timer := by
    rw [← hs.repeats e.timer value hread, honce]
    simp
  have hran : s.HasRun e.timer := hs.current e.timer (by rw [hphase]; rfl)
  have hentry : e ∈ s.held := mem_held_of_entries (by rw [hphase]; exact List.mem_cons_self)
  have hnodup := howned.owns.once
  rw [held_eq, hphase, List.nodup_append] at hnodup
  refine ⟨fun _ p => ?_, ?_, ?_, ?_, hs.waiting, hs.cancelled, hs.ran, fun p hp => by cases hp⟩
  · have hiff := hs.inLoop hopen p
    have hloop : (∃ f, (f ∈ s.timers ∨ f ∈ rest) ∧ f.timer = p) ↔ p ≠ e.timer ∧ s.InLoop p := by
      rw [InLoop, hphase]
      constructor
      · rintro ⟨f, hf | hf, rfl⟩
        · refine ⟨fun heq => ?_, f, Or.inl hf, rfl⟩
          have hsame := howned.eq_of_timer (Or.inl hf) (Or.inr hentry) heq
          rw [hsame] at hf
          exact howned.owns.apart e hentry hf
        · refine ⟨fun heq => ?_, f, Or.inr (List.mem_cons_of_mem _ hf), rfl⟩
          have hheld : f ∈ s.held :=
            mem_held_of_entries (by rw [hphase]; exact List.mem_cons_of_mem _ hf)
          have hsame := howned.eq_of_timer (Or.inr hheld) (Or.inr hentry) heq
          rw [hsame] at hf
          exact (List.nodup_cons.mp hnodup.1).1 hf
      · rintro ⟨hne, f, hf | hf, rfl⟩
        · exact ⟨f, Or.inl hf, rfl⟩
        · rcases List.mem_cons.mp hf with rfl | hf
          · exact absurd rfl hne
          · exact ⟨f, Or.inr hf, rfl⟩
    refine hloop.trans ?_
    rw [hiff, hphase]
    change _ ∧ _ ∧ _ ∧ (_ ∨ _ ∨ some e.timer = some p) ↔ _ ∧ _ ∧ (_ ∨ _ ∨ none = some p)
    by_cases hp : p = e.timer
    · subst hp
      refine ⟨fun h => absurd rfl h.1, ?_⟩
      rintro ⟨_, _, hrep | hrun | hcur⟩
      · exact absurd hrep hnot
      · exact absurd hran hrun
      · cases hcur
    · have hne : some e.timer ≠ some p := fun h => hp (Option.some.inj h).symm
      rw [or_iff_left hne, or_iff_left (fun h : none = some p => by cases h)]
      exact ⟨fun h => h.2, fun h => ⟨hp, h⟩⟩
  · intro p timer hp
    exact hs.repeats p timer (Heap.read_of_delete hp)
  · intro p hp
    rw [Heap.length_delete]
    exact hs.inserted p hp
  · intro a ha
    rw [Heap.length_delete]
    exact hs.added a ha

theorem destroyed_ne_of_mayCall {s : TimerQueue} (h : s.MayCall .loop) :
    s.phase ≠ .destroyed := by
  intro hphase
  rw [MayCall, hphase] at h
  cases h

/-- **One step.** -/
theorem Balanced.step {s v : TimerQueue} {a : Action} (hs : s.Balanced) (howned : s.Owned)
    (hmoved : s.Moved a v) : v.Balanced := by
  cases hmoved with
  | elapse wall monotonic => exact hs.congr rfl rfl rfl rfl id rfl rfl rfl fun e he => he
  | expire setting hsetting hexpired =>
    exact hs.congr rfl rfl rfl rfl id rfl rfl rfl fun e he => he
  | addQueued i request addr hmay =>
    have hnew := hs.allocate addr (Timer.new (request.when s.wall) request.interval)
    refine ⟨hnew.inLoop, hnew.repeats, hnew.inserted, hnew.added, ?_, hnew.cancelled, hnew.ran,
      hnew.current⟩
    intro e he
    rw [queuedEntries, BatchQueue.toList_push, List.filterMap_append, List.mem_append] at he
    rcases he with he | he
    · exact hs.waiting e he
    · rw [List.mem_singleton.mp he]
      exact hs.not_inserted_next addr
  | addNow request addr hmay =>
    refine (hs.allocate addr _).place (hs.not_inserted_next addr) ?_ fun e he => ?_
    · exact (Nat.lt_succ_self _).trans_eq (Heap.length_alloc ..).symm
    · obtain ⟨value, hread, _⟩ := howned.owns.inHeld e (List.mem_append_right _ he)
      exact Heap.next_ne_of_read hread addr
  | cancelQueued i timer hmay =>
    refine hs.congr rfl rfl rfl rfl id rfl rfl rfl fun e he => ?_
    rw [queuedEntries, BatchQueue.toList_push, List.filterMap_append, List.mem_append] at he
    exact he.resolve_right List.not_mem_nil
  | cancelNow e value hmay hmem hread =>
    have hbase : ({ s with cancels := s.cancels ++ [e.timer] } : TimerQueue).Balanced :=
      hs.congr rfl rfl rfl rfl id rfl rfl rfl fun e he => he
    refine hbase.discard (destroyed_ne_of_mayCall hmay) hmem (fun f hf heq => ?_) ?_ hread
    · exact howned.eq_of_timer (hf.imp id mem_held_of_entries) (Or.inl hmem) heq
    · exact fun hin => howned.owns.apart e (mem_held_of_entries hin) hmem
  | handleRead hphase => exact hs.handleRead hphase
  | runTimer now e rest value hphase hread hwhen hdue => exact hs.runTimer hphase
  | restart now e rest value hphase hread hwhen hcanceled hrepeat =>
    exact hs.restart hphase hread hrepeat _
  | finish now e rest value hphase hread honce => exact hs.finish howned hphase hread honce
  | rearm now hphase =>
    have hexecuted : s.rearm.executed = s.executed ∧ s.rearm.added = s.added ∧
        s.rearm.runs = s.runs := by
      rw [TimerQueue.rearm]
      split <;> exact ⟨rfl, rfl, rfl⟩
    refine hs.congr (heap_rearm s) (timers_rearm s) ?_ ?_ ?_ hexecuted.2.1 hexecuted.1
      hexecuted.2.2 fun e he => ?_
    · rw [phase_rearm, hphase]
      rfl
    · rw [phase_rearm, hphase]
      rfl
    · rw [hphase]
      exact fun _ h => by cases h
    · rwa [queuedEntries, queue_rearm] at he
  | swap hphase =>
    refine hs.congr rfl rfl (by rw [hphase]; rfl) (by rw [hphase]; rfl) ?_ rfl rfl rfl
      fun e he => ?_
    · rw [hphase]
      exact fun _ h => by cases h
    · rwa [queuedEntries, BatchQueue.toList_swap (howned.batch (by rw [hphase]; simp))] at he
  | runInsert when timer rest hphase hbatch =>
    have hqueued := queuedEntries_of_batch hbatch
    have hfirst : entry when timer ∈ s.queuedEntries := by
      rw [hqueued]
      exact List.mem_append_left _ (List.mem_singleton_self _)
    obtain ⟨value, hread, _⟩ := howned.owns.inHeld _ (List.mem_append_right _ hfirst)
    have hbase : ({ s with queue := s.queue.advance } : TimerQueue).Balanced := by
      refine hs.congr rfl rfl rfl rfl id rfl rfl rfl fun e he => ?_
      rw [hqueued]
      exact List.mem_append_right _ he
    exact hbase.place (hs.waiting _ hfirst) (Heap.serial_lt_of_read hread)
      (howned.queued_ne hbatch)
  | runCancel e value rest hphase hbatch hmem hread =>
    have hbase : ({ s with queue := s.queue.advance } : TimerQueue).Balanced := by
      refine hs.congr rfl rfl rfl rfl id rfl rfl rfl fun e he => ?_
      rw [queuedEntries_of_batch hbatch]
      exact List.mem_append_right _ he
    have hopen : s.phase ≠ .destroyed := by rw [hphase]; simp
    refine hbase.discard hopen hmem (fun f hf heq => ?_) ?_ hread
    · exact howned.eq_of_timer (hf.imp id mem_held_of_entries) (Or.inl hmem) heq
    · exact fun hin => howned.owns.apart e (mem_held_of_entries hin) hmem
  | endRound hphase hbatch =>
    refine hs.congr rfl rfl (by rw [hphase]; rfl) (by rw [hphase]; rfl) ?_ rfl rfl rfl
      fun e he => he
    rw [hphase]
    exact fun _ h => by cases h
  | destroy heap hphase howns hread hlength =>
    refine ⟨fun h => absurd rfl h, ?_, ?_, ?_, hs.waiting, hs.cancelled, hs.ran,
      fun p hp => by cases hp⟩
    · exact fun p timer hp => hs.repeats p timer (hread p timer hp)
    · intro p hp
      rw [hlength]
      exact hs.inserted p hp
    · intro a ha
      rw [hlength]
      exact hs.added a ha

/-- The closure of a cancel erases the entry of its timer, which is there. -/
theorem Owned.erasesOne {s : TimerQueue} (h : s.Owned) {a : Action} (hgood : ¬ s.CancelsAstray a) :
    s.ErasesOne a := by
  intro p htask
  obtain ⟨e, he, rfl⟩ : ∃ e ∈ s.timers, e.timer = p := by
    by_contra hnone
    exact hgood ⟨_, htask, fun e he heq => hnone ⟨e, he, heq⟩⟩
  refine ⟨e, he, rfl, Outcome.leads_iff.mpr fun v hstep f => ?_⟩
  have hmoved := (h.moved hgood).leads hstep
  have hsame : ∀ g, g ∈ s.timers → g.timer = e.timer → g = e := fun g hg heq =>
    h.eq_of_timer (Or.inl hg) (Or.inl he) heq
  cases hmoved with
  | cancelNow e' value hmay hmem hread =>
    rw [taskOf, if_pos hmay, Option.some.injEq, Task.cancel.injEq] at htask
    rw [hsame e' hmem htask]
    exact OrderedSet.mem_erase
  | runCancel e' value rest hphase hbatch hmem hread =>
    rw [taskOf, hbatch, List.head?_cons, Option.some.injEq, Task.cancel.injEq] at htask
    rw [hsame e' hmem htask]
    exact OrderedSet.mem_erase
  | runInsert when timer rest hphase hbatch =>
    rw [taskOf, hbatch, List.head?_cons] at htask
    cases htask
  | _ => cases htask

/-- **Timers are neither lost nor duplicated.**  In every run in which the
closures of `cancelTimer` find their timers in `m_timers`: outside `handleRead`
`m_timers` holds the timers that were added, not cancelled, and repeat or have
not been run, each once and under its own deadline; no assertion fails; and each
cancel erases the one entry of its timer. -/
theorem timers_accounted (wall : TimePoint) (monotonic : Int) (actions : List Action)
    (h : Along step (fun s a => ¬ s.CancelsAstray a) (new wall monotonic) actions) :
    Throughout step Accounted (new wall monotonic) actions ∧
      Along step (fun s a => (s.step a).Stops (fun _ => False) ∧ s.ErasesOne a)
        (new wall monotonic) actions := by
  have hinit : (new wall monotonic).Owned ∧ (new wall monotonic).Balanced :=
    ⟨owned_new wall monotonic, balanced_new wall monotonic⟩
  have hstep : ∀ (s : TimerQueue) a v, s.Owned ∧ s.Balanced → ¬ s.CancelsAstray a →
      s.step a = .next v → v.Owned ∧ v.Balanced := by
    intro s a v hs hgood hout
    have hmoved := (hs.1.moved hgood).leads hout
    exact ⟨hmoved.owned hs.1, hs.2.step hs.1 hmoved⟩
  refine ⟨?_, ?_⟩
  · have hinv := throughout_of_along (I := fun s => s.Owned ∧ s.Balanced) hinit hstep h
    exact hinv.mono fun s hs => hs.2.accounted hs.1
  · refine along_of_along (I := fun s => s.Owned ∧ s.Balanced) hinit hstep ?_ h
    exact fun s a hs hgood => ⟨(hs.1.step hgood).stops _, hs.1.erasesOne hgood⟩

/-- Two timers with the same deadline, one of them repeating; the other is
cancelled by a worker, and the repeating one after it has been rescheduled. -/
def sharedDeadline : List Action :=
  [.add .loop (.runEvery 1000) 1, .add (.worker 0) (.addTimer 1000 0) 2, .swap, .runTask,
    .endRound, .cancel (.worker 0) ⟨2, 1⟩, .swap, .runTask, .endRound, .elapse 2500 2500,
    .handleRead, .runTimer, .callbackReturn, .rearm, .handleRead, .runTimer, .callbackReturn,
    .rearm, .cancel .loop ⟨1, 0⟩]

theorem timers_accounted_sharedDeadline :
    Along step (fun s a => ¬ s.CancelsAstray a) (new 0 0) sharedDeadline ∧
      ((run step (new 0 0) (sharedDeadline.take 18)).map fun s => s.timers.toList) =
        some [entry 3000 ⟨1, 0⟩] ∧
      Throughout step Accounted (new 0 0) sharedDeadline :=
  ⟨by decide +kernel, by decide +kernel, (timers_accounted 0 0 _ (by decide +kernel)).1⟩

end TimerQueue

end CppWeb.Timers
