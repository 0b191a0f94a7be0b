/-
  Timers/Schedule.lean --- when timers run, in what order, and how often.

  The deadline of a timer is its first deadline plus as many intervals as it has
  been restarted; a restart counts from the old deadline and not from the clock,
  so a timer that has fallen behind is due again at once, but not before the
  next `handleRead`.

  One `handleRead` goes through the entries that it found due when it began.
  What callbacks insert in the meantime, due or not, waits for the next one.
-/
import CppWeb.Timers.Accounts

set_option autoImplicit false

namespace CppWeb.Timers

open CppWeb.Foundation CppWeb.Loop

theorem Entry.when_le_of_lt {e f : Entry} (h : e < f) : e.when ≤ f.when := by
  have hlex : toLex (e.when, e.timer) < toLex (f.when, f.timer) := h
  rcases Prod.Lex.toLex_lt_toLex.mp hlex with hlt | ⟨heq, _⟩
  · exact le_of_lt hlt
  · exact le_of_eq heq

namespace TimerQueue

/-- Exactly the entries below the bound are due. -/
theorem lt_expiredBound_iff {now : TimePoint} {e : Entry} :
    e < expiredBound now ↔ e.when ≤ now := by
  constructor
  · exact when_le_of_lt_expiredBound
  · intro hle
    have hlex : toLex (e.when, e.timer) < toLex (now + 1, Ptr.null) :=
      Prod.Lex.toLex_lt_toLex.mpr (Or.inl (Int.lt_add_one_iff.mpr hle))
    exact hlex

/-! ## What the history of runs says -/

/-- The samples at which the callback of a timer was run, in order. -/
def samples (s : TimerQueue) (p : Ptr) : List TimePoint :=
  (s.runs.filter fun run => run.1 = p).map Prod.snd

/-- How often a timer has been restarted: once for each of its runs but the one
that is going on. -/
def periods (s : TimerQueue) (p : Ptr) : Nat :=
  (s.samples p).length - if s.phase.current = some p then 1 else 0

theorem samples_eq_nil_iff {s : TimerQueue} {p : Ptr} : s.samples p = [] ↔ ¬ s.HasRun p := by
  constructor
  · intro hnil hrun
    obtain ⟨run, hmem, hp⟩ := List.mem_map.mp hrun
    have hin : run ∈ s.runs.filter fun run => run.1 = p :=
      List.mem_filter.mpr ⟨hmem, decide_eq_true hp⟩
    rw [samples, List.map_eq_nil_iff] at hnil
    rw [hnil] at hin
    cases hin
  · intro hnot
    rw [samples, List.map_eq_nil_iff, List.filter_eq_nil_iff]
    intro run hmem hp
    exact hnot (List.mem_map.mpr ⟨run, hmem, of_decide_eq_true hp⟩)

/-- A step runs a callback only for a timer that is due at the sample. -/
def RunsWhenDue (s : TimerQueue) (a : Action) : Prop :=
  (s.step a).Leads fun v => v.runs = s.runs ∨
    ∃ now e rest value, s.phase = .expired now (e :: rest) ∧
      s.heap.read e.timer = some value ∧ value.when ≤ now ∧ v.runs = s.runs ++ [(e.timer, now)]

/-- A timer that does not repeat runs once at most, and the runs of one that
does keep an interval from each other: counted from zero, run `k` is not before
the first deadline and `k` intervals. -/
structure Punctual (s : TimerQueue) : Prop where
  once : ∀ p, ¬ s.Repeats p → (s.samples p).length ≤ 1
  paced : ∀ a ∈ s.added, ∀ (k : Nat) now, (s.samples a.1)[k]? = some now →
    a.2.when + k * a.2.interval ≤ now

/-- The deadline of a timer says how often it has been restarted. -/
structure Paced (s : TimerQueue) : Prop where
  punctual : s.Punctual
  deadline : ∀ a ∈ s.added, ∀ value, s.heap.read a.1 = some value →
    value.interval = a.2.interval ∧ value.when = a.2.when + s.periods a.1 * a.2.interval

/-! ## What the parts of a step do to it -/

theorem paced_new (wall : TimePoint) (monotonic : Int) : (new wall monotonic).Paced := by
  refine ⟨⟨fun p _ => Nat.zero_le _, ?_⟩, ?_⟩
  · exact fun a ha => absurd ha List.not_mem_nil
  · exact fun a ha => absurd ha List.not_mem_nil

/-- A step that runs no callback, and after which no more can be read than
before. -/
theorem Paced.congr {s v : TimerQueue} (h : s.Paced)
    (hread : ∀ p value, v.heap.read p = some value → s.heap.read p = some value)
    (hadded : v.added = s.added) (hruns : v.runs = s.runs)
    (hcurrent : v.phase.current = s.phase.current) : v.Paced := by
  have hsamples : ∀ p, v.samples p = s.samples p := fun p => by rw [samples, samples, hruns]
  have hperiods : ∀ p, v.periods p = s.periods p := fun p => by
    rw [periods, periods, hsamples, hcurrent]
  have hrepeats : ∀ p, v.Repeats p ↔ s.Repeats p := fun p => by rw [Repeats, Repeats, hadded]
  refine ⟨⟨?_, ?_⟩, ?_⟩
  · intro p hp
    rw [hsamples]
    exact h.punctual.once p (fun hrep => hp ((hrepeats p).mpr hrep))
  · intro a ha k now hk
    rw [hadded] at ha
    rw [hsamples] at hk
    exact h.punctual.paced a ha k now hk
  · intro a ha value hvalue
    rw [hadded] at ha
    rw [hperiods]
    exact h.deadline a ha value (hread a.1 value hvalue)

/-- Putting a timer in `m_timers` runs no callback. -/
theorem Paced.place {s : TimerQueue} (h : s.Paced) (when : TimePoint) (timer : Ptr) :
    (s.place when timer).Paced := by
  refine h.congr (fun p value hr => ?_) (added_place s when timer) (runs_place s when timer) ?_
  · rwa [heap_place] at hr
  · rw [phase_place]

theorem Paced.allocate {s : TimerQueue} (h : s.Paced) (hs : s.Balanced) (addr : Nat)
    (timer : Timer) : (s.allocate addr timer).Paced := by
  have hnone : s.samples (s.heap.next addr) = [] :=
    samples_eq_nil_iff.mpr fun hrun => hs.not_inserted_next addr (hs.ran _ hrun)
  have hperiods : s.periods (s.heap.next addr) = 0 := by
    rw [periods, hnone, List.length_nil, Nat.zero_sub]
  refine ⟨⟨?_, ?_⟩, ?_⟩
  · intro p hp
    refine h.punctual.once p fun hrep => hp ?_
    obtain ⟨a, ha, hrest⟩ := hrep
    exact ⟨a, List.mem_append_left _ ha, hrest⟩
  · intro a ha k now hk
    rcases List.mem_append.mp ha with ha | ha
    · exact h.punctual.paced a ha k now hk
    · rw [List.mem_singleton.mp ha] at hk
      change (s.samples (s.heap.next addr))[k]? = some now at hk
      rw [hnone] at hk
      cases hk
  · intro a ha value hvalue
    rcases List.mem_append.mp ha with ha | ha
    · rcases Heap.read_of_alloc hvalue with ⟨heq, _⟩ | hold
      · have hlt := hs.added a ha
        rw [heq] at hlt
        exact absurd hlt (Nat.lt_irrefl _)
      · exact h.deadline a ha value hold
    · rw [List.mem_singleton.mp ha] at hvalue ⊢
      rw [show (s.allocate addr timer).heap.read (s.heap.next addr) = some timer from
        Heap.read_alloc_next _ _ _, Option.some.injEq] at hvalue
      subst hvalue
      refine ⟨rfl, ?_⟩
      change timer.when = timer.when + s.periods (s.heap.next addr) * timer.interval
      rw [hperiods, Int.natCast_zero, Int.zero_mul, Int.add_zero]

theorem samples_concat {s v : TimerQueue} {p : Ptr} {now : TimePoint}
    (hruns : v.runs = s.runs ++ [(p, now)]) (q : Ptr) :
    v.samples q = s.samples q ++ if q = p then [now] else [] := by
  rw [samples, samples, hruns, List.filter_append, List.map_append, List.filter_singleton]
  by_cases hq : q = p
  · simp [hq]
  · have hne : ¬ p = q := fun h => hq h.symm
    simp [hq, hne]

/-- A callback is run in time, and its restart is still to come. -/
theorem Paced.runTimer {s : TimerQueue} (h : s.Paced) (hs : s.Balanced) {now : TimePoint}
    {e : Entry} {rest : List Entry} {value : Timer} (hphase : s.phase = .expired now (e :: rest))
    (hread : s.heap.read e.timer = some value) (hdue : value.when ≤ now) :
    ({ s with
      phase := .callback now e rest
      runs := s.runs ++ [(e.timer, now)] } : TimerQueue).Paced := by
  generalize hv : ({ s with
    phase := .callback now e rest
    runs := s.runs ++ [(e.timer, now)] } : TimerQueue) = v
  have hsamples : ∀ p, v.samples p = s.samples p ++ if p = e.timer then [now] else [] :=
    samples_concat (by rw [← hv])
  have hadded : v.added = s.added := by rw [← hv]
  have hheap : v.heap = s.heap := by rw [← hv]
  have hcurrent : v.phase.current = some e.timer := by rw [← hv]; rfl
  have hnone : s.phase.current = none := by rw [hphase]; rfl
  have hperiods : ∀ p, v.periods p = s.periods p := by
    intro p
    rw [periods, periods, hsamples, hcurrent, hnone, List.length_append]
    by_cases hp : p = e.timer
    · simp [hp]
    · have hne : ¬ e.timer = p := fun heq => hp heq.symm
      simp [hp, hne]
  have hfirst : ¬ s.Repeats e.timer → s.samples e.timer = [] := by
    intro hnot
    have hin : s.InLoop e.timer := ⟨e, Or.inr (by rw [hphase]; exact List.mem_cons_self), rfl⟩
    obtain ⟨_, _, hwhy⟩ := (hs.inLoop (by rw [hphase]; simp) e.timer).mp hin
    rw [hnone] at hwhy
    rcases hwhy with hrep | hrun | hcur
    · exact absurd hrep hnot
    · exact samples_eq_nil_iff.mpr hrun
    · cases hcur
  refine ⟨⟨?_, ?_⟩, ?_⟩
  · intro p hp
    rw [Repeats, hadded] at hp
    rw [hsamples]
    by_cases hpe : p = e.timer
    · subst hpe
      rw [hfirst hp, if_pos rfl]
      exact Nat.le_refl _
    · rw [if_neg hpe, List.append_nil]
      exact h.punctual.once p hp
  · intro a ha k sample hk
    rw [hadded] at ha
    rw [hsamples] at hk
    by_cases hpe : a.1 = e.timer
    · rw [if_pos hpe] at hk
      by_cases hold : k < (s.samples a.1).length
      · rw [List.getElem?_append_left hold] at hk
        exact h.punctual.paced a ha k sample hk
      · have hlt := (List.getElem?_eq_some_iff.mp hk).1
        rw [List.length_append, List.length_singleton] at hlt
        have hkeq : k = (s.samples a.1).length := by omega
        have hsample : sample = now := by
          rw [hkeq, List.getElem?_concat_length] at hk
          exact (Option.some.inj hk).symm
        -- the deadline has moved by one interval for each earlier run
        obtain ⟨_, hwhen⟩ := h.deadline a ha value (by rw [hpe]; exact hread)
        rw [periods, hnone] at hwhen
        simp only [reduceCtorEq, if_false, Nat.sub_zero, ← hkeq] at hwhen
        rw [hsample, ← hwhen]
        exact hdue
    · rw [if_neg hpe, List.append_nil] at hk
      exact h.punctual.paced a ha k sample hk
  · intro a ha value' hvalue
    rw [hadded] at ha
    rw [hheap] at hvalue
    rw [hperiods]
    exact h.deadline a ha value' hvalue

/-- The restart moves the deadline by one interval. -/
theorem Paced.restart {s : TimerQueue} (h : s.Paced) (hs : s.Balanced) {now : TimePoint}
    {e : Entry} {rest : List Entry} {value : Timer} (hphase : s.phase = .callback now e rest)
    (hread : s.heap.read e.timer = some value) (timers : OrderedSet Entry) :
    ({ s with
      phase := .expired now rest
      heap := s.heap.write e.timer { value with when := value.when + value.interval }
      timers := timers } : TimerQueue).Paced := by
  have hcurrent : s.phase.current = some e.timer := by rw [hphase]; rfl
  have hrun : s.samples e.timer ≠ [] := fun hnil =>
    samples_eq_nil_iff.mp hnil (hs.current e.timer hcurrent)
  have hpos := List.length_pos_iff.mpr hrun
  refine ⟨⟨h.punctual.once, h.punctual.paced⟩, ?_⟩
  intro a ha value' hvalue
  change value'.interval = a.2.interval ∧
    value'.when = a.2.when + ((s.samples a.1).length - 0 : Nat) * a.2.interval
  by_cases hpe : a.1 = e.timer
  · rw [hpe] at hvalue ⊢
    rw [Heap.read_write_self hread, Option.some.injEq] at hvalue
    obtain ⟨hinterval, hwhen⟩ := h.deadline a ha value (by rw [hpe]; exact hread)
    rw [periods, hpe, hcurrent, if_pos rfl] at hwhen
    rw [← hvalue]
    refine ⟨hinterval, ?_⟩
    dsimp only
    obtain ⟨n, hn⟩ := Nat.exists_eq_succ_of_ne_zero (Nat.ne_of_gt hpos)
    rw [hn] at hwhen ⊢
    rw [hwhen, hinterval, Nat.sub_zero, Nat.succ_sub_one, Int.natCast_succ, Int.add_mul,
      Int.one_mul, Int.add_assoc]
  · rcases Heap.read_of_write hread hvalue with ⟨heq, _⟩ | hold
    · exact absurd heq hpe
    · have hdeadline := h.deadline a ha value' hold
      have hne : ¬ e.timer = a.1 := fun heq => hpe heq.symm
      rw [periods, hcurrent] at hdeadline
      simpa [hne] using hdeadline

/-- A timer that does not repeat is gone after its run. -/
theorem Paced.finish {s : TimerQueue} (h : s.Paced) {now : TimePoint} {e : Entry}
    {rest : List Entry} (hphase : s.phase = .callback now e rest) :
    ({ s with
      phase := .expired now rest
      heap := s.heap.delete e.timer } : TimerQueue).Paced := by
  have hcurrent : s.phase.current = some e.timer := by rw [hphase]; rfl
  refine ⟨⟨h.punctual.once, h.punctual.paced⟩, ?_⟩
  intro a ha value hvalue
  change value.interval = a.2.interval ∧
    value.when = a.2.when + ((s.samples a.1).length - 0 : Nat) * a.2.interval
  by_cases hpe : a.1 = e.timer
  · change (s.heap.delete e.timer).read a.1 = some value at hvalue
    rw [hpe, Heap.read_delete_self] at hvalue
    cases hvalue
  · have hdeadline := h.deadline a ha value (Heap.read_of_delete hvalue)
    have hne : ¬ e.timer = a.1 := fun heq => hpe heq.symm
    rw [periods, hcurrent] at hdeadline
    simpa [hne] using hdeadline

theorem read_of_discard {s : TimerQueue} {e : Entry} {value : Timer}
    (hread : s.heap.read e.timer = some value) {p : Ptr} {v : Timer}
    (hv : (s.discard e value).heap.read p = some v) : s.heap.read p = some v := by
  change ((s.heap.write e.timer { value with isCanceled := true }).delete e.timer).read p =
    some v at hv
  by_cases hp : p = e.timer
  · rw [hp, Heap.read_delete_self] at hv
    cases hv
  · rcases Heap.read_of_write hread (Heap.read_of_delete hv) with ⟨heq, _⟩ | hold
    · exact absurd heq hp
    · exact hold

/-- **One step.** -/
theorem Paced.step {s v : TimerQueue} {a : Action} (h : s.Paced) (hs : s.Balanced)
    (hmoved : s.Moved a v) : v.Paced := by
  cases hmoved with
  | elapse wall monotonic => exact h.congr (fun _ _ hr => hr) rfl rfl rfl
  | expire setting hsetting hexpired => exact h.congr (fun _ _ hr => hr) rfl rfl rfl
  | addQueued i request addr hmay =>
    have hnew := h.allocate hs addr (Timer.new (request.when s.wall) request.interval)
    exact hnew.congr (fun _ _ hr => hr) rfl rfl rfl
  | addNow request addr hmay =>
    have hnew := h.allocate hs addr (Timer.new (request.when s.wall) request.interval)
    have hlogged : ((s.allocate addr (Timer.new (request.when s.wall) request.interval)).log
        (.insert (request.when s.wall) (s.heap.next addr))).Paced :=
      hnew.congr (fun _ _ hr => hr) rfl rfl rfl
    exact hlogged.place _ _
  | cancelQueued i timer hmay => exact h.congr (fun _ _ hr => hr) rfl rfl rfl
  | cancelNow e value hmay hmem hread =>
    exact h.congr (fun _ _ hr => read_of_discard (s := s) hread hr) rfl rfl rfl
  | handleRead hphase =>
    refine h.congr (fun _ _ hr => hr) rfl rfl ?_
    rw [hphase]
    rfl
  | runTimer now e rest value hphase hread hwhen hdue =>
    exact h.runTimer hs hphase hread (hwhen ▸ hdue)
  | restart now e rest value hphase hread hwhen hcanceled hrepeat =>
    exact h.restart hs hphase hread _
  | finish now e rest value hphase hread honce => exact h.finish hphase
  | rearm now hphase =>
    refine h.congr (fun p value hr => ?_) ?_ ?_ ?_
    · rwa [heap_rearm] at hr
    · rw [TimerQueue.rearm]
      split <;> rfl
    · rw [TimerQueue.rearm]
      split <;> rfl
    · rw [phase_rearm, hphase]
      rfl
  | swap hphase =>
    refine h.congr (fun _ _ hr => hr) rfl rfl ?_
    rw [hphase]
    rfl
  | runInsert when timer rest hphase hbatch =>
    have htaken : ({ s with queue := s.queue.advance }.log (.insert when timer)).Paced :=
      h.congr (fun _ _ hr => hr) rfl rfl rfl
    exact htaken.place _ _
  | runCancel e value rest hphase hbatch hmem hread =>
    exact h.congr (fun _ _ hr => read_of_discard (s := s) hread hr) rfl rfl rfl
  | endRound hphase hbatch =>
    refine h.congr (fun _ _ hr => hr) rfl rfl ?_
    rw [hphase]
    rfl
  | destroy heap hphase howns hread hlength =>
    refine h.congr hread rfl rfl ?_
    rw [hphase]
    rfl

/-! ## One `handleRead` -/

/-- What the `handleRead` that began in `s` has done in the state `t` before its
end: it has gone through the entries `done` and still has `rest` to come. -/
structure Round (s t : TimerQueue) (done rest : List Entry) : Prop where
  /-- the deadline of an entry is that of its timer -/
  keys : ∀ e ∈ s.timers, ∃ value, s.heap.read e.timer = some value ∧ value.when = e.when
  /-- it took the entries that were due when it began -/
  taken : ∀ e, e ∈ done ++ rest ↔ e ∈ s.timers ∧ e.when ≤ s.wall
  /-- in the order of their deadlines -/
  order : (done ++ rest).Pairwise fun e f => e.when ≤ f.when
  /-- one for each timer -/
  distinct : ((done ++ rest).map Entry.timer).Nodup
  /-- it has run the callbacks of those that it has gone through -/
  runs : t.runs = s.runs ++ done.map fun e => (e.timer, s.wall)
  place : t.phase = .expired s.wall rest ∨
    ∃ init e, done = init ++ [e] ∧ t.phase = .callback s.wall e rest
  /-- every later timer is as it was, unless a callback has cancelled it -/
  later : ∀ e ∈ s.timers, s.wall < e.when →
    .cancel e.timer ∈ t.executed ∨ e ∈ t.timers ∧ t.heap.read e.timer = s.heap.read e.timer

theorem Round.entries {s t : TimerQueue} {done rest : List Entry} (h : Round s t done rest) :
    t.phase.entries ≠ [] ∨ t.phase = .expired s.wall [] := by
  rcases h.place with hphase | ⟨init, e, _, hphase⟩
  · cases rest with
    | nil => exact Or.inr hphase
    | cons e rest =>
      rw [hphase]
      exact Or.inl (List.cons_ne_nil _ _)
  · rw [hphase]
    exact Or.inl (List.cons_ne_nil _ _)

/-- The beginning. -/
theorem Owned.round {s : TimerQueue} (h : s.Owned) :
    Round s s.handleRead [] (s.timers.below (expiredBound s.wall)) := by
  refine ⟨fun e he => ?_, fun e => ?_, ?_, ?_, (List.append_nil _).symm, Or.inl rfl, ?_⟩
  · obtain ⟨value, hread, hwhen, _⟩ := h.owns.inTimers e he
    exact ⟨value, hread, hwhen⟩
  · rw [List.nil_append, OrderedSet.mem_below, lt_expiredBound_iff]
  · rw [List.nil_append]
    exact (s.timers.ascending.filter _).imp fun hlt => Entry.when_le_of_lt hlt
  · rw [List.nil_append, List.nodup_map_iff_inj_on (OrderedSet.nodup_below _ _)]
    intro e he f hf heq
    exact h.eq_of_timer (Or.inl (OrderedSet.mem_below.mp he).1)
      (Or.inl (OrderedSet.mem_below.mp hf).1) heq
  · intro e he hlater
    refine Or.inr ⟨OrderedSet.mem_dropBelow.mpr ⟨he, ?_⟩, rfl⟩
    rw [← not_lt, lt_expiredBound_iff]
    exact not_le.mpr hlater

theorem Moved.executed {t v : TimerQueue} {a : Action} (hmoved : t.Moved a v) {task : Task}
    (h : task ∈ t.executed) : task ∈ v.executed := by
  cases hmoved with
  | addNow request addr hmay =>
    rw [executed_place]
    exact List.mem_append_left _ h
  | cancelNow e value hmay hmem hread => exact List.mem_append_left _ h
  | rearm now hphase =>
    rw [TimerQueue.rearm]
    split <;> exact h
  | runInsert when timer rest hphase hbatch =>
    rw [executed_place]
    exact List.mem_append_left _ h
  | runCancel e value rest hphase hbatch hmem hread => exact List.mem_append_left _ h
  | _ => exact h

/-- The allocation of a timer leaves the others. -/
theorem read_allocate {t : TimerQueue} (h : t.Owned) {f : Entry} (hf : f ∈ t.timers) (addr : Nat)
    (timer : Timer) : (t.allocate addr timer).heap.read f.timer = t.heap.read f.timer := by
  obtain ⟨value, hread, _⟩ := h.owns.inTimers f hf
  rw [hread]
  exact Heap.read_alloc hread addr timer

/-- A timer in `m_timers` is another object than one that is held or has another
entry there. -/
theorem Owned.serial_ne {t : TimerQueue} (h : t.Owned) {f e : Entry} (hf : f ∈ t.timers)
    (he : e ∈ t.timers ∨ e ∈ t.held) (hne : f ≠ e) : f.timer.serial ≠ e.timer.serial := by
  obtain ⟨value, hread, _⟩ := h.owns.inTimers f hf
  have hkeeps : Keeps t.heap e := he.elim (h.owns.inTimers e) (h.owns.inHeld e)
  obtain ⟨value', hread', _⟩ := hkeeps
  refine Heap.serial_ne_of_read hread hread' fun heq => hne ?_
  exact h.eq_of_timer (Or.inl hf) he heq

/-- A cancel takes away its own timer and leaves the others. -/
theorem Owned.spares_discard {t : TimerQueue} (h : t.Owned) {e f : Entry} (he : e ∈ t.timers)
    (hf : f ∈ t.timers) (value : Timer) :
    f.timer = e.timer ∨ f ∈ (t.discard e value).timers ∧
      (t.discard e value).heap.read f.timer = t.heap.read f.timer := by
  by_cases hfe : f = e
  · exact Or.inl (congrArg Entry.timer hfe)
  · have hserial := h.serial_ne hf (Or.inl he) hfe
    refine Or.inr ⟨OrderedSet.mem_erase.mpr ⟨hfe, hf⟩, ?_⟩
    exact (Heap.read_delete_of_ne hserial).trans (Heap.read_write_of_ne hserial _)

/-- The entry whose callback has returned is not in `m_timers`. -/
theorem Owned.serial_ne_current {t : TimerQueue} (h : t.Owned) {now : TimePoint} {e f : Entry}
    {rest : List Entry} (hphase : t.phase = .callback now e rest) (hf : f ∈ t.timers) :
    f.timer.serial ≠ e.timer.serial := by
  have hheld : e ∈ t.held := mem_held_of_entries (by rw [hphase]; exact List.mem_cons_self)
  refine h.serial_ne hf (Or.inr hheld) fun heq => ?_
  rw [heq] at hf
  exact h.owns.apart e hheld hf

/-- Once `handleRead` has taken its batch, a timer in `m_timers` is left alone by
every step but a cancel of it. -/
theorem Moved.spares {t v : TimerQueue} {a : Action} (h : t.Owned) (hmoved : t.Moved a v)
    (hphase : t.phase ≠ .handlers) {f : Entry} (hf : f ∈ t.timers) :
    .cancel f.timer ∈ v.executed ∨ f ∈ v.timers ∧ v.heap.read f.timer = t.heap.read f.timer := by
  cases hmoved with
  | elapse wall monotonic => exact Or.inr ⟨hf, rfl⟩
  | expire setting hsetting hexpired => exact Or.inr ⟨hf, rfl⟩
  | addQueued i request addr hmay => exact Or.inr ⟨hf, read_allocate h hf addr _⟩
  | addNow request addr hmay =>
    refine Or.inr ⟨?_, ?_⟩
    · rw [timers_place]
      exact OrderedSet.mem_insert.mpr (Or.inr hf)
    · rw [heap_place]
      exact read_allocate h hf addr _
  | cancelQueued i timer hmay => exact Or.inr ⟨hf, rfl⟩
  | cancelNow e value hmay hmem hread =>
    rcases h.spares_discard hmem hf value with heq | hkept
    · rw [heq]
      exact Or.inl (List.mem_append_right _ (List.mem_singleton_self _))
    · exact Or.inr hkept
  | handleRead hhandlers => exact absurd hhandlers hphase
  | runTimer now e rest value hexpired hread hwhen hdue => exact Or.inr ⟨hf, rfl⟩
  | restart now e rest value hcallback hread hwhen hcanceled hrepeat =>
    refine Or.inr ⟨OrderedSet.mem_insert.mpr (Or.inr hf), ?_⟩
    exact Heap.read_write_of_ne (h.serial_ne_current hcallback hf) _
  | finish now e rest value hcallback hread honce =>
    exact Or.inr ⟨hf, Heap.read_delete_of_ne (h.serial_ne_current hcallback hf)⟩
  | rearm now hexpired =>
    rw [timers_rearm, heap_rearm]
    exact Or.inr ⟨hf, rfl⟩
  | swap hhandlers => exact absurd hhandlers hphase
  | runInsert when timer rest htasks hbatch =>
    refine Or.inr ⟨?_, ?_⟩
    · rw [timers_place]
      exact OrderedSet.mem_insert.mpr (Or.inr hf)
    · rw [heap_place]
      rfl
  | runCancel e value rest htasks hbatch hmem hread =>
    rcases h.spares_discard hmem hf value with heq | hkept
    · rw [heq]
      exact Or.inl (List.mem_append_right _ (List.mem_singleton_self _))
    · exact Or.inr hkept
  | endRound htasks hbatch => exact Or.inr ⟨hf, rfl⟩
  | destroy heap hhandlers howns hread hlength => exact absurd hhandlers hphase

/-- **One step of a `handleRead`.** -/
theorem Round.step {s t v : TimerQueue} {a : Action} {done rest : List Entry}
    (h : Round s t done rest) (howned : t.Owned) (hmoved : t.Moved a v) (ha : a ≠ .rearm) :
    ∃ done' rest', Round s v done' rest' := by
  have hhandlers : t.phase ≠ .handlers := by
    rcases h.place with hphase | ⟨init, e, _, hphase⟩ <;> rw [hphase] <;> simp
  have htasks : t.phase ≠ .tasks := by
    rcases h.place with hphase | ⟨init, e, _, hphase⟩ <;> rw [hphase] <;> simp
  have hlater : ∀ e ∈ s.timers, s.wall < e.when →
      .cancel e.timer ∈ v.executed ∨ e ∈ v.timers ∧ v.heap.read e.timer = s.heap.read e.timer := by
    intro e he hlt
    rcases h.later e he hlt with hcancel | ⟨hin, hsame⟩
    · exact Or.inl (hmoved.executed hcancel)
    · rcases hmoved.spares howned hhandlers hin with hcancel | ⟨hin', hsame'⟩
      · exact Or.inl hcancel
      · exact Or.inr ⟨hin', hsame'.trans hsame⟩
  -- most steps run no callback and stay where they are in the batch
  have hstays : v.runs = t.runs → v.phase = t.phase → ∃ done' rest', Round s v done' rest' := by
    intro hruns hphase
    refine ⟨done, rest, h.keys, h.taken, h.order, h.distinct, hruns.trans h.runs, ?_, hlater⟩
    rw [hphase]
    exact h.place
  -- a callback that returns has been entered in the batch when it was called
  have hreturns : ∀ {now : TimePoint} {e : Entry} {rest' : List Entry},
      t.phase = .callback now e rest' → v.runs = t.runs → v.phase = .expired now rest' →
        ∃ done' rest', Round s v done' rest' := by
    intro now e rest' hphase hruns hnext
    rcases h.place with hplace | ⟨init, f, _, hplace⟩
    · rw [hphase] at hplace
      cases hplace
    · rw [hphase] at hplace
      cases hplace
      exact ⟨done, rest, h.keys, h.taken, h.order, h.distinct, hruns.trans h.runs, Or.inl hnext,
        hlater⟩
  cases hmoved with
  | elapse wall monotonic => exact hstays rfl rfl
  | expire setting hsetting hexpired => exact hstays rfl rfl
  | addQueued i request addr hmay => exact hstays rfl rfl
  | addNow request addr hmay => exact hstays (runs_place ..) (phase_place ..)
  | cancelQueued i timer hmay => exact hstays rfl rfl
  | cancelNow e value hmay hmem hread => exact hstays rfl rfl
  | handleRead hphase => exact absurd hphase hhandlers
  | runTimer now e rest' value hphase hread hwhen hdue =>
    rcases h.place with hplace | ⟨init, f, _, hplace⟩
    · rw [hphase] at hplace
      cases hplace
      have hsplit : done ++ [e] ++ rest' = done ++ e :: rest' := by
        rw [List.append_assoc, List.singleton_append]
      refine ⟨done ++ [e], rest', h.keys, ?_, ?_, ?_, ?_, Or.inr ⟨done, e, rfl, rfl⟩, hlater⟩
      · rw [hsplit]
        exact h.taken
      · rw [hsplit]
        exact h.order
      · rw [hsplit]
        exact h.distinct
      · rw [List.map_append, ← List.append_assoc, ← h.runs]
        rfl
    · rw [hphase] at hplace
      cases hplace
  | restart now e rest' value hphase hread hwhen hcanceled hrepeat =>
    exact hreturns hphase rfl rfl
  | finish now e rest' value hphase hread honce => exact hreturns hphase rfl rfl
  | rearm now hphase => exact absurd rfl ha
  | swap hphase => exact absurd hphase hhandlers
  | runInsert when timer rest' hphase hbatch => exact absurd hphase htasks
  | runCancel e value rest' hphase hbatch hmem hread => exact absurd hphase htasks
  | endRound hphase hbatch => exact absurd hphase htasks
  | destroy heap hphase howns hread hlength => exact absurd hphase hhandlers

/-- **A `handleRead` up to its end.** -/
theorem Round.run {s t v : TimerQueue} {done rest : List Entry} {actions : List Action}
    (h : Round s t done rest) (howned : t.Owned)
    (hgood : Along TimerQueue.step (fun s a => ¬ s.CancelsAstray a) t actions)
    (hstay : .rearm ∉ actions) (hrun : run TimerQueue.step t actions = some v) :
    ∃ done' rest', Round s v done' rest' := by
  induction actions generalizing t done rest with
  | nil =>
    cases hrun
    exact ⟨done, rest, h⟩
  | cons a actions ih =>
    obtain ⟨u, hu, hrest⟩ := run_cons_eq_some.mp hrun
    have hmoved := (howned.moved hgood.1).leads hu
    have hne : a ≠ .rearm := fun heq => hstay (heq ▸ List.mem_cons_self)
    obtain ⟨done', rest', hround⟩ := h.step howned hmoved hne
    refine ih hround (hmoved.owned howned) (along_tail hgood hu) ?_ hrest
    exact fun hmem => hstay (List.mem_cons_of_mem _ hmem)

/-! ## Runs -/

/-- Steps run callbacks of due timers only. -/
theorem Owned.runsWhenDue {s : TimerQueue} (h : s.Owned) {a : Action}
    (hgood : ¬ s.CancelsAstray a) : s.RunsWhenDue a := by
  rw [RunsWhenDue, Outcome.leads_iff]
  intro v hstep
  have hmoved := (h.moved hgood).leads hstep
  cases hmoved with
  | runTimer now e rest value hphase hread hwhen hdue =>
    exact Or.inr ⟨now, e, rest, value, hphase, hread, hwhen ▸ hdue, rfl⟩
  | addNow request addr hmay => exact Or.inl (runs_place ..)
  | rearm now hphase =>
    left
    rw [TimerQueue.rearm]
    split <;> rfl
  | runInsert when timer rest hphase hbatch => exact Or.inl (runs_place ..)
  | _ => exact Or.inl rfl

/-- What was added stays recorded. -/
theorem Moved.added {s v : TimerQueue} {a : Action} (hmoved : s.Moved a v) {x : Ptr × Timer}
    (h : x ∈ s.added) : x ∈ v.added := by
  cases hmoved with
  | addQueued i request addr hmay => exact List.mem_append_left _ h
  | addNow request addr hmay =>
    rw [added_place]
    exact List.mem_append_left _ h
  | rearm now hphase =>
    rw [TimerQueue.rearm]
    split <;> exact h
  | runInsert when timer rest hphase hbatch =>
    rw [added_place]
    exact h
  | _ => exact h

/-- An addition records the timer as it was constructed. -/
theorem Moved.added_of_add {s v : TimerQueue} {t : Thread} {request : Request} {addr : Nat}
    (hmoved : s.Moved (.add t request addr) v) :
    (s.heap.next addr, Timer.new (request.when s.wall) request.interval) ∈ v.added := by
  cases hmoved with
  | addQueued i request addr hmay =>
    exact List.mem_append_right _ (List.mem_singleton_self _)
  | addNow request addr hmay =>
    rw [added_place]
    exact List.mem_append_right _ (List.mem_singleton_self _)

/-- The invariants of a run. -/
structure Scheduled (s : TimerQueue) : Prop where
  owned : s.Owned
  balanced : s.Balanced
  paced : s.Paced

theorem scheduled_new (wall : TimePoint) (monotonic : Int) : (new wall monotonic).Scheduled :=
  ⟨owned_new wall monotonic, balanced_new wall monotonic, paced_new wall monotonic⟩

theorem Scheduled.step {s v : TimerQueue} {a : Action} (h : s.Scheduled)
    (hgood : ¬ s.CancelsAstray a) (hstep : s.step a = .next v) : v.Scheduled := by
  have hmoved := (h.owned.moved hgood).leads hstep
  exact ⟨hmoved.owned h.owned, h.balanced.step h.owned hmoved, h.paced.step h.balanced hmoved⟩

theorem Scheduled.run {s v : TimerQueue} {actions : List Action} (h : s.Scheduled)
    (hgood : Along TimerQueue.step (fun s a => ¬ s.CancelsAstray a) s actions)
    (hrun : run TimerQueue.step s actions = some v) : v.Scheduled :=
  throughout_iff_run.mp (throughout_of_along h (fun _ _ _ hs hg hv => hs.step hg hv) hgood)
    actions v List.prefix_rfl hrun

theorem added_of_run {s v : TimerQueue} {actions : List Action} (h : s.Scheduled)
    (hgood : Along TimerQueue.step (fun s a => ¬ s.CancelsAstray a) s actions)
    (hrun : run TimerQueue.step s actions = some v) {x : Ptr × Timer} (hx : x ∈ s.added) :
    x ∈ v.added := by
  have hinv := throughout_of_along (I := fun s => s.Scheduled ∧ x ∈ s.added) ⟨h, hx⟩
    (fun s a u hs hg hu =>
      ⟨hs.1.step hg hu, ((hs.1.owned.moved hg).leads hu).added hs.2⟩) hgood
  exact (throughout_iff_run.mp hinv actions v List.prefix_rfl hrun).2

/-- A timer made by `runEvery(interval)`: its run `k`, counted from zero, is not
before `k + 1` intervals after it was made. -/
theorem samples_of_runEvery {s v : TimerQueue} {t : Thread} {interval : Nanoseconds} {addr : Nat}
    {post : List Action} (h : s.Scheduled)
    (hgood : Along step (fun s a => ¬ s.CancelsAstray a) s
      (.add t (.runEvery interval) addr :: post))
    (hrun : run step s (.add t (.runEvery interval) addr :: post) = some v) (k : Nat)
    (now : TimePoint) (hk : (v.samples (s.heap.next addr))[k]? = some now) :
    s.wall + (k + 1) * interval ≤ now := by
  obtain ⟨u, hu, hrest⟩ := run_cons_eq_some.mp hrun
  have hadded := ((h.owned.moved hgood.1).leads hu).added_of_add
  have hv := (h.step hgood.1 hu).run (along_tail hgood hu) hrest
  have hmem := added_of_run (h.step hgood.1 hu) (along_tail hgood hu) hrest hadded
  have hpaced := hv.paced.punctual.paced _ hmem k now hk
  have hsum : s.wall + (k + 1) * interval = s.wall + interval + k * interval := by
    rw [Int.add_mul, Int.one_mul, Int.add_comm (k * interval) interval, Int.add_assoc]
  rw [hsum]
  exact hpaced

/-- **Timers run on time, in order and the right number of times.**  In every
run in which the closures of `cancelTimer` find their timers in `m_timers`: a
callback only runs at a sample that has reached the deadline of its timer; a
timer that does not repeat runs once at most; the runs of a timer made by
`runEvery(interval)` are not before one, two, three intervals from then and so
on; and each `handleRead` takes exactly the timers that are due when it begins,
runs them in the order of their deadlines, each once, and leaves the later
ones. -/
theorem timers_punctual (wall : TimePoint) (monotonic : Int) (actions : List Action)
    (h : Along step (fun s a => ¬ s.CancelsAstray a) (new wall monotonic) actions) :
    Along step RunsWhenDue (new wall monotonic) actions ∧
      Throughout step Punctual (new wall monotonic) actions ∧
      (∀ pre t interval addr post s v,
        actions = pre ++ .add t (.runEvery interval) addr :: post →
        run step (new wall monotonic) pre = some s →
        run step s (.add t (.runEvery interval) addr :: post) = some v →
        ∀ (k : Nat) now, (v.samples (s.heap.next addr))[k]? = some now →
          s.wall + (k + 1) * interval ≤ now) ∧
      (∀ pre inside post s t, actions = pre ++ .handleRead :: (inside ++ post) →
        .rearm ∉ inside → run step (new wall monotonic) pre = some s →
        run step s (.handleRead :: inside) = some t → ∃ done rest, Round s t done rest) := by
  have hinit := scheduled_new wall monotonic
  refine ⟨?_, ?_, ?_, ?_⟩
  · exact along_of_along hinit (fun _ _ _ hs hg hv => hs.step hg hv)
      (fun s a hs hg => hs.owned.runsWhenDue hg) h
  · exact (throughout_of_along hinit (fun _ _ _ hs hg hv => hs.step hg hv) h).mono
      fun s hs => hs.paced.punctual
  · intro pre t interval addr post s v hactions hpre hrun
    rw [hactions] at h
    have hs : s.Scheduled := throughout_iff_run.mp
      (throughout_of_along hinit (fun _ _ _ hs hg hv => hs.step hg hv) h) pre s
      (List.prefix_append _ _) hpre
    exact samples_of_runEvery hs (h.of_append hpre) hrun
  · intro pre inside post s t hactions hstay hpre hrun
    rw [hactions] at h
    have hs : s.Scheduled := throughout_iff_run.mp
      (throughout_of_along hinit (fun _ _ _ hs hg hv => hs.step hg hv) h) pre s
      (List.prefix_append _ _) hpre
    have hgood := h.of_append hpre
    obtain ⟨u, hu, hinside⟩ := run_cons_eq_some.mp hrun
    have hmoved := (hs.owned.moved hgood.1).leads hu
    have htail := along_tail hgood hu
    cases hmoved with
    | handleRead hphase =>
      have hround := hs.owned.round
      have howned := (hs.step hgood.1 hu).owned
      exact hround.run howned htail.append_left hstay hinside

/-- Two timers that share a deadline, one of them repeating. -/
theorem timers_punctual_sharedDeadline :
    Along step (fun s a => ¬ s.CancelsAstray a) (new 0 0) sharedDeadline ∧
      ((run step (new 0 0) (sharedDeadline.take 18)).map fun s => s.samples ⟨1, 0⟩) =
        some [2500, 2500] ∧
      Throughout step Punctual (new 0 0) sharedDeadline :=
  ⟨by decide +kernel, by decide +kernel, (timers_punctual 0 0 _ (by decide +kernel)).2.1⟩

end TimerQueue

end CppWeb.Timers
