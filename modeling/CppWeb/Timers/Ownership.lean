/-
  Timers/Ownership.lean --- who owns a timer, and how long it lives.

  Between two steps a timer that has not been deleted is owned once: by its
  entry in `m_timers`, by an entry of the batch that `handleRead` works
  through, or by the closure of `addTimer` that is still queued.  `handleRead`
  deletes what it owns.  The closure of `cancelTimer` deletes its timer
  whoever owns it; that is right if the owner is `m_timers`, whose entry it
  erases.  In all other cases it leaves a deleted timer to its owner: a callback
  that cancels its own timer, or one of the same batch that is still to come,
  leaves it to `handleRead`, and on the loop thread a cancel that overtakes the
  queued `addTimer` leaves it to a closure that will put it into `m_timers`.
-/
import CppWeb.Foundation.Transition
import CppWeb.Timers.TimerQueue

set_option autoImplicit false

namespace CppWeb.Timers

open CppWeb.Foundation CppWeb.Loop

/-! ## Ownership -/

/-- The timer of the entry is alive, has the entry's deadline and has not been
cancelled. -/
def Keeps (heap : Heap Timer) (e : Entry) : Prop :=
  ∃ timer, heap.read e.timer = some timer ∧ timer.when = e.when ∧ timer.isCanceled = false

/-- Entries of one timer are equal, since they have its deadline. -/
theorem Keeps.eq_of_timer {heap : Heap Timer} {e f : Entry} (he : Keeps heap e)
    (hf : Keeps heap f) (heq : e.timer = f.timer) : e = f := by
  obtain ⟨timer, hread, hwhen, _⟩ := he
  obtain ⟨timer', hread', hwhen', _⟩ := hf
  rw [heq, hread'] at hread
  cases hread
  exact Entry.ext (hwhen.symm.trans hwhen') heq

/-- Different entries have different timers. -/
theorem Keeps.serial_ne {heap : Heap Timer} {e f : Entry} (he : Keeps heap e)
    (hf : Keeps heap f) (hne : e ≠ f) : e.timer.serial ≠ f.timer.serial := by
  have htimer : e.timer ≠ f.timer := fun heq => hne (he.eq_of_timer hf heq)
  obtain ⟨_, hread, _⟩ := he
  obtain ⟨_, hread', _⟩ := hf
  exact Heap.serial_ne_of_read hread hread' htimer

/-- The entry keeps its timer in any heap that reads it the same way. -/
theorem Keeps.of_read_eq {heap heap' : Heap Timer} {e : Entry} (he : Keeps heap e)
    (hread : heap'.read e.timer = heap.read e.timer) : Keeps heap' e := by
  rw [Keeps, hread]
  exact he

/-- The timers of the entries in `m_timers` and of those held elsewhere are
alive, and each is owned once. -/
structure Owns (heap : Heap Timer) (timers : OrderedSet Entry) (held : List Entry) : Prop where
  inTimers : ∀ e ∈ timers, Keeps heap e
  inHeld : ∀ e ∈ held, Keeps heap e
  once : held.Nodup
  apart : ∀ e ∈ held, e ∉ timers

namespace Owns

variable {heap heap' : Heap Timer} {timers : OrderedSet Entry} {held held' : List Entry} {e : Entry}

theorem perm (h : Owns heap timers held) (hperm : held.Perm held') : Owns heap timers held' :=
  ⟨h.inTimers, fun e he => h.inHeld e (hperm.mem_iff.mpr he), hperm.nodup_iff.mp h.once,
    fun e he => h.apart e (hperm.mem_iff.mpr he)⟩

/-- A new timer is held by the closure of `addTimer`. -/
theorem alloc (h : Owns heap timers held) (addr : Nat) (when : TimePoint)
    (interval : Nanoseconds) :
    Owns (heap.alloc addr (Timer.new when interval)) timers
      (held ++ [entry when (heap.next addr)]) := by
  have hnew : Keeps (heap.alloc addr (Timer.new when interval)) (entry when (heap.next addr)) :=
    ⟨_, Heap.read_alloc_next heap addr _, rfl, rfl⟩
  have hold : ∀ e, Keeps heap e → Keeps (heap.alloc addr (Timer.new when interval)) e := by
    rintro e ⟨timer, hread, hwhen⟩
    exact ⟨timer, Heap.read_alloc hread addr _, hwhen⟩
  have hfresh : ∀ e, Keeps heap e → e ≠ entry when (heap.next addr) := by
    rintro e ⟨timer, hread, _⟩ rfl
    exact Heap.next_ne_of_read hread addr rfl
  refine ⟨fun e he => hold e (h.inTimers e he), ?_, ?_, ?_⟩
  · intro e he
    rcases List.mem_append.mp he with he | he
    · exact hold e (h.inHeld e he)
    · rwa [List.mem_singleton.mp he]
  · refine List.nodup_append.mpr ⟨h.once, List.nodup_singleton _, ?_⟩
    intro e he f hf
    rw [List.mem_singleton.mp hf]
    exact hfresh e (h.inHeld e he)
  · intro e he
    rcases List.mem_append.mp he with he | he
    · exact h.apart e he
    · rw [List.mem_singleton.mp he]
      exact fun hmem => hfresh _ (h.inTimers _ hmem) rfl

/-- A held timer is put into `m_timers`. -/
theorem insert (h : Owns heap timers (e :: held)) : Owns heap (timers.insert e) held := by
  obtain ⟨hfirst, hrest⟩ := List.nodup_cons.mp h.once
  refine ⟨?_, fun f hf => h.inHeld f (List.mem_cons_of_mem _ hf), hrest, ?_⟩
  · intro f hf
    rcases OrderedSet.mem_insert.mp hf with rfl | hf
    · exact h.inHeld f List.mem_cons_self
    · exact h.inTimers f hf
  · intro f hf hmem
    rcases OrderedSet.mem_insert.mp hmem with rfl | hmem
    · exact hfirst hf
    · exact h.apart f (List.mem_cons_of_mem _ hf) hmem

/-- The entries below a bound are taken out of `m_timers`. -/
theorem take (h : Owns heap timers held) (bound : Entry) :
    Owns heap (timers.dropBelow bound) (timers.below bound ++ held) := by
  refine ⟨fun e he => h.inTimers e (OrderedSet.mem_dropBelow.mp he).1, ?_, ?_, ?_⟩
  · intro e he
    rcases List.mem_append.mp he with he | he
    · exact h.inTimers e (OrderedSet.mem_below.mp he).1
    · exact h.inHeld e he
  · refine List.nodup_append.mpr ⟨OrderedSet.nodup_below bound timers, h.once, ?_⟩
    rintro e he f hf rfl
    exact h.apart e hf (OrderedSet.mem_below.mp he).1
  · intro e he hmem
    obtain ⟨hmem, hle⟩ := OrderedSet.mem_dropBelow.mp hmem
    rcases List.mem_append.mp he with he | he
    · exact absurd (OrderedSet.mem_below.mp he).2 (not_lt_of_ge hle)
    · exact h.apart e he hmem

/-- All entries are taken out of `m_timers`. -/
theorem release (h : Owns heap timers held) :
    Owns heap OrderedSet.empty (timers.toList ++ held) := by
  refine ⟨fun e he => absurd he (OrderedSet.not_mem_empty e), ?_, ?_,
    fun e _ => OrderedSet.not_mem_empty e⟩
  · intro e he
    rcases List.mem_append.mp he with he | he
    · exact h.inTimers e he
    · exact h.inHeld e he
  · refine List.nodup_append.mpr ⟨timers.nodup, h.once, ?_⟩
    rintro e he f hf rfl
    exact h.apart e hf he

/-- An entry is taken out of `m_timers`. -/
theorem remove (h : Owns heap timers held) (he : e ∈ timers) :
    Owns heap (timers.erase e) (e :: held) := by
  refine ⟨fun f hf => h.inTimers f (OrderedSet.mem_erase.mp hf).2, ?_, ?_, ?_⟩
  · intro f hf
    rcases List.mem_cons.mp hf with rfl | hf
    · exact h.inTimers f he
    · exact h.inHeld f hf
  · exact List.nodup_cons.mpr ⟨fun hmem => h.apart e hmem he, h.once⟩
  · intro f hf hmem
    obtain ⟨hne, hmem⟩ := OrderedSet.mem_erase.mp hmem
    rcases List.mem_cons.mp hf with rfl | hf
    · exact hne rfl
    · exact h.apart f hf hmem

/-- The other entries keep their timers when nothing else changes. -/
theorem others (h : Owns heap timers (e :: held))
    (hread : ∀ p : Ptr, p.serial ≠ e.timer.serial → heap'.read p = heap.read p) :
    Owns heap' timers held := by
  have hkeep : ∀ f, Keeps heap f → f ≠ e → Keeps heap' f := fun f hf hne =>
    hf.of_read_eq (hread f.timer (hf.serial_ne (h.inHeld e List.mem_cons_self) hne))
  obtain ⟨hfirst, hrest⟩ := List.nodup_cons.mp h.once
  refine ⟨?_, ?_, hrest, fun f hf => h.apart f (List.mem_cons_of_mem _ hf)⟩
  · intro f hf
    refine hkeep f (h.inTimers f hf) ?_
    rintro rfl
    exact h.apart f List.mem_cons_self hf
  · intro f hf
    refine hkeep f (h.inHeld f (List.mem_cons_of_mem _ hf)) ?_
    rintro rfl
    exact hfirst hf

/-- A held timer is deleted. -/
theorem delete (h : Owns heap timers (e :: held)) : Owns (heap.delete e.timer) timers held :=
  h.others fun _ hne => Heap.read_delete_of_ne hne

/-- A held timer is cancelled and deleted. -/
theorem cancel (h : Owns heap timers (e :: held)) (value : Timer) :
    Owns ((heap.write e.timer value).delete e.timer) timers held :=
  h.others fun _ hne => by rw [Heap.read_delete_of_ne hne, Heap.read_write_of_ne hne]

/-- A held timer is restarted. -/
theorem restart (h : Owns heap timers (e :: held)) (value : Timer)
    (hvalue : value.isCanceled = false) :
    Owns (heap.write e.timer value) timers (entry value.when e.timer :: held) := by
  obtain ⟨timer, hread, _⟩ := h.inHeld e List.mem_cons_self
  have hothers : Owns (heap.write e.timer value) timers held :=
    h.others fun _ hne => Heap.read_write_of_ne hne value
  have hself : Keeps (heap.write e.timer value) (entry value.when e.timer) :=
    ⟨value, Heap.read_write_self hread value, rfl, hvalue⟩
  -- an owner of the restarted timer would have been one before
  have hone : ∀ f, Keeps heap f → f ≠ e → f ≠ entry value.when e.timer := by
    rintro f hf hne rfl
    exact hne (hf.eq_of_timer (h.inHeld e List.mem_cons_self) rfl)
  obtain ⟨hfirst, hrest⟩ := List.nodup_cons.mp h.once
  refine ⟨hothers.inTimers, ?_, List.nodup_cons.mpr ⟨fun hmem => ?_, hrest⟩, ?_⟩
  · intro f hf
    rcases List.mem_cons.mp hf with rfl | hf
    · exact hself
    · exact hothers.inHeld f hf
  · refine hone _ (h.inHeld _ (List.mem_cons_of_mem _ hmem)) ?_ rfl
    intro heq
    rw [heq] at hmem
    exact hfirst hmem
  · intro f hf hmem
    rcases List.mem_cons.mp hf with rfl | hf
    · refine hone _ (h.inTimers _ hmem) ?_ rfl
      intro heq
      rw [heq] at hmem
      exact h.apart e List.mem_cons_self hmem
    · exact hothers.apart f hf hmem

end Owns

/-! ## The invariant -/

/-- The entries of the batch that `handleRead` has not finished. -/
def Phase.entries : Phase → List Entry
  | .handlers => []
  | .expired _ entries => entries
  | .callback _ e entries => e :: entries
  | .tasks => []
  | .destroyed => []

/-- They are due at the sample that `handleRead` took. -/
def Phase.Due : Phase → Prop
  | .handlers => True
  | .expired now entries => ∀ e ∈ entries, e.when ≤ now
  | .callback now e entries => ∀ f ∈ e :: entries, f.when ≤ now
  | .tasks => True
  | .destroyed => True

/-- The closure of `addTimer` owns its timer until it has run. -/
def Task.owned : Task → Option Entry
  | .insert when timer => some (entry when timer)
  | .cancel _ => none

namespace TimerQueue

/-- The entries outside `m_timers` that own their timers. -/
def held (s : TimerQueue) : List Entry := s.phase.entries ++ s.queue.toList.filterMap Task.owned

/-- The closure of `cancelTimer` would find its timer outside `m_timers`. -/
def Strays (s : TimerQueue) : Task → Prop
  | .insert _ _ => False
  | .cancel timer => ∀ e ∈ s.timers.toList, e.timer ≠ timer

instance (s : TimerQueue) : ∀ task, Decidable (s.Strays task)
  | .insert _ _ => inferInstanceAs (Decidable False)
  | .cancel _ => inferInstanceAs (Decidable (∀ e ∈ s.timers.toList, _))

/-- The closure that a step runs for the queue. -/
def taskOf (s : TimerQueue) : Action → Option Task
  | .cancel .loop timer => if s.MayCall .loop then some (.cancel timer) else none
  | .runTask => s.queue.batch.head?
  | _ => none

/-- The step runs the closure of a `cancelTimer` whose timer is not in
`m_timers`. -/
def CancelsAstray (s : TimerQueue) (a : Action) : Prop := ∃ task ∈ s.taskOf a, s.Strays task

instance (s : TimerQueue) (a : Action) : Decidable (s.CancelsAstray a) :=
  match h : s.taskOf a with
  | none => isFalse (by simp [CancelsAstray, h])
  | some task => decidable_of_iff (s.Strays task) (by simp [CancelsAstray, h])

/-- Every timer that has not been deleted is owned once. -/
structure Owned (s : TimerQueue) : Prop where
  owns : Owns s.heap s.timers s.held
  due : s.phase.Due
  batch : s.phase ≠ .tasks → s.queue.batch = []

theorem owned_new (wall : TimePoint) (monotonic : Int) : (new wall monotonic).Owned := by
  refine ⟨⟨?_, ?_, List.nodup_nil, ?_⟩, trivial, fun _ => rfl⟩
  · exact fun e he => absurd he (OrderedSet.not_mem_empty e)
  · exact fun e he => absurd he List.not_mem_nil
  · exact fun e he => absurd he List.not_mem_nil

/-! ## What a step can do -/

/-- The steps from a state in which every timer is owned once, when a closure of
`cancelTimer` finds its timer in `m_timers`. -/
inductive Moved (s : TimerQueue) : Action → TimerQueue → Prop where
  | elapse (wall : Int) (monotonic : Nat) :
      Moved s (.elapse wall monotonic)
        { s with wall := s.wall + wall, monotonic := s.monotonic + monotonic }
  | expire (setting : Setting) (hsetting : s.timerFd.setting = some setting)
      (hexpired : setting.expiry ≤ s.monotonic) :
      Moved s .expire { s with timerFd := s.timerFd.expire }
  | addQueued (i : Nat) (request : Request) (addr : Nat) (hmay : s.MayCall (.worker i)) :
      Moved s (.add (.worker i) request addr)
        { s.allocate addr (Timer.new (request.when s.wall) request.interval) with
          queue := s.queue.push (.insert (request.when s.wall) (s.heap.next addr)) }
  | addNow (request : Request) (addr : Nat) (hmay : s.MayCall .loop) :
      Moved s (.add .loop request addr)
        (((s.allocate addr (Timer.new (request.when s.wall) request.interval)).log
          (.insert (request.when s.wall) (s.heap.next addr))).place
            (request.when s.wall) (s.heap.next addr))
  | cancelQueued (i : Nat) (timer : Ptr) (hmay : s.MayCall (.worker i)) :
      Moved s (.cancel (.worker i) timer)
        { s with
          cancels := s.cancels ++ [timer]
          queue := s.queue.push (.cancel timer) }
  | cancelNow (e : Entry) (value : Timer) (hmay : s.MayCall .loop) (hmem : e ∈ s.timers)
      (hread : s.heap.read e.timer = some value) :
      Moved s (.cancel .loop e.timer)
        (({ s with cancels := s.cancels ++ [e.timer] }.log (.cancel e.timer)).discard e value)
  | handleRead (hphase : s.phase = .handlers) : Moved s .handleRead s.handleRead
  | runTimer (now : TimePoint) (e : Entry) (rest : List Entry) (value : Timer)
      (hphase : s.phase = .expired now (e :: rest)) (hread : s.heap.read e.timer = some value)
      (hwhen : value.when = e.when) (hdue : e.when ≤ now) :
      Moved s .runTimer
        { s with
          phase := .callback now e rest
          runs := s.runs ++ [(e.timer, now)] }
  | restart (now : TimePoint) (e : Entry) (rest : List Entry) (value : Timer)
      (hphase : s.phase = .callback now e rest) (hread : s.heap.read e.timer = some value)
      (hwhen : value.when = e.when) (hcanceled : value.isCanceled = false)
      (hrepeat : value.isRepeat = true) :
      Moved s .callbackReturn
        { s with
          phase := .expired now rest
          heap := s.heap.write e.timer { value with when := value.when + value.interval }
          timers := s.timers.insert (entry (value.when + value.interval) e.timer) }
  | finish (now : TimePoint) (e : Entry) (rest : List Entry) (value : Timer)
      (hphase : s.phase = .callback now e rest) (hread : s.heap.read e.timer = some value)
      (honce : value.isRepeat = false) :
      Moved s .callbackReturn
        { s with
          phase := .expired now rest
          heap := s.heap.delete e.timer }
  | rearm (now : TimePoint) (hphase : s.phase = .expired now []) : Moved s .rearm s.rearm
  | swap (hphase : s.phase = .handlers) :
      Moved s .swap { s with queue := s.queue.swap, phase := .tasks }
  | runInsert (when : TimePoint) (timer : Ptr) (rest : List Task) (hphase : s.phase = .tasks)
      (hbatch : s.queue.batch = .insert when timer :: rest) :
      Moved s .runTask
        (({ s with queue := s.queue.advance }.log (.insert when timer)).place when timer)
  | runCancel (e : Entry) (value : Timer) (rest : List Task) (hphase : s.phase = .tasks)
      (hbatch : s.queue.batch = .cancel e.timer :: rest) (hmem : e ∈ s.timers)
      (hread : s.heap.read e.timer = some value) :
      Moved s .runTask
        (({ s with queue := s.queue.advance }.log (.cancel e.timer)).discard e value)
  | endRound (hphase : s.phase = .tasks) (hbatch : s.queue.batch = []) :
      Moved s .endRound { s with phase := .handlers }
  | destroy (heap : Heap Timer) (hphase : s.phase = .handlers)
      (howns : Owns heap OrderedSet.empty s.held)
      (hread : ∀ p value, heap.read p = some value → s.heap.read p = some value)
      (hlength : heap.objects.length = s.heap.objects.length) :
      Moved s .destroy
        { s with
          heap := heap
          timers := OrderedSet.empty
          phase := .destroyed }

/-- The closure of `cancelTimer` that finds its timer in `m_timers`. -/
theorem cancelInLoop_of_not_strays {s : TimerQueue} {timer : Ptr}
    (htimers : ∀ e ∈ s.timers, Keeps s.heap e) (hgood : ¬ s.Strays (.cancel timer)) :
    ∃ e value, e ∈ s.timers ∧ e.timer = timer ∧ s.heap.read e.timer = some value ∧
      s.cancelInLoop timer = .ok (s.discard e value) := by
  obtain ⟨e, he, rfl⟩ : ∃ e ∈ s.timers, e.timer = timer := by
    by_contra hnone
    exact hgood fun e he heq => hnone ⟨e, he, heq⟩
  obtain ⟨value, hread, hwhen, hcanceled⟩ := htimers e he
  exact ⟨e, value, he, rfl, hread, cancelInLoop_of_read hread hwhen hcanceled⟩

/-- The destructor deletes timers that it owns. -/
theorem deleteAll_owns {timers : OrderedSet Entry} {held : List Entry} :
    ∀ (l : List Entry) (s : TimerQueue), Owns s.heap timers (l ++ held) →
      ∃ heap, l.foldlM (fun s e => s.deleteTimer e.timer) s = .ok { s with heap := heap } ∧
        Owns heap timers held ∧
        (∀ p value, heap.read p = some value → s.heap.read p = some value) ∧
        heap.objects.length = s.heap.objects.length
  | [], s, h => ⟨s.heap, rfl, h, fun _ _ hread => hread, rfl⟩
  | e :: l, s, h => by
    obtain ⟨value, hread, _⟩ := h.inHeld e List.mem_cons_self
    obtain ⟨heap, hfold, howns, hreads, hlength⟩ :=
      deleteAll_owns l { s with heap := s.heap.delete e.timer } h.delete
    refine ⟨heap, ?_, howns, fun p value hp => Heap.read_of_delete (hreads p value hp), ?_⟩
    · rw [List.foldlM_cons, deleteTimer_of_read hread]
      exact hfold
    · rw [hlength, Heap.length_delete]

/-- The timer whose callback is next, or running, is there. -/
theorem Owned.keeps_first {s : TimerQueue} (h : s.Owned) {e : Entry} {rest : List Entry}
    (hentries : s.phase.entries = e :: rest) : Keeps s.heap e := by
  apply h.owns.inHeld
  rw [held, hentries]
  exact List.mem_cons_self

/-- **Inversion.**  From a state in which every timer is owned once no step stops
the program, unless it runs a closure of `cancelTimer` whose timer is not in
`m_timers`. -/
theorem Owned.moved {s : TimerQueue} (h : s.Owned) {a : Action} (hgood : ¬ s.CancelsAstray a) :
    (s.step a).Safe (s.Moved a) := by
  cases a with
  | elapse wall monotonic => exact .elapse wall monotonic
  | expire =>
    rw [step]
    split
    · rename_i setting hsetting
      split
      · rename_i hexpired
        exact .expire setting hsetting hexpired
      · trivial
    · trivial
  | add t request addr =>
    rw [step]
    split
    · rename_i hmay
      cases t with
      | worker i =>
        refine Outcome.safe_ofExcept ?_ (.addQueued i request addr hmay.1)
        rw [addTimer, runInLoop, if_neg (fun h => by cases h)]
        rfl
      | loop =>
        refine Outcome.safe_ofExcept ?_ (.addNow request addr hmay.1)
        rw [addTimer, runInLoop, if_pos rfl]
        refine insertTimer_of_not_mem fun hmem => ?_
        obtain ⟨value, hread, _⟩ := h.owns.inTimers _ hmem
        exact Heap.next_ne_of_read hread addr rfl
    · trivial
  | cancel t timer =>
    rw [step]
    split
    · rename_i hmay
      cases t with
      | worker i =>
        refine Outcome.safe_ofExcept ?_ (.cancelQueued i timer hmay)
        rw [cancelTimer, runInLoop, if_neg (fun h => by cases h)]
      | loop =>
        have htask : s.taskOf (.cancel .loop timer) = some (.cancel timer) := if_pos hmay
        have hin : ¬ s.Strays (.cancel timer) := fun hs => hgood ⟨_, htask, hs⟩
        obtain ⟨e, value, hmem, rfl, hread, hrun⟩ :=
          cancelInLoop_of_not_strays
            (s := { s with cancels := s.cancels ++ [timer] }.log (.cancel timer))
            h.owns.inTimers hin
        refine Outcome.safe_ofExcept ?_ (.cancelNow e value hmay hmem hread)
        rw [cancelTimer, runInLoop, if_pos rfl]
        exact hrun
    · trivial
  | handleRead =>
    rw [step]
    split
    · rename_i hphase
      exact .handleRead hphase
    · trivial
  | runTimer =>
    rw [step]
    split
    · rename_i now e rest hphase
      obtain ⟨value, hread, hwhen, hcanceled⟩ := h.keeps_first (congrArg Phase.entries hphase)
      have hdue : e.when ≤ now := by
        have hall := h.due
        rw [hphase] at hall
        exact hall e List.mem_cons_self
      exact Outcome.safe_ofExcept (runTimer_of_read hread (hwhen.trans_le hdue) hcanceled)
        (.runTimer now e rest value hphase hread hwhen hdue)
    · trivial
  | callbackReturn =>
    rw [step]
    split
    · rename_i now e rest hphase
      obtain ⟨value, hread, hwhen, hcanceled⟩ := h.keeps_first (congrArg Phase.entries hphase)
      cases hrepeat : value.isRepeat with
      | true =>
        exact Outcome.safe_ofExcept (afterRun_of_repeat hread hcanceled hrepeat)
          (.restart now e rest value hphase hread hwhen hcanceled hrepeat)
      | false =>
        exact Outcome.safe_ofExcept (afterRun_of_once hread hrepeat)
          (.finish now e rest value hphase hread hrepeat)
    · trivial
  | rearm =>
    rw [step]
    split
    · rename_i now hphase
      exact .rearm now hphase
    · trivial
  | swap =>
    rw [step]
    split
    · rename_i hphase
      exact .swap hphase
    · trivial
  | runTask =>
    rw [step]
    split
    · rename_i task rest hphase hbatch
      have htask : s.taskOf .runTask = some task := by rw [taskOf, hbatch, List.head?_cons]
      cases task with
      | insert when timer =>
        refine Outcome.safe_ofExcept ?_ (.runInsert when timer rest hphase hbatch)
        refine insertTimer_of_not_mem (h.owns.apart _ ?_)
        rw [held, BatchQueue.toList_eq_cons_advance hbatch, List.mem_append]
        exact Or.inr List.mem_cons_self
      | cancel timer =>
        have hin : ¬ s.Strays (.cancel timer) := fun hs => hgood ⟨_, htask, hs⟩
        obtain ⟨e, value, hmem, rfl, hread, hrun⟩ :=
          cancelInLoop_of_not_strays
            (s := { s with queue := s.queue.advance }.log (.cancel timer))
            h.owns.inTimers hin
        exact Outcome.safe_ofExcept hrun (.runCancel e value rest hphase hbatch hmem hread)
    · trivial
  | endRound =>
    rw [step]
    split
    · rename_i hend
      exact .endRound hend.1 hend.2
    · trivial
  | destroy =>
    rw [step]
    split
    · rename_i hphase
      obtain ⟨heap, hfold, howns, hreads, hlength⟩ :=
        deleteAll_owns s.timers.toList s h.owns.release
      refine Outcome.safe_ofExcept ?_ (.destroy heap hphase howns hreads hlength)
      rw [destroy, hfold, ok_bind]
    · trivial

/-! ## The invariant is kept -/

@[simp] theorem heap_place (s : TimerQueue) (when : TimePoint) (timer : Ptr) :
    (s.place when timer).heap = s.heap := by
  rw [place]
  split <;> rfl

@[simp] theorem timers_place (s : TimerQueue) (when : TimePoint) (timer : Ptr) :
    (s.place when timer).timers = s.timers.insert (entry when timer) := by
  rw [place]
  split <;> rfl

@[simp] theorem phase_place (s : TimerQueue) (when : TimePoint) (timer : Ptr) :
    (s.place when timer).phase = s.phase := by
  rw [place]
  split <;> rfl

@[simp] theorem queue_place (s : TimerQueue) (when : TimePoint) (timer : Ptr) :
    (s.place when timer).queue = s.queue := by
  rw [place]
  split <;> rfl

@[simp] theorem heap_rearm (s : TimerQueue) : s.rearm.heap = s.heap := by
  rw [rearm]
  split <;> rfl

@[simp] theorem timers_rearm (s : TimerQueue) : s.rearm.timers = s.timers := by
  rw [rearm]
  split <;> rfl

@[simp] theorem phase_rearm (s : TimerQueue) : s.rearm.phase = .handlers := by
  rw [rearm]
  split <;> rfl

@[simp] theorem queue_rearm (s : TimerQueue) : s.rearm.queue = s.queue := by
  rw [rearm]
  split <;> rfl

/-- The entries that the queued closures own. -/
def queuedEntries (s : TimerQueue) : List Entry := s.queue.toList.filterMap Task.owned

theorem held_eq (s : TimerQueue) : s.held = s.phase.entries ++ s.queuedEntries := rfl

/-- A closure at the front of the batch owns its timer before the others do. -/
theorem queuedEntries_of_batch {s : TimerQueue} {task : Task} {rest : List Task}
    (hbatch : s.queue.batch = task :: rest) :
    s.queuedEntries =
      task.owned.toList ++ ({ s with queue := s.queue.advance } : TimerQueue).queuedEntries := by
  rw [queuedEntries, queuedEntries, BatchQueue.toList_eq_cons_advance hbatch, List.filterMap_cons]
  cases task <;> rfl

/-- **One step.** -/
theorem Moved.owned {s v : TimerQueue} {a : Action} (h : s.Owned) (hmoved : s.Moved a v) :
    v.Owned := by
  cases hmoved with
  | elapse wall monotonic => exact ⟨h.owns, h.due, h.batch⟩
  | expire setting hsetting hexpired => exact ⟨h.owns, h.due, h.batch⟩
  | addQueued i request addr hmay =>
    refine ⟨?_, h.due, h.batch⟩
    have halloc := h.owns.alloc addr (request.when s.wall) request.interval
    rw [held_eq, List.append_assoc] at halloc
    rw [held_eq, queuedEntries, BatchQueue.toList_push, List.filterMap_append]
    exact halloc
  | addNow request addr hmay =>
    refine ⟨?_, by rw [phase_place]; exact h.due, by rw [phase_place, queue_place]; exact h.batch⟩
    have halloc := h.owns.alloc addr (request.when s.wall) request.interval
    have hplaced := (halloc.perm List.perm_append_comm).insert
    rw [held, phase_place, queue_place, heap_place, timers_place]
    exact hplaced
  | cancelQueued i timer hmay =>
    refine ⟨?_, h.due, h.batch⟩
    rw [held_eq, queuedEntries, BatchQueue.toList_push, List.filterMap_append]
    change Owns s.heap s.timers (s.phase.entries ++ (s.queuedEntries ++ []))
    rw [List.append_nil]
    exact h.owns
  | cancelNow e value hmay hmem hread =>
    exact ⟨(h.owns.remove hmem).cancel _, h.due, h.batch⟩
  | handleRead hphase =>
    have howns := h.owns
    rw [held_eq, hphase] at howns
    refine ⟨howns.take (expiredBound s.wall), ?_, fun _ => h.batch (by rw [hphase]; simp)⟩
    intro e he
    exact when_le_of_lt_expiredBound (OrderedSet.mem_below.mp he).2
  | runTimer now e rest value hphase hread hwhen hdue =>
    have howns := h.owns
    have hall := h.due
    rw [held_eq, hphase] at howns
    rw [hphase] at hall
    exact ⟨howns, hall, fun _ => h.batch (by rw [hphase]; simp)⟩
  | restart now e rest value hphase hread hwhen hcanceled hrepeat =>
    have howns := h.owns
    have hall := h.due
    rw [held_eq, hphase] at howns
    rw [hphase] at hall
    refine ⟨?_, fun f hf => hall f (List.mem_cons_of_mem _ hf),
      fun _ => h.batch (by rw [hphase]; simp)⟩
    exact (howns.restart { value with when := value.when + value.interval } hcanceled).insert
  | finish now e rest value hphase hread honce =>
    have howns := h.owns
    have hall := h.due
    rw [held_eq, hphase] at howns
    rw [hphase] at hall
    exact ⟨howns.delete, fun f hf => hall f (List.mem_cons_of_mem _ hf),
      fun _ => h.batch (by rw [hphase]; simp)⟩
  | rearm now hphase =>
    have howns := h.owns
    rw [held_eq, hphase] at howns
    refine ⟨?_, by rw [phase_rearm]; trivial, fun _ => ?_⟩
    · rw [held, phase_rearm, queue_rearm, heap_rearm, timers_rearm]
      exact howns
    · rw [queue_rearm]
      exact h.batch (by rw [hphase]; simp)
  | swap hphase =>
    have howns := h.owns
    rw [held_eq, hphase] at howns
    refine ⟨?_, trivial, fun hne => absurd rfl hne⟩
    have hqueue := BatchQueue.toList_swap (h.batch (by rw [hphase]; simp))
    rw [held_eq, queuedEntries, hqueue]
    exact howns
  | runInsert when timer rest hphase hbatch =>
    have howns := h.owns
    rw [held_eq, hphase, queuedEntries_of_batch hbatch] at howns
    refine ⟨?_, by rw [phase_place]; exact h.due, fun hne => ?_⟩
    · rw [held, phase_place, queue_place, heap_place, timers_place]
      change Owns s.heap _ (s.phase.entries ++ _)
      rw [hphase]
      exact howns.insert
    · rw [phase_place] at hne
      exact absurd hphase hne
  | runCancel e value rest hphase hbatch hmem hread =>
    have howns := h.owns
    rw [held_eq, queuedEntries_of_batch hbatch] at howns
    exact ⟨(howns.remove hmem).cancel _, h.due, fun hne => absurd hphase hne⟩
  | endRound hphase hbatch =>
    have howns := h.owns
    rw [held_eq, hphase] at howns
    exact ⟨howns, trivial, fun _ => hbatch⟩
  | destroy heap hphase howns hread hlength =>
    rw [held_eq, hphase] at howns
    exact ⟨howns, trivial, fun _ => h.batch (by rw [hphase]; simp)⟩

/-- A step neither stops the program nor breaks the invariant, unless it runs a
closure of `cancelTimer` whose timer is not in `m_timers`. -/
theorem Owned.step {s : TimerQueue} (h : s.Owned) {a : Action} (hgood : ¬ s.CancelsAstray a) :
    (s.step a).Safe Owned := by
  have hsafe := h.moved hgood
  cases hstep : s.step a with
  | disabled => trivial
  | abort reason =>
    rw [hstep] at hsafe
    exact hsafe
  | next v =>
    rw [hstep] at hsafe
    exact hsafe.owned h

end TimerQueue

end CppWeb.Timers
