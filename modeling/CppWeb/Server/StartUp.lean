/-
  Server/StartUp.lean --- `TCPServer` starts its threads.

  `startInLoop` creates the threads one after the other, and after each it
  waits until the thread has put its event loop into `m_eventLoopList`.  The
  test and the `wait` are made under `m_mutex`, but the thread publishes its
  loop and calls `notify_one` without it, so that both can fall between the
  test and the `wait`.  A step is what a thread does between two points at
  which the other can be seen; `m_mutex` itself is taken by nobody else.

  A `notify_one` wakes the starter if it is asleep, for whichever thread it
  waits, and the starter may wake out of turn at any time.  A loop is named by
  its address on the stack of its thread.
-/
import CppWeb.Abort
import CppWeb.Foundation.Monitor
import CppWeb.Foundation.Transition
import Mathlib.Logic.Function.Basic

set_option autoImplicit false

namespace CppWeb.Server

open CppWeb.Foundation

/-- Where `startInLoop` is after it has created a thread. -/
inductive Point where
  /-- about to take the mutex -/
  | locking
  /-- holds the mutex, at `m_eventLoopList[i] == nullptr` -/
  | testing
  /-- holds the mutex, has found null -/
  | parking
  /-- in `m_cond.wait`, not woken -/
  | asleep
  /-- woken, about to take the mutex again -/
  | waking
  deriving DecidableEq, Repr

/-- Where the thread of `startInLoop` is. -/
inductive Starter where
  /-- `start` has not been called -/
  | idle
  /-- `start` has handed `startInLoop` to the loop -/
  | queued
  /-- at the head of the `for` loop with this index -/
  | spawning (i : Nat)
  /-- waiting for the thread with this index -/
  | waiting (i : Nat) (point : Point)
  | returned
  deriving DecidableEq, Repr

/-- Where a thread is in `runInThread`. -/
inductive Worker where
  /-- not created yet -/
  | absent
  /-- constructs its `EventLoop` and its `TCPServerSingle` -/
  | constructing
  /-- about to write the address of its loop to `m_eventLoopList` -/
  | publishing (loop : Nat)
  /-- about to call `notify_one` -/
  | notifying (loop : Nat)
  /-- past `notify_one` -/
  | running (loop : Nat)
  deriving DecidableEq, Repr

namespace Worker

/-- The loop of the thread. -/
def loop : Worker → Option Nat
  | .absent => none
  | .constructing => none
  | .publishing loop => some loop
  | .notifying loop => some loop
  | .running loop => some loop

/-- The loop, once the thread has published it. -/
def published : Worker → Option Nat
  | .absent => none
  | .constructing => none
  | .publishing _ => none
  | .notifying loop => some loop
  | .running loop => some loop

/-- The thread has done its `notify_one`. -/
def notified : Worker → Bool
  | .running _ => true
  | _ => false

end Worker

/-- `m_cond`, on which only `startInLoop` waits. -/
def cond : Condition Starter where
  asleep
    | .waiting _ .asleep => true
    | _ => false
  wake
    | .waiting i .asleep => .waiting i .waking
    | starter => starter
  awake starter := by
    cases starter with
    | waiting i point => cases point <;> rfl
    | _ => rfl

/-- A `TCPServer` with the threads it starts, by their indices. -/
structure TCPServer where
  threadNum : Nat
  started : Bool
  eventLoopList : List (Option Nat)
  threadPtrList : List Nat
  starter : Starter
  workers : Nat → Worker

/-- What can happen next. -/
inductive StartAction where
  | setThreadNum (n : Nat)
  | start
  /-- the loop runs `startInLoop`, up to its `for` loop -/
  | startInLoop
  /-- the head of the `for` loop, and the new thread -/
  | spawn
  | lock
  | test
  /-- `m_cond.wait` unlocks the mutex and puts the thread to sleep -/
  | sleep
  /-- the starter wakes out of turn -/
  | rouse
  /-- `m_cond.wait` takes the mutex again and returns -/
  | relock
  /-- thread `i` has constructed its loop, at this address -/
  | construct (i loop : Nat)
  | publish (i : Nat)
  | notify (i : Nat)
  deriving DecidableEq, Repr

namespace TCPServer

/-- `TCPServer::TCPServer` -/
def new : TCPServer :=
  { threadNum := 1
    started := false
    eventLoopList := []
    threadPtrList := []
    starter := .idle
    workers := fun _ => .absent }

/-- `m_eventLoopList.resize(n)` -/
def resize (l : List (Option Nat)) (n : Nat) : List (Option Nat) :=
  l.take n ++ List.replicate (n - l.length) none

def setThreadNum (s : TCPServer) (n : Nat) : Except Abort TCPServer := do
  require .setThreadNumPositive (n > 0)
  require .setThreadNumStarted (s.started = false)
  .ok { s with threadNum := n, eventLoopList := resize s.eventLoopList n }

def start (s : TCPServer) : TCPServer :=
  if s.started then s else { s with started := true, starter := .queued }

/-- `while (m_eventLoopList[i] == nullptr)`, and what follows the loop. -/
def test (s : TCPServer) (i : Nat) : Except Abort TCPServer :=
  match s.eventLoopList[i]? with
  | none => .error .outOfBounds
  | some none => .ok { s with starter := .waiting i .parking }
  | some (some _) =>
      .ok { s with
        threadPtrList := s.threadPtrList ++ [i]
        starter := .spawning (i + 1) }

/-- `m_eventLoopList[index] = &loop` -/
def publish (s : TCPServer) (i loop : Nat) : Except Abort TCPServer :=
  if i < s.eventLoopList.length then
    .ok { s with
      eventLoopList := s.eventLoopList.set i (some loop)
      workers := Function.update s.workers i (.notifying loop) }
  else .error .outOfBounds

/-- One step of one thread. -/
def step (s : TCPServer) : StartAction → Outcome Abort TCPServer
  | .setThreadNum n => Outcome.ofExcept (s.setThreadNum n)
  | .start => .next s.start
  | .startInLoop =>
      if s.starter = .queued then .next { s with starter := .spawning 1 } else .disabled
  | .spawn =>
      match s.starter with
      | .spawning i =>
          if i < s.threadNum then
            .next { s with
              starter := .waiting i .locking
              workers := Function.update s.workers i .constructing }
          else .next { s with starter := .returned }
      | _ => .disabled
  | .lock =>
      match s.starter with
      | .waiting i .locking => .next { s with starter := .waiting i .testing }
      | _ => .disabled
  | .test =>
      match s.starter with
      | .waiting i .testing => Outcome.ofExcept (s.test i)
      | _ => .disabled
  | .sleep =>
      match s.starter with
      | .waiting i .parking => .next { s with starter := .waiting i .asleep }
      | _ => .disabled
  | .rouse =>
      match s.starter with
      | .waiting i .asleep => .next { s with starter := .waiting i .waking }
      | _ => .disabled
  | .relock =>
      match s.starter with
      | .waiting i .waking => .next { s with starter := .waiting i .testing }
      | _ => .disabled
  | .construct i loop =>
      if s.workers i = .constructing then
        .next { s with workers := Function.update s.workers i (.publishing loop) }
      else .disabled
  | .publish i =>
      match s.workers i with
      | .publishing loop => Outcome.ofExcept (s.publish i loop)
      | _ => .disabled
  | .notify i =>
      match s.workers i with
      | .notifying loop =>
          .next { s with
            starter := cond.notify s.starter
            workers := Function.update s.workers i (.running loop) }
      | _ => .disabled

/-! ## Inversion -/

/-- What a step can do. -/
inductive Started (s : TCPServer) : StartAction → TCPServer → Prop where
  | setThreadNum (n : Nat) (hpos : 0 < n) (hstarted : s.started = false) :
      Started s (.setThreadNum n)
        { s with threadNum := n, eventLoopList := resize s.eventLoopList n }
  | startAgain (hstarted : s.started = true) : Started s .start s
  | start (hstarted : s.started = false) :
      Started s .start { s with started := true, starter := .queued }
  | startInLoop (hplace : s.starter = .queued) :
      Started s .startInLoop { s with starter := .spawning 1 }
  | spawn (i : Nat) (hplace : s.starter = .spawning i) (hmore : i < s.threadNum) :
      Started s .spawn
        { s with
          starter := .waiting i .locking
          workers := Function.update s.workers i .constructing }
  | done (i : Nat) (hplace : s.starter = .spawning i) (hall : ¬ i < s.threadNum) :
      Started s .spawn { s with starter := .returned }
  | lock (i : Nat) (hplace : s.starter = .waiting i .locking) :
      Started s .lock { s with starter := .waiting i .testing }
  | testNull (i : Nat) (hplace : s.starter = .waiting i .testing)
      (hslot : s.eventLoopList[i]? = some none) :
      Started s .test { s with starter := .waiting i .parking }
  | testSet (i loop : Nat) (hplace : s.starter = .waiting i .testing)
      (hslot : s.eventLoopList[i]? = some (some loop)) :
      Started s .test
        { s with threadPtrList := s.threadPtrList ++ [i], starter := .spawning (i + 1) }
  | sleep (i : Nat) (hplace : s.starter = .waiting i .parking) :
      Started s .sleep { s with starter := .waiting i .asleep }
  | rouse (i : Nat) (hplace : s.starter = .waiting i .asleep) :
      Started s .rouse { s with starter := .waiting i .waking }
  | relock (i : Nat) (hplace : s.starter = .waiting i .waking) :
      Started s .relock { s with starter := .waiting i .testing }
  | construct (i loop : Nat) (hworker : s.workers i = .constructing) :
      Started s (.construct i loop)
        { s with workers := Function.update s.workers i (.publishing loop) }
  | publish (i loop : Nat) (hworker : s.workers i = .publishing loop)
      (hindex : i < s.eventLoopList.length) :
      Started s (.publish i)
        { s with
          eventLoopList := s.eventLoopList.set i (some loop)
          workers := Function.update s.workers i (.notifying loop) }
  | notify (i loop : Nat) (hworker : s.workers i = .notifying loop) :
      Started s (.notify i)
        { s with
          starter := cond.notify s.starter
          workers := Function.update s.workers i (.running loop) }

theorem started_of_step {s t : TCPServer} {a : StartAction} (h : s.step a = .next t) :
    Started s a t := by
  cases a with
  | setThreadNum n =>
    rw [step, Outcome.ofExcept_eq_next, setThreadNum, bind_eq_ok] at h
    obtain ⟨_, hpos, h⟩ := h
    rw [bind_eq_ok] at h
    obtain ⟨_, hstarted, h⟩ := h
    cases h
    exact .setThreadNum n (require_eq_ok.mp hpos) (require_eq_ok.mp hstarted)
  | start =>
    cases h
    rw [start]
    split
    · rename_i hstarted
      exact .startAgain hstarted
    · rename_i hstarted
      exact .start (Bool.eq_false_iff.mpr hstarted)
  | startInLoop =>
    obtain ⟨hplace, rfl⟩ := Outcome.ite_next_eq_next.mp h
    exact .startInLoop hplace
  | spawn =>
    rw [step] at h
    split at h
    · rename_i i hplace
      split at h
      · rename_i hmore
        cases h
        exact .spawn i hplace hmore
      · rename_i hall
        cases h
        exact .done i hplace hall
    · cases h
  | lock =>
    rw [step] at h
    split at h
    · rename_i i hplace
      cases h
      exact .lock i hplace
    · cases h
  | test =>
    rw [step] at h
    split at h
    · rename_i i hplace
      rw [Outcome.ofExcept_eq_next, test] at h
      split at h
      · cases h
      · rename_i hslot
        cases h
        exact .testNull i hplace hslot
      · rename_i loop hslot
        cases h
        exact .testSet i loop hplace hslot
    · cases h
  | sleep =>
    rw [step] at h
    split at h
    · rename_i i hplace
      cases h
      exact .sleep i hplace
    · cases h
  | rouse =>
    rw [step] at h
    split at h
    · rename_i i hplace
      cases h
      exact .rouse i hplace
    · cases h
  | relock =>
    rw [step] at h
    split at h
    · rename_i i hplace
      cases h
      exact .relock i hplace
    · cases h
  | construct i loop =>
    obtain ⟨hworker, rfl⟩ := Outcome.ite_next_eq_next.mp h
    exact .construct i loop hworker
  | publish i =>
    rw [step] at h
    split at h
    · rename_i loop hworker
      rw [Outcome.ofExcept_eq_next, publish] at h
      split at h
      · rename_i hindex
        cases h
        exact .publish i loop hworker hindex
      · cases h
    · cases h
  | notify i =>
    rw [step] at h
    split at h
    · rename_i loop hworker
      cases h
      exact .notify i loop hworker
    · cases h

/-! ## The slots -/

@[simp] theorem length_resize (l : List (Option Nat)) (n : Nat) : (resize l n).length = n := by
  rw [resize, List.length_append, List.length_take, List.length_replicate]
  omega

/-- A slot of the resized list is null or an old one. -/
theorem eq_none_or_of_resize {l : List (Option Nat)} {n i : Nat} {slot : Option Nat}
    (h : (resize l n)[i]? = some slot) : slot = none ∨ l[i]? = some slot := by
  rw [resize, List.getElem?_append] at h
  split at h
  · rename_i hi
    rw [List.getElem?_take_of_lt] at h
    · exact Or.inr h
    · rw [List.length_take] at hi
      omega
  · exact Or.inl (List.eq_of_mem_replicate (List.mem_of_getElem? h))

/-- A thread that has published no more and no less than before. -/
theorem published_update {workers : Nat → Worker} {i : Nat} {worker : Worker}
    (h : worker.published = (workers i).published) (j : Nat) :
    (Function.update workers i worker j).published = (workers j).published := by
  by_cases hj : j = i
  · subst hj
    rw [Function.update_self, h]
  · rw [Function.update_of_ne hj]

end TCPServer

/-- The threads from index 1 up to this one have published their loops. -/
def Starter.reached (threadNum : Nat) : Starter → Nat
  | .idle => 1
  | .queued => 1
  | .spawning i => i
  | .waiting i _ => i
  | .returned => threadNum

/-- The threads from this index on are still to be created. -/
def Starter.created (threadNum : Nat) : Starter → Nat
  | .idle => 1
  | .queued => 1
  | .spawning i => i
  | .waiting i _ => i + 1
  | .returned => threadNum

theorem reached_notify (threadNum : Nat) (starter : Starter) :
    (cond.notify starter).reached threadNum = starter.reached threadNum := by
  cases starter with
  | waiting i point => cases point <;> rfl
  | _ => rfl

theorem created_notify (threadNum : Nat) (starter : Starter) :
    (cond.notify starter).created threadNum = starter.created threadNum := by
  cases starter with
  | waiting i point => cases point <;> rfl
  | _ => rfl

namespace TCPServer

/-- The place of the starter is one it can be at. -/
def Placed (s : TCPServer) : Prop :=
  match s.starter with
  | .idle => True
  | .queued => True
  | .spawning i => 1 ≤ i ∧ i ≤ s.threadNum
  | .waiting i _ => 1 ≤ i ∧ i < s.threadNum
  | .returned => True

theorem placed_notify (s : TCPServer) (workers : Nat → Worker) (h : s.Placed) :
    ({ s with starter := cond.notify s.starter, workers := workers } : TCPServer).Placed := by
  unfold Placed at h ⊢
  dsimp only
  cases hplace : s.starter with
  | waiting i point =>
    rw [hplace] at h
    cases point <;> exact h
  | spawning i =>
    rw [hplace] at h
    exact h
  | _ => trivial

/-- Every slot holds what its thread has published, and the starter goes on only
when it is not null. -/
structure Inv (s : TCPServer) : Prop where
  positive : 1 ≤ s.threadNum
  size : 1 < s.threadNum → s.eventLoopList.length = s.threadNum
  before : s.started = false → s.starter = .idle
  placed : s.Placed
  absent : ∀ i, i = 0 ∨ s.starter.created s.threadNum ≤ i → s.workers i = .absent
  slots : ∀ i slot, s.eventLoopList[i]? = some slot → slot = (s.workers i).published
  ready : ∀ i, 1 ≤ i → i < s.starter.reached s.threadNum → (s.workers i).published ≠ none

theorem inv_new : new.Inv where
  positive := Nat.le_refl 1
  size := fun h => absurd h (Nat.lt_irrefl 1)
  before := fun _ => rfl
  placed := trivial
  absent := fun _ _ => rfl
  slots := fun _ _ h => by cases h
  ready := fun i hpos hlt => absurd hlt (Nat.not_lt.mpr hpos)

/-- Once the starter is anywhere, `start` has been called. -/
theorem Inv.started {s : TCPServer} (hs : s.Inv) {place starter : Starter}
    (hplace : s.starter = place) (hne : place ≠ .idle) (hnot : s.started = false) :
    starter = .idle :=
  absurd (hplace.symm.trans (hs.before hnot)) hne

/-- What depends on where the starter is. -/
theorem Inv.atPlace {s : TCPServer} (hs : s.Inv) {place : Starter} (hplace : s.starter = place) :
    ({ s with starter := place } : TCPServer).Placed ∧
      (∀ i, i = 0 ∨ place.created s.threadNum ≤ i → s.workers i = .absent) ∧
      ∀ i, 1 ≤ i → i < place.reached s.threadNum → (s.workers i).published ≠ none := by
  subst hplace
  exact ⟨hs.placed, hs.absent, hs.ready⟩

/-- The starter goes to another point of its wait for the same thread. -/
theorem Inv.moveTo {s : TCPServer} (hs : s.Inv) {i : Nat} {point : Point}
    (hplace : s.starter = .waiting i point) (next : Point) :
    ({ s with starter := .waiting i next } : TCPServer).Inv := by
  obtain ⟨hplaced, habsent, hready⟩ := hs.atPlace hplace
  exact ⟨hs.positive, hs.size, hs.started hplace (by simp), hplaced, habsent, hs.slots, hready⟩

/-- A thread goes on without creating or unpublishing anything. -/
theorem Inv.work {s : TCPServer} (hs : s.Inv) {i : Nat} {worker : Worker}
    (hthere : s.workers i ≠ .absent)
    (hkeeps : worker.published = (s.workers i).published) :
    ({ s with workers := Function.update s.workers i worker } : TCPServer).Inv := by
  refine ⟨hs.positive, hs.size, hs.before, hs.placed, fun j hj => ?_, fun j slot hslot => ?_,
    fun j hpos hlt => ?_⟩
  · have habsent := hs.absent j hj
    have hne : j ≠ i := by
      rintro rfl
      exact hthere habsent
    exact (Function.update_of_ne hne _ _).trans habsent
  · rw [published_update hkeeps]
    exact hs.slots j slot hslot
  · rw [published_update hkeeps]
    exact hs.ready j hpos hlt

theorem Inv.step {s t : TCPServer} {a : StartAction} (hs : s.Inv) (h : s.step a = .next t) :
    t.Inv := by
  cases started_of_step h with
  | setThreadNum n hpos hstarted =>
    have hidle := hs.before hstarted
    obtain ⟨_, habsent, _⟩ := hs.atPlace hidle
    have hnobody : ∀ i, s.workers i = .absent := fun i => by
      rcases Nat.eq_zero_or_pos i with hzero | hpos'
      · exact habsent i (Or.inl hzero)
      · exact habsent i (Or.inr hpos')
    refine ⟨hpos, fun _ => length_resize _ n, hs.before, ?_, fun i _ => hnobody i,
      fun i slot hslot => ?_, fun i hpos' hlt => ?_⟩
    · rw [Placed, hidle]
      trivial
    · rw [hnobody i]
      rcases eq_none_or_of_resize hslot with hnull | hold
      · exact hnull
      · have hslots := hs.slots i slot hold
        rw [hnobody i] at hslots
        exact hslots
    · rw [hidle] at hlt
      exact absurd hlt (Nat.not_lt.mpr hpos')
  | startAgain hstarted => exact hs
  | start hstarted =>
    obtain ⟨_, habsent, _⟩ := hs.atPlace (hs.before hstarted)
    refine ⟨hs.positive, hs.size, fun hnot => (by cases hnot), trivial, habsent, hs.slots,
      fun i hpos hlt => absurd hlt (Nat.not_lt.mpr hpos)⟩
  | startInLoop hplace =>
    obtain ⟨_, habsent, _⟩ := hs.atPlace hplace
    exact ⟨hs.positive, hs.size, hs.started hplace (by simp), ⟨Nat.le_refl 1, hs.positive⟩,
      habsent, hs.slots, fun i hpos hlt => absurd hlt (Nat.not_lt.mpr hpos)⟩
  | spawn i hplace hmore =>
    obtain ⟨hplaced, habsent, hready⟩ := hs.atPlace hplace
    have hpositive : 1 ≤ i := hplaced.1
    have hnew := habsent i (Or.inr (Nat.le_refl i))
    have hkeeps : Worker.constructing.published = (s.workers i).published := by
      rw [hnew]
      rfl
    refine ⟨hs.positive, hs.size, hs.started hplace (by simp), ⟨hpositive, hmore⟩,
      fun j hj => ?_, fun j slot hslot => ?_, fun j hpos hlt => ?_⟩
    · have hle : j = 0 ∨ i + 1 ≤ j := hj
      have hne : j ≠ i := by omega
      refine (Function.update_of_ne hne _ _).trans (habsent j ?_)
      rcases hle with hzero | hle
      · exact Or.inl hzero
      · exact Or.inr (Nat.le_of_succ_le hle)
    · rw [published_update hkeeps]
      exact hs.slots j slot hslot
    · rw [published_update hkeeps]
      exact hready j hpos hlt
  | done i hplace hall =>
    obtain ⟨hplaced, habsent, hready⟩ := hs.atPlace hplace
    have hend : i = s.threadNum := Nat.le_antisymm hplaced.2 (Nat.le_of_not_lt hall)
    subst hend
    exact ⟨hs.positive, hs.size, hs.started hplace (by simp), trivial, habsent, hs.slots, hready⟩
  | lock i hplace => exact hs.moveTo hplace .testing
  | testNull i hplace hslot => exact hs.moveTo hplace .parking
  | testSet i loop hplace hslot =>
    obtain ⟨hplaced, habsent, hready⟩ := hs.atPlace hplace
    have hset := hs.slots i (some loop) hslot
    refine ⟨hs.positive, hs.size, hs.started hplace (by simp),
      ⟨Nat.le_add_left 1 i, hplaced.2⟩, habsent, hs.slots, fun j hpos hlt => ?_⟩
    have hle : j < i + 1 := hlt
    by_cases hj : j = i
    · subst hj
      rw [← hset]
      exact Option.some_ne_none loop
    · exact hready j hpos (Nat.lt_of_le_of_ne (Nat.le_of_lt_succ hle) hj)
  | sleep i hplace => exact hs.moveTo hplace .asleep
  | rouse i hplace => exact hs.moveTo hplace .waking
  | relock i hplace => exact hs.moveTo hplace .testing
  | construct i loop hworker =>
    refine hs.work ?_ ?_
    · rw [hworker]
      simp
    · rw [hworker]
      rfl
  | publish i loop hworker hindex =>
    refine ⟨hs.positive, fun hmany => ?_, hs.before, hs.placed, fun j hj => ?_,
      fun j slot hslot => ?_, fun j hpos hlt => ?_⟩
    · rw [List.length_set]
      exact hs.size hmany
    · have habsent := hs.absent j hj
      have hne : j ≠ i := by
        rintro rfl
        rw [hworker] at habsent
        cases habsent
      exact (Function.update_of_ne hne _ _).trans habsent
    · by_cases hj : j = i
      · subst hj
        rw [List.getElem?_set_self hindex] at hslot
        dsimp only
        rw [Function.update_self]
        exact (Option.some.inj hslot).symm
      · rw [List.getElem?_set_ne (Ne.symm hj)] at hslot
        dsimp only
        rw [Function.update_of_ne hj]
        exact hs.slots j slot hslot
    · dsimp only
      by_cases hj : j = i
      · subst hj
        rw [Function.update_self]
        exact Option.some_ne_none loop
      · rw [Function.update_of_ne hj]
        exact hs.ready j hpos hlt
  | notify i loop hworker =>
    have hthere : s.workers i ≠ .absent := by
      rw [hworker]
      simp
    have hkeeps : (Worker.running loop).published = (s.workers i).published := by
      rw [hworker]
      rfl
    have hwork := hs.work hthere hkeeps
    refine ⟨hwork.positive, hwork.size, fun hnot => ?_, placed_notify s _ hs.placed,
      fun j hj => ?_, hwork.slots, fun j hpos hlt => ?_⟩
    · have hidle : s.starter = .idle := hs.before hnot
      dsimp only
      rw [hidle]
      rfl
    · dsimp only at hj
      rw [created_notify] at hj
      exact hwork.absent j hj
    · dsimp only at hlt
      rw [reached_notify] at hlt
      exact hwork.ready j hpos hlt

/-! ## Sleeping and being notified -/

/-- `m_eventLoopList[i]`, null where there is no slot. -/
def slot (s : TCPServer) (i : Nat) : Option Nat := s.eventLoopList[i]?.join

/-- The starter is asleep, although the thread that it waits for has set its slot
and done its `notify_one`. -/
def Hung (s : TCPServer) : Prop :=
  match s.starter with
  | .waiting i .asleep => s.slot i ≠ none ∧ (s.workers i).notified = true
  | _ => False

instance (s : TCPServer) : Decidable s.Hung := by
  unfold Hung
  split <;> infer_instance

/-- Once `startInLoop` has returned, every slot holds the loop of its thread. -/
def Complete (s : TCPServer) : Prop :=
  s.starter = .returned → ∀ i, 1 ≤ i → i < s.threadNum →
    ∃ loop, s.slot i = some loop ∧ (s.workers i).loop = some loop

/-- A thread does not call `notify_one` while the starter, which has found its
slot null, is not yet asleep. -/
def InTime (s : TCPServer) : StartAction → Prop
  | .notify i => s.starter ≠ .waiting i .parking
  | _ => True

instance (s : TCPServer) : ∀ a : StartAction, Decidable (s.InTime a)
  | .notify _ => inferInstanceAs (Decidable (_ ≠ _))
  | .setThreadNum _ | .start | .startInLoop | .spawn | .lock | .test | .sleep | .rouse | .relock
  | .construct .. | .publish _ => isTrue trivial

/-- The thread that the starter sleeps for, or is about to sleep for, has its
`notify_one` still to do. -/
def Expecting (s : TCPServer) : Prop :=
  ∀ i, s.starter = .waiting i .parking ∨ s.starter = .waiting i .asleep →
    (s.workers i).notified = false

theorem expecting_of_awake {s : TCPServer} (hparking : ∀ i, s.starter ≠ .waiting i .parking)
    (hasleep : ∀ i, s.starter ≠ .waiting i .asleep) : s.Expecting := by
  rintro i (hplace | hplace)
  · exact absurd hplace (hparking i)
  · exact absurd hplace (hasleep i)

theorem Expecting.not_hung {s : TCPServer} (hs : s.Expecting) : ¬ s.Hung := by
  intro hhung
  unfold Hung at hhung
  split at hhung
  · rename_i i hplace
    have hnot := hs i (Or.inr hplace)
    rw [hhung.2] at hnot
    cases hnot
  · exact hhung

theorem notified_eq_false {worker : Worker} (h : worker.published = none) :
    worker.notified = false := by
  cases worker with
  | running loop => cases h
  | _ => rfl

/-- A thread that does not call `notify_one` keeps the starter waiting for it. -/
theorem Expecting.work {s : TCPServer} (hs : s.Expecting) {workers : Nat → Worker}
    {slots : List (Option Nat)} (hworkers : ∀ i, (workers i).notified = (s.workers i).notified) :
    ({ s with eventLoopList := slots, workers := workers } : TCPServer).Expecting := by
  intro i hplace
  exact (hworkers i).trans (hs i hplace)

theorem notified_update {workers : Nat → Worker} {i : Nat} {worker : Worker}
    (h : worker.notified = (workers i).notified) (j : Nat) :
    (Function.update workers i worker j).notified = (workers j).notified := by
  by_cases hj : j = i
  · subst hj
    rw [Function.update_self, h]
  · rw [Function.update_of_ne hj]

/-- A notification brings nobody to the point before the sleep. -/
theorem parking_of_notify {starter : Starter} {i : Nat}
    (h : cond.notify starter = .waiting i .parking) : starter = .waiting i .parking := by
  cases starter with
  | waiting j point =>
    cases point with
    | asleep => cases h
    | _ => exact h
  | _ => exact h

theorem Expecting.step {s t : TCPServer} {a : StartAction} (hs : s.Expecting) (hinv : s.Inv)
    (hgood : s.InTime a) (h : s.step a = .next t) : t.Expecting := by
  cases started_of_step h with
  | setThreadNum n hpos hstarted => exact hs
  | startAgain hstarted => exact hs
  | start hstarted => exact expecting_of_awake (by simp) (by simp)
  | startInLoop hplace => exact expecting_of_awake (by simp) (by simp)
  | spawn i hplace hmore => exact expecting_of_awake (by simp) (by simp)
  | done i hplace hall => exact expecting_of_awake (by simp) (by simp)
  | lock i hplace => exact expecting_of_awake (by simp) (by simp)
  | testNull i hplace hslot =>
    rintro j (heq | heq)
    · cases heq
      exact notified_eq_false (hinv.slots i none hslot).symm
    · cases heq
  | testSet i loop hplace hslot => exact expecting_of_awake (by simp) (by simp)
  | sleep i hplace =>
    rintro j (heq | heq)
    · cases heq
    · cases heq
      exact hs i (Or.inl hplace)
  | rouse i hplace => exact expecting_of_awake (by simp) (by simp)
  | relock i hplace => exact expecting_of_awake (by simp) (by simp)
  | construct i loop hworker =>
    refine hs.work (notified_update ?_)
    rw [hworker]
    rfl
  | publish i loop hworker hindex =>
    refine hs.work (notified_update ?_)
    rw [hworker]
    rfl
  | notify i loop hworker =>
    rintro j (heq | heq)
    · -- the notification is not for this thread: it would come too early
      have hplace := parking_of_notify heq
      have hne : j ≠ i := by
        rintro rfl
        exact hgood hplace
      dsimp only
      rw [Function.update_of_ne hne]
      exact hs j (Or.inl hplace)
    · have hplace : cond.notify s.starter = .waiting j .asleep := heq
      have hawake : cond.asleep (cond.notify s.starter) = false := Condition.asleep_notify _
      rw [hplace] at hawake
      cases hawake

theorem Inv.complete {s : TCPServer} (hs : s.Inv) : s.Complete := by
  intro hreturned i hpos hlt
  have hready := hs.ready i hpos (by rw [hreturned]; exact hlt)
  have hlength := hs.size (Nat.lt_of_le_of_lt hpos hlt)
  obtain ⟨found, hget⟩ : ∃ found, s.eventLoopList[i]? = some found := by
    rw [← hlength] at hlt
    exact ⟨_, List.getElem?_eq_getElem hlt⟩
  have hslot := hs.slots i found hget
  obtain ⟨loop, hloop⟩ := Option.ne_none_iff_exists'.mp hready
  refine ⟨loop, ?_, ?_⟩
  · rw [slot, hget, hslot, hloop]
    rfl
  · cases hworker : s.workers i with
    | notifying loop' =>
      rw [hworker] at hloop
      exact hloop
    | running loop' =>
      rw [hworker] at hloop
      exact hloop
    | _ =>
      rw [hworker] at hloop
      cases hloop

/-- Every thread has a slot. -/
theorem Inv.in_bounds {s : TCPServer} (hs : s.Inv) {i : Nat} (hpos : 1 ≤ i)
    (hlt : i < s.threadNum) : i < s.eventLoopList.length := by
  rw [hs.size (Nat.lt_of_le_of_lt hpos hlt)]
  exact hlt

theorem Inv.created_le {s : TCPServer} (hs : s.Inv) :
    s.starter.created s.threadNum ≤ s.threadNum := by
  have hplaced := hs.placed
  cases hplace : s.starter with
  | idle => exact hs.positive
  | queued => exact hs.positive
  | spawning i =>
    rw [Placed, hplace] at hplaced
    exact hplaced.2
  | waiting i point =>
    rw [Placed, hplace] at hplaced
    exact hplaced.2
  | returned => exact Nat.le_refl _

/-- A thread that has been created has a slot. -/
theorem Inv.in_bounds_of_worker {s : TCPServer} (hs : s.Inv) {i : Nat}
    (hthere : s.workers i ≠ .absent) : i < s.eventLoopList.length := by
  have hpos : 1 ≤ i := by
    by_contra hzero
    exact hthere (hs.absent i (Or.inl (by omega)))
  have hlt : i < s.starter.created s.threadNum := by
    by_contra hnot
    exact hthere (hs.absent i (Or.inr (Nat.le_of_not_lt hnot)))
  exact hs.in_bounds hpos (Nat.lt_of_lt_of_le hlt hs.created_le)

theorem Inv.stops {s : TCPServer} (hs : s.Inv) (a : StartAction) :
    (s.step a).Stops fun e => e ≠ .outOfBounds := by
  rw [Outcome.stops_iff]
  rintro e he rfl
  cases a with
  | setThreadNum n =>
    rw [TCPServer.step, Outcome.ofExcept_eq_abort, setThreadNum, bind_eq_error] at he
    rcases he with he | ⟨_, _, he⟩
    · rw [require] at he
      split at he <;> cases he
    · rw [bind_eq_error] at he
      rcases he with he | ⟨_, _, he⟩
      · rw [require] at he
        split at he <;> cases he
      · cases he
  | test =>
    rw [TCPServer.step] at he
    split at he
    · rename_i i hplace
      obtain ⟨hplaced, _, _⟩ := hs.atPlace hplace
      have hindex := hs.in_bounds hplaced.1 hplaced.2
      rw [Outcome.ofExcept_eq_abort, test, List.getElem?_eq_getElem hindex] at he
      split at he
      · rename_i hnone
        cases hnone
      · cases he
      · cases he
    · cases he
  | publish i =>
    rw [TCPServer.step] at he
    split at he
    · rename_i loop hworker
      have hindex := hs.in_bounds_of_worker (i := i) (by rw [hworker]; simp)
      rw [Outcome.ofExcept_eq_abort, publish, if_pos hindex] at he
      cases he
    · cases he
  | start => cases he
  | _ =>
    rw [TCPServer.step] at he
    split at he
    · first | cases he | (split at he <;> cases he)
    · cases he

/-! ## Runs -/

theorem inv_of_run {s : TCPServer} {actions : List StartAction}
    (h : run step new actions = some s) : s.Inv :=
  throughout_iff_run.mp (throughout_of_invariant step inv_new (fun _ _ _ hs => hs.step) actions)
    actions s List.prefix_rfl h

/-- No run reads or writes outside `m_eventLoopList`. -/
theorem never_outOfBounds (actions : List StartAction) :
    Along step (fun s a => (s.step a).Stops fun e => e ≠ .outOfBounds) new actions := by
  have hinv := throughout_of_invariant step inv_new (fun _ _ _ hs => hs.step) actions
  exact hinv.along fun s a hs => hs.stops a

/-- **When the start-up hangs.**  As long as the thread that the starter waits for
does not call `notify_one` between the starter's test of its slot and the
starter's sleep, the starter is never asleep for a thread that has set its slot
and notified.  A notification of that thread that does come in between is lost:
the starter can go to sleep next.  Whether or not that happens, when
`startInLoop` returns every slot from 1 on holds the loop of its own thread. -/
theorem start_up (actions : List StartAction) :
    (Along step InTime new actions → Throughout step (fun s => ¬ s.Hung) new actions) ∧
      (∀ s a t, run step new actions = some s → s.step a = .next t → ¬ s.InTime a →
        ∃ u, t.step .sleep = .next u ∧ u.Hung) ∧
      Throughout step Complete new actions := by
  refine ⟨fun hgood => ?_, fun s a t hrun ht hlate => ?_, ?_⟩
  · have hinv := throughout_of_along (I := fun s => s.Inv ∧ s.Expecting)
      ⟨inv_new, expecting_of_awake (by simp [new]) (by simp [new])⟩
      (fun s a t hs hgood ht => ⟨hs.1.step ht, hs.2.step hs.1 hgood ht⟩) hgood
    exact hinv.mono fun s hs => hs.2.not_hung
  · cases started_of_step ht with
    | notify i loop hworker =>
      have hplace : s.starter = .waiting i .parking := not_not.mp hlate
      have hs := inv_of_run hrun
      have hindex := hs.in_bounds_of_worker (i := i) (by rw [hworker]; simp)
      have hslot := hs.slots i _ (List.getElem?_eq_getElem hindex)
      have hstays : cond.notify s.starter = .waiting i .parking := by
        rw [hplace]
        rfl
      refine ⟨_, by rw [step, hstays], ?_⟩
      unfold Hung
      dsimp only
      refine ⟨?_, ?_⟩
      · rw [slot, List.getElem?_eq_getElem hindex, hslot, hworker]
        simp [Worker.published]
      · simp [Worker.notified]
    | _ => exact absurd trivial hlate
  · have hinv := throughout_of_invariant step inv_new (fun _ _ _ hs => hs.step) actions
    exact hinv.mono fun s hs => hs.complete

/-- Two more threads: the first wakes the starter, which has to sleep once more,
and the second publishes its loop before the starter looks. -/
def inTime : List StartAction :=
  [.setThreadNum 3, .start, .startInLoop, .spawn, .lock, .test, .sleep, .rouse, .relock, .test,
    .sleep, .construct 1 4096, .publish 1, .notify 1, .relock, .test, .spawn, .construct 2 8192,
    .publish 2, .notify 2, .lock, .test, .spawn]

theorem start_up_inTime :
    (run step new inTime).map (fun s => (s.starter, s.eventLoopList)) =
        some (.returned, [none, some 4096, some 8192]) ∧
      Throughout step (fun s => ¬ s.Hung) new inTime :=
  ⟨by decide, (start_up inTime).1 (by decide)⟩

/-- One more thread: it publishes its loop and notifies after the starter has
found the slot null and before the starter sleeps. -/
def betweenTestAndSleep : List StartAction :=
  [.setThreadNum 2, .start, .startInLoop, .spawn, .lock, .test, .construct 1 4096, .publish 1,
    .notify 1, .sleep]

theorem hung_betweenTestAndSleep :
    ¬ ∀ actions, Throughout step (fun s => ¬ s.Hung) new actions := by
  intro h
  exact absurd (h betweenTestAndSleep) (by decide)

end TCPServer

end CppWeb.Server
