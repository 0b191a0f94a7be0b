/-
  Server/ShutDown.lean --- `~TCPServer` stops its threads.

  The destructor calls `quit` on the loop of every thread, one after the other,
  and then joins the threads.  Each loop is a variable of `runInThread`: it
  lives until its thread has left `loop()`.  `quit` stores `m_quit` first and
  wakes the loop afterwards, as two steps of one thread, and the thread of the
  loop can leave between them.  Then the loop that is woken is no longer there.

  Here are all the loops of a server, each with the threads that hand it work,
  and the thread of the destructor, which is thread `worker 0` for each of
  them.  The slot with index 0 is null; when `startInLoop` has returned, every
  other slot holds the loop of its own thread.  Nobody else calls `quit` on
  these loops.
-/
import CppWeb.Loop.Latency

set_option autoImplicit false

namespace CppWeb.Server

open CppWeb.Foundation
open CppWeb.Loop (EventLoop LoopAction Thread)

/-- Where the thread of the destructor is. -/
inductive Destructor where
  /-- `~TCPServer` has not been called -/
  | serving
  /-- at the head of the first `for` loop, with the slot at this index -/
  | quitting (i : Nat)
  /-- in `quit`, between the assertion and the store -/
  | asserted (i : Nat)
  /-- in `quit`, between the store and `wakeup()` -/
  | stored (i : Nat)
  /-- at the `join` of the thread with this index -/
  | joining (i : Nat)
  | returned
  deriving DecidableEq, Repr

/-- Where a thread is in `runInThread`. -/
inductive RunInThread where
  /-- before `loop.loop()` -/
  | starting
  /-- in `loop.loop()`, or about to destroy the server and the loop -/
  | looping
  /-- has returned: its loop is destroyed -/
  | returned
  deriving DecidableEq, Repr

/-- The loops of a server by the indices of their threads, and where all
threads are. -/
structure ShutDown (τ : Type) where
  threadNum : Nat
  loops : Nat → EventLoop τ
  threads : Nat → RunInThread
  destructor : Destructor

/-- What others than the destructor do to a loop that is still there. -/
inductive HandOver (τ : Type) where
  | queueInLoop (task : τ)
  | runInLoop (task : τ)
  | wakeup
  deriving DecidableEq, Repr

/-- What can happen next. -/
inductive ShutDownAction (τ : Type) where
  /-- the next step of `~TCPServer` -/
  | destructor
  /-- a step of thread `i` in `loop()` -/
  | loop (i : Nat) (a : LoopAction)
  /-- a step of a thread, the one of the loop or another, that hands work to
  loop `i` -/
  | call (i : Nat) (t : Thread) (a : HandOver τ)
  /-- thread `i` is past `loop()`: its `TCPServerSingle` and its `EventLoop` are
  destroyed -/
  | leave (i : Nat)
  deriving DecidableEq, Repr

/-- The step of the call. -/
def HandOver.step {τ : Type} : HandOver τ → Loop.CallAction τ
  | .queueInLoop task => .queueInLoop task
  | .runInLoop task => .runInLoop task
  | .wakeup => .wakeup

/-- The thread of the destructor, as the loops see it. -/
def destructorThread : Thread := .worker 0

namespace ShutDown

variable {τ : Type}

/-- The threads with indices from 1 on have published their loops. -/
def new (threadNum : Nat) : ShutDown τ :=
  { threadNum := threadNum
    loops := fun _ => EventLoop.new
    threads := fun i => if 0 < i ∧ i < threadNum then .starting else .returned
    destructor := .serving }

/-- A step on loop `i`. -/
def onLoop (s : ShutDown τ) (i : Nat) (a : Loop.Action τ) : Outcome Abort (ShutDown τ) :=
  ((s.loops i).step a).map fun loop => { s with loops := Function.update s.loops i loop }

/-- A step of the destructor in `quit` of loop `i`, and the place it leads to. -/
def onQuit (s : ShutDown τ) (i : Nat) (a : Loop.CallAction τ) (place : Destructor) :
    Outcome Abort (ShutDown τ) :=
  if s.threads i = .returned then .abort .useAfterFree
  else (s.onLoop i (.call destructorThread a)).map fun t => { t with destructor := place }

/-- One step of one thread. -/
def step (s : ShutDown τ) : ShutDownAction τ → Outcome Abort (ShutDown τ)
  | .destructor =>
      match s.destructor with
      | .serving => .next { s with destructor := .quitting 0 }
      | .quitting i =>
          if i < s.threadNum then
            -- `m_eventLoopList[0]` is null
            if i = 0 then .next { s with destructor := .quitting 1 }
            else s.onQuit i .quit (.asserted i)
          else .next { s with destructor := .joining 1 }
      | .asserted i => s.onQuit i .quitStore (.stored i)
      | .stored i => s.onQuit i .wakeup (.quitting (i + 1))
      | .joining i =>
          if i < s.threadNum then
            if s.threads i = .returned then .next { s with destructor := .joining (i + 1) }
            else .disabled
          else .next { s with destructor := .returned }
      | .returned => .disabled
  | .loop i a =>
      match s.threads i with
      | .starting =>
          if a = .enter then
            (s.onLoop i (.loop a)).map fun t =>
              { t with threads := Function.update t.threads i .looping }
          else .disabled
      | .looping => if a = .enter then .disabled else s.onLoop i (.loop a)
      | .returned => .disabled
  | .call i t a =>
      if t = destructorThread ∨ s.threads i = .returned then .disabled
      else s.onLoop i (.call t a.step)
  | .leave i =>
      if s.threads i = .looping ∧ (s.loops i).control = .outside ∧
          (s.loops i).calls .loop = .none then
        .next { s with threads := Function.update s.threads i .returned }
      else .disabled

/-! ## Steps, one by one -/

theorem onLoop_eq_next {s t : ShutDown τ} {i : Nat} {a : Loop.Action τ} :
    s.onLoop i a = .next t ↔ ∃ loop, (s.loops i).step a = .next loop ∧
      { s with loops := Function.update s.loops i loop } = t := by
  rw [onLoop, Outcome.map_eq_next]

/-- What can happen. -/
inductive Moves (s : ShutDown τ) : ShutDownAction τ → ShutDown τ → Prop where
  | begin (hplace : s.destructor = .serving) :
      Moves s .destructor { s with destructor := .quitting 0 }
  | null (hplace : s.destructor = .quitting 0) :
      Moves s .destructor { s with destructor := .quitting 1 }
  | quit (i : Nat) (loop : EventLoop τ) (hplace : s.destructor = .quitting i)
      (hpos : 0 < i) (hi : i < s.threadNum) (hthere : s.threads i ≠ .returned)
      (h : (s.loops i).step (.call destructorThread .quit) = .next loop) :
      Moves s .destructor
        { s with loops := Function.update s.loops i loop, destructor := .asserted i }
  | store (i : Nat) (loop : EventLoop τ) (hplace : s.destructor = .asserted i)
      (hthere : s.threads i ≠ .returned)
      (h : (s.loops i).step (.call destructorThread .quitStore) = .next loop) :
      Moves s .destructor
        { s with loops := Function.update s.loops i loop, destructor := .stored i }
  | wakeup (i : Nat) (loop : EventLoop τ) (hplace : s.destructor = .stored i)
      (hthere : s.threads i ≠ .returned)
      (h : (s.loops i).step (.call destructorThread .wakeup) = .next loop) :
      Moves s .destructor
        { s with loops := Function.update s.loops i loop, destructor := .quitting (i + 1) }
  | quitAll (i : Nat) (hplace : s.destructor = .quitting i) (hall : s.threadNum ≤ i) :
      Moves s .destructor { s with destructor := .joining 1 }
  | join (i : Nat) (hplace : s.destructor = .joining i) (hi : i < s.threadNum)
      (hreturned : s.threads i = .returned) :
      Moves s .destructor { s with destructor := .joining (i + 1) }
  | joinedAll (i : Nat) (hplace : s.destructor = .joining i) (hall : s.threadNum ≤ i) :
      Moves s .destructor { s with destructor := .returned }
  | enter (i : Nat) (loop : EventLoop τ) (hthread : s.threads i = .starting)
      (h : (s.loops i).step (.loop .enter) = .next loop) :
      Moves s (.loop i .enter)
        { s with
          loops := Function.update s.loops i loop
          threads := Function.update s.threads i .looping }
  | loop (i : Nat) (a : LoopAction) (loop : EventLoop τ) (hthread : s.threads i = .looping)
      (hne : a ≠ .enter) (h : (s.loops i).step (.loop a) = .next loop) :
      Moves s (.loop i a) { s with loops := Function.update s.loops i loop }
  | call (i : Nat) (t : Thread) (a : HandOver τ) (loop : EventLoop τ)
      (ht : t ≠ destructorThread) (hthere : s.threads i ≠ .returned)
      (h : (s.loops i).step (.call t a.step) = .next loop) :
      Moves s (.call i t a) { s with loops := Function.update s.loops i loop }
  | leave (i : Nat) (hthread : s.threads i = .looping)
      (hcontrol : (s.loops i).control = .outside) (hidle : (s.loops i).calls .loop = .none) :
      Moves s (.leave i) { s with threads := Function.update s.threads i .returned }

theorem onQuit_eq_next {s t : ShutDown τ} {i : Nat} {a : Loop.CallAction τ} {place : Destructor}
    (h : s.onQuit i a place = .next t) :
    s.threads i ≠ .returned ∧ ∃ loop, (s.loops i).step (.call destructorThread a) = .next loop ∧
      t = { s with loops := Function.update s.loops i loop, destructor := place } := by
  rw [onQuit] at h
  split at h
  · cases h
  · rename_i hthere
    obtain ⟨u, hu, rfl⟩ := Outcome.map_eq_next.mp h
    obtain ⟨loop, hloop, rfl⟩ := onLoop_eq_next.mp hu
    exact ⟨hthere, loop, hloop, rfl⟩

theorem moves_of_step {s t : ShutDown τ} {a : ShutDownAction τ} (h : s.step a = .next t) :
    Moves s a t := by
  cases a with
  | destructor =>
    rw [step] at h
    split at h
    · rename_i hplace
      cases h
      exact .begin hplace
    · rename_i i hplace
      split at h
      · rename_i hi
        split at h
        · rename_i hzero
          subst hzero
          cases h
          exact .null hplace
        · rename_i hpos
          obtain ⟨hthere, loop, hloop, rfl⟩ := onQuit_eq_next h
          exact .quit i loop hplace (Nat.pos_of_ne_zero hpos) hi hthere hloop
      · rename_i hall
        cases h
        exact .quitAll i hplace (Nat.le_of_not_lt hall)
    · rename_i i hplace
      obtain ⟨hthere, loop, hloop, rfl⟩ := onQuit_eq_next h
      exact .store i loop hplace hthere hloop
    · rename_i i hplace
      obtain ⟨hthere, loop, hloop, rfl⟩ := onQuit_eq_next h
      exact .wakeup i loop hplace hthere hloop
    · rename_i i hplace
      split at h
      · rename_i hi
        obtain ⟨hreturned, rfl⟩ := Outcome.ite_next_eq_next.mp h
        exact .join i hplace hi hreturned
      · rename_i hall
        cases h
        exact .joinedAll i hplace (Nat.le_of_not_lt hall)
    · cases h
  | loop i a =>
    rw [step] at h
    split at h
    · rename_i hthread
      obtain ⟨rfl, h⟩ := Outcome.ite_eq_next.mp h
      obtain ⟨u, hu, rfl⟩ := Outcome.map_eq_next.mp h
      obtain ⟨loop, hloop, rfl⟩ := onLoop_eq_next.mp hu
      exact .enter i loop hthread hloop
    · rename_i hthread
      split at h
      · cases h
      · rename_i hne
        obtain ⟨loop, hloop, rfl⟩ := onLoop_eq_next.mp h
        exact .loop i a loop hthread hne hloop
    · cases h
  | call i t a =>
    rw [step] at h
    split at h
    · cases h
    · rename_i hnot
      obtain ⟨ht, hthere⟩ := not_or.mp hnot
      obtain ⟨loop, hloop, rfl⟩ := onLoop_eq_next.mp h
      exact .call i t a loop ht hthere hloop
  | leave i =>
    obtain ⟨⟨hthread, hcontrol, hidle⟩, rfl⟩ := Outcome.ite_next_eq_next.mp h
    exact .leave i hthread hcontrol hidle

/-- What a step does to loop `i`: nothing, or a step of the loop by itself. -/
theorem loop_of_moves {s t : ShutDown τ} {a : ShutDownAction τ} (h : Moves s a t) (i : Nat) :
    t.loops i = s.loops i ∨ ∃ b, (s.loops i).step b = .next (t.loops i) := by
  have hupdate : ∀ {j b loop}, (s.loops j).step b = .next loop →
      Function.update s.loops j loop i = s.loops i ∨
        ∃ b, (s.loops i).step b = .next (Function.update s.loops j loop i) := by
    intro j b loop hstep
    by_cases hj : i = j
    · subst hj
      exact Or.inr ⟨b, by rw [Function.update_self, hstep]⟩
    · exact Or.inl (Function.update_of_ne hj _ _)
  cases h with
  | begin _ | null _ | quitAll _ _ _ | join _ _ _ _ | joinedAll _ _ _ | leave _ _ _ _ =>
    exact Or.inl rfl
  | quit j loop _ _ _ _ h => exact hupdate h
  | store j loop _ _ h => exact hupdate h
  | wakeup j loop _ _ h => exact hupdate h
  | enter j loop _ h => exact hupdate h
  | loop j b loop _ _ h => exact hupdate h
  | call j u b loop _ _ h => exact hupdate h

end ShutDown

/-! ## What the destructor has done to a loop -/

namespace Destructor

/-- The call of the destructor on loop `i`. -/
def call (i : Nat) : Destructor → Loop.Call
  | .asserted j => if j = i then .quitStore else .none
  | .stored j => if j = i then .quitWakeup else .none
  | _ => .none

/-- `m_quit` of loop `i` has been set. -/
def told (i : Nat) : Destructor → Bool
  | .serving => false
  | .quitting j => i < j
  | .asserted j => i < j
  | .stored j => i ≤ j
  | .joining _ => true
  | .returned => true

/-- The call of `quit` on loop `i` has returned. -/
def toldBack (i : Nat) : Destructor → Bool
  | .serving => false
  | .quitting j => i < j
  | .asserted j => i < j
  | .stored j => i < j
  | .joining _ => true
  | .returned => true

/-- Thread `i` has been joined. -/
def joined (i : Nat) : Destructor → Bool
  | .joining j => i < j
  | .returned => true
  | _ => false

/-- The indices that the destructor goes through. -/
def Within (threadNum : Nat) : Destructor → Prop
  | .asserted j => 0 < j ∧ j < threadNum
  | .stored j => 0 < j ∧ j < threadNum
  | .joining j => 0 < j
  | _ => True

end Destructor

/-- What is known of loop `i` and its thread. -/
structure Told {τ : Type} (place : Destructor) (thread : RunInThread) (i : Nat)
    (loop : EventLoop τ) : Prop where
  ordered : loop.Ordered
  signalled : loop.Signalled
  call : loop.calls destructorThread = place.call i
  quit : loop.quit = place.told i
  back : place.toldBack i = true → loop.quitReturned = true
  own : loop.calls .loop = .none ∨ ∃ ticket, loop.calls .loop = .queueWakeup ticket
  starting : thread = .starting → loop.control = .outside
  left : thread ≠ .starting → loop.control = .outside → loop.quit = true
  gone : thread = .returned → loop.control = .outside

namespace Told

variable {τ : Type} {place : Destructor} {thread : RunInThread} {i : Nat} {loop u : EventLoop τ}

/-- The destructor goes on elsewhere. -/
theorem move (h : Told place thread i loop) {place' : Destructor}
    (hcall : place'.call i = place.call i) (htold : place'.told i = place.told i)
    (hback : place'.toldBack i = true → place.toldBack i = true) : Told place' thread i loop :=
  { h with
    call := h.call.trans hcall.symm
    quit := h.quit.trans htold.symm
    back := fun h' => h.back (hback h') }

/-- The calls of the destructor are not those of the thread of the loop. -/
theorem own_update (h : Told place thread i loop) (call : Loop.Call) :
    Function.update loop.calls destructorThread call .loop = .none ∨
      ∃ ticket, Function.update loop.calls destructorThread call .loop = .queueWakeup ticket := by
  rw [Function.update_of_ne (by decide)]
  exact h.own

/-- `quit` has made its assertion. -/
theorem assert (h : Told (.quitting i) thread i loop)
    (hstep : loop.step (.call destructorThread .quit) = .next u) :
    Told (.asserted i) thread i u := by
  have hordered := h.ordered.step hstep
  have hsignalled := h.signalled.step h.ordered hstep
  rw [EventLoop.step, EventLoop.callStep] at hstep
  split at hstep
  · split at hstep
    · cases hstep
    · cases hstep
      exact
        { ordered := hordered
          signalled := hsignalled
          call := by simp [Destructor.call]
          quit := h.quit
          back := h.back
          own := h.own_update .quitStore
          starting := h.starting
          left := h.left
          gone := h.gone }
  · cases hstep

/-- `quit` has stored `m_quit`. -/
theorem store (h : Told (.asserted i) thread i loop)
    (hstep : loop.step (.call destructorThread .quitStore) = .next u) :
    Told (.stored i) thread i u := by
  have hordered := h.ordered.step hstep
  have hsignalled := h.signalled.step h.ordered hstep
  rw [EventLoop.step, EventLoop.callStep] at hstep
  split at hstep
  · rw [if_neg (by decide)] at hstep
    cases hstep
    exact
      { ordered := hordered
        signalled := hsignalled
        call := by simp [Destructor.call]
        quit := (decide_eq_true (Nat.le_refl i)).symm
        back := fun hback => absurd (of_decide_eq_true hback) (Nat.lt_irrefl i)
        own := h.own_update .quitWakeup
        starting := h.starting
        left := fun _ _ => rfl
        gone := h.gone }
  · cases hstep

/-- `quit` has woken the loop, and returns. -/
theorem wake (h : Told (.stored i) thread i loop)
    (hstep : loop.step (.call destructorThread .wakeup) = .next u) :
    Told (.quitting (i + 1)) thread i u := by
  have hordered := h.ordered.step hstep
  have hsignalled := h.signalled.step h.ordered hstep
  have hcall : loop.calls destructorThread = .quitWakeup := h.call.trans (if_pos rfl)
  rw [EventLoop.step, EventLoop.callStep] at hstep
  simp only [hcall] at hstep
  cases hstep
  exact
    { ordered := hordered
      signalled := hsignalled
      call := by simp [Destructor.call]
      quit := h.quit.trans ((decide_eq_true (Nat.le_refl i)).trans
        (decide_eq_true (Nat.lt_succ_self i)).symm)
      back := fun _ => rfl
      own := h.own_update .none
      starting := h.starting
      left := h.left
      gone := h.gone }

/-- A step of the thread of the loop. -/
theorem loopStep {a : LoopAction} (h : Told place thread i loop)
    (hstep : loop.step (.loop a) = .next u) : Told place .looping i u := by
  have hordered := h.ordered.step hstep
  have hsignalled := h.signalled.step h.ordered hstep
  obtain ⟨_, hloop⟩ := EventLoop.loopStep_of_step hstep
  have hmove := EventLoop.loopStep_cases hloop
  obtain ⟨hquit, hback, hcalls⟩ := EventLoop.calls_of_loopStep hmove
  refine ⟨hordered, hsignalled, by rw [hcalls, h.call], by rw [hquit, h.quit],
    fun hb => by rw [hback, h.back hb], by rw [hcalls]; exact h.own,
    RunInThread.noConfusion, fun _ hout => ?_, RunInThread.noConfusion⟩
  -- only the test of `m_quit` leads out of `loop()`
  rw [hquit]
  cases hmove with
  | testQuit hcontrol =>
    by_contra hnot
    dsimp only at hout
    rw [if_neg hnot] at hout
    cases hout
  | _ => cases hout

/-- A step of a thread that hands work to the loop: the loop does not move, and
the thread is not in `quit`. -/
theorem frame_of_handOver {t : Thread} {a : HandOver τ}
    (hstep : loop.step (.call t a.step) = .next u) :
    u.control = loop.control ∧ u.quit = loop.quit ∧
      (loop.quitReturned = true → u.quitReturned = true) ∧
      (u.calls = loop.calls ∨ ∃ call, u.calls = Function.update loop.calls t call ∧
        (call = .none ∨ ∃ ticket, call = .queueWakeup ticket)) := by
  cases a with
  | queueInLoop task =>
    obtain ⟨_, rfl⟩ := Outcome.ite_next_eq_next.mp hstep
    exact ⟨rfl, rfl, id, Or.inr ⟨_, rfl, Or.inr ⟨_, rfl⟩⟩⟩
  | runInLoop task =>
    rw [EventLoop.step, HandOver.step, EventLoop.callStep] at hstep
    split at hstep
    · split at hstep
      · cases hstep
        exact ⟨rfl, rfl, id, Or.inl rfl⟩
      · cases hstep
        exact ⟨rfl, rfl, id, Or.inr ⟨_, rfl, Or.inr ⟨_, rfl⟩⟩⟩
    · cases hstep
  | wakeup =>
    rw [EventLoop.step, HandOver.step, EventLoop.callStep] at hstep
    split at hstep
    · cases hstep
      exact ⟨rfl, rfl, id, Or.inr ⟨_, rfl, Or.inl rfl⟩⟩
    · cases hstep
      exact ⟨rfl, rfl, fun _ => rfl, Or.inr ⟨_, rfl, Or.inl rfl⟩⟩
    · cases hstep
    · cases hstep

theorem handOver {t : Thread} {a : HandOver τ} (h : Told place thread i loop)
    (ht : t ≠ destructorThread) (hstep : loop.step (.call t a.step) = .next u) :
    Told place thread i u := by
  have hordered := h.ordered.step hstep
  have hsignalled := h.signalled.step h.ordered hstep
  obtain ⟨hcontrol, hquit, hback, hcalls⟩ := frame_of_handOver hstep
  refine ⟨hordered, hsignalled, ?_, by rw [hquit, h.quit], fun hb => hback (h.back hb),
    ?_, ?_, ?_, ?_⟩
  · rcases hcalls with hcalls | ⟨call, hcalls, _⟩
    · rw [hcalls, h.call]
    · rw [hcalls, Function.update_of_ne (Ne.symm ht), h.call]
  · rcases hcalls with hcalls | ⟨call, hcalls, hcall⟩
    · rw [hcalls]
      exact h.own
    · rw [hcalls]
      by_cases hloop : Thread.loop = t
      · rw [hloop, Function.update_self]
        exact hcall
      · rw [Function.update_of_ne hloop]
        exact h.own
  · rw [hcontrol]
    exact h.starting
  · rw [hcontrol, hquit]
    exact h.left
  · rw [hcontrol]
    exact h.gone

end Told

namespace ShutDown

variable {τ : Type}

/-! ## The whole server -/

/-- What holds of the server in every state. -/
structure Inv (s : ShutDown τ) : Prop where
  within : s.destructor.Within s.threadNum
  loops : ∀ i, 0 < i → i < s.threadNum → Told s.destructor (s.threads i) i (s.loops i)
  joined : ∀ i, 0 < i → i < s.threadNum → s.destructor.joined i = true → s.threads i = .returned

theorem inv_new (threadNum : Nat) : (new threadNum : ShutDown τ).Inv := by
  refine ⟨trivial, fun i hpos hi => ?_, fun i hpos hi h => by cases h⟩
  have hthread : (new threadNum : ShutDown τ).threads i = .starting := if_pos ⟨hpos, hi⟩
  rw [hthread]
  exact
    { ordered := EventLoop.ordered_new
      signalled := EventLoop.signalled_new
      call := rfl
      quit := rfl
      back := fun h => by cases h
      own := Or.inl rfl
      starting := fun _ => rfl
      left := fun h => absurd rfl h
      gone := fun h => by cases h }

/-- A step that leaves the destructor and the threads other than `j` where they
are. -/
theorem Inv.onLoop {s : ShutDown τ} (hs : s.Inv) (j : Nat) {u : EventLoop τ}
    (thread : RunInThread) (hj : Told s.destructor (s.threads j) j (s.loops j) →
      Told s.destructor thread j u)
    (hgone : s.threads j = .returned → thread = .returned) :
    ({ s with
        loops := Function.update s.loops j u
        threads := Function.update s.threads j thread } : ShutDown τ).Inv := by
  refine ⟨hs.within, fun i hpos hi => ?_, fun i hpos hi hjoined => ?_⟩
  · dsimp only
    by_cases hij : i = j
    · subst hij
      rw [Function.update_self, Function.update_self]
      exact hj (hs.loops i hpos hi)
    · rw [Function.update_of_ne hij, Function.update_of_ne hij]
      exact hs.loops i hpos hi
  · dsimp only
    have hthread := hs.joined i hpos hi hjoined
    by_cases hij : i = j
    · subst hij
      rw [Function.update_self]
      exact hgone hthread
    · rw [Function.update_of_ne hij]
      exact hthread

/-- The destructor goes on, and does nothing to the loops. -/
theorem Inv.move {s : ShutDown τ} (hs : s.Inv) {place : Destructor}
    (hwithin : place.Within s.threadNum)
    (hsame : ∀ i, 0 < i → i < s.threadNum → place.call i = s.destructor.call i ∧
      place.told i = s.destructor.told i ∧
      (place.toldBack i = true → s.destructor.toldBack i = true) ∧
      (place.joined i = true → s.threads i = .returned)) :
    ({ s with destructor := place } : ShutDown τ).Inv := by
  refine ⟨hwithin, fun i hpos hi => ?_, fun i hpos hi => (hsame i hpos hi).2.2.2⟩
  obtain ⟨hcall, htold, hback, _⟩ := hsame i hpos hi
  exact (hs.loops i hpos hi).move hcall htold hback

/-- The destructor makes a step of `quit` on loop `j`. -/
theorem Inv.onQuit {s : ShutDown τ} (hs : s.Inv) {j : Nat} {u : EventLoop τ} {place : Destructor}
    (hwithin : place.Within s.threadNum)
    (hj : Told s.destructor (s.threads j) j (s.loops j) → Told place (s.threads j) j u)
    (hjoined : ∀ i, place.joined i = false)
    (hsame : ∀ i, i ≠ j → place.call i = s.destructor.call i ∧
      place.told i = s.destructor.told i ∧
      (place.toldBack i = true → s.destructor.toldBack i = true)) :
    ({ s with loops := Function.update s.loops j u, destructor := place } : ShutDown τ).Inv := by
  refine ⟨hwithin, fun i hpos hi => ?_, fun i hpos hi h => ?_⟩
  · dsimp only
    by_cases hij : i = j
    · subst hij
      rw [Function.update_self]
      exact hj (hs.loops i hpos hi)
    · rw [Function.update_of_ne hij]
      obtain ⟨hcall, htold, hback⟩ := hsame i hij
      exact (hs.loops i hpos hi).move hcall htold hback
  · rw [hjoined i] at h
    cases h

/-- **One step.** -/
theorem Inv.step {s t : ShutDown τ} {a : ShutDownAction τ} (hs : s.Inv)
    (h : s.step a = .next t) : t.Inv := by
  cases moves_of_step h with
  | begin hplace =>
    refine hs.move trivial fun i hpos hi => ?_
    rw [hplace]
    simp [Destructor.call, Destructor.told, Destructor.toldBack, Destructor.joined]
  | null hplace =>
    refine hs.move trivial fun i hpos hi => ?_
    rw [hplace]
    have hnot : ¬ i < 1 := by omega
    simp [Destructor.call, Destructor.told, Destructor.toldBack, Destructor.joined, hnot]
  | quit j loop hplace hpos hj hthere hstep =>
    refine hs.onQuit ⟨hpos, hj⟩ (fun h => ?_) (fun _ => rfl) fun i hij => ?_
    · rw [hplace] at h
      exact h.assert hstep
    · rw [hplace]
      exact ⟨if_neg (Ne.symm hij), rfl, id⟩
  | store j loop hplace hthere hstep =>
    have hwithin := hs.within
    rw [hplace] at hwithin
    refine hs.onQuit hwithin (fun h => ?_) (fun _ => rfl) fun i hij => ?_
    · rw [hplace] at h
      exact h.store hstep
    · rw [hplace]
      have hcall : ∀ c c' : Loop.Call, (if j = i then c else .none) = if j = i then c' else .none :=
        fun c c' => by rw [if_neg (Ne.symm hij), if_neg (Ne.symm hij)]
      exact ⟨hcall _ _, decide_eq_decide.mpr (by omega), id⟩
  | wakeup j loop hplace hthere hstep =>
    refine hs.onQuit trivial (fun h => ?_) (fun _ => rfl) fun i hij => ?_
    · rw [hplace] at h
      exact h.wake hstep
    · rw [hplace]
      refine ⟨(if_neg (Ne.symm hij)).symm, decide_eq_decide.mpr Nat.lt_succ_iff, fun hback => ?_⟩
      exact decide_eq_true (Nat.lt_of_le_of_ne (Nat.le_of_lt_succ (of_decide_eq_true hback)) hij)
  | quitAll j hplace hall =>
    refine hs.move Nat.one_pos fun i hpos hi => ?_
    rw [hplace]
    have hlt : i < j := Nat.lt_of_lt_of_le hi hall
    have hnot : ¬ i < 1 := by omega
    simp [Destructor.call, Destructor.told, Destructor.toldBack, Destructor.joined, hlt, hnot]
  | join j hplace hj hreturned =>
    refine hs.move (Nat.succ_pos j) fun i hpos hi => ⟨?_, ?_, fun _ => ?_, fun h => ?_⟩
    · rw [hplace]
      rfl
    · rw [hplace]
      rfl
    · rw [hplace]
      rfl
    · rcases Nat.lt_succ_iff_lt_or_eq.mp (of_decide_eq_true h) with hlt | rfl
      · refine hs.joined i hpos hi ?_
        rw [hplace]
        exact decide_eq_true hlt
      · exact hreturned
  | joinedAll j hplace hall =>
    refine hs.move trivial fun i hpos hi => ⟨?_, ?_, fun _ => ?_, fun _ => ?_⟩
    · rw [hplace]
      rfl
    · rw [hplace]
      rfl
    · rw [hplace]
      rfl
    · refine hs.joined i hpos hi ?_
      rw [hplace]
      exact decide_eq_true (Nat.lt_of_lt_of_le hi hall)
  | enter j loop hthread hstep =>
    exact hs.onLoop j .looping (fun h => h.loopStep hstep) fun h => by rw [hthread] at h; cases h
  | loop j b loop hthread hne hstep =>
    have hsame := hs.onLoop j (s.threads j)
      (fun h => by rw [hthread]; exact h.loopStep hstep) id
    rwa [Function.update_eq_self] at hsame
  | call j u b loop hu hthere hstep =>
    have hsame := hs.onLoop j (s.threads j)
      (fun h => h.handOver hu hstep) id
    rwa [Function.update_eq_self] at hsame
  | leave j hthread hcontrol hidle =>
    have hgone := hs.onLoop j .returned
      (fun h =>
        { h with
          starting := RunInThread.noConfusion
          left := fun _ => h.left (by rw [hthread]; exact RunInThread.noConfusion)
          gone := fun _ => hcontrol })
      fun _ => rfl
    rwa [Function.update_eq_self] at hgone

/-! ## A loop that is gone before it is woken -/

/-- The destructor is about to wake a loop that is destroyed. -/
def Overtaken (s : ShutDown τ) : Prop :=
  ∃ i, s.destructor = .stored i ∧ s.threads i = .returned

/-- A thread returns between the two steps of `quit` on its loop. -/
def Overtakes (s : ShutDown τ) (a : ShutDownAction τ) : Prop :=
  ∃ i t, a = .leave i ∧ s.destructor = .stored i ∧ s.step a = .next t

theorem map_ne_abort {σ ρ : Type} {o : Outcome Abort σ} {f : σ → ρ}
    (h : ∀ e, o ≠ .abort e) (e : Abort) : o.map f ≠ .abort e := by
  cases o with
  | abort reason => exact absurd rfl (h reason)
  | disabled => exact fun heq => by cases heq
  | next t => exact fun heq => by cases heq

/-- A loop that `m_quit` has not been set for is there. -/
theorem Inv.there {s : ShutDown τ} (hs : s.Inv) {i : Nat} (hpos : 0 < i) (hi : i < s.threadNum)
    (htold : s.destructor.told i = false) : s.threads i ≠ .returned := by
  intro hgone
  have htoldOf := hs.loops i hpos hi
  have hquit := htoldOf.left (by rw [hgone]; exact RunInThread.noConfusion) (htoldOf.gone hgone)
  rw [htoldOf.quit, htold] at hquit
  cases hquit

theorem loop_ne_abort (loop : EventLoop τ) (a : LoopAction) (e : Abort) :
    loop.step (.loop a) ≠ .abort e := by
  rw [EventLoop.step]
  split
  · split <;> exact fun h => by cases h
  · exact fun h => by cases h

theorem handOver_ne_abort (loop : EventLoop τ) (t : Thread) (a : HandOver τ) (e : Abort) :
    loop.step (.call t a.step) ≠ .abort e := by
  cases a with
  | queueInLoop task =>
    rw [EventLoop.step, HandOver.step, EventLoop.callStep]
    split <;> exact fun h => by cases h
  | runInLoop task =>
    rw [EventLoop.step, HandOver.step, EventLoop.callStep]
    split
    · split <;> exact fun h => by cases h
    · exact fun h => by cases h
  | wakeup =>
    rw [EventLoop.step, HandOver.step, EventLoop.callStep]
    split <;> exact fun h => by cases h

theorem onQuit_ne_abort {s : ShutDown τ} {i : Nat} {a : Loop.CallAction τ} {place : Destructor}
    (hthere : s.threads i ≠ .returned)
    (h : ∀ e, (s.loops i).step (.call destructorThread a) ≠ .abort e) (e : Abort) :
    s.onQuit i a place ≠ .abort e := by
  rw [onQuit, if_neg hthere]
  exact map_ne_abort (map_ne_abort h) e

theorem not_overtaken {s : ShutDown τ} {place : Destructor} (hplace : s.destructor = place)
    (hne : ∀ i, place ≠ .stored i) : ¬ s.Overtaken := by
  rintro ⟨i, hstored, _⟩
  exact hne i (hplace.symm.trans hstored)

/-- The step of the destructor. -/
theorem Inv.destructor_abort_iff {s : ShutDown τ} (hs : s.Inv) (e : Abort) :
    s.step .destructor = .abort e ↔ s.Overtaken ∧ e = .useAfterFree := by
  have hwithin := hs.within
  have hno : ∀ {place}, s.destructor = place → (∀ i, place ≠ .stored i) →
      s.step .destructor ≠ .abort e →
      (s.step .destructor = .abort e ↔ s.Overtaken ∧ e = .useAfterFree) :=
    fun hplace hne h => iff_of_false h fun hbad => not_overtaken hplace hne hbad.1
  cases hplace : s.destructor with
  | serving =>
    refine hno hplace (by simp) ?_
    rw [ShutDown.step, hplace]
    exact fun h => by cases h
  | quitting i =>
    refine hno hplace (by simp) ?_
    rw [ShutDown.step, hplace]
    dsimp only
    split
    · rename_i hi
      split
      · exact fun h => by cases h
      · rename_i hpos
        have hpos' := Nat.pos_of_ne_zero hpos
        have htold : s.destructor.told i = false := by
          rw [hplace]
          exact decide_eq_false (Nat.lt_irrefl i)
        -- nobody else has set `m_quit`
        have hquit : (s.loops i).quit = false := (hs.loops i hpos' hi).quit.trans htold
        refine onQuit_ne_abort (hs.there hpos' hi htold) (fun e => ?_) e
        rw [EventLoop.step, EventLoop.callStep, hquit]
        split <;> exact fun h => by cases h
    · exact fun h => by cases h
  | asserted i =>
    refine hno hplace (by simp) ?_
    rw [hplace] at hwithin
    have htold : s.destructor.told i = false := by
      rw [hplace]
      exact decide_eq_false (Nat.lt_irrefl i)
    rw [ShutDown.step, hplace]
    refine onQuit_ne_abort (hs.there hwithin.1 hwithin.2 htold) (fun e => ?_) e
    rw [EventLoop.step, EventLoop.callStep]
    split
    · split <;> exact fun h => by cases h
    · exact fun h => by cases h
  | stored i =>
    rw [ShutDown.step, hplace]
    dsimp only
    by_cases hgone : s.threads i = .returned
    · rw [ShutDown.onQuit, if_pos hgone, Outcome.abort.injEq]
      exact ⟨fun h => ⟨⟨i, hplace, hgone⟩, h.symm⟩, fun h => h.2.symm⟩
    · refine iff_of_false (onQuit_ne_abort hgone (handOver_ne_abort _ _ .wakeup) e) ?_
      rintro ⟨⟨j, hj, hgone'⟩, _⟩
      rw [hplace, Destructor.stored.injEq] at hj
      subst hj
      exact hgone hgone'
  | joining i =>
    refine hno hplace (by simp) ?_
    rw [ShutDown.step, hplace]
    dsimp only
    split
    · split <;> exact fun h => by cases h
    · exact fun h => by cases h
  | returned =>
    refine hno hplace (by simp) ?_
    rw [ShutDown.step, hplace]
    exact fun h => by cases h

/-- **When the process stops**: where the destructor is about to wake a loop that
is gone, and nowhere else. -/
theorem Inv.abort_iff {s : ShutDown τ} (hs : s.Inv) (a : ShutDownAction τ) (e : Abort) :
    s.step a = .abort e ↔ a = .destructor ∧ s.Overtaken ∧ e = .useAfterFree := by
  cases a with
  | destructor => exact (hs.destructor_abort_iff e).trans (by simp)
  | loop i a =>
    refine iff_of_false ?_ fun h => by cases h.1
    have hloop := map_ne_abort (f := fun loop => { s with loops := Function.update s.loops i loop })
      (loop_ne_abort (s.loops i) a)
    rw [ShutDown.step]
    split
    · split
      · exact map_ne_abort hloop e
      · exact fun h => by cases h
    · split
      · exact fun h => by cases h
      · exact hloop e
    · exact fun h => by cases h
  | call i t a =>
    refine iff_of_false ?_ fun h => by cases h.1
    rw [ShutDown.step]
    split
    · exact fun h => by cases h
    · exact map_ne_abort (handOver_ne_abort _ t a) e
  | leave i =>
    refine iff_of_false ?_ fun h => by cases h.1
    rw [ShutDown.step]
    split <;> exact fun h => by cases h

/-- A step that is not the return of a thread keeps the threads that have not
returned. -/
theorem not_returned_of_moves {s t : ShutDown τ} {a : ShutDownAction τ} (h : Moves s a t) {i : Nat}
    (hthere : s.threads i ≠ .returned) (hne : a ≠ .leave i) : t.threads i ≠ .returned := by
  cases h with
  | enter j loop hthread hstep =>
    dsimp only
    by_cases hij : i = j
    · subst hij
      rw [Function.update_self]
      exact RunInThread.noConfusion
    · rw [Function.update_of_ne hij]
      exact hthere
  | leave j hthread hcontrol hidle =>
    have hij : i ≠ j := fun heq => hne (by rw [heq])
    dsimp only
    rw [Function.update_of_ne hij]
    exact hthere
  | _ => exact hthere

/-- The destructor gets to the wakeup of a loop that is there. -/
theorem not_overtaken_of_step {s t : ShutDown τ} {a : ShutDownAction τ} (hs : ¬ s.Overtaken)
    (hgood : ¬ s.Overtakes a) (h : s.step a = .next t) : ¬ t.Overtaken := by
  rintro ⟨i, hplace, hgone⟩
  have hmoves := moves_of_step h
  have hthere : s.destructor = .stored i → s.threads i ≠ .returned :=
    fun hstored hbad => hs ⟨i, hstored, hbad⟩
  have hstays : s.destructor = .stored i → False := fun hstored =>
    not_returned_of_moves hmoves (hthere hstored) (fun heq => hgood ⟨i, t, heq, hstored, h⟩) hgone
  cases hmoves with
  | store j loop hasserted hthread hstep =>
    obtain rfl : j = i := Destructor.stored.inj hplace
    exact hthread hgone
  | enter _ _ _ _ => exact hstays hplace
  | loop _ _ _ _ _ _ => exact hstays hplace
  | call _ _ _ _ _ _ _ => exact hstays hplace
  | leave _ _ _ _ => exact hstays hplace
  | _ => cases hplace

/-- A step of thread `i` in `loop()`. -/
def isLoopOf (i : Nat) : ShutDownAction τ → Bool
  | .loop j _ => j = i
  | _ => false

/-- A step of thread `i`. -/
def isOf (i : Nat) : ShutDownAction τ → Bool
  | .destructor => false
  | .loop j _ => j = i
  | .call j t _ => j = i ∧ t = .loop
  | .leave j => j = i

/-- What is added to the steps of thread `i`: for the channels that its waits
report and the tasks that are queued. -/
def addsTo (i : Nat) : ShutDownAction τ → Nat
  | .loop j a => if j = i then EventLoop.addsToLeave (.loop a : Loop.Action τ) else 0
  | .call j t a => if j = i then EventLoop.addsToLeave (.call t a.step) else 0
  | _ => 0

/-- `m_quit` of a loop stays set. -/
theorem quit_of_moves {s t : ShutDown τ} {a : ShutDownAction τ} (h : Moves s a t) {i : Nat}
    (hquit : (s.loops i).quit = true) : (t.loops i).quit = true := by
  rcases loop_of_moves h i with hsame | ⟨b, hb⟩
  · rw [hsame, hquit]
  · exact EventLoop.quit_of_step hb hquit

/-- A step brings thread `i` nearer to its return, or adds to its work. -/
theorem toLeave_of_moves {s t : ShutDown τ} {a : ShutDownAction τ} (h : Moves s a t) {i : Nat}
    (hquit : (s.loops i).quit = true) :
    (if isLoopOf i a then 1 else 0) + (t.loops i).toLeave ≤ (s.loops i).toLeave + addsTo i a := by
  -- a step on loop `j`
  have hstep : ∀ {j loop} {b : Loop.Action τ} {works adds : Nat},
      (s.loops j).step b = .next loop →
      (j = i → works = (if b.isLoop then 1 else 0) ∧ adds = EventLoop.addsToLeave b) →
      (j ≠ i → works = 0) →
      works + (Function.update s.loops j loop i).toLeave ≤ (s.loops i).toLeave + adds := by
    intro j loop b works adds hb hsame hother
    by_cases hj : j = i
    · subst hj
      obtain ⟨rfl, rfl⟩ := hsame rfl
      rw [Function.update_self]
      exact EventLoop.toLeave_of_step hquit hb
    · rw [Function.update_of_ne (Ne.symm hj), hother hj, Nat.zero_add]
      exact Nat.le_add_right _ _
  cases h with
  | begin _ | null _ | quitAll _ _ _ | join _ _ _ _ | joinedAll _ _ _ | leave _ _ _ _ =>
    exact Nat.le_of_eq (Nat.zero_add _)
  | quit j loop _ _ _ _ h => exact hstep h (fun _ => ⟨rfl, rfl⟩) fun _ => rfl
  | store j loop _ _ h => exact hstep h (fun _ => ⟨rfl, rfl⟩) fun _ => rfl
  | wakeup j loop _ _ h => exact hstep h (fun _ => ⟨rfl, rfl⟩) fun _ => rfl
  | enter j loop _ h =>
    refine hstep h (fun hj => ?_) fun hj => ?_
    · simp [isLoopOf, addsTo, Loop.Action.isLoop, hj]
    · simp [isLoopOf, hj]
  | loop j b loop _ _ h =>
    refine hstep h (fun hj => ?_) fun hj => ?_
    · simp [isLoopOf, addsTo, Loop.Action.isLoop, hj]
    · simp [isLoopOf, hj]
  | call j u b loop _ _ h =>
    refine hstep h (fun hj => ?_) fun _ => rfl
    simp [isLoopOf, addsTo, Loop.Action.isLoop, hj]

theorem step_loop_of_starting {s : ShutDown τ} {i : Nat} {u : EventLoop τ}
    (hthread : s.threads i = .starting) (h : (s.loops i).step (.loop .enter) = .next u) :
    s.step (.loop i .enter) = .next
      { s with
        loops := Function.update s.loops i u
        threads := Function.update s.threads i .looping } := by
  rw [step, hthread]
  dsimp only
  rw [if_pos rfl, onLoop, h]
  rfl

theorem step_loop_of_looping {s : ShutDown τ} {i : Nat} {a : LoopAction} {u : EventLoop τ}
    (hthread : s.threads i = .looping) (hne : a ≠ .enter)
    (h : (s.loops i).step (.loop a) = .next u) :
    s.step (.loop i a) = .next { s with loops := Function.update s.loops i u } := by
  rw [step, hthread]
  dsimp only
  rw [if_neg hne, onLoop, h]
  rfl

theorem step_call_of_there {s : ShutDown τ} {i : Nat} {t : Thread} {a : HandOver τ}
    {u : EventLoop τ} (ht : t ≠ destructorThread) (hthere : s.threads i ≠ .returned)
    (h : (s.loops i).step (.call t a.step) = .next u) :
    s.step (.call i t a) = .next { s with loops := Function.update s.loops i u } := by
  rw [step, if_neg (not_or.mpr ⟨ht, hthere⟩), onLoop, h]
  rfl

/-- A thread that has been told to quit, and has not returned, can make a step. -/
theorem Inv.exists_step {s : ShutDown τ} (hs : s.Inv) {i : Nat} (hpos : 0 < i)
    (hi : i < s.threadNum) (hback : s.destructor.toldBack i = true)
    (hthere : s.threads i ≠ .returned) :
    ∃ a t, isOf i a = true ∧ s.step a = .next t := by
  have htold := hs.loops i hpos hi
  rcases htold.own with hidle | ⟨ticket, hcall⟩
  · cases hthread : s.threads i with
    | returned => exact absurd hthread hthere
    | starting =>
      have henter := EventLoop.step_loop_of_loopStep (a := .enter) hidle
        (if_pos (htold.starting hthread))
      exact ⟨.loop i .enter, _, decide_eq_true rfl, step_loop_of_starting hthread henter⟩
    | looping =>
      by_cases hout : (s.loops i).control = .outside
      · exact ⟨.leave i, _, decide_eq_true rfl, if_pos ⟨hthread, hout, hidle⟩⟩
      · obtain ⟨a, u, hne, hstep⟩ :
            ∃ a u, a ≠ .enter ∧ (s.loops i).step (.loop a) = .next u :=
          EventLoop.exists_step_of_inside htold.ordered htold.signalled hidle hout
            (htold.back hback)
        exact ⟨.loop i a, _, decide_eq_true rfl, step_loop_of_looping hthread hne hstep⟩
  · -- the thread is between its push and its wakeup
    obtain ⟨u, hu⟩ : ∃ u, (s.loops i).step (.call .loop HandOver.wakeup.step) = .next u := by
      rw [HandOver.step, EventLoop.step, EventLoop.callStep, hcall]
      exact ⟨_, rfl⟩
    exact ⟨.call i .loop .wakeup, _, decide_eq_true ⟨rfl, rfl⟩,
      step_call_of_there (by decide) hthere hu⟩

/-- The call of `quit` on a loop stays behind the destructor. -/
theorem toldBack_of_moves {s t : ShutDown τ} {a : ShutDownAction τ} (h : Moves s a t) {i : Nat}
    (hback : s.destructor.toldBack i = true) : t.destructor.toldBack i = true := by
  cases h with
  | begin hplace =>
    rw [hplace] at hback
    cases hback
  | null hplace =>
    rw [hplace] at hback
    simp [Destructor.toldBack] at hback
  | quit j _ hplace _ _ _ _ | store j _ hplace _ _ =>
    rw [hplace] at hback
    exact hback
  | wakeup j _ hplace _ _ =>
    rw [hplace] at hback
    exact decide_eq_true (Nat.lt_succ_of_lt (of_decide_eq_true hback))
  | quitAll _ _ _ | join _ _ _ _ | joinedAll _ _ _ => rfl
  | enter _ _ _ _ | loop _ _ _ _ _ _ | call _ _ _ _ _ _ _ | leave _ _ _ _ => exact hback

theorem threadNum_of_moves {s t : ShutDown τ} {a : ShutDownAction τ} (h : Moves s a t) :
    t.threadNum = s.threadNum := by
  cases h <;> rfl

theorem inv_of_run {threadNum : Nat} {as : List (ShutDownAction τ)} {s : ShutDown τ}
    (h : run step (new threadNum) as = some s) : s.Inv ∧ s.threadNum = threadNum := by
  have hall := throughout_of_invariant step
    (I := fun s : ShutDown τ => s.Inv ∧ s.threadNum = threadNum) ⟨inv_new threadNum, rfl⟩
    (fun _ _ _ hs h => ⟨hs.1.step h, (threadNum_of_moves (moves_of_step h)).trans hs.2⟩) as
  exact throughout_iff_run.mp hall as s List.prefix_rfl h

end ShutDown

end CppWeb.Server
