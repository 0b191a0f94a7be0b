/-
  Tcp/References.lean --- who keeps a connection alive.

  A connection is destroyed when the last `shared_ptr` to it is gone.  One is in
  the set of its owner until the close callback erases it; user code keeps some
  on any thread, and a thread that calls a function of the connection has one
  for the whole call; the closures queued for the loop have captured one each,
  and the vector they are run from keeps them to the end of the round; and
  `Channel::handleEvents` locks the channel's tie to the connection for the time
  of its callbacks.

  Two things point to the connection without keeping it alive: the closures of
  `stopRead` and `startRead`, which capture `this`, and the loop's vector of
  active channels.  When the loop follows one of them after the destructor, the
  program uses a destroyed object; the model stops there.

  The temporary closure of a call and the temporary `shared_ptr` of a callback
  are left out, since what they are made from outlives them.
-/
import CppWeb.Tcp.World

set_option autoImplicit false

namespace CppWeb.Tcp

open CppWeb.Foundation CppWeb.Loop CppWeb.Poll

/-- The closure has captured a `shared_ptr` to the connection, not just
`this`. -/
def Task.captures : Task → Bool
  | .sendInLoop _ | .shutdownInLoop | .forceCloseInLoop => true
  | .writeCompleteCallback | .highWaterMarkCallback _ => true
  | .stopRead | .startRead => false

/-- How far the loop is with the connection's channel in this round. -/
inductive Turn where
  /-- the channel is not active, or is done with -/
  | none
  /-- the channel is active, and `handleEvents` has not been called yet -/
  | active
  /-- in `handleEvents`, which holds the guard -/
  | guarded
  deriving DecidableEq, Repr

/-- Why the program stops. -/
inductive Stop where
  | abort (reason : Abort)
  /-- a handler or closure is run on the connection, or its channel is called,
  after the destructor -/
  | destroyedConnection
  deriving DecidableEq, Repr

/-- A connection with its loop and threads, and the references to it. -/
structure Counted where
  world : World
  /-- the connection is in its owner's set -/
  owned : Bool
  /-- the `shared_ptr`s of user code, each with the thread that keeps it -/
  userRefs : List Thread
  /-- the closures of the batch that have been run -/
  done : List Task
  turn : Turn
  destroyed : Bool

/-- What can happen next. -/
inductive RefAction where
  | poll (revents : Mask)
  /-- the loop comes to the channel of the connection -/
  | handleEvents
  | callback (io : Io)
  /-- `handleEvents` returns -/
  | handled
  | swap
  | runTask (io : Io)
  | endRound
  | call (t : Thread) (c : PublicCall)
  | resume (t : Thread) (io : Io)
  | user (a : UserAction)
  /-- a thread copies its `shared_ptr` for a thread -/
  | copy (t t' : Thread)
  /-- a thread lets go of a `shared_ptr` -/
  | release (t : Thread)
  /-- the last reference is gone -/
  | destroy

namespace Counted

/-! ## References -/

/-- The closures that the loop keeps: those queued, and those of the round that
have been run. -/
def closures (s : Counted) : List Task := s.done ++ s.world.queue.toList

/-- `use_count()` -/
def refCount (s : Counted) : Nat :=
  (if s.owned then 1 else 0) + s.userRefs.length + s.closures.countP Task.captures +
    (if s.turn = .guarded then 1 else 0)

/-- The thread holds a reference: one that user code keeps on it, or, on the loop
thread, that of `handleEvents` or of a closure of the round. -/
def Holds (s : Counted) (t : Thread) : Prop :=
  t ∈ s.userRefs ∨
    (t = .loop ∧ (s.turn = .guarded ∨ ∃ task ∈ s.done, task.captures = true))

instance (s : Counted) (t : Thread) : Decidable (s.Holds t) :=
  inferInstanceAs (Decidable (_ ∨ (_ ∧ (_ ∨ ∃ task ∈ _, _))))

/-! ## Steps -/

/-- A step of the connection, its loop or a thread is a step here. -/
def lift (o : Outcome Abort World) (f : World → Counted) : Outcome Stop Counted :=
  match o with
  | .disabled => .disabled
  | .abort reason => .abort (.abort reason)
  | .next w => .next (f w)

/-- After a step of the connection: the close callback, if it ran, has erased
the owner's reference. -/
def ran (s : Counted) (w : World) : Counted :=
  { s with
    world := w
    owned := if s.world.conn.closeCallbacks < w.conn.closeCallbacks then false else s.owned }

/-- A step that may run a handler or closure of the connection. -/
def runs (s : Counted) (a : Action) : Outcome Stop Counted :=
  if s.destroyed = true ∧ (s.world.jobOf a).isSome = true then .abort .destroyedConnection
  else lift (s.world.step a) s.ran

/-- What `epoll_wait` can report for the descriptor: events that are registered,
and nothing once it has been closed by the destructor. -/
def Reports (s : Counted) (revents : Mask) : Prop :=
  Reportable s.world.conn.channel.interest revents ∧ (s.destroyed = true → revents = 0#32)

instance (s : Counted) (revents : Mask) : Decidable (s.Reports revents) :=
  inferInstanceAs (Decidable (_ ∧ (_ → _)))

/-- `Channel::handleEvents`, up to the callbacks.  When the tie cannot be locked
there are none. -/
def handleEvents (s : Counted) : Outcome Stop Counted :=
  if s.destroyed then .abort .destroyedConnection
  else if s.refCount = 0 then
    .next { s with world := { s.world with phase := .dispatch [] }, turn := .none }
  else .next { s with turn := .guarded }

/-- What user code does; it leaves the close callback to the owner. -/
def keepsCloseCallback (s : Counted) : UserAction → UserAction
  | .retrieve len => .retrieve len
  | .set settings =>
      .set { settings with closeCallback := s.world.conn.settings.closeCallback }

/-- `TCPConnection::~TCPConnection` -/
def destroy (s : Counted) : Outcome Stop Counted :=
  match s.world.conn.destructor with
  | .error reason => .abort (.abort reason)
  | .ok _ => .next { s with destroyed := true }

/-- One step. -/
def step (s : Counted) : RefAction → Outcome Stop Counted
  | .poll revents =>
      if s.Reports revents then
        lift (s.world.step (.loop (.poll revents))) fun w =>
          { s with world := w, turn := if revents = 0#32 then .none else .active }
      else .disabled
  | .handleEvents =>
      if s.turn = .active ∧ s.world.calls .loop = .idle then s.handleEvents else .disabled
  | .callback io => if s.turn = .guarded then s.runs (.loop (.handleEvents io)) else .disabled
  | .handled =>
      if s.turn = .guarded ∧ s.world.phase = .dispatch [] ∧ s.world.calls .loop = .idle then
        .next { s with turn := .none }
      else .disabled
  | .swap =>
      if s.turn = .none then
        lift (s.world.step (.loop .swap)) fun w => { s with world := w }
      else .disabled
  | .runTask io =>
      (s.runs (.loop (.runTask io))).map fun t =>
        { t with done := s.done ++ s.world.queue.batch.take 1 }
  | .endRound =>
      lift (s.world.step (.loop .endRound)) fun w => { s with world := w, done := [] }
  | .call t c =>
      if s.Holds t then lift (s.world.step (.call t c)) fun w => { s with world := w }
      else .disabled
  | .resume t io => s.runs (.resume t io)
  | .user a =>
      if s.Holds .loop then
        lift (s.world.step (.user (s.keepsCloseCallback a))) fun w => { s with world := w }
      else .disabled
  | .copy t t' =>
      if s.Holds t then .next { s with userRefs := t' :: s.userRefs } else .disabled
  | .release t =>
      if t ∈ s.userRefs ∧ s.world.calls t = .idle then
        .next { s with userRefs := s.userRefs.erase t }
      else .disabled
  | .destroy => if s.refCount = 0 ∧ s.destroyed = false then s.destroy else .disabled

/-- The start of every run: the owner has made the connection, put it into its
set and established it, and its local `shared_ptr` is still there. -/
def start (settings : Settings) : Counted :=
  { world := World.start { settings with closeCallback := true }
    owned := true
    userRefs := [.loop]
    done := []
    turn := .none
    destroyed := false }

/-! ## Steps, one by one -/

theorem lift_eq_next {o : Outcome Abort World} {f : World → Counted} {t : Counted} :
    lift o f = .next t ↔ ∃ w, o = .next w ∧ f w = t := by
  cases o <;> simp [lift]

theorem lift_ne_destroyed (o : Outcome Abort World) (f : World → Counted) :
    lift o f ≠ .abort .destroyedConnection := by
  cases o <;> simp [lift]

theorem runs_eq_next {s t : Counted} {a : Action} :
    s.runs a = .next t ↔ ¬ (s.destroyed = true ∧ (s.world.jobOf a).isSome = true) ∧
      ∃ w, s.world.step a = .next w ∧ s.ran w = t := by
  rw [runs]
  split
  · rename_i hused
    simp [hused]
  · rename_i hused
    rw [lift_eq_next]
    exact ⟨fun h => ⟨hused, h⟩, fun h => h.2⟩

theorem runs_eq_destroyed {s : Counted} {a : Action} :
    s.runs a = .abort .destroyedConnection ↔
      s.destroyed = true ∧ (s.world.jobOf a).isSome = true := by
  rw [runs]
  split
  · rename_i hused
    exact ⟨fun _ => hused, fun _ => rfl⟩
  · rename_i hused
    exact ⟨fun h => absurd h (lift_ne_destroyed _ _), fun h => absurd h hused⟩

/-- What one step can do: its guards and the state it leads to. -/
inductive Stepped (s : Counted) : RefAction → Counted → Prop where
  | poll (revents : Mask) (w : World) (hreports : s.Reports revents)
      (hstep : s.world.step (.loop (.poll revents)) = .next w) :
      Stepped s (.poll revents)
        { s with world := w, turn := if revents = 0#32 then .none else .active }
  | lockFailed (hturn : s.turn = .active) (hidle : s.world.calls .loop = .idle)
      (halive : s.destroyed = false) (hcount : s.refCount = 0) :
      Stepped s .handleEvents
        { s with world := { s.world with phase := .dispatch [] }, turn := .none }
  | locked (hturn : s.turn = .active) (hidle : s.world.calls .loop = .idle)
      (halive : s.destroyed = false) (hcount : s.refCount ≠ 0) :
      Stepped s .handleEvents { s with turn := .guarded }
  | callback (io : Io) (w : World) (hturn : s.turn = .guarded)
      (hstep : s.world.step (.loop (.handleEvents io)) = .next w) :
      Stepped s (.callback io) (s.ran w)
  | handled (hturn : s.turn = .guarded) (hphase : s.world.phase = .dispatch [])
      (hidle : s.world.calls .loop = .idle) :
      Stepped s .handled { s with turn := .none }
  | swap (w : World) (hturn : s.turn = .none)
      (hstep : s.world.step (.loop .swap) = .next w) : Stepped s .swap { s with world := w }
  | runTask (io : Io) (w : World)
      (halive : ¬ (s.destroyed = true ∧ (s.world.jobOf (.loop (.runTask io))).isSome = true))
      (hstep : s.world.step (.loop (.runTask io)) = .next w) :
      Stepped s (.runTask io) { s.ran w with done := s.done ++ s.world.queue.batch.take 1 }
  | endRound (w : World) (hstep : s.world.step (.loop .endRound) = .next w) :
      Stepped s .endRound { s with world := w, done := [] }
  | call (t : Thread) (c : PublicCall) (w : World) (hholds : s.Holds t)
      (hstep : s.world.step (.call t c) = .next w) : Stepped s (.call t c) { s with world := w }
  | resume (t : Thread) (io : Io) (w : World)
      (hstep : s.world.step (.resume t io) = .next w) : Stepped s (.resume t io) (s.ran w)
  | user (a : UserAction) (w : World) (hholds : s.Holds .loop)
      (hstep : s.world.step (.user (s.keepsCloseCallback a)) = .next w) :
      Stepped s (.user a) { s with world := w }
  | copy (t t' : Thread) (hholds : s.Holds t) :
      Stepped s (.copy t t') { s with userRefs := t' :: s.userRefs }
  | release (t : Thread) (hmem : t ∈ s.userRefs) (hidle : s.world.calls t = .idle) :
      Stepped s (.release t) { s with userRefs := s.userRefs.erase t }
  | destroy (hcount : s.refCount = 0) (halive : s.destroyed = false) :
      Stepped s .destroy { s with destroyed := true }

/-- **Inversion of a step.** -/
theorem step_cases {s t : Counted} {a : RefAction} (h : s.step a = .next t) : Stepped s a t := by
  cases a with
  | poll revents =>
    obtain ⟨hreports, h⟩ := Outcome.ite_eq_next.mp h
    obtain ⟨w, hstep, rfl⟩ := lift_eq_next.mp h
    exact .poll revents w hreports hstep
  | handleEvents =>
    obtain ⟨hturn, h⟩ := Outcome.ite_eq_next.mp h
    rw [handleEvents] at h
    split at h
    · cases h
    · rename_i halive
      split at h
      · rename_i hcount
        cases h
        exact .lockFailed hturn.1 hturn.2 (by simpa using halive) hcount
      · rename_i hcount
        cases h
        exact .locked hturn.1 hturn.2 (by simpa using halive) hcount
  | callback io =>
    obtain ⟨hturn, h⟩ := Outcome.ite_eq_next.mp h
    obtain ⟨_, w, hstep, rfl⟩ := runs_eq_next.mp h
    exact .callback io w hturn hstep
  | handled =>
    obtain ⟨hturn, rfl⟩ := Outcome.ite_next_eq_next.mp h
    exact .handled hturn.1 hturn.2.1 hturn.2.2
  | swap =>
    obtain ⟨hturn, h⟩ := Outcome.ite_eq_next.mp h
    obtain ⟨w, hstep, rfl⟩ := lift_eq_next.mp h
    exact .swap w hturn hstep
  | runTask io =>
    rw [step, Outcome.map_eq_next] at h
    obtain ⟨u, hu, rfl⟩ := h
    obtain ⟨halive, w, hstep, rfl⟩ := runs_eq_next.mp hu
    exact .runTask io w halive hstep
  | endRound =>
    obtain ⟨w, hstep, rfl⟩ := lift_eq_next.mp h
    exact .endRound w hstep
  | call t c =>
    obtain ⟨hholds, h⟩ := Outcome.ite_eq_next.mp h
    obtain ⟨w, hstep, rfl⟩ := lift_eq_next.mp h
    exact .call t c w hholds hstep
  | resume t io =>
    obtain ⟨_, w, hstep, rfl⟩ := runs_eq_next.mp h
    exact .resume t io w hstep
  | user a =>
    obtain ⟨hholds, h⟩ := Outcome.ite_eq_next.mp h
    obtain ⟨w, hstep, rfl⟩ := lift_eq_next.mp h
    exact .user a w hholds hstep
  | copy t t' =>
    obtain ⟨hholds, rfl⟩ := Outcome.ite_next_eq_next.mp h
    exact .copy t t' hholds
  | release t =>
    obtain ⟨hrefs, rfl⟩ := Outcome.ite_next_eq_next.mp h
    exact .release t hrefs.1 hrefs.2
  | destroy =>
    obtain ⟨hcount, h⟩ := Outcome.ite_eq_next.mp h
    rw [destroy] at h
    split at h
    · cases h
    · cases h
      exact .destroy hcount.1 hcount.2

end Counted

end CppWeb.Tcp
