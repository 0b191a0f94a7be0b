/-
  Tcp/Inert.lean --- what a closed connection still does.

  Most of the public functions and closures look at `m_state` before they do
  anything.  Three do not look in time: `shutdown()` asserts that the state is
  at most `kDisconnecting`; an exchange that falls behind the close opens the
  connection again (`Tcp/Closing.lean`); and the closure of `startRead` does
  not look at the state at all, and puts the descriptor back into the epoll
  set.  A closed connection is inert in exactly the runs that do none of this.
-/
import CppWeb.Tcp.Closing

set_option autoImplicit false

namespace CppWeb.Tcp

open CppWeb.Foundation CppWeb.Loop CppWeb.Poll

/-! ## Jobs of a closed connection -/

/-- Every closure but that of `startRead` does nothing. -/
theorem Connection.execute_task_of_disconnected {c : Connection}
    (hstate : c.state = .kDisconnected) (hreading : c.channel.isReading = false) (io : Io)
    {task : Task} (htask : task ≠ .startRead) : c.execute io (.task task) = .ok (c, []) := by
  cases task with
  | sendInLoop message => simp [execute, sendInLoop, hstate]
  | shutdownInLoop => simp [execute, shutdownInLoop, hstate]
  | forceCloseInLoop => simp [execute, forceCloseInLoop, hstate]
  | stopRead => simp [execute, stopReadInLoop, hreading]
  | startRead => exact absurd rfl htask
  | writeCompleteCallback => rfl
  | highWaterMarkCallback len => rfl

/-- A job leaves a connection that is closed and out of the epoll set so, and
one that closes the connection takes it out. -/
theorem Connection.Executed.unregistered {c : Connection} {io : Io} {job : Connection.Job}
    {r : Connection × List Task} (h : Connection.Executed c io job r)
    (hc : c.state = .kDisconnected → c.channel = Channel.new)
    (hjob : c.state = .kDisconnected → job ≠ .task .startRead)
    (hr : r.1.state = .kDisconnected) : r.1.channel = Channel.new := by
  cases h with
  | close hstate => rfl
  | error => exact hc hr
  | read h =>
    cases h with
    | failed hstate => exact absurd hr hstate
    | closed n inputBuffer hstate => rfl
    | data n inputBuffer hstate => exact absurd hr hstate
  | write h =>
    cases h with
    | disconnected hstate => exact hc hr
    | failed errno hstate => exact absurd hr hstate
    | partly outputBuffer hstate => exact absurd hr hstate
    | drained tasks outputBuffer channel hstate => exact absurd hr hstate
  | send message h =>
    cases h with
    | disconnected hstate => exact hc hr
    | direct tasks hstate => exact absurd hr hstate
    | directRest tasks outputBuffer channel hstate => exact absurd hr hstate
    | nothing hstate => exact absurd hr hstate
    | buffered tasks outputBuffer channel hstate => exact absurd hr hstate
  | shutdown =>
    rw [Connection.shutdownInLoop] at hr ⊢
    split at hr
    · rename_i hopen
      exact absurd hr hopen.1
    · rename_i hskip
      rw [if_neg hskip]
      exact hc hr
  | forceClose hstate => rfl
  | forceCloseSkipped hstate => exact hc hr
  | stopRead channel hreading hchannel =>
    -- a channel out of the epoll set is not reading
    rw [hc hr] at hreading
    exact absurd hreading (by decide)
  | stopReadSkipped hreading => exact hc hr
  | startRead channel hreading hchannel => exact absurd rfl (hjob hr)
  | startReadSkipped hreading => exact hc hr
  | writeCompleteCallback => exact hc hr
  | highWaterMarkCallback len => exact hc hr

/-- A step of a public call, or of the loop other than a callback of the
channel. -/
def Action.isCallOrTask : Action → Bool
  | .loop (.handleEvents _) => false
  | .user _ => false
  | _ => true

namespace World

/-! ## Steps -/

/-- A step of a call or task that finds the connection closed does not stop the
program, leaves the state, the event mask and the epoll set as they are after a
close, and makes no system call on the socket. -/
def Inert (w : World) (a : Action) : Prop :=
  w.conn.state = .kDisconnected → a.isCallOrTask = true →
    (w.step a).Stops (fun _ => False) ∧
    (w.step a).Leads fun v => v.conn.state = .kDisconnected ∧
      v.conn.channel = Channel.new ∧ v.conn.syscalls = w.conn.syscalls

instance (w : World) (a : Action) : Decidable (w.Inert a) :=
  inferInstanceAs (Decidable (_ → _ → _ ∧ _))

/-- The step is a call of `shutdown()`. -/
def CallsShutdown (w : World) : Action → Prop
  | .call t .shutdown => w.InUserCode t
  | _ => False

/-- The step finds the connection closed and is a call of `shutdown()`, an
exchange, or the closure of `startRead`. -/
def Disturbs (w : World) (a : Action) : Prop :=
  w.conn.state = .kDisconnected ∧ (w.CallsShutdown a ∨ w.Revives a ∨ w.Runs (.task .startRead) a)

/-- A closed connection is out of the epoll set. -/
def Unregistered (w : World) : Prop :=
  w.conn.state = .kDisconnected → w.conn.channel = Channel.new

/-- An undisturbed step keeps a closed connection out of the epoll set. -/
theorem Unregistered.step {w v : World} {a : Action} (hw : w.Unregistered)
    (hgood : ¬ w.Disturbs a) (h : w.step a = .next v) : v.Unregistered := by
  cases connStep_of_step h with
  | same inputBuffer settings hinput hconn hran =>
    rw [Unregistered, hconn]
    exact hw
  | exchange t io ha hcall hconn hran =>
    intro hstate
    simp [hconn] at hstate
  | job job io r hjob hrun hconn hran =>
    rw [Unregistered, hconn]
    refine (Connection.execute_cases hrun).unregistered hw fun hstate htask => ?_
    subst htask
    exact hgood ⟨hstate, Or.inr (Or.inr (runs_iff.mpr ⟨io, hjob⟩))⟩

/-! ## Undisturbed steps are inert -/

/-- A closure other than that of `startRead` leaves a closed connection alone. -/
theorem runJob_task_of_disconnected {w : World} (hw : w.Unregistered)
    (hstate : w.conn.state = .kDisconnected) (io : Io) {task : Task}
    (htask : task ≠ .startRead) :
    ∃ v, w.runJob io (.task task) = .next v ∧ v.conn = w.conn := by
  have hreading : w.conn.channel.isReading = false := by
    rw [hw hstate]
    decide
  have hrun := Connection.execute_task_of_disconnected hstate hreading io htask
  exact ⟨_, runJob_eq_next.mpr ⟨_, hrun, rfl⟩, rfl⟩

/-- A step that is not disturbing leads to a state with the same connection, if
it leads anywhere. -/
theorem same_conn_of_not_disturbs {w : World} {a : Action} (hw : w.Unregistered)
    (hstate : w.conn.state = .kDisconnected) (ha : a.isCallOrTask = true)
    (hgood : ¬ w.Disturbs a) :
    w.step a = .disabled ∨ ∃ v, w.step a = .next v ∧ v.conn = w.conn := by
  have hshutdown : ¬ w.CallsShutdown a := fun h => hgood ⟨hstate, Or.inl h⟩
  have hrevives : ¬ w.Revives a := fun h => hgood ⟨hstate, Or.inr (Or.inl h)⟩
  have hstart : ¬ w.Runs (.task .startRead) a := fun h => hgood ⟨hstate, Or.inr (Or.inr h)⟩
  cases a with
  | loop a =>
    by_cases hidle : w.calls .loop = .idle
    · rw [step, if_pos hidle]
      cases a with
      | poll revents =>
        rw [roundStep]
        split
        · exact Or.inr ⟨_, rfl, rfl⟩
        · exact Or.inl rfl
      | handleEvents io => exact absurd ha (by simp [Action.isCallOrTask])
      | swap =>
        rw [roundStep]
        split
        · exact Or.inr ⟨_, rfl, rfl⟩
        · exact Or.inl rfl
      | runTask io =>
        rw [roundStep]
        split
        · rename_i task rest hphase hbatch
          have htask : task ≠ .startRead := by
            intro heq
            subst heq
            exact hstart (by rw [Runs, jobOf, hidle, hphase, hbatch]; rfl)
          exact Or.inr (runJob_task_of_disconnected (w := { w with queue := w.queue.advance })
            hw hstate io htask)
        · exact Or.inl rfl
      | endRound =>
        rw [roundStep]
        split
        · exact Or.inr ⟨_, rfl, rfl⟩
        · exact Or.inl rfl
    · rw [step, if_neg hidle]
      exact Or.inl rfl
  | call t c =>
    by_cases huser : w.InUserCode t
    · rw [step, if_pos huser]
      refine Or.inr ?_
      cases c with
      | send data => exact ⟨w, if_pos (by simp [hstate]), rfl⟩
      | shutdown => exact absurd huser hshutdown
      | forceClose => exact ⟨w, if_neg (by simp [hstate]), rfl⟩
      | stopRead => exact ⟨_, rfl, rfl⟩
      | startRead => exact ⟨_, rfl, rfl⟩
    · rw [step, if_neg huser]
      exact Or.inl rfl
  | resume t io =>
    rw [step, resumeStep]
    split
    · exact Or.inl rfl
    · rename_i task hcall
      cases t with
      | loop =>
        have htask : task ≠ .startRead := by
          intro heq
          subst heq
          exact hstart (by rw [Runs, jobOf, hcall]; rfl)
        exact Or.inr (runJob_task_of_disconnected
          (w := (w.goto .loop .idle).handOver task) hw hstate io htask)
      | worker i => exact Or.inr ⟨_, rfl, rfl⟩
    · exact Or.inr ⟨_, rfl, rfl⟩
    · rename_i hcall
      exact absurd ⟨Or.inl hcall, hstate⟩ hrevives
    · rename_i hcall
      exact absurd ⟨Or.inr hcall, hstate⟩ hrevives
  | user a => exact absurd ha (by simp [Action.isCallOrTask])

/-! ## Disturbing steps are not -/

/-- `shutdown()` on a closed connection fails its assertion. -/
theorem step_callsShutdown {w : World} {a : Action} (hstate : w.conn.state = .kDisconnected)
    (h : w.CallsShutdown a) : w.step a = .abort (.assertion .shutdown) := by
  cases a with
  | call t c =>
    cases c with
    | shutdown =>
      have huser : w.InUserCode t := h
      rw [step, if_pos huser, callStep, require_error (by rw [hstate]; decide)]
      rfl
    | send data => exact absurd h id
    | forceClose => exact absurd h id
    | stopRead => exact absurd h id
    | startRead => exact absurd h id
  | loop a => exact absurd h id
  | resume t io => exact absurd h id
  | user a => exact absurd h id

/-- The closure of `startRead` puts a descriptor that is not in the epoll set
into it. -/
theorem step_runs_startRead {w : World} {a : Action} (hchannel : w.conn.channel = Channel.new)
    (h : w.Runs (.task .startRead) a) :
    ∃ v, w.step a = .next v ∧ v.conn.channel ≠ Channel.new := by
  obtain ⟨io, hjob⟩ := runs_iff.mp h
  obtain ⟨channel, henable⟩ : ∃ channel, Channel.new.enableRead = .ok channel :=
    ⟨_, Channel.orEvents_eq (by decide) _⟩
  have hrun : w.conn.execute io (.task .startRead) =
      .ok ({ w.conn with channel := channel }, []) := by
    rw [Connection.execute, Connection.startReadInLoop, hchannel,
      if_pos (by decide), henable, ok_bind]
  obtain ⟨v, hv, hconn, _⟩ := step_of_execute hjob hrun
  refine ⟨v, hv, fun hnew => ?_⟩
  rw [hconn] at hnew
  have hreading : channel.isReading = true := Channel.isReading_enableRead henable
  have hnot : channel.isReading = Channel.new.isReading := congrArg Channel.isReading hnew
  rw [hreading] at hnot
  exact absurd hnot (by decide)

/-- A step that runs a closure is not a callback of the channel. -/
theorem isCallOrTask_of_runs {w : World} {task : Task} {a : Action}
    (h : w.Runs (.task task) a) : a.isCallOrTask = true := by
  obtain ⟨io, hjob⟩ := runs_iff.mp h
  cases jobFrom_of_jobOf hjob with
  | queue queued rest hidle hphase hbatch => rfl
  | call called hcall => rfl

/-- While a closed connection is out of the epoll set, a step is inert unless
it is disturbing. -/
theorem inert_iff {w : World} (hw : w.Unregistered) (a : Action) :
    w.Inert a ↔ ¬ w.Disturbs a := by
  constructor
  · rintro hinert ⟨hstate, hdisturbs⟩
    rcases hdisturbs with hshutdown | hrevives | hstart
    · have ha : a.isCallOrTask = true := by
        cases a <;> first | rfl | exact absurd hshutdown id
      obtain ⟨hstops, _⟩ := hinert hstate ha
      exact Outcome.stops_iff.mp hstops _ (step_callsShutdown hstate hshutdown)
    · have hstays : w.StaysClosed a := by
        rw [StaysClosed, Outcome.leads_iff]
        intro v hv _
        have ha : a.isCallOrTask = true := by
          cases a <;> first | rfl | exact absurd hrevives id
        exact (Outcome.leads_iff.mp (hinert hstate ha).2 v hv).1
      exact (staysClosed_iff w a).mp hstays hrevives
    · obtain ⟨v, hv, hchannel⟩ := step_runs_startRead (hw hstate) hstart
      obtain ⟨_, hleads⟩ := hinert hstate (isCallOrTask_of_runs hstart)
      exact hchannel (Outcome.leads_iff.mp hleads v hv).2.1
  · intro hgood hstate ha
    rcases same_conn_of_not_disturbs hw hstate ha hgood with hstep | ⟨v, hstep, hconn⟩
    · rw [hstep]
      exact ⟨trivial, trivial⟩
    · rw [hstep]
      refine ⟨trivial, ?_⟩
      rw [Outcome.Leads, hconn]
      exact ⟨hstate, hw hstate, rfl⟩

/-- **A closed connection is inert exactly when it is not disturbed.**  For
every run of one connection with any threads: the calls and tasks that find the
connection closed leave it closed and out of the epoll set, stop nothing and
make no system call, if and only if none of them is a `shutdown()`, an exchange
that falls behind the close, or the closure of `startRead`. -/
theorem inert_iff_not_disturbed (settings : Settings) (actions : List Action) :
    Along step Inert (start settings) actions ↔
      Along step (fun w a => ¬ w.Disturbs a) (start settings) actions :=
  along_iff_along (I := Unregistered) (fun h => by cases h)
    (fun _ _ _ hw hgood hstep => hw.step hgood hstep)
    (fun _ a hw => inert_iff hw a) actions

/-- The peer hangs up, the loop closes the connection, and later a thread that
was throttling the connection calls `startRead()`. -/
def startReadAfterClose : List Action :=
  [.loop .swap, .loop .endRound, .loop (.poll epollHup),
    .loop (.handleEvents ⟨.fail 0, .fail 0⟩), .call (.worker 0) .startRead,
    .resume (.worker 0) ⟨.fail 0, .fail 0⟩, .loop .swap,
    .loop (.runTask ⟨.fail 0, .fail 0⟩)]

/-- The same with `shutdown()` instead. -/
def shutdownAfterClose : List Action :=
  [.loop .swap, .loop .endRound, .loop (.poll epollHup),
    .loop (.handleEvents ⟨.fail 0, .fail 0⟩), .call (.worker 0) .shutdown]

/-- The closure of `startRead` is not inert, nor is `shutdown()`: its assertion
ends the process. -/
theorem not_inert_afterClose :
    ¬ Along step Inert (start ⟨false, true, false, 0⟩) startReadAfterClose ∧
      ¬ Along step Inert (start ⟨false, true, false, 0⟩) shutdownAfterClose := by
  decide +kernel

end World

end CppWeb.Tcp
