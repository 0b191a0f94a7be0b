/-
  Tcp/World.lean --- one connection, its loop, and every thread that uses it.

  The loop thread polls, runs the callbacks of the connection's channel, swaps
  the pending tasks out and runs them.  Any thread calls the public functions
  of the connection; the loop thread does so from user code, which it runs
  between two callbacks or two tasks (the message and close callbacks are the
  last thing their callers do).  A step is what one thread does up to its next
  access to `m_state`, `m_pendingTasks` or the loop: `shutdown()` for instance
  is a read of `m_state`, an exchange of it, and handing `shutdownInLoop` to
  the loop, and every other thread can get in between.

  A handler or closure is one step.  It runs on the loop thread, which alone
  uses the channel and the buffers and alone stores `kDisconnected`; of
  `m_state` other threads only make `kDisconnecting`, and a handler that has
  seen the connection open behaves the same whether that exchange comes before
  it or in the middle.

  Two histories are kept of the messages: in which order they were handed to
  the loop and in which order their `sendInLoop` ran.
-/
import CppWeb.Tcp.Effect

set_option autoImplicit false

namespace CppWeb.Tcp

open CppWeb.Foundation CppWeb.Loop CppWeb.Poll

/-! ## State -/

/-- Where the loop thread is. -/
inductive Phase where
  /-- in `epoll_wait` -/
  | polling
  /-- handling events; the callbacks of this connection still to be called -/
  | dispatch (todo : List Callback)
  /-- running the tasks of the batch -/
  | tasks
  deriving DecidableEq, Repr

/-- How far a thread is in a call of a public function of the connection. -/
inductive Progress where
  | idle
  /-- about to call `runInLoop` -/
  | handing (task : Task)
  /-- about to call `queueInLoop` -/
  | queueing (task : Task)
  /-- in `shutdown`, between the assertion and the exchange -/
  | shutdownChecked
  /-- in `forceClose`, between the test and the exchange -/
  | forceCloseChecked
  deriving DecidableEq, Repr

/-- The connection, the task queue of its loop, where every thread is, how many
calls of `send` each thread has made, and the histories. -/
structure World where
  conn : Connection
  queue : BatchQueue Task
  phase : Phase
  calls : Thread → Progress
  issued : Thread → Nat
  handed : List Message
  ran : List Message
  shutdownHanded : Bool
  shutdownRan : Bool

/-- The public functions. -/
inductive PublicCall where
  | send (data : Bytes)
  | shutdown
  | forceClose
  | stopRead
  | startRead
  deriving DecidableEq, Repr

/-- What the loop does on its own. -/
inductive RoundAction where
  | poll (revents : Mask)
  | handleEvents (io : Io)
  | swap
  | runTask (io : Io)
  | endRound

/-- What else user code on the loop thread does with a connection: consume
input, as a message callback does, and set callbacks. -/
inductive UserAction where
  | retrieve (len : Nat)
  | set (settings : Settings)

inductive Action where
  | loop (a : RoundAction)
  | call (t : Thread) (c : PublicCall)
  | resume (t : Thread) (io : Io)
  | user (a : UserAction)

/-! ## Steps -/

/-- The message of a `sendInLoop` closure. -/
def Task.messages : Task → List Message
  | .sendInLoop message => [message]
  | _ => []

/-- The message whose `sendInLoop` runs while the connection is not closed. -/
def Connection.Job.accepted (state : ConnectionState) : Connection.Job → List Message
  | .task closure => if state = .kDisconnected then [] else closure.messages
  | .callback _ => []

namespace World

/-- The state after a job that ended with `r`. -/
def after (w : World) (job : Connection.Job) (r : Connection × List Task) : World :=
  { w with
    conn := r.1
    queue := w.queue.pushAll r.2
    ran := w.ran ++ job.accepted w.conn.state
    shutdownRan := w.shutdownRan || job == .task .shutdownInLoop }

/-- The loop thread runs a job. -/
def runJob (w : World) (io : Io) (job : Connection.Job) : Outcome Abort World :=
  Outcome.ofExcept do
    let r ← w.conn.execute io job
    .ok (w.after job r)

/-- `EventLoop::queueInLoop` -/
def queueInLoop (w : World) (task : Task) : World :=
  { w with queue := w.queue.push task }

/-- `EventLoop::runInLoop` -/
def runInLoop (w : World) (t : Thread) (io : Io) (task : Task) : Outcome Abort World :=
  match t with
  | .loop => w.runJob io (.task task)
  | .worker _ => .next (w.queueInLoop task)

/-- The thread goes on to another point of its call. -/
def goto (w : World) (t : Thread) (progress : Progress) : World :=
  { w with calls := Function.update w.calls t progress }

/-- A closure leaves its call: the histories of what was handed over. -/
def handOver (w : World) (task : Task) : World :=
  { w with
    handed := w.handed ++ task.messages
    shutdownHanded := w.shutdownHanded || task == .shutdownInLoop }

/-- The store of `stateAtomicGetAndSet`. -/
def setState (w : World) (state : ConnectionState) : World :=
  { w with conn := { w.conn with state := state } }

/-- One step of the loop. -/
def roundStep (w : World) : RoundAction → Outcome Abort World
  | .poll revents =>
      if w.phase = .polling then
        .next { w with phase := .dispatch (handleEventsWithGuard revents) }
      else .disabled
  | .handleEvents io =>
      match w.phase with
      | .dispatch (cb :: rest) => { w with phase := .dispatch rest }.runJob io (.callback cb)
      | _ => .disabled
  | .swap =>
      if w.phase = .dispatch [] then .next { w with queue := w.queue.swap, phase := .tasks }
      else .disabled
  | .runTask io =>
      match w.phase, w.queue.batch with
      | .tasks, task :: _ => { w with queue := w.queue.advance }.runJob io (.task task)
      | _, _ => .disabled
  | .endRound =>
      if w.phase = .tasks ∧ w.queue.batch = [] then .next { w with phase := .polling }
      else .disabled

/-- The first step of a public function, up to its first access to `m_state`. -/
def callStep (w : World) (t : Thread) : PublicCall → Outcome Abort World
  | .send data =>
      if w.conn.state ≠ .kConnected then .next w
      else
        .next { w.goto t (.handing (.sendInLoop ⟨t, w.issued t, data⟩)) with
          issued := Function.update w.issued t (w.issued t + 1) }
  | .shutdown =>
      Outcome.ofExcept do
        require .shutdown (w.conn.state.toNat ≤ ConnectionState.kDisconnecting.toNat)
        .ok (w.goto t .shutdownChecked)
  | .forceClose =>
      if w.conn.state ≠ .kDisconnected then .next (w.goto t .forceCloseChecked) else .next w
  | .stopRead => .next (w.goto t (.handing .stopRead))
  | .startRead => .next (w.goto t (.handing .startRead))

/-- A later step of a public function. -/
def resumeStep (w : World) (t : Thread) (io : Io) : Outcome Abort World :=
  match w.calls t with
  | .idle => .disabled
  | .handing task => ((w.goto t .idle).handOver task).runInLoop t io task
  | .queueing task => .next (((w.goto t .idle).handOver task).queueInLoop task)
  | .shutdownChecked =>
      -- stateAtomicGetAndSet(kDisconnecting) == kConnected
      if w.conn.state = .kConnected then
        .next ((w.setState .kDisconnecting).goto t (.handing .shutdownInLoop))
      else .next ((w.setState .kDisconnecting).goto t .idle)
  | .forceCloseChecked =>
      -- stateAtomicGetAndSet(kDisconnecting) != kDisconnected
      if w.conn.state ≠ .kDisconnected then
        .next ((w.setState .kDisconnecting).goto t (.queueing .forceCloseInLoop))
      else .next ((w.setState .kDisconnecting).goto t .idle)

/-- User code on the loop thread. -/
def userStep (w : World) : UserAction → Outcome Abort World
  | .retrieve len =>
      Outcome.ofExcept do
        let inputBuffer ← w.conn.inputBuffer.retrieve len
        .ok { w with conn := { w.conn with inputBuffer := inputBuffer } }
  | .set settings => .next { w with conn := { w.conn with settings := settings } }

/-- The thread is in no call and runs user code: the loop thread does between
callbacks or tasks, any other thread always. -/
def InUserCode (w : World) (t : Thread) : Prop :=
  w.calls t = .idle ∧ (t = .loop → w.phase ≠ .polling)

instance (w : World) (t : Thread) : Decidable (w.InUserCode t) :=
  inferInstanceAs (Decidable (_ ∧ (_ → _)))

/-- One step of one thread.  The loop goes on only when its thread is in no
call. -/
def step (w : World) : Action → Outcome Abort World
  | .loop a => if w.calls .loop = .idle then w.roundStep a else .disabled
  | .call t c => if w.InUserCode t then w.callStep t c else .disabled
  | .resume t io => w.resumeStep t io
  | .user a => if w.InUserCode .loop then w.userStep a else .disabled

end World

/-! ## The established connection -/

/-- `m_inputBuffer` and `m_outputBuffer` as constructed. -/
def Connection.freshBuffer : Buffer :=
  { buffer := List.replicate (Buffer.kCheapPrepend + Buffer.kInitialSize) 0
    readerIndex := Buffer.kCheapPrepend
    writerIndex := Buffer.kCheapPrepend }

/-- A connection right after `connectEstablished`. -/
def Connection.established (settings : Settings) : Connection :=
  { settings := settings
    state := .kConnected
    channel :=
      { events := epollIn ||| epollPri
        polling := true
        interest := some (epollIn ||| epollPri) }
    inputBuffer := freshBuffer
    outputBuffer := freshBuffer
    syscalls := []
    closes := 0
    closeCallbacks := 0 }

/-- Constructing and establishing a connection never fails. -/
theorem Connection.connectEstablished_new (settings : Settings) :
    (do let c ← Connection.new settings; c.connectEstablished) =
      .ok (Connection.established settings) := by
  rw [Connection.new, Buffer.new_of_le Buffer.kInitialSize_le]
  simp only [ok_bind, Connection.connectEstablished, require_ok]
  rw [Channel.enableRead, Channel.orEvents_eq (by decide)]
  rfl

theorem Connection.wf_freshBuffer : Connection.freshBuffer.WF :=
  Buffer.wf_new Buffer.kInitialSize_le

theorem Connection.content_freshBuffer : Connection.freshBuffer.content = [] :=
  Buffer.content_new

/-- The start of every run: the loop thread has just established the
connection, inside the handler that accepted or connected the socket. -/
def World.start (settings : Settings) : World :=
  { conn := Connection.established settings
    queue := BatchQueue.empty
    phase := .dispatch []
    calls := fun _ => .idle
    issued := fun _ => 0
    handed := []
    ran := []
    shutdownHanded := false
    shutdownRan := false }

/-! ## Steps, one by one -/

namespace World

@[simp] theorem calls_goto_self (w : World) (t : Thread) (progress : Progress) :
    (w.goto t progress).calls t = progress := by
  simp [goto]

theorem calls_goto_of_ne (w : World) {t t' : Thread} (h : t' ≠ t) (progress : Progress) :
    (w.goto t progress).calls t' = w.calls t' := by
  simp [goto, h]

/-- What one step can do: its guards and the state it leads to. -/
inductive Stepped (w : World) : Action → World → Prop where
  | poll (revents : Mask) (hphase : w.phase = .polling) :
      Stepped w (.loop (.poll revents))
        { w with phase := .dispatch (handleEventsWithGuard revents) }
  | handleEvents (cb : Callback) (rest : List Callback) (io : Io) (r : Connection × List Task)
      (hidle : w.calls .loop = .idle) (hphase : w.phase = .dispatch (cb :: rest))
      (hrun : w.conn.execute io (.callback cb) = .ok r) :
      Stepped w (.loop (.handleEvents io))
        ({ w with phase := .dispatch rest }.after (.callback cb) r)
  | swap (hphase : w.phase = .dispatch []) :
      Stepped w (.loop .swap) { w with queue := w.queue.swap, phase := .tasks }
  | runTask (task : Task) (rest : List Task) (io : Io) (r : Connection × List Task)
      (hidle : w.calls .loop = .idle) (hphase : w.phase = .tasks)
      (hbatch : w.queue.batch = task :: rest)
      (hrun : w.conn.execute io (.task task) = .ok r) :
      Stepped w (.loop (.runTask io)) ({ w with queue := w.queue.advance }.after (.task task) r)
  | endRound (hphase : w.phase = .tasks) (hbatch : w.queue.batch = []) :
      Stepped w (.loop .endRound) { w with phase := .polling }
  | sendRefused (t : Thread) (data : Bytes) (hstate : w.conn.state ≠ .kConnected) :
      Stepped w (.call t (.send data)) w
  | send (t : Thread) (data : Bytes) (huser : w.InUserCode t)
      (hstate : w.conn.state = .kConnected) :
      Stepped w (.call t (.send data))
        { w.goto t (.handing (.sendInLoop ⟨t, w.issued t, data⟩)) with
          issued := Function.update w.issued t (w.issued t + 1) }
  | shutdown (t : Thread) (huser : w.InUserCode t) (hstate : w.conn.state ≠ .kDisconnected) :
      Stepped w (.call t .shutdown) (w.goto t .shutdownChecked)
  | forceClose (t : Thread) (huser : w.InUserCode t)
      (hstate : w.conn.state ≠ .kDisconnected) :
      Stepped w (.call t .forceClose) (w.goto t .forceCloseChecked)
  | forceCloseRefused (t : Thread) (hstate : w.conn.state = .kDisconnected) :
      Stepped w (.call t .forceClose) w
  | stopRead (t : Thread) (huser : w.InUserCode t) :
      Stepped w (.call t .stopRead) (w.goto t (.handing .stopRead))
  | startRead (t : Thread) (huser : w.InUserCode t) :
      Stepped w (.call t .startRead) (w.goto t (.handing .startRead))
  | runHere (task : Task) (io : Io) (r : Connection × List Task)
      (hcall : w.calls .loop = .handing task)
      (hrun : w.conn.execute io (.task task) = .ok r) :
      Stepped w (.resume .loop io) (((w.goto .loop .idle).handOver task).after (.task task) r)
  | queueHere (i : Nat) (task : Task) (io : Io) (hcall : w.calls (.worker i) = .handing task) :
      Stepped w (.resume (.worker i) io)
        (((w.goto (.worker i) .idle).handOver task).queueInLoop task)
  | queue (t : Thread) (task : Task) (io : Io) (hcall : w.calls t = .queueing task) :
      Stepped w (.resume t io) (((w.goto t .idle).handOver task).queueInLoop task)
  | shutdownMoved (t : Thread) (io : Io) (hcall : w.calls t = .shutdownChecked)
      (hstate : w.conn.state = .kConnected) :
      Stepped w (.resume t io)
        ((w.setState .kDisconnecting).goto t (.handing .shutdownInLoop))
  | shutdownLate (t : Thread) (io : Io) (hcall : w.calls t = .shutdownChecked)
      (hstate : w.conn.state ≠ .kConnected) :
      Stepped w (.resume t io) ((w.setState .kDisconnecting).goto t .idle)
  | forceCloseMoved (t : Thread) (io : Io) (hcall : w.calls t = .forceCloseChecked)
      (hstate : w.conn.state ≠ .kDisconnected) :
      Stepped w (.resume t io)
        ((w.setState .kDisconnecting).goto t (.queueing .forceCloseInLoop))
  | forceCloseLate (t : Thread) (io : Io) (hcall : w.calls t = .forceCloseChecked)
      (hstate : w.conn.state = .kDisconnected) :
      Stepped w (.resume t io) ((w.setState .kDisconnecting).goto t .idle)
  | retrieve (len : Nat) (inputBuffer : Buffer)
      (hretrieve : w.conn.inputBuffer.retrieve len = .ok inputBuffer) :
      Stepped w (.user (.retrieve len))
        { w with conn := { w.conn with inputBuffer := inputBuffer } }
  | set (settings : Settings) :
      Stepped w (.user (.set settings))
        { w with conn := { w.conn with settings := settings } }

theorem runJob_eq_next {w v : World} {io : Io} {job : Connection.Job} :
    w.runJob io job = .next v ↔ ∃ r, w.conn.execute io job = .ok r ∧ v = w.after job r := by
  rw [runJob, Outcome.ofExcept_eq_next, bind_eq_ok]
  constructor
  · rintro ⟨r, hr, h⟩
    rw [Except.ok.injEq] at h
    exact ⟨r, hr, h.symm⟩
  · rintro ⟨r, hr, rfl⟩
    exact ⟨r, hr, rfl⟩

theorem runJob_eq_abort {w : World} {io : Io} {job : Connection.Job} {e : Abort} :
    w.runJob io job = .abort e ↔ w.conn.execute io job = .error e := by
  rw [runJob, Outcome.ofExcept_eq_abort, bind_eq_error]
  constructor
  · rintro (h | ⟨r, _, h⟩)
    · exact h
    · cases h
  · exact Or.inl

theorem roundStep_cases {w v : World} {a : RoundAction} (hidle : w.calls .loop = .idle)
    (h : w.roundStep a = .next v) : Stepped w (.loop a) v := by
  cases a with
  | poll revents =>
    obtain ⟨hphase, rfl⟩ := Outcome.ite_next_eq_next.mp h
    exact .poll revents hphase
  | handleEvents io =>
    rw [roundStep] at h
    split at h
    · rename_i cb rest hphase
      obtain ⟨r, hrun, rfl⟩ := runJob_eq_next.mp h
      exact .handleEvents cb rest io r hidle hphase hrun
    · cases h
  | swap =>
    obtain ⟨hphase, rfl⟩ := Outcome.ite_next_eq_next.mp h
    exact .swap hphase
  | runTask io =>
    rw [roundStep] at h
    split at h
    · rename_i task rest hphase hbatch
      obtain ⟨r, hrun, rfl⟩ := runJob_eq_next.mp h
      exact .runTask task rest io r hidle hphase hbatch hrun
    · cases h
  | endRound =>
    obtain ⟨hphase, rfl⟩ := Outcome.ite_next_eq_next.mp h
    exact .endRound hphase.1 hphase.2

theorem callStep_cases {w v : World} {t : Thread} {c : PublicCall} (huser : w.InUserCode t)
    (h : w.callStep t c = .next v) : Stepped w (.call t c) v := by
  cases c with
  | send data =>
    rw [callStep] at h
    split at h
    · rename_i hstate
      cases h
      exact .sendRefused t data hstate
    · rename_i hstate
      cases h
      exact .send t data huser (not_not.mp hstate)
  | shutdown =>
    rw [callStep, Outcome.ofExcept_eq_next, bind_eq_ok] at h
    obtain ⟨_, hle, h⟩ := h
    rw [require_eq_ok] at hle
    rw [Except.ok.injEq] at h
    subst h
    refine .shutdown t huser ?_
    intro hstate
    rw [hstate] at hle
    exact absurd hle (by decide)
  | forceClose =>
    rw [callStep] at h
    split at h
    · rename_i hstate
      cases h
      exact .forceClose t huser hstate
    · rename_i hstate
      cases h
      exact .forceCloseRefused t (not_not.mp hstate)
  | stopRead =>
    cases h
    exact .stopRead t huser
  | startRead =>
    cases h
    exact .startRead t huser

theorem resumeStep_cases {w v : World} {t : Thread} {io : Io}
    (h : w.resumeStep t io = .next v) : Stepped w (.resume t io) v := by
  rw [resumeStep] at h
  split at h
  · cases h
  · rename_i task hcall
    cases t with
    | loop =>
      obtain ⟨r, hrun, rfl⟩ := runJob_eq_next.mp h
      exact .runHere task io r hcall hrun
    | worker i =>
      cases h
      exact .queueHere i task io hcall
  · rename_i task hcall
    cases h
    exact .queue t task io hcall
  · rename_i hcall
    split at h
    · rename_i hstate
      cases h
      exact .shutdownMoved t io hcall hstate
    · rename_i hstate
      cases h
      exact .shutdownLate t io hcall hstate
  · rename_i hcall
    split at h
    · rename_i hstate
      cases h
      exact .forceCloseMoved t io hcall hstate
    · rename_i hstate
      cases h
      exact .forceCloseLate t io hcall (not_not.mp hstate)

/-- **Inversion of a step.** -/
theorem step_cases {w v : World} {a : Action} (h : w.step a = .next v) : Stepped w a v := by
  cases a with
  | loop a =>
    obtain ⟨hidle, h⟩ := Outcome.ite_eq_next.mp h
    exact roundStep_cases hidle h
  | call t c =>
    obtain ⟨huser, h⟩ := Outcome.ite_eq_next.mp h
    exact callStep_cases huser h
  | resume t io => exact resumeStep_cases h
  | user a =>
    obtain ⟨_, h⟩ := Outcome.ite_eq_next.mp h
    cases a with
    | retrieve len =>
      rw [userStep, Outcome.ofExcept_eq_next, bind_eq_ok] at h
      obtain ⟨inputBuffer, hretrieve, h⟩ := h
      rw [Except.ok.injEq] at h
      subst h
      exact .retrieve len inputBuffer hretrieve
    | set settings =>
      cases h
      exact .set settings

/-! ## Steps, as the connection sees them -/

/-- The job that the step runs on the loop thread: a callback of the channel, a
task of the batch, or a closure that the loop thread hands over and so runs at
once. -/
def jobOf (w : World) : Action → Option (Connection.Job × Io)
  | .loop (.handleEvents io) =>
      match w.calls .loop, w.phase with
      | .idle, .dispatch (cb :: _) => some (.callback cb, io)
      | _, _ => none
  | .loop (.runTask io) =>
      match w.calls .loop, w.phase, w.queue.batch with
      | .idle, .tasks, task :: _ => some (.task task, io)
      | _, _, _ => none
  | .resume .loop io =>
      match w.calls .loop with
      | .handing task => some (.task task, io)
      | _ => none
  | _ => none

/-- The step runs this job. -/
def Runs (w : World) (job : Connection.Job) (a : Action) : Prop :=
  (w.jobOf a).map Prod.fst = some job

instance (w : World) (job : Connection.Job) (a : Action) : Decidable (w.Runs job a) :=
  inferInstanceAs (Decidable (_ = _))

theorem runs_iff {w : World} {job : Connection.Job} {a : Action} :
    w.Runs job a ↔ ∃ io, w.jobOf a = some (job, io) := by
  rw [Runs, Option.map_eq_some_iff]
  constructor
  · rintro ⟨⟨job', io⟩, h, rfl⟩
    exact ⟨io, h⟩
  · rintro ⟨io, h⟩
    exact ⟨(job, io), h, rfl⟩

/-- The thread's next step is the exchange of `shutdown` or `forceClose`. -/
def Exchanges (w : World) (t : Thread) : Prop :=
  w.calls t = .shutdownChecked ∨ w.calls t = .forceCloseChecked

instance (w : World) (t : Thread) : Decidable (w.Exchanges t) :=
  inferInstanceAs (Decidable (_ ∨ _))

/-- The step is an exchange of `m_state` by `shutdown` or `forceClose` that
comes after the connection was closed. -/
def Revives (w : World) : Action → Prop
  | .resume t _ => w.Exchanges t ∧ w.conn.state = .kDisconnected
  | .loop _ | .call .. | .user _ => False

instance (w : World) : ∀ a, Decidable (w.Revives a)
  | .resume _ _ => inferInstanceAs (Decidable (_ ∧ _))
  | .loop _ => isFalse id
  | .call .. => isFalse id
  | .user _ => isFalse id

/-- What a step does to the connection: it changes the input buffer or the
callbacks at most, or exchanges the state, or runs a job. -/
inductive ConnStep (w : World) (a : Action) (v : World) : Prop where
  | same (inputBuffer : Buffer) (settings : Settings)
      (hinput : inputBuffer = w.conn.inputBuffer ∨
        ∃ len, w.conn.inputBuffer.retrieve len = .ok inputBuffer)
      (hconn : v.conn = { w.conn with inputBuffer := inputBuffer, settings := settings })
      (hran : v.shutdownRan = w.shutdownRan)
  | exchange (t : Thread) (io : Io) (ha : a = .resume t io) (hcall : w.Exchanges t)
      (hconn : v.conn = { w.conn with state := .kDisconnecting })
      (hran : v.shutdownRan = w.shutdownRan)
  | job (job : Connection.Job) (io : Io) (r : Connection × List Task)
      (hjob : w.jobOf a = some (job, io)) (hrun : w.conn.execute io job = .ok r)
      (hconn : v.conn = r.1)
      (hran : v.shutdownRan = (w.shutdownRan || job == .task .shutdownInLoop))

theorem connStep_of_stepped {w v : World} {a : Action} (h : Stepped w a v) :
    ConnStep w a v := by
  cases h with
  | poll revents hphase => exact .same _ _ (Or.inl rfl) rfl rfl
  | handleEvents cb rest io r hidle hphase hrun =>
    exact .job (.callback cb) io r (by rw [jobOf, hidle, hphase]) hrun rfl rfl
  | swap hphase => exact .same _ _ (Or.inl rfl) rfl rfl
  | runTask task rest io r hidle hphase hbatch hrun =>
    exact .job (.task task) io r (by rw [jobOf, hidle, hphase, hbatch]) hrun rfl rfl
  | endRound hphase hbatch => exact .same _ _ (Or.inl rfl) rfl rfl
  | sendRefused t data hstate => exact .same _ _ (Or.inl rfl) rfl rfl
  | send t data huser hstate => exact .same _ _ (Or.inl rfl) rfl rfl
  | shutdown t huser hstate => exact .same _ _ (Or.inl rfl) rfl rfl
  | forceClose t huser hstate => exact .same _ _ (Or.inl rfl) rfl rfl
  | forceCloseRefused t hstate => exact .same _ _ (Or.inl rfl) rfl rfl
  | stopRead t huser => exact .same _ _ (Or.inl rfl) rfl rfl
  | startRead t huser => exact .same _ _ (Or.inl rfl) rfl rfl
  | runHere task io r hcall hrun =>
    exact .job (.task task) io r (by rw [jobOf, hcall]) hrun rfl rfl
  | queueHere i task io hcall => exact .same _ _ (Or.inl rfl) rfl rfl
  | queue t task io hcall => exact .same _ _ (Or.inl rfl) rfl rfl
  | shutdownMoved t io hcall hstate => exact .exchange t io rfl (Or.inl hcall) rfl rfl
  | shutdownLate t io hcall hstate => exact .exchange t io rfl (Or.inl hcall) rfl rfl
  | forceCloseMoved t io hcall hstate => exact .exchange t io rfl (Or.inr hcall) rfl rfl
  | forceCloseLate t io hcall hstate => exact .exchange t io rfl (Or.inr hcall) rfl rfl
  | retrieve len inputBuffer hretrieve =>
    exact .same _ _ (Or.inr ⟨len, hretrieve⟩) rfl rfl
  | set settings => exact .same _ _ (Or.inl rfl) rfl rfl

theorem connStep_of_step {w v : World} {a : Action} (h : w.step a = .next v) :
    ConnStep w a v :=
  connStep_of_stepped (step_cases h)

/-- What stops the program: a job, the assertion of `shutdown()`, or user code
that consumes more input than there is. -/
theorem step_eq_abort {w : World} {a : Action} {e : Abort} (h : w.step a = .abort e) :
    (∃ job io, w.jobOf a = some (job, io) ∧ w.conn.execute io job = .error e) ∨
      e = .assertion .shutdown ∨ e = .assertion .retrieve := by
  cases a with
  | loop a =>
    rw [step] at h
    split at h
    · rename_i hidle
      cases a with
      | handleEvents io =>
        rw [roundStep] at h
        split at h
        · rename_i cb rest hphase
          have herror := runJob_eq_abort.mp h
          exact Or.inl ⟨.callback cb, io, by rw [jobOf, hidle, hphase], herror⟩
        · cases h
      | runTask io =>
        rw [roundStep] at h
        split at h
        · rename_i task rest hphase hbatch
          have herror := runJob_eq_abort.mp h
          exact Or.inl ⟨.task task, io, by rw [jobOf, hidle, hphase, hbatch], herror⟩
        · cases h
      | poll revents => rw [roundStep] at h; split at h <;> cases h
      | swap => rw [roundStep] at h; split at h <;> cases h
      | endRound => rw [roundStep] at h; split at h <;> cases h
    · cases h
  | call t c =>
    rw [step] at h
    split at h
    · cases c with
      | shutdown =>
        rw [callStep, Outcome.ofExcept_eq_abort, bind_eq_error] at h
        rcases h with h | ⟨_, _, h⟩
        · refine Or.inr (Or.inl ?_)
          rw [require] at h
          split at h
          · cases h
          · exact (Except.error.inj h).symm
        · cases h
      | send data => rw [callStep] at h; split at h <;> cases h
      | forceClose => rw [callStep] at h; split at h <;> cases h
      | stopRead => cases h
      | startRead => cases h
    · cases h
  | resume t io =>
    rw [step, resumeStep] at h
    split at h
    · cases h
    · rename_i task hcall
      cases t with
      | loop =>
        have herror := runJob_eq_abort.mp h
        exact Or.inl ⟨.task task, io, by rw [jobOf, hcall], herror⟩
      | worker i => cases h
    · cases h
    · split at h <;> cases h
    · split at h <;> cases h
  | user a =>
    rw [step] at h
    split at h
    · cases a with
      | retrieve len =>
        rw [userStep, Outcome.ofExcept_eq_abort, bind_eq_error] at h
        rcases h with h | ⟨_, _, h⟩
        · refine Or.inr (Or.inr ?_)
          rw [Buffer.retrieve, bind_eq_error] at h
          rcases h with h | ⟨_, _, h⟩
          · rw [require] at h
            split at h
            · cases h
            · exact (Except.error.inj h).symm
          · split at h <;> cases h
        · cases h
      | set settings => cases h
    · cases h

/-! ## Steps, forwards -/

/-- Where the job of a step comes from: the channel, the queue of the loop, or
a call that the loop thread is in. -/
inductive JobFrom (w : World) (io : Io) : Action → Connection.Job → Prop where
  | channel (cb : Callback) (rest : List Callback) (hidle : w.calls .loop = .idle)
      (hphase : w.phase = .dispatch (cb :: rest)) :
      JobFrom w io (.loop (.handleEvents io)) (.callback cb)
  | queue (task : Task) (rest : List Task) (hidle : w.calls .loop = .idle)
      (hphase : w.phase = .tasks) (hbatch : w.queue.batch = task :: rest) :
      JobFrom w io (.loop (.runTask io)) (.task task)
  | call (task : Task) (hcall : w.calls .loop = .handing task) :
      JobFrom w io (.resume .loop io) (.task task)

theorem jobFrom_of_jobOf {w : World} {a : Action} {job : Connection.Job} {io : Io}
    (h : w.jobOf a = some (job, io)) : JobFrom w io a job := by
  unfold jobOf at h
  split at h
  · split at h
    · rename_i cb rest hidle hphase
      cases h
      exact .channel cb rest hidle hphase
    · cases h
  · split at h
    · rename_i task rest hidle hphase hbatch
      cases h
      exact .queue task rest hidle hphase hbatch
    · cases h
  · split at h
    · rename_i task hcall
      cases h
      exact .call task hcall
    · cases h
  · cases h

/-- A step that runs a job is that job in a state with the same connection. -/
theorem step_of_jobOf {w : World} {a : Action} {job : Connection.Job} {io : Io}
    (h : w.jobOf a = some (job, io)) :
    ∃ base : World, base.conn = w.conn ∧ base.shutdownRan = w.shutdownRan ∧
      w.step a = base.runJob io job := by
  cases jobFrom_of_jobOf h with
  | channel cb rest hidle hphase =>
    refine ⟨{ w with phase := .dispatch rest }, rfl, rfl, ?_⟩
    rw [step, if_pos hidle, roundStep, hphase]
  | queue task rest hidle hphase hbatch =>
    refine ⟨{ w with queue := w.queue.advance }, rfl, rfl, ?_⟩
    rw [step, if_pos hidle, roundStep, hphase, hbatch]
  | call task hcall =>
    refine ⟨(w.goto .loop .idle).handOver task, rfl, rfl, ?_⟩
    rw [step, resumeStep, hcall]
    rfl

/-- A job that ends leads to a next state. -/
theorem step_of_execute {w : World} {a : Action} {job : Connection.Job} {io : Io}
    (h : w.jobOf a = some (job, io)) {r : Connection × List Task}
    (hrun : w.conn.execute io job = .ok r) :
    ∃ v, w.step a = .next v ∧ v.conn = r.1 ∧
      v.shutdownRan = (w.shutdownRan || job == .task .shutdownInLoop) := by
  obtain ⟨base, hconn, hran, hstep⟩ := step_of_jobOf h
  rw [← hconn] at hrun
  refine ⟨base.after job r, hstep.trans (runJob_eq_next.mpr ⟨r, hrun, rfl⟩), rfl, ?_⟩
  rw [after, hran]

/-- The step of an exchange. -/
theorem step_of_exchanges {w : World} {t : Thread} (h : w.Exchanges t) (io : Io) :
    ∃ v, w.step (.resume t io) = .next v ∧
      v.conn = { w.conn with state := .kDisconnecting } ∧ v.shutdownRan = w.shutdownRan := by
  rw [step]
  rcases h with hcall | hcall
  · rw [resumeStep, hcall]
    dsimp only
    split
    · exact ⟨_, rfl, rfl, rfl⟩
    · exact ⟨_, rfl, rfl, rfl⟩
  · rw [resumeStep, hcall]
    dsimp only
    split
    · exact ⟨_, rfl, rfl, rfl⟩
    · exact ⟨_, rfl, rfl, rfl⟩

/-! ## What epoll reports -/

/-- `epoll_wait` reports for the descriptor only what is registered for it. -/
def Reported (w : World) : Action → Prop
  | .loop (.poll revents) => Reportable w.conn.channel.interest revents
  | _ => True

instance (w : World) : ∀ a, Decidable (w.Reported a)
  | .loop (.poll _) => inferInstanceAs (Decidable (Reportable _ _))
  | .loop (.handleEvents _) => isTrue trivial
  | .loop .swap => isTrue trivial
  | .loop (.runTask _) => isTrue trivial
  | .loop .endRound => isTrue trivial
  | .call .. => isTrue trivial
  | .resume .. => isTrue trivial
  | .user _ => isTrue trivial

/-- A step with a kernel that reports only what is registered. -/
def stepReported (w : World) (a : Action) : Outcome Abort World :=
  if w.Reported a then w.step a else .disabled

theorem stepReported_of_reported {w : World} {a : Action} (h : w.Reported a) :
    w.stepReported a = w.step a := if_pos h

theorem step_of_stepReported {w v : World} {a : Action} (h : w.stepReported a = .next v) :
    w.Reported a ∧ w.step a = .next v := by
  rw [stepReported] at h
  split at h
  · exact ⟨‹_›, h⟩
  · cases h

/-- Only what a poll reports is up to the kernel. -/
theorem reported_of_jobOf {w : World} {a : Action} {job : Connection.Job} {io : Io}
    (h : w.jobOf a = some (job, io)) : w.Reported a := by
  cases a with
  | loop a =>
    cases a with
    | poll revents => cases h
    | _ => trivial
  | _ => trivial

/-- The callbacks of the connection that are still to be called. -/
def todo (w : World) : List Callback :=
  match w.phase with
  | .dispatch todo => todo
  | .polling | .tasks => []

/-- What is to be called comes from the last poll. -/
theorem todo_of_step {w v : World} {a : Action} (h : w.step a = .next v) :
    (∃ revents, a = .loop (.poll revents) ∧ v.todo = handleEventsWithGuard revents ∧
      v.conn = w.conn) ∨ ∀ cb ∈ v.todo, cb ∈ w.todo := by
  cases step_cases h with
  | poll revents hphase => exact Or.inl ⟨revents, rfl, rfl, rfl⟩
  | handleEvents cb rest io r hidle hphase hrun =>
    refine Or.inr fun cb' hcb => ?_
    rw [todo, hphase]
    exact List.mem_cons_of_mem cb hcb
  | swap hphase => exact Or.inr fun cb hcb => absurd hcb List.not_mem_nil
  | endRound hphase hbatch => exact Or.inr fun cb hcb => absurd hcb List.not_mem_nil
  | _ => exact Or.inr fun cb hcb => hcb

end World

end CppWeb.Tcp
