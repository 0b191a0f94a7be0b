/-
  Tcp/OnLoop.lean --- a connection that only its loop thread uses.

  The owners of connections (a server, a client) run handlers and closures of
  a connection, and user code on the loop thread calls its public functions.
  There `runInLoop` runs the closure at once, and nothing comes between the
  test of `m_state` and its exchange, so a call is one function too.  All an
  owner needs to know of either is whether the connection was open before and
  is after, and whether the close callback was run.
-/
import CppWeb.Tcp.World

set_option autoImplicit false

namespace CppWeb.Tcp

open CppWeb.Foundation CppWeb.Loop CppWeb.Poll

namespace Connection

/-- The store of `stateAtomicGetAndSet(kDisconnecting)`. -/
def disconnecting (c : Connection) : Connection := { c with state := .kDisconnecting }

/-- `TCPConnection::forceClose`, on the loop thread. -/
def forceClose (c : Connection) : Connection × List Task :=
  if c.state ≠ .kDisconnected then (c.disconnecting, [.forceCloseInLoop]) else (c, [])

/-- A public function, called on the loop thread. -/
def call (c : Connection) (io : Io) : PublicCall → Except Abort (Connection × List Task)
  | .send data =>
      if c.state ≠ .kConnected then .ok (c, [])
      else c.execute io (.task (.sendInLoop ⟨.loop, 0, data⟩))
  | .shutdown => do
      require .shutdown (c.state.toNat ≤ ConnectionState.kDisconnecting.toNat)
      if c.state = .kConnected then c.disconnecting.execute io (.task .shutdownInLoop)
      else .ok (c.disconnecting, [])
  | .forceClose => .ok c.forceClose
  | .stopRead => c.execute io (.task .stopRead)
  | .startRead => c.execute io (.task .startRead)

/-- The connection has not been closed. -/
def IsOpen (c : Connection) : Prop := c.state ≠ .kDisconnected

instance (c : Connection) : Decidable c.IsOpen := inferInstanceAs (Decidable (_ ≠ _))

theorem isOpen_established (settings : Settings) : (established settings).IsOpen :=
  ConnectionState.noConfusion

/-- What a handler, a closure or a call does to a connection, as its owner sees
it. -/
inductive Change (c d : Connection) : Prop where
  /-- open before and after -/
  | stays (hc : c.IsOpen) (hd : d.IsOpen) (hsettings : d.settings = c.settings)
      (hcallbacks : d.closeCallbacks = c.closeCallbacks)
  /-- closed before and after -/
  | closed (hc : ¬ c.IsOpen) (hd : ¬ d.IsOpen) (hsettings : d.settings = c.settings)
      (hcallbacks : d.closeCallbacks = c.closeCallbacks)
  /-- closed now, with the close callback if there is one -/
  | closes (hc : c.IsOpen) (hd : ¬ d.IsOpen) (hsettings : d.settings = c.settings)
      (hcallbacks : d.closeCallbacks =
        if c.settings.closeCallback then c.closeCallbacks + 1 else c.closeCallbacks)

/-- Nothing the owner sees. -/
theorem Change.of_eq {c d : Connection} (hstate : d.state = c.state)
    (hsettings : d.settings = c.settings) (hcallbacks : d.closeCallbacks = c.closeCallbacks) :
    Change c d := by
  by_cases hopen : c.IsOpen
  · refine .stays hopen ?_ hsettings hcallbacks
    rw [IsOpen, hstate]
    exact hopen
  · refine .closed hopen ?_ hsettings hcallbacks
    rw [IsOpen, hstate]
    exact hopen

/-- The body of `handleClose`. -/
theorem Change.of_closed {c : Connection} (hopen : c.IsOpen) : Change c c.closed :=
  .closes hopen (fun h => h rfl) rfl rfl

theorem isOpen_of_connected {c : Connection}
    (h : c.state = .kConnected ∨ c.state = .kDisconnecting) : c.IsOpen := by
  rw [IsOpen]
  rcases h with h | h <;> rw [h] <;> decide

/-- A handler or closure. -/
theorem Executed.change {c : Connection} {io : Io} {job : Job} {r : Connection × List Task}
    (h : Executed c io job r) : Change c r.1 := by
  cases h with
  | close hstate => exact .of_closed (isOpen_of_connected hstate)
  | error => exact .of_eq rfl rfl rfl
  | read h =>
    cases h with
    | failed hstate => exact .of_eq rfl rfl rfl
    | closed n inputBuffer hstate hread => exact .closes hstate (fun h => h rfl) rfl rfl
    | data n inputBuffer hstate hread => exact .of_eq rfl rfl rfl
  | write h => cases h <;> exact .of_eq rfl rfl rfl
  | send message h => cases h <;> exact .of_eq rfl rfl rfl
  | shutdown =>
    rw [shutdownInLoop]
    split <;> exact .of_eq rfl rfl rfl
  | forceClose hstate => exact .of_closed (isOpen_of_connected hstate)
  | forceCloseSkipped hstate => exact .of_eq rfl rfl rfl
  | stopRead channel hreading hchannel => exact .of_eq rfl rfl rfl
  | stopReadSkipped hreading => exact .of_eq rfl rfl rfl
  | startRead channel hreading hchannel => exact .of_eq rfl rfl rfl
  | startReadSkipped hreading => exact .of_eq rfl rfl rfl
  | writeCompleteCallback => exact .of_eq rfl rfl rfl
  | highWaterMarkCallback len => exact .of_eq rfl rfl rfl

/-- A closure other than `forceCloseInLoop` closes nothing. -/
theorem Executed.state_of_task {c : Connection} {io : Io} {task : Task}
    {r : Connection × List Task} (h : Executed c io (.task task) r)
    (htask : task ≠ .forceCloseInLoop) :
    r.1.state = c.state ∧ r.1.settings = c.settings ∧ r.1.closeCallbacks = c.closeCallbacks := by
  cases h with
  | send message h => cases h <;> exact ⟨rfl, rfl, rfl⟩
  | shutdown =>
    rw [shutdownInLoop]
    split <;> exact ⟨rfl, rfl, rfl⟩
  | forceClose hstate => exact absurd rfl htask
  | forceCloseSkipped hstate => exact ⟨rfl, rfl, rfl⟩
  | stopRead channel hreading hchannel => exact ⟨rfl, rfl, rfl⟩
  | stopReadSkipped hreading => exact ⟨rfl, rfl, rfl⟩
  | startRead channel hreading hchannel => exact ⟨rfl, rfl, rfl⟩
  | startReadSkipped hreading => exact ⟨rfl, rfl, rfl⟩
  | writeCompleteCallback => exact ⟨rfl, rfl, rfl⟩
  | highWaterMarkCallback len => exact ⟨rfl, rfl, rfl⟩

/-- A call leaves an open connection open and a closed one closed. -/
structure CallEffect (c d : Connection) : Prop where
  isOpen : d.IsOpen ↔ c.IsOpen
  settings : d.settings = c.settings
  closeCallbacks : d.closeCallbacks = c.closeCallbacks

theorem CallEffect.of_task {c : Connection} {io : Io} {task : Task} {r : Connection × List Task}
    (h : c.execute io (.task task) = .ok r) (htask : task ≠ .forceCloseInLoop) :
    CallEffect c r.1 := by
  obtain ⟨hstate, hsettings, hcallbacks⟩ := (execute_cases h).state_of_task htask
  refine ⟨?_, hsettings, hcallbacks⟩
  rw [IsOpen, hstate]
  rfl

theorem callEffect_disconnecting {c : Connection} (hopen : c.IsOpen) :
    CallEffect c c.disconnecting :=
  ⟨iff_of_true ConnectionState.noConfusion hopen, rfl, rfl⟩

theorem forceClose_effect (c : Connection) : CallEffect c c.forceClose.1 := by
  rw [forceClose]
  split
  · rename_i hopen
    exact callEffect_disconnecting hopen
  · exact ⟨Iff.rfl, rfl, rfl⟩

theorem isOpen_of_toNat {c : Connection}
    (h : c.state.toNat ≤ ConnectionState.kDisconnecting.toNat) : c.IsOpen := by
  intro hstate
  rw [hstate] at h
  exact absurd h (by decide)

theorem call_effect {c : Connection} {io : Io} {f : PublicCall} {r : Connection × List Task}
    (h : c.call io f = .ok r) : CallEffect c r.1 := by
  cases f with
  | send data =>
    rw [call] at h
    split at h
    · cases h
      exact ⟨Iff.rfl, rfl, rfl⟩
    · exact .of_task h Task.noConfusion
  | shutdown =>
    rw [call, bind_eq_ok] at h
    obtain ⟨_, hstate, h⟩ := h
    have hopen := isOpen_of_toNat (require_eq_ok.mp hstate)
    split at h
    · have hdone := CallEffect.of_task h Task.noConfusion
      have hfirst := callEffect_disconnecting hopen
      exact ⟨hdone.isOpen.trans hfirst.isOpen, hdone.settings.trans hfirst.settings,
        hdone.closeCallbacks.trans hfirst.closeCallbacks⟩
    · cases h
      exact callEffect_disconnecting hopen
  | forceClose =>
    cases h
    exact forceClose_effect c
  | stopRead =>
    rw [call] at h
    exact .of_task h Task.noConfusion
  | startRead =>
    rw [call] at h
    exact .of_task h Task.noConfusion

/-- The closure is a call of a callback of the user. -/
def Job.notifies : Job → Bool
  | .task .writeCompleteCallback => true
  | .task (.highWaterMarkCallback _) => true
  | _ => false

/-- The message callback is due: `handleRead` has read something. -/
def reads (c : Connection) (io : Io) : Job → Bool
  | .callback .read =>
      match c.inputBuffer.readFd io.read with
      | .ok (n, _) => n != -1 && n != 0
      | .error _ => false
  | _ => false

/-- A connection is open before and after a read that delivers a message. -/
theorem isOpen_of_reads {c : Connection} {io : Io} {job : Job} {r : Connection × List Task}
    (h : c.execute io job = .ok r) (hreads : c.reads io job = true) :
    c.IsOpen ∧ r.1.IsOpen ∧ r.1.settings = c.settings ∧
      r.1.closeCallbacks = c.closeCallbacks := by
  cases job with
  | task task => cases hreads
  | callback cb =>
    cases cb with
    | close => cases hreads
    | error => cases hreads
    | write => cases hreads
    | read =>
      rw [execute, handleRead, bind_eq_ok] at h
      obtain ⟨_, hopen, h⟩ := h
      rw [require_eq_ok] at hopen
      rw [bind_eq_ok] at h
      obtain ⟨⟨n, inputBuffer⟩, hread, h⟩ := h
      rw [reads, hread] at hreads
      obtain ⟨hfailed, hend⟩ : n ≠ -1 ∧ n ≠ 0 := by simpa using hreads
      dsimp only at h
      rw [if_neg hfailed, if_neg hend] at h
      cases h
      exact ⟨hopen, hopen, rfl, rfl⟩

end Connection

end CppWeb.Tcp
