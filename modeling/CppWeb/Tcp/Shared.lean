/-
  Tcp/Shared.lean --- connections that their owner shares with user code.

  A server or a client makes connections with `std::make_shared`, keeps a
  `shared_ptr` to each while it is open, and passes it to the callbacks of the
  user.  User code on the loop thread can use a connection in a callback that
  was given it, or if it has kept a `shared_ptr`; the closures queued for the
  loop keep one as well.

  A user's callback stands at the end of the handler or closure that calls it.
  It is entered in that step; what it does are steps of their own, and so is
  its return.  User code also runs on the loop thread at other times (timers,
  other channels, before and after the loop), so its steps are possible at any
  time.

  The connections of an owner are named by the order in which it made them.
  For each the model keeps which callbacks the user has seen, and in which state
  the connection was when they were called.
-/
import CppWeb.Foundation.Monitor
import CppWeb.Tcp.OnLoop

set_option autoImplicit false

namespace CppWeb.Tcp

open CppWeb.Foundation CppWeb.Poll

/-- A call of one of the user's callbacks, with the state of the connection at
that time. -/
inductive UserCallback where
  | connection (state : ConnectionState)
  | message
  deriving DecidableEq, Repr

/-- A connection of an owner. -/
structure Shared where
  conn : Connection
  /-- `m_messageCallback` of the connection is set -/
  messageCallback : Bool
  /-- the `shared_ptr`s that user code keeps -/
  userRefs : Nat
  /-- the destructor has run -/
  destroyed : Bool
  /-- the callbacks the user has seen -/
  log : List UserCallback
  deriving DecidableEq, Repr

/-- The connections that an owner has made, and their loop. -/
structure Connections where
  all : List Shared
  /-- the closures queued for the loop, with the connection each of them holds -/
  queue : BatchQueue (Nat × Task)
  /-- the connection that was passed to the user's callback that is running -/
  current : Option Nat
  deriving DecidableEq, Repr

/-- What user code does with connections. -/
inductive SharedAction where
  /-- calls a function of a connection -/
  | call (id : Nat) (io : Io) (f : PublicCall)
  /-- takes data out of `m_inputBuffer` -/
  | retrieve (id len : Nat)
  /-- sets callbacks of a connection, but not the close callback -/
  | setCallbacks (id : Nat) (settings : Settings) (messageCallback : Bool)
  /-- copies a `shared_ptr` -/
  | hold (id : Nat)
  /-- lets go of a `shared_ptr` -/
  | release (id : Nat)

namespace Connections

def empty : Connections := { all := [], queue := BatchQueue.empty, current := none }

/-! ## References -/

/-- A queued closure holds the connection. -/
def Queued (cs : Connections) (id : Nat) : Prop := ∃ entry ∈ cs.queue.toList, entry.1 = id

instance (cs : Connections) (id : Nat) : Decidable (cs.Queued id) :=
  inferInstanceAs (Decidable (∃ entry ∈ _, _))

/-- User code keeps a `shared_ptr` to the connection. -/
def UserHolds (cs : Connections) (id : Nat) : Prop :=
  ∃ shared ∈ cs.all[id]?, 0 < shared.userRefs

instance (cs : Connections) (id : Nat) : Decidable (cs.UserHolds id) :=
  inferInstanceAs (Decidable (∃ shared ∈ _, _))

/-- User code can use the connection. -/
def MayUse (cs : Connections) (id : Nat) : Prop := cs.current = some id ∨ cs.UserHolds id

instance (cs : Connections) (id : Nat) : Decidable (cs.MayUse id) :=
  inferInstanceAs (Decidable (_ ∨ _))

/-- The connection is there and has not been closed. -/
def Live (cs : Connections) (id : Nat) : Prop :=
  ∃ shared, cs.all[id]? = some shared ∧ shared.conn.state ≠ .kDisconnected

/-! ## Owners -/

/-- An owner makes a connection, calls the setters and `connectEstablished`, and
then the connection callback. -/
def make (cs : Connections) (connectionCallback messageCallback : Bool) (settings : Settings) :
    Except Abort Connections := do
  let made ← Connection.new settings
  let conn ← made.connectEstablished
  .ok { cs with
    all := cs.all ++ [{
      conn := conn
      messageCallback := messageCallback
      userRefs := 0
      destroyed := false
      log := if connectionCallback then [.connection conn.state] else [] }]
    current := if connectionCallback then some cs.all.length else none }

/-- A handler or closure has run the close callback. -/
def closeCallbackRan (shared : Shared) (conn : Connection) : Bool :=
  shared.conn.closeCallbacks < conn.closeCallbacks

/-- The callback of the user that a handler or closure ends with: the owner's
connection callback, which its close callback calls, or the message callback. -/
def callbackOf (connectionCallback : Bool) (shared : Shared) (io : Io) (job : Connection.Job)
    (conn : Connection) : Option UserCallback :=
  if closeCallbackRan shared conn then
    if connectionCallback then some (.connection conn.state) else none
  else if shared.messageCallback && shared.conn.reads io job then some .message
  else none

/-- A connection after a handler or closure. -/
def ranJob (connectionCallback : Bool) (shared : Shared) (io : Io) (job : Connection.Job)
    (conn : Connection) : Shared :=
  { shared with
    conn := conn
    log := shared.log ++ (callbackOf connectionCallback shared io job conn).toList }

/-- The connections after a handler or closure of one that ended with `r`. -/
def after (cs : Connections) (connectionCallback : Bool) (id : Nat) (shared : Shared) (io : Io)
    (job : Connection.Job) (r : Connection × List Task) : Connections :=
  { all := cs.all.set id (ranJob connectionCallback shared io job r.1)
    queue := cs.queue.pushAll (r.2.map fun task => (id, task))
    current :=
      if (callbackOf connectionCallback shared io job r.1).isSome || job.notifies then some id
      else none }

/-- The destructor of a connection, when its last reference is gone. -/
def destroy (cs : Connections) (id : Nat) (shared : Shared) : Except Abort Connections := do
  shared.conn.destructor
  .ok { cs with all := cs.all.set id { shared with destroyed := true } }

/-! ## User code -/

/-- User code changes a connection that it can use, and queues closures. -/
def use (cs : Connections) (id : Nat) (f : Shared → Except Abort (Shared × List Task)) :
    Outcome Abort Connections :=
  if cs.MayUse id then
    match cs.all[id]? with
    | none => .disabled
    | some shared => Outcome.ofExcept do
        let r ← f shared
        .ok { cs with
          all := cs.all.set id r.1
          queue := cs.queue.pushAll (r.2.map fun task => (id, task)) }
  else .disabled

/-- One step of user code. -/
def userStep (cs : Connections) : SharedAction → Outcome Abort Connections
  | .call id io f => cs.use id fun shared => do
      let r ← shared.conn.call io f
      .ok ({ shared with conn := r.1 }, r.2)
  | .retrieve id len => cs.use id fun shared => do
      let inputBuffer ← shared.conn.inputBuffer.retrieve len
      .ok ({ shared with conn := { shared.conn with inputBuffer := inputBuffer } }, [])
  | .setCallbacks id settings messageCallback => cs.use id fun shared =>
      .ok ({ shared with
        conn := { shared.conn with
          settings := { settings with closeCallback := shared.conn.settings.closeCallback } }
        messageCallback := messageCallback }, [])
  | .hold id => cs.use id fun shared => .ok ({ shared with userRefs := shared.userRefs + 1 }, [])
  | .release id =>
      if cs.UserHolds id then cs.use id fun shared =>
        .ok ({ shared with userRefs := shared.userRefs - 1 }, [])
      else .disabled

/-! ## What the steps do -/

theorem make_eq (cs : Connections) (connectionCallback messageCallback : Bool)
    (settings : Settings) :
    cs.make connectionCallback messageCallback settings = .ok { cs with
      all := cs.all ++ [{
        conn := Connection.established settings
        messageCallback := messageCallback
        userRefs := 0
        destroyed := false
        log := if connectionCallback then [.connection .kConnected] else [] }]
      current := if connectionCallback then some cs.all.length else none } := by
  have hmade := Connection.connectEstablished_new settings
  rw [make]
  cases hnew : Connection.new settings with
  | error e =>
    rw [hnew] at hmade
    cases hmade
  | ok made =>
    rw [hnew, ok_bind] at hmade
    rw [ok_bind, hmade]
    rfl

end Connections

/-- User code leaves an open connection open and a closed one closed, keeps the
close callback and sees nothing by that. -/
structure Shared.Used (shared changed : Shared) : Prop where
  isOpen : changed.conn.IsOpen ↔ shared.conn.IsOpen
  closeCallback : changed.conn.settings.closeCallback = shared.conn.settings.closeCallback
  log : changed.log = shared.log

namespace Connections

theorem use_next {cs ds : Connections} {id : Nat}
    {f : Shared → Except Abort (Shared × List Task)}
    (hf : ∀ shared r, f shared = .ok r → shared.Used r.1 ∧ r.1.destroyed = shared.destroyed)
    (h : cs.use id f = .next ds) :
    ∃ shared changed, cs.all[id]? = some shared ∧
      (shared.Used changed ∧ changed.destroyed = shared.destroyed) ∧
      ds.all = cs.all.set id changed := by
  rw [use] at h
  split at h
  · split at h
    · cases h
    · rename_i shared hid
      rw [Outcome.ofExcept_eq_next, bind_eq_ok] at h
      obtain ⟨r, hr, h⟩ := h
      cases h
      exact ⟨shared, r.1, hid, hf shared r hr, rfl⟩
  · cases h

/-- User code changes one connection, which it leaves open or closed. -/
theorem userStep_next {cs ds : Connections} {a : SharedAction} (h : cs.userStep a = .next ds) :
    ∃ id shared changed, cs.all[id]? = some shared ∧
      (shared.Used changed ∧ changed.destroyed = shared.destroyed) ∧
      ds.all = cs.all.set id changed := by
  cases a with
  | call id io f =>
    refine ⟨id, use_next (fun shared r hr => ?_) h⟩
    rw [bind_eq_ok] at hr
    obtain ⟨called, hcall, hr⟩ := hr
    cases hr
    have heffect := Connection.call_effect hcall
    exact ⟨⟨heffect.isOpen, congrArg Settings.closeCallback heffect.settings, rfl⟩, rfl⟩
  | retrieve id len =>
    refine ⟨id, use_next (fun shared r hr => ?_) h⟩
    rw [bind_eq_ok] at hr
    obtain ⟨inputBuffer, _, hr⟩ := hr
    cases hr
    exact ⟨⟨Iff.rfl, rfl, rfl⟩, rfl⟩
  | setCallbacks id settings messageCallback =>
    refine ⟨id, use_next (fun shared r hr => ?_) h⟩
    cases hr
    exact ⟨⟨Iff.rfl, rfl, rfl⟩, rfl⟩
  | hold id =>
    refine ⟨id, use_next (fun shared r hr => ?_) h⟩
    cases hr
    exact ⟨⟨Iff.rfl, rfl, rfl⟩, rfl⟩
  | release id =>
    rw [userStep] at h
    split at h
    · refine ⟨id, use_next (fun shared r hr => ?_) h⟩
      cases hr
      exact ⟨⟨Iff.rfl, rfl, rfl⟩, rfl⟩
    · cases h

/-! ## Live connections -/

/-- The other connections are live as before when one has changed. -/
theorem live_set_of_ne {cs ds : Connections} {id other : Nat} {changed : Shared}
    (h : ds.all = cs.all.set id changed) (hne : id ≠ other) : ds.Live other ↔ cs.Live other := by
  rw [Live, Live, h, List.getElem?_set_ne hne]

theorem live_iff {cs : Connections} {id : Nat} {shared : Shared}
    (hid : cs.all[id]? = some shared) : cs.Live id ↔ shared.conn.IsOpen := by
  constructor
  · rintro ⟨other, hother, hopen⟩
    rw [hid] at hother
    cases hother
    exact hopen
  · intro hopen
    exact ⟨shared, hid, hopen⟩

/-- The connection that has changed. -/
theorem live_set_self {cs ds : Connections} {id : Nat} {shared changed : Shared}
    (hid : cs.all[id]? = some shared) (h : ds.all = cs.all.set id changed) :
    ds.Live id ↔ changed.conn.IsOpen := by
  refine live_iff ?_
  rw [h]
  exact List.getElem?_set_self (List.getElem?_eq_some_iff.mp hid).1

/-- A new connection is live, the others are as before. -/
theorem live_concat {cs ds : Connections} {new : Shared} (h : ds.all = cs.all ++ [new])
    (hnew : new.conn.IsOpen) (id : Nat) : ds.Live id ↔ id = cs.all.length ∨ cs.Live id := by
  rw [Live, Live, h]
  constructor
  · rintro ⟨shared, hid, hopen⟩
    rw [List.getElem?_append] at hid
    split at hid
    · exact Or.inr ⟨shared, hid, hopen⟩
    · rename_i hlength
      have hlast := (List.getElem?_eq_some_iff.mp hid).1
      rw [List.length_singleton] at hlast
      exact Or.inl (by omega)
  · rintro (rfl | ⟨shared, hid, hopen⟩)
    · exact ⟨new, List.getElem?_concat_length, hnew⟩
    · refine ⟨shared, ?_, hopen⟩
      rw [List.getElem?_append_left (List.getElem?_eq_some_iff.mp hid).1]
      exact hid

/-! ## Closed and destroyed connections -/

/-- Every connection has been closed. -/
def AllClosed (cs : Connections) : Prop := ∀ shared ∈ cs.all, ¬ shared.conn.IsOpen

instance (cs : Connections) : Decidable cs.AllClosed :=
  inferInstanceAs (Decidable (∀ shared ∈ _, _))

/-- The connections whose destructor has run. -/
def destroyedCount (cs : Connections) : Nat := cs.all.countP Shared.destroyed

/-- The connections are the same ones, and one that was closed is not open
again. -/
structure Ages (cs ds : Connections) : Prop where
  length : ds.all.length = cs.all.length
  allClosed : cs.AllClosed → ds.AllClosed

theorem Ages.of_eq {cs ds : Connections} (h : ds.all = cs.all) : cs.Ages ds := by
  refine ⟨congrArg List.length h, fun hclosed => ?_⟩
  rw [AllClosed, h]
  exact hclosed

/-- One connection has changed. -/
theorem Ages.of_set {cs ds : Connections} {id : Nat} {shared changed : Shared}
    (hid : cs.all[id]? = some shared) (hall : ds.all = cs.all.set id changed)
    (hopen : changed.conn.IsOpen → shared.conn.IsOpen) : cs.Ages ds := by
  constructor
  · rw [hall, List.length_set]
  · intro hclosed other hother
    rw [hall] at hother
    rcases List.mem_or_eq_of_mem_set hother with hmem | rfl
    · exact hclosed other hmem
    · exact fun hchanged => hclosed shared (List.mem_of_getElem? hid) (hopen hchanged)

theorem destroyedCount_set {cs ds : Connections} {id : Nat} {shared changed : Shared}
    (hid : cs.all[id]? = some shared) (hall : ds.all = cs.all.set id changed) :
    ds.destroyedCount =
      cs.destroyedCount - (if shared.destroyed then 1 else 0) +
        (if changed.destroyed then 1 else 0) := by
  obtain ⟨hlt, rfl⟩ := List.getElem?_eq_some_iff.mp hid
  rw [destroyedCount, destroyedCount, hall, List.countP_set hlt]

/-- One connection has changed, and not its destructor has run. -/
theorem destroyedCount_set_of_eq {cs ds : Connections} {id : Nat} {shared changed : Shared}
    (hid : cs.all[id]? = some shared) (hall : ds.all = cs.all.set id changed)
    (hdestroyed : changed.destroyed = shared.destroyed) :
    ds.destroyedCount = cs.destroyedCount := by
  rw [destroyedCount_set hid hall, hdestroyed]
  cases hbefore : shared.destroyed with
  | false => rfl
  | true =>
    have hpos : 0 < cs.destroyedCount :=
      List.countP_pos_iff.mpr ⟨shared, List.mem_of_getElem? hid, hbefore⟩
    exact Nat.sub_add_cancel hpos

/-- The destructor of one connection has run. -/
theorem destroyedCount_set_of_destroyed {cs ds : Connections} {id : Nat}
    {shared changed : Shared} (hid : cs.all[id]? = some shared)
    (hbefore : shared.destroyed = false) (hall : ds.all = cs.all.set id changed)
    (hdestroyed : changed.destroyed = true) : ds.destroyedCount = cs.destroyedCount + 1 := by
  rw [destroyedCount_set hid hall, hdestroyed, hbefore]
  rfl

end Connections

/-! ## What the user has seen -/

/-- The first callback the user sees. -/
def upCallback (connectionCallback : Bool) : List UserCallback :=
  if connectionCallback then [.connection .kConnected] else []

/-- The last callback the user sees, once the connection is closed. -/
def downCallback (connectionCallback : Bool) (conn : Connection) : List UserCallback :=
  if connectionCallback = true ∧ ¬ conn.IsOpen then [.connection .kDisconnected] else []

/-- What the user has seen of a connection: the connection callback while it was
connected, then message callbacks, then, if it has been closed, the connection
callback while it was disconnected. -/
def Shared.Sees (connectionCallback : Bool) (shared : Shared) : Prop :=
  ∃ messages, shared.log =
    upCallback connectionCallback ++ List.replicate messages .message ++
      downCallback connectionCallback shared.conn

/-- The connection has the owner's close callback, and the user has seen what is
to be seen. -/
structure Shared.Tracked (connectionCallback : Bool) (shared : Shared) : Prop where
  closeCallback : shared.conn.settings.closeCallback = true
  sees : shared.Sees connectionCallback

theorem downCallback_congr {connectionCallback : Bool} {c d : Connection}
    (h : d.IsOpen ↔ c.IsOpen) :
    downCallback connectionCallback d = downCallback connectionCallback c := by
  rw [downCallback, downCallback]
  simp only [h]

theorem downCallback_of_isOpen {connectionCallback : Bool} {c : Connection} (h : c.IsOpen) :
    downCallback connectionCallback c = [] :=
  if_neg fun hdown => hdown.2 h

theorem Shared.Tracked.used {connectionCallback : Bool} {shared changed : Shared}
    (h : shared.Tracked connectionCallback) (hused : shared.Used changed) :
    changed.Tracked connectionCallback := by
  obtain ⟨messages, hlog⟩ := h.sees
  refine ⟨hused.closeCallback.trans h.closeCallback, messages, ?_⟩
  rw [hused.log, hlog, downCallback_congr hused.isOpen]

/-- A connection as it is made. -/
theorem Shared.tracked_established (connectionCallback messageCallback : Bool)
    {settings : Settings} (hclose : settings.closeCallback = true) :
    Shared.Tracked connectionCallback
      { conn := Connection.established settings
        messageCallback := messageCallback
        userRefs := 0
        destroyed := false
        log := upCallback connectionCallback } := by
  refine ⟨hclose, 0, ?_⟩
  dsimp only
  rw [downCallback_of_isOpen (Connection.isOpen_established settings), List.replicate_zero,
    List.append_nil, List.append_nil]

/-- A handler or closure that leaves the connection open or finds it closed
calls no callback but, on an open one, that for messages. -/
theorem Shared.Tracked.ran {connectionCallback : Bool} {shared : Shared} {io : Io}
    {job : Connection.Job} {r : Connection × List Task}
    (h : shared.Tracked connectionCallback) (hrun : shared.conn.execute io job = .ok r)
    (hopen : r.1.IsOpen ↔ shared.conn.IsOpen) (hsettings : r.1.settings = shared.conn.settings)
    (hran : Connections.closeCallbackRan shared r.1 = false) :
    (Connections.ranJob connectionCallback shared io job r.1).Tracked connectionCallback := by
  obtain ⟨messages, hlog⟩ := h.sees
  have hnot : ¬ Connections.closeCallbackRan shared r.1 = true := Bool.eq_false_iff.mp hran
  have hclose : r.1.settings.closeCallback = true := by
    rw [hsettings]
    exact h.closeCallback
  by_cases hmessage : (shared.messageCallback && shared.conn.reads io job) = true
  · have hreads : shared.conn.reads io job = true := (Bool.and_eq_true_iff.mp hmessage).2
    obtain ⟨hbefore, hafter, _⟩ := Connection.isOpen_of_reads hrun hreads
    refine ⟨hclose, messages + 1, ?_⟩
    rw [Connections.ranJob, Connections.callbackOf, if_neg hnot, if_pos hmessage]
    dsimp only
    rw [hlog, downCallback_of_isOpen hbefore, downCallback_of_isOpen hafter, List.append_nil,
      List.append_nil, List.replicate_succ', ← List.append_assoc]
    rfl
  · refine ⟨hclose, messages, ?_⟩
    rw [Connections.ranJob, Connections.callbackOf, if_neg hnot, if_neg hmessage]
    dsimp only
    rw [Option.toList_none, List.append_nil, hlog, downCallback_congr hopen]

/-- A handler or closure that closes the connection calls the connection
callback, last. -/
theorem Shared.Tracked.closed {connectionCallback : Bool} {shared : Shared} {io : Io}
    {job : Connection.Job} {conn : Connection} (h : shared.Tracked connectionCallback)
    (hopen : shared.conn.IsOpen) (hclosed : ¬ conn.IsOpen)
    (hsettings : conn.settings = shared.conn.settings)
    (hran : Connections.closeCallbackRan shared conn = true) :
    (Connections.ranJob connectionCallback shared io job conn).Tracked connectionCallback := by
  obtain ⟨messages, hlog⟩ := h.sees
  have hstate : conn.state = .kDisconnected := not_not.mp hclosed
  refine ⟨?_, messages, ?_⟩
  · rw [Connections.ranJob]
    dsimp only
    rw [hsettings]
    exact h.closeCallback
  · rw [Connections.ranJob, Connections.callbackOf, if_pos hran]
    dsimp only
    rw [hlog, downCallback_of_isOpen hopen, List.append_nil, downCallback]
    cases connectionCallback with
    | false => simp
    | true =>
      rw [if_pos rfl, if_pos ⟨rfl, hclosed⟩, hstate]
      rfl

/-- What a handler or closure does to a connection that is tracked: it runs the
close callback if and only if it closes the connection. -/
theorem Shared.Tracked.execute {connectionCallback : Bool} {shared : Shared} {io : Io}
    {job : Connection.Job} {r : Connection × List Task}
    (h : shared.Tracked connectionCallback) (hrun : shared.conn.execute io job = .ok r) :
    (Connections.ranJob connectionCallback shared io job r.1).Tracked connectionCallback ∧
      (Connections.closeCallbackRan shared r.1 = false ∧
          (r.1.IsOpen ↔ shared.conn.IsOpen) ∨
        Connections.closeCallbackRan shared r.1 = true ∧ shared.conn.IsOpen ∧
          ¬ r.1.IsOpen) := by
  have hsame : r.1.closeCallbacks = shared.conn.closeCallbacks →
      Connections.closeCallbackRan shared r.1 = false := by
    intro heq
    rw [Connections.closeCallbackRan, heq, decide_eq_false_iff_not]
    exact Nat.lt_irrefl _
  cases (Connection.execute_cases hrun).change with
  | stays hc hd hsettings hcallbacks =>
    have hopen := iff_of_true hd hc
    exact ⟨h.ran hrun hopen hsettings (hsame hcallbacks), Or.inl ⟨hsame hcallbacks, hopen⟩⟩
  | closed hc hd hsettings hcallbacks =>
    have hopen := iff_of_false hd hc
    exact ⟨h.ran hrun hopen hsettings (hsame hcallbacks), Or.inl ⟨hsame hcallbacks, hopen⟩⟩
  | closes hc hd hsettings hcallbacks =>
    have hran : Connections.closeCallbackRan shared r.1 = true := by
      rw [if_pos h.closeCallback] at hcallbacks
      rw [Connections.closeCallbackRan, hcallbacks, decide_eq_true_eq]
      exact Nat.lt_succ_self _
    exact ⟨h.closed hc hd hsettings hran, Or.inr ⟨hran, hc, hd⟩⟩

end CppWeb.Tcp
