/-
  Client/Steps.lean --- what a step of the client can do.

  `newConnection` is reached in two ways: `::connect` says that the socket is
  connected, or the connector's event is handled and the socket has no error.
  The predicate `Establishes` says of a step, from the state before it and what
  the kernel answers, that it takes one of them.  The connector's channel has a
  mask only while it is registered, so `disableAll` never fails, and a step
  that establishes always gets as far as `newConnection`.  That makes a
  connection, unless it finds no timer to cancel or drops an open connection
  that nothing else holds.
-/
import CppWeb.Client.TCPClient

set_option autoImplicit false

namespace CppWeb.Client

open CppWeb.Foundation CppWeb.Poll CppWeb.Tcp

/-- A connector's event is one of the connector's channel. -/
theorem connector_of_mem_eventsOf {entry : Source × Mask}
    (hmem : .connector ∈ eventsOf entry) : entry.1 = .connector := by
  obtain ⟨source, revents⟩ := entry
  cases source with
  | timerfd =>
    obtain ⟨_, _, heq⟩ := List.mem_map.mp hmem
    cases heq
  | connector => rfl
  | connection id =>
    obtain ⟨_, _, heq⟩ := List.mem_map.mp hmem
    cases heq

namespace TCPClient

/-- The events the round still has to handle. -/
def todo (s : TCPClient) : List Event :=
  match s.phase with
  | .dispatch todo => todo
  | .outside => []
  | .tasks => []

/-- Handling the event calls a member function of the client or of its
connector. -/
def Reaches (s : TCPClient) : Event → Prop
  | .retry timer => timer ∈ s.timers
  | .connector => True
  | .timerfd | .restart _ | .connection _ _ => False

/-- The connector's channel has a mask only while it is registered. -/
def ChannelWF (s : TCPClient) : Prop := s.channel.isNoneEvents = false → s.channel.polling = true

/-- The step reaches `newConnection`. -/
def Establishes (s : TCPClient) : Action → Prop
  | .start connect soError =>
      s.alive = true ∧ connect = .ok ∧ soError = 0 ∧ (s.socket.connect .ok).isSome = true
  | .handleEvents _ connect soError _ =>
      s.alive = true ∧ s.connections.current = none ∧ soError = 0 ∧
        match s.phase with
        | .dispatch (.connector :: _) => True
        | .dispatch (.retry timer :: _) => timer ∈ s.timers ∧
            s.connected = false ∧ connect = .ok ∧ (s.socket.connect .ok).isSome = true
        | _ => False
  | _ => False

instance (s : TCPClient) (a : Action) : Decidable (s.Establishes a) := by
  unfold Establishes
  split
  · exact inferInstance
  · split <;> exact inferInstance
  · exact inferInstance

/-! ## The connector -/

/-- The connector's channel after `handleWrite` has disabled it. -/
def quiet (s : TCPClient) : TCPClient :=
  { s with channel := if s.channel.isNoneEvents then s.channel else Channel.new }

/-- The client after `newConnection`. -/
def connectedBy (s : TCPClient) (timer : Nat) : TCPClient :=
  { s.cancelTimer timer with
    retryTimer := none
    connected := true
    connection := some s.connections.all.length
    connections := { s.connections with
      all := s.connections.all ++ [{
        conn := Connection.established s.settings
        messageCallback := s.messageCallback
        userRefs := 0
        destroyed := false
        log := upCallback s.connectionCallback }]
      current := if s.connectionCallback then some s.connections.all.length else none }
    lent := true }

theorem length_connectedBy (s : TCPClient) (timer : Nat) :
    (s.connectedBy timer).connections.all.length = s.connections.all.length + 1 :=
  List.length_append

/-- Why `newConnection` fails: there is no timer to cancel, or a connection in
the way that nothing else holds. -/
inductive Fails (s : TCPClient) : Stop → Prop where
  | nullTimer (hretry : s.retryTimer = none) : Fails s .nullTimer
  | overwritten (hconnection : s.connection ≠ none) : Fails s .overwritten

theorem Fails.of_eq {s u : TCPClient} {stop : Stop} (h : s.Fails stop)
    (hretry : s.retryTimer = u.retryTimer) (hconnection : s.connection = u.connection) :
    u.Fails stop := by
  cases h with
  | nullTimer hnone => exact .nullTimer (hretry ▸ hnone)
  | overwritten hsome => exact .overwritten (hconnection ▸ hsome)

/-- What `newConnection` does. -/
inductive Makes (s : TCPClient) : Outcome Stop TCPClient → Prop where
  | fails (stop : Stop) (h : s.Fails stop) : Makes s (.abort stop)
  | made (timer : Nat) (hretry : s.retryTimer = some timer) :
      Makes s (.next (s.connectedBy timer))

theorem newConnection_makes (s : TCPClient) : s.Makes s.newConnection := by
  rw [newConnection]
  split
  · rename_i hretry
    exact .fails _ (.nullTimer hretry)
  · rename_i timer hretry
    split
    · rename_i reason hreset
      refine .fails _ (.overwritten fun hnone => ?_)
      rw [resetConnection_of_none hnone] at hreset
      cases hreset
    · rw [Connections.make_eq]
      exact .made timer hretry

theorem newConnection_next {s t : TCPClient} (h : s.newConnection = .next t) :
    ∃ timer, s.retryTimer = some timer ∧ t = s.connectedBy timer := by
  have hmakes := s.newConnection_makes
  rw [h] at hmakes
  cases hmakes with
  | made timer hretry => exact ⟨timer, hretry, rfl⟩

theorem newConnection_abort {s : TCPClient} {stop : Stop} (h : s.newConnection = .abort stop) :
    s.Fails stop := by
  have hmakes := s.newConnection_makes
  rw [h] at hmakes
  cases hmakes with
  | fails stop hfails => exact hfails

theorem handleWrite_eq {s : TCPClient} (h : s.ChannelWF) (soError : Nat) :
    s.handleWrite soError =
      if soError ≠ 0 then .next s.quiet else s.quiet.newConnection := by
  rw [handleWrite]
  cases hnone : s.channel.isNoneEvents with
  | true =>
    rw [Bool.not_true, if_neg Bool.false_ne_true, quiet, hnone, if_pos rfl]
  | false =>
    rw [Bool.not_false, if_pos rfl, Channel.disableAll_eq (h hnone), quiet, hnone,
      if_neg Bool.false_ne_true]
    rfl

theorem channelWF_quiet {s : TCPClient} (h : s.ChannelWF) : s.quiet.ChannelWF := by
  unfold ChannelWF quiet
  cases hnone : s.channel.isNoneEvents with
  | true =>
    rw [if_pos rfl]
    exact h
  | false =>
    rw [if_neg Bool.false_ne_true]
    intro hnew
    cases hnew

/-- `Connector::handleWrite`: an error is logged, or `newConnection` is run. -/
theorem handleWrite_next {u t : TCPClient} {soError : Nat} (hwf : u.ChannelWF)
    (h : u.handleWrite soError = .next t) :
    soError ≠ 0 ∧ t = u.quiet ∨
      soError = 0 ∧ ∃ timer, u.retryTimer = some timer ∧ t = u.quiet.connectedBy timer := by
  rw [handleWrite_eq hwf] at h
  split at h
  · rename_i hne
    cases h
    exact Or.inl ⟨hne, rfl⟩
  · rename_i hzero
    exact Or.inr ⟨not_not.mp hzero, newConnection_next h⟩

/-- `Connector::handleWrite` stops only in `newConnection`. -/
theorem handleWrite_abort {u : TCPClient} {soError : Nat} (hwf : u.ChannelWF) {stop : Stop}
    (h : u.handleWrite soError = .abort stop) : u.Fails stop ∧ soError = 0 := by
  rw [handleWrite_eq hwf] at h
  split at h
  · cases h
  · rename_i hzero
    exact ⟨(newConnection_abort h).of_eq rfl rfl, not_not.mp hzero⟩

/-- `Connector::start`: the socket and the channel are changed, or
`newConnection` is run. -/
theorem connectorStart_next {u t : TCPClient} {connect : ConnectResult} {soError : Nat}
    (hwf : u.ChannelWF) (h : u.connectorStart connect soError = .next t) :
    (¬ (connect = .ok ∧ soError = 0) ∧ ∃ socket channel,
        (channel.isNoneEvents = false → channel.polling = true) ∧
          t = { u with socket := socket, channel := channel }) ∨
      ((connect = .ok ∧ soError = 0 ∧ (u.socket.connect .ok).isSome = true) ∧
        ∃ socket timer, u.retryTimer = some timer ∧
          t = { u with socket := socket }.quiet.connectedBy timer) := by
  rw [connectorStart] at h
  split at h
  · cases h
  · rename_i socket hsocket
    cases connect with
    | inProgress =>
      dsimp only at h
      rw [Channel.enableWrite, Channel.orEvents_eq (by decide)] at h
      cases h
      exact Or.inl ⟨fun hok => (by cases hok.1), socket, _, fun _ => rfl, rfl⟩
    | ok =>
      rcases handleWrite_next (u := { u with socket := socket }) hwf h with
        ⟨hne, rfl⟩ | ⟨hzero, timer, hretry, rfl⟩
      · exact Or.inl ⟨fun hok => hne hok.2, socket, _,
          channelWF_quiet (s := { u with socket := socket }) hwf, rfl⟩
      · rw [hsocket]
        exact Or.inr ⟨⟨rfl, hzero, rfl⟩, socket, timer, hretry, rfl⟩
    | already =>
      cases h
      exact Or.inl ⟨fun hok => (by cases hok.1), socket, u.channel, hwf, rfl⟩
    | isConn =>
      cases h
      exact Or.inl ⟨fun hok => (by cases hok.1), socket, u.channel, hwf, rfl⟩
    | fail errno =>
      cases h
      exact Or.inl ⟨fun hok => (by cases hok.1), socket, u.channel, hwf, rfl⟩

/-- `Connector::start` stops only in `newConnection`. -/
theorem connectorStart_abort {u : TCPClient} {connect : ConnectResult} {soError : Nat}
    (hwf : u.ChannelWF) {stop : Stop} (h : u.connectorStart connect soError = .abort stop) :
    u.Fails stop ∧ connect = .ok ∧ soError = 0 ∧ (u.socket.connect .ok).isSome = true := by
  rw [connectorStart] at h
  split at h
  · cases h
  · rename_i socket hsocket
    cases connect with
    | inProgress =>
      dsimp only at h
      rw [Channel.enableWrite, Channel.orEvents_eq (by decide)] at h
      cases h
    | ok =>
      obtain ⟨hfails, hzero⟩ := handleWrite_abort (u := { u with socket := socket }) hwf h
      rw [hsocket]
      exact ⟨hfails.of_eq rfl rfl, rfl, hzero, rfl⟩
    | already => cases h
    | isConn => cases h
    | fail errno => cases h

/-- A socket that `::connect` finds connected gets as far as `newConnection`. -/
theorem connectorStart_ok {u : TCPClient} (hwf : u.ChannelWF)
    (hsocket : (u.socket.connect .ok).isSome = true) :
    ∃ socket, u.connectorStart .ok 0 = { u with socket := socket }.quiet.newConnection := by
  obtain ⟨socket, hsome⟩ := Option.isSome_iff_exists.mp hsocket
  refine ⟨socket, ?_⟩
  rw [connectorStart, hsome]
  dsimp only
  rw [handleWrite_eq (s := { u with socket := socket }) hwf, if_neg (fun hne => hne rfl)]

/-! ## Connections -/

theorem closeConnection_next {u t : TCPClient} {id : Nat} (h : u.closeConnection id = .next t) :
    t = { u with connection := none } := by
  rw [closeConnection] at h
  split at h
  · cases h
  · split at h
    · cases h
    · cases h
      rfl

theorem closeConnection_abort {u : TCPClient} {id : Nat} {stop : Stop}
    (h : u.closeConnection id = .abort stop) : ∃ reason, stop = .abort reason := by
  rw [closeConnection] at h
  split at h
  · cases h
    exact ⟨_, rfl⟩
  · split at h
    · cases h
      exact ⟨_, rfl⟩
    · cases h

/-- A handler or closure of a connection: it ends with the close callback, which
needs a client, or without. -/
theorem runJob_next {u t : TCPClient} {id : Nat} {io : Io} {job : Connection.Job}
    (h : u.runJob id io job = .next t) :
    ∃ shared r, u.connections.all[id]? = some shared ∧ shared.conn.execute io job = .ok r ∧
      (Connections.closeCallbackRan shared r.1 = false ∧
          t = { u with
            connections := u.connections.after u.connectionCallback id shared io job r
            lent := false } ∨
        Connections.closeCallbackRan shared r.1 = true ∧ u.alive = true ∧
          t = { u with
            connections := u.connections.after u.connectionCallback id shared io job r
            lent := false
            connection := none }) := by
  rw [runJob] at h
  split at h
  · cases h
  · rename_i shared hid
    split at h
    · cases h
    · split at h
      · cases h
      · rename_i r hrun
        refine ⟨shared, r, hid, hrun, ?_⟩
        dsimp only at h
        split at h
        · rename_i hran
          split at h
          · rename_i halive
            exact Or.inr ⟨hran, halive, closeConnection_next h⟩
          · cases h
        · rename_i hran
          cases h
          exact Or.inl ⟨Bool.eq_false_iff.mpr hran, rfl⟩

/-- A handler or closure of a connection stops for a reason of its own, or
because its close callback has lost the client. -/
theorem runJob_abort {u : TCPClient} {id : Nat} {io : Io} {job : Connection.Job} {stop : Stop}
    (h : u.runJob id io job = .abort stop) :
    (∃ reason, stop = .abort reason) ∨
      stop = .destroyedClient ∧ u.alive = false ∧
        ∃ shared r, u.connections.all[id]? = some shared ∧
          shared.conn.execute io job = .ok r ∧
            Connections.closeCallbackRan shared r.1 = true := by
  rw [runJob] at h
  split at h
  · cases h
  · rename_i shared hid
    split at h
    · cases h
      exact Or.inl ⟨_, rfl⟩
    · split at h
      · cases h
        exact Or.inl ⟨_, rfl⟩
      · rename_i r hrun
        dsimp only at h
        split at h
        · rename_i hran
          split at h
          · exact Or.inl (closeConnection_abort h)
          · rename_i hdead
            cases h
            exact Or.inr ⟨rfl, Bool.eq_false_iff.mpr hdead, shared, r, hid, hrun, hran⟩
        · cases h

/-- Only an open connection runs its close callback, and it is closed by that. -/
theorem closes_of_closeCallbackRan {shared : Shared} {io : Io} {job : Connection.Job}
    {r : Connection × List Task} (hrun : shared.conn.execute io job = .ok r)
    (hran : Connections.closeCallbackRan shared r.1 = true) : shared.conn.IsOpen := by
  rw [Connections.closeCallbackRan, decide_eq_true_eq] at hran
  cases (Connection.execute_cases hrun).change with
  | stays hc hd hsettings hcallbacks => exact hc
  | closed hc hd hsettings hcallbacks =>
    rw [hcallbacks] at hran
    exact absurd hran (Nat.lt_irrefl _)
  | closes hc hd hsettings hcallbacks => exact hc

/-- A closed connection stays closed. -/
theorem closed_of_execute {shared : Shared} {io : Io} {job : Connection.Job}
    {r : Connection × List Task} (hrun : shared.conn.execute io job = .ok r)
    (hclosed : ¬ shared.conn.IsOpen) : ¬ r.1.IsOpen := by
  cases (Connection.execute_cases hrun).change with
  | stays hc hd hsettings hcallbacks => exact absurd hc hclosed
  | closed hc hd hsettings hcallbacks => exact hd
  | closes hc hd hsettings hcallbacks => exact hd

/-! ## Inversion -/

/-- The step calls the connector, in this state. -/
inductive Calls (s : TCPClient) : Action → TCPClient → Prop where
  | start (connect : ConnectResult) (soError : Nat) (halive : s.alive = true) :
      Calls s (.start connect soError) s.armRetryTimer
  | event (event : Event) (rest : List Event) (io : Io) (connect : ConnectResult)
      (soError : Nat) (expired : List Nat) (halive : s.alive = true)
      (hphase : s.phase = .dispatch (event :: rest)) (hreaches : s.Reaches event) :
      Calls s (.handleEvents io connect soError expired) { s with phase := .dispatch rest }

/-- A step that calls the connector finds the client alive. -/
theorem Calls.alive {s u : TCPClient} {a : Action} (h : s.Calls a u) : s.alive = true := by
  cases h with
  | start connect soError halive => exact halive
  | event event rest io connect soError expired halive hphase hreaches => exact halive

/-- What is as before when the connector is called. -/
theorem Calls.same {s u : TCPClient} {a : Action} (h : s.Calls a u) :
    u.alive = s.alive ∧ u.channel = s.channel ∧ u.connections = s.connections ∧
      u.closes = s.closes ∧ u.connection = s.connection := by
  cases h with
  | start connect soError halive => exact ⟨rfl, rfl, rfl, rfl, rfl⟩
  | event event rest io connect soError expired halive hphase hreaches =>
    exact ⟨rfl, rfl, rfl, rfl, rfl⟩

/-- What is as before, and the events of the round are those there were. -/
structure Rests (s t : TCPClient) : Prop where
  channel : t.channel = s.channel
  connected : t.connected = s.connected
  connection : s.connection = none → t.connection = none
  retryTimer : t.retryTimer = s.retryTimer
  timersMade : t.timersMade = s.timersMade
  timers : ∀ timer ∈ t.timers, timer ∈ s.timers
  todo : ∀ event ∈ t.todo, event ∈ s.todo

/-- Every step that leads to a next state, with what is known before it. -/
inductive Moves (s : TCPClient) : Action → TCPClient → Prop where
  /-- the connector is called and no connection is established -/
  | quiet (a : Action) (u : TCPClient) (hcalls : Calls s a u) (hnot : ¬ s.Establishes a)
      (socket : Socket) (channel : Channel)
      (hwf : channel.isNoneEvents = false → channel.polling = true) :
      Moves s a { u with socket := socket, channel := channel }
  /-- the connector is called and `newConnection` is run -/
  | establishes (a : Action) (u : TCPClient) (hcalls : Calls s a u) (hest : s.Establishes a)
      (socket : Socket) (timer : Nat) (hretry : u.retryTimer = some timer) :
      Moves s a ({ u with socket := socket }.quiet.connectedBy timer)
  /-- a round begins -/
  | poll (active : List (Source × Mask)) (hphase : s.phase = .outside)
      (hactive : ∀ entry ∈ active, s.Registered entry.1) :
      Moves s (.poll active) { s with phase := .dispatch (active.flatMap eventsOf) }
  /-- timers have expired -/
  | timerfd (rest : List Event) (io : Io) (connect : ConnectResult) (soError : Nat)
      (expired : List Nat) (hphase : s.phase = .dispatch (.timerfd :: rest))
      (hexpired : ∀ timer ∈ expired, timer ∈ s.timers) :
      Moves s (.handleEvents io connect soError expired)
        { s with phase := .dispatch (expired.flatMap expiry ++ rest) }
  /-- something else happens, to one of the connections or to none -/
  | rests (a : Action) (t : TCPClient) (hrests : Rests s t)
      (hages : s.connections.Ages t.connections)
      (hdestroyed : t.connections.destroyedCount = s.connections.destroyedCount)
      (halive : t.alive = s.alive) (hcloses : t.closes = s.closes) : Moves s a t
  /-- a connection is destroyed, and closes the socket -/
  | destroyConnection (id : Nat) (t : TCPClient) (hrests : Rests s t)
      (hages : s.connections.Ages t.connections) (hlt : id < s.connections.all.length)
      (hdestroyed : t.connections.destroyedCount = s.connections.destroyedCount + 1)
      (halive : t.alive = s.alive) (hcloses : t.closes = s.closes ++ [s.inUse]) :
      Moves s (.destroyConnection id) t
  /-- the client is destroyed, and its connector closes the socket -/
  | destroy (t : TCPClient) (hlives : s.alive = true) (hrests : Rests s t)
      (hages : s.connections.Ages t.connections)
      (hdestroyed : t.connections.destroyedCount = s.connections.destroyedCount)
      (halive : t.alive = false) (htimers : ∀ timer ∈ t.timers, s.retryTimer ≠ some timer)
      (hcloses : t.closes = s.closes ++ [t.inUse]) : Moves s .destroy t

/-- Nothing has happened to the connections. -/
theorem Moves.of_eq {s t : TCPClient} {a : Action} (hrests : s.Rests t)
    (hall : t.connections.all = s.connections.all) (halive : t.alive = s.alive)
    (hcloses : t.closes = s.closes) : s.Moves a t :=
  .rests a t hrests (.of_eq hall) (congrArg (List.countP Shared.destroyed) hall)
    halive hcloses

/-- Something has happened to one connection, and not its destructor. -/
theorem Moves.of_set {s t : TCPClient} {a : Action} {id : Nat} {shared changed : Shared}
    (hrests : s.Rests t) (hid : s.connections.all[id]? = some shared)
    (hall : t.connections.all = s.connections.all.set id changed)
    (hopen : changed.conn.IsOpen → shared.conn.IsOpen)
    (hdestroyed : changed.destroyed = shared.destroyed) (halive : t.alive = s.alive)
    (hcloses : t.closes = s.closes) : s.Moves a t :=
  .rests a t hrests (.of_set hid hall hopen)
    (Connections.destroyedCount_set_of_eq hid hall hdestroyed) halive hcloses

/-- The step runs a handler or closure of a connection, in this state. -/
inductive Runs (s : TCPClient) : Action → TCPClient → Prop where
  | event (id : Nat) (cb : Callback) (rest : List Event) (io : Io) (connect : ConnectResult)
      (soError : Nat) (expired : List Nat)
      (hphase : s.phase = .dispatch (.connection id cb :: rest)) :
      Runs s (.handleEvents io connect soError expired)
        { s with phase := .dispatch rest, guard := guardAfter id rest }
  | task (io : Io) (hphase : s.phase = .tasks) :
      Runs s (.runTask io)
        { s with connections := { s.connections with queue := s.connections.queue.advance } }

/-- Whatever has become of the connections then. -/
theorem Runs.rests {s u t : TCPClient} {a : Action} (h : s.Runs a u) {connections : Connections}
    {connection : Option Nat} (hconnection : connection = u.connection ∨ connection = none)
    (ht : t = { u with
      connections := connections
      lent := false
      connection := connection }) : s.Rests t := by
  have hnone : u.connection = none → connection = none := by
    intro hnone
    rcases hconnection with rfl | rfl
    · exact hnone
    · rfl
  subst ht
  cases h with
  | event id cb rest io connect soError expired hphase =>
    refine ⟨rfl, rfl, hnone, rfl, rfl, fun _ h => h, fun event hevent => ?_⟩
    rw [todo, hphase]
    exact List.mem_cons_of_mem _ hevent
  | task io hphase => exact ⟨rfl, rfl, hnone, rfl, rfl, fun _ h => h, fun _ h => h⟩

theorem Runs.same {s u : TCPClient} {a : Action} (h : s.Runs a u) :
    u.connections.all = s.connections.all ∧ u.alive = s.alive ∧ u.closes = s.closes := by
  cases h with
  | event id cb rest io connect soError expired hphase => exact ⟨rfl, rfl, rfl⟩
  | task io hphase => exact ⟨rfl, rfl, rfl⟩

theorem moves_of_runJob {s u t : TCPClient} {a : Action} {id : Nat} {io : Io}
    {job : Connection.Job} (hruns : Runs s a u) (h : u.runJob id io job = .next t) :
    s.Moves a t := by
  obtain ⟨hall, halive, hcloses⟩ := hruns.same
  obtain ⟨shared, r, hid, hrun, hend⟩ := runJob_next h
  have hopen : r.1.IsOpen → shared.conn.IsOpen := by
    intro hopen
    by_contra hclosed
    exact closed_of_execute hrun hclosed hopen
  have hset : (u.connections.after u.connectionCallback id shared io job r).all =
      s.connections.all.set id
        (Connections.ranJob u.connectionCallback shared io job r.1) := by
    rw [Connections.after, hall]
  rw [hall] at hid
  rcases hend with ⟨_, ht⟩ | ⟨_, _, ht⟩
  · have hrests := hruns.rests (Or.inl rfl) ht
    subst ht
    exact .of_set hrests hid hset hopen rfl halive hcloses
  · have hrests := hruns.rests (Or.inr rfl) ht
    subst ht
    exact .of_set hrests hid hset hopen rfl halive hcloses

/-- The body of the destructor: the connection in `m_connection` is told to
close. -/
theorem forceClose_spec (s : TCPClient) (id : Nat) :
    ∃ connections, s.forceClose id = { s with connections := connections } ∧
      s.connections.Ages connections ∧
        connections.destroyedCount = s.connections.destroyedCount := by
  cases hid : s.connections.all[id]? with
  | none =>
    rw [forceClose, hid]
    exact ⟨s.connections, rfl, .of_eq rfl, rfl⟩
  | some shared =>
    rw [forceClose, hid]
    have hopen := (Connection.forceClose_effect shared.conn).isOpen.mp
    exact ⟨_, rfl, .of_set hid rfl hopen, Connections.destroyedCount_set_of_eq hid rfl rfl⟩

/-- The destructor of the client. -/
theorem moves_destructor {s : TCPClient} (halive : s.alive = true) :
    s.Moves .destroy s.destructor := by
  have hclosing : ∀ connection : Option Nat, ∃ connections,
      connection.elim s s.forceClose = { s with connections := connections } ∧
        s.connections.Ages connections ∧
          connections.destroyedCount = s.connections.destroyedCount := by
    intro connection
    cases connection with
    | none => exact ⟨s.connections, rfl, .of_eq rfl, rfl⟩
    | some id => exact s.forceClose_spec id
  obtain ⟨connections, heq, hages, hdestroyed⟩ := hclosing s.connection
  unfold destructor
  rw [heq]
  cases hretry : s.retryTimer with
  | none =>
    refine .destroy _ halive
      ⟨rfl, rfl, fun _ => rfl, hretry.symm, rfl, fun _ h => h, fun _ h => h⟩
      hages hdestroyed rfl ?_ rfl
    exact fun timer _ hsome => Option.some_ne_none timer (hsome.symm.trans hretry)
  | some timer =>
    refine .destroy _ halive
      ⟨rfl, rfl, fun _ => rfl, hretry.symm, rfl, fun _ h => (List.mem_filter.mp h).1,
        fun _ h => h⟩
      hages hdestroyed rfl ?_ rfl
    intro other hother hsome
    rw [hretry] at hsome
    cases hsome
    exact bne_iff_ne.mp (List.mem_filter.mp hother).2 rfl

/-- A retry timer of the batch, which is alive, calls the client. -/
theorem moves_of_retry {s t : TCPClient} {timer : Nat} {rest : List Event} {io : Io}
    {connect : ConnectResult} {soError : Nat} {expired : List Nat} (hwf : s.ChannelWF)
    (hphase : s.phase = .dispatch (.retry timer :: rest)) (hcurrent : s.connections.current = none)
    (htimer : timer ∈ s.timers) (halive : s.alive = true)
    (h : { s with phase := .dispatch rest }.retry connect soError = .next t) :
    s.Moves (.handleEvents io connect soError expired) t := by
  have hcalls : s.Calls (.handleEvents io connect soError expired)
      { s with phase := .dispatch rest } :=
    .event (.retry timer) rest io connect soError expired halive hphase htimer
  have hest : s.Establishes (.handleEvents io connect soError expired) ↔
      s.connected = false ∧ connect = .ok ∧ soError = 0 ∧
        (s.socket.connect .ok).isSome = true := by
    rw [Establishes, hphase]
    constructor
    · rintro ⟨_, _, hzero, _, hconnected, hok, hsocket⟩
      exact ⟨hconnected, hok, hzero, hsocket⟩
    · rintro ⟨hconnected, hok, hzero, hsocket⟩
      exact ⟨halive, hcurrent, hzero, htimer, hconnected, hok, hsocket⟩
  rw [retry] at h
  split at h
  · rename_i hconnected
    cases h
    refine .quiet _ _ hcalls (fun hbad => ?_) s.socket s.channel hwf
    rw [(hest.mp hbad).1] at hconnected
    cases hconnected
  · rename_i hconnected
    rcases connectorStart_next (u := { s with phase := .dispatch rest }) hwf h with
      ⟨hnot, socket, channel, hchannel, rfl⟩ | ⟨hok, socket, timer, hretry, rfl⟩
    · refine .quiet _ _ hcalls (fun hbad => ?_) socket channel hchannel
      exact hnot ⟨(hest.mp hbad).2.1, (hest.mp hbad).2.2.1⟩
    · refine .establishes _ _ hcalls (hest.mpr ⟨?_, hok⟩) socket timer hretry
      exact Bool.eq_false_iff.mpr hconnected

/-- The next event of a round. -/
theorem moves_of_handleEvent {s t : TCPClient} {event : Event} {rest : List Event} {io : Io}
    {connect : ConnectResult} {soError : Nat} {expired : List Nat} (hwf : s.ChannelWF)
    (hphase : s.phase = .dispatch (event :: rest)) (hcurrent : s.connections.current = none)
    (h : s.handleEvent event rest io connect soError expired = .next t) :
    s.Moves (.handleEvents io connect soError expired) t := by
  cases event with
  | timerfd =>
    rw [handleEvent] at h
    split at h
    · rename_i hexpired
      cases h
      exact .timerfd rest io connect soError expired hphase hexpired.2
    · cases h
  | retry timer =>
    rw [handleEvent] at h
    split at h
    · rename_i htimer
      split at h
      · rename_i halive
        exact moves_of_retry hwf hphase hcurrent htimer halive h
      · cases h
    · cases h
  | restart timer =>
    rw [handleEvent] at h
    split at h
    · cases h
      refine .of_eq ⟨rfl, rfl, fun h => h, rfl, rfl, fun _ h => h, fun event hevent => ?_⟩
        rfl rfl rfl
      rw [todo, hphase]
      exact List.mem_cons_of_mem _ hevent
    · cases h
  | connector =>
    rw [handleEvent] at h
    split at h
    · rename_i halive
      have hcalls : s.Calls (.handleEvents io connect soError expired)
          { s with phase := .dispatch rest } :=
        .event .connector rest io connect soError expired halive hphase trivial
      rcases handleWrite_next (u := { s with phase := .dispatch rest }) hwf h with
        ⟨hne, rfl⟩ | ⟨hzero, timer, hretry, rfl⟩
      · exact .quiet _ _ hcalls (fun hbad => hne hbad.2.2.1) s.socket _
          (channelWF_quiet (s := { s with phase := .dispatch rest }) hwf)
      · refine .establishes _ _ hcalls ⟨halive, hcurrent, hzero, ?_⟩ s.socket timer hretry
        rw [hphase]
        trivial
    · cases h
  | connection id cb =>
    exact moves_of_runJob (.event id cb rest io connect soError expired hphase) h

/-- **Inversion.** -/
theorem moves_of_step {s t : TCPClient} {a : Action} (hwf : s.ChannelWF)
    (h : s.step a = .next t) : s.Moves a t := by
  cases a with
  | start connect soError =>
    obtain ⟨halive, h⟩ := Outcome.ite_eq_next.mp h
    rcases connectorStart_next (u := s.armRetryTimer) hwf h with
      ⟨hnot, socket, channel, hchannel, rfl⟩ | ⟨hok, socket, timer, hretry, rfl⟩
    · refine .quiet _ _ (.start connect soError halive) ?_ socket channel hchannel
      exact fun hest => hnot ⟨hest.2.1, hest.2.2.1⟩
    · exact .establishes _ _ (.start connect soError halive) ⟨halive, hok⟩ socket timer hretry
  | handshake =>
    obtain ⟨_, rfl⟩ := Outcome.ite_next_eq_next.mp h
    exact .of_eq ⟨rfl, rfl, fun h => h, rfl, rfl, fun _ h => h, fun _ h => h⟩ rfl rfl rfl
  | poll active =>
    obtain ⟨hpoll, rfl⟩ := Outcome.ite_next_eq_next.mp h
    exact .poll active hpoll.1 hpoll.2.2.2
  | handleEvents io connect soError expired =>
    rw [step] at h
    split at h
    · rename_i event rest hphase hcurrent
      exact moves_of_handleEvent hwf hphase hcurrent h
    · cases h
  | callbackReturn =>
    rw [step] at h
    split at h
    · cases h
    · cases h
      exact .of_eq ⟨rfl, rfl, fun h => h, rfl, rfl, fun _ h => h, fun _ h => h⟩ rfl rfl rfl
  | swap =>
    obtain ⟨_, rfl⟩ := Outcome.ite_next_eq_next.mp h
    exact .of_eq ⟨rfl, rfl, fun h => h, rfl, rfl, fun _ h => h, fun _ h => (by cases h)⟩ rfl rfl rfl
  | runTask io =>
    rw [step] at h
    split at h
    · rename_i hphase _ _
      exact moves_of_runJob (.task io hphase) h
    · cases h
  | endRound =>
    obtain ⟨_, rfl⟩ := Outcome.ite_next_eq_next.mp h
    exact .of_eq ⟨rfl, rfl, fun h => h, rfl, rfl, fun _ h => h, fun _ h => (by cases h)⟩ rfl rfl rfl
  | user a =>
    obtain ⟨connections, hstep, rfl⟩ := withConnections_next.mp h
    obtain ⟨id, shared, changed, hid, hused, hall⟩ := Connections.userStep_next hstep
    exact .of_set ⟨rfl, rfl, fun h => h, rfl, rfl, fun _ h => h, fun _ h => h⟩ hid hall
      hused.1.isOpen.mp hused.2 rfl rfl
  | destroyConnection id =>
    rw [step] at h
    split at h
    · cases h
    · split at h
      · cases h
      · rename_i shared hid
        split at h
        · cases h
        · rename_i hdestroyed
          obtain ⟨connections, hstep, rfl⟩ := withConnections_next.mp h
          rw [Outcome.ofExcept_eq_next, Connections.destroy, bind_eq_ok] at hstep
          obtain ⟨_, _, hstep⟩ := hstep
          cases hstep
          exact .destroyConnection id _ ⟨rfl, rfl, fun h => h, rfl, rfl, fun _ h => h, fun _ h => h⟩
            (.of_set hid rfl fun hopen => hopen) (List.getElem?_eq_some_iff.mp hid).1
            (Connections.destroyedCount_set_of_destroyed hid (Bool.eq_false_iff.mpr hdestroyed)
              rfl rfl) rfl rfl
  | destroy =>
    obtain ⟨halive, rfl⟩ := Outcome.ite_next_eq_next.mp h
    exact moves_destructor halive

/-- A step that reaches `newConnection` runs it, on a client with the timer of
`start()` if the step is a `start()`, and with the timer there was otherwise. -/
theorem step_of_establishes {s : TCPClient} {a : Action} (hwf : s.ChannelWF)
    (h : s.Establishes a) :
    ∃ u socket, s.Calls a u ∧ s.step a = { u with socket := socket }.quiet.newConnection := by
  cases a with
  | start connect soError =>
    obtain ⟨halive, rfl, rfl, hsocket⟩ := h
    obtain ⟨socket, hstart⟩ := connectorStart_ok (u := s.armRetryTimer) hwf hsocket
    refine ⟨s.armRetryTimer, socket, .start _ _ halive, ?_⟩
    rw [step, if_pos halive]
    exact hstart
  | handleEvents io connect soError expired =>
    obtain ⟨halive, hcurrent, rfl, hevent⟩ := h
    split at hevent
    · rename_i rest hphase
      refine ⟨{ s with phase := .dispatch rest }, s.socket,
        .event .connector rest io connect 0 expired halive hphase trivial, ?_⟩
      rw [step, hphase, hcurrent]
      dsimp only
      rw [handleEvent, if_pos halive, handleWrite_eq (s := { s with phase := .dispatch rest }) hwf,
        if_neg (fun hne => hne rfl)]
    · rename_i timer rest hphase
      obtain ⟨htimer, hconnected, rfl, hsocket⟩ := hevent
      obtain ⟨socket, hstart⟩ :=
        connectorStart_ok (u := { s with phase := .dispatch rest }) hwf hsocket
      refine ⟨{ s with phase := .dispatch rest }, socket,
        .event (.retry timer) rest io .ok 0 expired halive hphase htimer, ?_⟩
      rw [step, hphase, hcurrent]
      dsimp only
      rw [handleEvent, if_pos htimer, if_pos halive, retry, hconnected,
        if_neg Bool.false_ne_true]
      exact hstart
    · exact hevent.elim
  | handshake => exact h.elim
  | poll active => exact h.elim
  | callbackReturn => exact h.elim
  | swap => exact h.elim
  | runTask io => exact h.elim
  | endRound => exact h.elim
  | user a => exact h.elim
  | destroyConnection id => exact h.elim
  | destroy => exact h.elim

/-- That step stops where `newConnection` does, or makes a connection. -/
theorem outcome_of_establishes {s : TCPClient} {a : Action} (hwf : s.ChannelWF)
    (h : s.Establishes a) :
    ∃ u socket, s.Calls a u ∧
      ((∃ stop, u.Fails stop ∧ s.step a = .abort stop) ∨
        ∃ timer, u.retryTimer = some timer ∧
          s.step a = .next ({ u with socket := socket }.quiet.connectedBy timer)) := by
  obtain ⟨u, socket, hcalls, hstep⟩ := step_of_establishes hwf h
  refine ⟨u, socket, hcalls, ?_⟩
  have hmakes := { u with socket := socket }.quiet.newConnection_makes
  rw [← hstep] at hmakes
  generalize s.step a = outcome at hmakes
  cases hmakes with
  | fails stop hfails => exact Or.inl ⟨stop, hfails.of_eq rfl rfl, rfl⟩
  | made timer hretry => exact Or.inr ⟨timer, hretry, rfl⟩

/-! ## Steps that stop -/

/-- Why a step stops. -/
inductive Halts (s : TCPClient) (a : Action) : Stop → Prop where
  /-- an assertion fails, an exception is thrown or a deleted object is read -/
  | abort (reason : Abort) : Halts s a (.abort reason)
  /-- `newConnection` fails -/
  | newConnection (stop : Stop) (hest : s.Establishes a) (hfails : s.Fails stop) : Halts s a stop
  /-- an event calls the client, which is destroyed -/
  | event (event : Event) (halive : s.alive = false) (hmem : event ∈ s.todo)
      (hreaches : s.Reaches event) : Halts s a .destroyedClient
  /-- a connection calls the client, which is destroyed, as it is closed -/
  | closes (halive : s.alive = false) (shared : Shared) (hmem : shared ∈ s.connections.all)
      (hopen : shared.conn.IsOpen) : Halts s a .destroyedClient

theorem halts_of_runJob {s u : TCPClient} {a : Action} {id : Nat} {io : Io}
    {job : Connection.Job} (hruns : Runs s a u) {stop : Stop}
    (h : u.runJob id io job = .abort stop) : s.Halts a stop := by
  have hsame : u.connections.all = s.connections.all ∧ u.alive = s.alive := by
    cases hruns with
    | event id cb rest io connect soError expired hphase => exact ⟨rfl, rfl⟩
    | task io hphase => exact ⟨rfl, rfl⟩
  rcases runJob_abort h with ⟨reason, rfl⟩ | ⟨rfl, halive, shared, r, hid, hrun, hran⟩
  · exact .abort reason
  · rw [hsame.1] at hid
    rw [hsame.2] at halive
    exact .closes halive shared (List.mem_of_getElem? hid)
      (closes_of_closeCallbackRan hrun hran)

theorem mem_todo_of_phase {s : TCPClient} {event : Event} {rest : List Event}
    (hphase : s.phase = .dispatch (event :: rest)) : event ∈ s.todo := by
  rw [todo, hphase]
  exact List.mem_cons_self

/-- The next event of a round. -/
theorem halts_of_handleEvent {s : TCPClient} {event : Event} {rest : List Event} {io : Io}
    {connect : ConnectResult} {soError : Nat} {expired : List Nat} {stop : Stop}
    (hwf : s.ChannelWF) (hphase : s.phase = .dispatch (event :: rest))
    (hcurrent : s.connections.current = none)
    (h : s.handleEvent event rest io connect soError expired = .abort stop) :
    s.Halts (.handleEvents io connect soError expired) stop := by
  cases event with
  | timerfd =>
    rw [handleEvent] at h
    split at h
    · cases h
    · cases h
  | retry timer =>
    rw [handleEvent] at h
    split at h
    · rename_i htimer
      split at h
      · rename_i halive
        rw [retry] at h
        split at h
        · cases h
        · rename_i hconnected
          obtain ⟨hfails, hok, hzero, hsocket⟩ :=
            connectorStart_abort (u := { s with phase := .dispatch rest }) hwf h
          refine .newConnection _ ⟨halive, hcurrent, hzero, ?_⟩ (hfails.of_eq rfl rfl)
          rw [hphase]
          exact ⟨htimer, Bool.eq_false_iff.mpr hconnected, hok, hsocket⟩
      · rename_i hdead
        cases h
        exact .event _ (Bool.eq_false_iff.mpr hdead) (mem_todo_of_phase hphase) htimer
    · cases h
      exact .abort _
  | restart timer =>
    rw [handleEvent] at h
    split at h
    · cases h
    · cases h
      exact .abort _
  | connector =>
    rw [handleEvent] at h
    split at h
    · rename_i halive
      obtain ⟨hfails, hzero⟩ :=
        handleWrite_abort (u := { s with phase := .dispatch rest }) hwf h
      refine .newConnection _ ⟨halive, hcurrent, hzero, ?_⟩ (hfails.of_eq rfl rfl)
      rw [hphase]
      trivial
    · rename_i hdead
      cases h
      exact .event _ (Bool.eq_false_iff.mpr hdead) (mem_todo_of_phase hphase) trivial
  | connection id cb =>
    exact halts_of_runJob (.event id cb rest io connect soError expired hphase) h

/-- **Inversion of the steps that stop.** -/
theorem halts_of_step {s : TCPClient} {a : Action} (hwf : s.ChannelWF) {stop : Stop}
    (h : s.step a = .abort stop) : s.Halts a stop := by
  cases a with
  | start connect soError =>
    rw [step] at h
    split at h
    · rename_i halive
      obtain ⟨hfails, hok⟩ := connectorStart_abort (u := s.armRetryTimer) hwf h
      cases hfails with
      | nullTimer hretry =>
        -- `start()` has made a timer
        cases hretry
      | overwritten hconnection => exact .newConnection _ ⟨halive, hok⟩ (.overwritten hconnection)
    · cases h
  | handleEvents io connect soError expired =>
    rw [step] at h
    split at h
    · rename_i event rest hphase hcurrent
      exact halts_of_handleEvent hwf hphase hcurrent h
    · cases h
  | runTask io =>
    rw [step] at h
    split at h
    · rename_i hphase _ _
      exact halts_of_runJob (.task io hphase) h
    · cases h
  | user a =>
    obtain ⟨reason, rfl⟩ := withConnections_abort h
    exact .abort reason
  | destroyConnection id =>
    rw [step] at h
    split at h
    · cases h
    · split at h
      · cases h
      · split at h
        · cases h
        · obtain ⟨reason, rfl⟩ := withConnections_abort h
          exact .abort reason
  | handshake =>
    rw [step] at h
    split at h <;> cases h
  | poll active =>
    rw [step] at h
    split at h <;> cases h
  | callbackReturn =>
    rw [step] at h
    split at h <;> cases h
  | swap =>
    rw [step] at h
    split at h <;> cases h
  | endRound =>
    rw [step] at h
    split at h <;> cases h
  | destroy =>
    rw [step] at h
    split at h <;> cases h

/-! ## Calls that are still to come -/

theorem Rests.timers_eq_nil {s t : TCPClient} (h : s.Rests t) (hnil : s.timers = []) :
    t.timers = [] := by
  refine List.eq_nil_iff_forall_not_mem.mpr fun timer htimer => ?_
  have hmem := h.timers timer htimer
  rw [hnil] at hmem
  cases hmem

/-- Without the connector's event and without timers, no event calls the
client. -/
theorem not_reaches {s : TCPClient} (hconnector : .connector ∉ s.todo) (htimers : s.timers = [])
    {event : Event} (hmem : event ∈ s.todo) : ¬ s.Reaches event := by
  cases event with
  | retry timer =>
    rw [Reaches, htimers]
    exact List.not_mem_nil
  | connector => exact absurd hmem hconnector
  | timerfd => exact fun h => h
  | restart timer => exact fun h => h
  | connection id cb => exact fun h => h

/-- A round in which the connector is not reported begins without its event. -/
theorem connector_not_mem_poll {s : TCPClient} {active : List (Source × Mask)}
    (hactive : ∀ entry ∈ active, s.Registered entry.1)
    (hconnector : ¬ s.Registered .connector) :
    .connector ∉ { s with phase := .dispatch (active.flatMap eventsOf) }.todo := by
  intro hevent
  obtain ⟨entry, hentry, hmem⟩ := List.mem_flatMap.mp hevent
  have hregistered := hactive entry hentry
  rw [connector_of_mem_eventsOf hmem] at hregistered
  exact hconnector hregistered

/-- The expiry of timers adds none. -/
theorem connector_not_mem_timerfd {s : TCPClient} {rest : List Event} (expired : List Nat)
    (hphase : s.phase = .dispatch (.timerfd :: rest)) (hnot : .connector ∉ s.todo) :
    .connector ∉ { s with phase := .dispatch (expired.flatMap expiry ++ rest) }.todo := by
  intro hevent
  rcases List.mem_append.mp hevent with hexpiry | hrest
  · obtain ⟨timer, _, hmem⟩ := List.mem_flatMap.mp hexpiry
    simp [expiry] at hmem
  · apply hnot
    rw [todo, hphase]
    exact List.mem_cons_of_mem _ hrest

/-! ## The connector's channel -/

theorem channelWF_new (connectionCallback messageCallback writeCompleteCallback : Bool) :
    (new connectionCallback messageCallback writeCompleteCallback).ChannelWF := by
  intro hnone
  cases hnone

theorem Rests.channelWF {s t : TCPClient} (h : s.Rests t) (hwf : s.ChannelWF) : t.ChannelWF := by
  rw [ChannelWF, h.channel]
  exact hwf

theorem Moves.channelWF {s t : TCPClient} {a : Action} (h : s.Moves a t) (hwf : s.ChannelWF) :
    t.ChannelWF := by
  cases h with
  | quiet a u hcalls hnot socket channel hchannel => exact hchannel
  | establishes a u hcalls hest socket timer hretry =>
    have hu : { u with socket := socket }.ChannelWF := by
      rw [ChannelWF]
      dsimp only
      rw [hcalls.same.2.1]
      exact hwf
    exact channelWF_quiet hu
  | poll active hphase hactive => exact hwf
  | timerfd rest io connect soError expired hphase hexpired => exact hwf
  | rests a t hrests hages hdestroyed halive hcloses => exact hrests.channelWF hwf
  | destroyConnection id t hrests hages hlt hdestroyed halive hcloses =>
    exact hrests.channelWF hwf
  | destroy t hlives hrests hages hdestroyed halive htimers hcloses => exact hrests.channelWF hwf

/-! ## A run -/

/-- The answers of the kernel to a handler that asks for none. -/
def noIo : Io := ⟨.fail eAgain, .fail eAgain⟩

/-- A client connects. -/
def connects : List Action :=
  [.start .inProgress 0, .handshake, .poll [(.connector, epollOut)],
    .handleEvents noIo .ok 0 [], .callbackReturn]

end TCPClient

end CppWeb.Client
