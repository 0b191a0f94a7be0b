/-
  Client/Establish.lean --- when a client establishes its connection once.

  As long as no connection has been made, a client that was started has a retry
  timer, and `newConnection` can cancel it.  `retry` looks at `m_connected`
  before it calls the connector again.  `Connector::handleWrite` and `start()`
  do not: a second `start()` whose `::connect` is the first to say that the
  socket is connected, and the event of the connector that was collected in the
  same round as the expiry of an earlier timer, run `newConnection` again.
-/
import CppWeb.Client.Steps

set_option autoImplicit false

namespace CppWeb.Client

open CppWeb.Foundation CppWeb.Poll CppWeb.Tcp

namespace TCPClient

/-- The step runs `newConnection` although it has been run before. -/
def Reestablishes (s : TCPClient) (a : Action) : Prop := s.connected = true ∧ s.Establishes a

/-- The step does not cancel a null timer, does not drop an open connection for
another one, and does not make a second connection. -/
def EstablishesOnce (s : TCPClient) (a : Action) : Prop :=
  (s.step a).Stops (fun stop => stop ≠ .nullTimer ∧ stop ≠ .overwritten) ∧
    (s.step a).Leads fun t => t.connections.all.length ≤ 1

instance (s : TCPClient) (a : Action) : Decidable (s.EstablishesOnce a) :=
  inferInstanceAs (Decidable (_ ∧ _))

/-- A client that has run `newConnection` once if it is connected, and not at
all otherwise. -/
structure Establishing (s : TCPClient) : Prop where
  channelWF : s.ChannelWF
  count : s.connections.all.length = if s.connected then 1 else 0
  fresh : s.connected = false → s.connection = none
  /-- once it is started, a client that is not connected has a retry timer -/
  armed : s.timersMade ≠ 0 → s.connected = false → s.retryTimer ≠ none
  /-- nothing calls a client that was never started -/
  idle : s.timersMade = 0 → s.channel.interest = none ∧ s.timers = [] ∧ .connector ∉ s.todo

theorem establishing_new (connectionCallback messageCallback writeCompleteCallback : Bool) :
    (new connectionCallback messageCallback writeCompleteCallback).Establishing where
  channelWF := channelWF_new connectionCallback messageCallback writeCompleteCallback
  count := rfl
  fresh := fun _ => rfl
  armed := fun hmade => absurd rfl hmade
  idle := fun _ => ⟨rfl, rfl, List.not_mem_nil⟩

/-- A step that calls the connector finds a client that was started, with its
timer. -/
theorem Establishing.calls {s u : TCPClient} {a : Action} (h : s.Establishing)
    (hcalls : s.Calls a u) :
    u.connected = s.connected ∧ u.timersMade ≠ 0 ∧
      (s.connected = false → u.retryTimer ≠ none) := by
  cases hcalls with
  | start connect soError halive =>
    exact ⟨rfl, Nat.succ_ne_zero _, fun _ => Option.some_ne_none _⟩
  | event event rest io connect soError expired halive hphase hreaches =>
    have hmade : s.timersMade ≠ 0 := by
      intro hzero
      obtain ⟨_, htimers, hconnector⟩ := h.idle hzero
      exact not_reaches hconnector htimers (mem_todo_of_phase hphase) hreaches
    exact ⟨rfl, hmade, h.armed hmade⟩

/-- As long as the client is not connected, `newConnection` does not fail. -/
theorem Establishing.not_fails {s u : TCPClient} {a : Action} (h : s.Establishing)
    (hcalls : s.Calls a u) (hnone : s.connected = false) {stop : Stop} : ¬ u.Fails stop := by
  intro hfails
  cases hfails with
  | nullTimer hretry => exact (h.calls hcalls).2.2 hnone hretry
  | overwritten hconnection =>
    rw [hcalls.same.2.2.2.2] at hconnection
    exact hconnection (h.fresh hnone)

/-- What is as before keeps the invariant. -/
theorem Establishing.rests {s t : TCPClient} (h : s.Establishing) (hrests : s.Rests t)
    (hages : s.connections.Ages t.connections) : t.Establishing where
  channelWF := hrests.channelWF h.channelWF
  count := by
    rw [hages.length, hrests.connected]
    exact h.count
  fresh := by
    rw [hrests.connected]
    exact fun hnone => hrests.connection (h.fresh hnone)
  armed := by
    rw [hrests.timersMade, hrests.connected, hrests.retryTimer]
    exact h.armed
  idle := by
    rw [hrests.timersMade, hrests.channel]
    intro hzero
    obtain ⟨hinterest, htimers, hconnector⟩ := h.idle hzero
    exact ⟨hinterest, hrests.timers_eq_nil htimers,
      fun hevent => hconnector (hrests.todo _ hevent)⟩

/-- The new events of a round are not the connector's as long as the client was
not started. -/
theorem Establishing.dispatch {s : TCPClient} (h : s.Establishing) {todo : List Event}
    (htodo : s.timersMade = 0 → .connector ∉ { s with phase := .dispatch todo }.todo) :
    { s with phase := .dispatch todo }.Establishing where
  channelWF := h.channelWF
  count := h.count
  fresh := h.fresh
  armed := h.armed
  idle := fun hzero => ⟨(h.idle hzero).1, (h.idle hzero).2.1, htodo hzero⟩

/-- **Step lemma.**  The invariant is kept unless `newConnection` is run for a
second time. -/
theorem Establishing.step {s t : TCPClient} {a : Action} (h : s.Establishing)
    (hgood : ¬ s.Reestablishes a) (ht : s.step a = .next t) : t.Establishing := by
  have hmoves := moves_of_step h.channelWF ht
  have hwf := hmoves.channelWF h.channelWF
  cases hmoves with
  | quiet a u hcalls hnot socket channel hchannel =>
    obtain ⟨hconnected, hmade, hretry⟩ := h.calls hcalls
    obtain ⟨_, _, hconnections, _, hconnection⟩ := hcalls.same
    refine ⟨hwf, ?_, ?_, fun _ => ?_, fun hzero => absurd hzero hmade⟩
    · dsimp only
      rw [hconnections, hconnected]
      exact h.count
    · dsimp only
      rw [hconnected, hconnection]
      exact h.fresh
    · rw [← hconnected] at hretry
      exact hretry
  | establishes a u hcalls hest socket timer hretry =>
    obtain ⟨hconnected, hmade, _⟩ := h.calls hcalls
    obtain ⟨_, _, hconnections, _⟩ := hcalls.same
    have hnone : s.connected = false := by
      by_contra htrue
      exact hgood ⟨Bool.not_eq_false _ ▸ htrue, hest⟩
    refine ⟨hwf, ?_, fun htrue => (by cases htrue), fun _ htrue => (by cases htrue),
      fun hzero => absurd hzero hmade⟩
    have hempty := h.count
    rw [hnone, if_neg Bool.false_ne_true] at hempty
    rw [length_connectedBy]
    show u.connections.all.length + 1 = 1
    rw [hconnections, hempty]
  | poll active hphase hactive =>
    refine h.dispatch fun hzero => connector_not_mem_poll hactive fun hregistered => ?_
    exact hregistered.2 (h.idle hzero).1
  | timerfd rest io connect soError expired hphase hexpired =>
    exact h.dispatch fun hzero =>
      connector_not_mem_timerfd expired hphase (h.idle hzero).2.2
  | rests a t hrests hages hdestroyed halive hcloses => exact h.rests hrests hages
  | destroyConnection id t hrests hages hlt hdestroyed halive hcloses =>
    exact h.rests hrests hages
  | destroy t hlives hrests hages hdestroyed halive htimers hcloses =>
    exact h.rests hrests hages

/-- Running `newConnection` for a second time is wrong in one of three ways. -/
theorem Establishing.not_establishesOnce {s : TCPClient} {a : Action} (h : s.Establishing)
    (hbad : s.Reestablishes a) : ¬ s.EstablishesOnce a := by
  obtain ⟨hconnected, hest⟩ := hbad
  rintro ⟨hstops, hleads⟩
  obtain ⟨u, socket, hcalls, ⟨stop, hfails, hstep⟩ | ⟨timer, hretry, hstep⟩⟩ :=
    outcome_of_establishes h.channelWF hest
  · rw [hstep] at hstops
    cases hfails with
    | nullTimer hnone => exact hstops.1 rfl
    | overwritten hconnection => exact hstops.2 rfl
  · rw [hstep] at hleads
    have hone := h.count
    rw [hconnected, if_pos rfl] at hone
    have htwo : (TCPClient.connectedBy _ timer).connections.all.length ≤ 1 := hleads
    rw [length_connectedBy] at htwo
    change u.connections.all.length + 1 ≤ 1 at htwo
    rw [hcalls.same.2.2.1, hone] at htwo
    exact Nat.not_succ_le_self 1 htwo

/-- Nothing else makes `newConnection` fail. -/
theorem Establishing.stops {s : TCPClient} {a : Action} (h : s.Establishing)
    (hgood : ¬ s.Reestablishes a) :
    (s.step a).Stops fun stop => stop ≠ .nullTimer ∧ stop ≠ .overwritten := by
  have hnot : ∀ stop, s.Establishes a → s.step a ≠ .abort stop := by
    intro stop hest hstop
    have hnone : s.connected = false := by
      by_contra htrue
      exact hgood ⟨Bool.not_eq_false _ ▸ htrue, hest⟩
    obtain ⟨u, socket, hcalls, ⟨_, hfails, _⟩ | ⟨timer, _, hstep⟩⟩ :=
      outcome_of_establishes h.channelWF hest
    · exact h.not_fails hcalls hnone hfails
    · rw [hstep] at hstop
      cases hstop
  rw [Outcome.stops_iff]
  intro stop hstop
  cases halts_of_step h.channelWF hstop with
  | abort reason => exact ⟨Stop.noConfusion, Stop.noConfusion⟩
  | newConnection stop hest hfails => exact absurd hstop (hnot stop hest)
  | event event halive hmem hreaches => exact ⟨Stop.noConfusion, Stop.noConfusion⟩
  | closes halive shared hmem hopen => exact ⟨Stop.noConfusion, Stop.noConfusion⟩

/-- Under the invariant, a step is wrong exactly if it runs `newConnection` for
a second time. -/
theorem Establishing.establishesOnce_iff {s : TCPClient} (h : s.Establishing) (a : Action) :
    s.EstablishesOnce a ↔ ¬ s.Reestablishes a := by
  constructor
  · exact fun honce hbad => h.not_establishesOnce hbad honce
  · intro hgood
    refine ⟨h.stops hgood, ?_⟩
    rw [Outcome.leads_iff]
    intro t ht
    rw [(h.step hgood ht).count]
    split
    · exact Nat.le_refl 1
    · exact Nat.zero_le 1

/-- **When a client establishes its connection once.**  In every run,
`newConnection` cancels no null timer, drops no open connection and makes no
second one if and only if, once it has been run, no event of the connector is
handled that finds the socket without an error, and no `start()` finds it
connected. -/
theorem establishes_once_iff (connectionCallback messageCallback writeCompleteCallback : Bool)
    (as : List Action) :
    Along step EstablishesOnce
        (new connectionCallback messageCallback writeCompleteCallback) as ↔
      Along step (fun s a => ¬ s.Reestablishes a)
        (new connectionCallback messageCallback writeCompleteCallback) as :=
  along_iff_along
    (establishing_new connectionCallback messageCallback writeCompleteCallback)
    (fun _ _ _ hs hgood ht => hs.step hgood ht) (fun _ a hs => hs.establishesOnce_iff a) as

/-- The connector's event is handled, user code keeps the connection it is given,
and calls `start()` again. -/
def keptAndStarted : List Action :=
  [.start .inProgress 0, .handshake, .poll [(.connector, epollOut)],
    .handleEvents noIo .ok 0 [], .user (.hold 0), .callbackReturn, .start .ok 0]

/-- A client is started twice, and one round reports the expiry of the first
retry timer and the connector: `retry` finds the socket connected, and the
event of the connector is the next. -/
def timerAndConnector : List Action :=
  [.start .inProgress 0, .start .already 0, .handshake,
    .poll [(.timerfd, epollIn), (.connector, epollOut)], .handleEvents noIo .ok 0 [0],
    .handleEvents noIo .ok 0 [], .callbackReturn, .handleEvents noIo .ok 0 []]

/-- The first makes a second connection on the socket; had user code not kept the
connection, it would be dropped open.  After the second `newConnection` cancels
a null timer. -/
theorem establishes_twice :
    ((run step (new true true true) keptAndStarted).map (·.connections.all.length) = some 2 ∧
        ¬ Along step EstablishesOnce (new true true true) keptAndStarted) ∧
      ((run step (new true true true) connects).map (·.step (.start .ok 0)) =
          some (.abort .overwritten) ∧
        ¬ Along step EstablishesOnce (new true true true) (connects ++ [.start .ok 0])) ∧
      (run step (new true true true) timerAndConnector).map
          (·.step (.handleEvents noIo .ok 0 [])) = some (.abort .nullTimer) ∧
        ¬ Along step EstablishesOnce (new true true true)
          (timerAndConnector ++ [.handleEvents noIo .ok 0 []]) := by
  decide +kernel

end TCPClient

end CppWeb.Client
