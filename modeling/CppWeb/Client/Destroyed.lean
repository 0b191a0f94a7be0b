/-
  Client/Destroyed.lean --- what calls a client after its destructor.

  The destructor closes the socket, which takes the connector's channel out of
  the kernel's table, and cancels the timer in `m_retryTimer`.  Three ways to
  the client are left.  The connection, whose close callback is bound to the
  client, is told to close, and the closure queued for that calls it.  The
  connector's event calls it, if the round still has to handle it.  And the
  timer of an earlier `start()` still runs, since `m_retryTimer` names only the
  last one.
-/
import CppWeb.Client.Steps

set_option autoImplicit false

namespace CppWeb.Client.TCPClient

open CppWeb.Foundation CppWeb.Poll CppWeb.Tcp

/-- Nothing but the timer in `m_retryTimer` and the connector's channel leads to
the client: its connections are closed, the round has no event of the connector
left, and there is no other timer. -/
structure Cut (s : TCPClient) : Prop where
  connections : s.connections.AllClosed
  connector : .connector ∉ s.todo
  timers : ∀ timer ∈ s.timers, s.retryTimer = some timer

instance (s : TCPClient) : Decidable s.Cut :=
  decidable_of_iff
    (s.connections.AllClosed ∧ .connector ∉ s.todo ∧
      ∀ timer ∈ s.timers, s.retryTimer = some timer)
    ⟨fun h => ⟨h.1, h.2.1, h.2.2⟩, fun h => ⟨h.1, h.2, h.3⟩⟩

/-- If the step destroys the client, nothing else leads to it. -/
def DestroysCut (s : TCPClient) : Action → Prop
  | .destroy => s.Cut
  | _ => True

instance (s : TCPClient) (a : Action) : Decidable (s.DestroysCut a) := by
  unfold DestroysCut
  split
  · exact inferInstance
  · exact inferInstance

/-- The step calls no member function of a destroyed client or of its
connector. -/
def CallsAlive (s : TCPClient) (a : Action) : Prop :=
  (s.step a).Stops fun stop => stop ≠ .destroyedClient

instance (s : TCPClient) (a : Action) : Decidable (s.CallsAlive a) :=
  inferInstanceAs (Decidable (Outcome.Stops _ _))

/-- Nothing leads to a client that has been destroyed. -/
structure Severed (s : TCPClient) : Prop where
  connections : s.connections.AllClosed
  connector : .connector ∉ s.todo
  timers : s.timers = []
  closes : s.closes ≠ []

/-- Steps that are nothing to the client leave it severed. -/
theorem Severed.rests {s t : TCPClient} (h : s.Severed) (hrests : s.Rests t)
    (hages : s.connections.Ages t.connections) (hcloses : t.closes ≠ []) : t.Severed where
  connections := hages.allClosed h.connections
  connector := fun hevent => h.connector (hrests.todo _ hevent)
  timers := hrests.timers_eq_nil h.timers
  closes := hcloses

/-- So does a round, which finds no timer and no channel of the client. -/
theorem Severed.dispatch {s : TCPClient} (h : s.Severed) {todo : List Event}
    (htodo : .connector ∉ { s with phase := .dispatch todo }.todo) :
    { s with phase := .dispatch todo }.Severed :=
  ⟨h.connections, htodo, h.timers, h.closes⟩

/-- The destructor severs a client that is cut. -/
theorem Cut.destroy {s t : TCPClient} (h : s.Cut) (hrests : s.Rests t)
    (hages : s.connections.Ages t.connections)
    (htimers : ∀ timer ∈ t.timers, s.retryTimer ≠ some timer) (hcloses : t.closes ≠ []) :
    t.Severed where
  connections := hages.allClosed h.connections
  connector := fun hevent => h.connector (hrests.todo _ hevent)
  timers := by
    refine List.eq_nil_iff_forall_not_mem.mpr fun timer htimer => ?_
    exact htimers timer htimer (h.timers timer (hrests.timers timer htimer))
  closes := hcloses

/-- **Step lemma.**  If the client is cut when it is destroyed, it is severed
from then on. -/
theorem severed_step {s t : TCPClient} {a : Action} (hwf : s.ChannelWF)
    (h : s.alive = false → s.Severed) (hcut : s.DestroysCut a) (ht : s.step a = .next t) :
    t.alive = false → t.Severed := by
  intro hdead
  cases moves_of_step hwf ht with
  | quiet a u hcalls hnot socket channel hchannel =>
    have hlives := hcalls.same.1.trans hcalls.alive
    cases hlives.symm.trans hdead
  | establishes a u hcalls hest socket timer hretry =>
    have hlives := hcalls.same.1.trans hcalls.alive
    cases hlives.symm.trans hdead
  | poll active hphase hactive =>
    have hsevered := h hdead
    exact hsevered.dispatch
      (connector_not_mem_poll hactive fun hregistered => hsevered.closes hregistered.1)
  | timerfd rest io connect soError expired hphase hexpired =>
    have hsevered := h hdead
    exact hsevered.dispatch (connector_not_mem_timerfd expired hphase hsevered.connector)
  | rests a t hrests hages hdestroyed halive hcloses =>
    rw [halive] at hdead
    have hsevered := h hdead
    exact hsevered.rests hrests hages (hcloses ▸ hsevered.closes)
  | destroyConnection id t hrests hages hlt hdestroyed halive hcloses =>
    rw [halive] at hdead
    refine (h hdead).rests hrests hages ?_
    rw [hcloses]
    exact List.concat_ne_nil _ _
  | destroy t hlives hrests hages hdestroyed halive htimers hcloses =>
    refine Cut.destroy hcut hrests hages htimers ?_
    rw [hcloses]
    exact List.concat_ne_nil _ _

/-- A client that is severed is not called. -/
theorem callsAlive_of_severed {s : TCPClient} (hwf : s.ChannelWF)
    (h : s.alive = false → s.Severed) (a : Action) : s.CallsAlive a := by
  rw [CallsAlive, Outcome.stops_iff]
  intro stop hstop hdestroyed
  subst hdestroyed
  cases halts_of_step hwf hstop with
  | newConnection stop hest hfails => cases hfails
  | event event halive hmem hreaches =>
    exact not_reaches (h halive).connector (h halive).timers hmem hreaches
  | closes halive shared hmem hopen => exact (h halive).connections shared hmem hopen

/-- The client is destroyed when the peer has closed its connection, and the
loop goes on. -/
def destroyedWhenClosed : List Action :=
  connects ++ [.swap, .endRound, .poll [(.connection 0, epollIn)],
    .handleEvents ⟨.fail eAgain, .data []⟩ .isConn 0 [], .callbackReturn, .destroy,
    .destroyConnection 0, .swap, .endRound, .poll [(.timerfd, epollIn)],
    .handleEvents noIo .isConn 0 [], .swap, .endRound]

/-- A client is destroyed while it is connected. -/
def destroyedWhenConnected : List Action :=
  connects ++ [.swap, .endRound, .destroy, .poll [], .swap]

/-- A client is destroyed that was started twice. -/
def destroyedWhenStartedTwice : List Action :=
  [.start .inProgress 0, .start .already 0, .destroy, .poll [(.timerfd, epollIn)],
    .handleEvents noIo .already 0 [0]]

end CppWeb.Client.TCPClient
