/-
  Client/Descriptor.lean --- how often the client's socket is closed.

  The connector never gives its descriptor away: `newConnection` makes a
  connection on the same number, and the destructors of both close it.  So the
  calls of `::close` are one for the client, if it has been destroyed, and one
  for each connection that has been; and a client that is destroyed while a
  connection is open closes the socket under it.  Only a client that never got
  a connection closes its socket once.

  An open connection of a destroyed client cannot be closed any more without a
  call of the client (`Client/Destroyed.lean`): a run does not get past that.
-/
import CppWeb.Client.Steps

set_option autoImplicit false

namespace CppWeb.Client.TCPClient

open CppWeb.Foundation CppWeb.Poll CppWeb.Tcp

/-- The client has been destroyed, and so has every connection that is not
still open. -/
def Finished (s : TCPClient) : Prop :=
  s.alive = false ∧
    ∀ shared ∈ s.connections.all, shared.destroyed = true ∨ shared.conn.IsOpen

instance (s : TCPClient) : Decidable s.Finished :=
  inferInstanceAs (Decidable (_ ∧ ∀ shared ∈ _, _))

theorem inUse_eq_false_iff {s : TCPClient} : s.inUse = false ↔ s.connections.AllClosed := by
  rw [inUse, List.any_eq_false]
  simp only [decide_eq_true_eq]
  rfl

/-! ## Every run -/

/-- Who has called `::close`. -/
structure Counted (s : TCPClient) : Prop where
  channelWF : s.ChannelWF
  /-- the connector, if the client has been destroyed, and the connections that have been -/
  length : s.closes.length = s.connections.destroyedCount + if s.alive then 0 else 1
  /-- an open connection of a destroyed client has lost its socket -/
  inUse : s.alive = false → true ∉ s.closes → s.connections.AllClosed

theorem counted_new (connectionCallback messageCallback writeCompleteCallback : Bool) :
    (new connectionCallback messageCallback writeCompleteCallback).Counted where
  channelWF := channelWF_new connectionCallback messageCallback writeCompleteCallback
  length := rfl
  inUse := fun halive => (by cases halive)

/-- **Step lemma.** -/
theorem Counted.step {s t : TCPClient} {a : Action} (h : s.Counted)
    (ht : s.step a = .next t) : t.Counted := by
  have hmoves := moves_of_step h.channelWF ht
  have hwf := hmoves.channelWF h.channelWF
  cases hmoves with
  | quiet a u hcalls hnot socket channel hchannel =>
    obtain ⟨halive, _, hconnections, hcloses, _⟩ := hcalls.same
    refine ⟨hwf, ?_, ?_⟩
    · dsimp only
      rw [halive, hconnections, hcloses]
      exact h.length
    · dsimp only
      rw [halive, hconnections, hcloses]
      exact h.inUse
  | establishes a u hcalls hest socket timer hretry =>
    obtain ⟨halive, _, hconnections, hcloses, _⟩ := hcalls.same
    have hafter : u.alive = true := halive.trans hcalls.alive
    refine ⟨hwf, ?_, fun hdead => ?_⟩
    · show u.closes.length = (u.connections.all ++ [_]).countP Shared.destroyed +
        if u.alive then 0 else 1
      rw [List.countP_append, halive, hconnections, hcloses]
      exact h.length
    · cases hafter.symm.trans hdead
  | poll active hphase hactive => exact ⟨hwf, h.length, h.inUse⟩
  | timerfd rest io connect soError expired hphase hexpired => exact ⟨hwf, h.length, h.inUse⟩
  | rests a t hrests hages hdestroyed halive hcloses =>
    refine ⟨hwf, ?_, ?_⟩
    · rw [hcloses, hdestroyed, halive]
      exact h.length
    · rw [hcloses, halive]
      exact fun hdead huse => hages.allClosed (h.inUse hdead huse)
  | destroyConnection id t hrests hages hlt hdestroyed halive hcloses =>
    refine ⟨hwf, ?_, ?_⟩
    · rw [hcloses, hdestroyed, halive, List.length_append, h.length]
      exact Nat.add_right_comm _ _ _
    · rw [hcloses, halive]
      intro hdead huse
      refine hages.allClosed (h.inUse hdead fun hmem => huse ?_)
      exact List.mem_append_left _ hmem
  | destroy t hlives hrests hages hdestroyed halive htimers hcloses =>
    refine ⟨hwf, ?_, fun _ huse => ?_⟩
    · have hlength := h.length
      rw [hlives, if_pos rfl] at hlength
      rw [hcloses, hdestroyed, halive, List.length_append, hlength]
      rfl
    · rw [← inUse_eq_false_iff, ← Bool.not_eq_true]
      intro htrue
      apply huse
      rw [hcloses, htrue]
      exact List.mem_append_right _ List.mem_cons_self

theorem counted_throughout (connectionCallback messageCallback writeCompleteCallback : Bool)
    (as : List Action) :
    Throughout step Counted (new connectionCallback messageCallback writeCompleteCallback) as :=
  throughout_of_invariant step
    (counted_new connectionCallback messageCallback writeCompleteCallback)
    (fun _ _ _ hs ht => hs.step ht) as

/-! ## Runs without a connection -/

/-- A client that never got a connection. -/
structure Unconnected (s : TCPClient) : Prop where
  channelWF : s.ChannelWF
  none : s.connections.all = []
  closes : s.closes = if s.alive then [] else [false]

theorem unconnected_new (connectionCallback messageCallback writeCompleteCallback : Bool) :
    (new connectionCallback messageCallback writeCompleteCallback).Unconnected where
  channelWF := channelWF_new connectionCallback messageCallback writeCompleteCallback
  none := rfl
  closes := rfl

/-- **Step lemma.** -/
theorem Unconnected.step {s t : TCPClient} {a : Action} (h : s.Unconnected)
    (hgood : ¬ s.Establishes a) (ht : s.step a = .next t) : t.Unconnected := by
  have hmoves := moves_of_step h.channelWF ht
  have hwf := hmoves.channelWF h.channelWF
  have hnone : s.connections.Ages t.connections → t.connections.all = [] := by
    intro hages
    rw [← List.length_eq_zero_iff, hages.length, h.none]
    rfl
  cases hmoves with
  | quiet a u hcalls hnot socket channel hchannel =>
    obtain ⟨halive, _, hconnections, hcloses, _⟩ := hcalls.same
    refine ⟨hwf, ?_, ?_⟩
    · dsimp only
      rw [hconnections]
      exact h.none
    · dsimp only
      rw [hcloses, halive]
      exact h.closes
  | establishes a u hcalls hest socket timer hretry => exact absurd hest hgood
  | poll active hphase hactive => exact ⟨hwf, h.none, h.closes⟩
  | timerfd rest io connect soError expired hphase hexpired => exact ⟨hwf, h.none, h.closes⟩
  | rests a t hrests hages hdestroyed halive hcloses =>
    refine ⟨hwf, hnone hages, ?_⟩
    rw [hcloses, halive]
    exact h.closes
  | destroyConnection id t hrests hages hlt hdestroyed halive hcloses =>
    rw [h.none] at hlt
    exact absurd hlt (Nat.not_lt_zero id)
  | destroy t hlives hrests hages hdestroyed halive htimers hcloses =>
    refine ⟨hwf, hnone hages, ?_⟩
    have hunused : t.inUse = false := by
      rw [inUse, hnone hages]
      rfl
    rw [hcloses, hunused, halive, h.closes, hlives]
    rfl

/-- **A client without a connection.**  Throughout a run that never gets as far
as `newConnection`, the socket has been closed by the destructor of the client
and by nothing else. -/
theorem closes_of_unconnected (connectionCallback messageCallback writeCompleteCallback : Bool)
    {as : List Action}
    (h : Along step (fun s a => ¬ s.Establishes a)
      (new connectionCallback messageCallback writeCompleteCallback) as) :
    Throughout step (fun s => s.closes = if s.alive then [] else [false])
      (new connectionCallback messageCallback writeCompleteCallback) as :=
  (throughout_of_along
    (unconnected_new connectionCallback messageCallback writeCompleteCallback)
    (fun _ _ _ hs hgood ht => Unconnected.step hs hgood ht) h).mono fun _ hs => hs.closes

/-! ## Runs with a connection -/

/-- No step takes a connection away. -/
theorem length_le_of_step {s t : TCPClient} {a : Action} (hwf : s.ChannelWF)
    (ht : s.step a = .next t) : s.connections.all.length ≤ t.connections.all.length := by
  cases moves_of_step hwf ht with
  | quiet a u hcalls hnot socket channel hchannel =>
    obtain ⟨_, _, hconnections, _⟩ := hcalls.same
    rw [← hconnections]
  | establishes a u hcalls hest socket timer hretry =>
    obtain ⟨_, _, hconnections, _⟩ := hcalls.same
    rw [length_connectedBy, ← hconnections]
    exact Nat.le_succ _
  | poll active hphase hactive => exact Nat.le_refl _
  | timerfd rest io connect soError expired hphase hexpired => exact Nat.le_refl _
  | rests a t hrests hages hdestroyed halive hcloses => exact Nat.le_of_eq hages.length.symm
  | destroyConnection id t hrests hages hlt hdestroyed halive hcloses =>
    exact Nat.le_of_eq hages.length.symm
  | destroy t hlives hrests hages hdestroyed halive htimers hcloses =>
    exact Nat.le_of_eq hages.length.symm

theorem length_le_of_run {s t : TCPClient} {as : List Action} (hwf : s.ChannelWF)
    (h : run step s as = some t) :
    s.connections.all.length ≤ t.connections.all.length := by
  induction as generalizing s with
  | nil =>
    cases h
    exact Nat.le_refl _
  | cons a as ih =>
    obtain ⟨u, hu, hrest⟩ := run_cons_eq_some.mp h
    have hwf' := (moves_of_step hwf hu).channelWF hwf
    exact Nat.le_trans (length_le_of_step hwf hu) (ih hwf' hrest)

/-- A run that ends without connections has made none. -/
theorem along_of_run {s t : TCPClient} {as : List Action} (hwf : s.ChannelWF)
    (h : run step s as = some t) (hnone : t.connections.all = []) :
    Along step (fun s a => ¬ s.Establishes a) s as := by
  induction as generalizing s with
  | nil => trivial
  | cons a as ih =>
    obtain ⟨u, hu, hrest⟩ := run_cons_eq_some.mp h
    have hwf' := (moves_of_step hwf hu).channelWF hwf
    refine ⟨fun hest => ?_, ?_⟩
    · have hlength := length_le_of_run hwf' hrest
      rw [hnone] at hlength
      obtain ⟨v, socket, _, ⟨stop, _, hstep⟩ | ⟨timer, _, hstep⟩⟩ :=
        outcome_of_establishes hwf hest
      · rw [hstep] at hu
        cases hu
      · rw [hstep] at hu
        cases hu
        rw [length_connectedBy] at hlength
        exact Nat.not_succ_le_zero _ hlength
    · rw [hu]
      exact ih hwf' hrest

/-- **When the socket is closed once.**  At the end of a run, the socket has
been closed exactly once and not under an open connection if and only if the
run never got as far as `newConnection`. -/
theorem closes_once_iff {connectionCallback messageCallback writeCompleteCallback : Bool}
    {as : List Action} {s : TCPClient}
    (h : run step (new connectionCallback messageCallback writeCompleteCallback) as = some s)
    (hfinished : s.Finished) :
    s.closes = [false] ↔
      Along step (fun s a => ¬ s.Establishes a)
        (new connectionCallback messageCallback writeCompleteCallback) as := by
  constructor
  · intro hcloses
    have hcounted : s.Counted := by
      have hall := counted_throughout connectionCallback messageCallback writeCompleteCallback as
      exact throughout_iff_run.mp hall as s List.prefix_rfl h
    refine along_of_run (channelWF_new _ _ _) h (List.eq_nil_iff_forall_not_mem.mpr ?_)
    intro shared hmem
    rcases hfinished.2 shared hmem with hdestroyed | hopen
    · have hlength := hcounted.length
      have hpos : 0 < s.connections.destroyedCount :=
        List.countP_pos_iff.mpr ⟨shared, hmem, hdestroyed⟩
      rw [hcloses, hfinished.1, if_neg Bool.false_ne_true, List.length_singleton] at hlength
      omega
    · refine hcounted.inUse hfinished.1 ?_ shared hmem hopen
      rw [hcloses]
      decide
  · intro hgood
    have hall := closes_of_unconnected _ _ _ hgood
    have hcloses := throughout_iff_run.mp hall as s List.prefix_rfl h
    rw [hcloses, hfinished.1]
    rfl

/-- The peer refuses a client, refuses it again when the retry timer expires, and
the client is destroyed. -/
def neverConnected : List Action :=
  [.start .inProgress 0, .poll [(.connector, epollOut)], .handleEvents noIo .ok 111 [], .swap,
    .endRound, .poll [(.timerfd, epollIn)], .handleEvents noIo .ok 0 [0],
    .handleEvents noIo (.fail 111) 0 [], .handleEvents noIo .ok 0 [], .destroy]

theorem closes_once_neverConnected :
    ∃ s, run step (new true true true) neverConnected = some s ∧ s.closes = [false] :=
  ⟨_, rfl, (closes_once_iff
    (show run step (new true true true) neverConnected = some _ from rfl) (by decide +kernel)).mpr
      (by decide +kernel)⟩

/-- The peer closes the connection, which is destroyed, and then the client is. -/
def closedByPeer : List Action :=
  connects ++ [.swap, .endRound, .poll [(.connection 0, epollIn)],
    .handleEvents ⟨.fail eAgain, .data []⟩ .isConn 0 [], .callbackReturn,
    .destroyConnection 0, .swap, .endRound, .destroy]

/-- A client that was connected closes the socket twice, one that is connected
closes it under its connection. -/
theorem closes_twice :
    (run step (new true true true) closedByPeer).map
        (fun s => (s.closes, s.connections.queue.toList, decide s.Finished)) =
          some ([false, false], [], true) ∧
      (run step (new true true true) (connects ++ [.swap, .endRound, .destroy])).map
        (fun s => (s.closes, decide s.Finished)) = some ([true], true) := by
  decide +kernel

end CppWeb.Client.TCPClient
