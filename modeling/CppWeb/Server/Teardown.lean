/-
  Server/Teardown.lean --- which servers can be destroyed.

  A connection that is destroyed while the server runs is not in
  `m_connectionSet`, so it is disconnected and its destructor's assertion
  holds.  The destructor of the server lets go of the connections that are in
  the set, and these are not disconnected: it fails unless each of them is held
  by something else.  Before that `~Acceptor` takes its channel off the poller,
  which insists on a channel that has been registered: it fails unless the
  server was started.

  A server is destroyed when its loop has quit, and the loop after it, with the
  closures that are still queued.  By then no handler and no callback runs, so
  that only user code can go on holding a connection.
-/
import CppWeb.Server.Tracking

set_option autoImplicit false

namespace CppWeb.Server.TCPServerSingle

open CppWeb.Foundation CppWeb.Poll CppWeb.Tcp

/-! ## Connections that are destroyed -/

/-- A connection that is not in the set is disconnected. -/
theorem Tracking.destructor_of_not_mem {s : TCPServerSingle} (h : s.Tracking) {id : Nat}
    (hid : id ∉ s.connectionSet) {shared : Shared}
    (hshared : s.accepted.all[id]? = some shared) : shared.conn.destructor = .ok () := by
  refine require_ok ?_
  by_contra hopen
  exact hid ((h.live id).mpr ⟨shared, hshared, hopen⟩)

/-- **No connection is destroyed too early.**  While the server runs, no
assertion of `~TCPConnection` fails. -/
theorem destroyConnection_never_stops
    (connectionCallback messageCallback writeCompleteCallback : Bool) (as : List Action) :
    Along step (fun s a => ∀ id, a = .destroyConnection id →
        (s.step a).Stops fun _ => False)
      (new connectionCallback messageCallback writeCompleteCallback) as := by
  refine (tracking_throughout connectionCallback messageCallback writeCompleteCallback
    as).along fun s a hs id ha => ?_
  subst ha
  rw [step]
  split
  · rename_i hgone
    split
    · trivial
    · rename_i shared hshared
      split
      · trivial
      · rw [Connections.destroy, hs.destructor_of_not_mem hgone.1 hshared]
        trivial
  · trivial

/-! ## The acceptor's channel -/

/-- Only `start` changes the channel, which it registers. -/
theorem acceptChannel_of_step {s t : TCPServerSingle} {a : Action} (h : s.step a = .next t) :
    (∃ listens, a = .start listens) ∧ t.acceptChannel.polling = true ∨
      (∀ listens, a ≠ .start listens) ∧ t.acceptChannel = s.acceptChannel := by
  cases moves_of_step h with
  | start listens acceptChannel =>
    rw [step, Outcome.ofExcept_eq_next, start] at h
    split at h
    · rw [Channel.enableRead, Channel.orEvents_eq (by decide)] at h
      cases h
      exact Or.inl ⟨⟨listens, rfl⟩, rfl⟩
    · cases h
  | _ => exact Or.inr ⟨fun _ => Action.noConfusion, rfl⟩

/-- The acceptor's channel is registered after a run if it was before or the
server has been started in it. -/
theorem polling_of_run {s t : TCPServerSingle} {as : List Action} (h : run step s as = some t) :
    t.acceptChannel.polling = true ↔
      s.acceptChannel.polling = true ∨ ∃ listens, .start listens ∈ as := by
  induction as generalizing s with
  | nil =>
    cases h
    simp
  | cons a as ih =>
    obtain ⟨u, hu, hrest⟩ := run_cons_eq_some.mp h
    rw [ih hrest]
    rcases acceptChannel_of_step hu with ⟨⟨listens, rfl⟩, hpolling⟩ | ⟨hother, hsame⟩
    · exact iff_of_true (Or.inl hpolling) (Or.inr ⟨listens, List.mem_cons_self⟩)
    · rw [hsame]
      constructor
      · rintro (hpolling | ⟨listens, hmem⟩)
        · exact Or.inl hpolling
        · exact Or.inr ⟨listens, List.mem_cons_of_mem a hmem⟩
      · rintro (hpolling | ⟨listens, hmem⟩)
        · exact Or.inl hpolling
        · rcases List.mem_cons.mp hmem with heq | hmem
          · exact absurd heq.symm (hother listens)
          · exact Or.inr ⟨listens, hmem⟩

/-! ## The destructor -/

/-- The destructor of the server: the channel is registered, and every live
connection is held elsewhere. -/
theorem Tracking.destructor_iff {s : TCPServerSingle} (h : s.Tracking) :
    s.destructor = .ok () ↔
      s.acceptChannel.polling = true ∧ ∀ id, s.Live id → s.HeldElsewhere id := by
  have hset : (∀ id ∈ s.connectionSet, ¬ s.HeldElsewhere id →
      ∀ shared ∈ s.accepted.all[id]?, shared.conn.destructor = .ok ()) ↔
        ∀ id, s.Live id → s.HeldElsewhere id := by
    constructor
    · intro hall id hlive
      by_contra hheld
      obtain ⟨shared, hid, hopen⟩ := hlive
      have hok := hall id ((h.live id).mpr ⟨shared, hid, hopen⟩) hheld shared hid
      exact hopen (require_eq_ok.mp hok)
    · intro hall id hid hheld
      exact absurd (hall id ((h.live id).mp hid)) hheld
  rw [destructor]
  cases hpolling : s.acceptChannel.polling with
  | false =>
    rw [Channel.disableAll_error hpolling, error_bind]
    exact iff_of_false (fun hok => by cases hok) fun hstarted => Bool.false_ne_true hstarted.1
  | true =>
    rw [Channel.disableAll_eq hpolling, ok_bind, require_eq_ok, hset]
    exact (and_iff_right rfl).symm

/-! ## After the loop has quit -/

/-- The loop is in no round: it has quit, or `loop()` has not been called. -/
def AtRest (s : TCPServerSingle) : Prop := s.phase = .outside

instance (s : TCPServerSingle) : Decidable s.AtRest := inferInstanceAs (Decidable (_ = _))

/-- What is over when a round is: no callback of the user runs, and no
`handleEvents` has callbacks left, which would come next. -/
structure Paused (s : TCPServerSingle) : Prop where
  current : s.AtRest → s.accepted.current = none
  guard : ∀ id, s.guard = some id → ∃ cb rest, s.phase = .dispatch ((.connection id, cb) :: rest)

theorem paused_new (connectionCallback messageCallback writeCompleteCallback : Bool) :
    (new connectionCallback messageCallback writeCompleteCallback).Paused :=
  ⟨fun _ => rfl, fun _ h => by cases h⟩

theorem guardAfter_eq_some {id other : Nat} {rest : List (Source × Callback)}
    (h : guardAfter id rest = some other) :
    ∃ cb rest', rest = (.connection other, cb) :: rest' := by
  unfold guardAfter at h
  split at h
  · rename_i hhead
    cases h
    cases rest with
    | nil => cases hhead
    | cons entry rest =>
      obtain ⟨source, cb⟩ := entry
      cases hhead
      exact ⟨cb, rest, rfl⟩
  · cases h

/-- With nothing of a connection at the head, no guard is there. -/
theorem Paused.guard_eq_none {s : TCPServerSingle} (h : s.Paused) {phase : Phase}
    (hphase : s.phase = phase)
    (hhead : ∀ id cb rest, phase ≠ .dispatch ((.connection id, cb) :: rest)) :
    s.guard = none := by
  subst hphase
  refine Option.eq_none_iff_forall_ne_some.mpr fun id hid => ?_
  obtain ⟨cb, rest, hphase⟩ := h.guard id hid
  exact hhead id cb rest hphase

theorem Paused.of_guard_eq_none {s : TCPServerSingle}
    (hcurrent : s.AtRest → s.accepted.current = none) (hguard : s.guard = none) : s.Paused := by
  refine ⟨hcurrent, fun id hid => ?_⟩
  rw [hguard] at hid
  cases hid

/-- **One step.** -/
theorem Paused.moves {s t : TCPServerSingle} {a : Action} (h : s.Paused) (hmoves : s.Moves a t) :
    t.Paused := by
  cases hmoves with
  | start listens acceptChannel => exact ⟨h.current, h.guard⟩
  | poll active hphase hpoll =>
    exact .of_guard_eq_none (fun hrest => by cases hrest) (h.guard_eq_none hphase (by simp))
  | accept io cb rest accepted hphase hall hqueue =>
    exact .of_guard_eq_none (fun hrest => by cases hrest) (h.guard_eq_none hphase (by simp))
  | acceptFailed io errno cb rest hphase =>
    exact .of_guard_eq_none (fun hrest => by cases hrest) (h.guard_eq_none hphase (by simp))
  | handleEvents io accept id cb rest shared r hphase hid hrun =>
    refine ⟨fun hrest => (by cases hrest), fun other hother => ?_⟩
    obtain ⟨cb', rest', rfl⟩ := guardAfter_eq_some hother
    exact ⟨cb', rest', rfl⟩
  | callbackReturn => exact ⟨fun _ => rfl, h.guard⟩
  | swap hphase =>
    exact .of_guard_eq_none (fun hrest => by cases hrest) (h.guard_eq_none hphase (by simp))
  | runTask io id task rest shared r hphase hbatch hid hrun =>
    exact .of_guard_eq_none (fun hrest => by cases hphase.symm.trans hrest)
      (h.guard_eq_none hphase (by simp))
  | endRound hphase hcurrent hbatch =>
    exact .of_guard_eq_none (fun _ => hcurrent) (h.guard_eq_none hphase (by simp))
  | user a cs huses =>
    refine ⟨fun hrest => ?_, h.guard⟩
    cases huses <;> exact h.current hrest
  | destroyConnection id shared hid => exact ⟨h.current, h.guard⟩

/-- At rest only user code and queued closures hold connections. -/
theorem Paused.heldElsewhere_iff {s : TCPServerSingle} (h : s.Paused) (hrest : s.AtRest)
    (id : Nat) : s.HeldElsewhere id ↔ s.accepted.UserHolds id ∨ s.accepted.Queued id := by
  have hguard := h.guard_eq_none hrest (by simp)
  simp [HeldElsewhere, Connections.MayUse, h.current hrest, hguard]

/-- The destruction of the server and then of its loop: the channel is
registered, and user code holds every live connection. -/
theorem Tracking.teardown_iff {s : TCPServerSingle} (h : s.Tracking) (hpaused : s.Paused)
    (hrest : s.AtRest) :
    s.teardown = .ok () ↔
      s.acceptChannel.polling = true ∧ ∀ id, s.Live id → s.accepted.UserHolds id := by
  have hclosures : (∀ entry ∈ s.accepted.queue.toList, ¬ s.accepted.UserHolds entry.1 →
      ∀ shared ∈ s.accepted.all[entry.1]?, shared.conn.destructor = .ok ()) ↔
        ∀ id, s.accepted.Queued id → s.Live id → s.accepted.UserHolds id := by
    constructor
    · rintro hall id ⟨entry, hentry, rfl⟩ ⟨shared, hid, hopen⟩
      by_contra hheld
      exact hopen (require_eq_ok.mp (hall entry hentry hheld shared hid))
    · intro hall entry hentry hheld shared hid
      refine require_ok ?_
      by_contra hopen
      exact hheld (hall entry.1 ⟨entry, hentry, rfl⟩ ⟨shared, hid, hopen⟩)
  rw [teardown, bind_eq_ok]
  constructor
  · rintro ⟨_, hserver, hloop⟩
    obtain ⟨hpolling, hheld⟩ := h.destructor_iff.mp hserver
    refine ⟨hpolling, fun id hlive => ?_⟩
    rcases (hpaused.heldElsewhere_iff hrest id).mp (hheld id hlive) with huser | hqueued
    · exact huser
    · exact hclosures.mp (require_eq_ok.mp hloop) id hqueued hlive
  · rintro ⟨hpolling, huser⟩
    refine ⟨(), h.destructor_iff.mpr ⟨hpolling, fun id hlive => ?_⟩, require_ok ?_⟩
    · exact (hpaused.heldElsewhere_iff hrest id).mpr (Or.inl (huser id hlive))
    · exact hclosures.mpr fun id _ hlive => huser id hlive

/-- **Which servers can be destroyed.**  After every run that has left the loop,
no assertion of `~Acceptor`, of `Epoller::updateChannel` and of the destructors
of the connections fails, when the server and then its loop are destroyed, if
and only if the server was started and user code holds every connection that is
not disconnected. -/
theorem teardown_ok_iff {connectionCallback messageCallback writeCompleteCallback : Bool}
    {as : List Action} {s : TCPServerSingle}
    (h : run step (new connectionCallback messageCallback writeCompleteCallback) as = some s)
    (hrest : s.AtRest) :
    s.teardown = .ok () ↔
      (∃ listens, .start listens ∈ as) ∧ ∀ id, s.Live id → s.accepted.UserHolds id := by
  have htracking : s.Tracking := by
    have hall := tracking_throughout connectionCallback messageCallback writeCompleteCallback as
    exact throughout_iff_run.mp hall as s List.prefix_rfl h
  have hpaused : s.Paused := by
    have hall := throughout_of_invariant step
      (paused_new connectionCallback messageCallback writeCompleteCallback)
      (fun _ _ _ hs ht => hs.moves (moves_of_step ht)) as
    exact throughout_iff_run.mp hall as s List.prefix_rfl h
  have hpolling : s.acceptChannel.polling = true ↔ ∃ listens, .start listens ∈ as := by
    rw [polling_of_run h]
    exact or_iff_right Bool.false_ne_true
  rw [htracking.teardown_iff hpaused hrest, hpolling]

/-- The server accepts a connection, of which the connection callback keeps the
`shared_ptr`. -/
def keptClient : List Action :=
  [.start true, .poll [(.acceptor, epollIn)],
    .handleEvents ⟨.fail eAgain, .fail eAgain⟩ .accepted, .user (.hold 0), .callbackReturn, .swap,
    .endRound]

theorem teardown_ok_keptClient :
    ∃ s, run step (new true true true) keptClient = some s ∧ s.accepted.all.length = 1 ∧
      s.connectionSet = {0} ∧ s.teardown = .ok () := by
  obtain ⟨s, hs, hends⟩ : ∃ s, run step (new true true true) keptClient = some s ∧
      (s.phase, s.connectionSet, s.accepted.all.map Shared.userRefs) = (.outside, {0}, [1]) :=
    Option.map_eq_some_iff.mp (by decide +kernel)
  simp only [Prod.mk.injEq] at hends
  obtain ⟨hrest, hset, hrefs⟩ := hends
  obtain ⟨shared, hall, hkept⟩ : ∃ shared, s.accepted.all = [shared] ∧ shared.userRefs = 1 :=
    List.map_eq_singleton_iff.mp hrefs
  have huser : ∀ id, s.Live id → s.accepted.UserHolds id := by
    rintro id ⟨other, hid, _⟩
    rw [hall, List.getElem?_singleton] at hid
    obtain ⟨rfl, rfl⟩ : id = 0 ∧ shared = other := by simpa using hid
    exact ⟨shared, by rw [hall]; rfl, by rw [hkept]; exact Nat.one_pos⟩
  exact ⟨s, hs, by rw [hall]; rfl, hset,
    (teardown_ok_iff hs hrest).mpr ⟨⟨true, List.mem_cons_self⟩, huser⟩⟩

/-- A server that has accepted one connection. -/
def oneClient : List Action :=
  [.start true, .poll [(.acceptor, epollIn)],
    .handleEvents ⟨.fail eAgain, .fail eAgain⟩ .accepted, .callbackReturn, .swap, .endRound]

/-- The same, and the last that user code does with the connection is
`forceClose`; the loop has quit and does not run the closure any more. -/
def closingClient : List Action :=
  keptClient ++ [.user (.call 0 ⟨.fail eAgain, .fail eAgain⟩ .forceClose), .user (.release 0)]

/-- A server that was never started fails in `~Acceptor`, one with a client in
`~TCPConnection`; so does one of which only a closure holds the client, when the
loop is destroyed. -/
theorem teardown_fails :
    (new true true true).teardown = .error (.assertion .updateChannel) ∧
      (run step (new true true true) oneClient).map teardown =
        some (.error (.assertion .destructor)) ∧
      (run step (new true true true) closingClient).map (fun s => (s.destructor, s.teardown)) =
        some (.ok (), .error (.assertion .destructor)) :=
  ⟨rfl, by decide +kernel, by decide +kernel⟩

end CppWeb.Server.TCPServerSingle
