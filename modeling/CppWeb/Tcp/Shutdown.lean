/-
  Tcp/Shutdown.lean --- when a graceful shutdown completes.

  The FIN is issued by the closure that `shutdown()` submits, if no write is
  pending, and else by `handleWrite` once the backlog has drained.  Both look at
  `isWriting()`.  Since `disableWrite` does not clear it, the second never
  issues a FIN, and neither does the first after a backlog has drained or after
  `stopRead` has set the bit.  So a graceful shutdown completes in exactly the
  runs that do not come to one of these points with nothing left to write.
-/
import CppWeb.Tcp.Closing
import CppWeb.Tcp.Output

set_option autoImplicit false

namespace CppWeb.Tcp.World

open CppWeb.Foundation CppWeb.Loop CppWeb.Poll

/-- Once the `shutdownInLoop` that a `shutdown()` submitted has run and nothing
is left to write, the FIN has been issued or the connection is closed. -/
def ShutdownComplete (w : World) : Prop :=
  w.shutdownRan = true → w.conn.outputBuffer.readableBytes = 0 →
    w.conn.FinIssued ∨ w.conn.state = .kDisconnected

instance (w : World) : Decidable w.ShutdownComplete :=
  inferInstanceAs (Decidable (_ → _ → _ ∨ _))

/-- The submitted `shutdownInLoop` runs with an empty buffer, and finds a write
pending all the same. -/
def ShutdownBlocked (w : World) (a : Action) : Prop :=
  w.Runs (.task .shutdownInLoop) a ∧ w.conn.state ≠ .kDisconnected ∧
    w.conn.outputBuffer.readableBytes = 0 ∧ w.conn.channel.isWriting = true

/-- The backlog drains after the submitted `shutdownInLoop` has run. -/
def DrainsAfterShutdown (w : World) (a : Action) : Prop :=
  w.DrainsBacklog a ∧ w.shutdownRan = true

/-- The connection is opened again after the submitted `shutdownInLoop` has
run, with nothing left to write. -/
def RevivesAfterShutdown (w : World) (a : Action) : Prop :=
  w.Revives a ∧ w.shutdownRan = true ∧ w.conn.outputBuffer.readableBytes = 0

/-- The step loses the FIN, unless one was issued before. -/
def LosesFin (w : World) (a : Action) : Prop :=
  (w.ShutdownBlocked a ∨ w.DrainsAfterShutdown a ∨ w.RevivesAfterShutdown a) ∧
    ¬ w.conn.FinIssued

/-- The invariant of the runs that lose no FIN. -/
structure FinInv (w : World) : Prop where
  wf : w.conn.outputBuffer.WF
  complete : w.ShutdownComplete

/-! ## Steps that lose no FIN -/

/-- Running the submitted `shutdownInLoop` completes the shutdown when it is not
blocked. -/
theorem shutdownInLoop_complete {c : Connection}
    (h : ¬ (c.state ≠ .kDisconnected ∧ c.outputBuffer.readableBytes = 0 ∧
      c.channel.isWriting = true) ∨ c.FinIssued)
    (hempty : c.outputBuffer.readableBytes = 0) :
    c.shutdownInLoop.FinIssued ∨ c.shutdownInLoop.state = .kDisconnected := by
  rw [Connection.shutdownInLoop]
  split
  · refine Or.inl ?_
    rw [Connection.FinIssued, Connection.record]
    exact List.mem_append_right _ (List.mem_singleton.mpr rfl)
  · rename_i hskip
    rcases h with hfree | hfin
    · refine Or.inr ?_
      by_contra hopen
      refine hskip ⟨hopen, ?_⟩
      by_contra hwriting
      exact hfree ⟨hopen, hempty, by simpa using hwriting⟩
    · exact Or.inl hfin

/-- A job that loses no FIN keeps a shutdown complete. -/
theorem FinInv.job {w v : World} {a : Action} {job : Connection.Job} {io : Io}
    {r : Connection × List Task} (hw : w.FinInv) (hgood : ¬ w.LosesFin a)
    (hjob : w.jobOf a = some (job, io)) (hrun : w.conn.execute io job = .ok r)
    (hconn : v.conn = r.1)
    (hran : v.shutdownRan = (w.shutdownRan || job == .task .shutdownInLoop)) :
    v.ShutdownComplete := by
  have hexec := Connection.execute_cases hrun
  intro hranv hempty
  rw [hconn] at hempty ⊢
  by_cases hshutdown : job = .task .shutdownInLoop
  · -- the submitted closure itself
    subst hshutdown
    cases hexec with
    | shutdown =>
      have hempty' : w.conn.outputBuffer.readableBytes = 0 := by
        rw [Connection.shutdownInLoop] at hempty
        split at hempty <;> exact hempty
      refine shutdownInLoop_complete ?_ hempty'
      by_cases hfin : w.conn.FinIssued
      · exact Or.inr hfin
      · refine Or.inl fun hblocked => hgood ⟨Or.inl ⟨runs_iff.mpr ⟨io, hjob⟩, hblocked⟩, hfin⟩
  · have hranw : w.shutdownRan = true := by
      rw [hran] at hranv
      simpa [hshutdown] using hranv
    by_cases hdrains : w.conn.Drains job io
    · -- the backlog drains: a FIN was issued before
      have hfin : w.conn.FinIssued := by
        by_contra hfin
        exact hgood ⟨Or.inr (Or.inl ⟨(drainsBacklog_iff hjob).mpr hdrains, hranw⟩), hfin⟩
      exact Or.inl (hexec.finIssued hfin)
    · have hemptyw := hexec.readableBytes_eq_zero hw.wf hdrains hempty
      rcases hw.complete hranw hemptyw with hfin | hstate
      · exact Or.inl (hexec.finIssued hfin)
      · refine Or.inr ?_
        rcases hexec.closes with ⟨hsame, _, _⟩ | ⟨_, hclosed, _, _⟩
        · rw [hsame, hstate]
        · exact hclosed

/-- **One step.** -/
theorem FinInv.step {w v : World} {a : Action} (hw : w.FinInv) (hgood : ¬ w.LosesFin a)
    (h : w.step a = .next v) : v.FinInv := by
  refine ⟨wf_output_of_step hw.wf h, ?_⟩
  cases connStep_of_step h with
  | same inputBuffer settings hinput hconn hran =>
    rw [ShutdownComplete, hran, hconn]
    exact hw.complete
  | exchange t io ha hcall hconn hran =>
    rw [ShutdownComplete, hran, hconn]
    intro hranw hempty
    rcases hw.complete hranw hempty with hfin | hstate
    · exact Or.inl hfin
    · refine Or.inl ?_
      by_contra hfin
      subst ha
      exact hgood ⟨Or.inr (Or.inr ⟨⟨hcall, hstate⟩, hranw, hempty⟩), hfin⟩
  | job job io r hjob hrun hconn hran => exact hw.job hgood hjob hrun hconn hran

/-! ## Steps that lose the FIN -/

/-- A step that loses the FIN leads to a state where the shutdown is not
complete and will not be. -/
theorem not_complete_of_losesFin {w : World} {a : Action} (hwf : w.conn.outputBuffer.WF)
    (h : w.LosesFin a) : ∃ v, w.step a = .next v ∧ ¬ v.ShutdownComplete := by
  obtain ⟨hloses, hfin⟩ := h
  rcases hloses with ⟨hruns, hopen, hempty, hwriting⟩ | ⟨hdrains, hran⟩ | ⟨hrevives, hran, hempty⟩
  · obtain ⟨io, hjob⟩ := runs_iff.mp hruns
    have hrun : w.conn.execute io (.task .shutdownInLoop) = .ok (w.conn, []) := by
      rw [Connection.execute, Connection.shutdownInLoop_of_isWriting hwriting]
    obtain ⟨v, hv, hconn, hran⟩ := step_of_execute hjob hrun
    refine ⟨v, hv, fun hcomplete => ?_⟩
    rw [ShutdownComplete, hran, hconn] at hcomplete
    rcases hcomplete (by simp) hempty with hfin' | hstate
    · exact hfin hfin'
    · exact hopen hstate
  · obtain ⟨v, io, hv, hstate, hwriting, hempty, hcalls, hranv⟩ :=
      step_of_drainsBacklog hwf hdrains
    refine ⟨v, hv, fun hcomplete => ?_⟩
    rcases hcomplete (by rw [hranv, hran]) hempty with hfin' | hclosed
    · rw [Connection.FinIssued, hcalls] at hfin'
      simp only [List.mem_append, List.mem_singleton, reduceCtorEq, or_false] at hfin'
      exact hfin hfin'
    · -- a draining job only runs on an open connection
      rw [hstate] at hclosed
      cases hjob : w.jobOf a with
      | none =>
        rw [DrainsBacklog, hjob] at hdrains
        exact hdrains
      | some ji =>
        rw [drainsBacklog_iff hjob] at hdrains
        exact hdrains.2.1 hclosed
  · cases a with
    | resume t io =>
      obtain ⟨hexchange, _⟩ := hrevives
      obtain ⟨v, hv, hconn, hranv⟩ := step_of_exchanges hexchange io
      refine ⟨v, hv, fun hcomplete => ?_⟩
      rw [ShutdownComplete, hranv, hconn] at hcomplete
      rcases hcomplete hran hempty with hfin' | hclosed
      · exact hfin hfin'
      · cases hclosed
    | loop a => exact absurd hrevives id
    | call t c => exact absurd hrevives id
    | user a => exact absurd hrevives id

/-! ## Runs -/

/-- **A graceful shutdown completes exactly when no step loses the FIN.**  For
every run of one connection with any threads, any sends and any write results:
in every state, a shutdown whose `shutdownInLoop` has run and that has nothing
left to write has issued the FIN or found the connection closed, if and only if
no step of the run is one of three: that `shutdownInLoop` finding a write
pending although the buffer is empty, the backlog draining after it, or the
connection being opened again after it; each before a FIN. -/
theorem shutdown_complete_iff (settings : Settings) (actions : List Action) :
    Throughout step ShutdownComplete (start settings) actions ↔
      Along step (fun w a => ¬ w.LosesFin a) (start settings) actions :=
  throughout_iff_along (I := FinInv)
    ⟨wf_output_start settings, fun h => by cases h⟩
    (fun _ _ _ hw hgood hstep => hw.step hgood hstep)
    (fun _ hw => hw.complete)
    (fun _ _ hw hbad => not_complete_of_losesFin hw.wf (not_not.mp hbad)) actions

/-- Two bytes are sent and one of them is accepted; the sender shuts the
connection down; the other byte is accepted. -/
def shutdownWithBacklog : List Action :=
  [.call .loop (.send ⟨[65, 66], SizeT.two_le_maxSize⟩),
    .resume .loop ⟨.accepted 1, .fail 0⟩,
    .call .loop .shutdown, .resume .loop ⟨.fail 0, .fail 0⟩, .resume .loop ⟨.fail 0, .fail 0⟩,
    .loop .swap, .loop .endRound, .loop (.poll epollOut),
    .loop (.handleEvents ⟨.accepted 1, .fail 0⟩)]

/-- The FIN is never issued although everything has been written. -/
theorem not_complete_shutdownWithBacklog :
    ¬ Throughout step ShutdownComplete (start ⟨false, true, false, 0⟩) shutdownWithBacklog := by
  decide +kernel

end CppWeb.Tcp.World
