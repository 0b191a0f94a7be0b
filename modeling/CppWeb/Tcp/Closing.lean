/-
  Tcp/Closing.lean --- closing happens once, and who can undo it.

  `shutdown()` and `forceClose()` look at `m_state` and then exchange it for
  `kDisconnecting`, whatever it is by then.  When the loop has closed the
  connection in between, the exchange opens it again.  This is the only way
  out of `kDisconnected`; in a run where no exchange falls behind the close,
  the body of `handleClose` runs at most once and the destructor's assertion
  holds from then on.
-/
import CppWeb.Tcp.World

set_option autoImplicit false

namespace CppWeb.Tcp

open CppWeb.Foundation CppWeb.Loop CppWeb.Poll

/-! ## The state under a job -/

/-- A job leaves the state and the counts alone, or it is a close of a
connection that was not closed. -/
theorem Connection.Executed.closes {c : Connection} {io : Io} {job : Connection.Job}
    {r : Connection × List Task} (h : Connection.Executed c io job r) :
    (r.1.state = c.state ∧ r.1.closes = c.closes ∧ r.1.closeCallbacks = c.closeCallbacks) ∨
    (c.state ≠ .kDisconnected ∧ r.1.state = .kDisconnected ∧ r.1.closes = c.closes + 1 ∧
      r.1.closeCallbacks ≤ c.closeCallbacks + 1) := by
  have hclosed : ∀ d : Connection, d.closed.closeCallbacks ≤ d.closeCallbacks + 1 := by
    intro d
    rw [Connection.closed]
    dsimp only
    split <;> omega
  cases h with
  | close hstate =>
    refine Or.inr ⟨?_, rfl, rfl, hclosed c⟩
    rcases hstate with hstate | hstate <;> simp [hstate]
  | error => exact Or.inl ⟨rfl, rfl, rfl⟩
  | read h =>
    cases h with
    | failed hstate => exact Or.inl ⟨rfl, rfl, rfl⟩
    | closed n inputBuffer hstate => exact Or.inr ⟨hstate, rfl, rfl, hclosed _⟩
    | data n inputBuffer hstate => exact Or.inl ⟨rfl, rfl, rfl⟩
  | write h => cases h <;> exact Or.inl ⟨rfl, rfl, rfl⟩
  | send message h => cases h <;> exact Or.inl ⟨rfl, rfl, rfl⟩
  | shutdown =>
    rw [Connection.shutdownInLoop]
    split <;> exact Or.inl ⟨rfl, rfl, rfl⟩
  | forceClose hstate =>
    refine Or.inr ⟨?_, rfl, rfl, hclosed c⟩
    rcases hstate with hstate | hstate <;> simp [hstate]
  | forceCloseSkipped hstate => exact Or.inl ⟨rfl, rfl, rfl⟩
  | stopRead channel hreading hchannel => exact Or.inl ⟨rfl, rfl, rfl⟩
  | stopReadSkipped hreading => exact Or.inl ⟨rfl, rfl, rfl⟩
  | startRead channel hreading hchannel => exact Or.inl ⟨rfl, rfl, rfl⟩
  | startReadSkipped hreading => exact Or.inl ⟨rfl, rfl, rfl⟩
  | writeCompleteCallback => exact Or.inl ⟨rfl, rfl, rfl⟩
  | highWaterMarkCallback len => exact Or.inl ⟨rfl, rfl, rfl⟩

namespace World

/-! ## The state under a step -/

/-- What a step does to the state: nothing, an exchange, or a close. -/
inductive ClosingStep (w : World) (a : Action) (v : World) : Prop where
  | same (hstate : v.conn.state = w.conn.state) (hcloses : v.conn.closes = w.conn.closes)
      (hcallbacks : v.conn.closeCallbacks = w.conn.closeCallbacks)
  | exchange (t : Thread) (io : Io) (ha : a = .resume t io) (hcall : w.Exchanges t)
      (hconn : v.conn = { w.conn with state := .kDisconnecting })
  | close (hopen : w.conn.state ≠ .kDisconnected) (hstate : v.conn.state = .kDisconnected)
      (hcloses : v.conn.closes = w.conn.closes + 1)
      (hcallbacks : v.conn.closeCallbacks ≤ w.conn.closeCallbacks + 1)

theorem closingStep_of_step {w v : World} {a : Action} (h : w.step a = .next v) :
    ClosingStep w a v := by
  cases connStep_of_step h with
  | same inputBuffer settings hinput hconn hran =>
    exact .same (by rw [hconn]) (by rw [hconn]) (by rw [hconn])
  | exchange t io ha hcall hconn hran => exact .exchange t io ha hcall hconn
  | job job io r hjob hrun hconn hran =>
    rcases (Connection.execute_cases hrun).closes with
      ⟨hstate, hcloses, hcalls⟩ | ⟨hopen, hstate, hcloses, hcalls⟩
    · exact .same (by rw [hconn, hstate]) (by rw [hconn, hcloses]) (by rw [hconn, hcalls])
    · exact .close hopen (by rw [hconn, hstate]) (by rw [hconn, hcloses]) (by rwa [hconn])

/-! ## Runs -/

/-- The step does not lead out of `kDisconnected`. -/
def StaysClosed (w : World) (a : Action) : Prop :=
  (w.step a).Leads fun v => w.conn.state = .kDisconnected → v.conn.state = .kDisconnected

instance (w : World) (a : Action) : Decidable (w.StaysClosed a) :=
  inferInstanceAs (Decidable (Outcome.Leads _ _))

/-- The body of `handleClose` and the close callback were run at most once, and
once the body was run the destructor's assertion holds. -/
structure ClosedOnce (w : World) : Prop where
  closes : w.conn.closes ≤ 1
  closeCallbacks : w.conn.closeCallbacks ≤ 1
  destructor : 0 < w.conn.closes → w.conn.destructor = .ok ()

theorem staysClosed_iff (w : World) (a : Action) : w.StaysClosed a ↔ ¬ w.Revives a := by
  rw [StaysClosed, Outcome.leads_iff]
  constructor
  · intro h hrevives
    cases a with
    | resume t io =>
      obtain ⟨hexchange, hstate⟩ := hrevives
      obtain ⟨v, hv, hconn, _⟩ := step_of_exchanges hexchange io
      have hstays := h v hv hstate
      simp [hconn] at hstays
    | loop a => exact hrevives
    | call t c => exact hrevives
    | user a => exact hrevives
  · intro h v hv hstate
    cases closingStep_of_step hv with
    | same hsame _ _ => rw [hsame, hstate]
    | exchange t io ha hcall hconn =>
      subst ha
      exact absurd ⟨hcall, hstate⟩ h
    | close hopen hclosed _ _ => exact hclosed

/-- What holds of the counts while nothing revives the connection. -/
structure ClosingInv (w : World) : Prop where
  disconnected : 0 < w.conn.closes → w.conn.state = .kDisconnected
  closes : w.conn.closes ≤ 1
  closeCallbacks : w.conn.closeCallbacks ≤ w.conn.closes

theorem closingInv_start (settings : Settings) : (start settings).ClosingInv :=
  ⟨fun h => absurd h (Nat.lt_irrefl 0), Nat.zero_le 1, Nat.le_refl 0⟩

theorem ClosingInv.step {w v : World} {a : Action} (hw : w.ClosingInv) (hgood : ¬ w.Revives a)
    (h : w.step a = .next v) : v.ClosingInv := by
  cases closingStep_of_step h with
  | same hstate hcloses hcallbacks =>
    refine ⟨?_, ?_, ?_⟩
    · rw [hcloses, hstate]
      exact hw.disconnected
    · rw [hcloses]
      exact hw.closes
    · rw [hcloses, hcallbacks]
      exact hw.closeCallbacks
  | exchange t io ha hcall hconn =>
    subst ha
    rw [Revives] at hgood
    have hnot : ¬ 0 < w.conn.closes := fun hpos => hgood ⟨hcall, hw.disconnected hpos⟩
    refine ⟨fun hpos => absurd ?_ hnot, ?_, ?_⟩
    · simpa [hconn] using hpos
    · rw [hconn]
      exact hw.closes
    · rw [hconn]
      exact hw.closeCallbacks
  | close hopen hstate hcloses hcallbacks =>
    have hzero : w.conn.closes = 0 := by
      by_contra hne
      exact hopen (hw.disconnected (Nat.pos_of_ne_zero hne))
    have hle := hw.closeCallbacks
    exact ⟨fun _ => hstate, by omega, by omega⟩

theorem ClosingInv.closedOnce {w : World} (h : w.ClosingInv) : w.ClosedOnce :=
  ⟨h.closes, Nat.le_trans h.closeCallbacks h.closes,
    fun hpos => require_ok (h.disconnected hpos)⟩

/-- **The close is final exactly when no exchange falls behind it.**  For every
run of one connection with any threads: no step leads out of `kDisconnected`,
the body of `handleClose` and the close callback are run at most once, and the
destructor's assertion holds once the body was run, if and only if no
`shutdown` or `forceClose` exchanges `m_state` when it is `kDisconnected`. -/
theorem closed_once_iff (settings : Settings) (actions : List Action) :
    (Along step StaysClosed (start settings) actions ∧
        Throughout step ClosedOnce (start settings) actions) ↔
      Along step (fun w a => ¬ w.Revives a) (start settings) actions := by
  have hstays : Along step StaysClosed (start settings) actions ↔
      Along step (fun w a => ¬ w.Revives a) (start settings) actions :=
    along_iff_along (I := fun _ => True) trivial (fun _ _ _ _ _ _ => trivial)
      (fun w a _ => staysClosed_iff w a) actions
  constructor
  · intro h
    exact hstays.mp h.1
  · intro h
    refine ⟨hstays.mpr h, ?_⟩
    have hinv := throughout_of_along (I := ClosingInv) (closingInv_start settings)
      (fun _ _ _ hi hgood hstep => hi.step hgood hstep) h
    exact hinv.mono fun _ hw => hw.closedOnce

/-- A thread has passed the assertion of `shutdown()`; the peer hangs up and
the loop closes the connection; then comes the exchange. -/
def lateShutdown : List Action :=
  [.loop .swap, .loop .endRound, .call (.worker 0) .shutdown, .loop (.poll epollHup),
    .loop (.handleEvents ⟨.fail 0, .fail 0⟩), .resume (.worker 0) ⟨.fail 0, .fail 0⟩]

/-- The late exchange leads out of `kDisconnected`, and the destructor's
assertion then fails although `handleClose` has run. -/
theorem not_closed_once_lateShutdown :
    ¬ Along step StaysClosed (start ⟨false, true, false, 0⟩) lateShutdown ∧
      ¬ Throughout step (fun w => 0 < w.conn.closes → w.conn.destructor = .ok ())
        (start ⟨false, true, false, 0⟩) lateShutdown := by
  decide +kernel

end World

end CppWeb.Tcp
