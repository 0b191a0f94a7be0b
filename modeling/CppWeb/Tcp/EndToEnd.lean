/-
  Tcp/EndToEnd.lean --- two connections and the network between them.

  Each end is a connection with its loop and its threads.  The network is what
  a TCP connection promises the two sockets: the bytes the kernel accepted on
  one side arrive on the other in order, in pieces of any size; `::readv`
  returns 0 only after the other side's FIN and all bytes before it; and
  `::write` after a FIN fails with `EPIPE`.

  A message then passes through the output buffer of its connection, the
  network, and the input buffer of the other one, and these three compose to a
  single stage.  The end of the stream falls between two messages, unless one
  was given up before.
-/
import CppWeb.Foundation.Link
import CppWeb.Tcp.FinOrder
import CppWeb.Tcp.Transfer

set_option autoImplicit false

namespace CppWeb.Tcp

open CppWeb.Foundation CppWeb.Loop CppWeb.Poll

def ePipe : Nat := 32

namespace Connection

/-! ## The log of a job -/

/-- A `::readv` in the log after a job was there before, or is the job's. -/
theorem Executed.readv {c : Connection} {io : Io} {job : Job} {r : Connection × List Task}
    (h : Executed c io job r) {result : ReadResult} (hmem : .readv result ∈ r.1.syscalls) :
    .readv result ∈ c.syscalls ∨ (job = .callback .read ∧ result = io.read) := by
  have hrecord : ∀ call : Syscall, (∀ x, call ≠ .readv x) →
      .readv result ∈ c.syscalls ++ [call] → .readv result ∈ c.syscalls := by
    intro call hcall hmem
    rcases List.mem_append.mp hmem with hmem | hmem
    · exact hmem
    · exact absurd (List.mem_singleton.mp hmem).symm (hcall result)
  cases h with
  | read h =>
    have hread : .readv result ∈ c.syscalls ++ [.readv io.read] →
        .readv result ∈ c.syscalls ∨ (Job.callback .read = .callback .read ∧ result = io.read) := by
      intro hmem
      rcases List.mem_append.mp hmem with hmem | hmem
      · exact Or.inl hmem
      · exact Or.inr ⟨rfl, by simpa using hmem⟩
    cases h with
    | failed hstate =>
      refine hread ?_
      simpa [handleError, record] using hmem
    | closed n inputBuffer hstate => exact hread hmem
    | data n inputBuffer hstate => exact hread hmem
  | write h =>
    cases h with
    | disconnected hstate => exact Or.inl hmem
    | _ => exact Or.inl (hrecord _ (by simp) hmem)
  | send message h =>
    cases h with
    | direct tasks => exact Or.inl (hrecord _ (by simp) hmem)
    | directRest tasks => exact Or.inl (hrecord _ (by simp) hmem)
    | _ => exact Or.inl hmem
  | error => exact Or.inl (hrecord _ (by simp) hmem)
  | shutdown =>
    rw [shutdownInLoop] at hmem
    split at hmem
    · exact Or.inl (hrecord _ (by simp) hmem)
    · exact Or.inl hmem
  | _ => exact Or.inl hmem

end Connection

namespace World

/-! ## One end -/

/-- `::readv` has returned 0. -/
def FoundEnd (w : World) : Prop := .readv (.data []) ∈ w.conn.syscalls

instance (w : World) : Decidable w.FoundEnd := inferInstanceAs (Decidable (_ ∈ _))

/-- The step reads the end of the stream. -/
def findsEnd (w : World) (a : Action) : Bool :=
  match w.jobOf a with
  | some (.callback .read, io) => io.read = .data []
  | _ => false

/-- After the FIN the socket refuses what is written. -/
def Piped (w : World) (a : Action) : Prop :=
  w.conn.FinIssued → ∀ p ∈ w.jobOf a, p.2.write = .fail ePipe

instance (w : World) (a : Action) : Decidable (w.Piped a) :=
  inferInstanceAs (Decidable (_ → ∀ p ∈ w.jobOf a, _))

theorem finIssued_of_step {w v : World} {a : Action} (h : w.step a = .next v)
    (hfin : w.conn.FinIssued) : v.conn.FinIssued := by
  cases connStep_of_step h with
  | same inputBuffer settings hinput hconn => rwa [hconn]
  | exchange t io ha hcall hconn => rwa [hconn]
  | job job io r hjob hrun hconn =>
    rw [hconn]
    exact (Connection.execute_cases hrun).finIssued hfin

theorem foundEnd_of_step {w v : World} {a : Action} (h : w.step a = .next v)
    (hfound : v.FoundEnd) : w.FoundEnd ∨ w.findsEnd a = true := by
  cases connStep_of_step h with
  | same inputBuffer settings hinput hconn =>
    rw [FoundEnd, hconn] at hfound
    exact Or.inl hfound
  | exchange t io ha hcall hconn =>
    rw [FoundEnd, hconn] at hfound
    exact Or.inl hfound
  | job job io r hjob hrun hconn =>
    rw [FoundEnd, hconn] at hfound
    rcases (Connection.execute_cases hrun).readv hfound with hbefore | ⟨rfl, hread⟩
    · exact Or.inl hbefore
    · refine Or.inr ?_
      rw [findsEnd, hjob]
      simp [hread]

/-- A `::write` that fails delivers nothing. -/
theorem delivered_of_fail {c : Connection} {io : Io} {errno : Nat} (hio : io.write = .fail errno)
    (job : Connection.Job) : c.delivered io job = [] := by
  have hnone : ∀ data, (Syscall.write data io.write).delivered = [] := by
    intro data
    rw [hio]
    rfl
  cases job with
  | callback cb =>
    cases cb with
    | write =>
      rw [Connection.delivered, hnone, ite_self]
    | _ => rfl
  | task task =>
    cases task with
    | sendInLoop message =>
      rw [Connection.delivered, hnone, ite_self]
    | _ => rfl

theorem delivered_of_finIssued {w : World} {a : Action} (hfin : w.conn.FinIssued)
    (hpiped : w.Piped a) : w.delivered a = [] := by
  rw [delivered]
  cases hjob : w.jobOf a with
  | some p =>
    obtain ⟨job, io⟩ := p
    exact delivered_of_fail (hpiped hfin _ hjob) job
  | none => rfl

/-- A connection as one end of a link. -/
def port : Port Abort World Action UInt8 where
  step := step
  sends := delivered
  takes := received
  findsEnd := findsEnd
  hasEnded := fun w => w.conn.FinIssued
  hasFoundEnd := fun w => w.FoundEnd
  permitted := Piped
  decidablePermitted := inferInstance
  hasEnded_of_step := fun w a v h hfin => by
    simpa using finIssued_of_step h (by simpa using hfin)
  hasFoundEnd_of_step := fun w a v h hfound => by
    simpa using foundEnd_of_step h (by simpa using hfound)
  sends_of_hasEnded := fun w a hfin hpiped => delivered_of_finIssued (by simpa using hfin) hpiped

/-! ## Two ends -/

/-- Two connections that have just been established with each other. -/
def linked (settings settings' : Settings) : Link World World UInt8 :=
  { left := start settings, right := start settings', toLeft := [], toRight := [] }

/-- One step of either end. -/
abbrev linkStep : Link World World UInt8 → EndAction Action Action →
    Outcome Abort (Link World World UInt8) := Link.step port port

/-- Every message that has run at the sender is, byte for byte and in order,
with the receiver's user, in the receiver's buffer, on its way, or in the
sender's buffer; and the messages of each thread are in the order it sent
them. -/
structure Delivery (sender receiver : World) (consumed transit : List UInt8) : Prop where
  bytes : bytesOf sender.ran = consumed ++ (receiver.conn.inputBuffer.content ++
    (transit ++ sender.conn.outputBuffer.content))
  order : sender.ran.Pairwise Message.Before

theorem stage_sender :
    Stage port.step StreamInv (fun w a => ¬ w.WriteFaults a) entrusted port.sends
      (fun w => w.conn.outputBuffer.content) :=
  stage_output.strengthen (fun _ _ _ hw hgood h => hw.step hgood h) (fun _ hw => hw.wf)
    fun _ _ hgood hgives => hgood (.of_givesUp hgives)

/-- What has run at a component is what was entrusted to it in the run. -/
theorem bytesOf_ran_of_run {τ δ : Type} {system : τ → δ → Outcome Abort τ} {part : τ → World}
    {act : τ → δ → Option Action} (c : Component system step part act) {u v : τ} {ds : List δ}
    (hstart : (part u).ran = []) (h : run system u ds = some v) :
    bytesOf (part v).ran = emitted system (through part act entrusted) u ds := by
  rw [stage_bytesOf_ran.history_of_component c h, hstart]
  rfl

theorem content_input_start (settings : Settings) :
    (start settings).conn.inputBuffer.content = [] := Connection.content_freshBuffer

theorem content_output_start (settings : Settings) :
    (start settings).conn.outputBuffer.content = [] := Connection.content_freshBuffer

/-- **End to end.**  In every run of two linked connections, with any threads on
both sides and any cutting of the stream by the network, and without a fatal
error of `::write` at the sender: what has run at the sender is accounted for
byte by byte, in order.  This holds in both directions. -/
theorem end_to_end (settings settings' : Settings) (actions : List (EndAction Action Action))
    {l : Link World World UInt8} (h : run linkStep (linked settings settings') actions = some l) :
    (Along linkStep (Link.Good (fun w a => ¬ w.WriteFaults a) fun _ _ => True)
        (linked settings settings') actions →
      Delivery l.left l.right
        (emitted linkStep (Link.atRight consumed) (linked settings settings') actions)
        l.toRight) ∧
    (Along linkStep (Link.Good (fun _ _ => True) fun w a => ¬ w.WriteFaults a)
        (linked settings settings') actions →
      Delivery l.right l.left
        (emitted linkStep (Link.atLeft consumed) (linked settings settings') actions)
        l.toLeft) := by
  constructor
  · intro hgood
    obtain ⟨⟨hinv, _⟩, hall⟩ := (Link.stage_leftToRight (P := port) (Q := port) stage_sender
      stage_input).run ⟨streamInv_start settings, Connection.wf_freshBuffer⟩ hgood h
    refine ⟨?_, hinv.intact.order⟩
    rw [bytesOf_ran_of_run Link.component_left rfl h]
    refine Eq.trans ?_ hall
    simp [linked, content_input_start, content_output_start]
  · intro hgood
    obtain ⟨⟨_, hinv⟩, hall⟩ := (Link.stage_rightToLeft (P := port) (Q := port) stage_input
      stage_sender).run ⟨Connection.wf_freshBuffer, streamInv_start settings'⟩ hgood h
    refine ⟨?_, hinv.intact.order⟩
    rw [bytesOf_ran_of_run Link.component_right rfl h]
    refine Eq.trans ?_ hall
    simp [linked, content_input_start, content_output_start]

/-- The left end sends two bytes of which the kernel takes one at once; the
right end reads and consumes it; then the left end writes the other. -/
def twoPieces : List (EndAction Action Action) :=
  [.left (.call .loop (.send ⟨[65, 66], SizeT.two_le_maxSize⟩)),
    .left (.resume .loop ⟨.accepted 1, .fail 0⟩), .left (.loop .swap), .left (.loop .endRound),
    .right (.loop .swap), .right (.loop .endRound), .right (.loop (.poll epollIn)),
    .right (.loop (.handleEvents ⟨.fail 0, .data [65]⟩)), .right (.user (.retrieve 1)),
    .left (.loop (.poll epollOut)), .left (.loop (.handleEvents ⟨.accepted 1, .fail 0⟩))]

/-- Both bytes are accounted for. -/
theorem end_to_end_twoPieces :
    ∃ l : Link World World UInt8,
      run linkStep (linked ⟨false, true, false, 0⟩ ⟨false, true, false, 0⟩) twoPieces = some l ∧
      Delivery l.left l.right
        (emitted linkStep (Link.atRight consumed)
          (linked ⟨false, true, false, 0⟩ ⟨false, true, false, 0⟩) twoPieces) l.toRight := by
  obtain ⟨l, hl⟩ : ∃ l, run linkStep (linked ⟨false, true, false, 0⟩ ⟨false, true, false, 0⟩)
      twoPieces = some l := Option.isSome_iff_exists.mp (by decide +kernel)
  exact ⟨l, hl, (end_to_end _ _ _ hl).1 (by decide +kernel)⟩

/-! ## The end of the stream -/

/-- Until the FIN the stream is whole and a backlog comes with write interest;
after it the kernel has accepted the messages up to some point. -/
structure Sealed (w : World) : Prop where
  before : ¬ w.conn.FinIssued → w.StreamInv ∧ w.conn.Backlogged
  after : w.conn.FinIssued → ∃ ms, ms <+: w.ran ∧ w.conn.wire = bytesOf ms

/-- The step opens no closed connection, and before the FIN no write fails for
good. -/
def SoundBeforeFin (w : World) (a : Action) : Prop :=
  ¬ w.Revives a ∧ (w.conn.FinIssued ∨ ¬ w.WriteFaults a)

instance (w : World) (a : Action) : Decidable (w.SoundBeforeFin a) :=
  inferInstanceAs (Decidable (_ ∧ (_ ∨ _)))

theorem sealed_start (settings : Settings) : (start settings).Sealed := by
  refine ⟨fun _ => ⟨streamInv_start settings, fun _ hpos => ?_⟩, fun hfin => ?_⟩
  · have hempty := (Buffer.content_eq_nil_iff Connection.wf_freshBuffer).mp
      Connection.content_freshBuffer
    rw [show (start settings).conn.outputBuffer = Connection.freshBuffer from rfl] at hpos
    omega
  · cases hfin

theorem backlogged_of_step {w v : World} {a : Action} (hw : w.conn.Backlogged)
    (hgood : ¬ w.Revives a) (h : w.step a = .next v) : v.conn.Backlogged := by
  have hopen := open_of_open hgood h
  cases connStep_of_step h with
  | same inputBuffer settings hinput hconn hran =>
    rw [hconn]
    exact hw
  | exchange t io ha hcall hconn hran =>
    rw [hconn] at hopen ⊢
    exact fun hstate => hw (hopen hstate)
  | job job io r hjob hrun hconn hran =>
    rw [hconn]
    exact (Connection.execute_cases hrun).backlogged hw

/-- The FIN finds the output buffer empty. -/
theorem content_of_first_fin {w v : World} {a : Action} (hwf : w.conn.outputBuffer.WF)
    (hw : w.conn.Backlogged) (h : w.step a = .next v) (hnot : ¬ w.conn.FinIssued)
    (hfin : v.conn.FinIssued) : v.conn.outputBuffer.content = [] := by
  cases connStep_of_step h with
  | same inputBuffer settings hinput hconn hran =>
    rw [hconn] at hfin
    exact absurd hfin hnot
  | exchange t io ha hcall hconn hran =>
    rw [hconn] at hfin
    exact absurd hfin hnot
  | job job io r hjob hrun hconn hran =>
    rw [hconn] at hfin ⊢
    obtain ⟨rfl, hopen, hidle, _⟩ := first_fin hrun hnot hfin
    have hexec := Connection.execute_cases hrun
    have hempty : w.conn.outputBuffer.readableBytes = 0 := by
      by_contra hpos
      have hwriting := hw hopen (Nat.pos_of_ne_zero hpos)
      rw [hidle] at hwriting
      cases hwriting
    exact Connection.content_of_empty (hexec.wf_output hwf)
      (hexec.readableBytes_zero (by simp) hempty)

theorem Sealed.step {w v : World} {a : Action} (hw : w.Sealed) (hgood : w.SoundBeforeFin a)
    (hpiped : w.Piped a) (h : w.step a = .next v) : v.Sealed := by
  by_cases hfin : w.conn.FinIssued
  · refine ⟨fun hnot => absurd (finIssued_of_step h hfin) hnot, fun _ => ?_⟩
    obtain ⟨ms, hms, hwire⟩ := hw.after hfin
    refine ⟨ms, hms.trans ?_, ?_⟩
    · have hran := stage_ran.conserves w a v trivial trivial h
      rw [List.nil_append] at hran
      rw [← hran]
      exact List.prefix_append _ _
    · rw [wire_of_step h, delivered_of_finIssued hfin hpiped, List.append_nil, hwire]
  · obtain ⟨hinv, hbacklogged⟩ := hw.before hfin
    have hfault := hgood.2.resolve_left hfin
    have hinv' := hinv.step hfault h
    refine ⟨fun _ => ⟨hinv', backlogged_of_step hbacklogged hgood.1 h⟩, fun hfin' => ?_⟩
    have hempty := content_of_first_fin hinv.wf hbacklogged h hfin hfin'
    have hstream := hinv'.bytes
    rw [Connection.stream, hempty, List.append_nil] at hstream
    exact ⟨v.ran, List.prefix_rfl, hstream⟩

/-- The invariant of a link whose left end is sound. -/
structure EndInv (l : Link World World UInt8) : Prop where
  sealed : l.left.Sealed
  order : Link.EndInOrder port port l

theorem endInv_linked (settings settings' : Settings) : EndInv (linked settings settings') := by
  refine ⟨sealed_start settings, ⟨fun hfound => ?_, fun hfound => ?_⟩⟩
  · simp [linked, port, FoundEnd, start, Connection.established] at hfound
  · simp [linked, port, FoundEnd, start, Connection.established] at hfound

theorem EndInv.step {l m : Link World World UInt8} {a : EndAction Action Action} (hl : EndInv l)
    (hgood : l.Good SoundBeforeFin (fun _ _ => True) a) (h : linkStep l a = .next m) :
    EndInv m := by
  refine ⟨?_, hl.order.step h⟩
  cases Link.step_cases h with
  | left a left hadmissible hstep => exact hl.sealed.step hgood hadmissible.2.2 hstep
  | right b right hadmissible hstep => exact hl.sealed

/-- A worker on the left sends a byte and shuts down; the right end reads the
byte and then the end of the stream. -/
def byteThenEnd : List (EndAction Action Action) :=
  [.left (.call (.worker 0) (.send ⟨[65], SizeT.one_le_maxSize⟩)),
    .left (.resume (.worker 0) ⟨.fail 0, .fail 0⟩), .left (.call (.worker 0) .shutdown),
    .left (.resume (.worker 0) ⟨.fail 0, .fail 0⟩),
    .left (.resume (.worker 0) ⟨.fail 0, .fail 0⟩), .left (.loop .swap),
    .left (.loop (.runTask ⟨.accepted 1, .fail 0⟩)),
    .left (.loop (.runTask ⟨.fail 0, .fail 0⟩)),
    .right (.loop .swap), .right (.loop .endRound), .right (.loop (.poll epollIn)),
    .right (.loop (.handleEvents ⟨.fail 0, .data [65]⟩)), .right (.user (.retrieve 1)),
    .right (.loop .swap), .right (.loop .endRound), .right (.loop (.poll epollIn)),
    .right (.loop (.handleEvents ⟨.fail 0, .data []⟩))]

end World

end CppWeb.Tcp
