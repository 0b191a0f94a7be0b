/-
  Tcp/WriteInterest.lean --- when write interest matches pending output.

  While a connection is open it should be waiting for write events exactly when
  its output buffer holds something.  Two steps break this, both through the
  same slip in `Channel`: `disableWrite` after the backlog has drained leaves
  the bit set, and `disableRead` with nothing to write sets it.  A third opens
  a closed connection again while the two disagree.

  As long as none of them happens the bit and the buffer agree, the kernel asks
  for write events only with something to write, and so no assertion about the
  buffer fails.  That the kernel keeps the interest it had is part of the
  argument: the mask that `disableRead` makes while a write is pending is
  rejected.
-/
import CppWeb.Tcp.Closing
import CppWeb.Tcp.Output

set_option autoImplicit false

namespace CppWeb.Tcp

open CppWeb.Foundation CppWeb.Loop CppWeb.Poll

namespace Connection

/-- An open connection waits for write events exactly when there is something
to write. -/
def Matches (c : Connection) : Prop :=
  c.state ≠ .kDisconnected → (c.channel.isWriting = true ↔ 0 < c.outputBuffer.readableBytes)

instance (c : Connection) : Decidable c.Matches := inferInstanceAs (Decidable (_ → _))

/-- The closure of `stopRead` disables reading on an open connection that has
nothing to write. -/
def StopsIdle (c : Connection) (job : Job) : Prop :=
  job = .task .stopRead ∧ c.state ≠ .kDisconnected ∧ c.channel.isReading = true ∧
    c.outputBuffer.readableBytes = 0

/-- The invariant of a connection whose write interest has not been upset. -/
structure Interested (c : Connection) : Prop where
  output : c.outputBuffer.WF
  input : c.inputBuffer.WF
  asks : c.channel.asksWrite = true → 0 < c.outputBuffer.readableBytes
  closed : c.state = .kDisconnected → c.channel.isWriting = true → c.channel.isReading = true
  agree : c.Matches

theorem interested_established (settings : Settings) : (established settings).Interested := by
  have hempty : (established settings).outputBuffer.readableBytes = 0 :=
    (Buffer.content_eq_nil_iff wf_freshBuffer).mp content_freshBuffer
  have hidle : (established settings).channel.isWriting = false :=
    (by decide :
      Channel.isWriting ⟨epollIn ||| epollPri, true, some (epollIn ||| epollPri)⟩ = false)
  have hquiet : (established settings).channel.asksWrite = false :=
    (by decide :
      Channel.asksWrite ⟨epollIn ||| epollPri, true, some (epollIn ||| epollPri)⟩ = false)
  refine ⟨wf_freshBuffer, wf_freshBuffer, ?_, ?_, ?_⟩
  · intro hask
    rw [hquiet] at hask
    cases hask
  · intro _ hwriting
    rw [hidle] at hwriting
    cases hwriting
  · intro _
    rw [hidle, hempty]
    simp

/-- A closed connection waits for nothing. -/
theorem interested_closed {c : Connection} (houtput : c.outputBuffer.WF)
    (hinput : c.inputBuffer.WF) : c.closed.Interested := by
  have hidle : c.closed.channel.isWriting = false := (by decide : Channel.new.isWriting = false)
  refine ⟨houtput, hinput, ?_, ?_, ?_⟩
  · intro hask
    exact absurd hask (by simp [Connection.closed, Channel.asksWrite, Channel.new])
  · intro _ hwriting
    rw [hidle] at hwriting
    cases hwriting
  · intro hopen
    exact absurd rfl hopen

/-- What does not touch the state, the channel and the buffers keeps the
invariant. -/
theorem Interested.congr {c d : Connection} (h : c.Interested) (hstate : d.state = c.state)
    (hchannel : d.channel = c.channel) (houtput : d.outputBuffer = c.outputBuffer)
    (hinput : d.inputBuffer.WF) : d.Interested := by
  refine ⟨?_, hinput, ?_, ?_, ?_⟩
  · rw [houtput]
    exact h.output
  · rw [hchannel, houtput]
    exact h.asks
  · rw [hstate, hchannel]
    exact h.closed
  · rw [Matches, hstate, hchannel, houtput]
    exact h.agree

/-- Appending to the buffer and enabling write events keeps the invariant. -/
theorem Interested.buffered {c d : Connection} (h : c.Interested)
    (hopen : c.state ≠ .kDisconnected) {outputBuffer : Buffer} {channel : Channel} {bytes : Bytes}
    (hlen : 0 < bytes.length) (happend : c.outputBuffer.append bytes = .ok outputBuffer)
    (hchannel : c.channel.enableWrite = .ok channel)
    (hd : d = { c with
      syscalls := d.syscalls
      outputBuffer := outputBuffer
      channel := channel }) : d.Interested := by
  have hpos : 0 < outputBuffer.readableBytes := by
    rw [readableBytes_of_append h.output happend]
    omega
  rw [hd]
  refine ⟨(wf_of_append h.output happend).1, h.input, fun _ => hpos, ?_, fun _ => ?_⟩
  · intro hstate
    exact absurd hstate hopen
  · exact ⟨fun _ => hpos, fun _ => Channel.isWriting_enableWrite hchannel⟩

/-! ## One job -/

theorem Interested.send {c : Connection} (h : c.Interested) {io : WriteResult}
    {message : Bytes} {r : Connection × List Task} (hr : SendEffect c io message r) :
    r.1.Interested := by
  cases hr with
  | disconnected hstate => exact h
  | direct tasks hstate hidle hempty hdone => exact h.congr rfl rfl rfl h.input
  | directRest tasks outputBuffer channel hstate hidle hempty hfault hrest happend hchannel =>
    refine h.buffered hstate ?_ happend hchannel rfl
    rw [Bytes.length_drop]
    omega
  | nothing hstate hwriting hlen => exact h
  | buffered tasks outputBuffer channel hstate hwriting hlen happend hchannel =>
    exact h.buffered hstate hlen happend hchannel rfl

theorem Interested.write {c : Connection} (h : c.Interested) {io : Io}
    {r : Connection × List Task} (hgood : ¬ c.Drains (.callback .write) io)
    (hr : WriteEffect c io.write r) : r.1.Interested := by
  have hexec : Executed c io (.callback .write) r := .write hr
  cases hr with
  | disconnected hstate => exact h
  | failed errno hstate hreadable hwriting hio => exact h.congr rfl rfl rfl h.input
  | partly outputBuffer hstate hreadable hwriting hretrieve hrest =>
    have hpos : 0 < outputBuffer.readableBytes := Nat.pos_of_ne_zero hrest
    refine ⟨hexec.wf_output h.output, h.input, fun _ => hpos, ?_, fun _ => ?_⟩
    · intro hclosed
      exact absurd hclosed hstate
    · exact ⟨fun _ => hpos, fun _ => hwriting⟩
  | drained tasks outputBuffer channel hstate hreadable hwriting hretrieve hempty =>
    have hzero := hexec.readableBytes_eq_zero h.output hgood hempty
    omega

theorem Interested.stopRead {c : Connection} (h : c.Interested) {channel : Channel}
    (hgood : ¬ c.StopsIdle (.task .stopRead)) (hreading : c.channel.isReading = true)
    (hchannel : c.channel.disableRead = .ok channel) :
    ({ c with channel := channel } : Connection).Interested := by
  refine ⟨h.output, h.input, ?_, ?_, ?_⟩
  · rw [Channel.asksWrite_of_interest (Channel.interest_disableRead hchannel)]
    exact h.asks
  · intro _ _
    rw [Channel.isReading_disableRead hchannel]
    exact hreading
  · intro hopen
    have hpos : 0 < c.outputBuffer.readableBytes := by
      by_contra hzero
      exact hgood ⟨rfl, hopen, hreading, Nat.eq_zero_of_not_pos hzero⟩
    exact ⟨fun _ => hpos, fun _ => Channel.isWriting_disableRead hchannel⟩

theorem Interested.startRead {c : Connection} (h : c.Interested) {channel : Channel}
    (hreading : c.channel.isReading = false)
    (hchannel : c.channel.enableRead = .ok channel) :
    ({ c with channel := channel } : Connection).Interested := by
  have hwriting := Channel.isWriting_enableRead hchannel
  refine ⟨h.output, h.input, ?_, ?_, ?_⟩
  · intro hask
    rcases Channel.asksWrite_of_orEvents (by decide) hchannel hask with hask | hnew
    · exact h.asks hask
    · rw [hwriting] at hnew
      by_cases hstate : c.state = .kDisconnected
      · have hold := h.closed hstate hnew
        rw [hreading] at hold
        cases hold
      · exact (h.agree hstate).mp hnew
  · intro _ _
    exact Channel.isReading_enableRead hchannel
  · intro hopen
    dsimp only
    rw [hwriting]
    exact h.agree hopen

/-- A job that neither drains the backlog nor stops an idle connection from
reading keeps the invariant. -/
theorem Interested.executed {c : Connection} (h : c.Interested) {io : Io} {job : Job}
    {r : Connection × List Task} (hdrains : ¬ c.Drains job io) (hstops : ¬ c.StopsIdle job)
    (hr : Executed c io job r) : r.1.Interested := by
  have hinput := hr.wf_input h.input
  cases hr with
  | close hstate => exact interested_closed h.output h.input
  | error => exact h.congr rfl rfl rfl h.input
  | read hr =>
    cases hr with
    | failed hstate => exact h.congr rfl rfl rfl hinput
    | closed n inputBuffer hstate hread => exact interested_closed h.output hinput
    | data n inputBuffer hstate hread => exact h.congr rfl rfl rfl hinput
  | write hr => exact h.write hdrains hr
  | send message hr => exact h.send hr
  | shutdown =>
    refine h.congr ?_ ?_ ?_ hinput
    all_goals
      rw [shutdownInLoop]
      split <;> rfl
  | forceClose hstate => exact interested_closed h.output h.input
  | forceCloseSkipped hstate => exact h
  | stopRead channel hreading hchannel => exact h.stopRead hstops hreading hchannel
  | stopReadSkipped hreading => exact h
  | startRead channel hreading hchannel => exact h.startRead hreading hchannel
  | startReadSkipped hreading => exact h
  | writeCompleteCallback => exact h
  | highWaterMarkCallback len => exact h

/-! ## Assertions about the buffer -/

/-- The assertions of `sendInLoop` and `handleWrite`. -/
def OutputAssertion (e : Abort) : Prop :=
  e = .assertion .sendInLoop ∨ e = .assertion .handleWriteReadable ∨
    e = .assertion .handleWriteWriting

instance (e : Abort) : Decidable (OutputAssertion e) := inferInstanceAs (Decidable (_ ∨ _))

theorem not_outputAssertion_of_refused {e : Abort} (h : Refused e) : ¬ OutputAssertion e := by
  rw [h]
  decide

theorem Interested.sendInLoop_error {c : Connection} (h : c.Interested) {io : WriteResult}
    {message : Bytes} {e : Abort} (he : c.sendInLoop io message = .error e) : Refused e := by
  rcases Connection.sendInLoop_error h.output he with ⟨_, hopen, hidle, hnonempty⟩ | hrefused
  · have hwriting := (h.agree hopen).mpr (Nat.pos_of_ne_zero hnonempty)
    rw [hidle] at hwriting
    cases hwriting
  · exact hrefused

theorem Interested.handleWrite_ne_error {c : Connection} (h : c.Interested) {io : WriteResult}
    {e : Abort} (hpos : 0 < c.outputBuffer.readableBytes) : c.handleWrite io ≠ .error e := by
  intro he
  obtain ⟨hopen, ⟨_, hempty⟩ | ⟨_, hidle⟩⟩ := handleWrite_error h.output he
  · omega
  · rw [(h.agree hopen).mpr hpos] at hidle
    cases hidle

theorem not_outputAssertion_of_handleClose {c : Connection} {e : Abort}
    (he : c.handleClose = .error e) : ¬ OutputAssertion e := by
  rcases handleClose_error he with ⟨rfl, _⟩ | ⟨rfl, _⟩ <;> decide

theorem not_outputAssertion_of_handleRead {c : Connection} (h : c.inputBuffer.WF)
    {io : ReadResult} {e : Abort} (he : c.handleRead io = .error e) : ¬ OutputAssertion e := by
  rcases handleRead_error h he with ⟨rfl, _⟩ | hrefused | ⟨d, _, _, hd⟩
  · decide
  · exact not_outputAssertion_of_refused hrefused
  · exact not_outputAssertion_of_handleClose hd

/-- A job of a connection whose write interest has not been upset fails no
assertion about the buffer. -/
theorem Interested.no_outputAssertion {c : Connection} (h : c.Interested) {job : Job} {io : Io}
    {e : Abort} (hwrite : job = .callback .write → 0 < c.outputBuffer.readableBytes)
    (he : c.execute io job = .error e) : ¬ OutputAssertion e := by
  cases job with
  | callback cb =>
    cases cb with
    | close => exact not_outputAssertion_of_handleClose he
    | error => cases he
    | read => exact not_outputAssertion_of_handleRead h.input he
    | write => exact absurd he (h.handleWrite_ne_error (hwrite rfl))
  | task task =>
    cases task with
    | sendInLoop message => exact not_outputAssertion_of_refused (h.sendInLoop_error he)
    | forceCloseInLoop =>
      rw [execute, forceCloseInLoop] at he
      split at he
      · exact not_outputAssertion_of_handleClose he
      · cases he
    | stopRead =>
      rw [execute, stopReadInLoop] at he
      split at he
      · rw [Channel.disableRead, Channel.orEvents_eq (by decide)] at he
        cases he
      · cases he
    | startRead =>
      rw [execute, startReadInLoop] at he
      split at he
      · rw [Channel.enableRead, Channel.orEvents_eq (by decide)] at he
        cases he
      · cases he
    | shutdownInLoop => cases he
    | writeCompleteCallback => cases he
    | highWaterMarkCallback len => cases he

end Connection

namespace World

/-! ## Steps -/

/-- The step upsets the write interest: the backlog drains, reading is stopped
on an open connection with nothing to write, or a closed connection is opened
again while interest and buffer disagree. -/
def UpsetsInterest (w : World) (a : Action) : Prop :=
  w.DrainsBacklog a ∨ (w.Runs (.task .stopRead) a ∧ w.conn.StopsIdle (.task .stopRead)) ∨
    (w.Revives a ∧
      ¬ (w.conn.channel.isWriting = true ↔ 0 < w.conn.outputBuffer.readableBytes))

/-- The invariant of the runs that do not upset the write interest. -/
structure InterestInv (w : World) : Prop where
  conn : w.conn.Interested
  todo : .write ∈ w.todo → 0 < w.conn.outputBuffer.readableBytes

theorem interestInv_start (settings : Settings) : (start settings).InterestInv :=
  ⟨Connection.interested_established settings, fun h => absurd h List.not_mem_nil⟩

/-- A step that does not upset the write interest keeps the connection's part
of the invariant, and a backlog stays until it is drained. -/
theorem InterestInv.connStep {w v : World} {a : Action} (hw : w.InterestInv)
    (hgood : ¬ w.UpsetsInterest a) (h : w.step a = .next v) :
    v.conn.Interested ∧
      (0 < w.conn.outputBuffer.readableBytes → 0 < v.conn.outputBuffer.readableBytes) := by
  cases connStep_of_step h with
  | same inputBuffer settings hinput hconn hran =>
    have hwf := wf_input_of_step hw.conn.input h
    rw [hconn] at hwf ⊢
    exact ⟨hw.conn.congr rfl rfl rfl hwf, id⟩
  | exchange t io ha hcall hconn hran =>
    rw [hconn]
    refine ⟨⟨hw.conn.output, hw.conn.input, hw.conn.asks, fun hstate => ?_, fun _ => ?_⟩, id⟩
    · cases hstate
    · by_cases hstate : w.conn.state = .kDisconnected
      · by_contra hnot
        subst ha
        exact hgood (Or.inr (Or.inr ⟨⟨hcall, hstate⟩, hnot⟩))
      · exact hw.conn.agree hstate
  | job job io r hjob hrun hconn hran =>
    have hexec := Connection.execute_cases hrun
    have hdrains : ¬ w.conn.Drains job io := fun hd =>
      hgood (Or.inl ((drainsBacklog_iff hjob).mpr hd))
    have hstops : ¬ w.conn.StopsIdle job := by
      intro hs
      obtain ⟨rfl, hidle⟩ := hs
      exact hgood (Or.inr (Or.inl ⟨runs_iff.mpr ⟨io, hjob⟩, rfl, hidle⟩))
    rw [hconn]
    refine ⟨hw.conn.executed hdrains hstops hexec, fun hpos => ?_⟩
    by_contra hzero
    have hempty := hexec.readableBytes_eq_zero hw.conn.output hdrains
      (Nat.eq_zero_of_not_pos hzero)
    omega

/-- **One step.**  With a kernel that reports what is registered, a step that
does not upset the write interest keeps the invariant. -/
theorem InterestInv.step {w v : World} {a : Action} (hw : w.InterestInv)
    (hgood : ¬ w.UpsetsInterest a) (h : w.stepReported a = .next v) : v.InterestInv := by
  obtain ⟨hreported, h⟩ := step_of_stepReported h
  obtain ⟨hconn, hbacklog⟩ := hw.connStep hgood h
  refine ⟨hconn, fun hwrite => ?_⟩
  rcases todo_of_step h with ⟨revents, rfl, htodo, hsame⟩ | htodo
  · -- a write event is only reported where it is registered
    rw [htodo] at hwrite
    rw [hsame]
    exact hw.conn.asks
      (Channel.asksWrite_of_reportable hreported (write_mem_handleEventsWithGuard hwrite))
  · exact hbacklog (hw.todo (htodo _ hwrite))

/-- The callback that a step handles is one of those still to be called. -/
theorem mem_todo_of_jobOf {w : World} {a : Action} {cb : Callback} {io : Io}
    (h : w.jobOf a = some (.callback cb, io)) : cb ∈ w.todo := by
  cases jobFrom_of_jobOf h with
  | channel cb rest hidle hphase =>
    rw [World.todo, hphase]
    exact List.mem_cons_self

/-- The assertions about the buffer hold on this step. -/
def NoOutputAssertion (w : World) (a : Action) : Prop :=
  (w.stepReported a).Stops fun e => ¬ Connection.OutputAssertion e

instance (w : World) (a : Action) : Decidable (w.NoOutputAssertion a) :=
  inferInstanceAs (Decidable (Outcome.Stops _ _))

theorem InterestInv.noOutputAssertion {w : World} (hw : w.InterestInv) (a : Action) :
    w.NoOutputAssertion a := by
  rw [NoOutputAssertion, Outcome.stops_iff]
  intro e he
  rw [stepReported] at he
  split at he
  · rcases step_eq_abort he with ⟨job, io, hjob, hrun⟩ | rfl | rfl
    · refine hw.conn.no_outputAssertion (fun hwrite => ?_) hrun
      subst hwrite
      exact hw.todo (mem_todo_of_jobOf hjob)
    · decide
    · decide
  · cases he

/-- A step that upsets the write interest leads to a state where interest and
buffer disagree. -/
theorem not_matches_of_upsetsInterest {w : World} {a : Action} (hw : w.InterestInv)
    (h : w.UpsetsInterest a) : ∃ v, w.stepReported a = .next v ∧ ¬ v.conn.Matches := by
  rcases h with hdrains | ⟨hruns, hstops⟩ | ⟨hrevives, hdisagree⟩
  · cases hjob : w.jobOf a with
    | none =>
      rw [DrainsBacklog, hjob] at hdrains
      exact absurd hdrains id
    | some ji =>
      obtain ⟨job, io⟩ := ji
      have hopen := ((drainsBacklog_iff hjob).mp hdrains).2.1
      obtain ⟨v, io', hv, hstate, hwriting, hempty, _, _⟩ :=
        step_of_drainsBacklog hw.conn.output hdrains
      refine ⟨v, ?_, fun hmatches => ?_⟩
      · rw [stepReported_of_reported (reported_of_jobOf hjob), hv]
      · have hpos := (hmatches (by rwa [hstate])).mp hwriting
        omega
  · obtain ⟨io, hjob⟩ := runs_iff.mp hruns
    obtain ⟨_, hopen, hreading, hempty⟩ := hstops
    obtain ⟨channel, hchannel⟩ : ∃ channel, w.conn.channel.disableRead = .ok channel :=
      ⟨_, Channel.orEvents_eq (by decide) _⟩
    have hrun : w.conn.execute io (.task .stopRead) =
        .ok ({ w.conn with channel := channel }, []) := by
      rw [Connection.execute, Connection.stopReadInLoop, if_pos hreading, hchannel, ok_bind]
    obtain ⟨v, hv, hconn, _⟩ := step_of_execute hjob hrun
    refine ⟨v, ?_, fun hmatches => ?_⟩
    · rw [stepReported_of_reported (reported_of_jobOf hjob), hv]
    · rw [hconn] at hmatches
      have hpos := (hmatches hopen).mp (Channel.isWriting_disableRead hchannel)
      dsimp only at hpos
      omega
  · cases a with
    | resume t io =>
      obtain ⟨hexchange, _⟩ := hrevives
      obtain ⟨v, hv, hconn, _⟩ := step_of_exchanges hexchange io
      refine ⟨v, ?_, fun hmatches => ?_⟩
      · rw [stepReported_of_reported (w := w) (a := .resume t io) trivial, hv]
      · rw [hconn] at hmatches
        exact hdisagree (hmatches (by simp))
    | loop a => exact absurd hrevives id
    | call t c => exact absurd hrevives id
    | user a => exact absurd hrevives id

/-! ## Runs -/

/-- **Write interest matches pending output exactly when no step upsets it.**
For every run of one connection with any threads, any sends and any write
results, and a kernel that reports only registered events: in every open state
the connection waits for write events exactly when something is left to write;
then no assertion about the output buffer fails, and nothing asks for write
events once the backlog has drained; if and only if no step of the run drains
the backlog, stops reading with nothing to write, or opens a closed connection
whose interest and buffer disagree. -/
theorem write_interest_iff (settings : Settings) (actions : List Action) :
    (Throughout stepReported (fun w => w.conn.Matches) (start settings) actions ∧
      Along stepReported NoOutputAssertion (start settings) actions ∧
      Throughout stepReported
        (fun w => w.conn.outputBuffer.readableBytes = 0 → w.conn.channel.asksWrite = false)
        (start settings) actions) ↔
      Along stepReported (fun w a => ¬ w.UpsetsInterest a) (start settings) actions := by
  have hiff : Throughout stepReported (fun w => w.conn.Matches) (start settings) actions ↔
      Along stepReported (fun w a => ¬ w.UpsetsInterest a) (start settings) actions :=
    throughout_iff_along (I := InterestInv) (interestInv_start settings)
      (fun _ _ _ hw hgood hstep => hw.step hgood hstep)
      (fun _ hw => hw.conn.agree)
      (fun _ _ hw hbad => not_matches_of_upsetsInterest hw (not_not.mp hbad)) actions
  constructor
  · intro h
    exact hiff.mp h.1
  · intro h
    have hinv := throughout_of_along (I := InterestInv) (interestInv_start settings)
      (fun _ _ _ hw hgood hstep => hw.step hgood hstep) h
    refine ⟨hiff.mpr h, hinv.along fun _ a hw => hw.noOutputAssertion a, hinv.mono ?_⟩
    intro w hw hempty
    by_contra hask
    have hpos := hw.conn.asks (by simpa using hask)
    omega

/-- Two bytes are sent and one of them is accepted; the other one is written
when the socket is ready; the socket is still ready. -/
def drainedBacklog : List Action :=
  [.call .loop (.send ⟨[65, 66], SizeT.two_le_maxSize⟩),
    .resume .loop ⟨.accepted 1, .fail 0⟩, .loop .swap, .loop .endRound, .loop (.poll epollOut),
    .loop (.handleEvents ⟨.accepted 1, .fail 0⟩), .loop .swap, .loop .endRound,
    .loop (.poll epollOut), .loop (.handleEvents ⟨.accepted 0, .fail 0⟩)]

/-- The connection goes on asking for write events after everything has been
written, and the next one fails the assertion in `handleWrite`. -/
theorem not_matches_drainedBacklog :
    ¬ Throughout stepReported (fun w => w.conn.Matches) (start ⟨false, true, false, 0⟩)
        drainedBacklog ∧
      ¬ Along stepReported NoOutputAssertion (start ⟨false, true, false, 0⟩)
        drainedBacklog := by
  decide +kernel

end World

end CppWeb.Tcp
