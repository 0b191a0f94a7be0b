/-
  Tcp/Output.lean --- the backlog of a connection.

  What jobs and steps do to `m_outputBuffer`: it stays well formed, only
  `sendInLoop` adds to it, and only `handleWrite` takes from it.  The step that
  takes the last of it is singled out, because `disableWrite` then leaves the
  interest in write events where it was.
-/
import CppWeb.Tcp.World

set_option autoImplicit false

namespace CppWeb.Tcp

open CppWeb.Foundation CppWeb.Loop CppWeb.Poll

/-- The write accepts everything it is offered. -/
def WriteResult.TakesAll (len : Nat) : WriteResult → Prop
  | .accepted n => len ≤ n
  | .fail _ => False

instance (len : Nat) : ∀ io : WriteResult, Decidable (io.TakesAll len)
  | .accepted _ => Nat.decLe _ _
  | .fail _ => isFalse id

theorem WriteResult.taken_le (len : Nat) (io : WriteResult) : io.taken len ≤ len := by
  cases io with
  | accepted n => exact Nat.min_le_right n len
  | fail errno => exact Nat.zero_le len

theorem WriteResult.takesAll_of_taken {len : Nat} (hpos : 0 < len) {io : WriteResult}
    (h : io.taken len = len) : io.TakesAll len := by
  cases io with
  | accepted n =>
    have hle : min n len ≤ n := Nat.min_le_left n len
    exact Nat.le_trans (Nat.le_of_eq h.symm) hle
  | fail errno => exact absurd h (Nat.ne_of_lt hpos)

theorem WriteResult.taken_of_takesAll {len : Nat} {io : WriteResult} (h : io.TakesAll len) :
    io.taken len = len := by
  cases io with
  | accepted n => exact Nat.min_eq_right h
  | fail errno => exact absurd h id

namespace Connection

/-! ## The buffer under a job -/

theorem wf_of_append {b b' : Buffer} {bytes : Bytes} (h : b.WF)
    (happend : b.append bytes = .ok b') : b'.WF ∧ b'.content = b.content ++ bytes.data :=
  (Buffer.append_spec h bytes).of_ok happend

theorem wf_of_retrieve {b b' : Buffer} {len : Nat} (h : b.WF) (hlen : len ≤ b.readableBytes)
    (hretrieve : b.retrieve len = .ok b') : b'.WF ∧ b'.content = b.content.drop len := by
  obtain ⟨b'', hb'', hwf, hcontent⟩ := Buffer.retrieve_spec h hlen
  rw [hb'', Except.ok.injEq] at hretrieve
  subst hretrieve
  exact ⟨hwf, hcontent⟩

theorem readableBytes_of_append {b b' : Buffer} {bytes : Bytes} (h : b.WF)
    (happend : b.append bytes = .ok b') :
    b'.readableBytes = b.readableBytes + bytes.length := by
  obtain ⟨hwf, hcontent⟩ := wf_of_append h happend
  rw [← Buffer.length_content hwf, hcontent, List.length_append, Buffer.length_content h]
  rfl

theorem readableBytes_of_retrieve {b b' : Buffer} {len : Nat} (h : b.WF)
    (hlen : len ≤ b.readableBytes) (hretrieve : b.retrieve len = .ok b') :
    b'.readableBytes = b.readableBytes - len := by
  obtain ⟨hwf, hcontent⟩ := wf_of_retrieve h hlen hretrieve
  rw [← Buffer.length_content hwf, hcontent, List.length_drop, Buffer.length_content h]

/-- A job keeps the output buffer well formed. -/
theorem Executed.wf_output {c : Connection} {io : Io} {job : Job}
    {r : Connection × List Task} (h : Executed c io job r) (hc : c.outputBuffer.WF) :
    r.1.outputBuffer.WF := by
  cases h with
  | read h => cases h <;> exact hc
  | write h =>
    cases h with
    | partly outputBuffer hstate hreadable hwriting hretrieve hrest =>
      exact (wf_of_retrieve hc (WriteResult.taken_le _ _) hretrieve).1
    | drained tasks outputBuffer channel hstate hreadable hwriting hretrieve =>
      exact (wf_of_retrieve hc (WriteResult.taken_le _ _) hretrieve).1
    | _ => exact hc
  | send message h =>
    cases h with
    | directRest tasks outputBuffer channel hstate hidle hempty hfault hrest happend =>
      exact (wf_of_append hc happend).1
    | buffered tasks outputBuffer channel hstate hwriting hlen happend =>
      exact (wf_of_append hc happend).1
    | _ => exact hc
  | shutdown =>
    rw [shutdownInLoop]
    split <;> exact hc
  | _ => exact hc

theorem wf_of_readFd {b b' : Buffer} {io : ReadResult} {n : Int} (h : b.WF)
    (hread : b.readFd io = .ok (n, b')) : b'.WF := by
  cases io with
  | fail errno =>
    cases hread
    exact h
  | data bytes => exact ((Buffer.readFd_spec h bytes).of_ok hread).2.1

/-- A job keeps the input buffer well formed. -/
theorem Executed.wf_input {c : Connection} {io : Io} {job : Job}
    {r : Connection × List Task} (h : Executed c io job r) (hc : c.inputBuffer.WF) :
    r.1.inputBuffer.WF := by
  cases h with
  | read h =>
    cases h with
    | failed hstate => exact hc
    | closed n inputBuffer hstate hread => exact wf_of_readFd hc hread
    | data n inputBuffer hstate hread => exact wf_of_readFd hc hread
  | write h => cases h <;> exact hc
  | send message h => cases h <;> exact hc
  | shutdown =>
    rw [shutdownInLoop]
    split <;> exact hc
  | _ => exact hc

/-! ## Draining -/

/-- The job is a `handleWrite` whose write accepts the whole backlog. -/
def Drains (c : Connection) (job : Job) (io : Io) : Prop :=
  job = .callback .write ∧ c.state ≠ .kDisconnected ∧ 0 < c.outputBuffer.readableBytes ∧
    c.channel.isWriting = true ∧ io.write.TakesAll c.outputBuffer.readableBytes

instance (c : Connection) (job : Job) (io : Io) : Decidable (c.Drains job io) :=
  inferInstanceAs (Decidable (_ ∧ _))

/-- Only a draining job leaves an empty buffer that was not empty. -/
theorem Executed.readableBytes_eq_zero {c : Connection} {io : Io} {job : Job}
    {r : Connection × List Task} (h : Executed c io job r) (hc : c.outputBuffer.WF)
    (hjob : ¬ c.Drains job io) (hr : r.1.outputBuffer.readableBytes = 0) :
    c.outputBuffer.readableBytes = 0 := by
  cases h with
  | read h => cases h <;> exact hr
  | write h =>
    cases h with
    | disconnected hstate => exact hr
    | failed errno hstate hreadable hwriting hio => exact hr
    | partly outputBuffer hstate hreadable hwriting hretrieve hrest => exact absurd hr hrest
    | drained tasks outputBuffer channel hstate hreadable hwriting hretrieve =>
      refine absurd ⟨rfl, hstate, hreadable, hwriting, ?_⟩ hjob
      have htaken := WriteResult.taken_le c.outputBuffer.readableBytes io.write
      have hleft := readableBytes_of_retrieve hc htaken hretrieve
      rw [hr] at hleft
      exact WriteResult.takesAll_of_taken hreadable (by omega)
  | send message h =>
    cases h with
    | directRest tasks outputBuffer channel hstate hidle hempty => exact hempty
    | direct tasks hstate hidle hempty => exact hempty
    | buffered tasks outputBuffer channel hstate hwriting hlen happend =>
      have hsum := readableBytes_of_append hc happend
      rw [hr] at hsum
      omega
    | disconnected hstate => exact hr
    | nothing hstate => exact hr
  | shutdown =>
    rw [shutdownInLoop] at hr
    split at hr <;> exact hr
  | _ => exact hr

/-- A draining job empties the buffer, and that is all: the state is the same,
the write interest is still there, and no FIN was issued. -/
theorem execute_of_drains {c : Connection} {job : Job} {io : Io} (hc : c.outputBuffer.WF)
    (h : c.Drains job io) :
    ∃ r, c.execute io job = .ok r ∧ r.1.state = c.state ∧ r.1.channel.isWriting = true ∧
      r.1.outputBuffer.readableBytes = 0 ∧
      r.1.syscalls = c.syscalls ++ [.write c.outputBuffer.content io.write] := by
  obtain ⟨rfl, hstate, hreadable, hwriting, hall⟩ := h
  have htaken := WriteResult.taken_of_takesAll hall
  obtain ⟨outputBuffer, hretrieve, hwf, hcontent⟩ :=
    Buffer.retrieve_spec hc (Nat.le_refl c.outputBuffer.readableBytes)
  have hempty : outputBuffer.readableBytes = 0 := by
    rw [readableBytes_of_retrieve hc (Nat.le_refl _) hretrieve, Nat.sub_self]
  obtain ⟨channel, hchannel⟩ : ∃ channel, c.channel.disableWrite = .ok channel :=
    ⟨_, Channel.orEvents_eq (by decide) _⟩
  have hstill : channel.isWriting = true := by
    rw [Channel.isWriting_disableWrite hchannel, hwriting]
  cases hio : io.write with
  | fail errno =>
    rw [hio] at hall
    exact absurd hall id
  | accepted n =>
    rw [hio] at htaken
    rw [execute, handleWrite, if_neg hstate, require_ok hreadable, ok_bind, require_ok hwriting,
      ok_bind, hio]
    dsimp only
    rw [htaken, hretrieve, ok_bind, if_pos hempty, hchannel, ok_bind]
    rw [shutdownInLoop_of_isWriting hstill, ite_self]
    exact ⟨_, rfl, rfl, hstill, hempty, rfl⟩

/-! ## What stops a job -/

/-- `sendInLoop` fails its assertion, or the buffer cannot grow. -/
theorem sendInLoop_error {c : Connection} (hc : c.outputBuffer.WF) {io : WriteResult}
    {message : Bytes} {e : Abort} (he : c.sendInLoop io message = .error e) :
    (e = .assertion .sendInLoop ∧ c.state ≠ .kDisconnected ∧ c.channel.isWriting = false ∧
      c.outputBuffer.readableBytes ≠ 0) ∨ Refused e := by
  have hbuffer : ∀ (d : Connection) (rest : Bytes) (e : Abort), d.outputBuffer.WF →
      d.bufferRest rest = .error e → Refused e := by
    intro d rest e hd hrest
    rw [bufferRest, bind_eq_error] at hrest
    rcases hrest with hrest | ⟨outputBuffer, _, hrest⟩
    · exact (Buffer.append_spec hd rest).of_error hrest
    · rw [Channel.enableWrite, Channel.orEvents_eq (by decide)] at hrest
      cases hrest
  rw [sendInLoop] at he
  split at he
  · cases he
  · rename_i hopen
    rw [bind_eq_error] at he
    rcases he with he | ⟨attempt, hattempt, he⟩
    · rw [writeAtOnce] at he
      split at he
      · rename_i hidle
        rw [Bool.not_eq_true'] at hidle
        by_cases hempty : c.outputBuffer.readableBytes = 0
        · rw [require_ok hempty, ok_bind] at he
          dsimp only at he
          split at he <;> cases he
        · rw [require_error hempty] at he
          cases he
          exact Or.inl ⟨rfl, hopen, hidle, hempty⟩
      · cases he
    · have hwf : attempt.1.outputBuffer.WF := by
        rcases writeAtOnce_cases hattempt with ⟨_, rfl⟩ | ⟨_, _, tasks, _, rfl⟩
        · exact hc
        · exact hc
      refine Or.inr ?_
      dsimp only at he
      split at he
      · rw [bind_eq_error] at he
        rcases he with he | ⟨_, _, he⟩
        · exact hbuffer _ _ _ hwf he
        · cases he
      · cases he

/-- `handleWrite` fails one of its two assertions. -/
theorem handleWrite_error {c : Connection} (hc : c.outputBuffer.WF) {io : WriteResult}
    {e : Abort} (he : c.handleWrite io = .error e) :
    c.state ≠ .kDisconnected ∧
      ((e = .assertion .handleWriteReadable ∧ c.outputBuffer.readableBytes = 0) ∨
        (e = .assertion .handleWriteWriting ∧ c.channel.isWriting = false)) := by
  rw [handleWrite] at he
  split at he
  · cases he
  · rename_i hopen
    refine ⟨hopen, ?_⟩
    by_cases hpos : 0 < c.outputBuffer.readableBytes
    · rw [require_ok hpos, ok_bind] at he
      by_cases hwriting : c.channel.isWriting = true
      · rw [require_ok hwriting, ok_bind] at he
        dsimp only at he
        split at he
        · cases he
        · rename_i n
          obtain ⟨outputBuffer, hretrieve, _⟩ := Buffer.retrieve_spec hc
            (WriteResult.taken_le c.outputBuffer.readableBytes (.accepted n))
          rw [hretrieve, ok_bind] at he
          split at he
          · rw [Channel.disableWrite, Channel.orEvents_eq (by decide)] at he
            cases he
          · cases he
      · rw [require_error hwriting] at he
        cases he
        exact Or.inr ⟨rfl, by simpa using hwriting⟩
    · rw [require_error hpos] at he
      cases he
      exact Or.inl ⟨rfl, Nat.eq_zero_of_not_pos hpos⟩

/-- `handleClose` fails its assertion, or the descriptor is not in the epoll
set. -/
theorem handleClose_error {c : Connection} {e : Abort} (he : c.handleClose = .error e) :
    (e = .assertion .handleClose ∧ ¬ (c.state = .kConnected ∨ c.state = .kDisconnecting)) ∨
      (e = .assertion .updateChannel ∧ c.channel.polling = false) := by
  rw [handleClose] at he
  by_cases hstate : c.state = .kConnected ∨ c.state = .kDisconnecting
  · rw [require_ok hstate, ok_bind, bind_eq_error] at he
    rcases he with he | ⟨_, _, he⟩
    · cases hpolling : c.channel.polling with
      | true =>
        rw [Channel.disableAll_eq hpolling] at he
        cases he
      | false =>
        rw [Channel.disableAll_error hpolling] at he
        cases he
        exact Or.inr ⟨rfl, rfl⟩
    · cases he
  · rw [require_error hstate] at he
    cases he
    exact Or.inl ⟨rfl, hstate⟩

/-- `handleRead` fails its assertion, or the buffer cannot grow, or the close
that it makes of an end of file fails. -/
theorem handleRead_error {c : Connection} (hc : c.inputBuffer.WF) {io : ReadResult} {e : Abort}
    (he : c.handleRead io = .error e) :
    (e = .assertion .handleRead ∧ c.state = .kDisconnected) ∨ Refused e ∨
      ∃ d : Connection, d.state = c.state ∧ d.channel = c.channel ∧ d.handleClose = .error e := by
  rw [handleRead] at he
  by_cases hopen : c.state ≠ .kDisconnected
  · rw [require_ok hopen, ok_bind, bind_eq_error] at he
    refine Or.inr ?_
    rcases he with he | ⟨⟨n, inputBuffer⟩, _, he⟩
    · cases io with
      | fail errno => cases he
      | data bytes => exact Or.inl ((Buffer.readFd_spec hc bytes).of_error he)
    · dsimp only at he
      split at he
      · cases he
      · split at he
        · exact Or.inr ⟨{ c with inputBuffer := inputBuffer }.record (.readv io), rfl, rfl, he⟩
        · cases he
  · rw [require_error hopen] at he
    cases he
    exact Or.inl ⟨rfl, not_not.mp hopen⟩

/-! ## The FIN -/

/-- `::shutdown(m_sockfd, SHUT_WR)` has been issued. -/
def FinIssued (c : Connection) : Prop := .shutdownWr ∈ c.syscalls

instance (c : Connection) : Decidable c.FinIssued := inferInstanceAs (Decidable (_ ∈ _))

/-- System calls are only ever added to the log. -/
theorem Executed.syscalls_grow {c : Connection} {io : Io} {job : Job}
    {r : Connection × List Task} (h : Executed c io job r) :
    ∃ calls, r.1.syscalls = c.syscalls ++ calls := by
  cases h with
  | read h =>
    cases h with
    | failed hstate =>
      exact ⟨[.readv io.read, .getsockopt], by simp [handleError, record]⟩
    | closed n inputBuffer hstate => exact ⟨[_], rfl⟩
    | data n inputBuffer hstate => exact ⟨[_], rfl⟩
  | write h =>
    cases h with
    | disconnected hstate => exact ⟨[], (List.append_nil _).symm⟩
    | _ => exact ⟨[_], rfl⟩
  | send message h =>
    cases h with
    | direct tasks => exact ⟨[_], rfl⟩
    | directRest tasks => exact ⟨[_], rfl⟩
    | _ => exact ⟨[], (List.append_nil _).symm⟩
  | error => exact ⟨[_], rfl⟩
  | shutdown =>
    rw [shutdownInLoop]
    split
    · exact ⟨[_], rfl⟩
    · exact ⟨[], (List.append_nil _).symm⟩
  | _ => exact ⟨[], (List.append_nil _).symm⟩

theorem Executed.finIssued {c : Connection} {io : Io} {job : Job}
    {r : Connection × List Task} (h : Executed c io job r) (hfin : c.FinIssued) :
    r.1.FinIssued := by
  obtain ⟨calls, hcalls⟩ := h.syscalls_grow
  rw [FinIssued, hcalls]
  exact List.mem_append_left calls hfin

end Connection

namespace World

/-! ## The buffer under a step -/

theorem wf_output_start (settings : Settings) : (start settings).conn.outputBuffer.WF :=
  Connection.wf_freshBuffer

theorem wf_input_of_step {w v : World} {a : Action} (hw : w.conn.inputBuffer.WF)
    (h : w.step a = .next v) : v.conn.inputBuffer.WF := by
  cases connStep_of_step h with
  | same inputBuffer settings hinput hconn hran =>
    rw [hconn]
    rcases hinput with rfl | ⟨len, hretrieve⟩
    · exact hw
    · refine (Connection.wf_of_retrieve hw ?_ hretrieve).1
      rw [Buffer.retrieve, bind_eq_ok] at hretrieve
      obtain ⟨_, hlen, _⟩ := hretrieve
      exact require_eq_ok.mp hlen
  | exchange t io ha hcall hconn hran => rwa [hconn]
  | job job io r hjob hrun hconn hran =>
    rw [hconn]
    exact (Connection.execute_cases hrun).wf_input hw

theorem wf_output_of_step {w v : World} {a : Action} (hw : w.conn.outputBuffer.WF)
    (h : w.step a = .next v) : v.conn.outputBuffer.WF := by
  cases connStep_of_step h with
  | same inputBuffer settings hinput hconn hran => rwa [hconn]
  | exchange t io ha hcall hconn hran => rwa [hconn]
  | job job io r hjob hrun hconn hran =>
    rw [hconn]
    exact (Connection.execute_cases hrun).wf_output hw

/-- The step is a `handleWrite` whose write accepts the whole backlog. -/
def DrainsBacklog (w : World) (a : Action) : Prop :=
  match w.jobOf a with
  | some (job, io) => w.conn.Drains job io
  | none => False

instance (w : World) (a : Action) : Decidable (w.DrainsBacklog a) := by
  unfold DrainsBacklog
  split <;> infer_instance

theorem drainsBacklog_iff {w : World} {a : Action} {job : Connection.Job} {io : Io}
    (h : w.jobOf a = some (job, io)) : w.DrainsBacklog a ↔ w.conn.Drains job io := by
  rw [DrainsBacklog, h]

theorem step_of_drainsBacklog {w : World} {a : Action} (hw : w.conn.outputBuffer.WF)
    (h : w.DrainsBacklog a) :
    ∃ v io, w.step a = .next v ∧ v.conn.state = w.conn.state ∧
      v.conn.channel.isWriting = true ∧ v.conn.outputBuffer.readableBytes = 0 ∧
      v.conn.syscalls = w.conn.syscalls ++ [.write w.conn.outputBuffer.content io] ∧
      v.shutdownRan = w.shutdownRan := by
  cases hjob : w.jobOf a with
  | none =>
    rw [DrainsBacklog, hjob] at h
    exact absurd h id
  | some ji =>
    obtain ⟨job, io⟩ := ji
    rw [drainsBacklog_iff hjob] at h
    obtain ⟨r, hrun, hstate, hwriting, hempty, hcalls⟩ := Connection.execute_of_drains hw h
    obtain ⟨v, hv, hconn, hran⟩ := step_of_execute hjob hrun
    refine ⟨v, io.write, hv, ?_, ?_, ?_, ?_, ?_⟩
    · rw [hconn, hstate]
    · rw [hconn, hwriting]
    · rw [hconn, hempty]
    · rw [hconn, hcalls]
    · rw [hran, h.1]
      exact Bool.or_false _

end World

end CppWeb.Tcp
