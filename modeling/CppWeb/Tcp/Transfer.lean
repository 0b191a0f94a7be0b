/-
  Tcp/Transfer.lean --- the two buffers of a connection as stages.

  Bytes enter the input buffer in `handleRead`, in pieces of any size and with
  the storage compacted and grown underneath, and leave it when user code
  retrieves them.  Bytes enter the output buffer, or go past it, in
  `sendInLoop`, and leave for the kernel there and in `handleWrite`.  Neither
  buffer loses, adds or reorders anything, whatever the threads do.
-/
import CppWeb.Foundation.Flow
import CppWeb.Tcp.Stream

set_option autoImplicit false

namespace CppWeb

open CppWeb.Foundation CppWeb.Loop CppWeb.Poll

/-- What `::readv` delivers into `space` bytes. -/
def ReadResult.delivered (space : Nat) : ReadResult → List UInt8
  | .data bytes => bytes.take space
  | .fail _ => []

namespace Tcp

namespace Connection

/-! ## Input -/

/-- The bytes that `::readv` puts into the input buffer while the job runs. -/
def received (c : Connection) (io : Io) : Job → List UInt8
  | .callback .read => io.read.delivered c.inputBuffer.readvSpace
  | .callback _ => []
  | .task _ => []

/-- Whatever `handleRead` does besides, the buffer is as `readFd` left it. -/
theorem readFd_of_handleRead {c : Connection} {io : ReadResult} {r : Connection × List Task}
    (h : c.handleRead io = .ok r) :
    ∃ n, c.inputBuffer.readFd io = .ok (n, r.1.inputBuffer) := by
  rw [handleRead, bind_eq_ok] at h
  obtain ⟨_, _, h⟩ := h
  rw [bind_eq_ok] at h
  obtain ⟨⟨n, inputBuffer⟩, hread, h⟩ := h
  refine ⟨n, ?_⟩
  dsimp only at h
  split at h
  · cases h
    exact hread
  · split at h
    · obtain ⟨_, rfl⟩ := handleClose_cases h
      exact hread
    · cases h
      exact hread

theorem content_readFd {b b' : Buffer} (hb : b.WF) {io : ReadResult} {n : Int}
    (h : b.readFd io = .ok (n, b')) :
    b'.content = b.content ++ io.delivered b.readvSpace := by
  cases io with
  | data bytes => exact ((Buffer.readFd_spec hb bytes).of_ok h).2.2
  | fail errno =>
    cases h
    exact (List.append_nil _).symm

/-- A job adds to the input buffer what `::readv` delivers. -/
theorem content_input_of_execute {c : Connection} (hc : c.inputBuffer.WF) {io : Io} {job : Job}
    {r : Connection × List Task} (hrun : c.execute io job = .ok r) :
    r.1.inputBuffer.content = c.inputBuffer.content ++ c.received io job := by
  cases execute_cases hrun with
  | read =>
    obtain ⟨n, hread⟩ := readFd_of_handleRead hrun
    exact content_readFd hc hread
  | write h => cases h <;> exact (List.append_nil _).symm
  | send message h => cases h <;> exact (List.append_nil _).symm
  | shutdown =>
    rw [shutdownInLoop]
    split <;> exact (List.append_nil _).symm
  | _ => exact (List.append_nil _).symm

/-! ## Output -/

/-- The bytes the kernel accepts while the job runs. -/
def delivered (c : Connection) (io : Io) : Job → List UInt8
  | .task (.sendInLoop message) =>
      if c.state ≠ .kDisconnected ∧ c.channel.isWriting = false then
        (Syscall.write message.data.data io.write).delivered
      else []
  | .callback .write =>
      if c.state ≠ .kDisconnected then
        (Syscall.write c.outputBuffer.content io.write).delivered
      else []
  | .callback _ => []
  | .task _ => []

theorem SendEffect.wire {c : Connection} {io : Io} {message : Message}
    {r : Connection × List Task} (h : SendEffect c io.write message.data r) :
    r.1.wire = c.wire ++ c.delivered io (.task (.sendInLoop message)) := by
  rw [delivered]
  cases h with
  | disconnected hstate =>
    rw [if_neg fun hopen => hopen.1 hstate, List.append_nil]
  | direct tasks hstate hidle =>
    rw [if_pos ⟨hstate, hidle⟩]
    exact wire_record c _
  | directRest tasks outputBuffer channel hstate hidle =>
    rw [if_pos ⟨hstate, hidle⟩]
    exact wire_record c _
  | nothing hstate hwriting =>
    rw [if_neg fun hopen => by simp [hwriting] at hopen, List.append_nil]
  | buffered tasks outputBuffer channel hstate hwriting =>
    rw [if_neg fun hopen => by simp [hwriting] at hopen, List.append_nil]
    exact wire_of_syscalls rfl

theorem WriteEffect.wire {c : Connection} {io : Io} {r : Connection × List Task}
    (h : WriteEffect c io.write r) :
    r.1.wire = c.wire ++ c.delivered io (.callback .write) := by
  rw [delivered]
  cases h with
  | disconnected hstate =>
    rw [if_neg fun hopen => hopen hstate, List.append_nil]
  | failed errno hstate =>
    rw [if_pos hstate]
    exact wire_record c _
  | partly outputBuffer hstate =>
    rw [if_pos hstate]
    exact wire_record c _
  | drained tasks outputBuffer channel hstate =>
    rw [if_pos hstate]
    exact wire_record c _

/-- A job adds to what the kernel has accepted what it delivers. -/
theorem Executed.wire {c : Connection} {io : Io} {job : Job} {r : Connection × List Task}
    (h : Executed c io job r) : r.1.wire = c.wire ++ c.delivered io job := by
  have hrecord : ∀ (d : Connection) (call : Syscall), call.delivered = [] →
      (d.record call).wire = d.wire := by
    intro d call hcall
    rw [wire_record, hcall, List.append_nil]
  cases h with
  | send message h => exact h.wire
  | write h => exact h.wire
  | read h =>
    refine Eq.trans ?_ (List.append_nil _).symm
    cases h with
    | failed hstate => exact (hrecord _ _ rfl).trans (hrecord _ _ rfl)
    | closed n inputBuffer hstate hread => exact hrecord _ (.readv io.read) rfl
    | data n inputBuffer hstate hread => exact hrecord _ (.readv io.read) rfl
  | error => exact (hrecord _ _ rfl).trans (List.append_nil _).symm
  | shutdown =>
    refine Eq.trans ?_ (List.append_nil _).symm
    rw [shutdownInLoop]
    split
    · exact hrecord _ _ rfl
    · rfl
  | _ => exact (List.append_nil _).symm

end Connection

namespace World

/-- The bytes read from the socket in the step. -/
def received (w : World) (a : Action) : List UInt8 :=
  match w.jobOf a with
  | some (job, io) => w.conn.received io job
  | none => []

/-- The bytes user code retrieves in the step. -/
def consumed (w : World) : Action → List UInt8
  | .user (.retrieve len) => w.conn.inputBuffer.peek len
  | .user (.set _) => []
  | .loop _ => []
  | .call .. => []
  | .resume .. => []

/-- What a step does to the input buffer and to the messages that have run. -/
inductive Transfer (w : World) (a : Action) (v : World) : Prop where
  | quiet (hjob : w.jobOf a = none) (hconsumed : w.consumed a = [])
      (hinput : v.conn.inputBuffer = w.conn.inputBuffer) (hran : v.ran = w.ran)
  | retrieve (len : Nat) (ha : a = .user (.retrieve len))
      (hretrieve : w.conn.inputBuffer.retrieve len = .ok v.conn.inputBuffer)
      (hran : v.ran = w.ran)
  | job (job : Connection.Job) (io : Io) (r : Connection × List Task)
      (hjob : w.jobOf a = some (job, io)) (hconsumed : w.consumed a = [])
      (hrun : w.conn.execute io job = .ok r) (hconn : v.conn = r.1)
      (hran : v.ran = w.ran ++ job.accepted w.conn.state)

theorem received_of_jobOf {w : World} {a : Action} {job : Connection.Job} {io : Io}
    (h : w.jobOf a = some (job, io)) : w.received a = w.conn.received io job := by
  rw [received, h]

theorem received_of_none {w : World} {a : Action} (h : w.jobOf a = none) :
    w.received a = [] := by
  rw [received, h]

/-- A later step of a call runs a job only when it hands one over. -/
theorem jobOf_resume {w : World} {t : Thread} {io : Io} (h : ∀ task, w.calls t ≠ .handing task) :
    w.jobOf (.resume t io) = none := by
  cases t with
  | loop =>
    rw [jobOf]
    split
    · rename_i task hcall
      exact absurd hcall (h task)
    · rfl
  | worker i => rfl

theorem transfer_of_step {w v : World} {a : Action} (h : w.step a = .next v) :
    Transfer w a v := by
  cases step_cases h with
  | handleEvents cb rest io r hidle hphase hrun =>
    exact .job _ io r (by rw [jobOf, hidle, hphase]) rfl hrun rfl rfl
  | runTask task rest io r hidle hphase hbatch hrun =>
    exact .job _ io r (by rw [jobOf, hidle, hphase, hbatch]) rfl hrun rfl rfl
  | runHere task io r hcall hrun => exact .job _ io r (by rw [jobOf, hcall]) rfl hrun rfl rfl
  | retrieve len inputBuffer hretrieve => exact .retrieve len rfl hretrieve rfl
  | queue t task io hcall => exact .quiet (jobOf_resume (by simp [hcall])) rfl rfl rfl
  | shutdownMoved t io hcall hstate => exact .quiet (jobOf_resume (by simp [hcall])) rfl rfl rfl
  | shutdownLate t io hcall hstate => exact .quiet (jobOf_resume (by simp [hcall])) rfl rfl rfl
  | forceCloseMoved t io hcall hstate =>
    exact .quiet (jobOf_resume (by simp [hcall])) rfl rfl rfl
  | forceCloseLate t io hcall hstate =>
    exact .quiet (jobOf_resume (by simp [hcall])) rfl rfl rfl
  | _ => exact .quiet rfl rfl rfl rfl

theorem content_retrieve {b b' : Buffer} (hb : b.WF) {len : Nat}
    (h : b.retrieve len = .ok b') : b.content = b.peek len ++ b'.content := by
  have hlen : len ≤ b.readableBytes := by
    rw [Buffer.retrieve, bind_eq_ok] at h
    obtain ⟨_, hlen, _⟩ := h
    exact require_eq_ok.mp hlen
  rw [(Connection.wf_of_retrieve hb hlen h).2, Buffer.peek_eq_take hb hlen,
    List.take_append_drop]

/-- **The input buffer is a stage** between the socket and the user's code. -/
theorem stage_input :
    Stage step (fun w => w.conn.inputBuffer.WF) (fun _ _ => True) received consumed
      (fun w => w.conn.inputBuffer.content) := by
  refine ⟨fun w a v hw _ h => wf_input_of_step hw h, fun w a v hw _ h => ?_⟩
  cases transfer_of_step h with
  | quiet hjob hconsumed hinput hran =>
    rw [received_of_none hjob, hconsumed, hinput, List.append_nil, List.nil_append]
  | retrieve len ha hretrieve hran =>
    subst ha
    rw [received_of_none rfl, List.append_nil, consumed]
    exact content_retrieve hw hretrieve
  | job job io r hjob hconsumed hrun hconn hran =>
    rw [received_of_jobOf hjob, hconsumed, hconn, List.nil_append]
    exact (Connection.content_input_of_execute hw hrun).symm

/-- **The input stream is intact.**  In every run of one connection with any
threads, any epoll reports and any results of `::readv`: the bytes read from the
socket are the bytes user code has retrieved, followed by the readable bytes of
the input buffer. -/
theorem input_intact (settings : Settings) (actions : List Action) {w : World}
    (h : run step (start settings) actions = some w) :
    emitted step received (start settings) actions =
      emitted step consumed (start settings) actions ++ w.conn.inputBuffer.content := by
  have hall := (stage_input.run (s := start settings) Connection.wf_freshBuffer
    (along_of_always (fun _ _ => trivial) _ _) h).2
  have hempty : (start settings).conn.inputBuffer.content = [] := Connection.content_freshBuffer
  rwa [hempty, List.nil_append] at hall

/-- Two reads, and a retrieve between them that leaves a byte behind. -/
def readTwice : List Action :=
  [.loop .swap, .loop .endRound, .loop (.poll epollIn),
    .loop (.handleEvents ⟨.fail 0, .data [65, 66]⟩), .user (.retrieve 1), .loop .swap,
    .loop .endRound, .loop (.poll epollIn), .loop (.handleEvents ⟨.fail 0, .data [67]⟩)]

theorem input_intact_readTwice :
    ∃ w, run step (start ⟨false, true, false, 0⟩) readTwice = some w ∧
      emitted step received (start ⟨false, true, false, 0⟩) readTwice =
        emitted step consumed (start ⟨false, true, false, 0⟩) readTwice ++
          w.conn.inputBuffer.content := by
  obtain ⟨w, hw⟩ : ∃ w, run step (start ⟨false, true, false, 0⟩) readTwice = some w :=
    Option.isSome_iff_exists.mp (by decide +kernel)
  exact ⟨w, hw, input_intact _ _ hw⟩

/-! ## Output -/

/-- The bytes the kernel accepts in the step. -/
def delivered (w : World) (a : Action) : List UInt8 :=
  match w.jobOf a with
  | some (job, io) => w.conn.delivered io job
  | none => []

theorem wire_of_step {w v : World} {a : Action} (h : w.step a = .next v) :
    v.conn.wire = w.conn.wire ++ w.delivered a := by
  rw [delivered]
  cases hjob : w.jobOf a with
  | some p =>
    obtain ⟨job, io⟩ := p
    obtain ⟨base, hconn, _, hstep⟩ := step_of_jobOf hjob
    obtain ⟨r, hrun, rfl⟩ := runJob_eq_next.mp (hstep.symm.trans h)
    rw [hconn] at hrun
    exact (Connection.execute_cases hrun).wire
  | none =>
    rw [List.append_nil]
    cases connStep_of_step h with
    | same inputBuffer settings hinput hconn =>
      rw [hconn]
      exact Connection.wire_of_syscalls rfl
    | exchange t io ha hcall hconn =>
      rw [hconn]
      exact Connection.wire_of_syscalls rfl
    | job job io r hjob' =>
      rw [hjob] at hjob'
      cases hjob'

/-- The messages whose `sendInLoop` the step runs on a connection that is not
closed. -/
def accepted (w : World) (a : Action) : List Message :=
  match w.jobOf a with
  | some (job, _) => job.accepted w.conn.state
  | none => []

/-- The bytes of these messages. -/
def entrusted (w : World) (a : Action) : List UInt8 := bytesOf (w.accepted a)

/-- The bytes of a step that gives nothing up: what was waiting and what is
accepted is what is delivered and what is waiting now. -/
theorem stream_eq_of_step {w v : World} {a : Action} (hw : w.conn.outputBuffer.WF)
    (hkept : ¬ w.GivesUp a) (h : w.step a = .next v) :
    v.conn.stream = w.conn.stream ++ w.entrusted a := by
  rw [entrusted, accepted]
  cases hjob : w.jobOf a with
  | some p =>
    obtain ⟨job, io⟩ := p
    obtain ⟨base, hconn, _, hstep⟩ := step_of_jobOf hjob
    obtain ⟨r, hrun, rfl⟩ := runJob_eq_next.mp (hstep.symm.trans h)
    rw [hconn] at hrun
    refine (Connection.execute_cases hrun).stream hw fun message hsend hgives => hkept ?_
    subst hsend
    rw [GivesUp, hjob]
    exact hgives
  | none =>
    refine Eq.trans ?_ (List.append_nil _).symm
    cases connStep_of_step h with
    | same inputBuffer settings hinput hconn =>
      rw [hconn]
      rfl
    | exchange t io ha hcall hconn =>
      rw [hconn]
      rfl
    | job job io r hjob' =>
      rw [hjob] at hjob'
      cases hjob'

/-- The messages that have run are the history of the messages accepted. -/
theorem stage_ran :
    Stage step (fun _ => True) (fun _ _ => True) accepted (fun _ _ => []) World.ran := by
  refine .of_history (fun _ _ _ _ _ _ => trivial) fun w a v _ _ h => ?_
  rw [accepted]
  cases transfer_of_step h with
  | quiet hjob hconsumed hinput hran => rw [hjob, hran, List.append_nil]
  | retrieve len ha hretrieve hran =>
    subst ha
    rw [hran, show w.jobOf (.user (.retrieve len)) = none from rfl, List.append_nil]
  | job job io r hjob hconsumed hrun hconn hran => rw [hjob, hran]

/-- Their bytes are the history of the bytes entrusted to the connection. -/
theorem stage_bytesOf_ran :
    Stage step (fun _ => True) (fun _ _ => True) entrusted (fun _ _ => [])
      (fun w => bytesOf w.ran) := by
  refine .of_history (fun _ _ _ _ _ _ => trivial) fun w a v _ _ h => ?_
  have hone := stage_ran.conserves w a v trivial trivial h
  rw [List.nil_append] at hone
  rw [entrusted, ← bytesOf_append, hone]

/-- What the kernel has accepted is the history of what was delivered to it. -/
theorem stage_wire :
    Stage step (fun _ => True) (fun _ _ => True) delivered (fun _ _ => [])
      (fun w => w.conn.wire) :=
  .of_history (fun _ _ _ _ _ _ => trivial) fun _ _ _ _ _ h => wire_of_step h

/-- **The output buffer is a stage** between the messages and the kernel. -/
theorem stage_output :
    Stage step (fun w => w.conn.outputBuffer.WF) (fun w a => ¬ w.GivesUp a) entrusted delivered
      (fun w => w.conn.outputBuffer.content) := by
  refine ⟨fun w a v hw _ h => wf_output_of_step hw h, fun w a v hw hkept h => ?_⟩
  have hstream := stream_eq_of_step hw hkept h
  rw [Connection.stream, Connection.stream, wire_of_step h, List.append_assoc,
    List.append_assoc] at hstream
  exact (List.append_cancel_left hstream).symm

end World

end Tcp

end CppWeb
