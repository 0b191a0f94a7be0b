/-
  Tcp/Stream.lean --- the byte stream of a connection.

  `sendInLoop` and `handleWrite` both write to the socket, and they hand over to
  each other through the output buffer.  What the kernel has accepted, followed
  by what is buffered, is at every moment the concatenation of the messages run
  so far: a direct write only happens with an empty buffer, a partial write
  leaves exactly the rest behind, and `handleWrite` retrieves exactly what was
  accepted.  That the buffer compacts and grows underneath is settled by the
  buffer's own specification.

  The second half is about order: messages of one thread are numbered as they
  are issued, and queued, in flight or run they never change places.
-/
import CppWeb.Tcp.Ledger

set_option autoImplicit false

namespace CppWeb.Tcp

open CppWeb.Foundation CppWeb.Loop CppWeb.Poll

/-- The bytes of the messages, one after the other. -/
def bytesOf (messages : List Message) : List UInt8 :=
  messages.flatMap fun message => message.data.data

@[simp] theorem bytesOf_append (ms ms' : List Message) :
    bytesOf (ms ++ ms') = bytesOf ms ++ bytesOf ms' := List.flatMap_append

@[simp] theorem bytesOf_singleton (message : Message) :
    bytesOf [message] = message.data.data := by
  simp [bytesOf]

namespace Connection

/-! ## Bytes under a job -/

/-- Everything the connection has taken responsibility for: what the kernel has
accepted and what is buffered. -/
def stream (c : Connection) : List UInt8 := c.wire ++ c.outputBuffer.content

theorem wire_record (c : Connection) (call : Syscall) :
    (c.record call).wire = c.wire ++ call.delivered := by
  simp [wire, record]

theorem wire_of_syscalls {c d : Connection} (h : d.syscalls = c.syscalls) :
    d.wire = c.wire := by
  rw [wire, wire, h]

theorem stream_eq {c : Connection} {wire content : List UInt8} (hwire : c.wire = wire)
    (hcontent : c.outputBuffer.content = content) : c.stream = wire ++ content := by
  rw [stream, hwire, hcontent]

/-- A system call that delivers nothing leaves the stream alone. -/
theorem stream_record {c : Connection} {call : Syscall} (h : call.delivered = []) :
    (c.record call).stream = c.stream := by
  rw [stream, wire_record, h, List.append_nil]
  rfl

/-- What was accepted and what was left of a message make up the message. -/
theorem take_append_drop_taken (message : Bytes) (io : WriteResult) :
    message.data.take (io.taken message.data.length) ++
      (message.drop (io.taken message.length)).data = message.data :=
  List.take_append_drop _ _

theorem content_of_empty {b : Buffer} (h : b.WF) (hempty : b.readableBytes = 0) :
    b.content = [] := (Buffer.content_eq_nil_iff h).mpr hempty

/-- `sendInLoop` gives the message up: it tries to write at once, and the error
is not one of the three that mean "not now". -/
def GivesUp (c : Connection) (io : WriteResult) (message : Bytes) : Prop :=
  c.state ≠ .kDisconnected ∧ c.channel.isWriting = false ∧ io.isFault = true ∧
    0 < message.length

instance (c : Connection) (io : WriteResult) (message : Bytes) :
    Decidable (c.GivesUp io message) := inferInstanceAs (Decidable (_ ∧ _ ∧ _ ∧ _))

/-- `sendInLoop` adds its message to the stream, unless the connection is closed
or the message is given up. -/
theorem SendEffect.stream {c : Connection} (hc : c.outputBuffer.WF) {io : WriteResult}
    {message : Bytes} {r : Connection × List Task} (hkept : ¬ c.GivesUp io message)
    (h : SendEffect c io message r) :
    r.1.stream = c.stream ++ if c.state = .kDisconnected then [] else message.data := by
  cases h with
  | disconnected hstate => rw [if_pos hstate, List.append_nil]
  | direct tasks hstate hidle hempty hdone =>
    have hall : io.taken message.length = message.length := by
      rcases hdone with hfault | hall
      · have hnone : message.length = 0 := by
          by_contra hlen
          exact hkept ⟨hstate, hidle, hfault, Nat.pos_of_ne_zero hlen⟩
        have hle := WriteResult.taken_le message.length io
        omega
      · exact hall
    have hcontent := content_of_empty hc hempty
    rw [if_neg hstate, Connection.stream, Connection.stream, wire_record]
    rw [show (c.record (.write message.data io)).outputBuffer = c.outputBuffer from rfl]
    rw [hcontent, List.append_nil, List.append_nil, Syscall.delivered]
    rw [show io.taken message.data.length = message.data.length from hall, List.take_length]
  | directRest tasks outputBuffer channel hstate hidle hempty hnot hrest happend =>
    obtain ⟨_, hbuffered⟩ := wf_of_append hc happend
    have hcontent := content_of_empty hc hempty
    rw [hcontent, List.nil_append] at hbuffered
    rw [if_neg hstate, Connection.stream_eq
        (c := { c.record (.write message.data io) with
          outputBuffer := outputBuffer, channel := channel })
        (wire_record c (.write message.data io)) hbuffered,
      Connection.stream, hcontent, List.append_nil, Syscall.delivered, List.append_assoc,
      take_append_drop_taken]
  | nothing hstate hwriting hlen =>
    have hnil : message.data = [] := List.eq_nil_of_length_eq_zero hlen
    rw [if_neg hstate, hnil, List.append_nil]
  | buffered tasks outputBuffer channel hstate hwriting hlen happend =>
    obtain ⟨_, hbuffered⟩ := wf_of_append hc happend
    rw [if_neg hstate, Connection.stream_eq
        (c := { c with outputBuffer := outputBuffer, channel := channel })
        (wire_of_syscalls (c := c) rfl) hbuffered,
      Connection.stream, List.append_assoc]

/-- `handleWrite` moves bytes from the buffer to the wire. -/
theorem WriteEffect.stream {c : Connection} (hc : c.outputBuffer.WF) {io : WriteResult}
    {r : Connection × List Task} (h : WriteEffect c io r) : r.1.stream = c.stream := by
  have hmove : ∀ (d : Connection) (outputBuffer : Buffer),
      d.syscalls = (c.record (.write c.outputBuffer.content io)).syscalls →
      d.outputBuffer = outputBuffer →
      c.outputBuffer.retrieve (io.taken c.outputBuffer.readableBytes) = .ok outputBuffer →
      d.stream = c.stream := by
    intro d outputBuffer hcalls houtput hretrieve
    obtain ⟨_, hleft⟩ := wf_of_retrieve hc (WriteResult.taken_le _ _) hretrieve
    rw [Connection.stream, Connection.stream, wire_of_syscalls hcalls, wire_record, houtput,
      hleft, Syscall.delivered, Buffer.length_content hc, List.append_assoc,
      List.take_append_drop]
  cases h with
  | disconnected hstate => rfl
  | failed errno hstate hreadable hwriting hio =>
    refine stream_record ?_
    rw [hio, Syscall.delivered, WriteResult.taken, List.take_zero]
  | partly outputBuffer hstate hreadable hwriting hretrieve =>
    exact hmove _ outputBuffer rfl rfl hretrieve
  | drained tasks outputBuffer channel hstate hreadable hwriting hretrieve =>
    exact hmove _ outputBuffer rfl rfl hretrieve

/-- A job adds the messages it accepts to the stream, and nothing else. -/
theorem Executed.stream {c : Connection} (hc : c.outputBuffer.WF) {io : Io} {job : Job}
    {r : Connection × List Task}
    (hkept : ∀ message, job = .task (.sendInLoop message) → ¬ c.GivesUp io.write message.data)
    (h : Executed c io job r) :
    r.1.stream = c.stream ++ bytesOf (job.accepted c.state) := by
  have hnone : ∀ task : Task, task.messages = [] →
      bytesOf ((Job.task task).accepted c.state) = [] := by
    intro task htask
    rw [Job.accepted, htask, ite_self]
    rfl
  cases h with
  | send message h =>
    rw [h.stream hc (hkept message rfl), Job.accepted]
    split
    · rfl
    · rw [Task.messages, bytesOf_singleton]
  | write h =>
    rw [h.stream hc]
    exact (List.append_nil _).symm
  | read h =>
    refine Eq.trans ?_ (List.append_nil _).symm
    cases h with
    | failed hstate =>
      exact (stream_record rfl).trans (stream_record rfl)
    | closed n inputBuffer hstate hread =>
      exact stream_record (c := { c with inputBuffer := inputBuffer }) rfl
    | data n inputBuffer hstate hread =>
      exact stream_record (c := { c with inputBuffer := inputBuffer }) rfl
  | error => exact (stream_record rfl).trans (List.append_nil _).symm
  | close hstate => exact (List.append_nil _).symm
  | shutdown =>
    rw [hnone _ rfl, List.append_nil, shutdownInLoop]
    split
    · exact stream_record rfl
    · rfl
  | forceClose hstate =>
    rw [hnone _ rfl, List.append_nil]
    rfl
  | stopRead channel hreading hchannel =>
    rw [hnone _ rfl, List.append_nil]
    rfl
  | startRead channel hreading hchannel =>
    rw [hnone _ rfl, List.append_nil]
    rfl
  | _ => rw [hnone _ rfl, List.append_nil]

end Connection

/-! ## The order of messages -/

/-- Of two messages of one thread the first was issued before the second. -/
def Message.Before (m m' : Message) : Prop := m.sender = m'.sender → m.seq < m'.seq

instance (m m' : Message) : Decidable (m.Before m') := inferInstanceAs (Decidable (_ → _))

namespace World

/-- The messages that were run or are queued, in that order. -/
def lineUp (w : World) : List Message := w.ran ++ w.queued

/-- Messages keep their thread's order: those lined up among themselves, and
those in flight behind them.  Only the loop thread overtakes the queue, and it
has nothing queued itself. -/
structure OrderInv (w : World) : Prop where
  sorted : w.lineUp.Pairwise Message.Before
  issued : ∀ m ∈ w.lineUp, m.seq < w.issued m.sender
  flight : ∀ t m, w.InFlight t m →
    m.sender = t ∧ m.seq < w.issued t ∧ ∀ m' ∈ w.lineUp, m'.sender = t → m'.seq < m.seq
  workers : ∀ m ∈ w.queued, m.sender ≠ .loop
  queueing : ∀ t task, w.calls t = .queueing task → task = .forceCloseInLoop

theorem orderInv_start (settings : Settings) : (start settings).OrderInv := by
  refine ⟨List.Pairwise.nil, fun m hm => ?_, fun t m h => ?_, fun m hm => ?_, fun t task h => ?_⟩
  · exact absurd hm List.not_mem_nil
  · cases h
  · exact absurd hm List.not_mem_nil
  · cases h

/-- Messages that leave, or stay where they are, keep the order. -/
theorem OrderInv.shrink {w v : World} (hw : w.OrderInv)
    (hline : v.lineUp.Sublist w.lineUp) (hqueued : ∀ m ∈ v.queued, m ∈ w.queued)
    (hissued : v.issued = w.issued) (hflight : ∀ t m, v.InFlight t m → w.InFlight t m)
    (hqueueing : ∀ t task, v.calls t = .queueing task → task = .forceCloseInLoop) :
    v.OrderInv := by
  refine ⟨hw.sorted.sublist hline, fun m hm => ?_, fun t m h => ?_, fun m hm => ?_, hqueueing⟩
  · rw [hissued]
    exact hw.issued m (hline.subset hm)
  · obtain ⟨hsender, hseq, hbehind⟩ := hw.flight t m (hflight t m h)
    rw [hissued]
    exact ⟨hsender, hseq, fun m' hm' => hbehind m' (hline.subset hm')⟩
  · exact hw.workers m (hqueued m hm)

/-- A message in flight may be inserted anywhere before messages of other
threads. -/
theorem OrderInv.insert {w v : World} (hw : w.OrderInv) {t : Thread} {m : Message}
    (hm : w.InFlight t m) {front back : List Message} (hold : w.lineUp = front ++ back)
    (hnew : v.lineUp = front ++ m :: back) (hback : ∀ m' ∈ back, m'.sender ≠ t)
    (hissued : v.issued = w.issued)
    (hflight : ∀ t' m', v.InFlight t' m' → t' ≠ t ∧ w.InFlight t' m')
    (hworkers : ∀ m ∈ v.queued, m.sender ≠ .loop)
    (hqueueing : ∀ t task, v.calls t = .queueing task → task = .forceCloseInLoop) :
    v.OrderInv := by
  obtain ⟨hsender, hseq, hbehind⟩ := hw.flight t m hm
  have hmem : ∀ m' ∈ v.lineUp, m' = m ∨ m' ∈ w.lineUp := by
    intro m' hm'
    rw [hnew, List.mem_append, List.mem_cons] at hm'
    rw [hold, List.mem_append]
    rcases hm' with hm' | hm' | hm'
    · exact Or.inr (Or.inl hm')
    · exact Or.inl hm'
    · exact Or.inr (Or.inr hm')
  refine ⟨?_, fun m' hm' => ?_, fun t' m' h => ?_, hworkers, hqueueing⟩
  · have hsorted := hw.sorted
    rw [hold, List.pairwise_append] at hsorted
    obtain ⟨hfront, hbackSorted, hcross⟩ := hsorted
    rw [hnew, List.pairwise_append, List.pairwise_cons]
    refine ⟨hfront, ⟨fun m' hm' hsame => ?_, hbackSorted⟩, fun m₁ hm₁ m₂ hm₂ => ?_⟩
    · exact absurd (hsame.symm.trans hsender) (hback m' hm')
    · rcases List.mem_cons.mp hm₂ with rfl | hm₂
      · intro hsame
        refine hbehind m₁ ?_ (hsame.trans hsender)
        rw [hold]
        exact List.mem_append_left _ hm₁
      · exact hcross m₁ hm₁ m₂ hm₂
  · rw [hissued]
    rcases hmem m' hm' with rfl | hm'
    · rw [hsender]
      exact hseq
    · exact hw.issued m' hm'
  · obtain ⟨hne, h⟩ := hflight t' m' h
    obtain ⟨hsender', hseq', hbehind'⟩ := hw.flight t' m' h
    rw [hissued]
    refine ⟨hsender', hseq', fun m'' hm'' hsame => ?_⟩
    rcases hmem m'' hm'' with rfl | hm''
    · exact absurd (hsame.symm.trans hsender) hne
    · exact hbehind' m'' hm'' hsame

/-- A thread whose call has ended has nothing in flight. -/
theorem inFlight_goto_idle {w : World} {t t' : Thread} {m : Message}
    (h : (w.goto t .idle).InFlight t' m) : t' ≠ t ∧ w.InFlight t' m := by
  by_cases ht : t' = t
  · subst ht
    rw [InFlight, calls_goto_self] at h
    cases h
  · rw [InFlight, calls_goto_of_ne _ ht] at h
    exact ⟨ht, h⟩

theorem queueing_goto_idle {w : World} (hw : w.OrderInv) {t t' : Thread} {task : Task}
    (h : (w.goto t .idle).calls t' = .queueing task) : task = .forceCloseInLoop := by
  by_cases ht : t' = t
  · subst ht
    rw [calls_goto_self] at h
    cases h
  · rw [calls_goto_of_ne _ ht] at h
    exact hw.queueing t' task h

/-- The message of a closure that is not a `sendInLoop`. -/
theorem messages_eq_nil_or (task : Task) :
    task.messages = [] ∨ ∃ m, task = .sendInLoop m := by
  cases task with
  | sendInLoop m => exact Or.inr ⟨m, rfl⟩
  | _ => exact Or.inl rfl

theorem accepted_sublist (state : ConnectionState) (task : Task) :
    ((Connection.Job.task task).accepted state).Sublist task.messages := by
  rw [Connection.Job.accepted]
  split
  · exact List.nil_sublist _
  · exact List.Sublist.refl _

/-! ### One step -/

theorem OrderInv.issue {w : World} (hw : w.OrderInv) (t : Thread) (data : Bytes) :
    ({ w.goto t (.handing (.sendInLoop ⟨t, w.issued t, data⟩)) with
        issued := Function.update w.issued t (w.issued t + 1) } : World).OrderInv := by
  have hle : ∀ t', w.issued t' ≤ Function.update w.issued t (w.issued t + 1) t' := by
    intro t'
    by_cases ht : t' = t
    · subst ht
      simp
    · simp [ht]
  refine ⟨hw.sorted, fun m hm => ?_, fun t' m h => ?_, hw.workers, fun t' task h => ?_⟩
  · exact Nat.lt_of_lt_of_le (hw.issued m hm) (hle m.sender)
  · by_cases ht : t' = t
    · subst ht
      have hm : m = ⟨t', w.issued t', data⟩ := by
        simpa [InFlight, goto, eq_comm] using h
      subst hm
      refine ⟨rfl, by simp, fun m' hm' hsame => ?_⟩
      have hold := hw.issued m' hm'
      rwa [hsame] at hold
    · have hold : w.InFlight t' m := by simpa [InFlight, goto, ht] using h
      obtain ⟨hsender, hseq, hbehind⟩ := hw.flight t' m hold
      exact ⟨hsender, Nat.lt_of_lt_of_le hseq (hle t'), hbehind⟩
  · by_cases ht : t' = t
    · subst ht
      simp [goto] at h
    · exact hw.queueing t' task (by simpa [goto, ht] using h)

/-- Queueing a closure keeps the order. -/
theorem OrderInv.handQueue {w : World} (hw : w.OrderInv) {t : Thread} {task : Task}
    (hcall : (t ≠ .loop ∧ w.calls t = .handing task) ∨ w.calls t = .queueing task) :
    (((w.goto t .idle).handOver task).queueInLoop task).OrderInv := by
  have hqueued := queued_queueInLoop ((w.goto t .idle).handOver task) task
  have hline : (((w.goto t .idle).handOver task).queueInLoop task).lineUp =
      w.lineUp ++ task.messages := by
    rw [lineUp, hqueued, ← List.append_assoc]
    rfl
  have hold : ((w.goto t .idle).handOver task).queued = w.queued := rfl
  rw [hold] at hqueued
  rcases messages_eq_nil_or task with hnone | ⟨m, rfl⟩
  · rw [hnone, List.append_nil] at hline hqueued
    refine hw.shrink (by rw [hline]) (fun m hm => by rwa [hqueued] at hm) rfl
      (fun t' m h => (inFlight_goto_idle h).2) fun t' task' h => queueing_goto_idle hw h
  · rcases hcall with ⟨hworker, hcall⟩ | hcall
    · have hsender := (hw.flight t m hcall).1
      refine hw.insert hcall (show w.lineUp = w.lineUp ++ [] from (List.append_nil _).symm) hline
        (fun m' hm' => absurd hm' List.not_mem_nil) rfl
        (fun t' m' h => inFlight_goto_idle h) (fun m' hm' => ?_)
        fun t' task' h => queueing_goto_idle hw h
      rw [hqueued, List.mem_append] at hm'
      rcases hm' with hm' | hm'
      · exact hw.workers m' hm'
      · rw [List.mem_singleton.mp hm', hsender]
        exact hworker
    · cases hw.queueing t _ hcall

/-- Running a closure at once on the loop thread keeps the order. -/
theorem OrderInv.runHere {w : World} (hw : w.OrderInv) {task : Task} {io : Io}
    {r : Connection × List Task} (hcall : w.calls .loop = .handing task)
    (hrun : w.conn.execute io (.task task) = .ok r) :
    (((w.goto .loop .idle).handOver task).after (.task task) r).OrderInv := by
  have hqueued : (((w.goto .loop .idle).handOver task).after (.task task) r).queued =
      w.queued := queued_after (w := (w.goto .loop .idle).handOver task) hrun
  have hline : (((w.goto .loop .idle).handOver task).after (.task task) r).lineUp =
      w.ran ++ (Connection.Job.task task).accepted w.conn.state ++ w.queued := by
    rw [lineUp, hqueued]
    rfl
  have hshrink : (Connection.Job.task task).accepted w.conn.state = [] →
      (((w.goto .loop .idle).handOver task).after (.task task) r).OrderInv := by
    intro hnone
    rw [hnone, List.append_nil] at hline
    exact hw.shrink (by rw [hline, lineUp]) (fun m hm => by rwa [hqueued] at hm) rfl
      (fun t' m h => (inFlight_goto_idle h).2) fun t' task' h => queueing_goto_idle hw h
  rcases messages_eq_nil_or task with hnone | ⟨m, rfl⟩
  · refine hshrink ?_
    rw [Connection.Job.accepted, hnone, ite_self]
  · by_cases hstate : w.conn.state = .kDisconnected
    · refine hshrink ?_
      rw [Connection.Job.accepted, if_pos hstate]
    · rw [Connection.Job.accepted, if_neg hstate, Task.messages, List.append_assoc] at hline
      exact hw.insert hcall rfl hline hw.workers rfl
        (fun t' m' h => inFlight_goto_idle h)
        (fun m' hm' => hw.workers m' (by rwa [hqueued] at hm'))
        fun t' task' h => queueing_goto_idle hw h

/-- Running the first task of the queue keeps the order. -/
theorem OrderInv.runQueued {w : World} (hw : w.OrderInv) {task : Task} {rest : List Task}
    {io : Io} {r : Connection × List Task} (hqueue : w.queue.toList = task :: rest)
    (hrest : w.queue.advance.toList = rest)
    (hrun : w.conn.execute io (.task task) = .ok r) :
    ({ w with queue := w.queue.advance }.after (.task task) r).OrderInv := by
  have hqueued : ({ w with queue := w.queue.advance }.after (.task task) r).queued =
      rest.flatMap Task.messages := by
    rw [queued_after (w := { w with queue := w.queue.advance }) hrun, queued, hrest]
  have hold : w.queued = task.messages ++ rest.flatMap Task.messages := by
    rw [queued, hqueue, List.flatMap_cons]
  refine hw.shrink ?_ (fun m hm => ?_) rfl (fun t m h => h) hw.queueing
  · rw [lineUp, lineUp, hqueued, hold, ← List.append_assoc]
    refine List.Sublist.append ?_ (List.Sublist.refl _)
    exact List.Sublist.append (List.Sublist.refl _) (accepted_sublist _ task)
  · rw [hqueued] at hm
    rw [hold]
    exact List.mem_append_right _ hm

theorem OrderInv.step {w v : World} {a : Action} (hw : w.OrderInv) (hbatch : w.BatchDone)
    (h : w.step a = .next v) : v.OrderInv := by
  cases ledgerStep_of_step h hbatch with
  | quiet hcalls houtput hchannel hqueue hran hhanded hshutdown hissued hflight hqueueing =>
    have hqueued : v.queued = w.queued := by rw [queued, queued, hqueue]
    refine hw.shrink ?_ (fun m hm => by rwa [hqueued] at hm) hissued hflight fun t task ht => ?_
    · rw [lineUp, lineUp, hqueued, hran]
    · rcases hqueueing t task ht with hold | heq
      · exact hw.queueing t task hold
      · exact heq
  | issue t data hidle hstate hv =>
    rw [hv]
    exact hw.issue t data
  | handQueue t task io ha hcall hv =>
    rw [hv]
    exact hw.handQueue hcall
  | runHere task io r ha hcall hrun hv =>
    rw [hv]
    exact hw.runHere hcall hrun
  | runQueued task rest io r hjob hqueue hrest hrun hv =>
    rw [hv]
    exact hw.runQueued hqueue hrest hrun
  | callback cb io r hjob hrun hv =>
    obtain ⟨phase, rfl⟩ := hv
    have hqueued := queued_after (w := { w with phase := phase }) hrun
    have hran : ({ w with phase := phase }.after (.callback cb) r).ran = w.ran :=
      List.append_nil _
    refine hw.shrink ?_ (fun m hm => by rwa [hqueued] at hm) rfl (fun t m h => h) hw.queueing
    rw [lineUp, lineUp, hqueued, hran]
    exact List.Sublist.refl _

/-! ## Runs -/

/-- What the kernel has accepted, followed by what is buffered, is the
concatenation of the messages in the order they were run, and the messages of
each thread were run in the order it issued them. -/
structure StreamIntact (w : World) : Prop where
  bytes : w.conn.wire ++ w.conn.outputBuffer.content = bytesOf w.ran
  order : w.ran.Pairwise Message.Before

/-- A condition on the `sendInLoop` that a step runs, if it runs one. -/
def decidableOfSend (job : Option (Connection.Job × Io)) (P : Message → Io → Prop) (Q : Prop)
    [∀ message io, Decidable (P message io)] [Decidable Q] :
    Decidable (match job with
      | some (.task (.sendInLoop message), io) => P message io
      | _ => Q) := by
  split <;> infer_instance

/-- The step runs a `sendInLoop` whose `::write` fails with an error other than
`EAGAIN`, `EWOULDBLOCK` and `EINTR`. -/
def WriteFaults (w : World) (a : Action) : Prop :=
  match w.jobOf a with
  | some (.task (.sendInLoop _), io) => io.write.isFault = true
  | _ => False

instance (w : World) (a : Action) : Decidable (w.WriteFaults a) :=
  decidableOfSend (w.jobOf a) (fun _ io => io.write.isFault = true) False

/-- The bytes of the invariant. -/
structure StreamInv (w : World) : Prop where
  wf : w.conn.outputBuffer.WF
  batch : w.BatchDone
  bytes : w.conn.stream = bytesOf w.ran
  order : w.OrderInv

theorem streamInv_start (settings : Settings) : (start settings).StreamInv := by
  refine ⟨wf_output_start settings, batchDone_start settings, ?_, orderInv_start settings⟩
  exact Connection.content_freshBuffer

/-- The step runs a `sendInLoop` that gives its message up. -/
def GivesUp (w : World) (a : Action) : Prop :=
  match w.jobOf a with
  | some (.task (.sendInLoop message), io) => w.conn.GivesUp io.write message.data
  | _ => False

instance (w : World) (a : Action) : Decidable (w.GivesUp a) :=
  decidableOfSend (w.jobOf a) (fun message io => w.conn.GivesUp io.write message.data) False

/-- A message is given up because of an error of `::write`. -/
theorem WriteFaults.of_givesUp {w : World} {a : Action} (h : w.GivesUp a) :
    w.WriteFaults a := by
  rw [GivesUp] at h
  split at h
  · rename_i message io hjob
    rw [WriteFaults, hjob]
    exact h.2.2.1
  · cases h

/-- A job that gives nothing up keeps the stream. -/
theorem stream_of_job {w : World} (hwf : w.conn.outputBuffer.WF)
    (hbytes : w.conn.stream = bytesOf w.ran) {a : Action} (hkept : ¬ w.GivesUp a)
    {job : Connection.Job} {io : Io} {r : Connection × List Task}
    (hjob : w.jobOf a = some (job, io)) (hrun : w.conn.execute io job = .ok r) :
    r.1.stream = bytesOf (w.ran ++ job.accepted w.conn.state) := by
  have hsend : ∀ message, job = .task (.sendInLoop message) →
      ¬ w.conn.GivesUp io.write message.data := by
    intro message hsend hgives
    subst hsend
    refine hkept ?_
    rw [GivesUp, hjob]
    exact hgives
  rw [(Connection.execute_cases hrun).stream hwf hsend, hbytes, bytesOf_append]

/-- A step that gives nothing up keeps the stream. -/
theorem stream_of_step {w v : World} {a : Action} (hwf : w.conn.outputBuffer.WF)
    (hbatch : w.BatchDone) (hbytes : w.conn.stream = bytesOf w.ran) (hkept : ¬ w.GivesUp a)
    (h : w.step a = .next v) : v.conn.stream = bytesOf v.ran := by
  cases ledgerStep_of_step h hbatch with
  | quiet hcalls houtput hchannel hqueue hran hhanded hshutdown hissued hflight hqueueing =>
    rw [Connection.stream, Connection.wire_of_syscalls hcalls, houtput, hran]
    exact hbytes
  | issue t data hidle hstate hv =>
    rw [hv]
    exact hbytes
  | handQueue t task io ha hcall hv =>
    rw [hv]
    exact hbytes
  | runHere task io r ha hcall hrun hv =>
    subst ha
    rw [hv]
    exact stream_of_job hwf hbytes hkept (by rw [jobOf, hcall]) hrun
  | runQueued task rest io r hjob hqueue hrest hrun hv =>
    rw [hv]
    exact stream_of_job hwf hbytes hkept hjob hrun
  | callback cb io r hjob hrun hv =>
    obtain ⟨phase, rfl⟩ := hv
    exact stream_of_job hwf hbytes hkept hjob hrun

/-- **One step.**  A step without a fatal write error keeps the stream. -/
theorem StreamInv.step {w v : World} {a : Action} (hw : w.StreamInv) (hgood : ¬ w.WriteFaults a)
    (h : w.step a = .next v) : v.StreamInv := by
  refine ⟨wf_output_of_step hw.wf h, hw.batch.step h, ?_, hw.order.step hw.batch h⟩
  exact stream_of_step hw.wf hw.batch hw.bytes (fun hgives => hgood (.of_givesUp hgives)) h

theorem StreamInv.intact {w : World} (hw : w.StreamInv) : w.StreamIntact :=
  ⟨hw.bytes, (List.pairwise_append.mp hw.order.sorted).1⟩

/-- **The output stream is intact.**  In every state of every run of one
connection with any threads, any messages and any results of `::write` other
than a fatal error in `sendInLoop`: the bytes the kernel has accepted, followed
by the readable bytes of the output buffer, are the concatenation of the
messages whose `sendInLoop` ran while the connection was not closed, in the
order they ran, which for each thread is the order it sent them. -/
theorem stream_intact (settings : Settings) (actions : List Action)
    (h : Along step (fun w a => ¬ w.WriteFaults a) (start settings) actions) :
    Throughout step StreamIntact (start settings) actions := by
  have hinv := throughout_of_along (streamInv_start settings)
    (fun _ _ _ hw hgood hstep => hw.step hgood hstep) h
  exact hinv.mono fun _ hw => hw.intact

/-- The loop thread sends two bytes of which one is accepted, a worker sends a
third, and the socket becomes ready before the worker's turn comes. -/
def twoSenders : List Action :=
  [.call .loop (.send ⟨[65, 66], SizeT.two_le_maxSize⟩),
    .call (.worker 0) (.send ⟨[67], SizeT.one_le_maxSize⟩),
    .resume .loop ⟨.accepted 1, .fail 0⟩, .resume (.worker 0) ⟨.fail 0, .fail 0⟩,
    .loop .swap, .loop (.runTask ⟨.fail eAgain, .fail 0⟩), .loop .endRound,
    .loop (.poll epollOut), .loop (.handleEvents ⟨.accepted 1, .fail 0⟩)]

/-- The stream of such a run is intact. -/
theorem stream_intact_twoSenders :
    Along step (fun w a => ¬ w.WriteFaults a) (start ⟨true, true, false, 0⟩) twoSenders ∧
      Throughout step StreamIntact (start ⟨true, true, false, 0⟩) twoSenders :=
  ⟨by decide +kernel, stream_intact _ _ (by decide +kernel)⟩

end World

end CppWeb.Tcp
