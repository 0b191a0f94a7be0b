/-
  Tcp/FinOrder.lean --- data before the FIN.

  `send` and `shutdown` both end in `runInLoop`, which runs a closure at once on
  the loop thread and queues it on any other.  On other threads the queue keeps
  their order.  On the loop thread `shutdown()` overtakes everything that is
  queued; and a `send()` that has seen `kConnected` may hand over its closure
  after a `shutdown()` has handed over its own.  If neither happens, and the
  connection is not opened again after a close (`Tcp/Closing.lean`), then all
  messages handed over have been written when the FIN is issued, and nothing is
  written after it.
-/
import CppWeb.Tcp.Closing
import CppWeb.Tcp.Stream

set_option autoImplicit false

namespace CppWeb.Tcp

open CppWeb.Foundation CppWeb.Loop CppWeb.Poll

/-! ## Logs -/

/-- The system call is a `::write`. -/
def Syscall.isWrite : Syscall → Bool
  | .write .. => true
  | .readv _ | .shutdownWr | .getsockopt => false

theorem Syscall.delivered_of_not_isWrite {call : Syscall} (h : call.isWrite = false) :
    call.delivered = [] := by
  cases call with
  | write data result => cases h
  | _ => rfl

/-- No `::write` comes after a FIN in the log. -/
def QuietAfterFin (calls : List Syscall) : Prop :=
  ∀ before after, calls = before ++ .shutdownWr :: after → ∀ call ∈ after, call.isWrite = false

/-- A log without a FIN may be followed by one. -/
theorem quietAfterFin_first {calls : List Syscall} (h : .shutdownWr ∉ calls) :
    QuietAfterFin (calls ++ [.shutdownWr]) := by
  intro before after heq call hcall
  rcases List.append_eq_append_iff.mp heq with ⟨l, rfl, htail⟩ | ⟨l, rfl, htail⟩
  · cases l with
    | nil =>
      rw [List.nil_append, List.cons.injEq] at htail
      rw [← htail.2] at hcall
      exact absurd hcall List.not_mem_nil
    | cons x l =>
      rw [List.cons_append, List.cons.injEq] at htail
      have hlen := congrArg List.length htail.2
      simp at hlen
  · cases l with
    | nil =>
      rw [List.nil_append, List.cons.injEq] at htail
      rw [htail.2] at hcall
      exact absurd hcall List.not_mem_nil
    | cons x l =>
      rw [List.cons_append, List.cons.injEq] at htail
      refine absurd ?_ h
      rw [← htail.1]
      exact List.mem_append_right _ List.mem_cons_self

/-- System calls other than `::write` may follow. -/
theorem QuietAfterFin.append {calls more : List Syscall} (h : QuietAfterFin calls)
    (hmore : ∀ call ∈ more, call.isWrite = false) : QuietAfterFin (calls ++ more) := by
  intro before after heq call hcall
  rcases List.append_eq_append_iff.mp heq with ⟨l, rfl, htail⟩ | ⟨l, rfl, htail⟩
  · -- the FIN is among the new calls
    refine hmore call ?_
    rw [htail]
    exact List.mem_append_right _ (List.mem_cons_of_mem _ hcall)
  · cases l with
    | nil =>
      rw [List.nil_append] at htail
      refine hmore call ?_
      rw [← htail]
      exact List.mem_cons_of_mem _ hcall
    | cons x l =>
      rw [List.cons_append, List.cons.injEq] at htail
      obtain ⟨rfl, rfl⟩ := htail
      rcases List.mem_append.mp hcall with hcall | hcall
      · exact h before l rfl call hcall
      · exact hmore call hcall

namespace Connection

/-! ## System calls of a job -/

/-- The system calls that a job makes: a FIN only comes from the closure of
`shutdown` with no write pending, a `::write` only from `sendInLoop` and from
`handleWrite` with something to write. -/
theorem Executed.calls {c : Connection} {io : Io} {job : Job} {r : Connection × List Task}
    (h : Executed c io job r) :
    ∃ calls, r.1.syscalls = c.syscalls ++ calls ∧
      (.shutdownWr ∈ calls → calls = [.shutdownWr] ∧ job = .task .shutdownInLoop ∧
        c.state ≠ .kDisconnected ∧ c.channel.isWriting = false) ∧
      ((∃ message, job = .task (.sendInLoop message)) ∨
        (job = .callback .write ∧ 0 < c.outputBuffer.readableBytes) ∨
        ∀ call ∈ calls, call.isWrite = false) := by
  have hnone : ∀ P Q : Prop, ∃ calls, c.syscalls = c.syscalls ++ calls ∧
      (.shutdownWr ∈ calls → calls = [.shutdownWr] ∧ job = .task .shutdownInLoop ∧
        c.state ≠ .kDisconnected ∧ c.channel.isWriting = false) ∧
      (P ∨ Q ∨ ∀ call ∈ calls, call.isWrite = false) := by
    intro P Q
    exact ⟨[], (List.append_nil _).symm, by simp, Or.inr (Or.inr (by simp))⟩
  cases h with
  | read h =>
    cases h with
    | failed hstate =>
      refine ⟨[.readv io.read, .getsockopt], by simp [handleError, record], by simp, ?_⟩
      simp [Syscall.isWrite]
    | closed n inputBuffer hstate hread =>
      exact ⟨[.readv io.read], rfl, by simp, by simp [Syscall.isWrite]⟩
    | data n inputBuffer hstate hread =>
      exact ⟨[.readv io.read], rfl, by simp, by simp [Syscall.isWrite]⟩
  | write h =>
    cases h with
    | disconnected hstate => exact hnone _ _
    | failed errno hstate hreadable => exact ⟨[_], rfl, by simp, by simp [hreadable]⟩
    | partly outputBuffer hstate hreadable => exact ⟨[_], rfl, by simp, by simp [hreadable]⟩
    | drained tasks outputBuffer channel hstate hreadable =>
      exact ⟨[_], rfl, by simp, by simp [hreadable]⟩
  | send message h =>
    cases h with
    | direct tasks => exact ⟨[_], rfl, by simp, Or.inl ⟨message, rfl⟩⟩
    | directRest tasks => exact ⟨[_], rfl, by simp, Or.inl ⟨message, rfl⟩⟩
    | _ => exact hnone _ _
  | error => exact ⟨[.getsockopt], rfl, by simp, by simp [Syscall.isWrite]⟩
  | shutdown =>
    rw [shutdownInLoop]
    split
    · rename_i hopen
      exact ⟨[.shutdownWr], rfl, fun _ => ⟨rfl, rfl, hopen⟩, by simp [Syscall.isWrite]⟩
    · exact hnone _ _
  | _ => exact hnone _ _

/-- While the connection is open, a backlog comes with write interest. -/
def Backlogged (c : Connection) : Prop :=
  c.state ≠ .kDisconnected → 0 < c.outputBuffer.readableBytes → c.channel.isWriting = true

theorem Executed.backlogged {c : Connection} {io : Io} {job : Job}
    {r : Connection × List Task} (h : Executed c io job r) (hc : c.Backlogged) :
    r.1.Backlogged := by
  cases h with
  | close hstate => exact fun hopen => absurd rfl hopen
  | read h =>
    cases h with
    | failed hstate => exact hc
    | closed n inputBuffer hstate hread => exact fun hopen => absurd rfl hopen
    | data n inputBuffer hstate hread => exact hc
  | write h =>
    cases h with
    | disconnected hstate => exact hc
    | failed errno hstate hreadable hwriting => exact hc
    | partly outputBuffer hstate hreadable hwriting => exact fun _ _ => hwriting
    | drained tasks outputBuffer channel hstate hreadable hwriting hretrieve hempty hchannel
        hstill => exact fun _ _ => hstill
  | send message h =>
    cases h with
    | directRest tasks outputBuffer channel hstate hidle hempty hfault hrest happend hchannel =>
      exact fun _ _ => Channel.isWriting_enableWrite hchannel
    | buffered tasks outputBuffer channel hstate hwriting hlen happend hchannel =>
      exact fun _ _ => Channel.isWriting_enableWrite hchannel
    | _ => exact hc
  | shutdown =>
    rw [shutdownInLoop]
    split
    · exact hc
    · exact hc
  | forceClose hstate => exact fun hopen => absurd rfl hopen
  | stopRead channel hreading hchannel =>
    exact fun _ _ => Channel.isWriting_disableRead hchannel
  | startRead channel hreading hchannel =>
    intro hopen hpos
    dsimp only
    rw [Channel.isWriting_enableRead hchannel]
    exact hc hopen hpos
  | _ => exact hc

/-- A job that is not a `sendInLoop` does not fill an empty buffer. -/
theorem Executed.readableBytes_zero {c : Connection} {io : Io} {job : Job}
    {r : Connection × List Task} (h : Executed c io job r)
    (hsend : ∀ message, job ≠ .task (.sendInLoop message))
    (hempty : c.outputBuffer.readableBytes = 0) : r.1.outputBuffer.readableBytes = 0 := by
  cases h with
  | read h => cases h <;> exact hempty
  | write h =>
    cases h with
    | disconnected hstate => exact hempty
    | failed errno hstate hreadable => omega
    | partly outputBuffer hstate hreadable => omega
    | drained tasks outputBuffer channel hstate hreadable hwriting hretrieve hzero => exact hzero
  | send message h => exact absurd rfl (hsend message)
  | shutdown =>
    rw [shutdownInLoop]
    split <;> exact hempty
  | _ => exact hempty

end Connection

namespace World

/-! ## Steps that let a FIN overtake data -/

/-- The closure that the step hands to the loop. -/
def handsOver (w : World) : Action → Option Task
  | .resume t _ =>
      match w.calls t with
      | .handing task | .queueing task => some task
      | .idle | .shutdownChecked | .forceCloseChecked => none
  | .loop _ | .call .. | .user _ => none

/-- A `send` hands its message over after `shutdown()` has handed over
`shutdownInLoop`. -/
def SendsLate (w : World) (a : Action) : Prop :=
  w.shutdownHanded = true ∧ ((w.handsOver a).elim [] Task.messages) ≠ []

instance (w : World) (a : Action) : Decidable (w.SendsLate a) :=
  inferInstanceAs (Decidable (_ ∧ _))

/-- `shutdown()` hands over on the loop thread, where its closure runs at once,
with no write pending and messages queued. -/
def Overtakes (w : World) (a : Action) : Prop :=
  w.handsOver a = some .shutdownInLoop ∧ w.calls .loop = .handing .shutdownInLoop ∧
    w.Runs (.task .shutdownInLoop) a ∧ w.conn.channel.isWriting = false ∧ w.queued ≠ []

instance (w : World) (a : Action) : Decidable (w.Overtakes a) :=
  inferInstanceAs (Decidable (_ ∧ _))

/-- The step breaks the order of data and FIN, or opens a closed connection
again. -/
def BreaksFinOrder (w : World) (a : Action) : Prop :=
  w.SendsLate a ∨ w.Overtakes a ∨ w.Revives a

instance (w : World) (a : Action) : Decidable (w.BreaksFinOrder a) :=
  inferInstanceAs (Decidable (_ ∨ _))

/-- When a FIN has been issued, at position `i` of the log: all messages handed
over have been run, all their bytes were accepted before the FIN, and no
`::write` comes after it. -/
def FinOrdered (w : World) : Prop :=
  ∀ i < w.conn.syscalls.length, w.conn.syscalls[i]? = some .shutdownWr →
    (∀ message ∈ w.handed, message ∈ w.ran) ∧
    (w.conn.syscalls.take i).flatMap Syscall.delivered = bytesOf w.ran ∧
    ∀ call ∈ w.conn.syscalls.drop (i + 1), call.isWrite = false

instance (w : World) : Decidable w.FinOrdered :=
  inferInstanceAs (Decidable (∀ i < _, _))

/-! ## The invariant -/

/-- What holds once a FIN has been issued. -/
structure Finished (w : World) : Prop where
  handed : w.shutdownHanded = true
  queued : w.queued = []
  ran : ∀ message ∈ w.handed, message ∈ w.ran
  drained : w.conn.outputBuffer.readableBytes = 0
  quiet : QuietAfterFin w.conn.syscalls

/-- No message is queued behind a `shutdownInLoop`. -/
def NoneBehind (tasks : List Task) : Prop :=
  ∀ before after, tasks = before ++ .shutdownInLoop :: after → ∀ t ∈ after, t.messages = []

/-- The invariant of the runs that keep the order: while the connection is open
every message handed over was run or is queued, and none is queued behind the
closure of `shutdown`. -/
structure FinOrderInv (w : World) : Prop where
  stream : w.StreamInv
  backlogged : w.conn.Backlogged
  accounted : w.conn.state ≠ .kDisconnected →
    ∀ message ∈ w.handed, message ∈ w.ran ∨ message ∈ w.queued
  behind : NoneBehind w.queue.toList
  announced : .shutdownInLoop ∈ w.queue.toList → w.shutdownHanded = true
  finished : w.conn.FinIssued → w.Finished

theorem finOrderInv_start (settings : Settings) : (start settings).FinOrderInv := by
  refine ⟨streamInv_start settings, fun _ hpos => ?_, fun _ m hm => ?_, ?_, fun h => ?_,
    fun h => ?_⟩
  · have hempty : (start settings).conn.outputBuffer.readableBytes = 0 :=
      (Buffer.content_eq_nil_iff Connection.wf_freshBuffer).mp Connection.content_freshBuffer
    omega
  · exact absurd hm List.not_mem_nil
  · intro before after h
    have hlen := congrArg List.length h
    simp [start, BatchQueue.toList, BatchQueue.empty] at hlen
  · exact absurd h List.not_mem_nil
  · exact absurd h List.not_mem_nil

theorem NoneBehind.append {tasks more : List Task} (h : NoneBehind tasks)
    (hmore : ∀ t ∈ more, t = .shutdownInLoop ∨ t.messages = [])
    (hone : .shutdownInLoop ∈ more → more = [.shutdownInLoop]) : NoneBehind (tasks ++ more) := by
  intro before after heq t ht
  rcases List.append_eq_append_iff.mp heq with ⟨l, rfl, htail⟩ | ⟨l, rfl, htail⟩
  · -- the closure is among the new tasks, and so the only one
    have hmem : Task.shutdownInLoop ∈ more := by
      rw [htail]
      exact List.mem_append_right _ List.mem_cons_self
    rw [hone hmem] at htail
    have hlen := congrArg List.length htail
    simp only [List.length_append, List.length_cons, List.length_nil] at hlen
    have hafter : after = [] := List.eq_nil_of_length_eq_zero (by omega)
    rw [hafter] at ht
    exact absurd ht List.not_mem_nil
  · cases l with
    | nil =>
      rw [List.nil_append] at htail
      have hmem : Task.shutdownInLoop ∈ more := by
        rw [← htail]
        exact List.mem_cons_self
      rw [hone hmem, List.cons.injEq] at htail
      rw [htail.2] at ht
      exact absurd ht List.not_mem_nil
    | cons x l =>
      rw [List.cons_append, List.cons.injEq] at htail
      obtain ⟨rfl, rfl⟩ := htail
      rcases List.mem_append.mp ht with ht | ht
      · exact h before l rfl t ht
      · rcases hmore t ht with rfl | hnone
        · rfl
        · exact hnone

/-- Anything may be queued when no `shutdownInLoop` is. -/
theorem noneBehind_last {tasks : List Task} (h : .shutdownInLoop ∉ tasks) (task : Task) :
    NoneBehind (tasks ++ [task]) := by
  intro before after heq t ht
  have hafter : after = [] := by
    rcases List.append_eq_append_iff.mp heq with ⟨l, rfl, htail⟩ | ⟨l, rfl, htail⟩
    · have hlen := congrArg List.length htail
      simp only [List.length_append, List.length_cons, List.length_nil] at hlen
      exact List.eq_nil_of_length_eq_zero (by omega)
    · cases l with
      | nil =>
        rw [List.nil_append, List.cons.injEq] at htail
        exact htail.2
      | cons x l =>
        rw [List.cons_append, List.cons.injEq] at htail
        refine absurd ?_ h
        rw [← htail.1]
        exact List.mem_append_right _ List.mem_cons_self
  rw [hafter] at ht
  exact absurd ht List.not_mem_nil

theorem NoneBehind.tail {task : Task} {rest : List Task} (h : NoneBehind (task :: rest)) :
    NoneBehind rest := by
  intro before after heq
  exact h (task :: before) after (by rw [heq, List.cons_append])

/-- Notifications may be queued at any time. -/
theorem NoneBehind.notifications {tasks more : List Task} (h : NoneBehind tasks)
    (hmore : ∀ t ∈ more, t.IsNotification) : NoneBehind (tasks ++ more) := by
  refine h.append (fun t ht => Or.inr (messages_of_isNotification (hmore t ht))) fun hmem => ?_
  exact absurd (hmore _ hmem) id

/-! ## Jobs -/

/-- A job other than `sendInLoop` that finds the FIN issued leaves the log quiet
and the buffer empty. -/
theorem finished_job {c : Connection} {io : Io} {job : Connection.Job}
    {r : Connection × List Task} (hrun : c.execute io job = .ok r)
    (hsend : ∀ message, job ≠ .task (.sendInLoop message))
    (hdrained : c.outputBuffer.readableBytes = 0) (hquiet : QuietAfterFin c.syscalls) :
    r.1.outputBuffer.readableBytes = 0 ∧ QuietAfterFin r.1.syscalls := by
  have hexec := Connection.execute_cases hrun
  refine ⟨hexec.readableBytes_zero hsend hdrained, ?_⟩
  obtain ⟨calls, hcalls, _, hwrite⟩ := hexec.calls
  rw [hcalls]
  rcases hwrite with ⟨message, rfl⟩ | ⟨_, hpos⟩ | hnone
  · exact absurd rfl (hsend message)
  · omega
  · exact hquiet.append hnone

/-- A job that issues the first FIN is the closure of `shutdown`, on an open
connection with nothing pending. -/
theorem first_fin {c : Connection} {io : Io} {job : Connection.Job}
    {r : Connection × List Task} (hrun : c.execute io job = .ok r) (hnot : ¬ c.FinIssued)
    (hfin : r.1.FinIssued) :
    job = .task .shutdownInLoop ∧ c.state ≠ .kDisconnected ∧ c.channel.isWriting = false ∧
      QuietAfterFin r.1.syscalls := by
  obtain ⟨calls, hcalls, hshutdown, _⟩ := (Connection.execute_cases hrun).calls
  rw [Connection.FinIssued, hcalls] at hfin
  rcases List.mem_append.mp hfin with hfin | hfin
  · exact absurd hfin hnot
  · obtain ⟨rfl, hjob, hopen, hidle⟩ := hshutdown hfin
    refine ⟨hjob, hopen, hidle, ?_⟩
    rw [hcalls]
    exact quietAfterFin_first hnot

/-- A step that does not open a closed connection. -/
theorem open_of_open {w v : World} {a : Action} (hgood : ¬ w.Revives a)
    (h : w.step a = .next v) (hopen : v.conn.state ≠ .kDisconnected) :
    w.conn.state ≠ .kDisconnected := by
  intro hclosed
  exact hopen (Outcome.leads_iff.mp ((staysClosed_iff w a).mpr hgood) v h hclosed)

theorem FinOrderInv.backlogged_step {w v : World} {a : Action} (hw : w.FinOrderInv)
    (hgood : ¬ w.Revives a) (h : w.step a = .next v) : v.conn.Backlogged := by
  have hopen := open_of_open hgood h
  cases connStep_of_step h with
  | same inputBuffer settings hinput hconn hran =>
    rw [hconn]
    exact hw.backlogged
  | exchange t io ha hcall hconn hran =>
    rw [hconn] at hopen ⊢
    exact fun hstate => hw.backlogged (hopen hstate)
  | job job io r hjob hrun hconn hran =>
    rw [hconn]
    exact (Connection.execute_cases hrun).backlogged hw.backlogged

/-- After a job: a FIN issued before leaves everything finished when the job is
no `sendInLoop`, and the first FIN does when nothing is queued or left out. -/
theorem FinOrderInv.finish {w v : World} (hw : w.FinOrderInv) {io : Io} {job : Connection.Job}
    {r : Connection × List Task} (hrun : w.conn.execute io job = .ok r) (hconn : v.conn = r.1)
    (hold : w.Finished → (∀ message, job ≠ .task (.sendInLoop message)) ∧
      v.shutdownHanded = true ∧ v.queued = [] ∧ ∀ message ∈ v.handed, message ∈ v.ran)
    (hnew : job = .task .shutdownInLoop → w.conn.state ≠ .kDisconnected →
      w.conn.channel.isWriting = false →
      v.shutdownHanded = true ∧ v.queued = [] ∧ ∀ message ∈ v.handed, message ∈ v.ran)
    (hfin : v.conn.FinIssued) : v.Finished := by
  by_cases hbefore : w.conn.FinIssued
  · have hwfin := hw.finished hbefore
    obtain ⟨hsend, hhanded, hqueued, hran⟩ := hold hwfin
    obtain ⟨hdrained, hquiet⟩ := finished_job hrun hsend hwfin.drained hwfin.quiet
    exact ⟨hhanded, hqueued, hran, by rw [hconn, hdrained], by rwa [hconn]⟩
  · rw [hconn] at hfin
    obtain ⟨hjob, hopen, hidle, hquiet⟩ := first_fin hrun hbefore hfin
    obtain ⟨hhanded, hqueued, hran⟩ := hnew hjob hopen hidle
    have hdrained : w.conn.outputBuffer.readableBytes = 0 := by
      by_contra hne
      have hwriting := hw.backlogged hopen (Nat.pos_of_ne_zero hne)
      rw [hidle] at hwriting
      cases hwriting
    have hdrained' := (Connection.execute_cases hrun).readableBytes_zero
      (fun message => by rw [hjob]; simp) hdrained
    exact ⟨hhanded, hqueued, hran, by rw [hconn, hdrained'], by rwa [hconn]⟩

/-! ## Steps -/

/-- A step that hands a closure over hands over no message after the closure of
`shutdown`. -/
theorem messages_of_not_sendsLate {w : World} {a : Action} {task : Task}
    (hgood : ¬ w.SendsLate a) (hover : w.handsOver a = some task)
    (hhanded : w.shutdownHanded = true) : task.messages = [] := by
  by_contra hne
  refine hgood ⟨hhanded, ?_⟩
  rw [hover]
  exact hne

theorem messages_shutdownInLoop : Task.messages .shutdownInLoop = [] := rfl

/-- Queueing a closure keeps the invariant. -/
theorem FinOrderInv.handQueue {w v : World} {a : Action} (hw : w.FinOrderInv)
    (hgood : ¬ w.SendsLate a) {t : Thread} {task : Task}
    (hover : w.handsOver a = some task)
    (hv : v = ((w.goto t .idle).handOver task).queueInLoop task)
    (hstream : v.StreamInv) : v.FinOrderInv := by
  have hqueued : v.queued = w.queued ++ task.messages := by
    rw [hv]
    exact queued_queueInLoop ((w.goto t .idle).handOver task) task
  have hlist : v.queue.toList = w.queue.toList ++ [task] := by
    rw [hv]
    exact BatchQueue.toList_push task w.queue
  have hhanded : v.handed = w.handed ++ task.messages := by rw [hv]; rfl
  have hshutdown : v.shutdownHanded = (w.shutdownHanded || task == .shutdownInLoop) := by
    rw [hv]; rfl
  have hconn : v.conn = w.conn := by rw [hv]; rfl
  have hran : v.ran = w.ran := by rw [hv]; rfl
  refine ⟨hstream, by rw [hconn]; exact hw.backlogged, ?_, ?_, ?_, ?_⟩
  · rw [hconn, hhanded, hran, hqueued]
    intro hopen message hmessage
    rw [List.mem_append]
    rcases List.mem_append.mp hmessage with hmessage | hmessage
    · rcases hw.accounted hopen message hmessage with hran | hqueue
      · exact Or.inl hran
      · exact Or.inr (Or.inl hqueue)
    · exact Or.inr (Or.inr hmessage)
  · rw [hlist]
    by_cases hmem : Task.shutdownInLoop ∈ w.queue.toList
    · have hnone := messages_of_not_sendsLate hgood hover (hw.announced hmem)
      refine hw.behind.append (fun t' ht' => Or.inr ?_) fun hmem' => ?_
      · rwa [List.mem_singleton.mp ht']
      · rw [List.mem_singleton.mp hmem']
    · exact noneBehind_last hmem task
  · rw [hlist, hshutdown, List.mem_append, List.mem_singleton]
    rintro (hmem | heq)
    · rw [hw.announced hmem, Bool.true_or]
    · rw [← heq]
      exact Bool.or_true _
  · rw [hconn]
    intro hfin
    have hwfin := hw.finished hfin
    have hnone := messages_of_not_sendsLate hgood hover hwfin.handed
    refine ⟨by rw [hshutdown, hwfin.handed, Bool.true_or], ?_, ?_,
      by rw [hconn]; exact hwfin.drained, by rw [hconn]; exact hwfin.quiet⟩
    · rw [hqueued, hwfin.queued, hnone, List.append_nil]
    · rw [hhanded, hran, hnone, List.append_nil]
      exact hwfin.ran

theorem accepted_of_open {state : ConnectionState} (h : state ≠ .kDisconnected) (task : Task) :
    (Connection.Job.task task).accepted state = task.messages := if_neg h

/-- Running a closure at once on the loop thread keeps the invariant. -/
theorem FinOrderInv.runHere {w v : World} {io : Io} (hw : w.FinOrderInv)
    (hgood : ¬ w.BreaksFinOrder (.resume .loop io)) {task : Task} {r : Connection × List Task}
    (hcall : w.calls .loop = .handing task) (hrun : w.conn.execute io (.task task) = .ok r)
    (hv : v = ((w.goto .loop .idle).handOver task).after (.task task) r)
    (hopen : v.conn.state ≠ .kDisconnected → w.conn.state ≠ .kDisconnected)
    (hstream : v.StreamInv) (hbacklogged : v.conn.Backlogged) : v.FinOrderInv := by
  have hlate : ¬ w.SendsLate (.resume .loop io) := fun h => hgood (Or.inl h)
  have hover : w.handsOver (.resume .loop io) = some task := by rw [handsOver, hcall]
  have hqueued : v.queued = w.queued := by
    rw [hv]
    exact queued_after (w := (w.goto .loop .idle).handOver task) hrun
  have hlist : v.queue.toList = w.queue.toList ++ r.2 := by
    rw [hv]
    exact BatchQueue.toList_pushAll r.2 w.queue
  have hnotes := (Connection.execute_cases hrun).isNotification
  have hhanded : v.handed = w.handed ++ task.messages := by rw [hv]; rfl
  have hshutdown : v.shutdownHanded = (w.shutdownHanded || task == .shutdownInLoop) := by
    rw [hv]; rfl
  have hconn : v.conn = r.1 := by rw [hv]; rfl
  have hran : v.ran = w.ran ++ (Connection.Job.task task).accepted w.conn.state := by
    rw [hv]; rfl
  refine ⟨hstream, hbacklogged, ?_, ?_, ?_, ?_⟩
  · intro hopenv message hmessage
    have hopenw := hopen hopenv
    rw [accepted_of_open hopenw] at hran
    rw [hhanded, List.mem_append] at hmessage
    rw [hran, hqueued, List.mem_append]
    rcases hmessage with hmessage | hmessage
    · rcases hw.accounted hopenw message hmessage with hold | hqueue
      · exact Or.inl (Or.inl hold)
      · exact Or.inr hqueue
    · exact Or.inl (Or.inr hmessage)
  · rw [hlist]
    exact hw.behind.notifications hnotes
  · rw [hlist, hshutdown, List.mem_append]
    rintro (hmem | hmem)
    · rw [hw.announced hmem, Bool.true_or]
    · exact absurd (hnotes _ hmem) id
  · refine hw.finish hrun hconn (fun hwfin => ?_) fun hjob hopenw hidle => ?_
    · have hnone := messages_of_not_sendsLate hlate hover hwfin.handed
      refine ⟨fun message heq => ?_, by rw [hshutdown, hwfin.handed, Bool.true_or],
        by rw [hqueued, hwfin.queued], ?_⟩
      · cases heq
        cases hnone
      · rw [hhanded, hran, hnone, List.append_nil]
        exact fun message hmessage => List.mem_append_left _ (hwfin.ran message hmessage)
    · -- nothing is queued when the closure of `shutdown` runs at once
      cases hjob
      have hempty : w.queued = [] := by
        by_contra hne
        refine hgood (Or.inr (Or.inl ⟨hover, hcall, ?_, hidle, hne⟩))
        exact runs_iff.mpr ⟨io, by rw [jobOf, hcall]⟩
      refine ⟨by rw [hshutdown]; exact Bool.or_true _, by rw [hqueued, hempty], ?_⟩
      rw [hhanded, hran, messages_shutdownInLoop, List.append_nil]
      intro message hmessage
      rcases hw.accounted hopenw message hmessage with hold | hqueue
      · exact List.mem_append_left _ hold
      · rw [hempty] at hqueue
        exact absurd hqueue List.not_mem_nil

/-- Running the first task of the queue keeps the invariant. -/
theorem FinOrderInv.runQueued {w v : World} {io : Io} (hw : w.FinOrderInv) {task : Task}
    {rest : List Task} {r : Connection × List Task} (hqueue : w.queue.toList = task :: rest)
    (hrest : w.queue.advance.toList = rest) (hrun : w.conn.execute io (.task task) = .ok r)
    (hv : v = { w with queue := w.queue.advance }.after (.task task) r)
    (hopen : v.conn.state ≠ .kDisconnected → w.conn.state ≠ .kDisconnected)
    (hstream : v.StreamInv) (hbacklogged : v.conn.Backlogged) : v.FinOrderInv := by
  have hnotes := (Connection.execute_cases hrun).isNotification
  have hlist : v.queue.toList = rest ++ r.2 := by
    rw [hv, ← hrest]
    exact BatchQueue.toList_pushAll r.2 w.queue.advance
  have hqueued : v.queued = rest.flatMap Task.messages := by
    rw [queued, hlist, List.flatMap_append, flatMap_messages_of_notifications hnotes,
      List.append_nil]
  have hold : w.queued = task.messages ++ rest.flatMap Task.messages := by
    rw [queued, hqueue, List.flatMap_cons]
  have hhanded : v.handed = w.handed := by rw [hv]; rfl
  have hshutdown : v.shutdownHanded = w.shutdownHanded := by rw [hv]; rfl
  have hconn : v.conn = r.1 := by rw [hv]; rfl
  have hran : v.ran = w.ran ++ (Connection.Job.task task).accepted w.conn.state := by
    rw [hv]; rfl
  refine ⟨hstream, hbacklogged, ?_, ?_, ?_, ?_⟩
  · intro hopenv message hmessage
    have hopenw := hopen hopenv
    rw [accepted_of_open hopenw] at hran
    rw [hhanded] at hmessage
    rw [hran, hqueued, List.mem_append]
    rcases hw.accounted hopenw message hmessage with hbefore | hmem
    · exact Or.inl (Or.inl hbefore)
    · rw [hold, List.mem_append] at hmem
      rcases hmem with hmem | hmem
      · exact Or.inl (Or.inr hmem)
      · exact Or.inr hmem
  · rw [hlist]
    have hbehind := hw.behind
    rw [hqueue] at hbehind
    exact hbehind.tail.notifications hnotes
  · rw [hlist, hshutdown, List.mem_append]
    rintro (hmem | hmem)
    · refine hw.announced ?_
      rw [hqueue]
      exact List.mem_cons_of_mem _ hmem
    · exact absurd (hnotes _ hmem) id
  · refine hw.finish hrun hconn (fun hwfin => ?_) fun hjob hopenw hidle => ?_
    · have hnone := hwfin.queued
      rw [hold, List.append_eq_nil_iff] at hnone
      refine ⟨fun message heq => ?_, by rw [hshutdown, hwfin.handed], by rw [hqueued, hnone.2], ?_⟩
      · cases heq
        cases hnone.1
      · rw [hhanded, hran]
        exact fun message hmessage => List.mem_append_left _ (hwfin.ran message hmessage)
    · -- no message is queued behind the closure of `shutdown`
      cases hjob
      have hempty : rest.flatMap Task.messages = [] := by
        rw [List.flatMap_eq_nil_iff]
        exact hw.behind [] rest (by rw [hqueue, List.nil_append])
      refine ⟨?_, by rw [hqueued, hempty], ?_⟩
      · rw [hshutdown]
        refine hw.announced ?_
        rw [hqueue]
        exact List.mem_cons_self
      · rw [hhanded, hran]
        intro message hmessage
        rcases hw.accounted hopenw message hmessage with hbefore | hmem
        · exact List.mem_append_left _ hbefore
        · rw [hold, hempty, messages_shutdownInLoop] at hmem
          exact absurd hmem List.not_mem_nil

/-- A callback of the channel keeps the invariant. -/
theorem FinOrderInv.callback {w v : World} {io : Io} (hw : w.FinOrderInv) {cb : Callback}
    {phase : Phase} {r : Connection × List Task}
    (hrun : w.conn.execute io (.callback cb) = .ok r)
    (hv : v = { w with phase := phase }.after (.callback cb) r)
    (hopen : v.conn.state ≠ .kDisconnected → w.conn.state ≠ .kDisconnected)
    (hstream : v.StreamInv) (hbacklogged : v.conn.Backlogged) : v.FinOrderInv := by
  have hnotes := (Connection.execute_cases hrun).isNotification
  have hlist : v.queue.toList = w.queue.toList ++ r.2 := by
    rw [hv]
    exact BatchQueue.toList_pushAll r.2 w.queue
  have hqueued : v.queued = w.queued := by
    rw [hv]
    exact queued_after (w := { w with phase := phase }) hrun
  have hhanded : v.handed = w.handed := by rw [hv]; rfl
  have hshutdown : v.shutdownHanded = w.shutdownHanded := by rw [hv]; rfl
  have hconn : v.conn = r.1 := by rw [hv]; rfl
  have hran : v.ran = w.ran := by
    rw [hv]
    exact List.append_nil _
  refine ⟨hstream, hbacklogged, ?_, ?_, ?_, ?_⟩
  · rw [hhanded, hran, hqueued]
    exact fun hopenv => hw.accounted (hopen hopenv)
  · rw [hlist]
    exact hw.behind.notifications hnotes
  · rw [hlist, hshutdown, List.mem_append]
    rintro (hmem | hmem)
    · exact hw.announced hmem
    · exact absurd (hnotes _ hmem) id
  · refine hw.finish hrun hconn (fun hwfin => ?_) fun hjob _ _ => by cases hjob
    have hquiet : ∀ message, Connection.Job.callback cb ≠ .task (.sendInLoop message) :=
      fun message heq => by cases heq
    refine ⟨hquiet, by rw [hshutdown, hwfin.handed], by rw [hqueued, hwfin.queued], ?_⟩
    rw [hhanded, hran]
    exact hwfin.ran

/-- **One step.** -/
theorem FinOrderInv.step {w v : World} {a : Action} (hw : w.FinOrderInv)
    (hfault : ¬ w.WriteFaults a) (hgood : ¬ w.BreaksFinOrder a) (h : w.step a = .next v) :
    v.FinOrderInv := by
  have hrevives : ¬ w.Revives a := fun h => hgood (Or.inr (Or.inr h))
  have hopen := open_of_open hrevives h
  have hstream := hw.stream.step hfault h
  have hbacklogged := hw.backlogged_step hrevives h
  cases ledgerStep_of_step h hw.stream.batch with
  | quiet hcalls houtput hchannel hqueue hran hhanded hshutdown hissued hflight hqueueing =>
    have hqueued : v.queued = w.queued := by rw [queued, queued, hqueue]
    refine ⟨hstream, hbacklogged, ?_, ?_, ?_, ?_⟩
    · rw [hhanded, hran, hqueued]
      exact fun hopenv => hw.accounted (hopen hopenv)
    · rw [hqueue]
      exact hw.behind
    · rw [hqueue, hshutdown]
      exact hw.announced
    · intro hfin
      rw [Connection.FinIssued, hcalls] at hfin
      have hwfin := hw.finished hfin
      exact ⟨by rw [hshutdown, hwfin.handed], by rw [hqueued, hwfin.queued],
        by rw [hhanded, hran]; exact hwfin.ran, by rw [houtput, hwfin.drained],
        by rw [hcalls]; exact hwfin.quiet⟩
  | issue t data hidle hstate hv =>
    subst hv
    refine ⟨hstream, hbacklogged, hw.accounted, hw.behind, hw.announced, fun hfin => ?_⟩
    have hwfin := hw.finished hfin
    exact ⟨hwfin.handed, hwfin.queued, hwfin.ran, hwfin.drained, hwfin.quiet⟩
  | handQueue t task io ha hcall hv =>
    subst ha
    refine hw.handQueue (fun hlate => hgood (Or.inl hlate)) ?_ hv hstream
    rw [handsOver]
    rcases hcall with ⟨_, hcall⟩ | hcall
    · rw [hcall]
    · rw [hcall]
  | runHere task io r ha hcall hrun hv =>
    subst ha
    exact hw.runHere hgood hcall hrun hv hopen hstream hbacklogged
  | runQueued task rest io r hjob hqueue hrest hrun hv =>
    exact hw.runQueued hqueue hrest hrun hv hopen hstream hbacklogged
  | callback cb io r hjob hrun hv =>
    obtain ⟨phase, hv⟩ := hv
    exact hw.callback hrun hv hopen hstream hbacklogged

/-! ## Runs -/

theorem FinOrderInv.finOrdered {w : World} (hw : w.FinOrderInv) : w.FinOrdered := by
  intro i hi hfin
  have hmem : w.conn.FinIssued := List.mem_of_getElem? hfin
  have hwfin := hw.finished hmem
  have hsplit : w.conn.syscalls =
      w.conn.syscalls.take i ++ .shutdownWr :: w.conn.syscalls.drop (i + 1) := by
    have hget : w.conn.syscalls[i] = .shutdownWr := by
      rw [List.getElem?_eq_getElem hi] at hfin
      exact Option.some.inj hfin
    rw [← hget, ← List.drop_eq_getElem_cons hi, List.take_append_drop]
  have hquiet := hwfin.quiet _ _ hsplit
  refine ⟨hwfin.ran, ?_, hquiet⟩
  have hafter : (w.conn.syscalls.drop (i + 1)).flatMap Syscall.delivered = [] := by
    rw [List.flatMap_eq_nil_iff]
    exact fun call hcall => Syscall.delivered_of_not_isWrite (hquiet call hcall)
  have hbytes := hw.stream.bytes
  rw [Connection.stream, Connection.content_of_empty hw.stream.wf hwfin.drained,
    List.append_nil, Connection.wire, hsplit, List.flatMap_append, List.flatMap_cons,
    hafter] at hbytes
  simpa [Syscall.delivered] using hbytes

/-- **The FIN comes after the data.**  In every run of one connection with any
threads and without a fatal write error in which no message is handed to the
loop after the closure of `shutdown()`, no `shutdown()` on the loop thread finds
messages queued and no write pending, and no exchange opens a closed connection
again: in every state after a FIN all messages handed over have been run and
their bytes were accepted before it, and no `::write` came after it. -/
theorem fin_after_data (settings : Settings) (actions : List Action)
    (h : Along step (fun w a => ¬ w.WriteFaults a ∧ ¬ w.BreaksFinOrder a)
      (start settings) actions) :
    Throughout step FinOrdered (start settings) actions := by
  have hinv := throughout_of_along (finOrderInv_start settings)
    (fun _ _ _ hw hgood hstep => hw.step hgood.1 hgood.2 hstep) h
  exact hinv.mono fun _ hw => hw.finOrdered

/-- A worker sends and shuts the connection down. -/
def workerShutdown : List Action :=
  [.call (.worker 0) (.send ⟨[65], SizeT.one_le_maxSize⟩),
    .resume (.worker 0) ⟨.fail 0, .fail 0⟩, .call (.worker 0) .shutdown,
    .resume (.worker 0) ⟨.fail 0, .fail 0⟩, .resume (.worker 0) ⟨.fail 0, .fail 0⟩,
    .loop .swap, .loop (.runTask ⟨.accepted 1, .fail 0⟩),
    .loop (.runTask ⟨.fail 0, .fail 0⟩)]

/-- Its message is written before the FIN. -/
theorem fin_after_data_workerShutdown :
    Along step (fun w a => ¬ w.WriteFaults a ∧ ¬ w.BreaksFinOrder a)
        (start ⟨false, true, false, 0⟩) workerShutdown ∧
      Throughout step FinOrdered (start ⟨false, true, false, 0⟩) workerShutdown :=
  ⟨by decide +kernel, fin_after_data _ _ (by decide +kernel)⟩

/-- A worker's `send` has returned when a callback on the loop thread shuts the
connection down. -/
def loopShutdown : List Action :=
  [.call (.worker 0) (.send ⟨[65], SizeT.one_le_maxSize⟩),
    .resume (.worker 0) ⟨.fail 0, .fail 0⟩, .call .loop .shutdown,
    .resume .loop ⟨.fail 0, .fail 0⟩, .resume .loop ⟨.fail 0, .fail 0⟩]

/-- The FIN is issued while the message is still queued. -/
theorem not_finOrdered_loopShutdown :
    (run step (start ⟨false, true, false, 0⟩) loopShutdown).map
        (fun w => (w.conn.syscalls, bytesOf w.queued)) = some ([.shutdownWr], [65]) ∧
      ¬ Throughout step FinOrdered (start ⟨false, true, false, 0⟩) loopShutdown := by
  decide +kernel

end World

end CppWeb.Tcp
