/-
  Tcp/FlowControl.lean --- when a connection tells its user about the backlog.

  Two callbacks are queued, the high-water callback by `sendInLoop` before it
  appends what it could not write, and the write-complete callback wherever the
  last byte was handed over, which is in `sendInLoop` or in `handleWrite`.

  One rule covers all jobs: what is queued follows from the backlog before the
  job, the bytes the job takes on, and the backlog after it.  Over a run the
  notifications are therefore the entries of two histories: of the length of the
  output buffer into the range from the mark on, and of the number of bytes that
  are accepted and not yet written into zero.
-/
import CppWeb.Foundation.History
import CppWeb.Tcp.Stream

set_option autoImplicit false

namespace CppWeb.Tcp

open CppWeb.Foundation CppWeb.Loop CppWeb.Poll

/-- Both callbacks are set, the high-water callback for this mark. -/
structure Settings.Notify (settings : Settings) (mark : Nat) : Prop where
  complete : settings.writeCompleteCallback = true
  high : settings.highWaterMarkCallback = true
  mark : settings.highWaterMark = mark

/-- The length a high-water callback is called with. -/
def Task.highWater : Task → Option Nat
  | .highWaterMarkCallback len => some len
  | _ => none

/-- The notifications for a backlog that was `before`, to which `accepted` bytes
came, and that is `after` in the end. -/
def due (mark before accepted after : Nat) : List Task :=
  (if before + accepted ≠ 0 ∧ after = 0 then [.writeCompleteCallback] else []) ++
    if before < mark ∧ mark ≤ after then [.highWaterMarkCallback after] else []

/-- A backlog that no bytes came to and that did not become empty. -/
theorem due_eq_nil {mark before after : Nat} (hle : after ≤ before)
    (hzero : after = 0 → before = 0) : due mark before 0 after = [] := by
  rw [due, if_neg, if_neg]
  · rfl
  · omega
  · rintro ⟨hne, hafter⟩
    exact hne (hzero hafter)

/-- A backlog that is there in the end is not complete. -/
theorem due_of_ne_zero {mark before accepted after : Nat} (h : after ≠ 0) :
    due mark before accepted after =
      if before < mark ∧ mark ≤ after then [.highWaterMarkCallback after] else [] := by
  rw [due, if_neg fun hboth => h hboth.2, List.nil_append]

namespace Connection

/-! ## What a job queues -/

/-- The first half of `sendInLoop` reports completion when it wrote
everything. -/
theorem writeAtOnce_tasks {c : Connection} (hset : c.settings.writeCompleteCallback = true)
    {io : WriteResult} {message : Bytes} (hlen : 0 < message.length)
    {r : Connection × Nat × Bool × List Task} (h : c.writeAtOnce io message = .ok r) :
    r.2.2.2 = if c.channel.isWriting = false ∧ io.taken message.length = message.length then
      [.writeCompleteCallback] else [] := by
  rw [writeAtOnce] at h
  split at h
  · rename_i hidle
    rw [Bool.not_eq_true'] at hidle
    rw [bind_eq_ok] at h
    obtain ⟨_, _, h⟩ := h
    dsimp only at h
    split at h
    · cases h
      rw [if_neg]
      rintro ⟨_, hall⟩
      exact absurd hall (Nat.ne_of_lt hlen)
    · rename_i n
      cases h
      have htaken := WriteResult.taken_le message.length (.accepted n)
      have hiff : message.length - (WriteResult.accepted n).taken message.length = 0 ∧
          c.settings.writeCompleteCallback = true ↔ c.channel.isWriting = false ∧
            (WriteResult.accepted n).taken message.length = message.length := by
        constructor
        · rintro ⟨hrest, _⟩
          exact ⟨hidle, by omega⟩
        · rintro ⟨_, hall⟩
          exact ⟨by omega, hset⟩
      exact if_congr hiff rfl rfl
  · rename_i hwriting
    cases h
    rw [if_neg]
    rintro ⟨hidle, _⟩
    rw [hidle] at hwriting
    exact hwriting rfl

/-- The second half reports the new length when it reaches the mark. -/
theorem bufferRest_tasks {c : Connection} (hc : c.outputBuffer.WF)
    (hset : c.settings.highWaterMarkCallback = true) {rest : Bytes}
    {r : Connection × List Task} (h : c.bufferRest rest = .ok r) :
    r.1.outputBuffer.readableBytes = c.outputBuffer.readableBytes + rest.length ∧
      r.2 = if c.outputBuffer.readableBytes < c.settings.highWaterMark ∧
          c.settings.highWaterMark ≤ r.1.outputBuffer.readableBytes then
        [.highWaterMarkCallback r.1.outputBuffer.readableBytes] else [] := by
  rw [bufferRest, bind_eq_ok] at h
  obtain ⟨outputBuffer, happend, h⟩ := h
  rw [bind_eq_ok] at h
  obtain ⟨channel, _, h⟩ := h
  cases h
  have hsum := readableBytes_of_append hc happend
  have hwf := (wf_of_append hc happend).1
  -- the sum is the length of a buffer, so it does not wrap
  have hfits : outputBuffer.readableBytes ≤ SizeT.maxSize := by
    rw [Buffer.readableBytes_eq hwf]
    exact Nat.le_trans (Nat.sub_le _ _) (Nat.le_trans hwf.writer_le hwf.fits)
  have hadd : SizeT.add c.outputBuffer.readableBytes rest.length =
      outputBuffer.readableBytes := by
    rw [hsum] at hfits ⊢
    exact SizeT.add_eq (Nat.lt_of_le_of_lt hfits SizeT.maxSize_lt_modulus)
  refine ⟨hsum, ?_⟩
  dsimp only
  rw [hadd]
  simp only [hset, true_and, ge_iff_le]

/-- `sendInLoop` on a connection that is not closed, with a message that is not
given up. -/
theorem sendInLoop_tasks {c : Connection} (hc : c.outputBuffer.WF) {mark : Nat}
    (hset : c.settings.Notify mark) {io : WriteResult} {message : Bytes}
    (hopen : c.state ≠ .kDisconnected) (hlen : 0 < message.length)
    (hkept : ¬ c.GivesUp io message) {r : Connection × List Task}
    (h : c.sendInLoop io message = .ok r) :
    r.2 = due mark c.outputBuffer.readableBytes message.length
      r.1.outputBuffer.readableBytes := by
  rw [sendInLoop, if_neg hopen, bind_eq_ok] at h
  obtain ⟨attempt, hattempt, h⟩ := h
  have htasks := writeAtOnce_tasks hset.complete hlen hattempt
  have htaken := WriteResult.taken_le message.length io
  rcases writeAtOnce_cases hattempt with ⟨hwriting, rfl⟩ | ⟨hidle, hempty, tasks, _, rfl⟩
  · -- a write is pending: all of the message goes into the buffer
    have hrest : (!false) = true ∧ message.length - 0 > 0 := ⟨rfl, hlen⟩
    dsimp only at h
    rw [if_pos hrest, bind_eq_ok] at h
    obtain ⟨r', hr', h⟩ := h
    cases h
    obtain ⟨hsum, hhigh⟩ := bufferRest_tasks hc hset.high hr'
    rw [Bytes.length_drop, Nat.sub_zero] at hsum
    rw [hset.mark] at hhigh
    have hsome : r'.1.outputBuffer.readableBytes ≠ 0 := by omega
    rw [due_of_ne_zero hsome, hhigh]
    exact List.nil_append _
  · have hfault : io.isFault = false := by
      by_contra hbad
      exact hkept ⟨hopen, hidle, by simpa using hbad, hlen⟩
    simp only [hidle, true_and] at htasks
    dsimp only at h htasks
    subst htasks
    by_cases hall : io.taken message.length = message.length
    · -- written at once
      have hrest : ¬ ((!io.isFault) = true ∧ message.length - io.taken message.length > 0) := by
        omega
      rw [if_neg hrest] at h
      cases h
      have hzero : (c.record (.write message.data io)).outputBuffer.readableBytes = 0 := hempty
      have hdone : c.outputBuffer.readableBytes + message.length ≠ 0 ∧ 0 = 0 := by omega
      have hlow : ¬ (c.outputBuffer.readableBytes < mark ∧ mark ≤ 0) := by omega
      rw [due, hzero, if_pos hdone, if_neg hlow, if_pos hall, List.append_nil]
    · -- the rest goes into the empty buffer
      have hrest : (!io.isFault) = true ∧ message.length - io.taken message.length > 0 := by
        rw [hfault]
        exact ⟨rfl, by omega⟩
      rw [if_pos hrest, bind_eq_ok] at h
      obtain ⟨r', hr', h⟩ := h
      cases h
      obtain ⟨hsum, hhigh⟩ := bufferRest_tasks (c := c.record (.write message.data io)) hc
        hset.high hr'
      rw [Bytes.length_drop] at hsum
      have hsame : (c.record (.write message.data io)).outputBuffer = c.outputBuffer := rfl
      have hmark : (c.record (.write message.data io)).settings.highWaterMark = mark := hset.mark
      rw [hsame] at hsum hhigh
      rw [hmark] at hhigh
      have hsome : r'.1.outputBuffer.readableBytes ≠ 0 := by omega
      rw [due_of_ne_zero hsome, if_neg hall, hhigh]
      exact List.nil_append _

/-- `handleWrite` reports completion when it took the last of the backlog. -/
theorem handleWrite_tasks {c : Connection} (hset : c.settings.writeCompleteCallback = true)
    {io : WriteResult} {r : Connection × List Task} (h : c.handleWrite io = .ok r) :
    r.2 = if c.outputBuffer.readableBytes ≠ 0 ∧ r.1.outputBuffer.readableBytes = 0 then
      [.writeCompleteCallback] else [] := by
  have hsame : ¬ (c.outputBuffer.readableBytes ≠ 0 ∧ c.outputBuffer.readableBytes = 0) :=
    fun hboth => hboth.1 hboth.2
  rw [handleWrite] at h
  split at h
  · cases h
    rw [if_neg hsame]
  · rw [bind_eq_ok] at h
    obtain ⟨_, hreadable, h⟩ := h
    rw [require_eq_ok] at hreadable
    rw [bind_eq_ok] at h
    obtain ⟨_, hwriting, h⟩ := h
    rw [require_eq_ok] at hwriting
    dsimp only at h
    split at h
    · cases h
      exact (if_neg hsame).symm
    · rw [bind_eq_ok] at h
      obtain ⟨outputBuffer, _, h⟩ := h
      split at h
      · rename_i hempty
        rw [bind_eq_ok] at h
        obtain ⟨channel, hchannel, h⟩ := h
        have hstill : channel.isWriting = true := by
          rw [Channel.isWriting_disableWrite hchannel, hwriting]
        rw [shutdownInLoop_of_isWriting hstill, ite_self] at h
        cases h
        exact (if_pos ⟨Nat.ne_of_gt hreadable, hempty⟩).symm
      · rename_i hrest
        cases h
        rw [if_neg fun hboth => hrest hboth.2]

/-! ## The backlog under a job -/

/-- Only `sendInLoop` makes the backlog longer. -/
theorem Executed.readableBytes_le {c : Connection} (hc : c.outputBuffer.WF) {io : Io} {job : Job}
    {r : Connection × List Task} (hjob : ∀ message, job ≠ .task (.sendInLoop message))
    (h : Executed c io job r) :
    r.1.outputBuffer.readableBytes ≤ c.outputBuffer.readableBytes := by
  have htaken := WriteResult.taken_le c.outputBuffer.readableBytes io.write
  cases h with
  | send message h => exact absurd rfl (hjob message)
  | write h =>
    cases h with
    | partly outputBuffer hstate hreadable hwriting hretrieve =>
      have hleft := readableBytes_of_retrieve hc htaken hretrieve
      exact hleft ▸ Nat.sub_le _ _
    | drained tasks outputBuffer channel hstate hreadable hwriting hretrieve =>
      have hleft := readableBytes_of_retrieve hc htaken hretrieve
      exact hleft ▸ Nat.sub_le _ _
    | _ => exact Nat.le_refl _
  | read h => cases h <;> exact Nat.le_refl _
  | shutdown =>
    rw [shutdownInLoop]
    split <;> exact Nat.le_refl _
  | _ => exact Nat.le_refl _

/-- A job leaves the settings alone. -/
theorem Executed.settings {c : Connection} {io : Io} {job : Job} {r : Connection × List Task}
    (h : Executed c io job r) : r.1.settings = c.settings := by
  cases h with
  | send message h => cases h <;> rfl
  | write h => cases h <;> rfl
  | read h => cases h <;> rfl
  | shutdown =>
    rw [shutdownInLoop]
    split <;> rfl
  | _ => rfl

/-- **What a job queues.**  The notifications that are due for what the job does
to the backlog, and nothing else. -/
theorem execute_tasks {c : Connection} (hc : c.outputBuffer.WF) {mark : Nat}
    (hset : c.settings.Notify mark) {io : Io} {job : Job}
    (hlen : ∀ message, job = .task (.sendInLoop message) → 0 < message.data.length)
    (hkept : ∀ message, job = .task (.sendInLoop message) → ¬ c.GivesUp io.write message.data)
    {r : Connection × List Task} (h : c.execute io job = .ok r) :
    r.2 = due mark c.outputBuffer.readableBytes (bytesOf (job.accepted c.state)).length
      r.1.outputBuffer.readableBytes := by
  have hnothing : ∀ {d : Connection}, r = (d, []) →
      d.outputBuffer.readableBytes = c.outputBuffer.readableBytes →
      (bytesOf (job.accepted c.state)).length = 0 →
      r.2 = due mark c.outputBuffer.readableBytes (bytesOf (job.accepted c.state)).length
        r.1.outputBuffer.readableBytes := by
    intro d hr hsame hnone
    rw [hr, hnone]
    exact (due_eq_nil (Nat.le_of_eq hsame) fun hzero => hsame.symm.trans hzero).symm
  have haccepted : ∀ task : Task, task.messages = [] →
      (bytesOf ((Job.task task).accepted c.state)).length = 0 := by
    intro task htask
    rw [Job.accepted, htask, ite_self]
    rfl
  cases execute_cases h with
  | send message _ =>
    by_cases hstate : c.state = .kDisconnected
    · have hr : r = (c, []) := by
        rw [execute, sendInLoop, if_pos hstate] at h
        exact (Except.ok.inj h).symm
      refine hnothing hr rfl ?_
      rw [Job.accepted, if_pos hstate]
      rfl
    · rw [sendInLoop_tasks hc hset hstate (hlen message rfl) (hkept message rfl) h, Job.accepted,
        if_neg hstate, Task.messages, bytesOf_singleton]
      rfl
  | write hwrite =>
    have hexec : Executed c io (.callback .write) r := .write hwrite
    have hle := hexec.readableBytes_le hc (by simp)
    have hlow : ¬ (c.outputBuffer.readableBytes < mark ∧
        mark ≤ r.1.outputBuffer.readableBytes) := by omega
    have hnone : (bytesOf ((Job.callback .write).accepted c.state)).length = 0 := rfl
    rw [handleWrite_tasks hset.complete h, due, hnone, if_neg hlow, List.append_nil,
      Nat.add_zero]
  | read hread =>
    cases hread with
    | failed hstate => exact hnothing rfl rfl rfl
    | closed n inputBuffer hstate => exact hnothing rfl rfl rfl
    | data n inputBuffer hstate => exact hnothing rfl rfl rfl
  | close hstate => exact hnothing rfl rfl rfl
  | error => exact hnothing rfl rfl rfl
  | shutdown =>
    refine hnothing rfl ?_ (haccepted _ rfl)
    rw [shutdownInLoop]
    split <;> rfl
  | forceClose hstate => exact hnothing rfl rfl (haccepted _ rfl)
  | forceCloseSkipped hstate => exact hnothing rfl rfl (haccepted _ rfl)
  | stopRead channel hreading hchannel => exact hnothing rfl rfl (haccepted _ rfl)
  | stopReadSkipped hreading => exact hnothing rfl rfl (haccepted _ rfl)
  | startRead channel hreading hchannel => exact hnothing rfl rfl (haccepted _ rfl)
  | startReadSkipped hreading => exact hnothing rfl rfl (haccepted _ rfl)
  | writeCompleteCallback => exact hnothing rfl rfl (haccepted _ rfl)
  | highWaterMarkCallback len => exact hnothing rfl rfl (haccepted _ rfl)

end Connection

instance (settings : Settings) (mark : Nat) : Decidable (settings.Notify mark) :=
  decidable_of_iff (settings.writeCompleteCallback = true ∧
      settings.highWaterMarkCallback = true ∧ settings.highWaterMark = mark)
    ⟨fun h => ⟨h.1, h.2.1, h.2.2⟩, fun h => ⟨h.complete, h.high, h.mark⟩⟩

namespace World

/-! ## The backlog under a step -/

/-- The length of the output buffer. -/
def backlog (w : World) : Nat := w.conn.outputBuffer.readableBytes

/-- The number of bytes that were accepted and not yet written. -/
def unwritten (w : World) : Nat := (bytesOf w.ran).length - w.conn.wire.length

/-- The bytes that the step accepts. -/
def accepts (w : World) (a : Action) : List UInt8 :=
  match w.jobOf a with
  | some (job, _) => bytesOf (job.accepted w.conn.state)
  | none => []

/-- The tasks that the job of the step queues. -/
def queues (w : World) (a : Action) : List Task :=
  match w.jobOf a with
  | some (job, io) =>
      match w.conn.execute io job with
      | .ok r => r.2
      | .error _ => []
  | none => []

/-- The step runs a `sendInLoop`. -/
def Sends (w : World) (a : Action) : Prop :=
  match w.jobOf a with
  | some (.task (.sendInLoop _), _) => True
  | _ => False

instance (w : World) (a : Action) : Decidable (w.Sends a) :=
  decidableOfSend (w.jobOf a) (fun _ _ => True) False

/-- Both callbacks and the mark stay set. -/
def KeepsSet (mark : Nat) : Action → Prop
  | .user (.set settings) => settings.Notify mark
  | _ => True

instance (mark : Nat) (a : Action) : Decidable (KeepsSet mark a) := by
  unfold KeepsSet
  split <;> infer_instance

/-- The step runs no `sendInLoop` with an empty message. -/
def SendsSome (w : World) (a : Action) : Prop :=
  match w.jobOf a with
  | some (.task (.sendInLoop message), _) => 0 < message.data.length
  | _ => True

instance (w : World) (a : Action) : Decidable (w.SendsSome a) :=
  decidableOfSend (w.jobOf a) (fun message _ => 0 < message.data.length) True

/-- Messages are not empty, `sendInLoop` gives none up, and both callbacks and
the mark stay set. -/
def Regular (mark : Nat) (w : World) (a : Action) : Prop :=
  ¬ w.GivesUp a ∧ w.SendsSome a ∧ KeepsSet mark a

instance (mark : Nat) (w : World) (a : Action) : Decidable (w.Regular mark a) :=
  inferInstanceAs (Decidable (_ ∧ _ ∧ _))

theorem unwritten_eq_backlog {w : World} (hwf : w.conn.outputBuffer.WF)
    (hbytes : w.conn.stream = bytesOf w.ran) : w.unwritten = w.backlog := by
  rw [unwritten, ← hbytes, Connection.stream, List.length_append, Buffer.length_content hwf,
    Nat.add_sub_cancel_left]
  rfl

theorem notify_of_step {mark : Nat} {w v : World} {a : Action}
    (hset : w.conn.settings.Notify mark) (hregular : w.Regular mark a)
    (h : w.step a = .next v) : v.conn.settings.Notify mark := by
  obtain ⟨_, _, hfixed⟩ := hregular
  cases step_cases h with
  | set settings => exact hfixed
  | handleEvents cb rest io r hidle hphase hrun =>
    exact (Connection.execute_cases hrun).settings.symm ▸ hset
  | runTask task rest io r hidle hphase hbatch hrun =>
    exact (Connection.execute_cases hrun).settings.symm ▸ hset
  | runHere task io r hcall hrun => exact (Connection.execute_cases hrun).settings.symm ▸ hset
  | _ => exact hset

/-- **One step.**  It queues the notifications that are due, and a step that runs
no `sendInLoop` does not lengthen the backlog. -/
theorem queues_of_step {mark : Nat} {w v : World} {a : Action} (hwf : w.conn.outputBuffer.WF)
    (hset : w.conn.settings.Notify mark) (hregular : w.Regular mark a)
    (h : w.step a = .next v) :
    w.queues a = due mark w.backlog (w.accepts a).length v.backlog ∧
      (¬ w.Sends a → v.backlog ≤ w.backlog) := by
  obtain ⟨hkept, hlen, _⟩ := hregular
  cases hjob : w.jobOf a with
  | some p =>
    obtain ⟨job, io⟩ := p
    obtain ⟨base, hconn, _, hstep⟩ := step_of_jobOf hjob
    obtain ⟨r, hrun, rfl⟩ := runJob_eq_next.mp (hstep.symm.trans h)
    rw [hconn] at hrun
    rw [GivesUp, hjob] at hkept
    rw [SendsSome, hjob] at hlen
    refine ⟨?_, fun hnot => ?_⟩
    · simp only [queues, accepts, hjob, hrun]
      refine Connection.execute_tasks hwf hset ?_ ?_ hrun
      · rintro message rfl
        exact hlen
      · rintro message rfl
        exact hkept
    · refine (Connection.execute_cases hrun).readableBytes_le hwf ?_
      rintro message rfl
      refine hnot ?_
      rw [Sends, hjob]
      trivial
  | none =>
    have hsame : v.backlog = w.backlog := by
      cases connStep_of_step h with
      | same inputBuffer settings hinput hconn =>
        rw [backlog, hconn]
        rfl
      | exchange t io ha hcall hconn =>
        rw [backlog, hconn]
        rfl
      | job job io r hjob' =>
        rw [hjob] at hjob'
        cases hjob'
    refine ⟨?_, fun _ => Nat.le_of_eq hsame⟩
    simp only [queues, accepts, hjob, hsame]
    exact (due_eq_nil (Nat.le_refl _) id).symm

end World

/-! ## Runs with their notifications -/

/-- A world, the histories of its backlog and of the bytes accepted and not yet
written, and the tasks that jobs have queued, all oldest first.  A step counts
the bytes it accepts before those it writes. -/
structure Flow where
  world : World
  lengths : List Nat
  pending : List Nat
  notices : List Task

namespace Flow

def start (settings : Settings) : Flow :=
  { world := World.start settings
    lengths := [(World.start settings).backlog]
    pending := [(World.start settings).unwritten]
    notices := [] }

def step (s : Flow) (a : Action) : Outcome Abort Flow :=
  (s.world.step a).map fun v =>
    { world := v
      lengths := s.lengths ++ [v.backlog]
      pending := s.pending ++ [s.world.unwritten + (s.world.accepts a).length] ++ [v.unwritten]
      notices := s.notices ++ s.world.queues a }

/-- The lengths that high-water callbacks were queued with. -/
def highWaters (s : Flow) : List Nat := s.notices.filterMap Task.highWater

/-- The notifications so far are those that the histories ask for. -/
structure Exact (mark : Nat) (s : Flow) : Prop where
  /-- one high-water callback for each time that the backlog came to the mark,
  with the length that it then had -/
  high : s.highWaters = entries (fun len => mark ≤ len) s.lengths
  /-- one write-complete callback for each time that nothing was left -/
  complete : s.notices.count .writeCompleteCallback = (entries (fun n => n = 0) s.pending).length

/-- The step queues a high-water callback, and then one, if it is a `sendInLoop`
in which the backlog comes to the mark, and a write-complete callback only when
nothing is left to write. -/
def Timely (mark : Nat) (s : Flow) (a : Action) : Prop :=
  (s.step a).Leads fun t =>
    ((s.world.queues a).filterMap Task.highWater =
        if s.world.Sends a ∧ s.world.backlog < mark ∧ mark ≤ t.world.backlog then
          [t.world.backlog] else []) ∧
      (.writeCompleteCallback ∈ s.world.queues a → t.world.unwritten = 0)

structure Inv (mark : Nat) (s : Flow) : Prop extends s.Exact mark where
  wf : s.world.conn.outputBuffer.WF
  batch : s.world.BatchDone
  bytes : s.world.conn.stream = bytesOf s.world.ran
  notify : s.world.conn.settings.Notify mark
  lengths : s.lengths.getLast? = some s.world.backlog
  pending : s.pending.getLast? = some s.world.unwritten

theorem inv_start {settings : Settings} {mark : Nat} (hset : settings.Notify mark) :
    (start settings).Inv mark where
  high := rfl
  complete := rfl
  wf := World.wf_output_start settings
  batch := World.batchDone_start settings
  bytes := (World.streamInv_start settings).bytes
  notify := hset
  lengths := rfl
  pending := rfl

end Flow

/-! ## What is due -/

theorem highWater_due (mark before accepted after : Nat) :
    (due mark before accepted after).filterMap Task.highWater =
      if before < mark ∧ mark ≤ after then [after] else [] := by
  rw [due, List.filterMap_append]
  split <;> split <;> rfl

theorem count_due (mark before accepted after : Nat) :
    (due mark before accepted after).count .writeCompleteCallback =
      if before + accepted ≠ 0 ∧ after = 0 then 1 else 0 := by
  rw [due, List.count_append]
  split <;> split <;> rfl

theorem after_eq_zero_of_due {mark before accepted after : Nat}
    (h : .writeCompleteCallback ∈ due mark before accepted after) : after = 0 := by
  rw [due, List.mem_append] at h
  rcases h with h | h
  · split at h
    · rename_i hdone
      exact hdone.2
    · cases h
  · split at h
    · cases List.mem_singleton.mp h
    · cases h

namespace Flow

/-! ## One step -/

theorem Inv.step {mark : Nat} {s t : Flow} {a : Action} (hs : s.Inv mark)
    (hregular : s.world.Regular mark a) (h : s.step a = .next t) : t.Inv mark := by
  obtain ⟨v, hv, rfl⟩ := Outcome.map_eq_next.mp h
  have hwf := World.wf_output_of_step hs.wf hv
  have hbytes := World.stream_of_step hs.wf hs.batch hs.bytes hregular.1 hv
  obtain ⟨hqueues, _⟩ := World.queues_of_step hs.wf hs.notify hregular hv
  have hbefore := World.unwritten_eq_backlog hs.wf hs.bytes
  have hafter := World.unwritten_eq_backlog hwf hbytes
  refine ⟨⟨?_, ?_⟩, hwf, hs.batch.step hv, hbytes,
    World.notify_of_step hs.notify hregular hv, List.getLast?_concat, List.getLast?_concat⟩
  · rw [highWaters, List.filterMap_append, hqueues, highWater_due,
      entries_concat _ hs.lengths, ← hs.high]
    simp only [not_le, highWaters]
  · -- accepting bytes leaves something to write, so only the writes can end it
    have haccepted : entries (fun n => n = 0)
        (s.pending ++ [s.world.unwritten + (s.world.accepts a).length]) =
          entries (fun n => n = 0) s.pending :=
      entries_concat_of_not _ hs.pending fun hzero => by omega
    rw [List.count_append, hqueues, count_due, hs.complete,
      entries_concat _ List.getLast?_concat,
      haccepted, List.length_append, hbefore, hafter, apply_ite List.length]
    rfl

theorem Inv.timely {mark : Nat} {s : Flow} {a : Action} (hs : s.Inv mark)
    (hregular : s.world.Regular mark a) : s.Timely mark a := by
  rw [Timely, Outcome.leads_iff]
  intro t ht
  have hafter := (hs.step hregular ht)
  obtain ⟨v, hv, rfl⟩ := Outcome.map_eq_next.mp ht
  obtain ⟨hqueues, hshorter⟩ := World.queues_of_step hs.wf hs.notify hregular hv
  refine ⟨?_, fun hmem => ?_⟩
  · rw [hqueues, highWater_due]
    refine if_congr ⟨fun hcross => ⟨?_, hcross⟩, fun hboth => hboth.2⟩ rfl rfl
    by_contra hnot
    have hle := hshorter hnot
    have hlow := hcross.1
    have hhigh := hcross.2
    omega
  · rw [hqueues] at hmem
    exact (World.unwritten_eq_backlog hafter.wf hafter.bytes).trans (after_eq_zero_of_due hmem)

/-! ## Runs -/

/-- The histories only grow. -/
theorem exists_lengths_of_run {s t : Flow} {actions : List Action}
    (h : run step s actions = some t) : ∃ later, t.lengths = s.lengths ++ later := by
  induction actions generalizing s with
  | nil =>
    cases h
    exact ⟨[], (List.append_nil _).symm⟩
  | cons a actions ih =>
    obtain ⟨u, hu, hrest⟩ := run_cons_eq_some.mp h
    obtain ⟨later, hlater⟩ := ih hrest
    obtain ⟨v, hv, rfl⟩ := Outcome.map_eq_next.mp hu
    exact ⟨v.backlog :: later, by rw [hlater, List.append_assoc, List.singleton_append]⟩

/-- **Flow-control notifications are exact.**  In a run with any threads, calls
and results of `::write`, as long as both callbacks and the mark stay set,
messages are not empty and none is given up: the high-water callbacks queued so
far are the times the backlog came to the mark, each with the length it then
had, and there have been as many write-complete callbacks as times that nothing
was left to write.  Each is queued by the step in which that happens.  Between
two high-water callbacks the backlog has been below the mark. -/
theorem notifications_exact (settings : Settings) (mark : Nat) (hset : settings.Notify mark)
    (actions : List Action)
    (hregular : Along step (fun s a => s.world.Regular mark a) (start settings) actions) :
    Throughout step (Exact mark) (start settings) actions ∧
      Along step (Timely mark) (start settings) actions ∧
      ∀ first second s t, first ++ second <+: actions →
        run step (start settings) first = some s → run step s second = some t →
        mark ≤ s.world.backlog → t.highWaters ≠ s.highWaters →
          ∃ later, t.lengths = s.lengths ++ later ∧ ∃ len ∈ later, len < mark := by
  have hstep : ∀ s a t, s.Inv mark → s.world.Regular mark a → step s a = .next t → t.Inv mark :=
    fun s a t hs hgood ht => hs.step hgood ht
  have hinv := throughout_of_along (inv_start hset) hstep hregular
  refine ⟨hinv.mono fun s hs => hs.toExact, ?_, ?_⟩
  · exact along_of_along (inv_start hset) hstep (fun s a hs hgood => hs.timely hgood) hregular
  · intro first second s t hprefix hfirst hsecond hhigh hmore
    have hs := throughout_iff_run.mp hinv first s
      ((List.prefix_append _ _).trans hprefix) hfirst
    have ht := throughout_iff_run.mp hinv (first ++ second) t hprefix
      ((run_append hfirst second).trans hsecond)
    obtain ⟨later, hlater⟩ := exists_lengths_of_run hsecond
    refine ⟨later, hlater, ?_⟩
    rw [ht.high, hs.high, hlater] at hmore
    obtain ⟨len, hmem, hlow⟩ := exists_not_of_entries _ hs.lengths hhigh hmore
    exact ⟨len, hmem, Nat.lt_of_not_le hlow⟩

/-- A mark of two bytes, a message of three of which the kernel takes one, and a
write event that takes the rest. -/
def oneOfThree : List Action :=
  [.call .loop (.send ⟨[65, 66, 67], by rw [SizeT.maxSize_eq]; decide⟩),
    .resume .loop ⟨.accepted 1, .fail 0⟩, .loop .swap, .loop (.runTask ⟨.fail 0, .fail 0⟩),
    .loop .endRound, .loop (.poll epollOut), .loop (.handleEvents ⟨.accepted 2, .fail 0⟩)]

theorem notifications_exact_oneOfThree :
    Along step (fun s a => s.world.Regular 2 a) (start ⟨true, true, true, 2⟩) oneOfThree ∧
      Throughout step (Exact 2) (start ⟨true, true, true, 2⟩) oneOfThree ∧
      (run step (start ⟨true, true, true, 2⟩) oneOfThree).map Flow.notices =
        some [.highWaterMarkCallback 2, .writeCompleteCallback] := by
  have hregular : Along step (fun s a => s.world.Regular 2 a) (start ⟨true, true, true, 2⟩)
      oneOfThree := by decide +kernel
  refine ⟨hregular, ?_, by decide +kernel⟩
  exact (notifications_exact _ 2 ⟨rfl, rfl, rfl⟩ oneOfThree hregular).1

end Flow

end CppWeb.Tcp
