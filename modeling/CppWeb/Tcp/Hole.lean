/-
  Tcp/Hole.lean --- what a write error leaves of the byte stream.

  When the direct write of `sendInLoop` fails for good, the message is given up
  and nothing else happens: the connection stays open, the buffer stays empty
  and the channel asks for nothing.  The next message is therefore written at
  once again, and if the kernel takes a byte of it, the peer reads on behind a
  hole.  A failed write in `handleWrite` gives nothing up.

  At the moment of the loss everything before it has been accepted and nothing
  is waiting, so a byte that is passed to the kernel later on, accepted or not,
  is a byte of a later message.  The history of a run records the log of system
  calls at that moment.
-/
import CppWeb.Tcp.Stream

set_option autoImplicit false

namespace CppWeb.Tcp

open CppWeb.Foundation CppWeb.Loop CppWeb.Poll

/-- The bytes a system call passes to the kernel, whether it accepts them or
not. -/
def Syscall.offered : Syscall → List UInt8
  | .write data _ => data
  | .readv _ | .shutdownWr | .getsockopt => []

theorem Syscall.delivered_eq_nil {call : Syscall} (h : call.offered = []) :
    call.delivered = [] := by
  cases call with
  | write data result =>
    obtain rfl : data = [] := h
    exact List.take_nil
  | _ => rfl

/-- The calls pass no byte to the kernel. -/
def Silent (calls : List Syscall) : Prop := ∀ call ∈ calls, call.offered = []

theorem silent_nil : Silent [] := fun _ h => absurd h List.not_mem_nil

theorem silent_singleton {call : Syscall} : Silent [call] ↔ call.offered = [] := by
  simp [Silent]

theorem silent_append {calls later : List Syscall} :
    Silent (calls ++ later) ↔ Silent calls ∧ Silent later := by
  simp [Silent, or_imp, forall_and]

theorem Silent.delivered {calls : List Syscall} (h : Silent calls) :
    calls.flatMap Syscall.delivered = [] := by
  rw [List.flatMap_eq_nil_iff]
  exact fun call hcall => Syscall.delivered_eq_nil (h call hcall)

namespace Connection

/-! ## What a job passes to the kernel -/

/-- The job gets to a `::write` with something to write: that of `sendInLoop`
when no write is pending, or that of `handleWrite`. -/
def Offers (c : Connection) : Job → Prop
  | .task (.sendInLoop message) =>
      c.state ≠ .kDisconnected ∧ c.channel.isWriting = false ∧ 0 < message.data.length
  | .callback .write => c.state ≠ .kDisconnected ∧ 0 < c.outputBuffer.readableBytes
  | .callback _ | .task _ => False

/-- What a job adds to the log of system calls, and whether a byte goes to the
kernel with it. -/
def Logs (c : Connection) (job : Job) (r : Connection) : Prop :=
  ∃ later, r.syscalls = c.syscalls ++ later ∧ (Silent later ↔ ¬ c.Offers job)

theorem logs_of_silent {c r : Connection} {job : Job} {later : List Syscall}
    (hcalls : r.syscalls = c.syscalls ++ later) (hsilent : Silent later)
    (hquiet : ¬ c.Offers job) : c.Logs job r :=
  ⟨later, hcalls, iff_of_true hsilent hquiet⟩

theorem logs_of_same {c r : Connection} {job : Job} (hcalls : r.syscalls = c.syscalls)
    (hquiet : ¬ c.Offers job) : c.Logs job r :=
  logs_of_silent (hcalls.trans (List.append_nil _).symm) silent_nil hquiet

theorem SendEffect.logs {c : Connection} {io : WriteResult} {message : Message}
    {r : Connection × List Task} (h : SendEffect c io message.data r) :
    c.Logs (.task (.sendInLoop message)) r.1 := by
  have hwrite : c.state ≠ .kDisconnected → c.channel.isWriting = false →
      (Silent [.write message.data.data io] ↔ ¬ c.Offers (.task (.sendInLoop message))) := by
    intro hstate hidle
    rw [silent_singleton, Syscall.offered, Offers, ← List.length_eq_zero_iff]
    rw [show message.data.data.length = message.data.length from rfl]
    simp [hstate, hidle]
  have hpending : c.channel.isWriting = true → ¬ c.Offers (.task (.sendInLoop message)) := by
    intro hwriting hoffers
    exact absurd (hwriting.symm.trans hoffers.2.1) (by decide)
  cases h with
  | disconnected hstate => exact logs_of_same rfl fun hoffers => hoffers.1 hstate
  | direct tasks hstate hidle => exact ⟨_, rfl, hwrite hstate hidle⟩
  | directRest tasks outputBuffer channel hstate hidle => exact ⟨_, rfl, hwrite hstate hidle⟩
  | nothing hstate hwriting => exact logs_of_same rfl (hpending hwriting)
  | buffered tasks outputBuffer channel hstate hwriting =>
    exact logs_of_same rfl (hpending hwriting)

theorem WriteEffect.logs {c : Connection} (hc : c.outputBuffer.WF) {io : WriteResult}
    {r : Connection × List Task} (h : WriteEffect c io r) : c.Logs (.callback .write) r.1 := by
  have hwrite : c.state ≠ .kDisconnected →
      (Silent [.write c.outputBuffer.content io] ↔ ¬ c.Offers (.callback .write)) := by
    intro hstate
    rw [silent_singleton, Syscall.offered, Offers, Buffer.content_eq_nil_iff hc]
    simp [hstate]
  cases h with
  | disconnected hstate => exact logs_of_same rfl fun hoffers => hoffers.1 hstate
  | failed errno hstate => exact ⟨_, rfl, hwrite hstate⟩
  | partly outputBuffer hstate => exact ⟨_, rfl, hwrite hstate⟩
  | drained tasks outputBuffer channel hstate => exact ⟨_, rfl, hwrite hstate⟩

/-- A job passes a byte to the kernel if and only if it gets to a `::write` with
something to write. -/
theorem Executed.logs {c : Connection} (hc : c.outputBuffer.WF) {io : Io} {job : Job}
    {r : Connection × List Task} (h : Executed c io job r) : c.Logs job r.1 := by
  cases h with
  | send message h => exact h.logs
  | write h => exact h.logs hc
  | read h =>
    cases h with
    | failed hstate =>
      refine logs_of_silent (List.append_assoc _ [_] [_]) ?_ id
      exact silent_append.mpr ⟨silent_singleton.mpr rfl, silent_singleton.mpr rfl⟩
    | closed n inputBuffer hstate hread =>
      exact logs_of_silent rfl (silent_singleton.mpr rfl) id
    | data n inputBuffer hstate hread =>
      exact logs_of_silent rfl (silent_singleton.mpr rfl) id
  | error => exact logs_of_silent rfl (silent_singleton.mpr rfl) id
  | shutdown =>
    rw [shutdownInLoop]
    split
    · exact logs_of_silent rfl (silent_singleton.mpr rfl) id
    · exact logs_of_same rfl id
  | _ => exact logs_of_same rfl id

/-! ## What a job leaves in the buffer -/

/-- The job runs a message that is not empty, and the connection is open. -/
def SendsBytes (c : Connection) : Job → Prop
  | .task (.sendInLoop message) => c.state ≠ .kDisconnected ∧ 0 < message.data.length
  | .callback _ | .task _ => False

/-- With nothing waiting and no message run, nothing is written and nothing
waits afterwards. -/
theorem Executed.idle {c : Connection} {io : Io} {job : Job} {r : Connection × List Task}
    (hempty : c.outputBuffer.readableBytes = 0) (hquiet : ¬ c.SendsBytes job)
    (h : Executed c io job r) :
    ¬ c.Offers job ∧ r.1.outputBuffer = c.outputBuffer := by
  cases h with
  | send message h =>
    refine ⟨fun hoffers => hquiet ⟨hoffers.1, hoffers.2.2⟩, ?_⟩
    have hnone : c.state ≠ .kDisconnected → message.data.length = 0 := by
      intro hstate
      by_contra hlen
      exact hquiet ⟨hstate, Nat.pos_of_ne_zero hlen⟩
    cases h with
    | directRest tasks outputBuffer channel hstate hidle hempty hfault hrest =>
      have hlen := hnone hstate
      omega
    | buffered tasks outputBuffer channel hstate hwriting hlen =>
      have hzero := hnone hstate
      omega
    | _ => rfl
  | write h =>
    cases h with
    | disconnected hstate => exact ⟨fun hoffers => hoffers.1 hstate, rfl⟩
    | _ => omega
  | read h => cases h <;> exact ⟨id, rfl⟩
  | shutdown =>
    refine ⟨id, ?_⟩
    rw [shutdownInLoop]
    split <;> rfl
  | _ => exact ⟨id, rfl⟩

/-- A message that is given up leaves nothing waiting, and the kernel has
accepted nothing of it. -/
theorem SendEffect.of_givesUp {c : Connection} {io : Io} {message : Message}
    {r : Connection × List Task} (hgives : c.GivesUp io.write message.data)
    (h : SendEffect c io.write message.data r) :
    r.1.wire = c.wire ∧ r.1.outputBuffer.readableBytes = 0 := by
  obtain ⟨hopen, hidle, hfault, hlen⟩ := hgives
  have hnone : (Syscall.write message.data.data io.write).delivered = [] := by
    cases hio : io.write with
    | accepted n =>
      rw [hio] at hfault
      cases hfault
    | fail errno => rw [Syscall.delivered, WriteResult.taken, List.take_zero]
  cases h with
  | disconnected hstate => exact absurd hstate hopen
  | direct tasks hstate hidle hempty =>
    rw [wire_record, hnone, List.append_nil]
    exact ⟨rfl, hempty⟩
  | directRest tasks outputBuffer channel hstate hidle hempty hkept =>
    rw [hfault] at hkept
    cases hkept
  | nothing hstate hwriting =>
    rw [hidle] at hwriting
    cases hwriting
  | buffered tasks outputBuffer channel hstate hwriting =>
    rw [hidle] at hwriting
    cases hwriting

end Connection

namespace World

/-! ## One step -/

/-- The step gets to a `::write` with something to write. -/
def Offers (w : World) (a : Action) : Prop :=
  match w.jobOf a with
  | some (job, _) => w.conn.Offers job
  | none => False

/-- The step runs a message that is not empty on an open connection. -/
def SendsBytes (w : World) (a : Action) : Prop :=
  match w.jobOf a with
  | some (job, _) => w.conn.SendsBytes job
  | none => False

theorem logs_of_step {w v : World} {a : Action} (hwf : w.conn.outputBuffer.WF)
    (h : w.step a = .next v) :
    ∃ later, v.conn.syscalls = w.conn.syscalls ++ later ∧ (Silent later ↔ ¬ w.Offers a) := by
  rw [Offers]
  cases hjob : w.jobOf a with
  | some p =>
    obtain ⟨job, io⟩ := p
    obtain ⟨base, hconn, _, hstep⟩ := step_of_jobOf hjob
    obtain ⟨r, hrun, rfl⟩ := runJob_eq_next.mp (hstep.symm.trans h)
    rw [hconn] at hrun
    exact (Connection.execute_cases hrun).logs hwf
  | none =>
    refine ⟨[], ?_, iff_of_true silent_nil id⟩
    cases connStep_of_step h with
    | same inputBuffer settings hinput hconn => rw [hconn, List.append_nil]
    | exchange t io ha hcall hconn => rw [hconn, List.append_nil]
    | job job io r hjob' =>
      rw [hjob] at hjob'
      cases hjob'

theorem idle_of_step {w v : World} {a : Action}
    (hempty : w.conn.outputBuffer.readableBytes = 0) (hquiet : ¬ w.SendsBytes a)
    (h : w.step a = .next v) : ¬ w.Offers a ∧ v.conn.outputBuffer = w.conn.outputBuffer := by
  rw [Offers]
  rw [SendsBytes] at hquiet
  cases hjob : w.jobOf a with
  | some p =>
    obtain ⟨job, io⟩ := p
    rw [hjob] at hquiet
    obtain ⟨base, hconn, _, hstep⟩ := step_of_jobOf hjob
    obtain ⟨r, hrun, rfl⟩ := runJob_eq_next.mp (hstep.symm.trans h)
    rw [hconn] at hrun
    exact (Connection.execute_cases hrun).idle hempty hquiet
  | none =>
    refine ⟨id, ?_⟩
    cases connStep_of_step h with
    | same inputBuffer settings hinput hconn => rw [hconn]
    | exchange t io ha hcall hconn => rw [hconn]
    | job job io r hjob' =>
      rw [hjob] at hjob'
      cases hjob'

theorem of_givesUp {w v : World} {a : Action} (hgives : w.GivesUp a)
    (h : w.step a = .next v) :
    v.conn.wire = w.conn.wire ∧ v.conn.outputBuffer.readableBytes = 0 := by
  rw [GivesUp] at hgives
  split at hgives
  · rename_i message io hjob
    obtain ⟨base, hconn, _, hstep⟩ := step_of_jobOf hjob
    obtain ⟨r, hrun, rfl⟩ := runJob_eq_next.mp (hstep.symm.trans h)
    rw [hconn] at hrun
    cases Connection.execute_cases hrun with
    | send _ hsend => exact hsend.of_givesUp hgives
  · cases hgives

theorem ran_prefix_of_step {w v : World} {a : Action} (hbatch : w.BatchDone)
    (h : w.step a = .next v) : w.ran <+: v.ran := by
  cases ledgerStep_of_step h hbatch with
  | quiet hcalls houtput hchannel hqueue hran => rw [hran]
  | issue t data hidle hstate hv => rw [hv]; exact List.prefix_rfl
  | handQueue t task io ha hcall hv => rw [hv]; exact List.prefix_rfl
  | runHere task io r ha hcall hrun hv => rw [hv]; exact List.prefix_append _ _
  | runQueued task rest io r hjob hqueue hrest hrun hv => rw [hv]; exact List.prefix_append _ _
  | callback cb io r hjob hrun hv =>
    obtain ⟨phase, rfl⟩ := hv
    exact List.prefix_append _ _

end World

/-! ## Runs with their losses -/

/-- A world, and once a message has been given up, the log of system calls
right after the first one that was. -/
structure Lossy where
  world : World
  loss : Option (List Syscall)

namespace Lossy

def start (settings : Settings) : Lossy := { world := World.start settings, loss := none }

/-- One step; the first message that is given up is recorded. -/
def step (s : Lossy) (a : Action) : Outcome Abort Lossy :=
  (s.world.step a).map fun v =>
    { world := v
      loss := s.loss.or (if s.world.GivesUp a then some v.conn.syscalls else none) }

/-- No hole: the kernel has accepted a prefix of the messages that ran while the
connection was not closed, and since a message was given up no byte has been
passed to it. -/
structure NoHole (s : Lossy) : Prop where
  accepted : s.world.conn.wire <+: bytesOf s.world.ran
  stopped : ∀ log, s.loss = some log →
    ∃ later, s.world.conn.syscalls = log ++ later ∧ Silent later

/-- After a loss a `::write` is reached with something to write. -/
def WritesOn (s : Lossy) (a : Action) : Prop := s.loss.isSome = true ∧ s.world.Offers a

/-- After a loss a message that is not empty runs on an open connection. -/
def SendsOn (s : Lossy) (a : Action) : Prop := s.loss.isSome = true ∧ s.world.SendsBytes a

/-- Up to the first loss all messages are accepted or waiting; from then on no
byte goes to the kernel. -/
structure Inv (s : Lossy) : Prop where
  wf : s.world.conn.outputBuffer.WF
  batch : s.world.BatchDone
  whole : s.loss = none → s.world.conn.stream = bytesOf s.world.ran
  noHole : s.NoHole

theorem inv_start (settings : Settings) : (start settings).Inv := by
  have hbytes := (World.streamInv_start settings).bytes
  refine ⟨World.wf_output_start settings, World.batchDone_start settings, fun _ => hbytes, ?_, ?_⟩
  · exact List.nil_prefix
  · intro log h
    cases h

theorem bytesOf_prefix {ms ms' : List Message} (h : ms <+: ms') : bytesOf ms <+: bytesOf ms' := by
  obtain ⟨rest, rfl⟩ := h
  rw [bytesOf_append]
  exact List.prefix_append _ _

theorem wire_prefix_ran {w : World} (h : w.conn.stream = bytesOf w.ran) :
    w.conn.wire <+: bytesOf w.ran := by
  rw [← h]
  exact List.prefix_append _ _

/-- **One step.**  A step that does not get to a `::write` after a loss keeps the
invariant. -/
theorem Inv.step {s t : Lossy} {a : Action} (hs : s.Inv) (hgood : ¬ s.WritesOn a)
    (h : s.step a = .next t) : t.Inv := by
  obtain ⟨v, hv, rfl⟩ := Outcome.map_eq_next.mp h
  have hwf := World.wf_output_of_step hs.wf hv
  have hbatch := hs.batch.step hv
  have hran := bytesOf_prefix (World.ran_prefix_of_step hs.batch hv)
  cases hloss : s.loss with
  | some first =>
    obtain ⟨earlier, hearlier, hsilent⟩ := hs.noHole.stopped first hloss
    obtain ⟨later, hlater, hoffers⟩ := World.logs_of_step hs.wf hv
    have hquiet : Silent later := hoffers.mpr fun hoffers => hgood ⟨by rw [hloss]; rfl, hoffers⟩
    refine ⟨hwf, hbatch, fun hnever => ?_, ?_, fun log hlog => ?_⟩
    · simp at hnever
    · have hwire : v.conn.wire = s.world.conn.wire := by
        rw [Connection.wire, hlater, List.flatMap_append, hquiet.delivered, List.append_nil,
          Connection.wire]
      rw [hwire]
      exact hs.noHole.accepted.trans hran
    · obtain rfl : first = log := by simpa using hlog
      refine ⟨earlier ++ later, ?_, silent_append.mpr ⟨hsilent, hquiet⟩⟩
      rw [hlater, hearlier, List.append_assoc]
  | none =>
    have hbytes := hs.whole hloss
    by_cases hgives : s.world.GivesUp a
    · obtain ⟨hwire, _⟩ := World.of_givesUp hgives hv
      refine ⟨hwf, hbatch, fun hnever => ?_, ?_, fun log hlog => ?_⟩
      · simp [hgives] at hnever
      · rw [hwire]
        exact (wire_prefix_ran hbytes).trans hran
      · obtain rfl : v.conn.syscalls = log := by simpa [hgives] using hlog
        exact ⟨[], (List.append_nil _).symm, silent_nil⟩
    · have hstream := World.stream_of_step hs.wf hs.batch hbytes hgives hv
      refine ⟨hwf, hbatch, fun _ => hstream, wire_prefix_ran hstream, fun log hlog => ?_⟩
      simp [hgives] at hlog

/-- A `::write` with something to write after a loss is a hole. -/
theorem Inv.hole {s t : Lossy} {a : Action} (hs : s.Inv) (hbad : s.WritesOn a)
    (h : s.step a = .next t) : ¬ t.NoHole := by
  intro hno
  obtain ⟨v, hv, rfl⟩ := Outcome.map_eq_next.mp h
  obtain ⟨hlost, hoffers⟩ := hbad
  obtain ⟨first, hloss⟩ := Option.isSome_iff_exists.mp hlost
  obtain ⟨earlier, hearlier, _⟩ := hs.noHole.stopped first hloss
  obtain ⟨later, hlater, hiff⟩ := World.logs_of_step hs.wf hv
  obtain ⟨all, hall, hsilent⟩ := hno.stopped first (by simp [hloss])
  have hsplit : all = earlier ++ later := by
    rw [hlater, hearlier, List.append_assoc] at hall
    exact (List.append_cancel_left hall).symm
  rw [hsplit, silent_append] at hsilent
  exact hiff.mp hsilent.2 hoffers

/-! ### Without another message -/

/-- Nothing waits to be written once a message has been given up. -/
structure Dry (s : Lossy) : Prop where
  inv : s.Inv
  empty : s.loss.isSome = true → s.world.conn.outputBuffer.readableBytes = 0

theorem Dry.not_writesOn {s t : Lossy} {a : Action} (hs : s.Dry) (hgood : ¬ s.SendsOn a)
    (h : s.step a = .next t) : ¬ s.WritesOn a := by
  rintro ⟨hloss, hoffers⟩
  obtain ⟨v, hv, rfl⟩ := Outcome.map_eq_next.mp h
  have hquiet : ¬ s.world.SendsBytes a := fun hsends => hgood ⟨hloss, hsends⟩
  exact (World.idle_of_step (hs.empty hloss) hquiet hv).1 hoffers

/-- **One step.**  Without another message nothing waits to be written. -/
theorem Dry.step {s t : Lossy} {a : Action} (hs : s.Dry) (hgood : ¬ s.SendsOn a)
    (h : s.step a = .next t) : t.Dry := by
  refine ⟨hs.inv.step (hs.not_writesOn hgood h) h, ?_⟩
  obtain ⟨v, hv, rfl⟩ := Outcome.map_eq_next.mp h
  intro hlost
  cases hloss : s.loss with
  | some first =>
    have hloss : s.loss.isSome = true := by rw [hloss]; rfl
    have hquiet : ¬ s.world.SendsBytes a := fun hsends => hgood ⟨hloss, hsends⟩
    rw [(World.idle_of_step (hs.empty hloss) hquiet hv).2]
    exact hs.empty hloss
  | none =>
    by_cases hgives : s.world.GivesUp a
    · exact (World.of_givesUp hgives hv).2
    · simp [hloss, hgives] at hlost

/-! ## Runs -/

theorem noHole_of_quiet (settings : Settings) {actions : List Action}
    (h : Along step (fun s a => ¬ s.SendsOn a) (start settings) actions) :
    Throughout step NoHole (start settings) actions := by
  have hstart : (start settings).Dry := ⟨inv_start settings, fun h => by cases h⟩
  exact (throughout_of_along hstart (fun _ _ _ hs hgood ht => hs.step hgood ht) h).mono
    fun _ hs => hs.inv.noHole

/-- **When the stream has no hole.**  Take a run with any threads, any messages
and any results of `::write`.  If no message that is not empty runs on an open
connection once a message has been given up, the kernel has at every moment
accepted a prefix of the messages that ran, and was passed no byte of a message
behind the loss.  The exact condition is that after the loss, on an open
connection, neither `sendInLoop` runs with a message that is not empty and
without write interest, nor `handleWrite` with something in the buffer: a
message that finds write interest set, as `stopRead` leaves it, waits behind the
hole for the next write event. -/
theorem no_hole_iff (settings : Settings) (actions : List Action) :
    (Along step (fun s a => ¬ s.SendsOn a) (start settings) actions →
      Throughout step NoHole (start settings) actions) ∧
    (Throughout step NoHole (start settings) actions ↔
      Along step (fun s a => (s.step a).Leads fun _ => ¬ s.WritesOn a) (start settings)
        actions) := by
  refine ⟨noHole_of_quiet settings, ?_⟩
  refine throughout_iff_along (I := Inv) (inv_start settings) ?_ (fun _ hs => hs.noHole) ?_ actions
  · intro s a t hs hgood ht
    exact hs.step (Outcome.leads_iff.mp hgood t ht) ht
  · intro s a hs hbad
    rw [Outcome.leads_iff, not_forall] at hbad
    obtain ⟨t, hbad⟩ := hbad
    rw [Classical.not_imp, not_not] at hbad
    exact ⟨t, hbad.1, hs.hole hbad.2 hbad.1⟩

/-- The loop thread sends two messages; the kernel is out of buffers for the
first and accepts the second. -/
def secondAfterFault : List Action :=
  [.call .loop (.send ⟨[65], SizeT.one_le_maxSize⟩),
    .resume .loop ⟨.fail 105, .fail 0⟩,
    .call .loop (.send ⟨[66], SizeT.one_le_maxSize⟩),
    .resume .loop ⟨.accepted 1, .fail 0⟩]

/-- The peer reads the second message in the place of the first. -/
theorem hole_secondAfterFault :
    ¬ ∀ settings actions, Throughout World.step
      (fun w => w.conn.wire <+: bytesOf w.ran) (World.start settings) actions := by
  intro h
  have hrun := h ⟨false, true, false, 0⟩ secondAfterFault
  exact absurd hrun (by decide +kernel)

end Lossy

end CppWeb.Tcp
