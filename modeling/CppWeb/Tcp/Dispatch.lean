/-
  Tcp/Dispatch.lean --- one call of `Channel::handleEvents` on a connection.

  Up to four handlers run in one dispatch, user code runs between them, and two
  of the four may close the connection: the close callback always does, the read
  callback does on an end of file.  What comes behind a close guards itself
  differently: `handleWrite` returns, `handleRead` asserts.

  The close and the read callback are both called when `EPOLLHUP` comes without
  `EPOLLIN` but with `EPOLLPRI` or `EPOLLRDHUP`, and then the assertion of
  `handleRead` fails.  For every other mask the handlers of one dispatch are in
  an order in which nothing that may close follows something that may close, and
  this order is the invariant that everything below rests on.
-/
import CppWeb.Tcp.Closing
import CppWeb.Tcp.Output

set_option autoImplicit false

namespace CppWeb.Tcp

open CppWeb.Foundation CppWeb.Loop CppWeb.Poll

/-! ## The order of the callbacks -/

/-- The hang-up is reported without input, but with something else that calls
the read callback. -/
def ClosesThenReads (revents : Mask) : Prop :=
  Mask.meets revents epollHup = true ∧ Mask.meets revents epollIn = false ∧
    Mask.meets revents (epollPri ||| epollRdHup) = true

instance (revents : Mask) : Decidable (ClosesThenReads revents) :=
  inferInstanceAs (Decidable (_ ∧ _ ∧ _))

/-- The callback may run the body of `handleClose`. -/
def MayClose (cb : Callback) : Prop := cb = .close ∨ cb = .read

instance (cb : Callback) : Decidable (MayClose cb) := inferInstanceAs (Decidable (_ ∨ _))

/-- A callback may come before another one of the same dispatch. -/
def Precedes (cb cb' : Callback) : Prop := cb ≠ cb' ∧ (MayClose cb → ¬ MayClose cb')

instance (cb cb' : Callback) : Decidable (Precedes cb cb') :=
  inferInstanceAs (Decidable (_ ∧ (_ → _)))

/-- Without input, the read callback is called for the other two events. -/
theorem meets_read {revents : Mask} (hin : Mask.meets revents epollIn = false) :
    Mask.meets revents (epollIn ||| epollPri ||| epollRdHup) =
      Mask.meets revents (epollPri ||| epollRdHup) := by
  have hzero : revents &&& epollIn = 0#32 := by simpa [Mask.meets] using hin
  have hassoc : epollIn ||| epollPri ||| epollRdHup = epollIn ||| (epollPri ||| epollRdHup) := by
    decide
  rw [Mask.meets, Mask.meets, hassoc, BitVec.and_or_distrib_left, hzero, BitVec.zero_or]

/-- The two callbacks that may close are not both called. -/
theorem pairwise_handleEventsWithGuard {revents : Mask} (h : ¬ ClosesThenReads revents) :
    (handleEventsWithGuard revents).Pairwise Precedes := by
  have hnot : (Mask.meets revents epollHup && !Mask.meets revents epollIn) = true →
      Mask.meets revents (epollIn ||| epollPri ||| epollRdHup) = false := by
    intro hclose
    rw [Bool.and_eq_true, Bool.not_eq_true'] at hclose
    rw [meets_read hclose.2]
    by_contra hread
    exact h ⟨hclose.1, hclose.2, by simpa using hread⟩
  rw [handleEventsWithGuard]
  revert hnot
  generalize (Mask.meets revents epollHup && !Mask.meets revents epollIn) = closes
  generalize Mask.meets revents (epollIn ||| epollPri ||| epollRdHup) = reads
  generalize Mask.meets revents epollErr = fails
  generalize Mask.meets revents epollOut = writes
  revert closes reads fails writes
  decide

/-- Otherwise the read callback follows the close callback, with at most the
error callback in between. -/
theorem handleEventsWithGuard_of_closesThenReads {revents : Mask} (h : ClosesThenReads revents) :
    ∃ rest, handleEventsWithGuard revents = .close :: .read :: rest ∨
      handleEventsWithGuard revents = .close :: .error :: .read :: rest := by
  obtain ⟨hhup, hin, hread⟩ := h
  rw [handleEventsWithGuard, meets_read hin, hhup, hin, hread]
  refine ⟨if Mask.meets revents epollOut then [.write] else [], ?_⟩
  cases Mask.meets revents epollErr with
  | false => exact Or.inl rfl
  | true => exact Or.inr rfl

/-- The system call moves bytes from or to the socket. -/
def Syscall.isTransfer : Syscall → Bool
  | .readv _ | .write _ _ => true
  | .shutdownWr | .getsockopt => false

namespace Connection

/-! ## A connection in a dispatch -/

/-- Output is pending: bytes are buffered and the channel waits for write
events. -/
def Pending (c : Connection) : Prop :=
  c.channel.isWriting = true ∧ 0 < c.outputBuffer.readableBytes

instance (c : Connection) : Decidable c.Pending := inferInstanceAs (Decidable (_ ∧ _))

/-- The invariant of a dispatch that began with the connection `base`: what may
close is only still to be called while the connection is open, and the
connection was closed at most once since.  If write events come only with
pending output, output is still pending when the write callback is to be
called. -/
structure Underway (base : Connection) (pending : Prop) (c : Connection)
    (todo : List Callback) : Prop where
  input : c.inputBuffer.WF
  output : c.outputBuffer.WF
  established : c.state ≠ .kConnecting
  order : todo.Pairwise Precedes
  opened : c.state ≠ .kDisconnected → c.channel.polling = true ∧ c.closes = base.closes ∧
    c.closeCallbacks = base.closeCallbacks
  closed : c.state = .kDisconnected → (∀ cb ∈ todo, ¬ MayClose cb) ∧
    c.closeCallbacks ≤ base.closeCallbacks + 1
  pending : pending → c.state ≠ .kDisconnected → .write ∈ todo → c.Pending

variable {base : Connection} {pending : Prop}

/-- The first callback is done with. -/
theorem Underway.rest {c : Connection} {cb : Callback} {rest : List Callback}
    (h : Underway base pending c (cb :: rest)) : Underway base pending c rest := by
  refine ⟨h.input, h.output, h.established, (List.pairwise_cons.mp h.order).2, h.opened, ?_, ?_⟩
  · intro hstate
    obtain ⟨hnone, hcalls⟩ := h.closed hstate
    exact ⟨fun cb' hcb' => hnone cb' (List.mem_cons_of_mem cb hcb'), hcalls⟩
  · intro hp hopen hwrite
    exact h.pending hp hopen (List.mem_cons_of_mem cb hwrite)

/-- What neither closes nor takes an interest or pending output away keeps the
invariant. -/
theorem Underway.update {c d : Connection} {todo : List Callback}
    (h : Underway base pending c todo) (hinput : d.inputBuffer.WF) (houtput : d.outputBuffer.WF)
    (hstate : d.state = c.state) (hcloses : d.closes = c.closes)
    (hcallbacks : d.closeCallbacks = c.closeCallbacks)
    (hpolling : c.channel.polling = true → d.channel.polling = true)
    (hpending : .write ∈ todo → c.Pending → d.Pending) : Underway base pending d todo := by
  refine ⟨hinput, houtput, ?_, h.order, ?_, ?_, ?_⟩
  · rw [hstate]
    exact h.established
  · rw [hstate, hcloses, hcallbacks]
    intro hopen
    obtain ⟨hregistered, hcounts⟩ := h.opened hopen
    exact ⟨hpolling hregistered, hcounts⟩
  · rw [hstate, hcallbacks]
    exact h.closed
  · rw [hstate]
    intro hp hopen hwrite
    exact hpending hwrite (h.pending hp hopen hwrite)

/-- A close by the first callback: nothing that may close comes after it. -/
theorem Underway.close {c d : Connection} {cb : Callback} {rest : List Callback}
    (h : Underway base pending c (cb :: rest)) (hcb : MayClose cb)
    (hopen : c.state ≠ .kDisconnected) (hinput : d.inputBuffer.WF) (houtput : d.outputBuffer.WF)
    (hcallbacks : d.closeCallbacks = c.closeCallbacks) :
    Underway base pending d.closed rest := by
  obtain ⟨hhead, horder⟩ := List.pairwise_cons.mp h.order
  obtain ⟨_, _, hcalls⟩ := h.opened hopen
  refine ⟨hinput, houtput, by simp [Connection.closed], horder, ?_, ?_, ?_⟩
  · intro hstate
    exact absurd rfl hstate
  · intro _
    refine ⟨fun cb' hcb' => (hhead cb' hcb').2 hcb, ?_⟩
    rw [Connection.closed]
    dsimp only
    split <;> omega
  · intro _ hstate
    exact absurd rfl hstate

theorem polling_of_orEvents {bits : Mask} (hbits : bits ≠ 0#32) {c d : Channel}
    (h : c.orEvents bits = .ok d) : d.polling = true := by
  rw [Channel.orEvents_eq hbits, Except.ok.injEq] at h
  rw [← h]

theorem Pending.append {c d : Connection} (h : c.Pending) (hc : c.outputBuffer.WF)
    {bytes : Bytes} (happend : c.outputBuffer.append bytes = .ok d.outputBuffer)
    (hchannel : c.channel.enableWrite = .ok d.channel) : d.Pending := by
  refine ⟨Channel.isWriting_enableWrite hchannel, ?_⟩
  rw [readableBytes_of_append hc happend]
  exact Nat.lt_of_lt_of_le h.2 (Nat.le_add_right _ _)

/-- A closure that user code runs during the dispatch keeps the invariant. -/
theorem Underway.task {c : Connection} {todo : List Callback}
    (h : Underway base pending c todo) {io : Io} {task : Task} {r : Connection × List Task}
    (htask : task ≠ .forceCloseInLoop) (hr : Executed c io (.task task) r) :
    Underway base pending r.1 todo := by
  have hinput := hr.wf_input h.input
  have houtput := hr.wf_output h.output
  cases hr with
  | send message hr =>
    cases hr with
    | disconnected hstate => exact h
    | direct tasks hstate => exact h.update hinput houtput rfl rfl rfl id fun _ => id
    | directRest tasks outputBuffer channel hstate hidle hempty hfault hrest happend hchannel =>
      refine h.update hinput houtput rfl rfl rfl (fun _ => ?_) fun _ hpending => ?_
      · exact polling_of_orEvents (by decide) hchannel
      · exact hpending.append h.output happend hchannel
    | nothing hstate => exact h
    | buffered tasks outputBuffer channel hstate hwriting hlen happend hchannel =>
      refine h.update hinput houtput rfl rfl rfl (fun _ => ?_) fun _ hpending => ?_
      · exact polling_of_orEvents (by decide) hchannel
      · exact hpending.append h.output happend hchannel
  | shutdown =>
    rw [shutdownInLoop]
    split
    · exact h.update h.input h.output rfl rfl rfl id fun _ => id
    · exact h
  | forceClose hstate => exact absurd rfl htask
  | forceCloseSkipped hstate => exact absurd rfl htask
  | stopRead channel hreading hchannel =>
    refine h.update hinput houtput rfl rfl rfl (fun _ => ?_) fun _ hpending => ?_
    · exact polling_of_orEvents (by decide) hchannel
    · exact ⟨Channel.isWriting_disableRead hchannel, hpending.2⟩
  | startRead channel hreading hchannel =>
    refine h.update hinput houtput rfl rfl rfl (fun _ => ?_) fun _ hpending => ?_
    · exact polling_of_orEvents (by decide) hchannel
    · exact ⟨(Channel.isWriting_enableRead hchannel).trans hpending.1, hpending.2⟩
  | stopReadSkipped hreading => exact h
  | startReadSkipped hreading => exact h
  | writeCompleteCallback => exact h
  | highWaterMarkCallback len => exact h

/-- The first callback keeps the invariant of the others. -/
theorem Underway.callback {c : Connection} {cb : Callback} {rest : List Callback}
    (h : Underway base pending c (cb :: rest)) {io : Io} {r : Connection × List Task}
    (hr : Executed c io (.callback cb) r) : Underway base pending r.1 rest := by
  have hinput := hr.wf_input h.input
  have houtput := hr.wf_output h.output
  cases hr with
  | close hstate =>
    have hopen : c.state ≠ .kDisconnected := by
      rcases hstate with hstate | hstate <;> simp [hstate]
    exact h.close (Or.inl rfl) hopen h.input h.output rfl
  | error => exact h.rest.update hinput houtput rfl rfl rfl id fun _ => id
  | read hr =>
    cases hr with
    | failed hstate => exact h.rest.update hinput houtput rfl rfl rfl id fun _ => id
    | closed n inputBuffer hstate hread =>
      exact h.close (d := { c with inputBuffer := inputBuffer }.record (.readv io.read))
        (Or.inr rfl) hstate hinput houtput rfl
    | data n inputBuffer hstate hread =>
      exact h.rest.update hinput houtput rfl rfl rfl id fun _ => id
  | write hr =>
    -- the write callback is called once, so nothing is asked of it afterwards
    have honce : .write ∉ rest := fun hmem =>
      ((List.pairwise_cons.mp h.order).1 _ hmem).1 rfl
    cases hr with
    | disconnected hstate => exact h.rest
    | failed errno hstate =>
      exact h.rest.update hinput houtput rfl rfl rfl id fun _ => id
    | partly outputBuffer hstate =>
      exact h.rest.update hinput houtput rfl rfl rfl id fun hmem => absurd hmem honce
    | drained tasks outputBuffer channel hstate hreadable hwriting hretrieve hempty hchannel =>
      refine h.rest.update hinput houtput rfl rfl rfl (fun _ => ?_) fun hmem => absurd hmem honce
      exact polling_of_orEvents (by decide) hchannel

/-! ## What can stop a dispatch -/

/-- The assertions of `handleRead` and `handleClose`, and the one that
`handleClose` can fail in `disableAll`. -/
def CloseAssertion (e : Abort) : Prop :=
  e = .assertion .handleRead ∨ e = .assertion .handleClose ∨ e = .assertion .updateChannel

instance (e : Abort) : Decidable (CloseAssertion e) := inferInstanceAs (Decidable (_ ∨ _ ∨ _))

theorem not_closeAssertion_of_refused {e : Abort} (h : Refused e) : ¬ CloseAssertion e := by
  rw [h]
  decide

/-- A registered connection that is open can be closed. -/
theorem handleClose_ne_error {c : Connection} {e : Abort} (hestablished : c.state ≠ .kConnecting)
    (hopen : c.state ≠ .kDisconnected) (hpolling : c.channel.polling = true) :
    c.handleClose ≠ .error e := by
  intro he
  rcases handleClose_error he with ⟨_, hstate⟩ | ⟨_, hnot⟩
  · cases hc : c.state with
    | kConnecting => exact hestablished hc
    | kConnected => exact hstate (Or.inl hc)
    | kDisconnecting => exact hstate (Or.inr hc)
    | kDisconnected => exact hopen hc
  · rw [hpolling] at hnot
    cases hnot

/-- The first callback only fails because a buffer cannot grow, or, with no
pending output, in the assertions of `handleWrite`. -/
theorem Underway.callback_error {c : Connection} {cb : Callback} {rest : List Callback}
    (h : Underway base pending c (cb :: rest)) {io : Io} {e : Abort}
    (he : c.execute io (.callback cb) = .error e) :
    Refused e ∨ (¬ pending ∧ ¬ CloseAssertion e) := by
  have hopen : MayClose cb → c.state ≠ .kDisconnected := fun hcb hstate =>
    (h.closed hstate).1 cb List.mem_cons_self hcb
  cases cb with
  | close =>
    have hstate := hopen (Or.inl rfl)
    exact absurd he (handleClose_ne_error h.established hstate (h.opened hstate).1)
  | error => cases he
  | read =>
    have hstate := hopen (Or.inr rfl)
    rcases handleRead_error h.input he with ⟨_, hclosed⟩ | hrefused | ⟨d, hsame, hchannel, hd⟩
    · exact absurd hclosed hstate
    · exact Or.inl hrefused
    · rw [← hsame] at hstate
      have hestablished := h.established
      have hpolling := (h.opened (by rwa [hsame] at hstate)).1
      rw [← hsame] at hestablished
      rw [← hchannel] at hpolling
      exact absurd hd (handleClose_ne_error hestablished hstate hpolling)
  | write =>
    obtain ⟨hstate, hassertion⟩ := handleWrite_error h.output he
    refine Or.inr ⟨fun hp => ?_, ?_⟩
    · obtain ⟨hwriting, hreadable⟩ := h.pending hp hstate List.mem_cons_self
      rcases hassertion with ⟨_, hempty⟩ | ⟨_, hidle⟩
      · omega
      · rw [hwriting] at hidle
        cases hidle
    · rcases hassertion with ⟨rfl, _⟩ | ⟨rfl, _⟩ <;> decide

/-- No closure of the user's calls fails these assertions. -/
theorem Underway.task_error {c : Connection} {todo : List Callback}
    (h : Underway base pending c todo) {io : Io} {task : Task} {e : Abort}
    (htask : task ≠ .forceCloseInLoop) (he : c.execute io (.task task) = .error e) :
    ¬ CloseAssertion e := by
  cases task with
  | sendInLoop message =>
    rcases sendInLoop_error h.output he with ⟨rfl, _⟩ | hrefused
    · decide
    · exact not_closeAssertion_of_refused hrefused
  | forceCloseInLoop => exact absurd rfl htask
  | stopRead =>
    rw [execute, stopReadInLoop] at he
    split at he
    · rw [Channel.disableRead, Channel.orEvents_eq (by decide)] at he
      cases he
    · cases he
  | startRead =>
    rw [execute, startReadInLoop] at he
    split at he
    · rw [Channel.enableRead, Channel.orEvents_eq (by decide)] at he
      cases he
    · cases he
  | shutdownInLoop => cases he
  | writeCompleteCallback => cases he
  | highWaterMarkCallback len => cases he

/-! ## Reading and writing the socket -/

/-- The reads and writes of the socket so far. -/
def transfers (c : Connection) : List Syscall := c.syscalls.filter Syscall.isTransfer

/-- Behind a close the callbacks that are left move no bytes. -/
theorem Underway.transfers {c : Connection} {cb : Callback} {rest : List Callback}
    (h : Underway base pending c (cb :: rest)) (hclosed : base.closes < c.closes) {io : Io}
    {r : Connection × List Task} (hr : Executed c io (.callback cb) r) :
    r.1.transfers = c.transfers := by
  have hstate : c.state = .kDisconnected := by
    by_contra hopen
    have hcloses := (h.opened hopen).2.1
    omega
  have hnot := (h.closed hstate).1 cb List.mem_cons_self
  cases hr with
  | close hopen => exact absurd (Or.inl rfl) hnot
  | read hr => exact absurd (Or.inr rfl) hnot
  | error =>
    rw [Connection.transfers, handleError, record, List.filter_append]
    exact List.append_nil _
  | write hr =>
    cases hr with
    | disconnected _ => rfl
    | failed errno hopen => exact absurd hstate hopen
    | partly outputBuffer hopen => exact absurd hstate hopen
    | drained tasks outputBuffer channel hopen => exact absurd hstate hopen

end Connection

/-! ## Actions of a dispatch -/

/-- The loop calls a callback of the channel. -/
def Action.isHandler : Action → Bool
  | .loop (.handleEvents _) => true
  | _ => false

/-- The action can fall into a dispatch: the loop calls the next callback, or
some thread makes a public call, or user code runs. -/
def Action.duringDispatch : Action → Bool
  | .loop (.handleEvents _) | .call _ _ | .resume _ _ | .user _ => true
  | .loop _ => false

/-- The action belongs to the call of `handleEvents` itself: the loop calls the
next callback, or user code runs on the loop thread. -/
def Action.onLoopThread : Action → Bool
  | .loop (.handleEvents _) | .call .loop _ | .resume .loop _ | .user _ => true
  | _ => false

theorem Action.duringDispatch_of_onLoopThread {a : Action} (h : a.onLoopThread = true) :
    a.duringDispatch = true := by
  cases a with
  | loop a =>
    cases a with
    | handleEvents io => rfl
    | _ => cases h
  | _ => rfl

namespace World

/-- The call of `Channel::handleEvents` that is about to call the first
callback in `w` is safe.  Nothing in it fails the assertions of `handleRead` and
`handleClose`; when write events come only with pending output, its handlers run
to their ends unless a buffer cannot grow; the close callback is called at most
once; and after a close no handler reads or writes the socket. -/
structure DispatchSafe (w : World) (body : List Action) : Prop where
  unfailing : Along step
    (fun u a => (u.step a).Stops fun e => ¬ Connection.CloseAssertion e) w body
  finishes : (.write ∈ w.todo → w.conn.Pending) → Along step
    (fun u a => a.isHandler = true → (u.step a).Stops Refused) w body
  closesOnce : Throughout step
    (fun u => u.conn.closeCallbacks ≤ w.conn.closeCallbacks + 1) w body
  quiet : Along step (fun u a => w.conn.closes < u.conn.closes → a.isHandler = true →
    (u.step a).Leads fun t => t.conn.transfers = u.conn.transfers) w body

/-! ## One step of a dispatch -/

/-- The invariant of a dispatch. -/
structure DispatchInv (base : Connection) (pending : Prop) (w : World) : Prop where
  conn : Connection.Underway base pending w.conn w.todo
  phase : w.phase = .dispatch w.todo
  handing : ∀ task, w.calls .loop = .handing task → task ≠ .forceCloseInLoop

variable {base : Connection} {pending : Prop}

/-- What a call hands to `runInLoop` is never `forceCloseInLoop`. -/
theorem handing_goto {w : World}
    (h : ∀ task, w.calls .loop = .handing task → task ≠ .forceCloseInLoop) (t : Thread)
    {progress : Progress}
    (hp : ∀ task, progress = .handing task → task ≠ .forceCloseInLoop) :
    ∀ task, (w.goto t progress).calls .loop = .handing task → task ≠ .forceCloseInLoop := by
  intro task hcall
  by_cases ht : t = .loop
  · subst ht
    rw [calls_goto_self] at hcall
    exact hp task hcall
  · rw [calls_goto_of_ne _ (fun heq => ht heq.symm)] at hcall
    exact h task hcall

/-- An exchange that is not late keeps the invariant. -/
theorem DispatchInv.exchange {w : World} (hw : w.DispatchInv base pending)
    (hopen : w.conn.state ≠ .kDisconnected) (t : Thread) {progress : Progress}
    (hp : ∀ task, progress = .handing task → task ≠ .forceCloseInLoop) :
    ((w.setState .kDisconnecting).goto t progress).DispatchInv base pending := by
  obtain ⟨hpolling, hcounts⟩ := hw.conn.opened hopen
  refine ⟨⟨hw.conn.input, hw.conn.output, ?_, hw.conn.order, fun _ => ⟨hpolling, hcounts⟩, ?_,
    fun h _ => hw.conn.pending h hopen⟩, hw.phase, handing_goto (w := w) hw.handing t hp⟩
  · intro hstate
    cases hstate
  · intro hstate
    cases hstate

/-- **One step of a dispatch.**  Unless an exchange falls behind a close, the
invariant is kept. -/
theorem DispatchInv.step {w v : World} {a : Action} (hw : w.DispatchInv base pending)
    (hduring : a.duringDispatch = true) (hgood : ¬ w.Revives a) (h : w.step a = .next v) :
    v.DispatchInv base pending := by
  have hinput := wf_input_of_step hw.conn.input h
  have hended : ∀ t task, (w.goto t .idle).calls .loop = .handing task →
      task ≠ .forceCloseInLoop := fun t => handing_goto hw.handing t (by simp)
  cases step_cases h with
  | poll revents hphase => cases hduring
  | swap hphase => cases hduring
  | runTask task rest io r hidle hphase => cases hduring
  | endRound hphase hbatch => cases hduring
  | handleEvents cb rest io r hidle hphase hrun =>
    have hconn := hw.conn
    rw [todo, hphase] at hconn
    exact ⟨hconn.callback (Connection.execute_cases hrun), rfl, hw.handing⟩
  | sendRefused t data hstate => exact hw
  | forceCloseRefused t hstate => exact hw
  | send t data huser hstate =>
    exact ⟨hw.conn, hw.phase, handing_goto hw.handing t (by simp)⟩
  | shutdown t huser hstate => exact ⟨hw.conn, hw.phase, handing_goto hw.handing t (by simp)⟩
  | forceClose t huser hstate => exact ⟨hw.conn, hw.phase, handing_goto hw.handing t (by simp)⟩
  | stopRead t huser => exact ⟨hw.conn, hw.phase, handing_goto hw.handing t (by simp)⟩
  | startRead t huser => exact ⟨hw.conn, hw.phase, handing_goto hw.handing t (by simp)⟩
  | runHere task io r hcall hrun =>
    exact ⟨hw.conn.task (hw.handing task hcall) (Connection.execute_cases hrun), hw.phase,
      hended .loop⟩
  | queueHere i task io hcall => exact ⟨hw.conn, hw.phase, hended (.worker i)⟩
  | queue t task io hcall => exact ⟨hw.conn, hw.phase, hended t⟩
  | shutdownMoved t io hcall hstate =>
    exact hw.exchange (by rw [hstate]; simp) t (by simp)
  | shutdownLate t io hcall hstate =>
    exact hw.exchange (fun hclosed => hgood ⟨Or.inl hcall, hclosed⟩) t (by simp)
  | forceCloseMoved t io hcall hstate => exact hw.exchange hstate t (by simp)
  | forceCloseLate t io hcall hstate => exact absurd ⟨Or.inr hcall, hstate⟩ hgood
  | retrieve len inputBuffer hretrieve =>
    exact ⟨hw.conn.update hinput hw.conn.output rfl rfl rfl id fun _ => id, hw.phase, hw.handing⟩
  | set settings =>
    exact ⟨hw.conn.update hinput hw.conn.output rfl rfl rfl id fun _ => id, hw.phase, hw.handing⟩

/-- A job of the dispatch is the first callback or a closure of a user's call. -/
theorem DispatchInv.jobOf {w : World} {a : Action} (hw : w.DispatchInv base pending)
    (hduring : a.duringDispatch = true) {job : Connection.Job} {io : Io}
    (h : w.jobOf a = some (job, io)) :
    (∃ cb rest, w.todo = cb :: rest ∧ job = .callback cb) ∨
      (∃ task, job = .task task ∧ task ≠ .forceCloseInLoop ∧ a.isHandler = false) := by
  cases jobFrom_of_jobOf h with
  | channel cb rest hidle hphase => exact Or.inl ⟨cb, rest, by rw [todo, hphase], rfl⟩
  | queue task rest hidle hphase hbatch => cases hduring
  | call task hcall => exact Or.inr ⟨task, rfl, hw.handing task hcall, rfl⟩

theorem DispatchInv.unfailing {w : World} {a : Action} (hw : w.DispatchInv base pending)
    (hduring : a.duringDispatch = true) :
    (w.step a).Stops fun e => ¬ Connection.CloseAssertion e := by
  rw [Outcome.stops_iff]
  intro e he
  rcases step_eq_abort he with ⟨job, io, hjob, hrun⟩ | rfl | rfl
  · rcases hw.jobOf hduring hjob with ⟨cb, rest, htodo, rfl⟩ | ⟨task, rfl, htask, _⟩
    · have hconn := hw.conn
      rw [htodo] at hconn
      rcases hconn.callback_error hrun with hrefused | ⟨_, hnot⟩
      · exact Connection.not_closeAssertion_of_refused hrefused
      · exact hnot
    · exact hw.conn.task_error htask hrun
  · decide
  · decide

theorem DispatchInv.finishes {w : World} {a : Action} (hw : w.DispatchInv base pending)
    (hp : pending) (hhandler : a.isHandler = true) : (w.step a).Stops Refused := by
  rw [Outcome.stops_iff]
  intro e he
  cases a with
  | loop a =>
    cases a with
    | handleEvents io =>
      rw [World.step] at he
      split at he
      · rw [roundStep, hw.phase] at he
        have hconn := hw.conn
        cases htodo : w.todo with
        | nil =>
          rw [htodo] at he
          cases he
        | cons cb rest =>
          rw [htodo] at he hconn
          have hrun := runJob_eq_abort.mp he
          rcases hconn.callback_error hrun with hrefused | ⟨hnot, _⟩
          · exact hrefused
          · exact absurd hp hnot
      · cases he
    | _ => cases hhandler
  | _ => cases hhandler

theorem DispatchInv.quiet {w : World} {a : Action} (hw : w.DispatchInv base pending)
    (hclosed : base.closes < w.conn.closes) (hhandler : a.isHandler = true) :
    (w.step a).Leads fun v => v.conn.transfers = w.conn.transfers := by
  rw [Outcome.leads_iff]
  intro v h
  cases step_cases h with
  | handleEvents cb rest io r hidle hphase hrun =>
    have hconn := hw.conn
    rw [todo, hphase] at hconn
    exact hconn.transfers hclosed (Connection.execute_cases hrun)
  | _ => cases hhandler

/-! ## Which threads revive a connection -/

/-- The loop thread is not about to exchange the state of a closed
connection. -/
def LoopChecked (w : World) : Prop := w.Exchanges .loop → w.conn.state ≠ .kDisconnected

theorem LoopChecked.not_revives {w : World} {a : Action} (hw : w.LoopChecked)
    (ha : a.onLoopThread = true) : ¬ w.Revives a := by
  intro h
  cases a with
  | resume t io =>
    cases t with
    | loop => exact hw h.1 h.2
    | worker i => cases ha
  | loop a => exact h
  | call t c => exact h
  | user a => exact h

theorem loopChecked_of_calls {w : World} {progress : Progress}
    (hcall : w.calls .loop = progress) (hshutdown : progress ≠ .shutdownChecked)
    (hforce : progress ≠ .forceCloseChecked) : w.LoopChecked := by
  rintro (h | h)
  · exact absurd (hcall.symm.trans h) hshutdown
  · exact absurd (hcall.symm.trans h) hforce

/-- Only the loop closes, and not while its thread is in a call: user code on
the loop thread does not revive a connection. -/
theorem LoopChecked.step {w v : World} {a : Action} (hw : w.LoopChecked)
    (ha : a.onLoopThread = true) (h : w.step a = .next v) : v.LoopChecked := by
  cases step_cases h with
  | poll revents hphase => cases ha
  | swap hphase => cases ha
  | runTask task rest io r hidle hphase => cases ha
  | endRound hphase hbatch => cases ha
  | handleEvents cb rest io r hidle hphase hrun =>
    exact loopChecked_of_calls hidle (by simp) (by simp)
  | sendRefused t data hstate => exact hw
  | forceCloseRefused t hstate => exact hw
  | send t data huser hstate =>
    intro _ hclosed
    have hsame : w.conn.state = .kDisconnected := hclosed
    rw [hstate] at hsame
    cases hsame
  | shutdown t huser hstate => exact fun _ => hstate
  | forceClose t huser hstate => exact fun _ => hstate
  | stopRead t huser =>
    cases t with
    | loop => exact loopChecked_of_calls (calls_goto_self w .loop _) (by simp) (by simp)
    | worker i => cases ha
  | startRead t huser =>
    cases t with
    | loop => exact loopChecked_of_calls (calls_goto_self w .loop _) (by simp) (by simp)
    | worker i => cases ha
  | runHere task io r hcall hrun =>
    exact loopChecked_of_calls (calls_goto_self w .loop .idle) (by simp) (by simp)
  | queueHere i task io hcall => cases ha
  | queue t task io hcall =>
    cases t with
    | loop => exact loopChecked_of_calls (calls_goto_self w .loop .idle) (by simp) (by simp)
    | worker i => cases ha
  | shutdownMoved t io hcall hstate => exact fun _ hclosed => by cases hclosed
  | shutdownLate t io hcall hstate => exact fun _ hclosed => by cases hclosed
  | forceCloseMoved t io hcall hstate => exact fun _ hclosed => by cases hclosed
  | forceCloseLate t io hcall hstate => exact fun _ hclosed => by cases hclosed
  | retrieve len inputBuffer hretrieve => exact hw
  | set settings => exact hw

/-! ## Where a dispatch begins -/

/-- What every reachable connection is. -/
structure Standing (w : World) : Prop where
  input : w.conn.inputBuffer.WF
  output : w.conn.outputBuffer.WF
  established : w.conn.state ≠ .kConnecting

theorem Standing.step {w v : World} {a : Action} (hw : w.Standing) (h : w.step a = .next v) :
    v.Standing := by
  refine ⟨wf_input_of_step hw.input h, wf_output_of_step hw.output h, ?_⟩
  cases closingStep_of_step h with
  | same hstate => rw [hstate]; exact hw.established
  | exchange t io ha hcall hconn => rw [hconn]; simp
  | close hopen hstate => rw [hstate]; simp

theorem standing_of_run {settings : Settings} {actions : List Action} {w : World}
    (h : run step (start settings) actions = some w) : w.Standing := by
  have hstart : (start settings).Standing :=
    ⟨Connection.wf_freshBuffer, Connection.wf_freshBuffer, by simp [start, Connection.established]⟩
  have hall := throughout_of_invariant step hstart (fun _ _ _ hw hstep => hw.step hstep) actions
  exact throughout_iff_run.mp hall actions w List.prefix_rfl h

theorem poll_eq_next {w v : World} {revents : Mask}
    (h : w.step (.loop (.poll revents)) = .next v) :
    w.calls .loop = .idle ∧ v = { w with phase := .dispatch (handleEventsWithGuard revents) } := by
  rw [step] at h
  split at h
  · rename_i hidle
    rw [roundStep] at h
    split at h
    · exact ⟨hidle, (Outcome.next.inj h).symm⟩
    · cases h
  · cases h

theorem dispatchInv_of_poll {w v : World} {revents : Mask} (hw : w.Standing)
    (hopen : w.conn.state ≠ .kDisconnected) (hregistered : w.conn.channel.polling = true)
    (hmask : ¬ ClosesThenReads revents) (hpoll : w.step (.loop (.poll revents)) = .next v) :
    v.DispatchInv v.conn (.write ∈ v.todo → v.conn.Pending) := by
  obtain ⟨hidle, rfl⟩ := poll_eq_next hpoll
  refine ⟨⟨hw.input, hw.output, hw.established, pairwise_handleEventsWithGuard hmask, ?_, ?_, ?_⟩,
    rfl, ?_⟩
  · exact fun _ => ⟨hregistered, rfl, rfl⟩
  · exact fun hclosed => absurd hclosed hopen
  · exact fun hpending _ hwrite => hpending hwrite
  · intro task hcall
    rw [show _ = Progress.idle from hidle] at hcall
    cases hcall

/-! ## Whole dispatches -/

/-- A dispatch whose mask does not call both callbacks that may close is safe,
whatever every thread does meanwhile, as long as no exchange falls behind a
close. -/
theorem dispatchSafe_of_not_revives {w v : World} {revents : Mask} (hw : w.Standing)
    (hopen : w.conn.state ≠ .kDisconnected) (hregistered : w.conn.channel.polling = true)
    (hmask : ¬ ClosesThenReads revents) (hpoll : w.step (.loop (.poll revents)) = .next v)
    {body : List Action} (hbody : ∀ a ∈ body, a.duringDispatch = true)
    (hgood : Along step (fun u a => ¬ u.Revives a) v body) : v.DispatchSafe body := by
  have hinit := dispatchInv_of_poll hw hopen hregistered hmask hpoll
  have halong := (along_of_forall hbody v).and hgood
  have hinv := throughout_of_along hinit (fun _ _ _ hu hstep => hu.step hstep.1 hstep.2) halong
  refine ⟨?_, fun hpending => ?_, hinv.mono fun u hu => ?_, ?_⟩
  · exact along_of_along hinit (fun _ _ _ hu hstep => hu.step hstep.1 hstep.2)
      (fun u a hu hstep => hu.unfailing hstep.1) halong
  · apply hinv.along
    intro u a hu hhandler
    exact hu.finishes hpending hhandler
  · by_cases hstate : u.conn.state = .kDisconnected
    · exact (hu.conn.closed hstate).2
    · rw [(hu.conn.opened hstate).2.2]
      exact Nat.le_succ _
  · apply hinv.along
    intro u a hu hclosed hhandler
    exact hu.quiet hclosed hhandler

/-- User code on the loop thread is not one of the things that can go wrong. -/
theorem not_revives_of_onLoopThread {w v : World} {revents : Mask}
    (hpoll : w.step (.loop (.poll revents)) = .next v) {body : List Action}
    (hbody : ∀ a ∈ body, a.onLoopThread = true) :
    Along step (fun u a => ¬ u.Revives a) v body := by
  obtain ⟨hidle, rfl⟩ := poll_eq_next hpoll
  refine along_of_along (I := LoopChecked) ?_ (fun _ _ _ hu ha hstep => hu.step ha hstep)
    (fun _ _ hu ha => hu.not_revives ha) (along_of_forall hbody _)
  exact loopChecked_of_calls hidle (by simp) (by simp)

/-- An open, registered connection is closed by the close callback. -/
theorem step_close {w : World} {rest : List Callback} (hw : w.Standing)
    (hopen : w.conn.state ≠ .kDisconnected) (hregistered : w.conn.channel.polling = true)
    (hidle : w.calls .loop = .idle) (hphase : w.phase = .dispatch (.close :: rest)) (io : Io) :
    ∃ v, w.step (.loop (.handleEvents io)) = .next v ∧ v.calls .loop = .idle ∧
      v.phase = .dispatch rest ∧ v.conn.state = .kDisconnected := by
  have hrun : w.conn.execute io (.callback .close) = .ok (w.conn.closed, []) := by
    cases h : w.conn.handleClose with
    | error e =>
      exact absurd h (Connection.handleClose_ne_error hw.established hopen hregistered)
    | ok r =>
      rw [Connection.execute, h, (Connection.handleClose_cases h).2]
  refine ⟨{ w with phase := .dispatch rest }.after (.callback .close) (w.conn.closed, []), ?_,
    hidle, rfl, rfl⟩
  rw [step, if_pos hidle, roundStep, hphase]
  exact runJob_eq_next.mpr ⟨_, hrun, rfl⟩

theorem step_error {w : World} {rest : List Callback} (hidle : w.calls .loop = .idle)
    (hphase : w.phase = .dispatch (.error :: rest)) (io : Io) :
    ∃ v, w.step (.loop (.handleEvents io)) = .next v ∧ v.calls .loop = .idle ∧
      v.phase = .dispatch rest ∧ v.conn.state = w.conn.state := by
  refine ⟨{ w with phase := .dispatch rest }.after (.callback .error) (w.conn.handleError, []), ?_,
    hidle, rfl, rfl⟩
  rw [step, if_pos hidle, roundStep, hphase]
  exact runJob_eq_next.mpr ⟨_, rfl, rfl⟩

/-- The read callback of a closed connection fails the assertion of
`handleRead`. -/
theorem step_read_of_disconnected {w : World} {rest : List Callback}
    (hidle : w.calls .loop = .idle) (hphase : w.phase = .dispatch (.read :: rest))
    (hclosed : w.conn.state = .kDisconnected) (io : Io) :
    w.step (.loop (.handleEvents io)) = .abort (.assertion .handleRead) := by
  rw [step, if_pos hidle, roundStep, hphase]
  refine runJob_eq_abort.mpr ?_
  rw [Connection.execute, Connection.handleRead, require_error (by simp [hclosed])]
  rfl

theorem not_dispatchSafe_of_closesThenReads {w v : World} {revents : Mask} (hw : w.Standing)
    (hopen : w.conn.state ≠ .kDisconnected) (hregistered : w.conn.channel.polling = true)
    (hmask : ClosesThenReads revents) (hpoll : w.step (.loop (.poll revents)) = .next v) (io : Io) :
    ∃ n, ¬ v.DispatchSafe (List.replicate n (.loop (.handleEvents io))) := by
  have hread : ∀ (u : World) (rest : List Callback), u.calls .loop = .idle →
      u.phase = .dispatch (.read :: rest) → u.conn.state = .kDisconnected →
      ¬ (u.step (.loop (.handleEvents io))).Stops fun e => ¬ Connection.CloseAssertion e := by
    intro u rest hidle hphase hclosed
    rw [step_read_of_disconnected hidle hphase hclosed]
    exact fun h => h (Or.inl rfl)
  obtain ⟨hidle, rfl⟩ := poll_eq_next hpoll
  obtain ⟨rest, hcallbacks | hcallbacks⟩ := handleEventsWithGuard_of_closesThenReads hmask
  · obtain ⟨u, hu, huidle, huphase, huclosed⟩ := step_close
      (w := { w with phase := .dispatch (handleEventsWithGuard revents) })
      ⟨hw.input, hw.output, hw.established⟩ hopen hregistered hidle (by rw [hcallbacks]) io
    refine ⟨2, fun hsafe => ?_⟩
    exact hread u rest huidle huphase huclosed (along_tail hsafe.unfailing hu).1
  · obtain ⟨u, hu, huidle, huphase, huclosed⟩ := step_close
      (w := { w with phase := .dispatch (handleEventsWithGuard revents) })
      ⟨hw.input, hw.output, hw.established⟩ hopen hregistered hidle (by rw [hcallbacks]) io
    obtain ⟨t, ht, htidle, htphase, htstate⟩ := step_error huidle huphase io
    refine ⟨3, fun hsafe => ?_⟩
    exact hread t rest htidle htphase (htstate.trans huclosed)
      (along_tail (along_tail hsafe.unfailing hu) ht).1

/-- **Which event masks are safe.**  For every reachable connection that is open
and registered, and every mask: the dispatch of the mask is safe for all results
of the system calls and all user code, if and only if the mask does not hold
`EPOLLHUP` without `EPOLLIN` but with `EPOLLPRI` or `EPOLLRDHUP`.  Then it is
safe as well with any steps of other threads in between, as long as no exchange
of `m_state` falls behind a close. -/
theorem dispatch_safe_iff (settings : Settings) {actions : List Action} {w v : World}
    {revents : Mask} (hreached : run step (start settings) actions = some w)
    (hopen : w.conn.state ≠ .kDisconnected) (hregistered : w.conn.channel.polling = true)
    (hpoll : w.step (.loop (.poll revents)) = .next v) :
    ((∀ body : List Action, (∀ a ∈ body, a.onLoopThread = true) → v.DispatchSafe body) ↔
        ¬ ClosesThenReads revents) ∧
      (¬ ClosesThenReads revents → ∀ body : List Action,
        (∀ a ∈ body, a.duringDispatch = true) → Along step (fun u a => ¬ u.Revives a) v body →
          v.DispatchSafe body) := by
  have hw := standing_of_run hreached
  refine ⟨⟨fun h hmask => ?_, fun hmask body hbody => ?_⟩, fun hmask body hbody hgood => ?_⟩
  · obtain ⟨n, hnot⟩ := not_dispatchSafe_of_closesThenReads hw hopen hregistered hmask hpoll
      ⟨.fail 0, .fail 0⟩
    refine hnot (h _ fun a ha => ?_)
    rw [List.eq_of_mem_replicate ha]
    rfl
  · exact dispatchSafe_of_not_revives hw hopen hregistered hmask hpoll
      (fun a ha => Action.duringDispatch_of_onLoopThread (hbody a ha))
      (not_revives_of_onLoopThread hpoll hbody)
  · exact dispatchSafe_of_not_revives hw hopen hregistered hmask hpoll hbody hgood

/-- The established connection, when its loop polls for the first time. -/
def firstPoll : World :=
  { start ⟨false, true, false, 0⟩ with queue := BatchQueue.empty.swap, phase := .polling }

/-- The first event is that the peer has closed its end. -/
theorem dispatch_safe_endOfFile :
    run step (start ⟨false, true, false, 0⟩) [.loop .swap, .loop .endRound] = some firstPoll ∧
      ∀ body : List Action, (∀ a ∈ body, a.onLoopThread = true) →
        { firstPoll with phase := .dispatch [.read] }.DispatchSafe body := by
  have hrun : run step (start ⟨false, true, false, 0⟩) [.loop .swap, .loop .endRound] =
      some firstPoll := rfl
  have hpoll : firstPoll.step (.loop (.poll (epollIn ||| epollRdHup))) =
      .next { firstPoll with phase := .dispatch [.read] } := rfl
  exact ⟨hrun, (dispatch_safe_iff _ hrun (by decide) rfl hpoll).1.mpr (by decide)⟩

/-- The first event is a hang-up together with urgent data. -/
def hangUpWithUrgentData : List Action :=
  [.loop .swap, .loop .endRound, .loop (.poll (epollHup ||| epollPri)),
    .loop (.handleEvents ⟨.fail 0, .fail 0⟩), .loop (.handleEvents ⟨.fail 0, .fail 0⟩)]

/-- The second handler fails an assertion; the kernel may report this mask. -/
theorem not_dispatchSafe_hangUpWithUrgentData :
    ¬ Along stepReported
      (fun w a => (w.stepReported a).Stops fun e => ¬ Connection.CloseAssertion e)
      (start ⟨false, true, false, 0⟩) hangUpWithUrgentData := by
  decide +kernel

end World

end CppWeb.Tcp
