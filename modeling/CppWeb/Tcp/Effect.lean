/-
  Tcp/Effect.lean --- what a handler or closure can do to a connection.

  For each function of `Tcp/Connection.lean` that runs on the loop, the ways it
  can end other than by stopping the program: the guards that were passed, what
  the buffer and the channel answered, and the state and tasks that result.
  Every later proof about the connection goes by cases on these and does not
  look into the functions again.
-/
import CppWeb.Tcp.Connection

set_option autoImplicit false

namespace CppWeb.Tcp.Connection

open CppWeb.Foundation CppWeb.Loop CppWeb.Poll

/-! ## sendInLoop -/

/-- The ways `sendInLoop` can end. -/
inductive SendEffect (c : Connection) (io : WriteResult) (message : Bytes) :
    Connection × List Task → Prop where
  /-- given up, because the connection is closed -/
  | disconnected (hstate : c.state = .kDisconnected) : SendEffect c io message (c, [])
  /-- written at once, or given up because of the error -/
  | direct (tasks : List Task) (hstate : c.state ≠ .kDisconnected)
      (hidle : c.channel.isWriting = false) (hempty : c.outputBuffer.readableBytes = 0)
      (hdone : io.isFault = true ∨ io.taken message.length = message.length)
      (htasks : ∀ t ∈ tasks, t.IsNotification) :
      SendEffect c io message (c.record (.write message.data io), tasks)
  /-- written in part, the rest appended to the empty buffer -/
  | directRest (tasks : List Task) (outputBuffer : Buffer) (channel : Channel)
      (hstate : c.state ≠ .kDisconnected)
      (hidle : c.channel.isWriting = false) (hempty : c.outputBuffer.readableBytes = 0)
      (hfault : io.isFault = false) (hrest : io.taken message.length < message.length)
      (happend : c.outputBuffer.append (message.drop (io.taken message.length)) =
        .ok outputBuffer)
      (hchannel : c.channel.enableWrite = .ok channel)
      (htasks : ∀ t ∈ tasks, t.IsNotification) :
      SendEffect c io message
        ({ c.record (.write message.data io) with
            outputBuffer := outputBuffer, channel := channel }, tasks)
  /-- an empty message while a write is pending -/
  | nothing (hstate : c.state ≠ .kDisconnected) (hwriting : c.channel.isWriting = true)
      (hlen : message.length = 0) : SendEffect c io message (c, [])
  /-- appended to what is already waiting -/
  | buffered (tasks : List Task) (outputBuffer : Buffer) (channel : Channel)
      (hstate : c.state ≠ .kDisconnected) (hwriting : c.channel.isWriting = true)
      (hlen : 0 < message.length)
      (happend : c.outputBuffer.append message = .ok outputBuffer)
      (hchannel : c.channel.enableWrite = .ok channel)
      (htasks : ∀ t ∈ tasks, t.IsNotification) :
      SendEffect c io message
        ({ c with outputBuffer := outputBuffer, channel := channel }, tasks)

/-- The first half of `sendInLoop`. -/
theorem writeAtOnce_cases {c : Connection} {io : WriteResult} {message : Bytes}
    {r : Connection × Nat × Bool × List Task} (h : c.writeAtOnce io message = .ok r) :
    (c.channel.isWriting = true ∧ r = (c, 0, false, [])) ∨
    (c.channel.isWriting = false ∧ c.outputBuffer.readableBytes = 0 ∧
      ∃ tasks, (∀ t ∈ tasks, t.IsNotification) ∧
        r = (c.record (.write message.data io), io.taken message.length, io.isFault, tasks)) := by
  rw [writeAtOnce] at h
  split at h
  · rename_i hwriting
    rw [Bool.not_eq_true'] at hwriting
    rw [bind_eq_ok] at h
    obtain ⟨_, hempty, h⟩ := h
    refine Or.inr ⟨hwriting, require_eq_ok.mp hempty, ?_⟩
    dsimp only at h
    split at h
    · rw [Except.ok.injEq] at h
      exact ⟨[], by simp, h.symm⟩
    · rw [Except.ok.injEq] at h
      refine ⟨_, fun t ht => ?_, h.symm⟩
      split at ht
      · rw [List.mem_singleton.mp ht]
        trivial
      · exact absurd ht List.not_mem_nil
  · rename_i hwriting
    rw [Except.ok.injEq] at h
    refine Or.inl ⟨?_, h.symm⟩
    simpa using hwriting

/-- The second half of `sendInLoop`. -/
theorem bufferRest_eq_ok {c : Connection} {rest : Bytes} {r : Connection × List Task}
    (h : c.bufferRest rest = .ok r) :
    ∃ tasks outputBuffer channel, (∀ t ∈ tasks, t.IsNotification) ∧
      c.outputBuffer.append rest = .ok outputBuffer ∧
      c.channel.enableWrite = .ok channel ∧
      r = ({ c with outputBuffer := outputBuffer, channel := channel }, tasks) := by
  rw [bufferRest, bind_eq_ok] at h
  obtain ⟨outputBuffer, happend, h⟩ := h
  rw [bind_eq_ok] at h
  obtain ⟨channel, hchannel, h⟩ := h
  rw [Except.ok.injEq] at h
  refine ⟨_, outputBuffer, channel, fun t ht => ?_, happend, hchannel, h.symm⟩
  split at ht
  · rw [List.mem_singleton.mp ht]
    trivial
  · exact absurd ht List.not_mem_nil

theorem sendInLoop_cases {c : Connection} {io : WriteResult} {message : Bytes}
    {r : Connection × List Task} (h : c.sendInLoop io message = .ok r) :
    SendEffect c io message r := by
  rw [sendInLoop] at h
  split at h
  · rename_i hstate
    cases h
    exact .disconnected hstate
  · rename_i hstate
    rw [bind_eq_ok] at h
    obtain ⟨attempt, hattempt, h⟩ := h
    rcases writeAtOnce_cases hattempt with ⟨hwriting, rfl⟩ | ⟨hidle, hempty, tasks, htasks, rfl⟩
    · dsimp only at h
      split at h
      · rename_i hrest
        rw [bind_eq_ok] at h
        obtain ⟨r', hr', h⟩ := h
        obtain ⟨tasks, outputBuffer, channel, htasks, happend, hchannel, rfl⟩ :=
          bufferRest_eq_ok hr'
        cases h
        exact .buffered tasks outputBuffer channel hstate hwriting hrest.2 happend hchannel
          htasks
      · rename_i hrest
        cases h
        refine .nothing hstate hwriting ?_
        simpa using hrest
    · dsimp only at h
      split at h
      · rename_i hrest
        rw [bind_eq_ok] at h
        obtain ⟨r', hr', h⟩ := h
        obtain ⟨tasks', outputBuffer, channel, htasks', happend, hchannel, rfl⟩ :=
          bufferRest_eq_ok hr'
        cases h
        refine .directRest _ outputBuffer channel hstate hidle hempty ?_ ?_ happend hchannel ?_
        · simpa using hrest.1
        · have hpos := hrest.2
          omega
        · intro t ht
          rcases List.mem_append.mp ht with ht | ht
          · exact htasks t ht
          · exact htasks' t ht
      · rename_i hrest
        cases h
        refine .direct tasks hstate hidle hempty ?_ htasks
        cases hfault : io.isFault with
        | true => exact Or.inl rfl
        | false =>
          refine Or.inr ?_
          have htaken : io.taken message.length ≤ message.length := by
            cases io with
            | accepted n => exact Nat.min_le_right _ _
            | fail errno => exact Nat.zero_le _
          simp only [hfault, Bool.not_false, true_and, gt_iff_lt, not_lt] at hrest
          omega

/-! ## handleWrite -/

/-- The ways `handleWrite` can end. -/
inductive WriteEffect (c : Connection) (io : WriteResult) : Connection × List Task → Prop where
  | disconnected (hstate : c.state = .kDisconnected) : WriteEffect c io (c, [])
  /-- the write failed, which is only logged -/
  | failed (errno : Nat) (hstate : c.state ≠ .kDisconnected)
      (hreadable : 0 < c.outputBuffer.readableBytes) (hwriting : c.channel.isWriting = true)
      (hio : io = .fail errno) :
      WriteEffect c io (c.record (.write c.outputBuffer.content io), [])
  | partly (outputBuffer : Buffer) (hstate : c.state ≠ .kDisconnected)
      (hreadable : 0 < c.outputBuffer.readableBytes) (hwriting : c.channel.isWriting = true)
      (hretrieve : c.outputBuffer.retrieve (io.taken c.outputBuffer.readableBytes) =
        .ok outputBuffer)
      (hrest : outputBuffer.readableBytes ≠ 0) :
      WriteEffect c io
        ({ c.record (.write c.outputBuffer.content io) with outputBuffer := outputBuffer }, [])
  /-- all of it written; the interest in write events is still there, so that
  `shutdownInLoop`, if it is called, does nothing -/
  | drained (tasks : List Task) (outputBuffer : Buffer) (channel : Channel)
      (hstate : c.state ≠ .kDisconnected)
      (hreadable : 0 < c.outputBuffer.readableBytes) (hwriting : c.channel.isWriting = true)
      (hretrieve : c.outputBuffer.retrieve (io.taken c.outputBuffer.readableBytes) =
        .ok outputBuffer)
      (hempty : outputBuffer.readableBytes = 0)
      (hchannel : c.channel.disableWrite = .ok channel) (hstill : channel.isWriting = true)
      (htasks : ∀ t ∈ tasks, t.IsNotification) :
      WriteEffect c io
        ({ c.record (.write c.outputBuffer.content io) with
            outputBuffer := outputBuffer, channel := channel }, tasks)

theorem shutdownInLoop_of_isWriting {c : Connection} (h : c.channel.isWriting = true) :
    c.shutdownInLoop = c := by
  simp [shutdownInLoop, h]

theorem handleWrite_cases {c : Connection} {io : WriteResult} {r : Connection × List Task}
    (h : c.handleWrite io = .ok r) : WriteEffect c io r := by
  rw [handleWrite] at h
  split at h
  · rename_i hstate
    cases h
    exact .disconnected hstate
  · rename_i hstate
    rw [bind_eq_ok] at h
    obtain ⟨_, hreadable, h⟩ := h
    rw [require_eq_ok] at hreadable
    rw [bind_eq_ok] at h
    obtain ⟨_, hwriting, h⟩ := h
    rw [require_eq_ok] at hwriting
    dsimp only at h
    split at h
    · rename_i errno
      cases h
      exact .failed errno hstate hreadable hwriting rfl
    · rw [bind_eq_ok] at h
      obtain ⟨outputBuffer, hretrieve, h⟩ := h
      split at h
      · rename_i hempty
        rw [bind_eq_ok] at h
        obtain ⟨channel, hchannel, h⟩ := h
        have hstill : channel.isWriting = true := by
          rw [Channel.isWriting_disableWrite hchannel, hwriting]
        rw [shutdownInLoop_of_isWriting hstill, ite_self] at h
        cases h
        refine .drained _ outputBuffer channel hstate hreadable hwriting hretrieve hempty
          hchannel hstill fun t ht => ?_
        split at ht
        · rw [List.mem_singleton.mp ht]
          trivial
        · exact absurd ht List.not_mem_nil
      · rename_i hrest
        cases h
        exact .partly outputBuffer hstate hreadable hwriting hretrieve hrest

/-! ## Closing and reading -/

/-- The connection after the body of `handleClose`. -/
def closed (c : Connection) : Connection :=
  { c with
    state := .kDisconnected
    channel := Channel.new
    closes := c.closes + 1
    closeCallbacks := if c.settings.closeCallback then c.closeCallbacks + 1
      else c.closeCallbacks }

theorem handleClose_cases {c : Connection} {r : Connection × List Task}
    (h : c.handleClose = .ok r) :
    (c.state = .kConnected ∨ c.state = .kDisconnecting) ∧ r = (c.closed, []) := by
  rw [handleClose, bind_eq_ok] at h
  obtain ⟨_, hstate, h⟩ := h
  rw [bind_eq_ok] at h
  obtain ⟨channel, hchannel, h⟩ := h
  rw [Channel.eq_new_of_disableAll hchannel] at h
  cases h
  exact ⟨require_eq_ok.mp hstate, rfl⟩

/-- The ways `handleRead` can end. -/
inductive ReadEffect (c : Connection) (io : ReadResult) : Connection × List Task → Prop where
  | failed (hstate : c.state ≠ .kDisconnected) :
      ReadEffect c io ((c.record (.readv io)).handleError, [])
  | closed (n : Int) (inputBuffer : Buffer) (hstate : c.state ≠ .kDisconnected)
      (hread : c.inputBuffer.readFd io = .ok (n, inputBuffer)) :
      ReadEffect c io
        (({ c with inputBuffer := inputBuffer }.record (.readv io)).closed, [])
  | data (n : Int) (inputBuffer : Buffer) (hstate : c.state ≠ .kDisconnected)
      (hread : c.inputBuffer.readFd io = .ok (n, inputBuffer)) :
      ReadEffect c io ({ c with inputBuffer := inputBuffer }.record (.readv io), [])

theorem readFd_eq_neg_one {b b' : Buffer} {io : ReadResult} (h : b.readFd io = .ok (-1, b')) :
    b' = b := by
  cases io with
  | fail errno =>
    cases h
    rfl
  | data bytes =>
    have hcount : ∀ n : Nat, (n : Int) ≠ -1 := fun n => by omega
    rw [Buffer.readFd, bind_eq_ok] at h
    obtain ⟨storage, _, h⟩ := h
    split at h
    · exact absurd (congrArg Prod.fst (Except.ok.inj h)) (hcount _)
    · rw [bind_eq_ok] at h
      obtain ⟨_, _, h⟩ := h
      exact absurd (congrArg Prod.fst (Except.ok.inj h)) (hcount _)

theorem handleRead_cases {c : Connection} {io : ReadResult} {r : Connection × List Task}
    (h : c.handleRead io = .ok r) : ReadEffect c io r := by
  rw [handleRead, bind_eq_ok] at h
  obtain ⟨_, hstate, h⟩ := h
  rw [require_eq_ok] at hstate
  rw [bind_eq_ok] at h
  obtain ⟨⟨n, inputBuffer⟩, hread, h⟩ := h
  dsimp only at h
  split at h
  · rename_i hn
    subst hn
    rw [readFd_eq_neg_one hread] at h
    cases h
    exact .failed hstate
  · split at h
    · obtain ⟨_, rfl⟩ := handleClose_cases h
      exact .closed n inputBuffer hstate hread
    · cases h
      exact .data n inputBuffer hstate hread

/-! ## Everything that runs on the loop -/

/-- The ways a job can end. -/
inductive Executed (c : Connection) (io : Io) : Job → Connection × List Task → Prop where
  | close (hstate : c.state = .kConnected ∨ c.state = .kDisconnecting) :
      Executed c io (.callback .close) (c.closed, [])
  | error : Executed c io (.callback .error) (c.handleError, [])
  | read {r : Connection × List Task} (h : ReadEffect c io.read r) :
      Executed c io (.callback .read) r
  | write {r : Connection × List Task} (h : WriteEffect c io.write r) :
      Executed c io (.callback .write) r
  | send (message : Message) {r : Connection × List Task}
      (h : SendEffect c io.write message.data r) :
      Executed c io (.task (.sendInLoop message)) r
  | shutdown : Executed c io (.task .shutdownInLoop) (c.shutdownInLoop, [])
  | forceClose (hstate : c.state = .kConnected ∨ c.state = .kDisconnecting) :
      Executed c io (.task .forceCloseInLoop) (c.closed, [])
  | forceCloseSkipped (hstate : c.state = .kDisconnected) :
      Executed c io (.task .forceCloseInLoop) (c, [])
  | stopRead (channel : Channel) (hreading : c.channel.isReading = true)
      (hchannel : c.channel.disableRead = .ok channel) :
      Executed c io (.task .stopRead) ({ c with channel := channel }, [])
  | stopReadSkipped (hreading : c.channel.isReading = false) :
      Executed c io (.task .stopRead) (c, [])
  | startRead (channel : Channel) (hreading : c.channel.isReading = false)
      (hchannel : c.channel.enableRead = .ok channel) :
      Executed c io (.task .startRead) ({ c with channel := channel }, [])
  | startReadSkipped (hreading : c.channel.isReading = true) :
      Executed c io (.task .startRead) (c, [])
  | writeCompleteCallback : Executed c io (.task .writeCompleteCallback) (c, [])
  | highWaterMarkCallback (len : Nat) :
      Executed c io (.task (.highWaterMarkCallback len)) (c, [])

theorem execute_cases {c : Connection} {io : Io} {job : Job} {r : Connection × List Task}
    (h : c.execute io job = .ok r) : Executed c io job r := by
  cases job with
  | callback cb =>
    cases cb with
    | close =>
      obtain ⟨hstate, rfl⟩ := handleClose_cases h
      exact .close hstate
    | error =>
      cases h
      exact .error
    | read => exact .read (handleRead_cases h)
    | write => exact .write (handleWrite_cases h)
  | task task =>
    cases task with
    | sendInLoop message => exact .send message (sendInLoop_cases h)
    | shutdownInLoop =>
      cases h
      exact .shutdown
    | forceCloseInLoop =>
      rw [execute, forceCloseInLoop] at h
      split at h
      · obtain ⟨hstate, rfl⟩ := handleClose_cases h
        exact .forceClose hstate
      · rename_i hstate
        cases h
        exact .forceCloseSkipped (by simpa using hstate)
    | stopRead =>
      rw [execute, stopReadInLoop] at h
      split at h
      · rename_i hreading
        rw [bind_eq_ok] at h
        obtain ⟨channel, hchannel, h⟩ := h
        cases h
        exact .stopRead channel hreading hchannel
      · rename_i hreading
        cases h
        exact .stopReadSkipped (by simpa using hreading)
    | startRead =>
      rw [execute, startReadInLoop] at h
      split at h
      · rename_i hreading
        rw [bind_eq_ok] at h
        obtain ⟨channel, hchannel, h⟩ := h
        cases h
        exact .startRead channel (by simpa using hreading) hchannel
      · rename_i hreading
        cases h
        exact .startReadSkipped (by simpa using hreading)
    | writeCompleteCallback =>
      cases h
      exact .writeCompleteCallback
    | highWaterMarkCallback len =>
      cases h
      exact .highWaterMarkCallback len

/-- A job queues nothing but notifications. -/
theorem Executed.isNotification {c : Connection} {io : Io} {job : Job}
    {r : Connection × List Task} (h : Executed c io job r) : ∀ t ∈ r.2, t.IsNotification := by
  have hnil : ∀ t ∈ ([] : List Task), t.IsNotification := by simp
  cases h with
  | read h => cases h <;> exact hnil
  | write h =>
    cases h with
    | drained tasks outputBuffer channel hstate hreadable hwriting hretrieve hempty hchannel
        hstill htasks => exact htasks
    | _ => exact hnil
  | send message h =>
    cases h with
    | direct tasks hstate hidle hempty hdone htasks => exact htasks
    | directRest tasks outputBuffer channel hstate hidle hempty hfault hrest happend hchannel
        htasks => exact htasks
    | buffered tasks outputBuffer channel hstate hwriting hlen happend hchannel htasks =>
      exact htasks
    | _ => exact hnil
  | _ => exact hnil

end CppWeb.Tcp.Connection
