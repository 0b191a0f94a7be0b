/-
  Poll/Channel.lean --- a descriptor's interest in events, and its registration.

  A `Channel` keeps the event mask its owner asked for and whether it has been
  added to the epoll set; every change of the mask goes through
  `Epoller::updateChannel`, which chooses between ADD, MOD and DEL.  Beside the
  two fields of the program stands the kernel's entry for the descriptor: the
  mask that is really registered.  The two masks need not agree, because the
  kernel rejects some masks and the program only logs that.

  The two functions that take an interest away, `disableRead` and
  `disableWrite`, are `m_events |= ~bit`: they set all the other bits.
-/
import CppWeb.Abort
import Mathlib.Data.BitVec

set_option autoImplicit false

namespace CppWeb.Poll

/-! ## Event masks -/

/-- `unsigned`, as in `m_events`, `m_revents` and `epoll_event::events`. -/
abbrev Mask := BitVec 32

def epollIn : Mask := 0x001#32
def epollPri : Mask := 0x002#32
def epollOut : Mask := 0x004#32
def epollErr : Mask := 0x008#32
def epollHup : Mask := 0x010#32
def epollRdHup : Mask := 0x2000#32
def epollExclusive : Mask := 0x10000000#32
def epollWakeup : Mask := 0x20000000#32
def epollEt : Mask := 0x80000000#32

/-- `mask & bits`, as a condition. -/
def Mask.meets (mask bits : Mask) : Bool := mask &&& bits != 0#32

/-! ## The kernel's table -/

/-- The operations of `::epoll_ctl`. -/
inductive EpollOp where
  | add
  | mod
  | del
  deriving DecidableEq, Repr

/-- The bits that may stand beside `EPOLLEXCLUSIVE` in an ADD. -/
def exclusiveOkBits : Mask :=
  epollIn ||| epollOut ||| epollErr ||| epollHup ||| epollWakeup ||| epollEt ||| epollExclusive

/-- The kernel's entry for a descriptor after `::epoll_ctl`, given the entry
before it.  A call that fails leaves the entry alone: an ADD of a present
descriptor, a MOD of an absent one, and a mask that `EPOLLEXCLUSIVE` is not
allowed in. -/
def epollCtl (op : EpollOp) (mask : Mask) (entry : Option Mask) : Option Mask :=
  match op, entry with
  | .add, none =>
      if Mask.meets mask epollExclusive && Mask.meets mask (~~~exclusiveOkBits) then none
      else some mask
  | .add, some registered => some registered
  | .mod, none => none
  | .mod, some registered =>
      if Mask.meets mask epollExclusive || Mask.meets registered epollExclusive then
        some registered
      else some mask
  | .del, _ => none

/-- What `::epoll_wait` can report for a descriptor: events that are registered,
and errors and hang-ups, which always are. -/
def Reportable (entry : Option Mask) (revents : Mask) : Prop :=
  match entry with
  | none => revents = 0#32
  | some registered => Mask.meets revents (~~~(registered ||| epollErr ||| epollHup)) = false

instance (entry : Option Mask) (revents : Mask) : Decidable (Reportable entry revents) := by
  cases entry with
  | none => exact inferInstanceAs (Decidable (_ = _))
  | some registered => exact inferInstanceAs (Decidable (_ = _))

/-- Nothing is reported for a descriptor that has no event. -/
theorem reportable_zero (entry : Option Mask) : Reportable entry 0#32 := by
  cases entry with
  | none => rfl
  | some registered =>
    rw [Reportable, Mask.meets, BitVec.zero_and]
    rfl

/-! ## Channels -/

/-- `m_events` and `polling`, and the kernel's entry for the descriptor. -/
structure Channel where
  events : Mask
  polling : Bool
  interest : Option Mask
  deriving DecidableEq, Repr

namespace Channel

/-- `Channel::Channel` -/
def new : Channel := { events := 0#32, polling := false, interest := none }

def isReading (c : Channel) : Bool := Mask.meets c.events epollIn

def isWriting (c : Channel) : Bool := Mask.meets c.events epollOut

def isNoneEvents (c : Channel) : Bool := c.events == 0#32

end Channel

/-- `Epoller::updateChannel(channel)` with the operation it issues, over any
kernel. -/
def updateChannel (ctl : EpollOp → Mask → Option Mask → Option Mask) (c : Channel) :
    Except Abort (EpollOp × Channel) :=
  if !c.polling then do
    require .updateChannel (c.isNoneEvents = false)
    .ok (.add, { c with polling := true, interest := ctl .add c.events c.interest })
  else if c.isNoneEvents then
    .ok (.del, { c with polling := false, interest := ctl .del c.events c.interest })
  else
    .ok (.mod, { c with interest := ctl .mod c.events c.interest })

namespace Channel

/-- `Channel::update` -/
def update (c : Channel) : Except Abort Channel := do
  let r ← updateChannel epollCtl c
  .ok r.2

/-- `m_events |= bits; update();` -/
def orEvents (bits : Mask) (c : Channel) : Except Abort Channel :=
  update { c with events := c.events ||| bits }

def enableRead : Channel → Except Abort Channel := orEvents (epollIn ||| epollPri)

def enableWrite : Channel → Except Abort Channel := orEvents epollOut

def disableRead : Channel → Except Abort Channel := orEvents (~~~epollIn)

def disableWrite : Channel → Except Abort Channel := orEvents (~~~epollOut)

def disableAll (c : Channel) : Except Abort Channel :=
  update { c with events := 0#32 }

end Channel

/-! ## Dispatch -/

/-- The callbacks of a channel. -/
inductive Callback where
  | close
  | error
  | read
  | write
  deriving DecidableEq, Repr

/-- The callbacks that `Channel::handleEventsWithGuard` calls, in order, when
all four are set. -/
def handleEventsWithGuard (revents : Mask) : List Callback :=
  (if Mask.meets revents epollHup && !Mask.meets revents epollIn then [.close] else []) ++
  (if Mask.meets revents epollErr then [.error] else []) ++
  (if Mask.meets revents (epollIn ||| epollPri ||| epollRdHup) then [.read] else []) ++
  (if Mask.meets revents epollOut then [.write] else [])

theorem write_mem_handleEventsWithGuard {revents : Mask}
    (h : .write ∈ handleEventsWithGuard revents) : Mask.meets revents epollOut = true := by
  rw [handleEventsWithGuard] at h
  simp only [List.mem_append] at h
  rcases h with ((h | h) | h) | h
  · split at h <;> simp at h
  · split at h <;> simp at h
  · split at h <;> simp at h
  · split at h
    · assumption
    · simp at h

/-! ## Bits of masks -/

/-- A test against a single bit reads that bit. -/
theorem meets_twoPow (mask : Mask) {i : Nat} (hi : i < 32) :
    Mask.meets mask (BitVec.twoPow 32 i) = mask.getLsbD i := by
  have hne : BitVec.twoPow 32 i ≠ 0#32 := by
    intro hzero
    have hbit := congrArg (fun bits => bits.getLsbD i) hzero
    simp [hi] at hbit
  rw [Mask.meets, BitVec.and_twoPow]
  cases mask.getLsbD i with
  | true => simpa using hne
  | false => simp

theorem meets_epollIn (mask : Mask) : Mask.meets mask epollIn = mask.getLsbD 0 := by
  have hbit : epollIn = BitVec.twoPow 32 0 := by decide
  rw [hbit, meets_twoPow mask (by decide)]

theorem meets_epollOut (mask : Mask) : Mask.meets mask epollOut = mask.getLsbD 2 := by
  have hbit : epollOut = BitVec.twoPow 32 2 := by decide
  rw [hbit, meets_twoPow mask (by decide)]

theorem meets_epollExclusive (mask : Mask) :
    Mask.meets mask epollExclusive = mask.getLsbD 28 := by
  have hbit : epollExclusive = BitVec.twoPow 32 28 := by decide
  rw [hbit, meets_twoPow mask (by decide)]

/-- A mask with a bit is not empty. -/
theorem ne_zero_of_getLsbD {mask : Mask} {i : Nat} (h : mask.getLsbD i = true) :
    mask ≠ 0#32 := by
  intro hzero
  simp [hzero] at h

namespace Channel

theorem isReading_eq (c : Channel) : c.isReading = c.events.getLsbD 0 := meets_epollIn _

theorem isWriting_eq (c : Channel) : c.isWriting = c.events.getLsbD 2 := meets_epollOut _

/-! ## Updates -/

/-- An update of a non-empty mask registers it, by ADD or by MOD. -/
theorem update_of_ne_zero {c : Channel} (h : c.events ≠ 0#32) :
    c.update = .ok { c with
      polling := true
      interest := epollCtl (if c.polling then .mod else .add) c.events c.interest } := by
  have hsome : c.isNoneEvents = false := by simpa [isNoneEvents] using h
  obtain ⟨events, polling, interest⟩ := c
  cases polling with
  | false => simp [update, updateChannel, require, hsome]
  | true => simp [update, updateChannel, hsome]

/-- An update of an empty mask removes a registered descriptor. -/
theorem update_of_zero {c : Channel} (h : c.events = 0#32) (hpolling : c.polling = true) :
    c.update = .ok { c with polling := false, interest := none } := by
  have hnone : c.isNoneEvents = true := by simpa [isNoneEvents] using h
  simp [update, updateChannel, hpolling, hnone, epollCtl]

/-- There is nothing to remove for a descriptor that was not added. -/
theorem update_error {c : Channel} (h : c.events = 0#32) (hpolling : c.polling = false) :
    c.update = .error (.assertion .updateChannel) := by
  have hnone : c.isNoneEvents = true := by simpa [isNoneEvents] using h
  simp [update, updateChannel, hpolling, hnone, require]

/-- Adding bits to the mask never fails. -/
theorem orEvents_eq {bits : Mask} (hbits : bits ≠ 0#32) (c : Channel) :
    c.orEvents bits = .ok {
      events := c.events ||| bits
      polling := true
      interest := epollCtl (if c.polling then .mod else .add) (c.events ||| bits) c.interest } := by
  refine update_of_ne_zero (c := { c with events := c.events ||| bits }) ?_
  intro hzero
  exact hbits (BitVec.or_eq_zero_iff.mp hzero).2

/-- A bit of the mask after bits were added to it. -/
theorem getLsbD_of_orEvents {bits : Mask} (hbits : bits ≠ 0#32) {c d : Channel}
    (h : c.orEvents bits = .ok d) (i : Nat) :
    d.events.getLsbD i = (c.events.getLsbD i || bits.getLsbD i) := by
  rw [orEvents_eq hbits, Except.ok.injEq] at h
  subst h
  exact BitVec.getLsbD_or

theorem disableAll_eq {c : Channel} (h : c.polling = true) :
    c.disableAll = .ok { events := 0#32, polling := false, interest := none } :=
  update_of_zero (c := { c with events := 0#32 }) rfl h

theorem disableAll_error {c : Channel} (h : c.polling = false) :
    c.disableAll = .error (.assertion .updateChannel) :=
  update_error (c := { c with events := 0#32 }) rfl h

/-! ## What the operations do to the two masks -/

theorem isWriting_enableRead {c d : Channel} (h : c.enableRead = .ok d) :
    d.isWriting = c.isWriting := by
  rw [isWriting_eq, isWriting_eq, getLsbD_of_orEvents (by decide) h]
  exact Bool.or_false _

theorem isWriting_enableWrite {c d : Channel} (h : c.enableWrite = .ok d) :
    d.isWriting = true := by
  rw [isWriting_eq, getLsbD_of_orEvents (by decide) h]
  exact Bool.or_true _

/-- `disableRead` asks for write events. -/
theorem isWriting_disableRead {c d : Channel} (h : c.disableRead = .ok d) :
    d.isWriting = true := by
  rw [isWriting_eq, getLsbD_of_orEvents (by decide) h]
  exact Bool.or_true _

/-- `disableWrite` leaves the interest in write events as it was. -/
theorem isWriting_disableWrite {c d : Channel} (h : c.disableWrite = .ok d) :
    d.isWriting = c.isWriting := by
  rw [isWriting_eq, isWriting_eq, getLsbD_of_orEvents (by decide) h]
  exact Bool.or_false _

theorem isReading_enableRead {c d : Channel} (h : c.enableRead = .ok d) :
    d.isReading = true := by
  rw [isReading_eq, getLsbD_of_orEvents (by decide) h]
  exact Bool.or_true _

/-- `disableRead` leaves the interest in read events as it was. -/
theorem isReading_disableRead {c d : Channel} (h : c.disableRead = .ok d) :
    d.isReading = c.isReading := by
  rw [isReading_eq, isReading_eq, getLsbD_of_orEvents (by decide) h]
  exact Bool.or_false _

/-- The kernel asks for write events. -/
def asksWrite (c : Channel) : Bool :=
  match c.interest with
  | none => false
  | some registered => Mask.meets registered epollOut

/-- A call of `::epoll_ctl` registers its own mask, or leaves or removes the
entry. -/
theorem epollCtl_cases (op : EpollOp) (mask : Mask) (entry : Option Mask) :
    epollCtl op mask entry = none ∨ epollCtl op mask entry = entry ∨
      epollCtl op mask entry = some mask := by
  cases op with
  | del => exact Or.inl rfl
  | add =>
    cases entry with
    | some registered => exact Or.inr (Or.inl rfl)
    | none =>
      rw [epollCtl]
      split
      · exact Or.inl rfl
      · exact Or.inr (Or.inr rfl)
  | mod =>
    cases entry with
    | none => exact Or.inl rfl
    | some registered =>
      rw [epollCtl]
      split
      · exact Or.inr (Or.inl rfl)
      · exact Or.inr (Or.inr rfl)

/-- The kernel rejects a mask with `EPOLLEXCLUSIVE` and `EPOLLPRI`. -/
theorem epollCtl_rejected {op : EpollOp} (hop : op ≠ .del) {mask : Mask}
    (hexclusive : mask.getLsbD 28 = true) (hpri : mask.getLsbD 1 = true)
    (entry : Option Mask) : epollCtl op mask entry = entry := by
  have hreject : Mask.meets mask epollExclusive = true := by
    rw [meets_epollExclusive, hexclusive]
  have hnotOk : Mask.meets mask (~~~exclusiveOkBits) = true := by
    rw [Mask.meets, bne_iff_ne]
    refine ne_zero_of_getLsbD (i := 1) ?_
    rw [BitVec.getLsbD_and, hpri]
    decide
  cases op with
  | del => exact absurd rfl hop
  | add =>
    cases entry with
    | none => simp [epollCtl, hreject, hnotOk]
    | some registered => rfl
  | mod =>
    cases entry with
    | none => rfl
    | some registered => simp [epollCtl, hreject]

/-- The kernel asks for write events after an update only if it did before or
the mask of the channel does. -/
theorem asksWrite_of_epollCtl {c d : Channel} {op : EpollOp}
    (h : d.interest = epollCtl op d.events c.interest) (hask : d.asksWrite = true) :
    c.asksWrite = true ∨ d.isWriting = true := by
  rw [asksWrite, h] at hask
  rcases epollCtl_cases op d.events c.interest with hctl | hctl | hctl
  · simp [hctl] at hask
  · rw [hctl] at hask
    exact Or.inl hask
  · rw [hctl] at hask
    exact Or.inr hask

theorem asksWrite_of_orEvents {bits : Mask} (hbits : bits ≠ 0#32) {c d : Channel}
    (h : c.orEvents bits = .ok d) (hask : d.asksWrite = true) :
    c.asksWrite = true ∨ d.isWriting = true := by
  rw [orEvents_eq hbits, Except.ok.injEq] at h
  subst h
  exact asksWrite_of_epollCtl rfl hask

/-- The kernel never accepts the mask that `disableRead` makes. -/
theorem interest_disableRead {c d : Channel} (h : c.disableRead = .ok d) :
    d.interest = c.interest := by
  have hbit := fun i => getLsbD_of_orEvents (by decide) h i
  rw [disableRead, orEvents_eq (by decide), Except.ok.injEq] at h
  subst h
  refine epollCtl_rejected ?_ ?_ ?_ _
  · split <;> simp
  · exact (hbit 28).trans (Bool.or_true _)
  · exact (hbit 1).trans (Bool.or_true _)

theorem asksWrite_of_interest {c d : Channel} (h : d.interest = c.interest) :
    d.asksWrite = c.asksWrite := by
  rw [asksWrite, asksWrite, h]

/-- Write events are reported only where the kernel asks for them. -/
theorem asksWrite_of_reportable {c : Channel} {revents : Mask}
    (h : Reportable c.interest revents) (hout : Mask.meets revents epollOut = true) :
    c.asksWrite = true := by
  rw [meets_epollOut] at hout
  rw [asksWrite]
  cases hinterest : c.interest with
  | none =>
    rw [hinterest] at h
    rw [show revents = 0#32 from h] at hout
    cases hout
  | some registered =>
    rw [hinterest] at h
    have hzero : revents &&& ~~~(registered ||| epollErr ||| epollHup) = 0#32 := by
      simpa [Reportable, Mask.meets] using h
    have hbit := congrArg (fun bits => bits.getLsbD 2) hzero
    simp only [BitVec.getLsbD_and, hout, Bool.true_and, BitVec.getLsbD_zero] at hbit
    rw [BitVec.getLsbD_not, BitVec.getLsbD_or, BitVec.getLsbD_or] at hbit
    have herr : epollErr.getLsbD 2 = false := by decide
    have hhup : epollHup.getLsbD 2 = false := by decide
    rw [herr, hhup] at hbit
    dsimp only
    rw [meets_epollOut]
    simpa using hbit

theorem eq_new_of_disableAll {c d : Channel} (h : c.disableAll = .ok d) : d = new := by
  cases hpolling : c.polling with
  | false =>
    rw [disableAll_error hpolling] at h
    cases h
  | true =>
    rw [disableAll_eq hpolling, Except.ok.injEq] at h
    exact h.symm

end Channel

end CppWeb.Poll
