/-
  Poll/Registration.lean --- the channels of one `Epoller` and the kernel's table.

  Whether a descriptor is registered is written down three times: in the mask of
  its channel, in the channel's flag `polling`, and in the kernel's table.  The
  flag is set before `::epoll_ctl` is called and an error is only logged, so
  that nothing in the program would notice if the three came apart.

  The kernel is not fixed here.  Its answer to a call, the entry of the
  descriptor afterwards, comes with the action, and a step is possible with any
  answer that `Answers` allows.  Nothing is said there of the ADD of a present
  descriptor and the DEL of an absent one; what has to be shown is that the
  program never asks for these.
-/
import CppWeb.Poll.Interest
import Mathlib.Logic.Function.Basic

set_option autoImplicit false

namespace CppWeb.Poll

open CppWeb.Foundation

/-! ## One update -/

/-- `m_events` after the operation. -/
def Operation.events : Operation → Mask → Mask
  | .enableRead, mask => mask ||| (epollIn ||| epollPri)
  | .enableWrite, mask => mask ||| epollOut
  | .disableRead, mask => mask ||| ~~~epollIn
  | .disableWrite, mask => mask ||| ~~~epollOut
  | .disableAll, _ => 0#32

/-- An operation changes the mask and calls `update`. -/
theorem Operation.apply_eq_update (op : Operation) (c : Channel) :
    op.apply c = Channel.update { c with events := op.events c.events } := by
  cases op <;> rfl

/-- What the kernel may answer: an ADD of an absent descriptor inserts it, a DEL
of a present one removes it, and a MOD, accepted or not, neither inserts nor
removes. -/
def Answers (op : EpollOp) (entry answer : Option Mask) : Prop :=
  match op with
  | .add => entry = none → answer ≠ none
  | .mod => answer.isSome = entry.isSome
  | .del => entry ≠ none → answer = none

instance : ∀ (op : EpollOp) (entry answer : Option Mask), Decidable (Answers op entry answer)
  | .add, _, _ => inferInstanceAs (Decidable (_ → _))
  | .mod, _, _ => inferInstanceAs (Decidable (_ = _))
  | .del, _, _ => inferInstanceAs (Decidable (_ → _))

/-- The kernel of `epollCtl` answers so, unless it rejects the mask of an ADD. -/
theorem answers_epollCtl {op : EpollOp} {mask : Mask} {entry : Option Mask}
    (hmask : op = .add → (Mask.meets mask epollExclusive &&
      Mask.meets mask (~~~exclusiveOkBits)) = false) :
    Answers op entry (epollCtl op mask entry) := by
  cases op with
  | add =>
    rintro rfl
    rw [epollCtl, hmask rfl]
    exact Option.some_ne_none mask
  | mod =>
    cases entry with
    | none => rfl
    | some registered =>
      rw [Answers, epollCtl]
      split <;> rfl
  | del => exact fun _ => rfl

-- the mask that `disableRead` makes of an empty one is such a mask
example : Channel.new.disableRead =
    .ok { events := ~~~epollIn, polling := true, interest := none } := by decide

/-- What `Epoller::updateChannel` can do. -/
inductive Updated (ctl : EpollOp → Mask → Option Mask → Option Mask) (c : Channel) :
    EpollOp → Channel → Prop where
  | add (hpolling : c.polling = false) (hevents : c.events ≠ 0#32) :
      Updated ctl c .add { c with polling := true, interest := ctl .add c.events c.interest }
  | del (hpolling : c.polling = true) (hevents : c.events = 0#32) :
      Updated ctl c .del { c with polling := false, interest := ctl .del c.events c.interest }
  | mod (hpolling : c.polling = true) (hevents : c.events ≠ 0#32) :
      Updated ctl c .mod { c with interest := ctl .mod c.events c.interest }

theorem Channel.isNoneEvents_eq_true {c : Channel} : c.isNoneEvents = true ↔ c.events = 0#32 :=
  beq_iff_eq

theorem Channel.isNoneEvents_eq_false {c : Channel} : c.isNoneEvents = false ↔ c.events ≠ 0#32 :=
  beq_eq_false_iff_ne

theorem updateChannel_eq_ok {ctl : EpollOp → Mask → Option Mask → Option Mask} {c : Channel}
    {r : EpollOp × Channel} (h : updateChannel ctl c = .ok r) : Updated ctl c r.1 r.2 := by
  rw [updateChannel] at h
  split at h
  · rename_i hpolling
    rw [bind_eq_ok] at h
    obtain ⟨_, hsome, h⟩ := h
    cases h
    exact .add (by simpa using hpolling) (Channel.isNoneEvents_eq_false.mp (require_eq_ok.mp hsome))
  · rename_i hpolling
    have hon : c.polling = true := by simpa using hpolling
    split at h
    · rename_i hnone
      cases h
      exact .del hon (Channel.isNoneEvents_eq_true.mp hnone)
    · rename_i hnone
      cases h
      exact .mod hon fun hzero => hnone (Channel.isNoneEvents_eq_true.mpr hzero)

/-- An update with the kernel's answer given. -/
theorem Updated.answered {ctl : EpollOp → Mask → Option Mask → Option Mask} {c d : Channel}
    {op : EpollOp} (h : Updated ctl c op d) :
    updateChannel (fun _ _ _ => d.interest) c = .ok (op, d) := by
  cases h with
  | add hpolling hevents =>
    have hsome := Channel.isNoneEvents_eq_false.mpr hevents
    simp [updateChannel, hpolling, hsome, require]
  | del hpolling hevents =>
    have hnone := Channel.isNoneEvents_eq_true.mpr hevents
    simp [updateChannel, hpolling, hnone]
  | mod hpolling hevents =>
    have hsome := Channel.isNoneEvents_eq_false.mpr hevents
    simp [updateChannel, hpolling, hsome]

/-- The assertion fails for an empty mask that was not registered. -/
theorem updateChannel_eq_error {ctl : EpollOp → Mask → Option Mask → Option Mask} {c : Channel}
    {e : Abort} (h : updateChannel ctl c = .error e) : c.polling = false ∧ c.events = 0#32 := by
  rw [updateChannel] at h
  split at h
  · rename_i hpolling
    rw [bind_eq_error] at h
    rcases h with h | ⟨_, _, h⟩
    · rw [require] at h
      split at h
      · cases h
      · rename_i hnot
        refine ⟨by simpa using hpolling, ?_⟩
        rw [← Channel.isNoneEvents_eq_true]
        simpa using hnot
    · cases h
  · split at h <;> cases h

namespace Channel

/-- The flag, the kernel's entry and the mask say the same. -/
structure Synced (c : Channel) : Prop where
  entry : c.polling = c.interest.isSome
  mask : c.polling = true ↔ c.events ≠ 0#32

theorem Synced.polling_eq_true {c : Channel} (hs : c.Synced) :
    c.polling = true ↔ c.interest ≠ none := by
  rw [hs.entry]
  exact Option.isSome_iff_ne_none

theorem Synced.polling_eq_false {c : Channel} (hs : c.Synced) :
    c.polling = false ↔ c.interest = none := by
  rw [hs.entry, Option.isSome_eq_false_iff]
  exact Option.isNone_iff_eq_none

/-- An update of a channel that has a new mask brings the three together. -/
theorem Synced.updated {ctl : EpollOp → Mask → Option Mask → Option Mask} {c d : Channel}
    {op : EpollOp} {mask : Mask} (hs : c.Synced) (h : Updated ctl { c with events := mask } op d)
    (hanswer : Answers op c.interest d.interest) : d.Synced := by
  cases h with
  | add hpolling hevents =>
    have hthere := hanswer (hs.polling_eq_false.mp hpolling)
    exact ⟨(Option.isSome_iff_ne_none.mpr hthere).symm, iff_of_true rfl hevents⟩
  | del hpolling hevents =>
    have hgone := hanswer (hs.polling_eq_true.mp hpolling)
    refine ⟨?_, iff_of_false Bool.false_ne_true (not_not.mpr hevents)⟩
    rw [hgone]
    rfl
  | mod hpolling hevents =>
    have hkept : (ctl .mod mask c.interest).isSome = c.interest.isSome := hanswer
    exact ⟨hs.entry.trans hkept.symm, iff_of_true hpolling hevents⟩

end Channel

/-! ## The channels of an `Epoller` -/

/-- The channels, by what names them, and the kernel's table, by descriptor. -/
structure Epoller (ι : Type) where
  events : ι → Mask
  polling : ι → Bool
  table : Int → Option Mask

/-- An operation on a channel, with the kernel's answer to the call it makes. -/
structure Request (ι : Type) where
  channel : ι
  op : Operation
  answer : Option Mask

namespace Epoller

variable {ι : Type} (fd : ι → Int)

/-- New channels and an empty table. -/
def new : Epoller ι :=
  { events := fun _ => Channel.new.events
    polling := fun _ => Channel.new.polling
    table := fun _ => none }

/-- A channel and the kernel's entry for its descriptor. -/
def channel (s : Epoller ι) (i : ι) : Channel :=
  { events := s.events i, polling := s.polling i, interest := s.table (fd i) }

/-- The flags say which descriptors are in the table, and which masks are not
empty. -/
def Synced (s : Epoller ι) : Prop :=
  ∀ i, (s.polling i = true ↔ s.table (fd i) ≠ none) ∧ (s.polling i = true ↔ s.events i ≠ 0#32)

/-- Every channel is in step with its entry. -/
def EachSynced (s : Epoller ι) : Prop := ∀ i, (s.channel fd i).Synced

variable {fd}

theorem EachSynced.synced {s : Epoller ι} (hs : s.EachSynced fd) : s.Synced fd :=
  fun i => ⟨(hs i).polling_eq_true, (hs i).mask⟩

theorem eachSynced_new : (new : Epoller ι).EachSynced fd :=
  fun _ => ⟨rfl, iff_of_false Bool.false_ne_true (not_not.mpr rfl)⟩

variable [DecidableEq ι] (fd)

def put (s : Epoller ι) (i : ι) (c : Channel) : Epoller ι :=
  { events := Function.update s.events i c.events
    polling := Function.update s.polling i c.polling
    table := Function.update s.table (fd i) c.interest }

/-- The operation, with the call of `::epoll_ctl` it makes. -/
def operate (s : Epoller ι) (a : Request ι) : Except Abort (EpollOp × Epoller ι) := do
  let c := s.channel fd a.channel
  let r ← updateChannel (fun _ _ _ => a.answer) { c with events := a.op.events c.events }
  .ok (r.1, s.put fd a.channel r.2)

def step (s : Epoller ι) (a : Request ι) : Outcome Abort (Epoller ι) :=
  match s.operate fd a with
  | .error reason => .abort reason
  | .ok (issued, t) =>
      if Answers issued (s.table (fd a.channel)) a.answer then .next t else .disabled

/-- What an operation asks the kernel for fits the table, and the assertion fails
only where there is nothing to ask for. -/
structure Booked (s : Epoller ι) (a : Request ι) : Prop where
  add : ∀ t, s.operate fd a = .ok (.add, t) → s.table (fd a.channel) = none
  mod : ∀ t, s.operate fd a = .ok (.mod, t) → s.table (fd a.channel) ≠ none
  del : (∃ t, s.operate fd a = .ok (.del, t)) ↔
    s.table (fd a.channel) ≠ none ∧ a.op.events (s.events a.channel) = 0#32
  assertion : ∀ reason, s.operate fd a = .error reason →
    s.table (fd a.channel) = none ∧ a.op.events (s.events a.channel) = 0#32

variable {fd}

@[simp] theorem channel_put_self (s : Epoller ι) (i : ι) (c : Channel) :
    (s.put fd i c).channel fd i = c := by
  simp [channel, put]

/-- Channels with other descriptors are not touched. -/
theorem channel_put_of_ne (hfd : Function.Injective fd) (s : Epoller ι) {i j : ι} (c : Channel)
    (hne : j ≠ i) : (s.put fd i c).channel fd j = s.channel fd j := by
  have hother : fd j ≠ fd i := fun heq => hne (hfd heq)
  simp [channel, put, Function.update_of_ne hne, Function.update_of_ne hother]

theorem operate_eq_ok {s t : Epoller ι} {a : Request ι} {issued : EpollOp}
    (h : s.operate fd a = .ok (issued, t)) :
    ∃ c, Updated (fun _ _ _ => a.answer)
        { s.channel fd a.channel with events := a.op.events (s.events a.channel) } issued c ∧
      t = s.put fd a.channel c := by
  rw [operate, bind_eq_ok] at h
  obtain ⟨r, hr, h⟩ := h
  cases h
  exact ⟨r.2, updateChannel_eq_ok hr, rfl⟩

theorem operate_eq_error {s : Epoller ι} {a : Request ι} {reason : Abort}
    (h : s.operate fd a = .error reason) :
    s.polling a.channel = false ∧ a.op.events (s.events a.channel) = 0#32 := by
  rw [operate, bind_eq_error] at h
  rcases h with h | ⟨_, _, h⟩
  · exact updateChannel_eq_error h
  · cases h

theorem EachSynced.step (hfd : Function.Injective fd) {s t : Epoller ι} {a : Request ι}
    (hs : s.EachSynced fd) (h : s.step fd a = .next t) : t.EachSynced fd := by
  rw [Epoller.step] at h
  split at h
  · cases h
  · rename_i issued u hissued
    split at h
    · rename_i hanswer
      cases h
      obtain ⟨c, hc, rfl⟩ := operate_eq_ok hissued
      have hentry : c.interest = a.answer := by cases hc <;> rfl
      intro i
      by_cases hi : i = a.channel
      · subst hi
        rw [channel_put_self]
        refine (hs a.channel).updated hc ?_
        rw [hentry]
        exact hanswer
      · rw [channel_put_of_ne hfd s c hi]
        exact hs i
    · cases h

theorem EachSynced.booked {s : Epoller ι} (hs : s.EachSynced fd) (a : Request ι) :
    s.Booked fd a := by
  have hchannel := hs a.channel
  refine ⟨fun t ht => ?_, fun t ht => ?_, ⟨?_, ?_⟩, fun reason hreason => ?_⟩
  · obtain ⟨c, hc, _⟩ := operate_eq_ok ht
    cases hc with
    | add hpolling hevents => exact hchannel.polling_eq_false.mp hpolling
  · obtain ⟨c, hc, _⟩ := operate_eq_ok ht
    cases hc with
    | mod hpolling hevents => exact hchannel.polling_eq_true.mp hpolling
  · rintro ⟨t, ht⟩
    obtain ⟨c, hc, _⟩ := operate_eq_ok ht
    cases hc with
    | del hpolling hevents => exact ⟨hchannel.polling_eq_true.mp hpolling, hevents⟩
  · rintro ⟨hthere, hevents⟩
    have hpolling : s.polling a.channel = true := hchannel.polling_eq_true.mpr hthere
    cases hoperate : s.operate fd a with
    | error reason =>
      rw [(operate_eq_error hoperate).1] at hpolling
      cases hpolling
    | ok r =>
      obtain ⟨issued, t⟩ := r
      obtain ⟨c, hc, _⟩ := operate_eq_ok hoperate
      cases hc with
      | add hnot _ =>
        have hoff : s.polling a.channel = false := hnot
        rw [hpolling] at hoff
        cases hoff
      | del _ _ => exact ⟨t, rfl⟩
      | mod _ hsome => exact absurd hevents hsome
  · obtain ⟨hpolling, hevents⟩ := operate_eq_error hreason
    exact ⟨hchannel.polling_eq_false.mp hpolling, hevents⟩

/-- The two models agree: what an operation does to a channel of its own is a
step of the epoller, unless the kernel rejects the mask of an ADD. -/
theorem step_of_apply {s : Epoller ι} {i : ι} {op : Operation} {d : Channel}
    (h : op.apply (s.channel fd i) = .ok d)
    (hmask : s.polling i = false → (Mask.meets d.events epollExclusive &&
      Mask.meets d.events (~~~exclusiveOkBits)) = false) :
    s.step fd ⟨i, op, d.interest⟩ = .next (s.put fd i d) := by
  rw [Operation.apply_eq_update, Channel.update, bind_eq_ok] at h
  obtain ⟨⟨issued, e⟩, hupdate, hd⟩ := h
  obtain rfl : d = e := (Except.ok.inj hd).symm
  have hupdated := updateChannel_eq_ok hupdate
  have hoperate : s.operate fd ⟨i, op, d.interest⟩ = .ok (issued, s.put fd i d) := by
    rw [operate, bind_eq_ok]
    exact ⟨(issued, d), hupdated.answered, rfl⟩
  have hadd : issued = .add → s.polling i = false := by
    rintro rfl
    cases hupdated with
    | add hpolling hevents => exact hpolling
  have hinterest : d.interest = epollCtl issued d.events (s.table (fd i)) := by
    cases hupdated <;> rfl
  have hanswer : Answers issued (s.table (fd i)) d.interest := by
    rw [hinterest]
    exact answers_epollCtl fun hissued => hmask (hadd hissued)
  rw [step, hoperate]
  exact if_pos hanswer

/-- **Registration.**  Whatever is done to channels with distinct descriptors,
and whatever the kernel answers, the flags say which descriptors are in the
table and which masks are not empty.  An ADD is for an absent descriptor, a MOD
for a present one, a DEL is made exactly when the mask of a registered channel
becomes 0, and the assertion fails only for a mask that is 0 and not
registered. -/
theorem registration (hfd : Function.Injective fd) (actions : List (Request ι)) :
    Throughout (step fd) (Synced fd) new actions ∧ Along (step fd) (Booked fd) new actions := by
  have hinv := throughout_of_invariant (step fd) eachSynced_new
    (fun _ _ _ hs => EachSynced.step hfd hs) actions
  exact ⟨hinv.mono fun s hs => hs.synced, hinv.along fun s a hs => hs.booked a⟩

/-- Two descriptors. -/
def twoFds (channel : Bool) : Int := if channel then 5 else 7

/-- One channel is registered, asks for more in vain and is removed; the other
stays. -/
def registerAndRemove : List (Request Bool) :=
  [⟨true, .enableRead, some (epollIn ||| epollPri)⟩, ⟨false, .enableWrite, some epollOut⟩,
    ⟨true, .disableRead, some (epollIn ||| epollPri)⟩, ⟨true, .disableAll, none⟩]

theorem registration_registerAndRemove :
    ((run (step twoFds) new registerAndRemove).map fun s =>
        (s.polling true, s.table 5, s.polling false, s.table 7)) =
        some (false, none, true, some epollOut) ∧
      Throughout (step twoFds) (Synced twoFds) new registerAndRemove ∧
      Along (step twoFds) (Booked twoFds) new registerAndRemove :=
  ⟨by decide, registration (by decide) registerAndRemove⟩

end Epoller

end CppWeb.Poll
