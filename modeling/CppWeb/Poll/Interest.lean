/-
  Poll/Interest.lean --- is the interest of a channel a set?

  The five operations are meant to put a direction (reading, writing) into a
  set and to take it out again.  The state of the system below is a channel
  together with the operations performed on it so far, so that "the last
  operation on reading was `enableRead`" can be said of a state.

  Putting in works, and so does `disableAll`, which empties the set.  The two
  operations that should take one direction out never do: each of them sets all
  the bits but the one it should clear.
-/
import CppWeb.Poll.Channel
import CppWeb.Foundation.Transition

set_option autoImplicit false

namespace CppWeb.Poll

open CppWeb.Foundation

/-! ## Operations -/

/-- The operations of a channel that change its interest. -/
inductive Operation where
  | enableRead
  | enableWrite
  | disableRead
  | disableWrite
  | disableAll
  deriving DecidableEq, Repr

/-- What a channel can be interested in. -/
inductive Direction where
  | read
  | write
  deriving DecidableEq, Repr

namespace Direction

/-- The operation that puts the direction in. -/
def enable : Direction → Operation
  | .read => .enableRead
  | .write => .enableWrite

/-- The operation that takes it out alone. -/
def disable : Direction → Operation
  | .read => .disableRead
  | .write => .disableWrite

/-- The index of its bit, `EPOLLIN` or `EPOLLOUT`. -/
def bit : Direction → Nat
  | .read => 0
  | .write => 2

end Direction

namespace Operation

def apply : Operation → Channel → Except Abort Channel
  | .enableRead => Channel.enableRead
  | .enableWrite => Channel.enableWrite
  | .disableRead => Channel.disableRead
  | .disableWrite => Channel.disableWrite
  | .disableAll => Channel.disableAll

/-- The operation says something about the direction. -/
def concerns (op : Operation) (d : Direction) : Bool :=
  op == d.enable || op == d.disable || op == .disableAll

/-- `disableRead` or `disableWrite`. -/
def TakesOut (op : Operation) : Prop := op = .disableRead ∨ op = .disableWrite

instance (op : Operation) : Decidable op.TakesOut := inferInstanceAs (Decidable (_ ∨ _))

end Operation

/-- The last operation of the sequence that concerns the direction puts it
in. -/
def lastEnables (d : Direction) (ops : List Operation) : Bool :=
  (ops.filter fun op => op.concerns d).getLast? == some d.enable

/-- `isReading()` or `isWriting()`. -/
def Channel.asks (c : Channel) : Direction → Bool
  | .read => c.isReading
  | .write => c.isWriting

/-- `EPOLLIN | EPOLLPRI | EPOLLOUT` -/
def interestBits : Mask := epollIn ||| epollPri ||| epollOut

/-! ## Sequences of operations -/

/-- A channel and the operations performed on it. -/
structure Operated where
  channel : Channel
  ops : List Operation
  deriving DecidableEq, Repr

namespace Operated

/-- A new channel. -/
def start : Operated := { channel := Channel.new, ops := [] }

def step (s : Operated) (op : Operation) : Outcome Abort Operated :=
  Outcome.ofExcept do
    let channel ← op.apply s.channel
    .ok { channel := channel, ops := s.ops ++ [op] }

/-- The interest is what the operations ask for, and nothing beside it. -/
structure Lawful (s : Operated) : Prop where
  asks : ∀ d, s.channel.asks d = lastEnables d s.ops
  events : Mask.meets s.channel.events (~~~interestBits) = false

/-- The operation changes no direction that it does not concern. -/
def Independent (s : Operated) (op : Operation) : Prop :=
  (s.step op).Leads fun t =>
    ∀ d, op.concerns d = false → t.channel.asks d = s.channel.asks d

end Operated

/-! ## One operation -/

theorem Mask.meets_or (a b bits : Mask) :
    Mask.meets (a ||| b) bits = (Mask.meets a bits || Mask.meets b bits) := by
  rw [Bool.eq_iff_iff]
  simp only [Mask.meets, BitVec.and_or_distrib_right, bne_iff_ne, ne_eq, BitVec.or_eq_zero_iff,
    Bool.or_eq_true]
  exact not_and_or

theorem lastEnables_concat (d : Direction) (ops : List Operation) (op : Operation) :
    lastEnables d (ops ++ [op]) = if op.concerns d then op == d.enable else lastEnables d ops := by
  unfold lastEnables
  rw [List.filter_append, List.filter_singleton]
  cases op.concerns d with
  | false => simp
  | true => simp

/-- Adding bits sets what the bits ask for. -/
theorem Channel.asks_of_orEvents {bits : Mask} (hbits : bits ≠ 0#32) {c c' : Channel}
    (h : c.orEvents bits = .ok c') (d : Direction) :
    c'.asks d = (c.asks d || bits.getLsbD d.bit) := by
  cases d with
  | read =>
    simp only [asks, isReading_eq]
    exact getLsbD_of_orEvents hbits h 0
  | write =>
    simp only [asks, isWriting_eq]
    exact getLsbD_of_orEvents hbits h 2

/-- **One operation.**  An operation other than `disableRead` and `disableWrite`
decides the directions it concerns and leaves the others. -/
theorem Operation.asks_apply {op : Operation} (hop : ¬ op.TakesOut) {c c' : Channel}
    (h : op.apply c = .ok c') (d : Direction) :
    c'.asks d = if op.concerns d then op == d.enable else c.asks d := by
  cases op with
  | enableRead =>
    rw [Channel.asks_of_orEvents (by decide) h d]
    cases d with
    | read => exact Bool.or_true _
    | write => exact Bool.or_false _
  | enableWrite =>
    rw [Channel.asks_of_orEvents (by decide) h d]
    cases d with
    | read => exact Bool.or_false _
    | write => exact Bool.or_true _
  | disableRead => exact absurd (Or.inl rfl) hop
  | disableWrite => exact absurd (Or.inr rfl) hop
  | disableAll =>
    rw [Channel.eq_new_of_disableAll h]
    cases d with
    | read => rfl
    | write => rfl

/-- The operation sets no bit beside the three of an interest. -/
theorem Operation.events_apply {op : Operation} (hop : ¬ op.TakesOut) {c c' : Channel}
    (h : op.apply c = .ok c') (hc : Mask.meets c.events (~~~interestBits) = false) :
    Mask.meets c'.events (~~~interestBits) = false := by
  have hor : ∀ bits : Mask, bits ≠ 0#32 → Mask.meets bits (~~~interestBits) = false →
      c.orEvents bits = .ok c' → Mask.meets c'.events (~~~interestBits) = false := by
    intro bits hbits hclean hok
    rw [Channel.orEvents_eq hbits, Except.ok.injEq] at hok
    subst hok
    rw [Mask.meets_or, hc, hclean, Bool.or_false]
  cases op with
  | enableRead => exact hor _ (by decide) (by decide) h
  | enableWrite => exact hor _ (by decide) (by decide) h
  | disableRead => exact absurd (Or.inl rfl) hop
  | disableWrite => exact absurd (Or.inr rfl) hop
  | disableAll =>
    rw [Channel.eq_new_of_disableAll h]
    decide

/-- `disableRead` and `disableWrite` always succeed, and set bits that no
interest has. -/
theorem Operation.apply_of_takesOut {op : Operation} (hop : op.TakesOut) (c : Channel) :
    ∃ c', op.apply c = .ok c' ∧ Mask.meets c'.events (~~~interestBits) = true := by
  rcases hop with rfl | rfl
  · refine ⟨_, Channel.orEvents_eq (by decide) c, ?_⟩
    rw [Mask.meets_or, show Mask.meets (~~~epollIn) (~~~interestBits) = true by decide,
      Bool.or_true]
  · refine ⟨_, Channel.orEvents_eq (by decide) c, ?_⟩
    rw [Mask.meets_or, show Mask.meets (~~~epollOut) (~~~interestBits) = true by decide,
      Bool.or_true]

/-! ## Sequences -/

namespace Operated

theorem step_eq_next {s t : Operated} {op : Operation} :
    s.step op = .next t ↔
      ∃ c, op.apply s.channel = .ok c ∧ t = { channel := c, ops := s.ops ++ [op] } := by
  rw [step, Outcome.ofExcept_eq_next, bind_eq_ok]
  constructor
  · rintro ⟨c, hc, ht⟩
    exact ⟨c, hc, (Except.ok.inj ht).symm⟩
  · rintro ⟨c, hc, rfl⟩
    exact ⟨c, hc, rfl⟩

theorem lawful_start : start.Lawful := by
  refine ⟨fun d => ?_, by decide⟩
  cases d with
  | read => rfl
  | write => rfl

theorem Lawful.step {s t : Operated} {op : Operation} (h : s.Lawful) (hop : ¬ op.TakesOut)
    (ht : s.step op = .next t) : t.Lawful := by
  obtain ⟨c, hc, rfl⟩ := step_eq_next.mp ht
  refine ⟨fun d => ?_, Operation.events_apply hop hc h.events⟩
  dsimp only
  rw [Operation.asks_apply hop hc d, lastEnables_concat, h.asks d]

theorem not_lawful_of_takesOut (s : Operated) {op : Operation} (hop : op.TakesOut) :
    ∃ t, s.step op = .next t ∧ ¬ t.Lawful := by
  obtain ⟨c, hc, hbits⟩ := Operation.apply_of_takesOut hop s.channel
  refine ⟨_, step_eq_next.mpr ⟨c, hc, rfl⟩, fun h => ?_⟩
  have hclean := h.events
  rw [hbits] at hclean
  cases hclean

theorem independent_of_not_takesOut (s : Operated) {op : Operation} (hop : ¬ op.TakesOut) :
    s.Independent op := by
  rw [Independent, Outcome.leads_iff]
  intro t ht d hother
  obtain ⟨c, hc, rfl⟩ := step_eq_next.mp ht
  have hasks := Operation.asks_apply hop hc d
  rw [hother] at hasks
  exact hasks

/-- **The interest of a channel is a set exactly as long as nothing is taken out
of it alone.**  After every operation of a sequence the channel asks for what
the operations before say and for nothing else, and every operation leaves the
direction it does not concern, if and only if none of the operations is
`disableRead` or `disableWrite`. -/
theorem interest_set_iff (ops : List Operation) :
    (Throughout step Lawful start ops ∧ Along step Independent start ops) ↔
      Along step (fun _ op => ¬ op.TakesOut) start ops := by
  have hlawful : Throughout step Lawful start ops ↔
      Along step (fun _ op => ¬ op.TakesOut) start ops := by
    refine throughout_iff_along (I := Lawful) lawful_start ?_ (fun _ h => h) ?_ ops
    · intro s op t h hop ht
      exact h.step hop ht
    · intro s op _ hop
      exact not_lawful_of_takesOut s (not_not.mp hop)
  constructor
  · rintro ⟨h, _⟩
    exact hlawful.mp h
  · intro h
    refine ⟨hlawful.mpr h, along_of_along (I := Lawful) lawful_start ?_ ?_ h⟩
    · intro s op t hs hop ht
      exact hs.step hop ht
    · intro s op _ hop
      exact independent_of_not_takesOut s hop

/-- After `enableRead` and `disableRead` a new channel still reads, and now also
asks for write events. -/
theorem not_set_enableThenDisable :
    ((run step start [.enableRead, .disableRead]).map fun s =>
        (s.channel.isReading, s.channel.isWriting)) = some (true, true) ∧
      ¬ Throughout step Lawful start [.enableRead, .disableRead] := by
  refine ⟨by decide, fun h => ?_⟩
  have hlast := (throughout_iff_run.mp h) [.enableRead, .disableRead] _ List.prefix_rfl rfl
  exact absurd (hlast.asks .read) (by decide)

end Operated

end CppWeb.Poll
