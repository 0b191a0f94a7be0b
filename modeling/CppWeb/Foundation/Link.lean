/-
  Foundation/Link.lean --- two systems joined by a reliable stream each way.

  A port is what a system does at its end of a connection: what a step sends,
  what it takes of what has arrived, and whether it finds the end of the
  stream.  The link keeps what is on its way, gives it out in order and in
  pieces of any size, and reports the end of the stream only when the other
  side has ended it and everything sent before has been taken.

  Each side of a link is a component of it and each direction a stage of it, so
  a stage of the sender, the stream and a stage of the receiver compose to a
  single one.
-/
import CppWeb.Foundation.Flow

set_option autoImplicit false

namespace CppWeb.Foundation

/-- A system with one end of a stream in each direction. -/
structure Port (ε σ α γ : Type) where
  step : σ → α → Outcome ε σ
  sends : σ → α → List γ
  takes : σ → α → List γ
  /-- the action finds the end of the incoming stream -/
  findsEnd : σ → α → Bool
  /-- the outgoing stream has been ended -/
  hasEnded : σ → Bool
  /-- the end of the incoming stream has been found -/
  hasFoundEnd : σ → Bool
  /-- what the transport allows besides -/
  permitted : σ → α → Prop
  decidablePermitted : ∀ s a, Decidable (permitted s a)
  hasEnded_of_step : ∀ s a t, step s a = .next t → hasEnded s = true → hasEnded t = true
  hasFoundEnd_of_step : ∀ s a t, step s a = .next t → hasFoundEnd t = true →
    hasFoundEnd s = true ∨ findsEnd s a = true
  sends_of_hasEnded : ∀ s a, hasEnded s = true → permitted s a → sends s a = []

namespace Port

variable {ε σ α γ : Type} (port : Port ε σ α γ)

/-- What the transport allows of an action: it takes from the front of what is
`incoming`, and finds the end only behind all of it. -/
def Admissible (incoming : List γ) (peerEnded : Bool) (s : σ) (a : α) : Prop :=
  port.takes s a <+: incoming ∧ (port.findsEnd s a = true → peerEnded = true ∧ incoming = []) ∧
    port.permitted s a

instance [DecidableEq γ] (incoming : List γ) (peerEnded : Bool) (s : σ) (a : α) :
    Decidable (port.Admissible incoming peerEnded s a) :=
  have := port.decidablePermitted s a
  inferInstanceAs (Decidable (_ ∧ (_ → _ ∧ _) ∧ _))

/-- A system that moves only as its component with the port does has that port. -/
def lift {τ : Type} {system : τ → α → Outcome ε τ} {part : τ → σ}
    (c : Component system port.step part (fun _ a => some a)) : Port ε τ α γ where
  step := system
  sends := through part (fun _ a => some a) port.sends
  takes := through part (fun _ a => some a) port.takes
  findsEnd := fun u a => port.findsEnd (part u) a
  hasEnded := fun u => port.hasEnded (part u)
  hasFoundEnd := fun u => port.hasFoundEnd (part u)
  permitted := fun u a => port.permitted (part u) a
  decidablePermitted := fun u a => port.decidablePermitted (part u) a
  hasEnded_of_step := fun u a v h => port.hasEnded_of_step _ a _ (c.moves u a v a h rfl)
  hasFoundEnd_of_step := fun u a v h => port.hasFoundEnd_of_step _ a _ (c.moves u a v a h rfl)
  sends_of_hasEnded := fun u a => port.sends_of_hasEnded (part u) a

end Port

/-- Two systems, and what is on its way to each of them. -/
structure Link (σ τ γ : Type) where
  left : σ
  right : τ
  toLeft : List γ
  toRight : List γ

/-- An action of one of the two ends. -/
inductive EndAction (α β : Type) where
  | left (a : α)
  | right (b : β)

namespace EndAction

variable {α β : Type}

def left? : EndAction α β → Option α
  | .left a => some a
  | .right _ => none

def right? : EndAction α β → Option β
  | .left _ => none
  | .right b => some b

end EndAction

namespace Link

section Sides

variable {σ τ α β γ : Type}

/-- An action of the link is good for its sides. -/
def Good (good : σ → α → Prop) (fine : τ → β → Prop) (l : Link σ τ γ) : EndAction α β → Prop
  | .left a => good l.left a
  | .right b => fine l.right b

instance (good : σ → α → Prop) (fine : τ → β → Prop) [∀ s a, Decidable (good s a)]
    [∀ t b, Decidable (fine t b)] (l : Link σ τ γ) : ∀ a, Decidable (l.Good good fine a)
  | .left a => inferInstanceAs (Decidable (good l.left a))
  | .right b => inferInstanceAs (Decidable (fine l.right b))

theorem Good.of_left {good : σ → α → Prop} {fine : τ → β → Prop} {l : Link σ τ γ}
    {a : EndAction α β} (h : l.Good good fine a) : ∀ b, a.left? = some b → good l.left b := by
  intro b hb
  cases a with
  | left a =>
    cases hb
    exact h
  | right b => cases hb

theorem Good.of_right {good : σ → α → Prop} {fine : τ → β → Prop} {l : Link σ τ γ}
    {a : EndAction α β} (h : l.Good good fine a) : ∀ b, a.right? = some b → fine l.right b := by
  intro b hb
  cases a with
  | left a => cases hb
  | right b =>
    cases hb
    exact h

end Sides

variable {ε σ τ α β γ : Type} [DecidableEq γ] (P : Port ε σ α γ) (Q : Port ε τ β γ)

/-- One side moves, as far as the transport allows. -/
def step (l : Link σ τ γ) : EndAction α β → Outcome ε (Link σ τ γ)
  | .left a =>
      if P.Admissible l.toLeft (Q.hasEnded l.right) l.left a then
        (P.step l.left a).map fun left =>
          { l with
            left := left
            toLeft := l.toLeft.drop (P.takes l.left a).length
            toRight := l.toRight ++ P.sends l.left a }
      else .disabled
  | .right b =>
      if Q.Admissible l.toRight (P.hasEnded l.left) l.right b then
        (Q.step l.right b).map fun right =>
          { l with
            right := right
            toRight := l.toRight.drop (Q.takes l.right b).length
            toLeft := l.toLeft ++ Q.sends l.right b }
      else .disabled

variable {P Q}

/-- **Inversion of a step.** -/
inductive Stepped (P : Port ε σ α γ) (Q : Port ε τ β γ) (l : Link σ τ γ) :
    EndAction α β → Link σ τ γ → Prop where
  | left (a : α) (left : σ) (hadmissible : P.Admissible l.toLeft (Q.hasEnded l.right) l.left a)
      (hstep : P.step l.left a = .next left) :
      Stepped P Q l (.left a)
        { l with
          left := left
          toLeft := l.toLeft.drop (P.takes l.left a).length
          toRight := l.toRight ++ P.sends l.left a }
  | right (b : β) (right : τ)
      (hadmissible : Q.Admissible l.toRight (P.hasEnded l.left) l.right b)
      (hstep : Q.step l.right b = .next right) :
      Stepped P Q l (.right b)
        { l with
          right := right
          toRight := l.toRight.drop (Q.takes l.right b).length
          toLeft := l.toLeft ++ Q.sends l.right b }

theorem step_cases {l m : Link σ τ γ} {a : EndAction α β} (h : step P Q l a = .next m) :
    Stepped P Q l a m := by
  cases a with
  | left a =>
    obtain ⟨hadmissible, h⟩ := Outcome.ite_eq_next.mp h
    obtain ⟨left, hstep, rfl⟩ := Outcome.map_eq_next.mp h
    exact .left a left hadmissible hstep
  | right b =>
    obtain ⟨hadmissible, h⟩ := Outcome.ite_eq_next.mp h
    obtain ⟨right, hstep, rfl⟩ := Outcome.map_eq_next.mp h
    exact .right b right hadmissible hstep

/-! ## Sides and directions -/

theorem component_left : Component (step P Q) P.step Link.left (fun _ a => a.left?) := by
  refine ⟨fun l a m b h hact => ?_, fun l a m h hact => ?_⟩
  · cases step_cases h with
    | left a left hadmissible hstep =>
      cases hact
      exact hstep
    | right b right hadmissible hstep => cases hact
  · cases step_cases h with
    | left a left hadmissible hstep => cases hact
    | right b right hadmissible hstep => rfl

theorem component_right : Component (step P Q) Q.step Link.right (fun _ a => a.right?) := by
  refine ⟨fun l a m b h hact => ?_, fun l a m h hact => ?_⟩
  · cases step_cases h with
    | left a left hadmissible hstep => cases hact
    | right b right hadmissible hstep =>
      cases hact
      exact hstep
  · cases step_cases h with
    | left a left hadmissible hstep => rfl
    | right b right hadmissible hstep => cases hact

/-- What the left side puts out in a step of the link. -/
abbrev atLeft {κ : Type} (out : σ → α → List κ) : Link σ τ γ → EndAction α β → List κ :=
  through Link.left (fun _ a => a.left?) out

/-- What the right side puts out in a step of the link. -/
abbrev atRight {κ : Type} (out : τ → β → List κ) : Link σ τ γ → EndAction α β → List κ :=
  through Link.right (fun _ a => a.right?) out

/-- What is on its way to the right is a stage between the two sides. -/
theorem stage_toRight :
    Stage (step P Q) (fun _ => True) (fun _ _ => True) (atLeft P.sends) (atRight Q.takes)
      Link.toRight := by
  refine ⟨fun _ _ _ _ _ _ => trivial, fun l a m _ _ h => ?_⟩
  cases step_cases h with
  | left a left hadmissible hstep => rfl
  | right b right hadmissible hstep =>
    exact (List.append_nil _).trans (List.prefix_iff_eq_append.mp hadmissible.1).symm

theorem stage_toLeft :
    Stage (step P Q) (fun _ => True) (fun _ _ => True) (atRight Q.sends) (atLeft P.takes)
      Link.toLeft := by
  refine ⟨fun _ _ _ _ _ _ => trivial, fun l a m _ _ h => ?_⟩
  cases step_cases h with
  | left a left hadmissible hstep =>
    exact (List.append_nil _).trans (List.prefix_iff_eq_append.mp hadmissible.1).symm
  | right b right hadmissible hstep => rfl

section EndToEnd

variable {κ : Type}

variable {I : σ → Prop} {J : τ → Prop} {good : σ → α → Prop} {fine : τ → β → Prop}

/-- Invariants of both sides are an invariant of the link. -/
theorem keeps_sides (hI : ∀ s a t, I s → good s a → P.step s a = .next t → I t)
    (hJ : ∀ s a t, J s → fine s a → Q.step s a = .next t → J t) (l : Link σ τ γ) (a : EndAction α β)
    (m : Link σ τ γ) (hl : I l.left ∧ J l.right) (hgood : l.Good good fine a)
    (h : step P Q l a = .next m) : I m.left ∧ J m.right :=
  ⟨component_left.keeps hI hl.1 hgood.of_left h, component_right.keeps hJ hl.2 hgood.of_right h⟩

/-- **End to end, to the right.**  A stage of the left side whose outlet is the
stream, the stream, and a stage of the right side whose inlet is the stream are
one stage. -/
theorem stage_leftToRight {entering : σ → α → List γ} {pending : σ → List γ}
    {leaving : τ → β → List γ} {received : τ → List γ}
    (hP : Stage P.step I good entering P.sends pending)
    (hQ : Stage Q.step J fine Q.takes leaving received) :
    Stage (step P Q) (fun l => I l.left ∧ J l.right) (Good good fine) (atLeft entering)
      (atRight leaving)
      (fun l => received l.right ++ (l.toRight ++ pending l.left)) := by
  have hall := ((hP.lift component_left).comp stage_toRight).comp (hQ.lift component_right)
  refine hall.strengthen (keeps_sides hP.keeps hQ.keeps) (fun l hl => ⟨⟨hl.1, trivial⟩, hl.2⟩) ?_
  exact fun l a hgood => ⟨⟨hgood.of_left, trivial⟩, hgood.of_right⟩

/-- **End to end, to the left.** -/
theorem stage_rightToLeft {entering : τ → β → List γ} {pending : τ → List γ}
    {leaving : σ → α → List γ} {received : σ → List γ}
    (hP : Stage P.step I good P.takes leaving received)
    (hQ : Stage Q.step J fine entering Q.sends pending) :
    Stage (step P Q) (fun l => I l.left ∧ J l.right) (Good good fine) (atRight entering)
      (atLeft leaving)
      (fun l => received l.left ++ (l.toLeft ++ pending l.right)) := by
  have hall := ((hQ.lift component_right).comp stage_toLeft).comp (hP.lift component_left)
  refine hall.strengthen (keeps_sides hP.keeps hQ.keeps) (fun l hl => ⟨⟨hl.2, trivial⟩, hl.1⟩) ?_
  exact fun l a hgood => ⟨⟨hgood.of_right, trivial⟩, hgood.of_left⟩

end EndToEnd

/-! ## The end of a stream -/

/-- Where the end of a stream has been found, the other side has ended it and
nothing is on its way. -/
structure EndInOrder (P : Port ε σ α γ) (Q : Port ε τ β γ) (l : Link σ τ γ) : Prop where
  right : Q.hasFoundEnd l.right = true → P.hasEnded l.left = true ∧ l.toRight = []
  left : P.hasFoundEnd l.left = true → Q.hasEnded l.right = true ∧ l.toLeft = []

/-- What has been taken leaves an empty stream empty, and a side that has ended
its stream adds nothing to it. -/
theorem EndInOrder.step {l m : Link σ τ γ} {a : EndAction α β} (hl : EndInOrder P Q l)
    (h : step P Q l a = .next m) : EndInOrder P Q m := by
  cases step_cases h with
  | left a left hadmissible hstep =>
    refine ⟨fun hfound => ?_, fun hfound => ?_⟩
    · obtain ⟨hended, hempty⟩ := hl.right hfound
      refine ⟨P.hasEnded_of_step _ _ _ hstep hended, ?_⟩
      rw [hempty, P.sends_of_hasEnded _ _ hended hadmissible.2.2]
      rfl
    · have hend : Q.hasEnded l.right = true ∧ l.toLeft = [] := by
        rcases P.hasFoundEnd_of_step _ _ _ hstep hfound with hbefore | hnow
        · exact hl.left hbefore
        · exact hadmissible.2.1 hnow
      refine ⟨hend.1, ?_⟩
      rw [hend.2, List.drop_nil]
  | right b right hadmissible hstep =>
    refine ⟨fun hfound => ?_, fun hfound => ?_⟩
    · have hend : P.hasEnded l.left = true ∧ l.toRight = [] := by
        rcases Q.hasFoundEnd_of_step _ _ _ hstep hfound with hbefore | hnow
        · exact hl.right hbefore
        · exact hadmissible.2.1 hnow
      refine ⟨hend.1, ?_⟩
      rw [hend.2, List.drop_nil]
    · obtain ⟨hended, hempty⟩ := hl.left hfound
      refine ⟨Q.hasEnded_of_step _ _ _ hstep hended, ?_⟩
      rw [hempty, Q.sends_of_hasEnded _ _ hended hadmissible.2.2]
      rfl

end Link

end CppWeb.Foundation
