/-
  Foundation/Transition.lean --- schedules of a labelled transition system.

  A system is a step function: trying an action in a state finds it disabled,
  ends the run (an assertion failure, an uncaught exception), or leads to the
  next state.  All nondeterminism (which thread moves, what the kernel answers)
  is in the action, so a schedule is a list of actions and a run is the
  execution of a schedule up to the first action that does not lead anywhere.

  Two quantifiers over a run are used by everything that follows:

      Throughout P s as     P holds in every state the run visits
      Along Q s as          Q holds of every action the run tries

  The rules below turn a step lemma into a statement about runs, once.  The
  last two are for properties that hold of some runs only: they reduce "the
  property holds all along the run" to "no action of the run is a bad one".
-/
import Mathlib.Data.List.Infix

set_option autoImplicit false

namespace CppWeb.Foundation

/-- What trying one action in one state leads to. -/
inductive Outcome (ε σ : Type) where
  /-- the action is not enabled in this state -/
  | disabled
  /-- the program stops here -/
  | abort (reason : ε)
  /-- the next state -/
  | next (state : σ)
  deriving DecidableEq

/-- A fallible step of the program as an outcome. -/
def Outcome.ofExcept {ε σ : Type} : Except ε σ → Outcome ε σ
  | .error reason => .abort reason
  | .ok state => .next state

@[simp] theorem Outcome.ofExcept_eq_next {ε σ : Type} {x : Except ε σ} {t : σ} :
    Outcome.ofExcept x = .next t ↔ x = .ok t := by
  cases x <;> simp [Outcome.ofExcept]

@[simp] theorem Outcome.ofExcept_eq_abort {ε σ : Type} {x : Except ε σ} {e : ε} :
    Outcome.ofExcept x = .abort e ↔ x = .error e := by
  cases x <;> simp [Outcome.ofExcept]

/-- A step that is enabled under a condition. -/
theorem Outcome.ite_eq_next {ε σ : Type} {p : Prop} [Decidable p] {o : Outcome ε σ} {t : σ} :
    (if p then o else .disabled) = .next t ↔ p ∧ o = .next t := by
  split
  · rename_i hp
    simp [hp]
  · rename_i hp
    simp [hp]

theorem Outcome.ite_next_eq_next {ε σ : Type} {p : Prop} [Decidable p] {s t : σ} :
    (if p then .next s else .disabled : Outcome ε σ) = .next t ↔ p ∧ s = t := by
  rw [ite_eq_next, Outcome.next.injEq]

/-- The outcome with more said about the next state. -/
def Outcome.map {ε σ τ : Type} (f : σ → τ) : Outcome ε σ → Outcome ε τ
  | .disabled => .disabled
  | .abort reason => .abort reason
  | .next t => .next (f t)

@[simp] theorem Outcome.map_eq_next {ε σ τ : Type} {f : σ → τ} {o : Outcome ε σ} {u : τ} :
    o.map f = .next u ↔ ∃ t, o = .next t ∧ f t = u := by
  cases o <;> simp [Outcome.map]

/-- The next state, if there is one, has `P`. -/
def Outcome.Leads {ε σ : Type} (P : σ → Prop) : Outcome ε σ → Prop
  | .disabled => True
  | .abort _ => True
  | .next t => P t

instance {ε σ : Type} (P : σ → Prop) [DecidablePred P] :
    ∀ o : Outcome ε σ, Decidable (o.Leads P)
  | .disabled => isTrue trivial
  | .abort _ => isTrue trivial
  | .next t => inferInstanceAs (Decidable (P t))

theorem Outcome.leads_iff {ε σ : Type} {P : σ → Prop} {o : Outcome ε σ} :
    o.Leads P ↔ ∀ t, o = .next t → P t := by
  cases o <;> simp [Outcome.Leads]

/-- If the program stops here, it does so for a reason that meets `stop`. -/
def Outcome.Stops {ε σ : Type} (stop : ε → Prop) : Outcome ε σ → Prop
  | .disabled => True
  | .abort reason => stop reason
  | .next _ => True

instance {ε σ : Type} (stop : ε → Prop) [DecidablePred stop] :
    ∀ o : Outcome ε σ, Decidable (o.Stops stop)
  | .disabled => isTrue trivial
  | .abort reason => inferInstanceAs (Decidable (stop reason))
  | .next _ => isTrue trivial

theorem Outcome.stops_iff {ε σ : Type} {stop : ε → Prop} {o : Outcome ε σ} :
    o.Stops stop ↔ ∀ e, o = .abort e → stop e := by
  cases o <;> simp [Outcome.Stops]

/-- The program does not stop here, and the next state, if there is one, has
`P`. -/
def Outcome.Safe {ε σ : Type} (P : σ → Prop) : Outcome ε σ → Prop
  | .disabled => True
  | .abort _ => False
  | .next t => P t

theorem Outcome.safe_ofExcept {ε σ : Type} {P : σ → Prop} {x : Except ε σ} {t : σ}
    (hx : x = .ok t) (ht : P t) : (Outcome.ofExcept x).Safe P := by
  subst hx
  exact ht

theorem Outcome.Safe.leads {ε σ : Type} {P : σ → Prop} {o : Outcome ε σ} {t : σ}
    (h : o.Safe P) (ht : o = .next t) : P t := by
  subst ht
  exact h

theorem Outcome.Safe.stops {ε σ : Type} {P : σ → Prop} {o : Outcome ε σ} (h : o.Safe P)
    (stop : ε → Prop) : o.Stops stop := by
  cases o with
  | disabled => trivial
  | abort reason => cases h
  | next t => trivial

section Schedules

variable {ε σ α : Type} (step : σ → α → Outcome ε σ)

/-- The state a schedule ends in, when each of its actions leads to a next
state. -/
def run : σ → List α → Option σ
  | s, [] => some s
  | s, a :: as =>
      match step s a with
      | .next t => run t as
      | .disabled => none
      | .abort _ => none

/-- `P` holds in every state that the run of the schedule visits. -/
def Throughout (P : σ → Prop) : σ → List α → Prop
  | s, [] => P s
  | s, a :: as => P s ∧
      match step s a with
      | .next t => Throughout P t as
      | .disabled => True
      | .abort _ => True

/-- `Q` holds of every action that the run of the schedule tries, the last one
included when it is disabled or ends the run. -/
def Along (Q : σ → α → Prop) : σ → List α → Prop
  | _, [] => True
  | s, a :: as => Q s a ∧
      match step s a with
      | .next t => Along Q t as
      | .disabled => True
      | .abort _ => True

instance decidableAlong (Q : σ → α → Prop) [∀ s a, Decidable (Q s a)] :
    ∀ (as : List α) (s : σ), Decidable (Along step Q s as)
  | [], _ => isTrue trivial
  | a :: as, s =>
      have _tail : Decidable (match step s a with
          | .next t => Along step Q t as
          | .disabled => True
          | .abort _ => True) :=
        match step s a with
        | .next t => decidableAlong Q as t
        | .disabled => isTrue trivial
        | .abort _ => isTrue trivial
      inferInstanceAs (Decidable (Q s a ∧ _))

instance decidableThroughout (P : σ → Prop) [∀ s, Decidable (P s)] :
    ∀ (as : List α) (s : σ), Decidable (Throughout step P s as)
  | [], s => inferInstanceAs (Decidable (P s))
  | a :: as, s =>
      have _tail : Decidable (match step s a with
          | .next t => Throughout step P t as
          | .disabled => True
          | .abort _ => True) :=
        match step s a with
        | .next t => decidableThroughout P as t
        | .disabled => isTrue trivial
        | .abort _ => isTrue trivial
      inferInstanceAs (Decidable (P s ∧ _))

variable {step}

@[simp] theorem run_nil (s : σ) : run step s [] = some s := rfl

theorem run_cons_of_next {s t : σ} {a : α} (h : step s a = .next t) (as : List α) :
    run step s (a :: as) = run step t as := by
  simp [run, h]

theorem run_cons_eq_some {s u : σ} {a : α} {as : List α} :
    run step s (a :: as) = some u ↔
      ∃ t, step s a = .next t ∧ run step t as = some u := by
  cases h : step s a with
  | disabled => simp [run, h]
  | abort e => simp [run, h]
  | next t => simp [run, h]

/-- A schedule goes on from where its first part ends. -/
theorem run_append {s t : σ} {first : List α} (h : run step s first = some t)
    (second : List α) : run step s (first ++ second) = run step t second := by
  induction first generalizing s with
  | nil =>
    cases h
    rfl
  | cons a first ih =>
    obtain ⟨u, hu, hrest⟩ := run_cons_eq_some.mp h
    rw [List.cons_append, run_cons_of_next hu, ih hrest]

theorem throughout_head {P : σ → Prop} {s : σ} {as : List α}
    (h : Throughout step P s as) : P s := by
  cases as with
  | nil => exact h
  | cons a as => exact h.1

theorem throughout_tail {P : σ → Prop} {s t : σ} {a : α} {as : List α}
    (h : Throughout step P s (a :: as)) (ht : step s a = .next t) :
    Throughout step P t as := by
  have := h.2
  simpa [ht] using this

theorem along_tail {Q : σ → α → Prop} {s t : σ} {a : α} {as : List α}
    (h : Along step Q s (a :: as)) (ht : step s a = .next t) :
    Along step Q t as := by
  have := h.2
  simpa [ht] using this

/-- What holds along a run holds along what follows a first part of it. -/
theorem Along.of_append {Q : σ → α → Prop} {s t : σ} {pre as : List α}
    (h : Along step Q s (pre ++ as)) (hrun : run step s pre = some t) : Along step Q t as := by
  induction pre generalizing s with
  | nil =>
    cases hrun
    exact h
  | cons a pre ih =>
    obtain ⟨u, hu, hrest⟩ := run_cons_eq_some.mp hrun
    exact ih (along_tail h hu) hrest

/-- What holds along a run holds along the first part of it. -/
theorem Along.append_left {Q : σ → α → Prop} {s : σ} {as post : List α}
    (h : Along step Q s (as ++ post)) : Along step Q s as := by
  induction as generalizing s with
  | nil => trivial
  | cons a as ih =>
    refine ⟨h.1, ?_⟩
    cases hs : step s a with
    | disabled => trivial
    | abort e => trivial
    | next t => exact ih (along_tail h hs)

/-- `Throughout` speaks about exactly the states that the prefixes of the
schedule lead to. -/
theorem throughout_iff_run {P : σ → Prop} {s : σ} {as : List α} :
    Throughout step P s as ↔
      ∀ pre t, pre <+: as → run step s pre = some t → P t := by
  induction as generalizing s with
  | nil =>
    constructor
    · intro h pre t hpre hrun
      rw [List.prefix_nil] at hpre
      subst hpre
      cases hrun
      exact h
    · intro h
      exact h [] s List.prefix_rfl rfl
  | cons a as ih =>
    constructor
    · intro h pre t hpre hrun
      cases pre with
      | nil =>
        cases hrun
        exact h.1
      | cons b pre =>
        obtain ⟨rfl, htail⟩ := List.cons_prefix_cons.mp hpre
        obtain ⟨u, hu, hrest⟩ := run_cons_eq_some.mp hrun
        exact ih.mp (throughout_tail h hu) pre t htail hrest
    · intro h
      refine ⟨h [] s List.nil_prefix rfl, ?_⟩
      cases hstep : step s a with
      | disabled => trivial
      | abort e => trivial
      | next t =>
        refine ih.mpr fun pre u hpre hrun => ?_
        refine h (a :: pre) u (List.cons_prefix_cons.mpr ⟨rfl, hpre⟩) ?_
        rw [run_cons_of_next hstep, hrun]

variable (step) in
/-- **Invariant rule.**  What holds initially and is kept by every step holds
throughout every run. -/
theorem throughout_of_invariant {I : σ → Prop} {s : σ} (hinit : I s)
    (hstep : ∀ s a t, I s → step s a = .next t → I t) (as : List α) :
    Throughout step I s as := by
  induction as generalizing s with
  | nil => exact hinit
  | cons a as ih =>
    refine ⟨hinit, ?_⟩
    cases h : step s a with
    | disabled => trivial
    | abort e => trivial
    | next t => exact ih (hstep s a t hinit h)

/-- The invariant rule for runs whose actions all meet `good`. -/
theorem throughout_of_along {I : σ → Prop} {good : σ → α → Prop} {s : σ}
    (hinit : I s)
    (hstep : ∀ s a t, I s → good s a → step s a = .next t → I t)
    {as : List α} (h : Along step good s as) : Throughout step I s as := by
  induction as generalizing s with
  | nil => exact hinit
  | cons a as ih =>
    refine ⟨hinit, ?_⟩
    cases hs : step s a with
    | disabled => trivial
    | abort e => trivial
    | next t => exact ih (hstep s a t hinit h.1 hs) (along_tail h hs)

/-- What holds of every action of the schedule holds along its run. -/
theorem along_of_forall {Q : α → Prop} {as : List α} (h : ∀ a ∈ as, Q a) (s : σ) :
    Along step (fun _ a => Q a) s as := by
  induction as generalizing s with
  | nil => trivial
  | cons a as ih =>
    obtain ⟨ha, has⟩ := List.forall_mem_cons.mp h
    refine ⟨ha, ?_⟩
    cases step s a with
    | disabled => trivial
    | abort e => trivial
    | next t => exact ih has t

theorem Along.and {Q R : σ → α → Prop} {s : σ} {as : List α} (hQ : Along step Q s as)
    (hR : Along step R s as) : Along step (fun s a => Q s a ∧ R s a) s as := by
  induction as generalizing s with
  | nil => trivial
  | cons a as ih =>
    refine ⟨⟨hQ.1, hR.1⟩, ?_⟩
    cases hs : step s a with
    | disabled => trivial
    | abort e => trivial
    | next t => exact ih (along_tail hQ hs) (along_tail hR hs)

/-- What holds of every good action under the invariant holds along the runs
whose actions are all good. -/
theorem along_of_along {I : σ → Prop} {good Q : σ → α → Prop} {s : σ} (hinit : I s)
    (hstep : ∀ s a t, I s → good s a → step s a = .next t → I t)
    (hQ : ∀ s a, I s → good s a → Q s a) {as : List α} (h : Along step good s as) :
    Along step Q s as := by
  induction as generalizing s with
  | nil => trivial
  | cons a as ih =>
    refine ⟨hQ s a hinit h.1, ?_⟩
    cases hs : step s a with
    | disabled => trivial
    | abort e => trivial
    | next t => exact ih (hstep s a t hinit h.1 hs) (along_tail h hs)

theorem Throughout.mono {P R : σ → Prop} (hPR : ∀ s, P s → R s) {s : σ}
    {as : List α} (h : Throughout step P s as) : Throughout step R s as := by
  rw [throughout_iff_run] at h ⊢
  intro pre t hpre hrun
  exact hPR t (h pre t hpre hrun)

theorem Throughout.and {P R : σ → Prop} {s : σ} {as : List α}
    (hP : Throughout step P s as) (hR : Throughout step R s as) :
    Throughout step (fun s => P s ∧ R s) s as := by
  rw [throughout_iff_run] at hP hR ⊢
  intro pre t hpre hrun
  exact ⟨hP pre t hpre hrun, hR pre t hpre hrun⟩

/-- What holds of every action in a state where the invariant holds, holds
along every run throughout which the invariant does. -/
theorem Throughout.along {P : σ → Prop} {Q : σ → α → Prop}
    (hPQ : ∀ s a, P s → Q s a) {s : σ} {as : List α}
    (h : Throughout step P s as) : Along step Q s as := by
  induction as generalizing s with
  | nil => trivial
  | cons a as ih =>
    refine ⟨hPQ s a h.1, ?_⟩
    cases hs : step s a with
    | disabled => trivial
    | abort e => trivial
    | next t => exact ih (throughout_tail h hs)

/-- What holds of every state and of every action tried, asked for step by
step. -/
theorem throughout_and_along_iff {P : σ → Prop} {Q : σ → α → Prop} {s : σ} {as : List α} :
    Throughout step P s as ∧ Along step Q s as ↔
      P s ∧ Along step (fun s a => Q s a ∧ (step s a).Leads P) s as := by
  induction as generalizing s with
  | nil => exact Iff.rfl
  | cons a as ih =>
    simp only [Throughout, Along]
    cases h : step s a with
    | disabled => simp [Outcome.Leads]
    | abort e => simp [Outcome.Leads]
    | next t =>
      have htail := ih (s := t)
      simp only [Outcome.Leads]
      tauto

/-- **Characterising the runs on which a step property holds.**  Under an
invariant that the good steps keep, where `Q` says the same as `good`, `Q`
holds along exactly the runs whose actions are all good. -/
theorem along_iff_along {I : σ → Prop} {Q good : σ → α → Prop} {s : σ}
    (hinit : I s)
    (hstep : ∀ s a t, I s → good s a → step s a = .next t → I t)
    (hQ : ∀ s a, I s → (Q s a ↔ good s a)) (as : List α) :
    Along step Q s as ↔ Along step good s as := by
  induction as generalizing s with
  | nil => exact Iff.rfl
  | cons a as ih =>
    constructor
    · intro h
      have hgood : good s a := (hQ s a hinit).mp h.1
      refine ⟨hgood, ?_⟩
      cases hs : step s a with
      | disabled => trivial
      | abort e => trivial
      | next t => exact (ih (hstep s a t hinit hgood hs)).mp (along_tail h hs)
    · intro h
      refine ⟨(hQ s a hinit).mpr h.1, ?_⟩
      cases hs : step s a with
      | disabled => trivial
      | abort e => trivial
      | next t => exact (ih (hstep s a t hinit h.1 hs)).mpr (along_tail h hs)

/-- **Characterising the runs on which a state property holds.**  The good
steps keep an invariant that implies `P`, and a step that is not good leads to
a state where `P` fails: then `P` holds throughout exactly the runs whose
actions are all good. -/
theorem throughout_iff_along {I P : σ → Prop} {good : σ → α → Prop} {s : σ}
    (hinit : I s)
    (hstep : ∀ s a t, I s → good s a → step s a = .next t → I t)
    (hP : ∀ s, I s → P s)
    (hbad : ∀ s a, I s → ¬ good s a → ∃ t, step s a = .next t ∧ ¬ P t)
    (as : List α) :
    Throughout step P s as ↔ Along step good s as := by
  constructor
  · intro h
    induction as generalizing s with
    | nil => trivial
    | cons a as ih =>
      have hgood : good s a := by
        by_contra hnot
        obtain ⟨t, ht, hPt⟩ := hbad s a hinit hnot
        exact hPt (throughout_head (throughout_tail h ht))
      refine ⟨hgood, ?_⟩
      cases hs : step s a with
      | disabled => trivial
      | abort e => trivial
      | next t => exact ih (hstep s a t hinit hgood hs) (throughout_tail h hs)
  · intro h
    exact (throughout_of_along hinit hstep h).mono hP

end Schedules

end CppWeb.Foundation
