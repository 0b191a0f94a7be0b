/-
  Foundation/Simulation.lean --- one system seen through another.

  A view relates the states of a system to those of a smaller one, and answers
  each step of the system with a schedule of the smaller one: no action if the
  step does not show in the view, several if it is made of several.  Over a
  whole run the answers are one schedule; what the smaller system puts out along
  it, and what holds along it, is put together from the single answers.
-/
import CppWeb.Foundation.Flow

set_option autoImplicit false

namespace CppWeb.Foundation

section Simulations

variable {ε ζ σ τ α δ β : Type}

/-- Every good step of the system is answered, and the answer keeps the states
related. -/
def Simulation (system : τ → δ → Outcome ζ τ) (step : σ → α → Outcome ε σ) (R : τ → σ → Prop)
    (good : τ → δ → Prop) (answer : τ → δ → List α) : Prop :=
  ∀ u s d v, R u s → good u d → system u d = .next v →
    ∃ t, run step s (answer u d) = some t ∧ R v t

/-- The answers to a schedule, one after the other. -/
abbrev answers (system : τ → δ → Outcome ζ τ) (answer : τ → δ → List α) : τ → List δ → List α :=
  emitted system answer

variable {system : τ → δ → Outcome ζ τ} {step : σ → α → Outcome ε σ} {R : τ → σ → Prop}
  {good : τ → δ → Prop} {answer : τ → δ → List α}

/-- What is put out along a schedule in two parts. -/
theorem emitted_append {out : σ → α → List β} {s t : σ} {first : List α}
    (h : run step s first = some t) (second : List α) :
    emitted step out s (first ++ second) =
      emitted step out s first ++ emitted step out t second := by
  induction first generalizing s with
  | nil =>
    cases h
    rfl
  | cons a first ih =>
    obtain ⟨u, hu, hrest⟩ := run_cons_eq_some.mp h
    rw [List.cons_append, emitted_cons_of_next hu, emitted_cons_of_next hu, ih hrest,
      List.append_assoc]

/-- A schedule of actions that put out nothing. -/
theorem emitted_eq_nil {out : σ → α → List β} {as : List α} (h : ∀ s, ∀ a ∈ as, out s a = [])
    (s : σ) : emitted step out s as = [] := by
  induction as generalizing s with
  | nil => rfl
  | cons a as ih =>
    have hhead : ∀ s, out s a = [] := fun s => h s a List.mem_cons_self
    rw [Foundation.emitted]
    split
    · rw [hhead s, ih fun s b hb => h s b (List.mem_cons_of_mem a hb)]
      rfl
    · rfl
    · rfl

/-- A schedule of one action. -/
theorem emitted_singleton {out : σ → α → List β} {s t : σ} {a : α}
    (h : run step s [a] = some t) : emitted step out s [a] = out s a := by
  obtain ⟨u, hu, _⟩ := run_cons_eq_some.mp h
  rw [emitted_cons_of_next hu]
  exact List.append_nil _

theorem along_singleton {Q : σ → α → Prop} {s : σ} {a : α} (h : Q s a) : Along step Q s [a] := by
  refine ⟨h, ?_⟩
  cases step s a <;> trivial

/-- What holds along both parts of a schedule. -/
theorem Along.append {Q : σ → α → Prop} {s t : σ} {first second : List α}
    (hfirst : Along step Q s first) (hrun : run step s first = some t)
    (hsecond : Along step Q t second) : Along step Q s (first ++ second) := by
  induction first generalizing s with
  | nil =>
    cases hrun
    exact hsecond
  | cons a first ih =>
    obtain ⟨u, hu, hrest⟩ := run_cons_eq_some.mp hrun
    refine ⟨hfirst.1, ?_⟩
    rw [hu]
    exact ih (along_tail hfirst hu) hrest

/-- More may be asked of the steps. -/
theorem Simulation.restrict {fine : τ → δ → Prop} (h : Simulation system step R good answer)
    (hgood : ∀ u d, fine u d → good u d) : Simulation system step R fine answer :=
  fun u s d v hrel hfine hstep => h u s d v hrel (hgood u d hfine) hstep

/-- **A run is answered by a run.**  What the smaller system puts out is put
together from what it puts out in each answer, and what holds along each answer
holds along all. -/
theorem Simulation.run (h : Simulation system step R good answer) {u v : τ} {s : σ} {ds : List δ}
    (hrel : R u s) (hgood : Along system good u ds) (hrun : Foundation.run system u ds = some v) :
    ∃ t, Foundation.run step s (answers system answer u ds) = some t ∧ R v t := by
  induction ds generalizing u s with
  | nil =>
    cases hrun
    exact ⟨s, rfl, hrel⟩
  | cons d ds ih =>
    obtain ⟨w, hw, hrest⟩ := run_cons_eq_some.mp hrun
    obtain ⟨t, ht, hrel'⟩ := h u s d w hrel hgood.1 hw
    obtain ⟨t', ht', hrel''⟩ := ih hrel' (along_tail hgood hw) hrest
    refine ⟨t', ?_, hrel''⟩
    rw [answers, emitted_cons_of_next hw, run_append ht]
    exact ht'

theorem Simulation.emitted (h : Simulation system step R good answer) {out : σ → α → List β}
    {seen : τ → δ → List β}
    (hout : ∀ u s d v, R u s → good u d → system u d = .next v →
      Foundation.emitted step out s (answer u d) = seen u d)
    {u v : τ} {s : σ} {ds : List δ} (hrel : R u s) (hgood : Along system good u ds)
    (hrun : Foundation.run system u ds = some v) :
    Foundation.emitted step out s (answers system answer u ds) =
      Foundation.emitted system seen u ds := by
  induction ds generalizing u s with
  | nil => rfl
  | cons d ds ih =>
    obtain ⟨w, hw, hrest⟩ := run_cons_eq_some.mp hrun
    obtain ⟨t, ht, hrel'⟩ := h u s d w hrel hgood.1 hw
    have htail := ih hrel' (along_tail hgood hw) hrest
    rw [answers, emitted_cons_of_next hw, emitted_append ht, hout u s d w hrel hgood.1 hw,
      emitted_cons_of_next hw]
    exact congrArg (seen u d ++ ·) htail

theorem Simulation.along (h : Simulation system step R good answer) {Q : σ → α → Prop}
    (hQ : ∀ u s d v, R u s → good u d → system u d = .next v → Along step Q s (answer u d))
    {u v : τ} {s : σ} {ds : List δ} (hrel : R u s) (hgood : Along system good u ds)
    (hrun : Foundation.run system u ds = some v) :
    Along step Q s (answers system answer u ds) := by
  induction ds generalizing u s with
  | nil => trivial
  | cons d ds ih =>
    obtain ⟨w, hw, hrest⟩ := run_cons_eq_some.mp hrun
    obtain ⟨t, ht, hrel'⟩ := h u s d w hrel hgood.1 hw
    rw [answers, emitted_cons_of_next hw]
    exact (hQ u s d w hrel hgood.1 hw).append ht (ih hrel' (along_tail hgood hw) hrest)

end Simulations

end CppWeb.Foundation
