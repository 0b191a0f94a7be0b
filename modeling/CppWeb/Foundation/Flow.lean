/-
  Foundation/Flow.lean --- what passes through a system, in order.

  A stage takes items in, holds them for a while and gives them out again in
  the order they came.  All that is asked of it is asked of one step:

      inside ++ entering = leaving ++ inside'

  From this the run lemma follows by induction: whatever was inside at the
  start and everything that has entered is everything that has left and what is
  inside now.  Stages compose: when what leaves one is what enters the next,
  the two of them are one stage, with the later one's contents in front.  A
  stage of a component is a stage of every system the component is part of.
-/
import CppWeb.Foundation.Transition

set_option autoImplicit false

namespace CppWeb.Foundation

section Emissions

variable {ε σ α β : Type} (step : σ → α → Outcome ε σ)

/-- What the steps of a run put out, one after the other.  The run ends with
the first action that does not lead anywhere. -/
def emitted (out : σ → α → List β) : σ → List α → List β
  | _, [] => []
  | s, a :: as =>
      match step s a with
      | .next t => out s a ++ emitted out t as
      | .disabled => []
      | .abort _ => []

variable {step}

theorem emitted_cons_of_next {out : σ → α → List β} {s t : σ} {a : α} (h : step s a = .next t)
    (as : List α) : emitted step out s (a :: as) = out s a ++ emitted step out t as := by
  simp [emitted, h]

/-- What every step puts out nothing of, no run puts out anything of. -/
theorem emitted_nothing (s : σ) (as : List α) :
    emitted step (fun _ _ => ([] : List β)) s as = [] := by
  induction as generalizing s with
  | nil => rfl
  | cons a as ih =>
    rw [emitted]
    split
    · exact ih _
    · rfl
    · rfl

/-- What holds of every action in every state holds along every run. -/
theorem along_of_always {Q : σ → α → Prop} (h : ∀ s a, Q s a) (s : σ) (as : List α) :
    Along step Q s as :=
  (throughout_of_invariant step (I := fun _ => True) trivial (fun _ _ _ _ _ => trivial) as).along
    fun s a _ => h s a

end Emissions

/-! ## Stages -/

section Stages

variable {ε σ α β : Type}

/-- `inside` is a stage between `entering` and `leaving`, as long as the
actions are `good`; `I` is the invariant that carries it. -/
structure Stage (step : σ → α → Outcome ε σ) (I : σ → Prop) (good : σ → α → Prop)
    (entering leaving : σ → α → List β) (inside : σ → List β) : Prop where
  keeps : ∀ s a t, I s → good s a → step s a = .next t → I t
  conserves : ∀ s a t, I s → good s a → step s a = .next t →
    inside s ++ entering s a = leaving s a ++ inside t

variable {step : σ → α → Outcome ε σ} {I J : σ → Prop} {good fine : σ → α → Prop}
  {entering middle leaving : σ → α → List β} {inside behind : σ → List β}

/-- **Run lemma.**  Over a whole run nothing is lost, added or reordered. -/
theorem Stage.run (h : Stage step I good entering leaving inside) {s t : σ} {as : List α}
    (hs : I s) (hgood : Along step good s as) (hrun : run step s as = some t) :
    I t ∧ inside s ++ emitted step entering s as = emitted step leaving s as ++ inside t := by
  induction as generalizing s with
  | nil =>
    cases hrun
    exact ⟨hs, by simp [emitted]⟩
  | cons a as ih =>
    obtain ⟨u, hu, hrest⟩ := run_cons_eq_some.mp hrun
    have hone := h.conserves s a u hs hgood.1 hu
    obtain ⟨ht, hmore⟩ := ih (h.keeps s a u hs hgood.1 hu) (along_tail hgood hu) hrest
    refine ⟨ht, ?_⟩
    rw [emitted_cons_of_next hu, emitted_cons_of_next hu, ← List.append_assoc, hone,
      List.append_assoc, hmore, List.append_assoc]

/-- **Composition.**  What leaves the first stage enters the second. -/
theorem Stage.comp (h₁ : Stage step I good entering middle inside)
    (h₂ : Stage step J fine middle leaving behind) :
    Stage step (fun s => I s ∧ J s) (fun s a => good s a ∧ fine s a) entering leaving
      (fun s => behind s ++ inside s) := by
  refine ⟨fun s a t hs hgood hstep => ?_, fun s a t hs hgood hstep => ?_⟩
  · exact ⟨h₁.keeps s a t hs.1 hgood.1 hstep, h₂.keeps s a t hs.2 hgood.2 hstep⟩
  · have hfirst := h₁.conserves s a t hs.1 hgood.1 hstep
    have hsecond := h₂.conserves s a t hs.2 hgood.2 hstep
    calc behind s ++ inside s ++ entering s a
        = behind s ++ (middle s a ++ inside t) := by rw [List.append_assoc, hfirst]
      _ = leaving s a ++ behind t ++ inside t := by rw [← List.append_assoc, hsecond]
      _ = leaving s a ++ (behind t ++ inside t) := List.append_assoc _ _ _

/-- More may be asked of the states and the actions. -/
theorem Stage.strengthen (h : Stage step I good entering leaving inside)
    (hJ : ∀ s a t, J s → fine s a → step s a = .next t → J t) (hI : ∀ s, J s → I s)
    (hgood : ∀ s a, fine s a → good s a) : Stage step J fine entering leaving inside :=
  ⟨hJ, fun s a t hs ha hstep => h.conserves s a t (hI s hs) (hgood s a ha) hstep⟩

theorem Stage.restrict (h : Stage step I good entering leaving inside)
    (hgood : ∀ s a, fine s a → good s a) : Stage step I fine entering leaving inside :=
  h.strengthen (fun s a t hs ha => h.keeps s a t hs (hgood s a ha)) (fun _ hs => hs) hgood

/-- A history of what enters is a stage that nothing leaves. -/
theorem Stage.of_history {history : σ → List β}
    (hkeeps : ∀ s a t, I s → good s a → step s a = .next t → I t)
    (h : ∀ s a t, I s → good s a → step s a = .next t → history t = history s ++ entering s a) :
    Stage step I good entering (fun _ _ => []) history :=
  ⟨hkeeps, fun s a t hs hgood hstep => by rw [h s a t hs hgood hstep, List.nil_append]⟩

theorem Stage.history (h : Stage step I good entering (fun _ _ => []) inside) {s t : σ}
    {as : List α} (hs : I s) (hgood : Along step good s as)
    (hrun : Foundation.run step s as = some t) :
    inside t = inside s ++ emitted step entering s as := by
  have hall := (h.run hs hgood hrun).2
  rw [emitted_nothing, List.nil_append] at hall
  exact hall.symm

end Stages

/-! ## Components -/

section Components

variable {ε σ α τ δ β : Type}

/-- `part` is a component of the system: a step of the system is a step of the
component, the one that `act` tells, or leaves the component as it was. -/
structure Component (system : τ → δ → Outcome ε τ) (step : σ → α → Outcome ε σ) (part : τ → σ)
    (act : τ → δ → Option α) : Prop where
  moves : ∀ u d v a, system u d = .next v → act u d = some a →
    step (part u) a = .next (part v)
  rests : ∀ u d v, system u d = .next v → act u d = none → part v = part u

/-- What the component puts out in a step of the system. -/
def through (part : τ → σ) (act : τ → δ → Option α) (out : σ → α → List β) (u : τ) (d : δ) :
    List β :=
  match act u d with
  | some a => out (part u) a
  | none => []

theorem through_nothing (part : τ → σ) (act : τ → δ → Option α) :
    through part act (fun _ _ => ([] : List β)) = fun _ _ => [] := by
  funext u d
  rw [through]
  split <;> rfl

variable {system : τ → δ → Outcome ε τ} {step : σ → α → Outcome ε σ} {part : τ → σ}
  {act : τ → δ → Option α}

/-- An invariant of the component is one of the system. -/
theorem Component.keeps (c : Component system step part act) {I : σ → Prop}
    {good : σ → α → Prop} (h : ∀ s a t, I s → good s a → step s a = .next t → I t) {u v : τ}
    {d : δ} (hu : I (part u)) (hgood : ∀ a, act u d = some a → good (part u) a)
    (hstep : system u d = .next v) : I (part v) := by
  cases hact : act u d with
  | some a => exact h _ a _ hu (hgood a hact) (c.moves u d v a hstep hact)
  | none =>
    rw [c.rests u d v hstep hact]
    exact hu

/-- **A stage of a component is a stage of the system.** -/
theorem Stage.lift {I : σ → Prop} {good : σ → α → Prop} {entering leaving : σ → α → List β}
    {inside : σ → List β} (h : Stage step I good entering leaving inside)
    (c : Component system step part act) :
    Stage system (fun u => I (part u)) (fun u d => ∀ a, act u d = some a → good (part u) a)
      (through part act entering) (through part act leaving) (fun u => inside (part u)) := by
  refine ⟨fun u d v hu hgood hstep => c.keeps h.keeps hu hgood hstep,
    fun u d v hu hgood hstep => ?_⟩
  rw [through, through]
  cases hact : act u d with
  | some a => exact h.conserves _ a _ hu (hgood a hact) (c.moves u d v a hstep hact)
  | none => simp [c.rests u d v hstep hact]

/-- What a component keeps a history of, the system does. -/
theorem Stage.history_of_component {entering : σ → α → List β} {history : σ → List β}
    (h : Stage step (fun _ => True) (fun _ _ => True) entering (fun _ _ => []) history)
    (c : Component system step part act) {u v : τ} {ds : List δ}
    (hrun : Foundation.run system u ds = some v) :
    history (part v) = history (part u) ++ emitted system (through part act entering) u ds := by
  have hlift := h.lift c
  rw [through_nothing] at hlift
  exact hlift.history trivial (along_of_always (fun _ _ _ _ => trivial) u ds) hrun

end Components

end CppWeb.Foundation
