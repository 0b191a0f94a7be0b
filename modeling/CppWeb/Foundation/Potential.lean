/-
  Foundation/Potential.lean --- how long a system can go on by itself.

  A potential is a number that a state has in store.  The actions that count as
  work use some of it up; the others may add to it, each at most its charge.
  What a schedule has done then is bounded by what was there at the start and
  what has been added.

  Some actions are the system's own: nothing from outside is needed for them.
  When each of these uses up some of the potential or changes nothing, the
  system comes to rest on its own: to a state that none of them changes.

  The rules about sums are for potentials that add up the ranks of threads.
-/
import CppWeb.Foundation.Transition
import Mathlib.Algebra.BigOperators.Group.List.Lemmas
import Mathlib.Algebra.GroupWithZero.Nat

set_option autoImplicit false

namespace CppWeb.Foundation

section Ranks

variable {θ : Type}

/-- The sum of the ranks, when one thread moves. -/
theorem sum_map_set (rank : θ → Nat) {threads : List θ} {i : Nat} {t : θ} (u : θ)
    (hget : threads[i]? = some t) :
    ((threads.set i u).map rank).sum + rank t = (threads.map rank).sum + rank u := by
  induction threads generalizing i with
  | nil => simp at hget
  | cons v threads ih =>
    cases i with
    | zero =>
      obtain rfl : v = t := by simpa using hget
      simp only [List.set_cons_zero, List.map_cons, List.sum_cons]
      omega
    | succ i =>
      have htail : threads[i]? = some t := by simpa using hget
      have := ih htail
      simp only [List.set_cons_succ, List.map_cons, List.sum_cons]
      omega

/-- The sum of the ranks, when all threads move by `f` and no rank rises by more than
a constant. -/
theorem sum_map_le (rank after : θ → Nat) {f : θ → θ} {k : Nat}
    (h : ∀ t, after (f t) ≤ rank t + k) (threads : List θ) :
    ((threads.map f).map after).sum ≤ (threads.map rank).sum + k * threads.length := by
  induction threads with
  | nil => exact Nat.zero_le _
  | cons t threads ih =>
    have := h t
    simp only [List.map_cons, List.sum_cons, List.length_cons, Nat.mul_succ]
    omega

end Ranks

section Potential

variable {ε σ α : Type} {step : σ → α → Outcome ε σ}

variable (step) in
/-- Each step pays for itself out of the potential and its charge. -/
def Amortised (potential : σ → Nat) (works : α → Bool) (charge : α → Nat) : Prop :=
  ∀ s a t, step s a = .next t →
    (if works a then 1 else 0) + potential t ≤ potential s + charge a

/-- **What a schedule has done while a condition lasts.**  Under an invariant, a
step after which the condition holds began with it and pays for itself: then a
schedule that ends with the condition is bounded by what there was at the
start and what has been added. -/
theorem countP_le_of_lasting {I W : σ → Prop} {potential : σ → Nat} {works : α → Bool}
    {charge : α → Nat} (hI : ∀ s a t, I s → step s a = .next t → I t)
    (hW : ∀ s a t, I s → step s a = .next t → W t →
      W s ∧ (if works a then 1 else 0) + potential t ≤ potential s + charge a)
    {s t : σ} {as : List α} (hs : I s) (hrun : run step s as = some t) (ht : W t) :
    W s ∧ as.countP works + potential t ≤ potential s + (as.map charge).sum := by
  induction as generalizing s with
  | nil =>
    cases hrun
    exact ⟨ht, by simp⟩
  | cons a as ih =>
    obtain ⟨u, hu, hrest⟩ := run_cons_eq_some.mp hrun
    obtain ⟨hlasts, htail⟩ := ih (hI s a u hs hu) hrest
    obtain ⟨hbegan, hhead⟩ := hW s a u hs hu hlasts
    refine ⟨hbegan, ?_⟩
    rw [List.countP_cons, List.map_cons, List.sum_cons]
    omega

/-- **What a schedule has done.** -/
theorem Amortised.run {potential : σ → Nat} {works : α → Bool} {charge : α → Nat}
    (h : Amortised step potential works charge) {s t : σ} {as : List α}
    (hrun : run step s as = some t) :
    as.countP works + potential t ≤ potential s + (as.map charge).sum :=
  (countP_le_of_lasting (I := fun _ => True) (W := fun _ => True) (fun _ _ _ _ _ => trivial)
    (fun s a t _ hst _ => ⟨trivial, h s a t hst⟩) trivial hrun trivial).2

variable (step) in
/-- No action of the system's own changes the state. -/
def AtRest (own : α → Prop) (s : σ) : Prop :=
  ∀ a t, own a → step s a = .next t → t = s

/-- **The system comes to rest.**  Some schedule of its own actions, no longer
than the potential, leads to a state that none of them changes. -/
theorem exists_run_atRest {potential : σ → Nat} {own : α → Prop}
    (h : ∀ s a t, own a → step s a = .next t → t = s ∨ potential t < potential s) (s : σ) :
    ∃ as t, (∀ a ∈ as, own a) ∧ as.length ≤ potential s ∧ run step s as = some t ∧
      AtRest step own t := by
  induction hn : potential s using Nat.strong_induction_on generalizing s with
  | _ n ih =>
    by_cases hrest : AtRest step own s
    · exact ⟨[], s, by simp, Nat.zero_le _, rfl, hrest⟩
    · -- some action of its own changes the state, and so uses up potential
      unfold AtRest at hrest
      push Not at hrest
      obtain ⟨a, u, hown, hu, hne⟩ := hrest
      have hlt : potential u < potential s := (h s a u hown hu).resolve_left hne
      obtain ⟨as, t, hall, hlength, hrun, hrest⟩ := ih _ (hn ▸ hlt) u rfl
      refine ⟨a :: as, t, List.forall_mem_cons.mpr ⟨hown, hall⟩, ?_, ?_, hrest⟩
      · rw [List.length_cons]
        omega
      · rw [run_cons_of_next hu, hrun]

end Potential

end CppWeb.Foundation
