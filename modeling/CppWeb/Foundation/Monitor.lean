/-
  Foundation/Monitor.lean --- threads that sleep on a condition variable.

  The threads of a program are a list of places: what is at index `i` says
  where thread `i` is in its code.  A condition variable knows which places are
  asleep on it and which place a thread is moved to when it is notified.
  Notifying one moves one sleeper if there is one, and the caller names the
  sleeper, since the choice is not the program's.  Waking out of turn needs no
  definition of its own: it is a step of the thread.

  The counting rules say how many threads are at the places a predicate
  selects, before and after one thread moves.
-/
import Mathlib.Data.List.Count
import Mathlib.Data.List.Nodup

set_option autoImplicit false

namespace CppWeb.Foundation

section Places

variable {θ : Type}

/-- A property of all threads after one of them has moved. -/
theorem forall_set {P : Nat → θ → Prop} {threads : List θ} {i : Nat} {u : θ}
    (hothers : ∀ j t, j ≠ i → threads[j]? = some t → P j t) (hmoved : P i u) :
    ∀ j t, (threads.set i u)[j]? = some t → P j t := by
  intro j t hget
  rw [List.getElem?_set] at hget
  split at hget
  · rename_i hij
    subst hij
    split at hget
    · cases hget
      exact hmoved
    · cases hget
  · rename_i hij
    exact hothers j t (fun h => hij h.symm) hget

/-- A property of all threads after one more has come. -/
theorem forall_concat {P : Nat → θ → Prop} {threads : List θ} {u : θ}
    (hall : ∀ i t, threads[i]? = some t → P i t) (hnew : P threads.length u) :
    ∀ i t, (threads ++ [u])[i]? = some t → P i t := by
  intro i t hget
  rw [List.getElem?_append] at hget
  split at hget
  · exact hall i t hget
  · rename_i hi
    have hlt := (List.getElem?_eq_some_iff.mp hget).1
    rw [List.length_singleton] at hlt
    obtain rfl : i = threads.length := by omega
    rw [Nat.sub_self, List.getElem?_cons_zero] at hget
    cases hget
    exact hnew

/-- A thread that has moved is in the list still. -/
theorem mem_set_of_getElem? {threads : List θ} {i : Nat} {t : θ} (u : θ)
    (hget : threads[i]? = some t) : u ∈ threads.set i u := by
  obtain ⟨hi, _⟩ := List.getElem?_eq_some_iff.mp hget
  exact List.mem_set hi u

/-- The threads at the selected places, when one thread moves. -/
theorem countP_set (p : θ → Bool) {threads : List θ} {i : Nat} {t : θ} (u : θ)
    (hget : threads[i]? = some t) :
    (threads.set i u).countP p + (if p t then 1 else 0) =
      threads.countP p + (if p u then 1 else 0) := by
  induction threads generalizing i with
  | nil => simp at hget
  | cons v threads ih =>
    cases i with
    | zero =>
      obtain rfl : v = t := by simpa using hget
      simp only [List.set_cons_zero, List.countP_cons]
      omega
    | succ i =>
      have htail : threads[i]? = some t := by simpa using hget
      have := ih htail
      simp only [List.set_cons_succ, List.countP_cons]
      omega

/-- Every thread is somewhere else when one thread moves and the others do not
rest at the place. -/
theorem forall_mem_set {P : θ → Prop} {threads : List θ} {i : Nat} {u : θ}
    (h : ∀ t ∈ threads, P t) (hu : P u) : ∀ t ∈ threads.set i u, P t := by
  intro t ht
  rcases List.mem_or_eq_of_mem_set ht with hmem | rfl
  · exact h t hmem
  · exact hu

end Places

/-- A condition variable: the places of the threads that are asleep on it, and
the place a notified thread goes to, which is not one of these. -/
structure Condition (θ : Type) where
  /-- the thread is in `wait` and has not been notified -/
  asleep : θ → Bool
  /-- where `wait` is left -/
  wake : θ → θ
  /-- a notified thread is not asleep -/
  awake : ∀ t, asleep (wake t) = false

namespace Condition

variable {θ : Type} (cond : Condition θ)

/-- `notify_one`: one sleeper, the one that is named, is woken; none is named
only if nobody is asleep. -/
def notifyOne (threads : List θ) : Option Nat → Option (List θ)
  | some i =>
      match threads[i]? with
      | some t => if cond.asleep t then some (threads.set i (cond.wake t)) else none
      | none => none
  | none => if threads.any cond.asleep then none else some threads

/-- `notify_all`. -/
def notifyAll (threads : List θ) : List θ :=
  threads.map fun t => if cond.asleep t then cond.wake t else t

/-- `notify_one` as the only thread that ever sleeps on the variable sees it. -/
def notify (t : θ) : θ := if cond.asleep t then cond.wake t else t

/-- What `notify_one` can do to the threads. -/
inductive Notified (threads : List θ) : List θ → Prop where
  /-- nobody was asleep -/
  | nobody (h : ∀ t ∈ threads, cond.asleep t = false) : Notified threads threads
  /-- thread `i` was asleep and has been woken -/
  | one (i : Nat) (t : θ) (hget : threads[i]? = some t) (hasleep : cond.asleep t = true) :
      Notified threads (threads.set i (cond.wake t))

variable {cond}

theorem notified_of_notifyOne {threads after : List θ} {choice : Option Nat}
    (h : cond.notifyOne threads choice = some after) : cond.Notified threads after := by
  cases choice with
  | none =>
    rw [notifyOne] at h
    split at h
    · cases h
    · rename_i hany
      cases h
      refine .nobody fun t ht => ?_
      rw [Bool.eq_false_iff]
      exact fun hasleep => hany (List.any_eq_true.mpr ⟨t, ht, hasleep⟩)
  | some i =>
    rw [notifyOne] at h
    split at h
    · rename_i t hget
      split at h
      · rename_i hasleep
        cases h
        exact .one i t hget hasleep
      · cases h
    · cases h

/-- `notify_one` always goes through: for some choice of the sleeper. -/
theorem exists_notifyOne (cond : Condition θ) (threads : List θ) :
    ∃ choice after, cond.notifyOne threads choice = some after := by
  by_cases hany : threads.any cond.asleep = true
  · obtain ⟨t, hmem, hasleep⟩ := List.any_eq_true.mp hany
    obtain ⟨i, hget⟩ := List.mem_iff_getElem?.mp hmem
    refine ⟨some i, threads.set i (cond.wake t), ?_⟩
    simp only [notifyOne, hget, hasleep, if_true]
  · refine ⟨none, threads, ?_⟩
    rw [notifyOne, if_neg hany]

/-- `notify_one` with nobody asleep. -/
theorem notifyOne_none {threads : List θ} (h : ∀ t ∈ threads, cond.asleep t = false) :
    cond.notifyOne threads none = some threads := by
  rw [notifyOne, if_neg]
  rw [List.any_eq_true]
  rintro ⟨t, ht, hasleep⟩
  rw [h t ht] at hasleep
  cases hasleep

/-- The thread is awake afterwards, whether or not it was asleep. -/
theorem asleep_notify (t : θ) : cond.asleep (cond.notify t) = false := by
  rw [notify]
  split
  · exact cond.awake t
  · rename_i hawake
    exact Bool.eq_false_iff.mpr hawake

theorem notify_of_awake {t : θ} (h : cond.asleep t = false) : cond.notify t = t := by
  rw [notify, h]
  exact if_neg Bool.false_ne_true

/-- The number of threads does not change. -/
theorem Notified.length_eq {threads after : List θ} (h : cond.Notified threads after) :
    after.length = threads.length := by
  cases h with
  | nobody _ => rfl
  | one i t _ _ => exact List.length_set

/-- **The wakeup is not wasted.**  After `notify_one` some thread is awake, if
there are threads at all. -/
theorem Notified.exists_awake {threads after : List θ} (h : cond.Notified threads after)
    (hne : threads ≠ []) : ∃ t ∈ after, cond.asleep t = false := by
  cases h with
  | nobody hall =>
    obtain ⟨t, ht⟩ := List.exists_mem_of_ne_nil threads hne
    exact ⟨t, ht, hall t ht⟩
  | one i t hget _ => exact ⟨cond.wake t, mem_set_of_getElem? _ hget, cond.awake t⟩

/-- What holds of every thread still does, if it holds of a notified one. -/
theorem Notified.forall {P : Nat → θ → Prop} {threads after : List θ}
    (h : cond.Notified threads after) (hall : ∀ i t, threads[i]? = some t → P i t)
    (hwake : ∀ i t, threads[i]? = some t → cond.asleep t = true → P i (cond.wake t)) :
    ∀ i t, after[i]? = some t → P i t := by
  cases h with
  | nobody _ => exact hall
  | one i t hget hasleep =>
    exact forall_set (fun j u _ hu => hall j u hu) (hwake i t hget hasleep)

/-- A thread that was not asleep has not moved. -/
theorem Notified.getElem? {threads after : List θ} (h : cond.Notified threads after) {i : Nat}
    {t : θ} (hget : threads[i]? = some t) (hawake : cond.asleep t = false) :
    after[i]? = some t := by
  cases h with
  | nobody _ => exact hget
  | one j u hj hasleep =>
    have hne : j ≠ i := by
      rintro rfl
      rw [hget] at hj
      cases hj
      rw [hawake] at hasleep
      cases hasleep
    rw [List.getElem?_set_ne hne]
    exact hget

/-- **Counting.**  If somebody was asleep, one sleeper less, and one thread more
at the places that sleepers are not at and notified threads are. -/
theorem Notified.count {threads after : List θ} (h : cond.Notified threads after)
    {p : θ → Bool} (hsleeper : ∀ t, cond.asleep t = true → p t = false)
    (hwake : ∀ t, cond.asleep t = true → p (cond.wake t) = true) :
    (threads.countP cond.asleep = 0 ∧ after = threads) ∨
      (after.countP cond.asleep + 1 = threads.countP cond.asleep ∧
        after.countP p = threads.countP p + 1) := by
  cases h with
  | nobody hall =>
    refine Or.inl ⟨List.countP_eq_zero.mpr fun t ht => ?_, rfl⟩
    rw [hall t ht]
    exact Bool.false_ne_true
  | one i t hget hasleep =>
    have hslept := countP_set cond.asleep (cond.wake t) hget
    have hmoved := countP_set p (cond.wake t) hget
    simp only [hasleep, cond.awake, hsleeper t hasleep, hwake t hasleep, if_true,
      Bool.false_eq_true, if_false] at hslept hmoved
    exact Or.inr ⟨by omega, by omega⟩

theorem not_asleep_of_mem_notifyAll {threads : List θ} {t : θ}
    (h : t ∈ cond.notifyAll threads) : cond.asleep t = false := by
  obtain ⟨u, _, rfl⟩ := List.mem_map.mp h
  split
  · exact cond.awake u
  · rename_i hawake
    exact Bool.eq_false_iff.mpr hawake

/-- What holds of every thread still does after `notify_all`, if it holds of a
notified one. -/
theorem forall_notifyAll {P : Nat → θ → Prop} {threads : List θ}
    (hall : ∀ i t, threads[i]? = some t → P i t)
    (hwake : ∀ i t, threads[i]? = some t → cond.asleep t = true → P i (cond.wake t)) :
    ∀ i t, (cond.notifyAll threads)[i]? = some t → P i t := by
  intro i t hget
  rw [notifyAll, List.getElem?_map] at hget
  obtain ⟨u, hu, rfl⟩ := Option.map_eq_some_iff.mp hget
  split
  · rename_i hasleep
    exact hwake i u hu hasleep
  · exact hall i u hu

end Condition

end CppWeb.Foundation
