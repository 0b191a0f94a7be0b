/-
  Tcp/Lifetime.lean --- what the loop runs on a destroyed connection.

  Whoever is in a call of the connection holds a reference, and so does every
  closure that has captured one and every callback under the guard of
  `handleEvents`.  So once the last reference is gone, nothing is left of the
  connection but closures of `stopRead` and `startRead` in the queue and its
  channel in the vector of active channels.  In every run these two are the only
  ways to a destroyed connection, and a run in which neither is open when the
  destructor runs uses no destroyed connection.
-/
import CppWeb.Tcp.Ledger
import CppWeb.Tcp.References

set_option autoImplicit false

namespace CppWeb.Tcp

open CppWeb.Foundation CppWeb.Loop CppWeb.Poll

namespace World

/-! ## Calls and tasks under a step -/

theorem idle_of_round {w v : World} {a : RoundAction} (h : w.step (.loop a) = .next v) :
    w.calls .loop = .idle := by
  rw [step] at h
  split at h
  · assumption
  · cases h

/-- The loop's own steps move no thread in its call. -/
theorem calls_of_round {w v : World} {a : RoundAction} (h : w.step (.loop a) = .next v) :
    v.calls = w.calls := by
  cases step_cases h <;> rfl

theorem calls_ne_idle_of_resume {w v : World} {t : Thread} {io : Io}
    (h : w.step (.resume t io) = .next v) : w.calls t ≠ .idle := by
  intro hidle
  rw [step, resumeStep, hidle] at h
  cases h

/-- A thread that is in a call was so before, or has just made it. -/
theorem calls_of_step {w v : World} {a : Action} (h : w.step a = .next v) {t : Thread}
    (hcall : v.calls t ≠ .idle) : w.calls t ≠ .idle ∨ ∃ c, a = .call t c := by
  have hmoved : ∀ (t' : Thread) (progress : Progress), (w.goto t' progress).calls t ≠ .idle →
      t = t' ∨ w.calls t ≠ .idle := by
    intro t' progress hne
    by_cases ht : t = t'
    · exact Or.inl ht
    · rw [calls_goto_of_ne _ ht] at hne
      exact Or.inr hne
  have hended : ∀ t', (w.goto t' .idle).calls t ≠ .idle → w.calls t ≠ .idle := by
    intro t' hne
    rcases hmoved t' .idle hne with rfl | hbefore
    · exact absurd (calls_goto_self w t .idle) hne
    · exact hbefore
  have hentered : ∀ (t' : Thread) (c : PublicCall) (progress : Progress),
      (w.goto t' progress).calls t ≠ .idle →
      w.calls t ≠ .idle ∨ ∃ c', Action.call t' c = .call t c' := by
    intro t' c progress hne
    rcases hmoved t' progress hne with rfl | hbefore
    · exact Or.inr ⟨c, rfl⟩
    · exact Or.inl hbefore
  have hresumed : ∀ (t' : Thread) (progress : Progress), w.calls t' ≠ .idle →
      (w.goto t' progress).calls t ≠ .idle → w.calls t ≠ .idle := by
    intro t' progress hin hne
    rcases hmoved t' progress hne with rfl | hbefore
    · exact hin
    · exact hbefore
  cases step_cases h with
  | send t' data huser hstate => exact hentered t' _ _ hcall
  | shutdown t' huser hstate => exact hentered t' _ _ hcall
  | forceClose t' huser hstate => exact hentered t' _ _ hcall
  | stopRead t' huser => exact hentered t' _ _ hcall
  | startRead t' huser => exact hentered t' _ _ hcall
  | runHere task io r hin hrun => exact Or.inl (hended .loop hcall)
  | queueHere i task io hin => exact Or.inl (hended (.worker i) hcall)
  | queue t' task io hin => exact Or.inl (hended t' hcall)
  | shutdownMoved t' io hin hstate => exact Or.inl (hresumed t' _ (by simp [hin]) hcall)
  | shutdownLate t' io hin hstate => exact Or.inl (hresumed t' _ (by simp [hin]) hcall)
  | forceCloseMoved t' io hin hstate => exact Or.inl (hresumed t' _ (by simp [hin]) hcall)
  | forceCloseLate t' io hin hstate => exact Or.inl (hresumed t' _ (by simp [hin]) hcall)
  | _ => exact Or.inl hcall

/-- Polling, the swap and the end of a round queue nothing. -/
theorem queue_of_round {w v : World} {a : RoundAction} (h : w.step (.loop a) = .next v)
    (ha : (∃ revents, a = .poll revents) ∨ a = .swap ∨ a = .endRound) :
    ∀ task ∈ v.queue.toList, task ∈ w.queue.toList := by
  cases step_cases h with
  | poll revents hphase => exact fun task hmem => hmem
  | endRound hphase hbatch => exact fun task hmem => hmem
  | swap hphase =>
    intro task hmem
    rw [BatchQueue.toList, BatchQueue.swap, List.append_nil] at hmem
    exact List.mem_append_right _ hmem
  | handleEvents cb rest io r hidle hphase hrun => simp at ha
  | runTask task rest io r hidle hphase hbatch hrun => simp at ha

/-- A task of the batch that is run is its first. -/
theorem batch_of_jobOf {w : World} {io : Io}
    (h : (w.jobOf (.loop (.runTask io))).isSome = true) :
    ∃ task rest, w.queue.batch = task :: rest := by
  obtain ⟨⟨job, io'⟩, hjob⟩ := Option.isSome_iff_exists.mp h
  cases jobFrom_of_jobOf hjob with
  | queue task rest hidle hphase hbatch => exact ⟨task, rest, hbatch⟩

/-- Calls and user code leave the loop where it is. -/
theorem phase_of_step {w v : World} {a : Action} (h : w.step a = .next v)
    (ha : ∀ a', a ≠ .loop a') : v.phase = w.phase := by
  cases step_cases h with
  | poll revents hphase => exact absurd rfl (ha _)
  | handleEvents cb rest io r hidle hphase hrun => exact absurd rfl (ha _)
  | swap hphase => exact absurd rfl (ha _)
  | runTask task rest io r hidle hphase hbatch hrun => exact absurd rfl (ha _)
  | endRound hphase hbatch => exact absurd rfl (ha _)
  | _ => rfl

theorem jobOf_of_runTask {w v : World} {io : Io} (h : w.step (.loop (.runTask io)) = .next v) :
    (w.jobOf (.loop (.runTask io))).isSome = true := by
  cases step_cases h with
  | runTask task rest io r hidle hphase hbatch hrun =>
    rw [jobOf, hidle, hphase, hbatch]
    rfl

end World

namespace Counted

/-! ## No reference left -/

/-- Without a reference the connection has left its owner's set, user code keeps
nothing, no closure has captured it, and `handleEvents` is not running. -/
theorem refCount_eq_zero {s : Counted} :
    s.refCount = 0 ↔ s.owned = false ∧ s.userRefs = [] ∧
      (∀ task ∈ s.closures, task.captures = false) ∧ s.turn ≠ .guarded := by
  have hcaptured : s.closures.countP Task.captures = 0 ↔
      ∀ task ∈ s.closures, task.captures = false := by
    rw [List.countP_eq_zero]
    simp
  have howned : (if s.owned then 1 else 0) = 0 ↔ s.owned = false := by
    cases s.owned <;> simp
  have hturn : (if s.turn = .guarded then 1 else 0) = 0 ↔ s.turn ≠ .guarded := by
    split <;> simp_all
  rw [refCount, Nat.add_eq_zero_iff, Nat.add_eq_zero_iff, Nat.add_eq_zero_iff, howned,
    List.length_eq_zero_iff, hcaptured, hturn, and_assoc, and_assoc]

theorem not_holds_of_refCount {s : Counted} (h : s.refCount = 0) (t : Thread) : ¬ s.Holds t := by
  obtain ⟨_, hrefs, hclosures, hturn⟩ := refCount_eq_zero.mp h
  rintro (hmem | ⟨_, hguarded | ⟨task, hmem, hcaptures⟩⟩)
  · rw [hrefs] at hmem
    cases hmem
  · exact hturn hguarded
  · rw [hclosures task (List.mem_append_left _ hmem)] at hcaptures
    cases hcaptures

/-! ## The invariant -/

/-- A thread in a call holds a reference, and a destroyed connection has none. -/
structure Inv (s : Counted) : Prop where
  callers : ∀ t, s.world.calls t ≠ .idle → s.Holds t
  gone : s.destroyed = true → s.refCount = 0

theorem inv_start (settings : Settings) : (start settings).Inv := by
  refine ⟨fun t hcall => absurd rfl hcall, fun hgone => ?_⟩
  cases hgone

/-- In a destroyed connection nobody is in a call. -/
theorem Inv.idle {s : Counted} (hs : s.Inv) (hgone : s.destroyed = true) (t : Thread) :
    s.world.calls t = .idle := by
  by_contra hcall
  exact not_holds_of_refCount (hs.gone hgone) t (hs.callers t hcall)

/-- When the loop thread is in no call, what a thread needs for its call is what
user code keeps on it. -/
theorem Inv.callers_of_idle {s u : Counted} (hs : s.Inv) (hidle : s.world.calls .loop = .idle)
    (hcalls : u.world.calls = s.world.calls) (hrefs : u.userRefs = s.userRefs) :
    ∀ t, u.world.calls t ≠ .idle → u.Holds t := by
  intro t hcall
  rw [hcalls] at hcall
  rcases hs.callers t hcall with hmem | ⟨rfl, _⟩
  · exact Or.inl (by rwa [hrefs])
  · exact absurd hidle hcall

/-- **References follow the calls.**  Every step leaves each thread that is in a
call with a reference. -/
theorem Inv.callers_step {s t : Counted} {a : RefAction} (hs : s.Inv) (h : s.step a = .next t) :
    ∀ t', t.world.calls t' ≠ .idle → t.Holds t' := by
  cases step_cases h with
  | poll revents w hreports hstep =>
    exact hs.callers_of_idle (World.idle_of_round hstep) (World.calls_of_round hstep) rfl
  | lockFailed hturn hidle halive hcount => exact hs.callers_of_idle hidle rfl rfl
  | locked hturn hidle halive hcount => exact hs.callers_of_idle hidle rfl rfl
  | callback io w hturn hstep =>
    exact hs.callers_of_idle (World.idle_of_round hstep) (World.calls_of_round hstep) rfl
  | handled hturn hphase hidle => exact hs.callers_of_idle hidle rfl rfl
  | swap w hturn hstep =>
    exact hs.callers_of_idle (World.idle_of_round hstep) (World.calls_of_round hstep) rfl
  | runTask io w halive hstep =>
    exact hs.callers_of_idle (World.idle_of_round hstep) (World.calls_of_round hstep) rfl
  | endRound w hstep =>
    exact hs.callers_of_idle (World.idle_of_round hstep) (World.calls_of_round hstep) rfl
  | call t c w hholds hstep =>
    intro t' hcall
    rcases World.calls_of_step hstep hcall with hbefore | ⟨c', heq⟩
    · exact hs.callers t' hbefore
    · cases heq
      exact hholds
  | resume t io w hstep =>
    intro t' hcall
    rcases World.calls_of_step hstep hcall with hbefore | ⟨c', heq⟩
    · exact hs.callers t' hbefore
    · cases heq
  | user a w hholds hstep =>
    intro t' hcall
    rcases World.calls_of_step hstep hcall with hbefore | ⟨c', heq⟩
    · exact hs.callers t' hbefore
    · cases heq
  | copy t t' hholds =>
    intro t'' hcall
    rcases hs.callers t'' hcall with hmem | hloop
    · exact Or.inl (List.mem_cons_of_mem t' hmem)
    · exact Or.inr hloop
  | release t hmem hidle =>
    intro t' hcall
    have hne : t' ≠ t := fun heq => hcall (by rw [heq]; exact hidle)
    rcases hs.callers t' hcall with hmem' | hloop
    · exact Or.inl ((List.mem_erase_of_ne hne).mpr hmem')
    · exact Or.inr hloop
  | destroy hcount halive => exact hs.callers

/-- What is left of a destroyed connection only becomes less. -/
structure Fades (s t : Counted) : Prop where
  destroyed : t.destroyed = true
  owned : t.owned = s.owned
  userRefs : t.userRefs = s.userRefs
  done : ∀ task ∈ t.done, task ∈ s.done
  queue : ∀ task ∈ t.world.queue.toList, task ∈ s.world.queue.toList
  turn : t.turn = s.turn ∨ t.turn = .none

/-- **After the destructor.**  No thread can make or resume a call, no callback
is called and no closure is run: the loop polls, swaps and ends its rounds. -/
theorem Inv.fades {s t : Counted} {a : RefAction} (hs : s.Inv) (hgone : s.destroyed = true)
    (h : s.step a = .next t) : s.Fades t := by
  have hcount := hs.gone hgone
  have hturn := (refCount_eq_zero.mp hcount).2.2.2
  cases step_cases h with
  | poll revents w hreports hstep =>
    refine ⟨hgone, rfl, rfl, fun _ hmem => hmem, ?_, Or.inr ?_⟩
    · exact World.queue_of_round hstep (Or.inl ⟨revents, rfl⟩)
    · exact if_pos (hreports.2 hgone)
  | lockFailed hactive hidle halive hzero =>
    rw [hgone] at halive
    cases halive
  | locked hactive hidle halive hzero => exact absurd hcount hzero
  | callback io w hguarded hstep => exact absurd hguarded hturn
  | handled hguarded hphase hidle => exact absurd hguarded hturn
  | swap w hnone hstep =>
    refine ⟨hgone, rfl, rfl, fun _ hmem => hmem, ?_, Or.inl rfl⟩
    exact World.queue_of_round hstep (Or.inr (Or.inl rfl))
  | runTask io w halive hstep =>
    exact absurd ⟨hgone, World.jobOf_of_runTask hstep⟩ halive
  | endRound w hstep =>
    refine ⟨hgone, rfl, rfl, fun _ hmem => absurd hmem List.not_mem_nil, ?_, Or.inl rfl⟩
    exact World.queue_of_round hstep (Or.inr (Or.inr rfl))
  | call t c w hholds hstep => exact absurd hholds (not_holds_of_refCount hcount t)
  | resume t io w hstep => exact absurd (hs.idle hgone t) (World.calls_ne_idle_of_resume hstep)
  | user a w hholds hstep => exact absurd hholds (not_holds_of_refCount hcount .loop)
  | copy t t' hholds => exact absurd hholds (not_holds_of_refCount hcount t)
  | release t hmem hidle => exact absurd (Or.inl hmem) (not_holds_of_refCount hcount t)
  | destroy hzero halive =>
    rw [hgone] at halive
    cases halive

theorem Fades.refCount {s t : Counted} (h : s.Fades t) (hcount : s.refCount = 0) :
    t.refCount = 0 := by
  obtain ⟨howned, hrefs, hclosures, hturn⟩ := refCount_eq_zero.mp hcount
  refine refCount_eq_zero.mpr ⟨h.owned.trans howned, h.userRefs.trans hrefs, ?_, ?_⟩
  · intro task hmem
    rcases List.mem_append.mp hmem with hdone | hqueue
    · exact hclosures task (List.mem_append_left _ (h.done task hdone))
    · exact hclosures task (List.mem_append_right _ (h.queue task hqueue))
  · rcases h.turn with hsame | hnone
    · rwa [hsame]
    · rw [hnone]
      simp

/-- Only the destructor destroys. -/
theorem destroyed_of_step {s t : Counted} {a : RefAction} (h : s.step a = .next t)
    (halive : s.destroyed = false) (hgone : t.destroyed = true) :
    a = .destroy ∧ s.refCount = 0 ∧ t = { s with destroyed := true } := by
  cases step_cases h with
  | destroy hcount _ => exact ⟨rfl, hcount, rfl⟩
  | _ =>
    have hsame : s.destroyed = true := hgone
    rw [halive] at hsame
    cases hsame

/-- **One step.** -/
theorem Inv.step {s t : Counted} {a : RefAction} (hs : s.Inv) (h : s.step a = .next t) :
    t.Inv := by
  refine ⟨hs.callers_step h, fun hgone => ?_⟩
  cases hbefore : s.destroyed with
  | true => exact (hs.fades hbefore h).refCount (hs.gone hbefore)
  | false =>
    obtain ⟨_, hcount, rfl⟩ := destroyed_of_step h hbefore hgone
    exact hcount

/-! ## The two ways to a destroyed connection -/

/-- Something leads to the connection without keeping it alive: a closure that
has captured `this` is queued, or the channel waits in the vector of active
channels. -/
def Exposed (s : Counted) : Prop :=
  (∃ task ∈ s.world.queue.toList, task.captures = false) ∨ s.turn = .active

instance (s : Counted) : Decidable s.Exposed :=
  inferInstanceAs (Decidable ((∃ task ∈ _, _) ∨ _))

/-- The loop follows such a pointer. -/
def FollowsRaw (s : Counted) : RefAction → Prop
  | .handleEvents => s.turn = .active
  | .runTask _ => ∃ task rest, s.world.queue.batch = task :: rest ∧ task.captures = false
  | _ => False

theorem FollowsRaw.exposed {s : Counted} {a : RefAction} (h : s.FollowsRaw a) : s.Exposed := by
  cases a with
  | handleEvents => exact Or.inr h
  | runTask io =>
    obtain ⟨task, rest, hbatch, hraw⟩ := h
    refine Or.inl ⟨task, ?_, hraw⟩
    rw [BatchQueue.toList, hbatch]
    exact List.mem_cons_self
  | _ => exact absurd h id

/-- The step uses no destroyed connection. -/
def UsesLive (s : Counted) (a : RefAction) : Prop :=
  (s.step a).Stops fun stop => stop ≠ .destroyedConnection

instance (s : Counted) (a : RefAction) : Decidable (s.UsesLive a) :=
  inferInstanceAs (Decidable (Outcome.Stops _ _))

/-- A step that uses a destroyed connection follows a raw pointer to it. -/
theorem followsRaw_of_stop {s : Counted} {a : RefAction} (hs : s.Inv)
    (h : s.step a = .abort .destroyedConnection) : s.destroyed = true ∧ s.FollowsRaw a := by
  have hholds : s.destroyed = true → ∀ t, ¬ s.Holds t :=
    fun hgone => not_holds_of_refCount (hs.gone hgone)
  cases a with
  | handleEvents =>
    rw [step] at h
    split at h
    · rename_i hturn
      rw [handleEvents] at h
      split at h
      · rename_i hgone
        exact ⟨hgone, hturn.1⟩
      · split at h <;> cases h
    · cases h
  | runTask io =>
    have hused : s.runs (.loop (.runTask io)) = .abort .destroyedConnection := by
      rw [step] at h
      cases hruns : s.runs (.loop (.runTask io)) with
      | disabled => rw [hruns] at h; cases h
      | abort stop => rw [hruns] at h; exact h
      | next t => rw [hruns] at h; cases h
    obtain ⟨hgone, hjob⟩ := runs_eq_destroyed.mp hused
    obtain ⟨task, rest, hbatch⟩ := World.batch_of_jobOf hjob
    refine ⟨hgone, task, rest, hbatch, ?_⟩
    refine (refCount_eq_zero.mp (hs.gone hgone)).2.2.1 task (List.mem_append_right _ ?_)
    rw [BatchQueue.toList, hbatch]
    exact List.mem_cons_self
  | callback io =>
    rw [step] at h
    split at h
    · rename_i hguarded
      obtain ⟨hgone, _⟩ := runs_eq_destroyed.mp h
      exact absurd hguarded (refCount_eq_zero.mp (hs.gone hgone)).2.2.2
    · cases h
  | resume t io =>
    -- only the loop thread runs closures in its calls, and in a call it holds a reference
    obtain ⟨hgone, hjob⟩ := runs_eq_destroyed.mp h
    have hidle := hs.idle hgone
    cases t with
    | worker i => cases hjob
    | loop =>
      rw [World.jobOf, hidle .loop] at hjob
      cases hjob
  | poll revents =>
    rw [step] at h
    split at h
    · exact absurd h (lift_ne_destroyed _ _)
    · cases h
  | swap =>
    rw [step] at h
    split at h
    · exact absurd h (lift_ne_destroyed _ _)
    · cases h
  | endRound => exact absurd h (lift_ne_destroyed _ _)
  | call t c =>
    rw [step] at h
    split at h
    · exact absurd h (lift_ne_destroyed _ _)
    · cases h
  | user a =>
    rw [step] at h
    split at h
    · exact absurd h (lift_ne_destroyed _ _)
    · cases h
  | handled => rw [step] at h; split at h <;> cases h
  | copy t t' => rw [step] at h; split at h <;> cases h
  | release t => rw [step] at h; split at h <;> cases h
  | destroy =>
    rw [step] at h
    split at h
    · rw [destroy] at h
      split at h <;> cases h
    · cases h

/-- **Captured references keep the connection alive.**  In every run, with any
calls on any threads that hold a reference, a handler or closure only runs on a
destroyed connection when the loop calls a channel of its vector or runs a
closure of `stopRead` or `startRead`. -/
theorem captured_keeps_alive (settings : Settings) (actions : List RefAction) :
    Along step (fun s a => (s.step a).Stops fun stop =>
      stop = .destroyedConnection → s.FollowsRaw a) (start settings) actions := by
  have hinv := throughout_of_invariant step (inv_start settings)
    (fun _ _ _ hs hstep => hs.step hstep) actions
  apply hinv.along
  intro s a hs
  rw [Outcome.stops_iff]
  intro stop hstop hdestroyed
  subst hdestroyed
  exact (followsRaw_of_stop hs hstop).2

/-! ## Runs that destroy no exposed connection -/

/-- If the step is the destructor, nothing else leads to the connection. -/
def DestroysUnexposed (s : Counted) : RefAction → Prop
  | .destroy => ¬ s.Exposed
  | _ => True

instance (s : Counted) (a : RefAction) : Decidable (s.DestroysUnexposed a) := by
  unfold DestroysUnexposed
  split
  · exact inferInstance
  · exact inferInstance

/-- Nothing leads to a destroyed connection. -/
def Severed (s : Counted) : Prop := s.destroyed = true → ¬ s.Exposed

theorem Severed.step {s t : Counted} {a : RefAction} (hinv : s.Inv) (hs : s.Severed)
    (hgood : s.DestroysUnexposed a) (h : s.step a = .next t) : t.Severed := by
  intro hgone
  cases hbefore : s.destroyed with
  | true =>
    have hfades := hinv.fades hbefore h
    rintro (⟨task, hmem, hraw⟩ | hactive)
    · exact hs hbefore (Or.inl ⟨task, hfades.queue task hmem, hraw⟩)
    · rcases hfades.turn with hsame | hnone
      · exact hs hbefore (Or.inr (hsame.symm.trans hactive))
      · rw [hnone] at hactive
        cases hactive
  | false =>
    obtain ⟨rfl, _, rfl⟩ := destroyed_of_step h hbefore hgone
    exact hgood

theorem usesLive_of_along {settings : Settings} {actions : List RefAction}
    (h : Along step DestroysUnexposed (start settings) actions) :
    Along step UsesLive (start settings) actions := by
  refine along_of_along (I := fun s => s.Inv ∧ s.Severed)
    ⟨inv_start settings, fun hgone => by cases hgone⟩ ?_ ?_ h
  · rintro s a t ⟨hinv, hsevered⟩ hgood ht
    exact ⟨hinv.step ht, hsevered.step hinv hgood ht⟩
  · rintro s a ⟨hinv, hsevered⟩ _
    rw [UsesLive, Outcome.stops_iff]
    intro stop hstop hdestroyed
    subst hdestroyed
    obtain ⟨hgone, hraw⟩ := followsRaw_of_stop hinv hstop
    exact hsevered hgone hraw.exposed

/-! ## Exposed connections are used -/

/-- Where the loop is: the batch is empty outside the task phase, the channel
only has its turn in a dispatch, and has callbacks left only in its turn. -/
structure Rounds (s : Counted) : Prop where
  batch : s.world.BatchDone
  turn : s.turn ≠ .none → ∃ todo, s.world.phase = .dispatch todo
  todo : s.turn = .none → s.world.todo = []

theorem rounds_start (settings : Settings) : (start settings).Rounds :=
  ⟨World.batchDone_start _, fun hturn => absurd rfl hturn, fun _ => rfl⟩

/-- A step that moves neither the loop nor the turn keeps the rounds. -/
theorem Rounds.of_phase {s u : Counted} (hs : s.Rounds) (hbatch : u.world.BatchDone)
    (hturn : u.turn = s.turn) (hphase : u.world.phase = s.world.phase) : u.Rounds := by
  refine ⟨hbatch, ?_, ?_⟩
  · rw [hturn, hphase]
    exact hs.turn
  · rw [hturn, World.todo, hphase]
    exact hs.todo

/-- Outside a dispatch it is not the channel's turn. -/
theorem Rounds.outside {s u : Counted} (hs : s.Rounds) (hbatch : u.world.BatchDone)
    (hturn : u.turn = s.turn) (hbefore : ∀ todo, s.world.phase ≠ .dispatch todo)
    (hafter : ∀ todo, u.world.phase ≠ .dispatch todo) : u.Rounds := by
  refine ⟨hbatch, fun hne => ?_, fun _ => ?_⟩
  · rw [hturn] at hne
    obtain ⟨todo, hphase⟩ := hs.turn hne
    exact absurd hphase (hbefore todo)
  · rw [World.todo]
    split
    · rename_i todo hphase
      exact absurd hphase (hafter todo)
    · rfl
    · rfl

theorem Rounds.step {s t : Counted} {a : RefAction} (hs : s.Rounds) (h : s.step a = .next t) :
    t.Rounds := by
  cases step_cases h with
  | poll revents w hreports hstep =>
    have hbatch := hs.batch.step hstep
    cases World.step_cases hstep with
    | poll _ hphase =>
      refine ⟨hbatch, fun _ => ⟨_, rfl⟩, fun hnone => ?_⟩
      have hzero : revents = 0#32 := by
        by_contra hne
        dsimp only at hnone
        rw [if_neg hne] at hnone
        cases hnone
      subst hzero
      rfl
  | lockFailed hturn hidle halive hcount =>
    obtain ⟨todo, hphase⟩ := hs.turn (by rw [hturn]; simp)
    refine ⟨fun _ => hs.batch ?_, fun _ => ⟨[], rfl⟩, fun _ => rfl⟩
    rw [hphase]
    simp
  | locked hturn hidle halive hcount =>
    refine ⟨hs.batch, fun _ => hs.turn (by rw [hturn]; simp), fun hnone => ?_⟩
    cases hnone
  | callback io w hturn hstep =>
    have hbatch := hs.batch.step hstep
    cases World.step_cases hstep with
    | handleEvents cb rest _ r hidle hphase hrun =>
      refine ⟨hbatch, fun _ => ⟨rest, rfl⟩, fun hnone => ?_⟩
      have hsame : s.turn = .none := hnone
      rw [hturn] at hsame
      cases hsame
  | handled hturn hphase hidle =>
    refine ⟨hs.batch, fun hne => absurd rfl hne, fun _ => ?_⟩
    rw [World.todo, hphase]
  | swap w hturn hstep =>
    have hbatch := hs.batch.step hstep
    cases World.step_cases hstep with
    | swap hphase =>
      exact ⟨hbatch, fun hne => absurd hturn hne, fun _ => rfl⟩
  | runTask io w halive hstep =>
    have hbatch := hs.batch.step hstep
    cases World.step_cases hstep with
    | runTask task rest _ r hidle hphase hhead hrun =>
      refine hs.outside hbatch rfl (by simp [hphase]) ?_
      intro todo hdispatch
      have hsame : s.world.phase = .dispatch todo := hdispatch
      rw [hphase] at hsame
      cases hsame
  | endRound w hstep =>
    have hbatch := hs.batch.step hstep
    cases World.step_cases hstep with
    | endRound hphase hempty => exact hs.outside hbatch rfl (by simp [hphase]) (by simp)
  | call t c w hholds hstep =>
    exact hs.of_phase (hs.batch.step hstep) rfl (World.phase_of_step hstep (by simp))
  | resume t io w hstep =>
    exact hs.of_phase (hs.batch.step hstep) rfl (World.phase_of_step hstep (by simp))
  | user a w hholds hstep =>
    exact hs.of_phase (hs.batch.step hstep) rfl (World.phase_of_step hstep (by simp))
  | copy t t' hholds => exact ⟨hs.batch, hs.turn, hs.todo⟩
  | release t hmem hidle => exact ⟨hs.batch, hs.turn, hs.todo⟩
  | destroy hcount halive => exact ⟨hs.batch, hs.turn, hs.todo⟩

/-- The run can go on to a use of the destroyed connection. -/
def Dangles (s : Counted) : Prop := ∃ more, ¬ Along step UsesLive s more

theorem dangles_of_next {s t : Counted} {a : RefAction} (h : s.step a = .next t)
    (ht : t.Dangles) : s.Dangles := by
  obtain ⟨more, hmore⟩ := ht
  exact ⟨a :: more, fun halong => hmore (along_tail halong h)⟩

theorem dangles_of_abort {s : Counted} {a : RefAction}
    (h : s.step a = .abort .destroyedConnection) : s.Dangles := by
  refine ⟨[a], fun halong => ?_⟩
  exact Outcome.stops_iff.mp halong.1 _ h rfl

/-- A closure of the batch is run. -/
theorem dangles_of_batch {s : Counted} (hgone : s.destroyed = true)
    (hidle : s.world.calls .loop = .idle) (hphase : s.world.phase = .tasks)
    (hbatch : s.world.queue.batch ≠ []) : s.Dangles := by
  obtain ⟨task, rest, hhead⟩ := List.exists_cons_of_ne_nil hbatch
  have hused : s.runs (.loop (.runTask ⟨.fail 0, .fail 0⟩)) = .abort .destroyedConnection := by
    refine runs_eq_destroyed.mpr ⟨hgone, ?_⟩
    rw [World.jobOf, hidle, hphase, hhead]
    rfl
  refine dangles_of_abort (a := .runTask ⟨.fail 0, .fail 0⟩) ?_
  rw [step, hused]
  rfl

/-- The pending closures become the batch. -/
theorem dangles_of_dispatch {s : Counted} (hgone : s.destroyed = true)
    (hidle : s.world.calls .loop = .idle) (hturn : s.turn = .none)
    (hphase : s.world.phase = .dispatch []) (hpending : s.world.queue.pending ≠ []) :
    s.Dangles := by
  have hswap : s.world.step (.loop .swap) =
      .next { s.world with queue := s.world.queue.swap, phase := .tasks } := by
    rw [World.step, if_pos hidle, World.roundStep, if_pos hphase]
  have hstep : s.step .swap = .next { s with
      world := { s.world with queue := s.world.queue.swap, phase := .tasks } } := by
    rw [step, if_pos hturn, hswap]
    rfl
  exact dangles_of_next hstep (dangles_of_batch hgone hidle rfl hpending)

/-- The loop polls, and its own eventfd is ready. -/
theorem dangles_of_polling {s : Counted} (hgone : s.destroyed = true)
    (hidle : s.world.calls .loop = .idle) (hphase : s.world.phase = .polling)
    (hpending : s.world.queue.pending ≠ []) : s.Dangles := by
  have hpoll : s.world.step (.loop (.poll 0#32)) =
      .next { s.world with phase := .dispatch [] } := by
    rw [World.step, if_pos hidle, World.roundStep, if_pos hphase]
    rfl
  have hreports : s.Reports 0#32 := ⟨reportable_zero _, fun _ => rfl⟩
  have hstep : s.step (.poll 0#32) = .next { s with
      world := { s.world with phase := .dispatch [] }, turn := .none } := by
    rw [step, if_pos hreports, hpoll]
    rfl
  exact dangles_of_next hstep (dangles_of_dispatch hgone hidle rfl rfl hpending)

/-- **An exposed connection is used after its destructor.**  From where the
destructor has run, the loop gets to what leads to the connection. -/
theorem dangles_of_exposed {s : Counted} (hs : s.Inv) (hrounds : s.Rounds)
    (hgone : s.destroyed = true) (hexposed : s.Exposed) : s.Dangles := by
  have hidle := hs.idle hgone .loop
  have hnot := (refCount_eq_zero.mp (hs.gone hgone)).2.2.2
  by_cases hactive : s.turn = .active
  · refine dangles_of_abort (a := .handleEvents) ?_
    rw [step, if_pos ⟨hactive, hidle⟩, handleEvents, if_pos hgone]
  · have hturn : s.turn = .none := by
      cases hcase : s.turn with
      | none => rfl
      | active => exact absurd hcase hactive
      | guarded => exact absurd hcase hnot
    obtain ⟨task, hmem, _⟩ := hexposed.resolve_right hactive
    have hpending : s.world.queue.batch = [] → s.world.queue.pending ≠ [] := by
      intro hbatch hempty
      rw [BatchQueue.toList, hbatch, hempty] at hmem
      cases hmem
    cases hphase : s.world.phase with
    | polling =>
      have hbatch := hrounds.batch (by rw [hphase]; simp)
      exact dangles_of_polling hgone hidle hphase (hpending hbatch)
    | dispatch todo =>
      have htodo := hrounds.todo hturn
      rw [World.todo, hphase] at htodo
      dsimp only at htodo
      subst htodo
      have hbatch := hrounds.batch (by rw [hphase]; simp)
      exact dangles_of_dispatch hgone hidle hturn hphase (hpending hbatch)
    | tasks =>
      by_cases hbatch : s.world.queue.batch = []
      · have hend : s.world.step (.loop .endRound) =
            .next { s.world with phase := .polling } := by
          rw [World.step, if_pos hidle, World.roundStep, if_pos ⟨hphase, hbatch⟩]
        have hstep : s.step .endRound = .next { s with
            world := { s.world with phase := .polling }, done := [] } := by
          rw [step, hend]
          rfl
        exact dangles_of_next hstep (dangles_of_polling hgone hidle rfl (hpending hbatch))
      · exact dangles_of_batch hgone hidle hphase hbatch

/-! ## The lifetime of a connection -/

/-- **When queued work keeps its connection alive.**  In every run of the public
calls, on any threads that hold a reference, with the rounds of the loop: if
nothing leads to the connection when its destructor runs, but what a reference
keeps, then every handler and closure runs on a connection that has not been
destroyed.  And a destructor that runs while a closure of `stopRead` or
`startRead` is queued, or while the channel waits for its turn, can be followed
by a use of the destroyed connection. -/
theorem closures_run_alive (settings : Settings) (actions : List RefAction) :
    (Along step DestroysUnexposed (start settings) actions →
      Along step UsesLive (start settings) actions) ∧
    ∀ s t, run step (start settings) actions = some s → s.Exposed →
      s.step .destroy = .next t → ∃ more, ¬ Along step UsesLive t more := by
  refine ⟨usesLive_of_along, fun s t hrun hexposed ht => ?_⟩
  have hinv := throughout_iff_run.mp
    (throughout_of_invariant step (inv_start settings) (fun _ _ _ hs hstep => hs.step hstep)
      actions) actions s List.prefix_rfl hrun
  have hrounds := throughout_iff_run.mp
    (throughout_of_invariant step (rounds_start settings) (fun _ _ _ hs hstep => hs.step hstep)
      actions) actions s List.prefix_rfl hrun
  have hdestroyed : t = { s with destroyed := true } := by
    cases step_cases ht with
    | destroy hcount halive => rfl
  subst hdestroyed
  exact dangles_of_exposed (hinv.step ht) (hrounds.step ht) rfl hexposed

/-- User code passes the connection to a thread, the loop goes on, and the peer
hangs up. -/
def passedOn : List RefAction :=
  [.copy .loop (.worker 0), .release .loop, .swap, .endRound, .poll epollHup]

/-- The thread sends a byte and lets go of the connection while the loop closes
it; the closure of `send` is run and goes with its round. -/
def sentAndReleased : List RefAction :=
  passedOn ++ [.call (.worker 0) (.send ⟨[65], SizeT.one_le_maxSize⟩),
    .resume (.worker 0) ⟨.fail 0, .fail 0⟩, .handleEvents, .callback ⟨.fail 0, .fail 0⟩, .handled,
    .release (.worker 0), .swap, .runTask ⟨.fail 0, .fail 0⟩, .endRound, .destroy]

theorem closures_run_alive_sentAndReleased :
    Along step DestroysUnexposed (start ⟨false, true, false, 0⟩) sentAndReleased ∧
      Along step UsesLive (start ⟨false, true, false, 0⟩) sentAndReleased :=
  ⟨by decide +kernel, (closures_run_alive _ _).1 (by decide +kernel)⟩

/-- The same with `stopRead()` instead of `send()`. -/
def stoppedAndReleased : List RefAction :=
  passedOn ++ [.call (.worker 0) .stopRead, .resume (.worker 0) ⟨.fail 0, .fail 0⟩, .handleEvents,
    .callback ⟨.fail 0, .fail 0⟩, .handled, .release (.worker 0), .destroy, .swap,
    .runTask ⟨.fail 0, .fail 0⟩]

/-- The closure of `startRead` puts the closed connection back into the epoll
set, and the thread lets go of it between the report of an event and the
channel's turn. -/
def startedAndReleased : List RefAction :=
  passedOn ++ [.handleEvents, .callback ⟨.fail 0, .fail 0⟩, .handled, .call (.worker 0) .startRead,
    .resume (.worker 0) ⟨.fail 0, .fail 0⟩, .swap, .runTask ⟨.fail 0, .fail 0⟩, .endRound,
    .poll epollIn, .release (.worker 0), .destroy, .handleEvents]

/-- Neither the closure of `stopRead` nor the channel's turn finds the
connection alive. -/
theorem not_closures_run_alive :
    ¬ Along step UsesLive (start ⟨false, true, false, 0⟩) stoppedAndReleased ∧
      ¬ Along step UsesLive (start ⟨false, true, false, 0⟩) startedAndReleased := by
  decide +kernel

end Counted

end CppWeb.Tcp
