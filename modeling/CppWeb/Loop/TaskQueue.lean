/-
  Loop/TaskQueue.lean --- queued tasks run exactly once and in order.

  At every moment the tasks ever pushed are the ones started, followed by the
  rest of the batch the loop is working through, followed by the ones pending.
  A push appends on the right; the swap moves a boundary, which is sound
  because the loop only swaps after it has worked through the batch before.
  Within a round the batch only shrinks from the left, so what the round runs
  was settled by its swap.
-/
import CppWeb.Loop.EventLoop

set_option autoImplicit false

namespace CppWeb.Loop.EventLoop

open CppWeb.Foundation

variable {τ : Type}

/-- The loop is working through a batch. -/
def InRound (s : EventLoop τ) : Prop :=
  s.control = .tasks ∨ s.control = .task

/-- The history of the queue, and the batch being empty outside a round. -/
structure Ordered (s : EventLoop τ) : Prop where
  history : s.pushed = s.started ++ s.queue.toList
  batch_nil : ¬ s.InRound → s.queue.batch = []

theorem ordered_new : (new : EventLoop τ).Ordered :=
  ⟨rfl, fun _ => rfl⟩

/-- Outside a round, moving the loop without touching the queue keeps the
order. -/
theorem Ordered.move {s : EventLoop τ} (h : s.Ordered) (control : Control)
    (hout : ¬ s.InRound) : ({ s with control := control } : EventLoop τ).Ordered :=
  ⟨h.history, fun _ => h.batch_nil hout⟩

theorem not_inRound_of_control {s : EventLoop τ} {c : Control} (h : s.control = c)
    (htasks : c ≠ .tasks) (htask : c ≠ .task) : ¬ s.InRound := by
  subst h
  rintro (h | h)
  · exact htasks h
  · exact htask h

/-- A step of the loop thread keeps the order. -/
theorem Ordered.loopStep {s u : EventLoop τ} {a : LoopAction} (hs : s.Ordered)
    (h : LoopStep s a u) : u.Ordered := by
  cases h with
  | enter h => exact hs.move _ (not_inRound_of_control h (by simp) (by simp))
  | testQuit h => exact hs.move _ (not_inRound_of_control h (by simp) (by simp))
  | pollReturn active h => exact hs.move _ (not_inRound_of_control h (by simp) (by simp))
  | handleWakeup rest h =>
    exact ⟨hs.history, fun _ => hs.batch_nil (not_inRound_of_control h (by simp) (by simp))⟩
  | handleOther rest h => exact hs.move _ (not_inRound_of_control h (by simp) (by simp))
  | handlerReturn rest h => exact hs.move _ (not_inRound_of_control h (by simp) (by simp))
  | swap h =>
    have hbatch := hs.batch_nil (not_inRound_of_control h (by simp) (by simp))
    refine ⟨?_, fun hout => absurd (Or.inl rfl) hout⟩
    dsimp only
    rw [BatchQueue.toList_swap hbatch]
    exact hs.history
  | runTask task rest h hbatch =>
    refine ⟨?_, fun hout => absurd (Or.inr rfl) hout⟩
    have hlist := BatchQueue.toList_eq_cons_advance hbatch
    have hhistory := hs.history
    rw [hlist] at hhistory
    simpa using hhistory
  | taskReturn h => exact ⟨hs.history, fun hout => absurd (Or.inl rfl) hout⟩
  | endRound h hbatch => exact ⟨hs.history, fun _ => hbatch⟩

/-- **One step.**  Whatever any thread does keeps the order of the queue. -/
theorem Ordered.step {s u : EventLoop τ} {a : Action τ} (hs : s.Ordered)
    (h : s.step a = .next u) : u.Ordered := by
  cases a with
  | loop a =>
    obtain ⟨_, h⟩ := loopStep_of_step h
    exact hs.loopStep (loopStep_cases h)
  | call t a =>
    obtain ⟨hcontrol, hbatch, hstarted, hqueue⟩ := callStep_frame h
    have hround : u.InRound ↔ s.InRound := by rw [InRound, InRound, hcontrol]
    refine ⟨?_, fun hout => ?_⟩
    · rcases hqueue with ⟨task, rfl⟩ | ⟨hqueue, hpushed⟩
      · simp [push, hs.history]
      · rw [hpushed, hqueue, hstarted]
        exact hs.history
    · rw [hbatch]
      exact hs.batch_nil (fun hin => hout (hround.mpr hin))

/-! ## One round -/

/-- The loop starts the next task of its batch. -/
def Action.isRunTask : Action τ → Bool
  | .loop .runTask => true
  | _ => false

/-- What the rest of a round can still run. -/
def RoundLeft (tasks : List τ) (s : EventLoop τ) : Prop :=
  s.InRound ∧ s.started ++ s.queue.batch = tasks

/-- Within a round no step changes what the round will have run by its end, and
the batch gets shorter exactly when a task is started. -/
theorem roundLeft_of_step {tasks : List τ} {s u : EventLoop τ} {a : Action τ}
    (hs : RoundLeft tasks s) (h : s.step a = .next u) (hend : a ≠ .loop .endRound) :
    RoundLeft tasks u ∧
      s.queue.batch.length = u.queue.batch.length + (if Action.isRunTask a then 1 else 0) := by
  obtain ⟨hround, htasks⟩ := hs
  cases a with
  | call t a =>
    obtain ⟨hcontrol, hbatch, hstarted, _⟩ := callStep_frame h
    refine ⟨⟨?_, ?_⟩, ?_⟩
    · rwa [InRound, hcontrol]
    · rw [hstarted, hbatch]
      exact htasks
    · simp [hbatch, Action.isRunTask]
  | loop a =>
    obtain ⟨_, hloop⟩ := loopStep_of_step h
    cases loopStep_cases hloop with
    | enter hc => exact absurd hround (not_inRound_of_control hc (by simp) (by simp))
    | testQuit hc => exact absurd hround (not_inRound_of_control hc (by simp) (by simp))
    | pollReturn active hc => exact absurd hround (not_inRound_of_control hc (by simp) (by simp))
    | handleWakeup rest hc => exact absurd hround (not_inRound_of_control hc (by simp) (by simp))
    | handleOther rest hc => exact absurd hround (not_inRound_of_control hc (by simp) (by simp))
    | handlerReturn rest hc => exact absurd hround (not_inRound_of_control hc (by simp) (by simp))
    | swap hc => exact absurd hround (not_inRound_of_control hc (by simp) (by simp))
    | runTask task rest hc hbatch =>
      refine ⟨⟨Or.inr rfl, ?_⟩, ?_⟩
      · rw [hbatch] at htasks
        simpa [BatchQueue.advance, hbatch] using htasks
      · simp [BatchQueue.advance, hbatch, Action.isRunTask]
    | taskReturn hc => exact ⟨⟨Or.inl rfl, htasks⟩, by simp [Action.isRunTask]⟩
    | endRound hc hbatch => exact absurd rfl hend

/-- The same for any part of a round. -/
theorem roundLeft_of_run {tasks : List τ} {s u : EventLoop τ} {round : List (Action τ)}
    (hs : RoundLeft tasks s) (h : run step s round = some u)
    (hend : .loop .endRound ∉ round) :
    RoundLeft tasks u ∧
      s.queue.batch.length = u.queue.batch.length + round.countP Action.isRunTask := by
  induction round generalizing s with
  | nil =>
    rw [run_nil, Option.some.injEq] at h
    subst h
    exact ⟨hs, rfl⟩
  | cons a round ih =>
    obtain ⟨t, ht, hrest⟩ := run_cons_eq_some.mp h
    rw [List.mem_cons, not_or] at hend
    obtain ⟨hleft, hlen⟩ := roundLeft_of_step hs ht (fun heq => hend.1 heq.symm)
    obtain ⟨hleft', hlen'⟩ := ih hleft hrest hend.2
    refine ⟨hleft', ?_⟩
    rw [List.countP_cons]
    omega

/-- A round that starts in `s` runs exactly the tasks that are pending in `s`:
at any moment of it what was started since the swap and what is left of the
batch make up these tasks, the loop has started as many of them as the batch
got shorter by, and when the round ends all of them have been started and
everything pushed since the swap is pending. -/
def RoundRunsPending (s : EventLoop τ) : Prop :=
  ∀ t round u, s.step (.loop .swap) = .next t → run step t round = some u →
    .loop .endRound ∉ round →
      u.started ++ u.queue.batch = s.started ++ s.queue.pending ∧
      s.queue.pending.length = u.queue.batch.length + round.countP Action.isRunTask ∧
      ∀ v, u.step (.loop .endRound) = .next v →
        v.started = s.started ++ s.queue.pending ∧ v.pushed = v.started ++ v.queue.pending

theorem Ordered.roundRunsPending {s : EventLoop τ} (hs : s.Ordered) : s.RoundRunsPending := by
  intro t round u hswap hround hend
  have ht := hs.step hswap
  obtain ⟨_, hswap⟩ := loopStep_of_step hswap
  cases loopStep_cases hswap with
  | swap hcontrol =>
    have hstart : RoundLeft (s.started ++ s.queue.pending)
        { s with queue := s.queue.swap, control := .tasks } := ⟨Or.inl rfl, rfl⟩
    obtain ⟨hleft, hlen⟩ := roundLeft_of_run hstart hround hend
    refine ⟨hleft.2, hlen, fun v hv => ?_⟩
    have hu : u.Ordered := by
      have hall := throughout_of_invariant EventLoop.step ht
        (fun _ _ _ hi hstep => hi.step hstep) round
      exact throughout_iff_run.mp hall round u List.prefix_rfl hround
    obtain ⟨_, hv⟩ := loopStep_of_step hv
    cases loopStep_cases hv with
    | endRound hcontrol' hbatch =>
      have htasks := hleft.2
      have hhistory := hu.history
      rw [hbatch, List.append_nil] at htasks
      rw [BatchQueue.toList, hbatch, List.nil_append] at hhistory
      exact ⟨htasks, hhistory⟩

/-- **Queued tasks run exactly once and in order.**  In every run of a loop and
any threads, the started tasks are a prefix of the pushed ones, the remaining
ones are still queued, and every round runs exactly the tasks that were pending
at its swap. -/
theorem tasks_run_in_order (actions : List (Action τ)) :
    Throughout step
      (fun s => s.started <+: s.pushed ∧ s.pushed = s.started ++ s.queue.toList ∧
        s.RoundRunsPending)
      new actions := by
  have hall := throughout_of_invariant step ordered_new
    (fun _ _ _ (hi : Ordered _) hstep => hi.step hstep) actions
  refine hall.mono fun s hs => ⟨?_, hs.history, hs.roundRunsPending⟩
  rw [hs.history]
  exact List.prefix_append _ _

end CppWeb.Loop.EventLoop
