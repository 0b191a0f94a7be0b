/-
  Tcp/Ledger.lean --- where the messages of a connection are.

  A message is issued by a call of `send`, is then in flight in its thread,
  is handed to the loop (queued, or run at once on the loop thread), and is run
  or, on a closed connection, dropped.  The steps of a run fall into six kinds
  by what they do to this; everything else about them is left out here.
-/
import CppWeb.Tcp.Output

set_option autoImplicit false

namespace CppWeb.Tcp.World

open CppWeb.Foundation CppWeb.Loop CppWeb.Poll

/-- The queued messages, in the order they will be run. -/
def queued (w : World) : List Message := w.queue.toList.flatMap Task.messages

/-- The message is in flight in a call of `send` on the thread. -/
def InFlight (w : World) (t : Thread) (message : Message) : Prop :=
  w.calls t = .handing (.sendInLoop message)

/-- What a step does to the messages and the task queue. -/
inductive LedgerStep (w : World) (a : Action) (v : World) : Prop where
  /-- nothing; a message in flight stays so or its call ends without a step of
  this kind -/
  | quiet (hcalls : v.conn.syscalls = w.conn.syscalls)
      (houtput : v.conn.outputBuffer = w.conn.outputBuffer)
      (hchannel : v.conn.channel = w.conn.channel)
      (hqueue : v.queue.toList = w.queue.toList) (hran : v.ran = w.ran)
      (hhanded : v.handed = w.handed) (hshutdown : v.shutdownHanded = w.shutdownHanded)
      (hissued : v.issued = w.issued)
      (hflight : ∀ t message, v.InFlight t message → w.InFlight t message)
      (hqueueing : ∀ t task, v.calls t = .queueing task →
        w.calls t = .queueing task ∨ task = .forceCloseInLoop)
  | issue (t : Thread) (data : Bytes) (hidle : w.calls t = .idle)
      (hstate : w.conn.state = .kConnected)
      (hv : v = { w.goto t (.handing (.sendInLoop ⟨t, w.issued t, data⟩)) with
        issued := Function.update w.issued t (w.issued t + 1) })
  /-- a closure is pushed onto the pending tasks -/
  | handQueue (t : Thread) (task : Task) (io : Io) (ha : a = .resume t io)
      (hcall : (t ≠ .loop ∧ w.calls t = .handing task) ∨ w.calls t = .queueing task)
      (hv : v = ((w.goto t .idle).handOver task).queueInLoop task)
  /-- a closure runs at once on the loop thread -/
  | runHere (task : Task) (io : Io) (r : Connection × List Task) (ha : a = .resume .loop io)
      (hcall : w.calls .loop = .handing task)
      (hrun : w.conn.execute io (.task task) = .ok r)
      (hv : v = ((w.goto .loop .idle).handOver task).after (.task task) r)
  /-- the first task of the queue runs -/
  | runQueued (task : Task) (rest : List Task) (io : Io) (r : Connection × List Task)
      (hjob : w.jobOf a = some (.task task, io)) (hqueue : w.queue.toList = task :: rest)
      (hrest : w.queue.advance.toList = rest)
      (hrun : w.conn.execute io (.task task) = .ok r)
      (hv : v = { w with queue := w.queue.advance }.after (.task task) r)
  | callback (cb : Callback) (io : Io) (r : Connection × List Task)
      (hjob : w.jobOf a = some (.callback cb, io))
      (hrun : w.conn.execute io (.callback cb) = .ok r)
      (hv : ∃ phase, v = { w with phase := phase }.after (.callback cb) r)

/-- A call that goes to a point without a message in it is quiet. -/
theorem ledgerStep_goto {w v : World} {a : Action} {t : Thread} {progress : Progress}
    {state : ConnectionState} (hv : v = (w.setState state).goto t progress)
    (hsend : ∀ message, progress ≠ .handing (.sendInLoop message))
    (hqueueing : ∀ task, progress = .queueing task → task = .forceCloseInLoop) :
    LedgerStep w a v := by
  subst hv
  refine .quiet rfl rfl rfl rfl rfl rfl rfl rfl (fun t' message h => ?_) (fun t' task h => ?_)
  · by_cases ht : t' = t
    · subst ht
      rw [InFlight, calls_goto_self] at h
      exact absurd h (hsend message)
    · rwa [InFlight, calls_goto_of_ne _ ht] at h
  · by_cases ht : t' = t
    · subst ht
      rw [calls_goto_self] at h
      exact Or.inr (hqueueing task h)
    · rw [calls_goto_of_ne _ ht] at h
      exact Or.inl h

theorem goto_eq (w : World) (t : Thread) (progress : Progress) :
    w.goto t progress = (w.setState w.conn.state).goto t progress := rfl

/-- Every step is of one of the six kinds.  The swap only moves tasks from
pending to the batch because the batch is empty before it. -/
theorem ledgerStep_of_step {w v : World} {a : Action} (h : w.step a = .next v)
    (hbatch : w.phase ≠ .tasks → w.queue.batch = []) : LedgerStep w a v := by
  cases step_cases h with
  | poll revents hphase =>
    exact .quiet rfl rfl rfl rfl rfl rfl rfl rfl (fun _ _ h => h) (fun _ _ h => Or.inl h)
  | handleEvents cb rest io r hidle hphase hrun =>
    exact .callback cb io r (by rw [jobOf, hidle, hphase]) hrun ⟨_, rfl⟩
  | swap hphase =>
    have hempty := hbatch (by rw [hphase]; simp)
    exact .quiet rfl rfl rfl (BatchQueue.toList_swap hempty) rfl rfl rfl rfl
      (fun _ _ h => h) (fun _ _ h => Or.inl h)
  | runTask task rest io r hidle hphase hhead hrun =>
    exact .runQueued task w.queue.advance.toList io r (by rw [jobOf, hidle, hphase, hhead])
      (BatchQueue.toList_eq_cons_advance hhead) rfl hrun rfl
  | endRound hphase hempty =>
    exact .quiet rfl rfl rfl rfl rfl rfl rfl rfl (fun _ _ h => h) (fun _ _ h => Or.inl h)
  | sendRefused t data hstate =>
    exact .quiet rfl rfl rfl rfl rfl rfl rfl rfl (fun _ _ h => h) (fun _ _ h => Or.inl h)
  | send t data huser hstate => exact .issue t data huser.1 hstate rfl
  | shutdown t huser hstate => exact ledgerStep_goto (goto_eq w t _) (by simp) (by simp)
  | forceClose t huser hstate => exact ledgerStep_goto (goto_eq w t _) (by simp) (by simp)
  | forceCloseRefused t hstate =>
    exact .quiet rfl rfl rfl rfl rfl rfl rfl rfl (fun _ _ h => h) (fun _ _ h => Or.inl h)
  | stopRead t huser => exact ledgerStep_goto (goto_eq w t _) (by simp) (by simp)
  | startRead t huser => exact ledgerStep_goto (goto_eq w t _) (by simp) (by simp)
  | runHere task io r hcall hrun => exact .runHere task io r rfl hcall hrun rfl
  | queueHere i task io hcall =>
    exact .handQueue (.worker i) task io rfl (Or.inl ⟨by simp, hcall⟩) rfl
  | queue t task io hcall => exact .handQueue t task io rfl (Or.inr hcall) rfl
  | shutdownMoved t io hcall hstate => exact ledgerStep_goto rfl (by simp) (by simp)
  | shutdownLate t io hcall hstate => exact ledgerStep_goto rfl (by simp) (by simp)
  | forceCloseMoved t io hcall hstate =>
    refine ledgerStep_goto rfl (by simp) fun task heq => ?_
    exact (Progress.queueing.inj heq).symm
  | forceCloseLate t io hcall hstate => exact ledgerStep_goto rfl (by simp) (by simp)
  | retrieve len inputBuffer hretrieve =>
    exact .quiet rfl rfl rfl rfl rfl rfl rfl rfl (fun _ _ h => h) (fun _ _ h => Or.inl h)
  | set settings =>
    exact .quiet rfl rfl rfl rfl rfl rfl rfl rfl (fun _ _ h => h) (fun _ _ h => Or.inl h)

/-! ## The batch -/

/-- Outside the task phase the batch is empty. -/
def BatchDone (w : World) : Prop := w.phase ≠ .tasks → w.queue.batch = []

theorem batchDone_start (settings : Settings) : (start settings).BatchDone := fun _ => rfl

theorem BatchDone.step {w v : World} {a : Action} (hw : w.BatchDone)
    (h : w.step a = .next v) : v.BatchDone := by
  cases step_cases h with
  | poll revents hphase => exact fun _ => hw (by rw [hphase]; simp)
  | handleEvents cb rest io r hidle hphase hrun => exact fun _ => hw (by rw [hphase]; simp)
  | swap hphase => exact fun hout => absurd rfl hout
  | runTask task rest io r hidle hphase hhead hrun => exact fun hout => absurd hphase hout
  | endRound hphase hempty => exact fun _ => hempty
  | _ => exact hw

/-! ## Queued messages -/

theorem messages_of_isNotification {task : Task} (h : task.IsNotification) :
    task.messages = [] := by
  cases task <;> first | rfl | exact absurd h id

theorem flatMap_messages_of_notifications {tasks : List Task}
    (h : ∀ t ∈ tasks, t.IsNotification) : tasks.flatMap Task.messages = [] := by
  rw [List.flatMap_eq_nil_iff]
  exact fun t ht => messages_of_isNotification (h t ht)

theorem queued_queueInLoop (w : World) (task : Task) :
    (w.queueInLoop task).queued = w.queued ++ task.messages := by
  rw [queued, queueInLoop, BatchQueue.toList_push, List.flatMap_append]
  simp [queued]

/-- A job queues no messages. -/
theorem queued_after {w : World} {io : Io} {job : Connection.Job}
    {r : Connection × List Task} (hrun : w.conn.execute io job = .ok r) :
    (w.after job r).queued = w.queued := by
  have hnone := flatMap_messages_of_notifications
    (Connection.execute_cases hrun).isNotification
  rw [queued, after, BatchQueue.toList_pushAll, List.flatMap_append, hnone, List.append_nil]
  rfl

end CppWeb.Tcp.World
