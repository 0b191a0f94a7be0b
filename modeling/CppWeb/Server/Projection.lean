/-
  Server/Projection.lean --- one connection of a server, on its own.

  A server runs all its connections on one loop, with one queue of closures and
  one list of active channels.  Seen from one of them, the loop polls, calls its
  callbacks and runs its closures in the same order, and the rest of what the
  loop does are steps in which nothing happens: each connection of a
  `TCPServerSingle` is the connection of a `World` whose loop thread makes all
  the calls.

  A call by the user on the loop thread is one step of the server and several
  of the `World`, whose threads can be seen at every access to `m_state`.  The
  `World` has no calls of the loop thread while it polls, so user code is asked
  to run within the rounds of the loop.
-/
import CppWeb.Foundation.Simulation
import CppWeb.Server.Steps
import CppWeb.Tcp.Transfer

set_option autoImplicit false

namespace CppWeb.Server.TCPServerSingle

open CppWeb.Foundation CppWeb.Poll CppWeb.Tcp

/-! ## A connection on its own -/

/-- The loop as one connection sees it. -/
def phaseOf (id : Nat) : Phase → Tcp.Phase
  | .outside => .polling
  | .dispatch todo => .dispatch (own (.connection id) todo)
  | .tasks => .tasks

/-- What `epoll_wait` has reported for the connection, if anything. -/
def reventsOf (id : Nat) (active : List (Source × Mask)) : Mask :=
  (own (.connection id) active).headD 0#32

/-- How often a call on the loop thread goes on after its first access to
`m_state`. -/
def accesses (state : ConnectionState) : PublicCall → Nat
  | .send _ => if state = .kConnected then 1 else 0
  | .shutdown => if state = .kConnected then 2 else 1
  | .forceClose => if state = .kDisconnected then 0 else 2
  | .stopRead => 1
  | .startRead => 1

/-- A call on the loop thread, access by access. -/
def callSteps (state : ConnectionState) (io : Io) (f : PublicCall) : List Tcp.Action :=
  .call .loop f :: List.replicate (accesses state f) (.resume .loop io)

/-- What a step of the server is to one of its connections. -/
def stepsOf (s : TCPServerSingle) (id : Nat) (shared : Shared) : Action → List Tcp.Action
  | .start _ => []
  | .poll active => [.loop (.poll (reventsOf id active))]
  | .handleEvents io _ =>
      match s.phase with
      | .dispatch ((.connection other, _) :: _) =>
          if other = id then [.loop (.handleEvents io)] else []
      | _ => []
  | .callbackReturn => []
  | .swap => [.loop .swap]
  | .runTask io =>
      match s.accepted.queue.batch with
      | (other, _) :: _ => if other = id then [.loop (.runTask io)] else []
      | [] => []
  | .endRound => [.loop .endRound]
  | .user (.call other io f) => if other = id then callSteps shared.conn.state io f else []
  | .user (.retrieve other len) => if other = id then [.user (.retrieve len)] else []
  | .user (.setCallbacks other settings _) =>
      if other = id then
        [.user (.set { settings with closeCallback := shared.conn.settings.closeCallback })]
      else []
  | .user (.hold _) => []
  | .user (.release _) => []
  | .destroyConnection _ => []

/-- What a step of the server is to a connection that may not have been accepted
yet. -/
def answer (id : Nat) (s : TCPServerSingle) (a : Action) : List Tcp.Action :=
  match s.accepted.all[id]? with
  | some shared => s.stepsOf id shared a
  | none => []

/-- The connection, its closures and its callbacks are those of the `World`, no
call is under way, and no message is queued. -/
structure Mirrors (s : TCPServerSingle) (id : Nat) (shared : Shared) (w : World) : Prop where
  there : s.accepted.all[id]? = some shared
  conn : w.conn = shared.conn
  queue : w.queue = s.accepted.queue.own id
  phase : w.phase = phaseOf id s.phase
  idle : ∀ t, w.calls t = .idle
  sends : ∀ task ∈ w.queue.toList, task.messages = []

/-- The connection has not been accepted, and nothing refers to it. -/
structure Awaits (settings : Settings) (s : TCPServerSingle) (id : Nat) : Prop where
  absent : s.accepted.all.length ≤ id
  settings : s.settings = settings
  queue : s.accepted.queue.own id = BatchQueue.empty
  todo : ∀ todo, s.phase = .dispatch todo → own (.connection id) todo = []

/-- The `World` of a connection: a new one until the connection is accepted. -/
def Projects (settings : Settings) (id : Nat) (s : TCPServerSingle) (w : World) : Prop :=
  s.Awaits settings id ∧ w = World.start settings ∨ ∃ shared, s.Mirrors id shared w

/-- User code runs within the rounds of the loop. -/
def InRounds (s : TCPServerSingle) : Action → Prop
  | .user _ => s.phase ≠ .outside
  | _ => True

instance (s : TCPServerSingle) : ∀ a, Decidable (s.InRounds a)
  | .user _ => inferInstanceAs (Decidable (_ ≠ _))
  | .start _ => isTrue trivial
  | .poll _ => isTrue trivial
  | .handleEvents _ _ => isTrue trivial
  | .callbackReturn => isTrue trivial
  | .swap => isTrue trivial
  | .runTask _ => isTrue trivial
  | .endRound => isTrue trivial
  | .destroyConnection _ => isTrue trivial

theorem projects_new (connectionCallback messageCallback writeCompleteCallback : Bool)
    (id : Nat) :
    Projects (new connectionCallback messageCallback writeCompleteCallback).settings id
      (new connectionCallback messageCallback writeCompleteCallback)
      (World.start (new connectionCallback messageCallback writeCompleteCallback).settings) :=
  Or.inl ⟨⟨Nat.zero_le _, rfl, rfl, fun _ h => by cases h⟩, rfl⟩

/-! ### Polling -/

theorem own_callbacksOf_self (id : Nat) (revents : Mask) :
    own (.connection id) (callbacksOf (.connection id, revents)) =
      handleEventsWithGuard revents :=
  own_map_self _ _

theorem own_callbacksOf_of_ne {id : Nat} {entry : Source × Mask} (h : entry.1 ≠ .connection id) :
    own (.connection id) (callbacksOf entry) = [] := by
  obtain ⟨source, revents⟩ := entry
  cases source with
  | acceptor => exact own_map_of_ne h _
  | connection other => exact own_map_of_ne h _

/-- A channel that is not active has no callbacks. -/
theorem own_active_of_not_mem {id : Nat} {active : List (Source × Mask)}
    (h : .connection id ∉ active.map Prod.fst) :
    own (.connection id) (active.flatMap callbacksOf) = [] := by
  induction active with
  | nil => rfl
  | cons entry active ih =>
    rw [List.map_cons, List.mem_cons, not_or] at h
    rw [List.flatMap_cons, own_append, own_callbacksOf_of_ne (Ne.symm h.1), ih h.2]
    rfl

/-- Each channel is reported once, so the callbacks of a connection are those
of its own report. -/
theorem own_active {id : Nat} {active : List (Source × Mask)}
    (h : (active.map Prod.fst).Nodup) :
    own (.connection id) (active.flatMap callbacksOf) =
      handleEventsWithGuard (reventsOf id active) := by
  induction active with
  | nil =>
    change [] = handleEventsWithGuard 0#32
    decide
  | cons entry active ih =>
    obtain ⟨source, revents⟩ := entry
    rw [List.map_cons, List.nodup_cons] at h
    rw [List.flatMap_cons, own_append, reventsOf]
    by_cases heq : source = .connection id
    · subst heq
      rw [own_callbacksOf_self, own_active_of_not_mem h.1, own_cons_self, List.append_nil]
      rfl
    · rw [own_callbacksOf_of_ne heq, own_cons_of_ne heq, List.nil_append]
      exact ih h.2

/-! ### Calls -/

/-- The loop thread hands a closure to its own loop, which runs it at once. -/
theorem resume_handing {w : World} {io : Io} {task : Task} {r : Connection × List Task}
    (hcall : w.calls .loop = .handing task) (hrun : w.conn.execute io (.task task) = .ok r) :
    w.step (.resume .loop io) =
      .next (((w.goto .loop .idle).handOver task).after (.task task) r) := by
  rw [World.step, World.resumeStep, hcall]
  exact World.runJob_eq_next.mpr ⟨r, hrun, rfl⟩

/-- The loop thread queues a closure for its own loop. -/
theorem queue_of_queueing {w : World} (io : Io) {task : Task}
    (hcall : w.calls .loop = .queueing task) :
    w.step (.resume .loop io) =
      .next (((w.goto .loop .idle).handOver task).queueInLoop task) := by
  rw [World.step, World.resumeStep, hcall]

/-- What a call entrusts to the connection. -/
def sentBy (c : Connection) : PublicCall → List UInt8
  | .send data => if c.state = .kConnected then data.data else []
  | _ => []

/-- The call is a `send` that gives its message up. -/
def CallGivesUp (c : Connection) (io : Io) : PublicCall → Prop
  | .send data => c.state = .kConnected ∧ c.GivesUp io.write data
  | _ => False

/-- The steps of a call lead to the connection and the closures that the call on
the loop thread is said to leave, with no call under way; they run its message,
if there is one, and give up no other. -/
structure Called (w : World) (io : Io) (f : PublicCall) (r : Connection × List Task)
    (steps : List Tcp.Action) (v : World) : Prop where
  run : run World.step w steps = some v
  conn : v.conn = r.1
  queue : v.queue = w.queue.pushAll r.2
  phase : v.phase = w.phase
  idle : ∀ t, v.calls t = .idle
  ran : bytesOf v.ran = bytesOf w.ran ++ sentBy w.conn f
  kept : ¬ CallGivesUp w.conn io f →
    Along World.step (fun w a => ¬ w.GivesUp a) w steps

theorem idle_goto {w : World} (hidle : ∀ t, t ≠ .loop → w.calls t = .idle) :
    ∀ t, (w.goto .loop .idle).calls t = .idle := by
  intro t
  by_cases ht : t = .loop
  · subst ht
    exact World.calls_goto_self w .loop .idle
  · rw [World.calls_goto_of_ne w ht]
    exact hidle t ht

/-- A step in front of a call's steps that changes no more than what the call
itself changes. -/
theorem Called.cons {w u v : World} {io : Io} {f : PublicCall} {r : Connection × List Task}
    {a : Tcp.Action} {steps : List Tcp.Action} (hstep : w.step a = .next u)
    (hjob : w.jobOf a = none) (hran : u.ran = w.ran) (hqueue : u.queue = w.queue)
    (hphase : u.phase = w.phase) (hsent : sentBy u.conn f = sentBy w.conn f)
    (hgives : CallGivesUp u.conn io f → CallGivesUp w.conn io f)
    (h : Called u io f r steps v) : Called w io f r (a :: steps) v where
  run := by rw [run_cons_of_next hstep, h.run]
  conn := h.conn
  queue := by rw [h.queue, hqueue]
  phase := h.phase.trans hphase
  idle := h.idle
  ran := by rw [h.ran, hran, hsent]
  kept := by
    intro hkept
    refine ⟨fun hbad => ?_, ?_⟩
    · rw [World.GivesUp, hjob] at hbad
      exact hbad
    · rw [hstep]
      exact h.kept fun hbad => hkept (hgives hbad)

/-- A call that is over. -/
theorem called_nil {w : World} {io : Io} {f : PublicCall} (hidle : ∀ t, w.calls t = .idle)
    (hsent : sentBy w.conn f = []) : Called w io f (w.conn, []) [] w where
  run := rfl
  conn := rfl
  queue := by simp [BatchQueue.pushAll]
  phase := rfl
  idle := hidle
  ran := by rw [hsent, List.append_nil]
  kept := fun _ => trivial

/-- A closure without a message. -/
theorem bytesOf_accepted {task : Task} (h : task.messages = []) (state : ConnectionState) :
    bytesOf ((Connection.Job.task task).accepted state) = [] := by
  rw [Connection.Job.accepted, h, ite_self]
  rfl

/-- A call whose only step left is to run its closure. -/
theorem called_of_handing {w : World} {io : Io} {f : PublicCall} {task : Task}
    {r : Connection × List Task} (hcall : w.calls .loop = .handing task)
    (hidle : ∀ t, t ≠ .loop → w.calls t = .idle)
    (hrun : w.conn.execute io (.task task) = .ok r)
    (hsent : bytesOf ((Connection.Job.task task).accepted w.conn.state) = sentBy w.conn f)
    (hgives : ∀ message, task = .sendInLoop message → w.conn.GivesUp io.write message.data →
      CallGivesUp w.conn io f) :
    ∃ v, Called w io f r [.resume .loop io] v := by
  have hstep := resume_handing hcall hrun
  refine ⟨_, run_cons_of_next hstep [], rfl, rfl, rfl, idle_goto (w := w) hidle, ?_,
    fun hkept => ⟨fun hbad => ?_, ?_⟩⟩
  · rw [← hsent, ← bytesOf_append]
    rfl
  · rw [World.GivesUp, show w.jobOf (.resume .loop io) = some (.task task, io) by
      rw [World.jobOf, hcall]] at hbad
    split at hbad
    · rename_i message io' heq
      cases heq
      exact hkept (hgives message rfl hbad)
    · exact hbad
  · rw [hstep]
    trivial

/-- The first step of a call: nothing has happened yet. -/
theorem Called.of_goto {w v : World} {io : Io} {f : PublicCall} {r : Connection × List Task}
    {c : PublicCall} {progress : Progress} {steps : List Tcp.Action}
    (hstep : w.step (.call .loop c) = .next (w.goto .loop progress))
    (h : Called (w.goto .loop progress) io f r steps v) :
    Called w io f r (.call .loop c :: steps) v :=
  h.cons hstep rfl rfl rfl rfl rfl id

/-- **A call, access by access**, comes to what it is said to do on the loop
thread. -/
theorem called_of_call {w : World} {io : Io} {f : PublicCall} {r : Connection × List Task}
    (hidle : ∀ t, w.calls t = .idle) (hphase : w.phase ≠ .polling)
    (hcall : w.conn.call io f = .ok r) :
    ∃ v, Called w io f r (callSteps w.conn.state io f) v := by
  have huser : w.InUserCode .loop := ⟨hidle .loop, fun _ => hphase⟩
  have hothers : ∀ (progress : Progress) (t : Loop.Thread), t ≠ .loop →
      (w.goto .loop progress).calls t = .idle :=
    fun progress t ht => (World.calls_goto_of_ne w ht progress).trans (hidle t)
  cases f with
  | send data =>
    rw [Connection.call] at hcall
    by_cases hstate : w.conn.state = .kConnected
    · rw [if_neg (not_not.mpr hstate)] at hcall
      have hstep : w.step (.call .loop (.send data)) =
          .next { w.goto .loop (.handing (.sendInLoop ⟨.loop, w.issued .loop, data⟩)) with
            issued := Function.update w.issued .loop (w.issued .loop + 1) } := by
        rw [World.step, if_pos huser, World.callStep, if_neg (not_not.mpr hstate)]
      rw [callSteps, accesses, if_pos hstate]
      have hhanding : ∃ v, Called
          { w.goto .loop (.handing (.sendInLoop ⟨.loop, w.issued .loop, data⟩)) with
            issued := Function.update w.issued .loop (w.issued .loop + 1) } io (.send data) r
          [.resume .loop io] v := by
        refine called_of_handing
          (World.calls_goto_self w .loop (.handing (.sendInLoop ⟨.loop, w.issued .loop, data⟩)))
          (hothers _) hcall ?_ fun message heq hbad => ?_
        · change bytesOf (if w.conn.state = .kDisconnected then [] else _) =
            if w.conn.state = .kConnected then data.data else []
          rw [if_pos hstate, if_neg (by rw [hstate]; decide)]
          exact bytesOf_singleton _
        · cases heq
          exact ⟨hstate, hbad⟩
      obtain ⟨v, hv⟩ := hhanding
      exact ⟨v, hv.cons hstep rfl rfl rfl rfl rfl id⟩
    · rw [if_pos hstate] at hcall
      cases hcall
      have hstep : w.step (.call .loop (.send data)) = .next w := by
        rw [World.step, if_pos huser, World.callStep, if_pos hstate]
      have hnone : sentBy w.conn (.send data) = [] := if_neg hstate
      rw [callSteps, accesses, if_neg hstate]
      exact ⟨w, (called_nil hidle hnone).cons hstep rfl rfl rfl rfl rfl id⟩
  | shutdown =>
    rw [Connection.call] at hcall
    obtain ⟨_, hle, hcall⟩ := bind_eq_ok.mp hcall
    have hstep : w.step (.call .loop .shutdown) = .next (w.goto .loop .shutdownChecked) := by
      rw [World.step, if_pos huser, World.callStep, require_ok (require_eq_ok.mp hle)]
      rfl
    have hchecked := World.calls_goto_self w .loop .shutdownChecked
    have hjob : (w.goto .loop .shutdownChecked).jobOf (.resume .loop io) = none := by
      rw [World.jobOf, hchecked]
    by_cases hstate : w.conn.state = .kConnected
    · rw [if_pos hstate] at hcall
      have hmoved : (w.goto .loop .shutdownChecked).step (.resume .loop io) =
          .next (((w.goto .loop .shutdownChecked).setState .kDisconnecting).goto .loop
            (.handing .shutdownInLoop)) := by
        rw [World.step, World.resumeStep, hchecked]
        exact if_pos hstate
      rw [callSteps, accesses, if_pos hstate]
      have hhanding : ∃ v, Called
          (((w.goto .loop .shutdownChecked).setState .kDisconnecting).goto .loop
            (.handing .shutdownInLoop)) io .shutdown r [.resume .loop io] v :=
        called_of_handing (World.calls_goto_self _ _ _)
          (fun t ht => (World.calls_goto_of_ne _ ht _).trans (hothers _ t ht)) hcall
          (bytesOf_accepted rfl _) fun _ heq => by cases heq
      obtain ⟨v, hv⟩ := hhanding
      exact ⟨v, (hv.cons hmoved hjob rfl rfl rfl rfl id).of_goto hstep⟩
    · rw [if_neg hstate] at hcall
      cases hcall
      have hlate : (w.goto .loop .shutdownChecked).step (.resume .loop io) =
          .next (((w.goto .loop .shutdownChecked).setState .kDisconnecting).goto .loop .idle) := by
        rw [World.step, World.resumeStep, hchecked]
        exact if_neg hstate
      have hidle' := idle_goto (w := (w.goto .loop .shutdownChecked).setState .kDisconnecting)
        (hothers .shutdownChecked)
      rw [callSteps, accesses, if_neg hstate]
      exact ⟨_, ((called_nil hidle' rfl).cons hlate hjob rfl rfl rfl rfl id).of_goto hstep⟩
  | forceClose =>
    cases hcall
    by_cases hstate : w.conn.state = .kDisconnected
    · have hstep : w.step (.call .loop .forceClose) = .next w := by
        rw [World.step, if_pos huser, World.callStep, if_neg (not_not.mpr hstate)]
      rw [callSteps, accesses, if_pos hstate, Connection.forceClose, if_neg (not_not.mpr hstate)]
      exact ⟨w, (called_nil hidle rfl).cons hstep rfl rfl rfl rfl rfl id⟩
    · have hstep : w.step (.call .loop .forceClose) = .next (w.goto .loop .forceCloseChecked) := by
        rw [World.step, if_pos huser, World.callStep, if_pos hstate]
      have hchecked := World.calls_goto_self w .loop .forceCloseChecked
      have hmoved : (w.goto .loop .forceCloseChecked).step (.resume .loop io) =
          .next (((w.goto .loop .forceCloseChecked).setState .kDisconnecting).goto .loop
            (.queueing .forceCloseInLoop)) := by
        rw [World.step, World.resumeStep, hchecked]
        exact if_pos hstate
      have hqueueing := World.calls_goto_self
        ((w.goto .loop .forceCloseChecked).setState .kDisconnecting) .loop
        (.queueing .forceCloseInLoop)
      have hqueued := queue_of_queueing io hqueueing
      rw [callSteps, accesses, if_neg hstate, Connection.forceClose, if_pos hstate]
      refine ⟨_, Called.of_goto hstep (Called.cons hmoved (by rw [World.jobOf, hchecked]) rfl rfl
        rfl rfl id ⟨run_cons_of_next hqueued [], rfl, rfl, rfl, idle_goto fun t ht => ?_,
        (List.append_nil _).symm, fun _ => ⟨fun hbad => ?_, ?_⟩⟩)⟩
      · rw [World.calls_goto_of_ne _ ht]
        exact hothers _ t ht
      · rw [World.GivesUp, World.jobOf, hqueueing] at hbad
        exact hbad
      · rw [hqueued]
        trivial
  | stopRead =>
    have hstep : w.step (.call .loop .stopRead) = .next (w.goto .loop (.handing .stopRead)) := by
      rw [World.step, if_pos huser, World.callStep]
    have hhanding : ∃ v, Called (w.goto .loop (.handing .stopRead)) io .stopRead r
        [.resume .loop io] v :=
      called_of_handing (World.calls_goto_self w _ _) (hothers _) hcall
        (bytesOf_accepted rfl _) fun _ heq => by cases heq
    obtain ⟨v, hv⟩ := hhanding
    exact ⟨v, hv.of_goto hstep⟩
  | startRead =>
    have hstep : w.step (.call .loop .startRead) = .next (w.goto .loop (.handing .startRead)) := by
      rw [World.step, if_pos huser, World.callStep]
    have hhanding : ∃ v, Called (w.goto .loop (.handing .startRead)) io .startRead r
        [.resume .loop io] v :=
      called_of_handing (World.calls_goto_self w _ _) (hothers _) hcall
        (bytesOf_accepted rfl _) fun _ heq => by cases heq
    obtain ⟨v, hv⟩ := hhanding
    exact ⟨v, hv.of_goto hstep⟩

/-! ### Steps -/

/-- A step in which nothing happens to the connection. -/
theorem Mirrors.rests {s t : TCPServerSingle} {id : Nat} {shared changed : Shared} {w : World}
    (h : s.Mirrors id shared w) (hthere : t.accepted.all[id]? = some changed)
    (hconn : changed.conn = shared.conn)
    (hqueue : t.accepted.queue.own id = s.accepted.queue.own id)
    (hphase : phaseOf id t.phase = phaseOf id s.phase) : t.Mirrors id changed w :=
  ⟨hthere, h.conn.trans hconn.symm, h.queue.trans hqueue.symm, h.phase.trans hphase.symm, h.idle,
    h.sends⟩

/-- A closure of the connection queues no message. -/
theorem sends_pushAll {w : World} (h : ∀ task ∈ w.queue.toList, task.messages = [])
    {tasks : List Task} (htasks : ∀ task ∈ tasks, task.messages = []) :
    ∀ task ∈ (w.queue.pushAll tasks).toList, task.messages = [] := by
  intro task hmem
  rw [BatchQueue.toList_pushAll, List.mem_append] at hmem
  rcases hmem with hmem | hmem
  · exact h task hmem
  · exact htasks task hmem

theorem messages_of_execute {c : Connection} {io : Io} {job : Connection.Job}
    {r : Connection × List Task} (h : c.execute io job = .ok r) :
    ∀ task ∈ r.2, task.messages = [] :=
  fun task hmem =>
    World.messages_of_isNotification ((Connection.execute_cases h).isNotification task hmem)

theorem messages_of_call {c : Connection} {io : Io} {f : PublicCall}
    {r : Connection × List Task} (h : c.call io f = .ok r) : ∀ task ∈ r.2, task.messages = [] := by
  cases f with
  | send data =>
    rw [Connection.call] at h
    split at h
    · cases h
      exact fun task hmem => absurd hmem List.not_mem_nil
    · exact messages_of_execute h
  | shutdown =>
    rw [Connection.call] at h
    obtain ⟨_, _, h⟩ := bind_eq_ok.mp h
    split at h
    · exact messages_of_execute h
    · cases h
      exact fun task hmem => absurd hmem List.not_mem_nil
  | forceClose =>
    cases h
    rw [Connection.forceClose]
    split
    · exact fun task hmem => by rw [List.mem_singleton.mp hmem]; rfl
    · exact fun task hmem => absurd hmem List.not_mem_nil
  | stopRead =>
    rw [Connection.call] at h
    exact messages_of_execute h
  | startRead =>
    rw [Connection.call] at h
    exact messages_of_execute h

/-- A handler or closure of the connection, in the server and on its own.  `u`
is the server, and `x` the `World`, when the loop has gone on to it. -/
theorem Mirrors.after {u : TCPServerSingle} {id : Nat} {shared : Shared} {x : World}
    (h : u.Mirrors id shared x) {io : Io} {job : Connection.Job} {r : Connection × List Task}
    (hrun : shared.conn.execute io job = .ok r) :
    ∃ changed, (u.after id shared io job r).Mirrors id changed (x.after job r) := by
  have hlt := (List.getElem?_eq_some_iff.mp h.there).1
  refine ⟨_, List.getElem?_set_self hlt, rfl, ?_, h.phase, h.idle,
    sends_pushAll h.sends (messages_of_execute hrun)⟩
  change x.queue.pushAll r.2 = (u.accepted.queue.pushAll (r.2.map fun task => (id, task))).own id
  rw [h.queue, BatchQueue.own_pushAll_self]

/-- A handler or closure of another connection. -/
theorem Mirrors.after_of_ne {u : TCPServerSingle} {id other : Nat} {shared busy : Shared}
    {x : World} (h : u.Mirrors id shared x) (hne : other ≠ id) {io : Io} {job : Connection.Job}
    {r : Connection × List Task} : (u.after other busy io job r).Mirrors id shared x := by
  refine h.rests ?_ rfl (BatchQueue.own_pushAll_of_ne hne _ _) rfl
  change (u.accepted.all.set other _)[id]? = some shared
  rw [List.getElem?_set_ne hne]
  exact h.there

theorem Mirrors.inUserCode {s : TCPServerSingle} {id : Nat} {shared : Shared} {w : World}
    (h : s.Mirrors id shared w) (hphase : s.phase ≠ .outside) : w.InUserCode .loop := by
  refine ⟨h.idle .loop, fun _ => ?_⟩
  rw [h.phase]
  cases hs : s.phase with
  | outside => exact absurd hs hphase
  | dispatch todo => exact Tcp.Phase.noConfusion
  | tasks => exact Tcp.Phase.noConfusion

/-- User code calls a function of the connection. -/
theorem Mirrors.called {s : TCPServerSingle} {id : Nat} {shared : Shared} {w : World}
    (h : s.Mirrors id shared w) (hphase : s.phase ≠ .outside) {io : Io} {f : PublicCall}
    {r : Connection × List Task} (hcall : shared.conn.call io f = .ok r) :
    ∃ v, Called w io f r (callSteps shared.conn.state io f) v := by
  rw [← h.conn] at hcall ⊢
  exact called_of_call h.idle ((h.inUserCode hphase).2 rfl) hcall

/-- User code does something with a connection. -/
theorem Mirrors.uses {s : TCPServerSingle} {id : Nat} {shared : Shared} {w : World}
    (h : s.Mirrors id shared w) (hphase : s.phase ≠ .outside) {a : SharedAction}
    {cs : Connections} (huses : s.accepted.Uses a cs) :
    ∃ v, run World.step w (s.stepsOf id shared (.user a)) = some v ∧
      ∃ changed, ({ s with accepted := cs }).Mirrors id changed v := by
  have hlt := (List.getElem?_eq_some_iff.mp h.there).1
  have huser := h.inUserCode hphase
  cases huses with
  | call other io f busy r hid hcall =>
    rw [stepsOf]
    by_cases heq : other = id
    · subst heq
      rw [h.there] at hid
      cases hid
      rw [if_pos rfl]
      obtain ⟨v, hcalled⟩ := h.called hphase hcall
      refine ⟨v, hcalled.run, _, List.getElem?_set_self hlt, hcalled.conn, ?_,
        hcalled.phase.trans h.phase, hcalled.idle, ?_⟩
      · rw [hcalled.queue, h.queue, BatchQueue.own_pushAll_self]
      · rw [hcalled.queue]
        exact sends_pushAll h.sends (messages_of_call hcall)
    · rw [if_neg heq]
      refine ⟨w, rfl, shared, h.rests ?_ rfl (BatchQueue.own_pushAll_of_ne heq _ _) rfl⟩
      exact (List.getElem?_set_ne heq).trans h.there
  | retrieve other len busy inputBuffer hid hretrieve =>
    rw [stepsOf]
    by_cases heq : other = id
    · subst heq
      rw [h.there] at hid
      cases hid
      rw [if_pos rfl]
      have hstep : w.step (.user (.retrieve len)) =
          .next { w with conn := { w.conn with inputBuffer := inputBuffer } } := by
        rw [World.step, if_pos huser, World.userStep, h.conn, hretrieve]
        rfl
      refine ⟨_, run_cons_of_next hstep [], _, List.getElem?_set_self hlt, ?_, h.queue, h.phase,
        h.idle, h.sends⟩
      exact congrArg (fun c : Connection => { c with inputBuffer := inputBuffer }) h.conn
    · rw [if_neg heq]
      exact ⟨w, rfl, shared, h.rests ((List.getElem?_set_ne heq).trans h.there) rfl rfl rfl⟩
  | setCallbacks other settings messageCallback busy hid =>
    rw [stepsOf]
    by_cases heq : other = id
    · subst heq
      rw [h.there] at hid
      cases hid
      rw [if_pos rfl]
      have hstep : w.step (.user (.set
            { settings with closeCallback := shared.conn.settings.closeCallback })) =
          .next { w with conn := { w.conn with
            settings :=
              { settings with closeCallback := shared.conn.settings.closeCallback } } } := by
        rw [World.step, if_pos huser]
        rfl
      refine ⟨_, run_cons_of_next hstep [], _, List.getElem?_set_self hlt, ?_, h.queue, h.phase,
        h.idle, h.sends⟩
      exact congrArg (fun c : Connection => { c with
        settings := { settings with closeCallback := shared.conn.settings.closeCallback } }) h.conn
    · rw [if_neg heq]
      exact ⟨w, rfl, shared, h.rests ((List.getElem?_set_ne heq).trans h.there) rfl rfl rfl⟩
  | hold other busy hid =>
    rw [stepsOf]
    by_cases heq : other = id
    · subst heq
      rw [h.there] at hid
      cases hid
      exact ⟨w, rfl, _, h.rests (List.getElem?_set_self hlt) rfl rfl rfl⟩
    · exact ⟨w, rfl, shared, h.rests ((List.getElem?_set_ne heq).trans h.there) rfl rfl rfl⟩
  | release other busy hid =>
    rw [stepsOf]
    by_cases heq : other = id
    · subst heq
      rw [h.there] at hid
      cases hid
      exact ⟨w, rfl, _, h.rests (List.getElem?_set_self hlt) rfl rfl rfl⟩
    · exact ⟨w, rfl, shared, h.rests ((List.getElem?_set_ne heq).trans h.there) rfl rfl rfl⟩

/-- **One step of the server** is the schedule of the connection's own steps. -/
theorem Mirrors.moves {s t : TCPServerSingle} {id : Nat} {shared : Shared} {w : World}
    {a : Action} (h : s.Mirrors id shared w) (hgood : s.InRounds a) (hmoves : s.Moves a t) :
    ∃ v, run World.step w (s.stepsOf id shared a) = some v ∧
      ∃ changed, t.Mirrors id changed v := by
  have hlt := (List.getElem?_eq_some_iff.mp h.there).1
  cases hmoves with
  | start listens acceptChannel => exact ⟨w, rfl, shared, h.rests h.there rfl rfl rfl⟩
  | poll active hphase hpoll =>
    have hstep : w.step (.loop (.poll (reventsOf id active))) =
        .next { w with phase := .dispatch (handleEventsWithGuard (reventsOf id active)) } := by
      rw [World.step, if_pos (h.idle .loop), World.roundStep, if_pos]
      rw [h.phase, hphase]
      rfl
    refine ⟨_, run_cons_of_next hstep [], shared, h.there, h.conn, h.queue, ?_, h.idle, h.sends⟩
    rw [phaseOf, own_active hpoll.1]
  | accept io cb rest accepted hphase hall hqueue =>
    rw [stepsOf, hphase]
    refine ⟨w, rfl, shared, h.rests ?_ rfl (by rw [hqueue]) ?_⟩
    · rw [hall, List.getElem?_append_left hlt]
      exact h.there
    · rw [hphase, phaseOf, phaseOf, own_cons_of_ne Source.noConfusion]
  | acceptFailed io errno cb rest hphase =>
    rw [stepsOf, hphase]
    refine ⟨w, rfl, shared, h.rests h.there rfl rfl ?_⟩
    rw [hphase, phaseOf, phaseOf, own_cons_of_ne Source.noConfusion]
  | handleEvents io accept other cb rest busy r hphase hid hrun =>
    rw [stepsOf, hphase]
    by_cases heq : other = id
    · subst heq
      rw [h.there] at hid
      cases hid
      dsimp only
      rw [if_pos rfl]
      have hmirrors : ({ s with
          phase := .dispatch rest
          guard := guardAfter other rest }).Mirrors other shared
          { w with phase := .dispatch (own (Source.connection other) rest) } :=
        ⟨h.there, h.conn, h.queue, rfl, h.idle, h.sends⟩
      have hstep : w.step (.loop (.handleEvents io)) =
          .next ({ w with phase := .dispatch (own (Source.connection other) rest) }.after
            (.callback cb) r) := by
        rw [World.step, if_pos (h.idle .loop), World.roundStep, h.phase, hphase, phaseOf,
          own_cons_self]
        refine World.runJob_eq_next.mpr ⟨r, ?_, rfl⟩
        rw [← hrun, ← h.conn]
      obtain ⟨changed, hchanged⟩ := hmirrors.after hrun
      exact ⟨_, run_cons_of_next hstep [], changed, hchanged⟩
    · dsimp only
      rw [if_neg heq]
      have hmirrors : ({ s with
          phase := .dispatch rest
          guard := guardAfter other rest }).Mirrors id shared w := by
        refine h.rests h.there rfl rfl ?_
        rw [hphase, phaseOf, phaseOf, own_cons_of_ne]
        rintro ⟨rfl⟩
        exact heq rfl
      exact ⟨w, rfl, shared, hmirrors.after_of_ne heq⟩
  | callbackReturn => exact ⟨w, rfl, shared, h.rests h.there rfl rfl rfl⟩
  | swap hphase =>
    have hstep :
        w.step (.loop .swap) = .next { w with queue := w.queue.swap, phase := .tasks } := by
      rw [World.step, if_pos (h.idle .loop), World.roundStep, if_pos]
      rw [h.phase, hphase]
      rfl
    refine ⟨_, run_cons_of_next hstep [], shared, h.there, h.conn, ?_, rfl, h.idle, ?_⟩
    · exact (congrArg BatchQueue.swap h.queue).trans (BatchQueue.own_swap id _).symm
    · intro task hmem
      refine h.sends task (List.mem_append_right _ ?_)
      simpa [BatchQueue.swap, BatchQueue.toList] using hmem
  | runTask io other task rest busy r hphase hbatch hid hrun =>
    rw [stepsOf, hbatch]
    by_cases heq : other = id
    · subst heq
      rw [h.there] at hid
      cases hid
      dsimp only
      rw [if_pos rfl]
      have hown : w.queue.batch = task :: own other rest := by
        rw [h.queue, BatchQueue.own, hbatch, own_cons_self]
      have hmirrors : ({ s with
          accepted := { s.accepted with queue := s.accepted.queue.advance } }).Mirrors other shared
          { w with queue := w.queue.advance } := by
        refine ⟨h.there, h.conn, ?_, h.phase, h.idle, fun task hmem => h.sends task ?_⟩
        · change w.queue.advance = s.accepted.queue.advance.own other
          rw [h.queue, BatchQueue.own_advance_self hbatch]
        · rw [BatchQueue.toList_eq_cons_advance hown]
          exact List.mem_cons_of_mem _ hmem
      have hstep : w.step (.loop (.runTask io)) =
          .next ({ w with queue := w.queue.advance }.after (.task task) r) := by
        rw [World.step, if_pos (h.idle .loop), World.roundStep, h.phase, hphase, phaseOf, hown]
        refine World.runJob_eq_next.mpr ⟨r, ?_, rfl⟩
        rw [← hrun, ← h.conn]
      obtain ⟨changed, hchanged⟩ := hmirrors.after hrun
      exact ⟨_, run_cons_of_next hstep [], changed, hchanged⟩
    · dsimp only
      rw [if_neg heq]
      have hmirrors :
          ({ s with accepted := { s.accepted with queue := s.accepted.queue.advance } }).Mirrors
            id shared w :=
        h.rests h.there rfl (BatchQueue.own_advance_of_ne heq hbatch) rfl
      exact ⟨w, rfl, shared, hmirrors.after_of_ne heq⟩
  | endRound hphase _ hbatch =>
    have hstep : w.step (.loop .endRound) = .next { w with phase := .polling } := by
      rw [World.step, if_pos (h.idle .loop), World.roundStep, if_pos]
      rw [h.phase, hphase, h.queue, BatchQueue.own, hbatch]
      exact ⟨rfl, rfl⟩
    exact ⟨_, run_cons_of_next hstep [], shared, h.there, h.conn, h.queue, rfl, h.idle, h.sends⟩
  | user u cs huses => exact h.uses hgood huses
  | destroyConnection other busy hid =>
    by_cases heq : other = id
    · subst heq
      rw [h.there] at hid
      cases hid
      exact ⟨w, rfl, _, h.rests (List.getElem?_set_self hlt) rfl rfl rfl⟩
    · exact ⟨w, rfl, shared, h.rests ((List.getElem?_set_ne heq).trans h.there) rfl rfl rfl⟩

/-! ### Before a connection is accepted -/

/-- A connection that is there is another one. -/
theorem Awaits.ne {settings : Settings} {s : TCPServerSingle} {id other : Nat} {busy : Shared}
    (h : s.Awaits settings id) (hother : s.accepted.all[other]? = some busy) : other ≠ id := by
  have hlt := (List.getElem?_eq_some_iff.mp hother).1
  have habsent := h.absent
  omega

/-- Steps that accept no connection. -/
theorem Awaits.rests {settings : Settings} {s t : TCPServerSingle} {id : Nat}
    (h : s.Awaits settings id) (hlength : t.accepted.all.length = s.accepted.all.length)
    (hsettings : t.settings = s.settings)
    (hqueue : t.accepted.queue.own id = s.accepted.queue.own id)
    (htodo : ∀ todo, t.phase = .dispatch todo → own (.connection id) todo = []) :
    t.Awaits settings id :=
  ⟨hlength ▸ h.absent, hsettings.trans h.settings, hqueue.trans h.queue, htodo⟩

/-- What is left to be called of what was. -/
theorem own_tail {id : Nat} {entry : Source × Callback} {rest : List (Source × Callback)}
    (h : own (.connection id) (entry :: rest) = []) : own (Source.connection id) rest = [] := by
  by_cases heq : entry.1 = .connection id
  · rw [← Prod.mk.eta (p := entry), heq, own_cons_self] at h
    cases h
  · rwa [← Prod.mk.eta (p := entry), own_cons_of_ne heq] at h

/-- Until its turn comes nothing happens to the connection; then it is a new
one. -/
theorem Awaits.moves {settings : Settings} {s t : TCPServerSingle} {id : Nat} {a : Action}
    (h : s.Awaits settings id) (hmoves : s.Moves a t) :
    Projects settings id t (World.start settings) := by
  cases hmoves with
  | start listens acceptChannel => exact Or.inl ⟨h.rests rfl rfl rfl h.todo, rfl⟩
  | poll active hphase hpoll =>
    refine Or.inl ⟨h.rests rfl rfl rfl fun todo htodo => ?_, rfl⟩
    cases htodo
    refine own_active_of_not_mem fun hmem => ?_
    obtain ⟨entry, hentry, hsource⟩ := List.mem_map.mp hmem
    have hregistered := hpoll.2 entry hentry
    rw [hsource] at hregistered
    obtain ⟨shared, hshared, _⟩ := hregistered
    exact h.ne hshared rfl
  | accept io cb rest accepted hphase hall hqueue =>
    have htodo := own_tail (h.todo _ hphase)
    by_cases heq : id = s.accepted.all.length
    · subst heq
      refine Or.inr ⟨s.fresh, ?_, ?_, ?_, ?_, fun _ => rfl, fun task hmem => ?_⟩
      · change accepted.all[s.accepted.all.length]? = _
        rw [hall, List.getElem?_concat_length]
      · exact congrArg Connection.established h.settings.symm
      · change BatchQueue.empty = accepted.queue.own _
        rw [hqueue, h.queue]
      · exact congrArg Tcp.Phase.dispatch htodo.symm
      · exact absurd hmem List.not_mem_nil
    · refine Or.inl ⟨⟨?_, h.settings, ?_, fun todo hphase => ?_⟩, rfl⟩
      · change accepted.all.length ≤ id
        have habsent := h.absent
        rw [hall, List.length_append, List.length_singleton]
        omega
      · change accepted.queue.own id = _
        rw [hqueue]
        exact h.queue
      · cases hphase
        exact htodo
  | acceptFailed io errno cb rest hphase =>
    refine Or.inl ⟨h.rests rfl rfl rfl fun todo htodo => ?_, rfl⟩
    cases htodo
    exact own_tail (h.todo _ hphase)
  | handleEvents io accept other cb rest busy r hphase hid hrun =>
    refine Or.inl ⟨h.rests List.length_set rfl
      (BatchQueue.own_pushAll_of_ne (h.ne hid) _ _) fun todo htodo => ?_, rfl⟩
    cases htodo
    exact own_tail (h.todo _ hphase)
  | callbackReturn => exact Or.inl ⟨h.rests rfl rfl rfl h.todo, rfl⟩
  | swap hphase =>
    refine Or.inl ⟨⟨h.absent, h.settings, ?_, fun todo htodo => by cases htodo⟩, rfl⟩
    exact (BatchQueue.own_swap id _).trans (congrArg BatchQueue.swap h.queue)
  | runTask io other task rest busy r hphase hbatch hid hrun =>
    refine Or.inl ⟨h.rests List.length_set rfl ?_ h.todo, rfl⟩
    exact (BatchQueue.own_pushAll_of_ne (h.ne hid) _ _).trans
      (BatchQueue.own_advance_of_ne (h.ne hid) hbatch)
  | endRound hphase _ hbatch =>
    exact Or.inl ⟨h.rests rfl rfl rfl fun todo htodo => (by cases htodo), rfl⟩
  | user u cs huses =>
    refine Or.inl ⟨?_, rfl⟩
    cases huses with
    | call other io f busy r hid hcall =>
      exact h.rests List.length_set rfl (BatchQueue.own_pushAll_of_ne (h.ne hid) _ _) h.todo
    | retrieve other len busy inputBuffer hid hretrieve =>
      exact h.rests List.length_set rfl rfl h.todo
    | setCallbacks other settings messageCallback busy hid =>
      exact h.rests List.length_set rfl rfl h.todo
    | hold other busy hid => exact h.rests List.length_set rfl rfl h.todo
    | release other busy hid => exact h.rests List.length_set rfl rfl h.todo
  | destroyConnection other busy hid =>
    exact Or.inl ⟨h.rests List.length_set rfl rfl h.todo, rfl⟩

/-- **Each connection of a server is a connection of its own.** -/
theorem simulation (settings : Settings) (id : Nat) :
    Simulation step World.step (Projects settings id) InRounds (answer id) := by
  intro s w a t hprojects hgood hstep
  have hmoves := moves_of_step hstep
  rcases hprojects with ⟨hawaits, rfl⟩ | ⟨shared, hmirrors⟩
  · rw [answer, List.getElem?_eq_none hawaits.absent]
    exact ⟨_, rfl, hawaits.moves hmoves⟩
  · rw [answer, hmirrors.there]
    obtain ⟨v, hrun, hmirrors'⟩ := hmirrors.moves hgood hmoves
    exact ⟨v, hrun, Or.inr hmirrors'⟩

/-- The `World` of a connection that is there mirrors it. -/
theorem mirrors_of_projects {settings : Settings} {s : TCPServerSingle} {id : Nat}
    {shared : Shared} {w : World} (h : Projects settings id s w)
    (hid : s.accepted.all[id]? = some shared) : s.Mirrors id shared w := by
  rcases h with ⟨hawaits, _⟩ | ⟨other, hmirrors⟩
  · exact absurd rfl (hawaits.ne hid)
  · have hother := hmirrors.there
    rw [hid] at hother
    cases hother
    exact hmirrors

/-- **The connections of a server do not see each other.**  In every run of a
server with any number of connections whose user code runs within the rounds of
the loop, each connection that has been accepted is in the state in which a
connection alone on its loop is after the steps that concern it, with the same
queued closures in the same order and the same callbacks still to be called. -/
theorem connection_alone (connectionCallback messageCallback writeCompleteCallback : Bool)
    {actions : List Action} {s : TCPServerSingle}
    (hgood : Along step InRounds
      (new connectionCallback messageCallback writeCompleteCallback) actions)
    (hrun : run step (new connectionCallback messageCallback writeCompleteCallback) actions =
      some s) {id : Nat} {shared : Shared} (hid : s.accepted.all[id]? = some shared) :
    ∃ w, run World.step
        (World.start (new connectionCallback messageCallback writeCompleteCallback).settings)
        (answers step (answer id)
          (new connectionCallback messageCallback writeCompleteCallback) actions) = some w ∧
      w.conn = shared.conn ∧ w.queue = s.accepted.queue.own id ∧
      w.phase = phaseOf id s.phase := by
  obtain ⟨w, hw, hprojects⟩ := (simulation _ id).run (projects_new _ _ _ id) hgood hrun
  have hmirrors := mirrors_of_projects hprojects hid
  exact ⟨w, hw, hmirrors.conn, hmirrors.queue, hmirrors.phase⟩

/-- The server accepts two connections in two rounds; then both have data, the
message callback of the second sends two bytes and forces its own connection
closed. -/
def twoConnections : List Action :=
  [.start true, .poll [(.acceptor, epollIn)], .handleEvents ⟨.fail 0, .fail 0⟩ .accepted,
    .callbackReturn, .swap, .endRound, .poll [(.acceptor, epollIn)],
    .handleEvents ⟨.fail 0, .fail 0⟩ .accepted, .callbackReturn, .swap, .endRound,
    .poll [(.connection 1, epollIn), (.connection 0, epollIn)],
    .handleEvents ⟨.fail 0, .data [65]⟩ .accepted,
    .user (.call 1 ⟨.accepted 1, .fail 0⟩ (.send ⟨[66, 67], SizeT.two_le_maxSize⟩)),
    .user (.retrieve 1 1), .user (.call 1 ⟨.fail 0, .fail 0⟩ .forceClose), .callbackReturn,
    .handleEvents ⟨.fail 0, .data [68]⟩ .accepted, .callbackReturn, .swap]

theorem connection_alone_twoConnections :
    ∃ s shared w, run step (new true true false) twoConnections = some s ∧
      s.accepted.all[1]? = some shared ∧ w.queue.batch = [.forceCloseInLoop] ∧
      run World.step (World.start (new true true false).settings)
        (answers step (answer 1) (new true true false) twoConnections) = some w ∧
      w.conn = shared.conn ∧ w.queue = s.accepted.queue.own 1 ∧ w.phase = phaseOf 1 s.phase := by
  obtain ⟨s, hs, hends⟩ : ∃ s, run step (new true true false) twoConnections = some s ∧
      (s.accepted.all.length, (s.accepted.queue.own 1).batch) = (2, [.forceCloseInLoop]) :=
    Option.map_eq_some_iff.mp (by decide +kernel)
  obtain ⟨hlength, hbatch⟩ := Prod.mk.inj hends
  have hid : s.accepted.all[1]? = some s.accepted.all[1] :=
    List.getElem?_eq_getElem (by rw [hlength]; decide)
  have hgood : Along step InRounds (new true true false) twoConnections := by decide +kernel
  obtain ⟨w, hw, hconn, hqueue, hphase⟩ := connection_alone true true false hgood hs hid
  exact ⟨s, _, w, hs, hid, by rw [hqueue, hbatch], hw, hconn, hqueue, hphase⟩

end CppWeb.Server.TCPServerSingle
