/-
  Server/Steps.lean --- the steps of a server, one by one.

  What user code does with a connection, and what a step of the loop thread
  does to the server, with what is known before it.  Everything that is proved
  of a server goes through these two inversions.
-/
import CppWeb.Server.TCPServerSingle

set_option autoImplicit false

namespace CppWeb.Tcp.Connections

open CppWeb.Foundation

/-- What user code does, with the connection it does it to. -/
inductive Uses (cs : Connections) : SharedAction → Connections → Prop where
  | call (id : Nat) (io : Io) (f : PublicCall) (shared : Shared) (r : Connection × List Task)
      (hid : cs.all[id]? = some shared) (hcall : shared.conn.call io f = .ok r) :
      Uses cs (.call id io f) { cs with
        all := cs.all.set id { shared with conn := r.1 }
        queue := cs.queue.pushAll (r.2.map fun task => (id, task)) }
  | retrieve (id len : Nat) (shared : Shared) (inputBuffer : Buffer)
      (hid : cs.all[id]? = some shared)
      (hretrieve : shared.conn.inputBuffer.retrieve len = .ok inputBuffer) :
      Uses cs (.retrieve id len) { cs with
        all := cs.all.set id
          { shared with conn := { shared.conn with inputBuffer := inputBuffer } } }
  | setCallbacks (id : Nat) (settings : Settings) (messageCallback : Bool) (shared : Shared)
      (hid : cs.all[id]? = some shared) :
      Uses cs (.setCallbacks id settings messageCallback) { cs with
        all := cs.all.set id { shared with
          conn := { shared.conn with
            settings := { settings with closeCallback := shared.conn.settings.closeCallback } }
          messageCallback := messageCallback } }
  | hold (id : Nat) (shared : Shared) (hid : cs.all[id]? = some shared) :
      Uses cs (.hold id) { cs with
        all := cs.all.set id { shared with userRefs := shared.userRefs + 1 } }
  | release (id : Nat) (shared : Shared) (hid : cs.all[id]? = some shared) :
      Uses cs (.release id) { cs with
        all := cs.all.set id { shared with userRefs := shared.userRefs - 1 } }

theorem use_eq_next {cs ds : Connections} {id : Nat}
    {f : Shared → Except Abort (Shared × List Task)} (h : cs.use id f = .next ds) :
    ∃ shared r, cs.all[id]? = some shared ∧ f shared = .ok r ∧ ds = { cs with
      all := cs.all.set id r.1
      queue := cs.queue.pushAll (r.2.map fun task => (id, task)) } := by
  obtain ⟨_, h⟩ := Outcome.ite_eq_next.mp h
  split at h
  · cases h
  · rename_i shared hid
    rw [Outcome.ofExcept_eq_next, bind_eq_ok] at h
    obtain ⟨r, hr, h⟩ := h
    cases h
    exact ⟨shared, r, hid, hr, rfl⟩

/-- Nothing is queued. -/
theorem pushAll_map_nil (cs : Connections) (id : Nat) :
    cs.queue.pushAll (([] : List Task).map fun task => (id, task)) = cs.queue := by
  simp [BatchQueue.pushAll]

theorem uses_of_userStep {cs ds : Connections} {a : SharedAction} (h : cs.userStep a = .next ds) :
    cs.Uses a ds := by
  cases a with
  | call id io f =>
    obtain ⟨shared, r, hid, hr, rfl⟩ := use_eq_next h
    obtain ⟨called, hcall, heq⟩ := bind_eq_ok.mp hr
    cases heq
    exact .call id io f shared called hid hcall
  | retrieve id len =>
    obtain ⟨shared, r, hid, hr, rfl⟩ := use_eq_next h
    obtain ⟨inputBuffer, hretrieve, heq⟩ := bind_eq_ok.mp hr
    cases heq
    rw [pushAll_map_nil]
    exact .retrieve id len shared inputBuffer hid hretrieve
  | setCallbacks id settings messageCallback =>
    obtain ⟨shared, r, hid, hr, rfl⟩ := use_eq_next h
    cases hr
    rw [pushAll_map_nil]
    exact .setCallbacks id settings messageCallback shared hid
  | hold id =>
    obtain ⟨shared, r, hid, hr, rfl⟩ := use_eq_next h
    cases hr
    rw [pushAll_map_nil]
    exact .hold id shared hid
  | release id =>
    obtain ⟨_, h⟩ := Outcome.ite_eq_next.mp h
    obtain ⟨shared, r, hid, hr, rfl⟩ := use_eq_next h
    cases hr
    rw [pushAll_map_nil]
    exact .release id shared hid

end CppWeb.Tcp.Connections

namespace CppWeb.Server.TCPServerSingle

open CppWeb.Foundation CppWeb.Poll CppWeb.Tcp

/-! ## What a step can do -/

/-- A connection as it is accepted. -/
def fresh (s : TCPServerSingle) : Shared :=
  { conn := Connection.established s.settings
    messageCallback := s.messageCallback
    userRefs := 0
    destroyed := false
    log := upCallback s.connectionCallback }

/-- Every step that leads to a next state, with what is known before it. -/
inductive Moves (s : TCPServerSingle) : Action → TCPServerSingle → Prop where
  | start (listens : Bool) (acceptChannel : Channel) :
      Moves s (.start listens) { s with acceptChannel := acceptChannel }
  | poll (active : List (Source × Mask)) (hphase : s.phase = .outside)
      (hpoll : s.CanPoll active) :
      Moves s (.poll active) { s with phase := .dispatch (active.flatMap callbacksOf) }
  | accept (io : Io) (cb : Callback) (rest : List (Source × Callback)) (accepted : Connections)
      (hphase : s.phase = .dispatch ((.acceptor, cb) :: rest))
      (hall : accepted.all = s.accepted.all ++ [s.fresh])
      (hqueue : accepted.queue = s.accepted.queue) :
      Moves s (.handleEvents io .accepted) { s with
        phase := .dispatch rest
        connectionSet := insert s.accepted.all.length s.connectionSet
        accepted := accepted }
  | acceptFailed (io : Io) (errno : Nat) (cb : Callback) (rest : List (Source × Callback))
      (hphase : s.phase = .dispatch ((.acceptor, cb) :: rest)) :
      Moves s (.handleEvents io (.fail errno)) { s with phase := .dispatch rest }
  | handleEvents (io : Io) (accept : AcceptResult) (id : Nat) (cb : Callback)
      (rest : List (Source × Callback)) (shared : Shared) (r : Connection × List Task)
      (hphase : s.phase = .dispatch ((.connection id, cb) :: rest))
      (hid : s.accepted.all[id]? = some shared)
      (hrun : shared.conn.execute io (.callback cb) = .ok r) :
      Moves s (.handleEvents io accept)
        ({ s with phase := .dispatch rest, guard := guardAfter id rest }.after id shared io
          (.callback cb) r)
  | callbackReturn :
      Moves s .callbackReturn { s with accepted := { s.accepted with current := none } }
  | swap (hphase : s.phase = .dispatch []) :
      Moves s .swap { s with
        accepted := { s.accepted with queue := s.accepted.queue.swap }
        phase := .tasks }
  | runTask (io : Io) (id : Nat) (task : Task) (rest : List (Nat × Task)) (shared : Shared)
      (r : Connection × List Task) (hphase : s.phase = .tasks)
      (hbatch : s.accepted.queue.batch = (id, task) :: rest)
      (hid : s.accepted.all[id]? = some shared)
      (hrun : shared.conn.execute io (.task task) = .ok r) :
      Moves s (.runTask io)
        ({ s with accepted := { s.accepted with queue := s.accepted.queue.advance } }.after id
          shared io (.task task) r)
  | endRound (hphase : s.phase = .tasks) (hcurrent : s.accepted.current = none)
      (hbatch : s.accepted.queue.batch = []) :
      Moves s .endRound { s with phase := .outside }
  | user (a : SharedAction) (cs : Connections) (huses : s.accepted.Uses a cs) :
      Moves s (.user a) { s with accepted := cs }
  | destroyConnection (id : Nat) (shared : Shared) (hid : s.accepted.all[id]? = some shared) :
      Moves s (.destroyConnection id) { s with
        accepted := { s.accepted with
          all := s.accepted.all.set id { shared with destroyed := true } } }

theorem runJob_eq_next {s t : TCPServerSingle} {id : Nat} {io : Io} {job : Connection.Job}
    (h : s.runJob id io job = .next t) :
    ∃ shared r, s.accepted.all[id]? = some shared ∧ shared.conn.execute io job = .ok r ∧
      t = s.after id shared io job r := by
  rw [runJob] at h
  split at h
  · cases h
  · rename_i shared hid
    split at h
    · cases h
    · rw [Outcome.ofExcept_eq_next, bind_eq_ok] at h
      obtain ⟨r, hrun, h⟩ := h
      cases h
      exact ⟨shared, r, hid, hrun, rfl⟩

/-- **Inversion.** -/
theorem moves_of_step {s t : TCPServerSingle} {a : Action} (h : s.step a = .next t) :
    s.Moves a t := by
  cases a with
  | start listens =>
    rw [step, Outcome.ofExcept_eq_next, start] at h
    split at h
    · obtain ⟨acceptChannel, _, heq⟩ := bind_eq_ok.mp h
      cases heq
      exact .start listens acceptChannel
    · cases h
  | poll active =>
    obtain ⟨⟨hphase, _, hpoll⟩, rfl⟩ := Outcome.ite_next_eq_next.mp h
    exact .poll active hphase hpoll
  | handleEvents io accept =>
    rw [step] at h
    split at h
    · rename_i cb rest hphase hcurrent
      rw [Outcome.ofExcept_eq_next] at h
      cases accept with
      | accepted =>
        rw [acceptHandleRead, newConnetction, Connections.make_eq, ok_bind] at h
        cases h
        exact .accept io cb rest _ hphase rfl rfl
      | fail errno =>
        rw [acceptHandleRead] at h
        split at h
        · cases h
          exact .acceptFailed io errno cb rest hphase
        · cases h
    · rename_i id cb rest hphase hcurrent
      obtain ⟨shared, r, hid, hrun, rfl⟩ := runJob_eq_next h
      exact .handleEvents io accept id cb rest shared r hphase hid hrun
    · cases h
  | callbackReturn =>
    rw [step] at h
    split at h
    · cases h
    · cases h
      exact .callbackReturn
  | swap =>
    obtain ⟨⟨hphase, _⟩, rfl⟩ := Outcome.ite_next_eq_next.mp h
    exact .swap hphase
  | runTask io =>
    rw [step] at h
    split at h
    · rename_i id task rest hphase hcurrent hbatch
      obtain ⟨shared, r, hid, hrun, rfl⟩ := runJob_eq_next h
      exact .runTask io id task rest shared r hphase hbatch hid hrun
    · cases h
  | endRound =>
    obtain ⟨⟨hphase, hcurrent, hbatch⟩, rfl⟩ := Outcome.ite_next_eq_next.mp h
    exact .endRound hphase hcurrent hbatch
  | user a =>
    obtain ⟨cs, hcs, rfl⟩ := withAccepted_next.mp h
    exact .user a cs (Connections.uses_of_userStep hcs)
  | destroyConnection id =>
    obtain ⟨_, h⟩ := Outcome.ite_eq_next.mp h
    split at h
    · cases h
    · rename_i shared hid
      split at h
      · cases h
      · obtain ⟨cs, hcs, rfl⟩ := withAccepted_next.mp h
        rw [Outcome.ofExcept_eq_next, Connections.destroy] at hcs
        obtain ⟨_, _, heq⟩ := bind_eq_ok.mp hcs
        cases heq
        exact .destroyConnection id shared hid

end CppWeb.Server.TCPServerSingle
