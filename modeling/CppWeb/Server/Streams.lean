/-
  Server/Streams.lean --- the byte streams of the connections of a server.

  What user code sends on a connection and what `::readv` gets from its socket
  are read off the steps of the server.  For each connection these are the
  streams of the connection on its own, so that on one loop with any number of
  connections no byte changes over to another connection, gets lost or comes
  out of order.
-/
import CppWeb.Server.Projection

set_option autoImplicit false

namespace CppWeb.Server.TCPServerSingle

open CppWeb.Foundation CppWeb.Poll CppWeb.Tcp

/-! ## What a step does to a stream -/

/-- The bytes that user code sends on the connection while it is connected. -/
def sent (id : Nat) (s : TCPServerSingle) : Action → List UInt8
  | .user (.call other _ f) =>
      match s.accepted.all[id]? with
      | some shared => if other = id then sentBy shared.conn f else []
      | none => []
  | _ => []

/-- The bytes that `::readv` gets from the socket of the connection. -/
def received (id : Nat) (s : TCPServerSingle) : Action → List UInt8
  | .handleEvents io _ =>
      match s.phase, s.accepted.all[id]? with
      | .dispatch ((.connection other, cb) :: _), some shared =>
          if other = id then shared.conn.received io (.callback cb) else []
      | _, _ => []
  | _ => []

/-- The bytes that user code takes out of the input buffer of the connection. -/
def retrieved (id : Nat) (s : TCPServerSingle) : Action → List UInt8
  | .user (.retrieve other len) =>
      match s.accepted.all[id]? with
      | some shared => if other = id then shared.conn.inputBuffer.peek len else []
      | none => []
  | _ => []

/-- User code sends a message on the connection that `sendInLoop` gives up. -/
def GivesUp (id : Nat) (s : TCPServerSingle) : Action → Prop
  | .user (.call other io f) =>
      other = id ∧ ∃ shared ∈ s.accepted.all[id]?, CallGivesUp shared.conn io f
  | _ => False

instance (c : Connection) (io : Io) : ∀ f, Decidable (CallGivesUp c io f)
  | .send _ => inferInstanceAs (Decidable (_ ∧ _))
  | .shutdown => isFalse id
  | .forceClose => isFalse id
  | .stopRead => isFalse id
  | .startRead => isFalse id

instance (i : Nat) (s : TCPServerSingle) : ∀ a, Decidable (s.GivesUp i a)
  | .user (.call _ _ _) => inferInstanceAs (Decidable (_ ∧ ∃ shared ∈ _, _))
  | .user (.retrieve _ _) => isFalse id
  | .user (.setCallbacks _ _ _) => isFalse id
  | .user (.hold _) => isFalse id
  | .user (.release _) => isFalse id
  | .start _ => isFalse id
  | .poll _ => isFalse id
  | .handleEvents _ _ => isFalse id
  | .callbackReturn => isFalse id
  | .swap => isFalse id
  | .runTask _ => isFalse id
  | .endRound => isFalse id
  | .destroyConnection _ => isFalse id

/-! ## The same for the connection on its own -/

/-- What a step of the server is to a connection, with what it means for the
streams. -/
inductive Shows (s : TCPServerSingle) (id : Nat) (shared : Shared) :
    Action → List Tcp.Action → Prop where
  | nothing (a : Action) (hsent : sent id s a = []) (hreceived : received id s a = [])
      (hretrieved : retrieved id s a = []) : Shows s id shared a []
  /-- the loop goes on, or a callback is set -/
  | quiet (a : Action) (b : Tcp.Action) (hjob : ∀ w : World, w.jobOf b = none)
      (hconsumed : ∀ w : World, w.consumed b = []) (hsent : sent id s a = [])
      (hreceived : received id s a = []) (hretrieved : retrieved id s a = []) :
      Shows s id shared a [b]
  | handleEvents (io : Io) (accept : AcceptResult) (cb : Callback)
      (rest : List (Source × Callback))
      (hphase : s.phase = .dispatch ((.connection id, cb) :: rest)) :
      Shows s id shared (.handleEvents io accept) [.loop (.handleEvents io)]
  | runTask (io : Io) : Shows s id shared (.runTask io) [.loop (.runTask io)]
  | call (io : Io) (f : PublicCall) (r : Connection × List Task) (hphase : s.phase ≠ .outside)
      (hcall : shared.conn.call io f = .ok r) :
      Shows s id shared (.user (.call id io f)) (callSteps shared.conn.state io f)
  | retrieve (len : Nat) : Shows s id shared (.user (.retrieve id len)) [.user (.retrieve len)]

theorem shows_of_step {s t : TCPServerSingle} {id : Nat} {shared : Shared} {a : Action}
    (hid : s.accepted.all[id]? = some shared) (hgood : s.InRounds a) (hstep : s.step a = .next t) :
    Shows s id shared a (s.stepsOf id shared a) := by
  cases moves_of_step hstep with
  | start listens acceptChannel => exact .nothing _ rfl rfl rfl
  | callbackReturn => exact .nothing _ rfl rfl rfl
  | destroyConnection other busy hother => exact .nothing _ rfl rfl rfl
  | poll active hphase hpoll =>
    exact .quiet _ _ (fun _ => rfl) (fun _ => rfl) rfl rfl rfl
  | swap hphase => exact .quiet _ _ (fun _ => rfl) (fun _ => rfl) rfl rfl rfl
  | endRound hphase hbatch => exact .quiet _ _ (fun _ => rfl) (fun _ => rfl) rfl rfl rfl
  | accept io cb rest accepted hphase hall hqueue =>
    rw [stepsOf, hphase]
    exact .nothing _ rfl (by rw [received, hphase]) rfl
  | acceptFailed io errno cb rest hphase =>
    rw [stepsOf, hphase]
    exact .nothing _ rfl (by rw [received, hphase]) rfl
  | handleEvents io accept other cb rest busy r hphase hother hrun =>
    rw [stepsOf, hphase]
    by_cases heq : other = id
    · subst heq
      dsimp only
      rw [if_pos rfl]
      exact .handleEvents io accept cb rest hphase
    · dsimp only
      rw [if_neg heq]
      refine .nothing _ rfl ?_ rfl
      rw [received, hphase, hid]
      exact if_neg heq
  | runTask io other task rest busy r hphase hbatch hother hrun =>
    rw [stepsOf, hbatch]
    by_cases heq : other = id
    · dsimp only
      rw [if_pos heq]
      exact .runTask io
    · dsimp only
      rw [if_neg heq]
      exact .nothing _ rfl rfl rfl
  | user u cs huses =>
    cases huses with
    | call other io f busy r hother hcall =>
      rw [stepsOf]
      by_cases heq : other = id
      · subst heq
        rw [hid] at hother
        cases hother
        rw [if_pos rfl]
        exact .call io f r hgood hcall
      · rw [if_neg heq]
        refine .nothing _ ?_ rfl rfl
        rw [sent, hid]
        exact if_neg heq
    | retrieve other len busy inputBuffer hother hretrieve =>
      rw [stepsOf]
      by_cases heq : other = id
      · subst heq
        rw [if_pos rfl]
        exact .retrieve len
      · rw [if_neg heq]
        refine .nothing _ rfl rfl ?_
        rw [retrieved, hid]
        exact if_neg heq
    | setCallbacks other settings messageCallback busy hother =>
      rw [stepsOf]
      by_cases heq : other = id
      · rw [if_pos heq]
        exact .quiet _ _ (fun _ => rfl) (fun _ => rfl) rfl rfl rfl
      · rw [if_neg heq]
        exact .nothing _ rfl rfl rfl
    | hold other busy hother => exact .nothing _ rfl rfl rfl
    | release other busy hother => exact .nothing _ rfl rfl rfl

/-- The callback that a step of the connection calls. -/
theorem jobOf_handleEvents {s : TCPServerSingle} {id : Nat} {shared : Shared} {w : World}
    (h : s.Mirrors id shared w) {cb : Callback} {rest : List (Source × Callback)}
    (hphase : s.phase = .dispatch ((.connection id, cb) :: rest)) (io : Io) :
    w.jobOf (.loop (.handleEvents io)) = some (.callback cb, io) := by
  rw [World.jobOf, h.idle .loop, h.phase, hphase, phaseOf, own_cons_self]

/-- A queued closure that a step of the connection runs has no message. -/
theorem jobOf_runTask {s : TCPServerSingle} {id : Nat} {shared : Shared} {w : World}
    (h : s.Mirrors id shared w) {io io' : Io} {job : Connection.Job}
    (hjob : w.jobOf (.loop (.runTask io)) = some (job, io')) :
    ∃ task, job = .task task ∧ task.messages = [] := by
  rw [World.jobOf] at hjob
  split at hjob
  · rename_i task rest _ _ hbatch
    cases hjob
    refine ⟨task, rfl, h.sends task ?_⟩
    rw [BatchQueue.toList, hbatch]
    exact List.mem_append_left _ List.mem_cons_self
  · cases hjob

/-- A call reads nothing. -/
theorem received_resume (w : World) (io : Io) : w.received (.resume .loop io) = [] := by
  rw [World.received, World.jobOf]
  split
  · rename_i job io' heq
    split at heq
    · cases heq
      rfl
    · cases heq
  · rfl

/-- Calls retrieve nothing and read nothing. -/
theorem emitted_callSteps {out : World → Tcp.Action → List UInt8}
    (hcall : ∀ w t c, out w (.call t c) = []) (hresume : ∀ w io, out w (.resume .loop io) = [])
    (w : World) (state : ConnectionState) (io : Io) (f : PublicCall) :
    emitted World.step out w (callSteps state io f) = [] := by
  apply emitted_eq_nil
  intro w a hmem
  rcases List.mem_cons.mp hmem with rfl | hmem
  · exact hcall w _ f
  · rw [List.eq_of_mem_replicate hmem]
    exact hresume w io

/-- What is sent on the connection. -/
theorem Mirrors.sent {s t : TCPServerSingle} {id : Nat} {shared : Shared} {w : World}
    {a : Action} (h : s.Mirrors id shared w) (hgood : s.InRounds a) (hstep : s.step a = .next t) :
    emitted World.step World.entrusted w (s.stepsOf id shared a) = sent id s a := by
  obtain ⟨v, hrun, _⟩ := h.moves hgood (moves_of_step hstep)
  have hshows := shows_of_step h.there hgood hstep
  generalize s.stepsOf id shared a = steps at hrun hshows
  cases hshows with
  | nothing a hsent hreceived hretrieved => exact hsent.symm
  | quiet a b hjob hconsumed hsent hreceived hretrieved =>
    rw [emitted_singleton hrun, hsent, World.entrusted, World.accepted, hjob]
    rfl
  | handleEvents io accept cb rest hphase =>
    rw [emitted_singleton hrun, World.entrusted, World.accepted, jobOf_handleEvents h hphase]
    rfl
  | runTask io =>
    rw [emitted_singleton hrun, World.entrusted, World.accepted]
    split
    · rename_i job io' hjob
      obtain ⟨task, rfl, htask⟩ := jobOf_runTask h hjob
      exact bytesOf_accepted htask _
    · rfl
  | call io f r hphase hcall =>
    obtain ⟨v, hcalled⟩ := h.called hphase hcall
    have hran := World.stage_bytesOf_ran.history trivial
      (along_of_always (fun _ _ => trivial) _ _) hcalled.run
    rw [hcalled.ran] at hran
    rw [← List.append_cancel_left hran, h.conn, TCPServerSingle.sent, h.there]
    exact (if_pos rfl).symm
  | retrieve len =>
    rw [emitted_singleton hrun]
    rfl

/-- What is read from its socket. -/
theorem Mirrors.received {s t : TCPServerSingle} {id : Nat} {shared : Shared} {w : World}
    {a : Action} (h : s.Mirrors id shared w) (hgood : s.InRounds a) (hstep : s.step a = .next t) :
    emitted World.step World.received w (s.stepsOf id shared a) = received id s a := by
  obtain ⟨v, hrun, _⟩ := h.moves hgood (moves_of_step hstep)
  have hshows := shows_of_step h.there hgood hstep
  generalize s.stepsOf id shared a = steps at hrun hshows
  cases hshows with
  | nothing a hsent hreceived hretrieved => exact hreceived.symm
  | quiet a b hjob hconsumed hsent hreceived hretrieved =>
    rw [emitted_singleton hrun, hreceived, World.received_of_none (hjob w)]
  | handleEvents io accept cb rest hphase =>
    rw [emitted_singleton hrun, World.received_of_jobOf (jobOf_handleEvents h hphase io), h.conn,
      TCPServerSingle.received, hphase, h.there]
    exact (if_pos rfl).symm
  | runTask io =>
    rw [emitted_singleton hrun, World.received]
    split
    · rename_i job io' hjob
      obtain ⟨task, rfl, _⟩ := jobOf_runTask h hjob
      rfl
    · rfl
  | call io f r hphase hcall =>
    exact emitted_callSteps (fun _ _ _ => rfl) received_resume w _ io f
  | retrieve len =>
    rw [emitted_singleton hrun]
    rfl

/-- What is taken out of its input buffer. -/
theorem Mirrors.retrieved {s t : TCPServerSingle} {id : Nat} {shared : Shared} {w : World}
    {a : Action} (h : s.Mirrors id shared w) (hgood : s.InRounds a) (hstep : s.step a = .next t) :
    emitted World.step World.consumed w (s.stepsOf id shared a) = retrieved id s a := by
  obtain ⟨v, hrun, _⟩ := h.moves hgood (moves_of_step hstep)
  have hshows := shows_of_step h.there hgood hstep
  generalize s.stepsOf id shared a = steps at hrun hshows
  cases hshows with
  | nothing a hsent hreceived hretrieved => exact hretrieved.symm
  | quiet a b hjob hconsumed hsent hreceived hretrieved =>
    rw [emitted_singleton hrun, hretrieved, hconsumed]
  | handleEvents io accept cb rest hphase => exact emitted_singleton hrun
  | runTask io => exact emitted_singleton hrun
  | call io f r hphase hcall =>
    exact emitted_callSteps (fun _ _ _ => rfl) (fun _ _ => rfl) w _ io f
  | retrieve len =>
    rw [emitted_singleton hrun, World.consumed, h.conn, TCPServerSingle.retrieved, h.there]
    exact (if_pos rfl).symm

/-- A message that the connection on its own gives up is one that the server's
connection does. -/
theorem Mirrors.kept {s t : TCPServerSingle} {id : Nat} {shared : Shared} {w : World}
    {a : Action} (h : s.Mirrors id shared w) (hgood : s.InRounds a) (hstep : s.step a = .next t)
    (hkept : ¬ s.GivesUp id a) :
    Along World.step (fun w a => ¬ w.GivesUp a) w (s.stepsOf id shared a) := by
  have hshows := shows_of_step h.there hgood hstep
  generalize s.stepsOf id shared a = steps at hshows
  cases hshows with
  | nothing a hsent hreceived hretrieved => trivial
  | quiet a b hjob hconsumed hsent hreceived hretrieved =>
    refine along_singleton fun hbad => ?_
    rw [World.GivesUp, hjob] at hbad
    exact hbad
  | handleEvents io accept cb rest hphase =>
    refine along_singleton fun hbad => ?_
    rw [World.GivesUp, jobOf_handleEvents h hphase] at hbad
    exact hbad
  | runTask io =>
    refine along_singleton fun hbad => ?_
    rw [World.GivesUp] at hbad
    split at hbad
    · rename_i message io' hjob
      obtain ⟨task, heq, hnil⟩ := jobOf_runTask h hjob
      cases heq
      cases hnil
    · exact hbad
  | call io f r hphase hcall =>
    obtain ⟨v, hcalled⟩ := h.called hphase hcall
    refine hcalled.kept fun hbad => hkept ⟨rfl, shared, h.there, ?_⟩
    rw [← h.conn]
    exact hbad
  | retrieve len => exact along_singleton fun hbad => hbad

/-! ## Whole runs -/

/-- Nothing is sent on a connection that is not there, nor read or retrieved. -/
theorem absent_of_none {s : TCPServerSingle} {id : Nat} (hid : s.accepted.all[id]? = none)
    (a : Action) : sent id s a = [] ∧ received id s a = [] ∧ retrieved id s a = [] := by
  cases a with
  | user u => cases u <;> simp [sent, received, retrieved, hid]
  | handleEvents io accept =>
    refine ⟨rfl, ?_, rfl⟩
    rw [received, hid]
    split
    · rename_i heq
      cases heq
    · rfl
  | _ => exact ⟨rfl, rfl, rfl⟩

/-- What the `World` of a connection puts out is what the server does with the
connection. -/
theorem emitted_answer {settings : Settings} {id : Nat} {s t : TCPServerSingle} {w : World}
    {a : Action} (h : Projects settings id s w) (hgood : s.InRounds a)
    (hstep : s.step a = .next t) :
    emitted World.step World.entrusted w (answer id s a) = sent id s a ∧
      emitted World.step World.received w (answer id s a) = received id s a ∧
      emitted World.step World.consumed w (answer id s a) = retrieved id s a := by
  rcases h with ⟨hawaits, rfl⟩ | ⟨shared, hmirrors⟩
  · have hnone := List.getElem?_eq_none hawaits.absent
    obtain ⟨hsent, hreceived, hretrieved⟩ := absent_of_none hnone a
    rw [answer, hnone]
    exact ⟨hsent.symm, hreceived.symm, hretrieved.symm⟩
  · rw [answer, hmirrors.there]
    exact ⟨hmirrors.sent hgood hstep, hmirrors.received hgood hstep,
      hmirrors.retrieved hgood hstep⟩

/-- The same for the messages that are given up. -/
theorem kept_answer {settings : Settings} {id : Nat} {s t : TCPServerSingle} {w : World}
    {a : Action} (h : Projects settings id s w) (hgood : s.InRounds a)
    (hkept : ¬ s.GivesUp id a) (hstep : s.step a = .next t) :
    Along World.step (fun w a => ¬ w.GivesUp a) w (answer id s a) := by
  rcases h with ⟨hawaits, rfl⟩ | ⟨shared, hmirrors⟩
  · rw [answer, List.getElem?_eq_none hawaits.absent]
    trivial
  · rw [answer, hmirrors.there]
    exact hmirrors.kept hgood hstep hkept

/-- **The streams of the connections are separate.**  In every run of a server
with any number of connections whose user code runs within the rounds of the
loop, for each connection: the bytes that the kernel has accepted on its socket,
followed by its output buffer, are what user code has sent on it, unless an
error of `::write` made it give a message up; and the bytes read from its socket
are those that user code has retrieved from it, followed by its input buffer. -/
theorem streams_separate (connectionCallback messageCallback writeCompleteCallback : Bool)
    {actions : List Action} {s : TCPServerSingle}
    (hgood : Along step InRounds
      (new connectionCallback messageCallback writeCompleteCallback) actions)
    (hrun : run step (new connectionCallback messageCallback writeCompleteCallback) actions =
      some s) {id : Nat} {shared : Shared} (hid : s.accepted.all[id]? = some shared) :
    (Along step (fun s a => ¬ s.GivesUp id a)
        (new connectionCallback messageCallback writeCompleteCallback) actions →
      shared.conn.wire ++ shared.conn.outputBuffer.content =
        emitted step (sent id)
          (new connectionCallback messageCallback writeCompleteCallback) actions) ∧
    emitted step (received id)
        (new connectionCallback messageCallback writeCompleteCallback) actions =
      emitted step (retrieved id)
        (new connectionCallback messageCallback writeCompleteCallback) actions ++
        shared.conn.inputBuffer.content := by
  have hnew := projects_new connectionCallback messageCallback writeCompleteCallback id
  have hsim := simulation
    (new connectionCallback messageCallback writeCompleteCallback).settings id
  obtain ⟨w, hw, hprojects⟩ := hsim.run hnew hgood hrun
  have hconn := (mirrors_of_projects hprojects hid).conn
  constructor
  · intro hkept
    have hkept' := (hsim.restrict fun _ _ h => h.1).along
      (fun u x d v hrel hboth hstep => kept_answer hrel hboth.1 hboth.2 hstep) hnew
      (hgood.and hkept) hrun
    have hout := hsim.emitted (fun u x d v hrel hd hstep => (emitted_answer hrel hd hstep).1)
      hnew hgood hrun
    have hstage := (World.stage_output.run Connection.wf_freshBuffer hkept' hw).2
    have hwire := World.stage_wire.history trivial (along_of_always (fun _ _ => trivial) _ _) hw
    have hempty : (World.start (new connectionCallback messageCallback
        writeCompleteCallback).settings).conn.outputBuffer.content = [] :=
      Connection.content_freshBuffer
    rw [hempty, List.nil_append, hout] at hstage
    rw [hstage, ← hconn, hwire]
    rfl
  · have hreceived := hsim.emitted
      (fun u x d v hrel hd hstep => (emitted_answer hrel hd hstep).2.1) hnew hgood hrun
    have hretrieved := hsim.emitted
      (fun u x d v hrel hd hstep => (emitted_answer hrel hd hstep).2.2) hnew hgood hrun
    have hstage := (World.stage_input.run Connection.wf_freshBuffer
      (along_of_always (fun _ _ => trivial) _ _) hw).2
    have hempty : (World.start (new connectionCallback messageCallback
        writeCompleteCallback).settings).conn.inputBuffer.content = [] :=
      Connection.content_freshBuffer
    rw [hempty, List.nil_append, hreceived, hretrieved, hconn] at hstage
    exact hstage

theorem streams_separate_twoConnections :
    ∃ s shared, run step (new true true false) twoConnections = some s ∧
      s.accepted.all[1]? = some shared ∧
      emitted step (sent 1) (new true true false) twoConnections = [66, 67] ∧
      (Along step (fun s a => ¬ s.GivesUp 1 a) (new true true false) twoConnections →
        shared.conn.wire ++ shared.conn.outputBuffer.content =
          emitted step (sent 1) (new true true false) twoConnections) ∧
      emitted step (received 1) (new true true false) twoConnections =
        emitted step (retrieved 1) (new true true false) twoConnections ++
          shared.conn.inputBuffer.content := by
  obtain ⟨s, hs, hlength⟩ : ∃ s, run step (new true true false) twoConnections = some s ∧
      s.accepted.all.length = 2 :=
    Option.map_eq_some_iff.mp (by decide +kernel)
  have hid : s.accepted.all[1]? = some s.accepted.all[1] :=
    List.getElem?_eq_getElem (by rw [hlength]; decide)
  have hgood : Along step InRounds (new true true false) twoConnections := by decide +kernel
  exact ⟨s, _, hs, hid, by decide +kernel, streams_separate true true false hgood hs hid⟩

end CppWeb.Server.TCPServerSingle
