/-
  Tcp/Echo.lean --- the echo servers of test/, over one connection.

  `onMessage` of EchoServer.cpp and DiscardServer.cpp takes everything out of
  the input buffer as a string and sends that string.  It is called by
  `handleRead` whenever something was read, on the loop thread; while it runs,
  other threads may still shut the connection down or force it closed, so each
  of its two statements, and the closure that `send` runs, is a step of its
  own.  A string that finds the connection no longer `kConnected` is dropped.

  The server is a stage like the buffers around it.  With a client at the other
  end of a link all of them together are one stage from the client's `send` to
  the client's message callback.
-/
import CppWeb.Tcp.EndToEnd

set_option autoImplicit false

namespace CppWeb.Tcp

open CppWeb.Foundation CppWeb.Loop CppWeb.Poll

/-- Where the loop thread is in `onMessage`. -/
inductive EchoPhase where
  /-- not in it -/
  | idle
  /-- about to retrieve -/
  | messaged
  /-- about to call `conn->send(str)` -/
  | retrieved (str : List UInt8)
  /-- in the call, which found the connection connected -/
  | sending (str : List UInt8)
  deriving DecidableEq, Repr

/-- `str`, while `onMessage` has it. -/
def EchoPhase.held : EchoPhase → List UInt8
  | .idle => []
  | .messaged => []
  | .retrieved str => str
  | .sending str => str

theorem EchoPhase.held_retrieved (str : List UInt8) : (retrieved str).held = str := rfl

/-- A connection of an echo server, and the strings that were not sent because
the connection was no longer connected. -/
structure Echo where
  world : World
  phase : EchoPhase
  dropped : List UInt8

/-- What threads other than the loop thread do with a connection of an echo
server: anything but send. -/
def Action.elsewhere : Action → Bool
  | .call (.worker _) (.send _) => false
  | .call (.worker _) .shutdown => true
  | .call (.worker _) .forceClose => true
  | .call (.worker _) .stopRead => true
  | .call (.worker _) .startRead => true
  | .resume (.worker _) _ => true
  | .call .loop _ => false
  | .resume .loop _ => false
  | .loop _ => false
  | .user _ => false

namespace World

/-! ## When only the loop thread sends -/

/-- Messages are sent on the loop thread only, which runs them at once: none is
ever queued. -/
structure LoopSends (w : World) : Prop where
  batch : w.BatchDone
  order : w.OrderInv
  noneQueued : w.queued = []
  flight : ∀ t m, w.InFlight t m → t = .loop

theorem loopSends_start (settings : Settings) : (start settings).LoopSends := by
  refine ⟨batchDone_start settings, orderInv_start settings, rfl, fun t m h => ?_⟩
  cases h

theorem inFlight_goto {w : World} {t t' : Thread} {progress : Progress} {m : Message}
    (hother : progress ≠ .handing (.sendInLoop m)) (h : (w.goto t progress).InFlight t' m) :
    w.InFlight t' m := by
  by_cases ht : t' = t
  · subst ht
    rw [InFlight, calls_goto_self] at h
    exact absurd h hother
  · rwa [InFlight, calls_goto_of_ne _ ht] at h

/-- A message in flight after a step was so before, or the step sends it. -/
theorem inFlight_of_step {w v : World} {a : Action} (h : w.step a = .next v) {t : Thread}
    {m : Message} (hflight : v.InFlight t m) :
    w.InFlight t m ∨ ∃ data, a = .call t (.send data) := by
  cases step_cases h with
  | send t' data huser hstate =>
    by_cases ht : t = t'
    · subst ht
      exact Or.inr ⟨data, rfl⟩
    · have hcall : (w.goto t' (.handing (.sendInLoop ⟨t', w.issued t', data⟩))).InFlight t m :=
        hflight
      rw [InFlight, calls_goto_of_ne _ ht] at hcall
      exact Or.inl hcall
  | shutdown t' huser hstate => exact Or.inl (inFlight_goto (by simp) hflight)
  | forceClose t' huser hstate => exact Or.inl (inFlight_goto (by simp) hflight)
  | stopRead t' huser => exact Or.inl (inFlight_goto (by simp) hflight)
  | startRead t' huser => exact Or.inl (inFlight_goto (by simp) hflight)
  | runHere task io r hcall hrun => exact Or.inl (inFlight_goto_idle hflight).2
  | queueHere i task io hcall => exact Or.inl (inFlight_goto_idle hflight).2
  | queue t' task io hcall => exact Or.inl (inFlight_goto_idle hflight).2
  | shutdownMoved t' io hcall hstate =>
    exact Or.inl (inFlight_goto (w := w.setState .kDisconnecting) (by simp) hflight)
  | shutdownLate t' io hcall hstate =>
    exact Or.inl (inFlight_goto (w := w.setState .kDisconnecting) (by simp) hflight)
  | forceCloseMoved t' io hcall hstate =>
    exact Or.inl (inFlight_goto (w := w.setState .kDisconnecting) (by simp) hflight)
  | forceCloseLate t' io hcall hstate =>
    exact Or.inl (inFlight_goto (w := w.setState .kDisconnecting) (by simp) hflight)
  | _ => exact Or.inl hflight

/-- As long as no other thread sends, none ever has a message in flight or
queued. -/
theorem LoopSends.step {w v : World} {a : Action} (hw : w.LoopSends)
    (hno : ∀ i data, a ≠ .call (.worker i) (.send data)) (h : w.step a = .next v) :
    v.LoopSends := by
  have hflight : ∀ t m, v.InFlight t m → t = .loop := by
    intro t m hm
    rcases inFlight_of_step h hm with hbefore | ⟨data, ha⟩
    · exact hw.flight t m hbefore
    · cases t with
      | loop => rfl
      | worker i => exact absurd ha (hno i data)
  refine ⟨hw.batch.step h, hw.order.step hw.batch h, ?_, hflight⟩
  cases ledgerStep_of_step h hw.batch with
  | quiet hcalls houtput hchannel hqueue =>
    rw [queued, hqueue]
    exact hw.noneQueued
  | issue t data hidle hstate hv =>
    subst hv
    exact hw.noneQueued
  | handQueue t task io ha hcall hv =>
    have hnone : task.messages = [] := by
      rcases messages_eq_nil_or task with hnone | ⟨m, rfl⟩
      · exact hnone
      · rcases hcall with ⟨hworker, hcall⟩ | hcall
        · exact absurd (hw.flight t m hcall) hworker
        · cases hw.order.queueing t _ hcall
    subst hv
    rw [queued_queueInLoop, hnone, List.append_nil]
    exact hw.noneQueued
  | runHere task io r ha hcall hrun hv =>
    subst hv
    rw [queued_after (w := (w.goto .loop .idle).handOver task) hrun]
    exact hw.noneQueued
  | runQueued task rest io r hjob hqueue hrest hrun hv =>
    subst hv
    have hold := hw.noneQueued
    rw [queued, hqueue, List.flatMap_cons, List.append_eq_nil_iff] at hold
    rw [queued_after (w := { w with queue := w.queue.advance }) hrun, queued, hrest]
    exact hold.2
  | callback cb io r hjob hrun hv =>
    obtain ⟨phase, rfl⟩ := hv
    rw [queued_after (w := { w with phase := phase }) hrun]
    exact hw.noneQueued

/-- The round of such a loop accepts no messages. -/
theorem LoopSends.accepted_of_round {w : World} (hw : w.LoopSends) (b : RoundAction) :
    w.accepted (.loop b) = [] := by
  rw [accepted]
  cases hjob : w.jobOf (.loop b) with
  | none => rfl
  | some p =>
    obtain ⟨job, io⟩ := p
    cases jobFrom_of_jobOf hjob with
    | channel cb rest hidle hphase => rfl
    | queue task rest hidle hphase hbatch =>
      have hold := hw.noneQueued
      rw [queued, BatchQueue.toList_eq_cons_advance hbatch, List.flatMap_cons,
        List.append_eq_nil_iff] at hold
      dsimp only
      rw [Connection.Job.accepted, hold.1, ite_self]

/-! ## What other threads do -/

theorem jobOf_of_elsewhere {w : World} {a : Action} (ha : a.elsewhere = true) :
    w.jobOf a = none := by
  cases a with
  | loop b => cases ha
  | call t c => rfl
  | resume t io =>
    cases t with
    | loop => cases ha
    | worker i => rfl
  | user b => cases ha

theorem consumed_of_elsewhere {w : World} {a : Action} (ha : a.elsewhere = true) :
    w.consumed a = [] := by
  cases a with
  | user b => cases ha
  | _ => rfl

/-- `retrieveAllAsString` consumes the whole content. -/
theorem consumed_retrieveAll (w : World) :
    w.consumed (.user (.retrieve w.conn.inputBuffer.readableBytes)) =
      w.conn.inputBuffer.content := rfl

theorem entrusted_of_none {w : World} {a : Action} (h : w.jobOf a = none) :
    w.entrusted a = [] := by
  rw [entrusted, accepted, h]
  rfl

/-- A thread that does not move stays where it is in its call. -/
theorem calls_of_not_moving {w v : World} {a : Action} (h : w.step a = .next v) {t : Thread}
    (hcall : ∀ c, a ≠ .call t c) (hresume : ∀ io, a ≠ .resume t io) :
    v.calls t = w.calls t := by
  have hgoto : ∀ (u : World) (t' : Thread) (progress : Progress), t ≠ t' →
      (u.goto t' progress).calls t = u.calls t :=
    fun u t' progress hne => calls_goto_of_ne u hne progress
  cases step_cases h with
  | send t' data huser hstate => exact hgoto w t' _ fun ht => hcall _ (by rw [ht])
  | shutdown t' huser hstate => exact hgoto w t' _ fun ht => hcall _ (by rw [ht])
  | forceClose t' huser hstate => exact hgoto w t' _ fun ht => hcall _ (by rw [ht])
  | stopRead t' huser => exact hgoto w t' _ fun ht => hcall _ (by rw [ht])
  | startRead t' huser => exact hgoto w t' _ fun ht => hcall _ (by rw [ht])
  | runHere task io r => exact hgoto w .loop .idle fun ht => hresume _ (by rw [ht])
  | queueHere i task io => exact hgoto w (.worker i) .idle fun ht => hresume _ (by rw [ht])
  | queue t' task io => exact hgoto w t' .idle fun ht => hresume _ (by rw [ht])
  | shutdownMoved t' io => exact hgoto _ t' _ fun ht => hresume _ (by rw [ht])
  | shutdownLate t' io => exact hgoto _ t' _ fun ht => hresume _ (by rw [ht])
  | forceCloseMoved t' io => exact hgoto _ t' _ fun ht => hresume _ (by rw [ht])
  | forceCloseLate t' io => exact hgoto _ t' _ fun ht => hresume _ (by rw [ht])
  | _ => rfl

theorem calls_loop_of_elsewhere {w v : World} {a : Action} (ha : a.elsewhere = true)
    (h : w.step a = .next v) : v.calls .loop = w.calls .loop := by
  refine calls_of_not_moving h (fun c hc => ?_) fun io hio => ?_
  · subst hc
    cases ha
  · subst hio
    cases ha

theorem conn_of_elsewhere {w v : World} {a : Action} (ha : a.elsewhere = true)
    (h : w.step a = .next v) :
    v.conn.inputBuffer = w.conn.inputBuffer ∧
      (v.conn.state = w.conn.state ∨ v.conn.state = .kDisconnecting) := by
  constructor
  · cases transfer_of_step h with
    | quiet hjob hconsumed hinput hran => exact hinput
    | retrieve len heq hretrieve hran =>
      subst heq
      cases ha
    | job job io r hjob =>
      rw [jobOf_of_elsewhere ha] at hjob
      cases hjob
  · cases connStep_of_step h with
    | same inputBuffer settings hinput hconn hran => exact Or.inl (by rw [hconn])
    | exchange t io heq hcall hconn hran => exact Or.inr (by rw [hconn])
    | job job io r hjob =>
      rw [jobOf_of_elsewhere ha] at hjob
      cases hjob

theorem not_workerSend_of_elsewhere {a : Action} (ha : a.elsewhere = true) (i : Nat)
    (data : Bytes) : a ≠ .call (.worker i) (.send data) := by
  intro heq
  subst heq
  cases ha

/-- No step leads back to `kConnected`. -/
theorem connected_of_step {w v : World} {a : Action} (h : w.step a = .next v)
    (hstate : v.conn.state = .kConnected) : w.conn.state = .kConnected := by
  cases closingStep_of_step h with
  | same hsame hcloses hcallbacks => rwa [hsame] at hstate
  | exchange t io ha hcall hconn =>
    rw [hconn] at hstate
    cases hstate
  | close hopen hclosed hcloses hcallbacks =>
    rw [hclosed] at hstate
    cases hstate

end World

namespace Echo

/-- The step goes on as in a world, with another phase. -/
def go (e : Echo) (a : Action) (phase : EchoPhase) : Outcome Abort Echo :=
  (e.world.step a).map fun v => { e with world := v, phase := phase }

/-- One step of the loop thread. -/
def loopStep (e : Echo) (a : Action) : Outcome Abort Echo :=
  match e.phase, a with
  | .idle, .loop _ => e.go a (if e.world.received a = [] then .idle else .messaged)
  | .messaged, .user (.retrieve len) =>
      -- std::string str = buffer.retrieveAllAsString();
      if len = e.world.conn.inputBuffer.readableBytes then
        e.go a (.retrieved e.world.conn.inputBuffer.content)
      else .disabled
  | .retrieved str, .call .loop (.send data) =>
      -- conn->send(str);
      if data.data = str then
        if e.world.conn.state = .kConnected then e.go a (.sending str)
        else { e with dropped := e.dropped ++ str }.go a .idle
      else .disabled
  | .sending _, .resume .loop _ => e.go a .idle
  | _, _ => .disabled

def step (e : Echo) (a : Action) : Outcome Abort Echo :=
  if a.elsewhere = true then e.go a e.phase else e.loopStep a

def start (settings : Settings) : Echo :=
  { world := World.start settings, phase := .idle, dropped := [] }

/-! ## Steps, one by one -/

theorem go_eq_next {e f : Echo} {a : Action} {phase : EchoPhase} :
    e.go a phase = .next f ↔
      ∃ v, e.world.step a = .next v ∧ { e with world := v, phase := phase } = f :=
  Outcome.map_eq_next

/-- What one step can do. -/
inductive Stepped (e : Echo) (a : Action) : Echo → Prop where
  | elsewhere (v : World) (ha : a.elsewhere = true) (hstep : e.world.step a = .next v) :
      Stepped e a { e with world := v }
  | round (b : RoundAction) (v : World) (hphase : e.phase = .idle) (ha : a = .loop b)
      (hstep : e.world.step a = .next v) :
      Stepped e a
        { e with world := v, phase := if e.world.received a = [] then .idle else .messaged }
  | retrieve (v : World) (hphase : e.phase = .messaged)
      (ha : a = .user (.retrieve e.world.conn.inputBuffer.readableBytes))
      (hstep : e.world.step a = .next v) :
      Stepped e a { e with world := v, phase := .retrieved e.world.conn.inputBuffer.content }
  | send (data : Bytes) (v : World) (hphase : e.phase = .retrieved data.data)
      (ha : a = .call .loop (.send data)) (hstate : e.world.conn.state = .kConnected)
      (hstep : e.world.step a = .next v) :
      Stepped e a { e with world := v, phase := .sending data.data }
  | drop (data : Bytes) (v : World) (hphase : e.phase = .retrieved data.data)
      (ha : a = .call .loop (.send data)) (hstate : e.world.conn.state ≠ .kConnected)
      (hstep : e.world.step a = .next v) :
      Stepped e a { world := v, phase := .idle, dropped := e.dropped ++ data.data }
  | sent (str : List UInt8) (io : Io) (v : World) (hphase : e.phase = .sending str)
      (ha : a = .resume .loop io) (hstep : e.world.step a = .next v) :
      Stepped e a { e with world := v, phase := .idle }

theorem loopStep_cases {e f : Echo} {a : Action} (h : e.loopStep a = .next f) :
    Stepped e a f := by
  unfold loopStep at h
  split at h
  · rename_i b hphase
    obtain ⟨v, hstep, rfl⟩ := go_eq_next.mp h
    exact .round b v hphase rfl hstep
  · rename_i len hphase
    obtain ⟨rfl, h⟩ := Outcome.ite_eq_next.mp h
    obtain ⟨v, hstep, rfl⟩ := go_eq_next.mp h
    exact .retrieve v hphase rfl hstep
  · rename_i str data hphase
    obtain ⟨rfl, h⟩ := Outcome.ite_eq_next.mp h
    split at h
    · rename_i hstate
      obtain ⟨v, hstep, rfl⟩ := go_eq_next.mp h
      exact .send data v hphase rfl hstate hstep
    · rename_i hstate
      obtain ⟨v, hstep, rfl⟩ := go_eq_next.mp h
      exact .drop data v hphase rfl hstate hstep
  · rename_i str io hphase
    obtain ⟨v, hstep, rfl⟩ := go_eq_next.mp h
    exact .sent str io v hphase rfl hstep
  · cases h

theorem step_cases {e f : Echo} {a : Action} (h : e.step a = .next f) : Stepped e a f := by
  rw [step] at h
  split at h
  · rename_i ha
    obtain ⟨v, hstep, rfl⟩ := go_eq_next.mp h
    exact .elsewhere v ha hstep
  · exact loopStep_cases h

/-- The connection is a component of its echo server. -/
theorem component : Component step World.step Echo.world (fun _ a => some a) := by
  refine ⟨fun e a f b h hb => ?_, fun e a f h hb => by cases hb⟩
  cases hb
  cases step_cases h with
  | elsewhere v ha hstep => exact hstep
  | round b v hphase ha hstep => exact hstep
  | retrieve v hphase ha hstep => exact hstep
  | send data v hphase ha hstate hstep => exact hstep
  | drop data v hphase ha hstate hstep => exact hstep
  | sent str io v hphase ha hstep => exact hstep

/-! ## What onMessage keeps -/

/-- Where the loop thread is in the calls of the connection. -/
def InCall (e : Echo) : Prop :=
  match e.phase with
  | .sending str =>
      (∃ m, e.world.calls .loop = .handing (.sendInLoop m) ∧ m.data.data = str) ∧
        e.world.conn.state ≠ .kDisconnected ∧ e.dropped = []
  | .idle => e.world.calls .loop = .idle
  | .messaged => e.world.calls .loop = .idle
  | .retrieved _ => e.world.calls .loop = .idle

/-- The invariant of an echo server: between two messages the input buffer is
empty, and nothing is sent after something was dropped. -/
structure Inv (e : Echo) : Prop where
  input : e.world.conn.inputBuffer.WF
  output : e.world.conn.outputBuffer.WF
  sends : e.world.LoopSends
  empty : e.phase ≠ .messaged → e.world.conn.inputBuffer.content = []
  inCall : e.InCall
  dropped : e.dropped ≠ [] → e.world.conn.state ≠ .kConnected

theorem inv_start (settings : Settings) : (start settings).Inv :=
  { input := Connection.wf_freshBuffer
    output := Connection.wf_freshBuffer
    sends := World.loopSends_start settings
    empty := fun _ => Connection.content_freshBuffer
    inCall := rfl
    dropped := fun h => absurd rfl h }

/-- What the world gives out, as the echo server's. -/
abbrev ofWorld {β : Type} (out : World → Action → List β) : Echo → Action → List β :=
  through Echo.world (fun _ a => some a) out

/-- A step of another thread. -/
theorem Inv.elsewhere {e : Echo} {v : World} {a : Action} (he : e.Inv)
    (ha : a.elsewhere = true) (h : e.world.step a = .next v) :
    ({ e with world := v } : Echo).Inv := by
  obtain ⟨hinput, hstate⟩ := World.conn_of_elsewhere ha h
  have hcalls := World.calls_loop_of_elsewhere ha h
  refine ⟨World.wf_input_of_step he.input h, World.wf_output_of_step he.output h,
    he.sends.step (World.not_workerSend_of_elsewhere ha) h, fun hphase => ?_, ?_, fun hne => ?_⟩
  · dsimp only
    rw [hinput]
    exact he.empty hphase
  · have hin := he.inCall
    unfold InCall at hin ⊢
    dsimp only
    rw [hcalls]
    cases hphase : e.phase with
    | sending str =>
      rw [hphase] at hin
      refine ⟨hin.1, ?_, hin.2.2⟩
      rcases hstate with hsame | hdisconnecting
      · rw [hsame]
        exact hin.2.1
      · rw [hdisconnecting]
        simp
    | _ =>
      rw [hphase] at hin
      exact hin
  · intro hconnected
    exact he.dropped hne (World.connected_of_step h hconnected)

theorem inCall_of_calls {e : Echo} (h : e.world.calls .loop = .idle)
    (hphase : ∀ str, e.phase ≠ .sending str) : e.InCall := by
  rw [InCall]
  split
  · rename_i str heq
    exact absurd heq (hphase str)
  · exact h
  · exact h
  · exact h

theorem Inv.calls {e : Echo} (he : e.Inv) (hphase : ∀ str, e.phase ≠ .sending str) :
    e.world.calls .loop = .idle := by
  have hin := he.inCall
  rw [InCall] at hin
  split at hin
  · rename_i str heq
    exact absurd heq (hphase str)
  · exact hin
  · exact hin
  · exact hin

/-- A step of the loop thread outside `onMessage`. -/
theorem Inv.round {e : Echo} {v : World} {b : RoundAction} (he : e.Inv)
    (hphase : e.phase = .idle) (h : e.world.step (.loop b) = .next v) :
    ({ e with
      world := v
      phase := if e.world.received (.loop b) = [] then .idle else .messaged } : Echo).Inv := by
  have hcalls : v.calls .loop = .idle := by
    rw [World.calls_of_not_moving h (by simp) (by simp)]
    exact he.calls (by simp [hphase])
  refine ⟨World.wf_input_of_step he.input h, World.wf_output_of_step he.output h,
    he.sends.step (by simp) h, fun hnot => ?_, inCall_of_calls hcalls ?_, fun hne hconnected => ?_⟩
  · have hflow := World.stage_input.conserves _ _ _ he.input trivial h
    have hnone : e.world.received (.loop b) = [] := by
      by_contra hsome
      exact hnot (if_neg hsome)
    have hconsumed : e.world.consumed (.loop b) = [] := rfl
    rw [he.empty (by simp [hphase]), hnone, hconsumed, List.nil_append, List.nil_append] at hflow
    exact hflow.symm
  · dsimp only
    intro str
    split <;> simp
  · exact he.dropped hne (World.connected_of_step h hconnected)

/-- `buffer.retrieveAllAsString()` leaves nothing behind. -/
theorem Inv.retrieve {e : Echo} {v : World} (he : e.Inv) (hphase : e.phase = .messaged)
    (h : e.world.step (.user (.retrieve e.world.conn.inputBuffer.readableBytes)) = .next v) :
    ({ e with world := v, phase := .retrieved e.world.conn.inputBuffer.content } : Echo).Inv := by
  have hcalls : v.calls .loop = .idle := by
    rw [World.calls_of_not_moving h (by simp) (by simp)]
    exact he.calls (by simp [hphase])
  have hinput := World.wf_input_of_step he.input h
  refine ⟨hinput, World.wf_output_of_step he.output h, he.sends.step (by simp) h, fun _ => ?_,
    inCall_of_calls hcalls (by simp), fun hne hconnected => ?_⟩
  · cases World.step_cases h with
    | retrieve len inputBuffer hretrieve =>
      dsimp only
      rw [(Connection.wf_of_retrieve he.input (Nat.le_refl _) hretrieve).2]
      rw [← Buffer.length_content he.input, List.drop_length]
  · exact he.dropped hne (World.connected_of_step h hconnected)

/-- `conn->send(str)` on a connected connection. -/
theorem Inv.send {e : Echo} {v : World} {data : Bytes} (he : e.Inv)
    (hphase : e.phase = .retrieved data.data) (hstate : e.world.conn.state = .kConnected)
    (h : e.world.step (.call .loop (.send data)) = .next v) :
    ({ e with world := v, phase := .sending data.data } : Echo).Inv := by
  have hnone : e.dropped = [] := by
    by_contra hne
    exact he.dropped hne hstate
  have hsends := he.sends.step (by simp) h
  cases World.step_cases h with
  | sendRefused t data hrefused => exact absurd hstate hrefused
  | send t data huser hconnected =>
    refine ⟨he.input, he.output, hsends, fun _ => he.empty (by simp [hphase]),
      ⟨⟨⟨.loop, e.world.issued .loop, data⟩, ?_, rfl⟩, ?_, hnone⟩, fun hne => absurd hnone hne⟩
    · exact World.calls_goto_self e.world .loop _
    · intro hclosed
      rw [show e.world.conn.state = .kDisconnected from hclosed] at hstate
      cases hstate

/-- `conn->send(str)` on a connection that is no longer connected. -/
theorem Inv.drop {e : Echo} {v : World} {data : Bytes} (he : e.Inv)
    (hphase : e.phase = .retrieved data.data) (hstate : e.world.conn.state ≠ .kConnected)
    (h : e.world.step (.call .loop (.send data)) = .next v) :
    ({ world := v, phase := .idle, dropped := e.dropped ++ data.data } : Echo).Inv := by
  cases World.step_cases h with
  | sendRefused t data hrefused =>
    exact ⟨he.input, he.output, he.sends, fun _ => he.empty (by simp [hphase]),
      inCall_of_calls (he.calls (by simp [hphase])) (by simp), fun _ => hstate⟩
  | send t data huser hconnected => exact absurd hconnected hstate

/-- `sendInLoop(str)`, which `send` runs at once. -/
theorem Inv.sent {e : Echo} {v : World} {str : List UInt8} {io : Io} (he : e.Inv)
    (hphase : e.phase = .sending str) (h : e.world.step (.resume .loop io) = .next v) :
    ({ e with world := v, phase := .idle } : Echo).Inv ∧
      e.world.entrusted (.resume .loop io) = str := by
  have hin := he.inCall
  rw [InCall, hphase] at hin
  obtain ⟨⟨m, hcall, hm⟩, hopen, hdropped⟩ := hin
  have hjob : e.world.jobOf (.resume .loop io) = some (.task (.sendInLoop m), io) := by
    rw [World.jobOf, hcall]
  constructor
  · have hflow := World.stage_input.conserves _ _ _ he.input trivial h
    have hconsumed : e.world.consumed (.resume .loop io) = [] := rfl
    have hreceived : e.world.received (.resume .loop io) = [] := by
      rw [World.received_of_jobOf hjob, Connection.received]
    rw [he.empty (by simp [hphase]), hreceived, hconsumed, List.nil_append,
      List.nil_append] at hflow
    refine ⟨World.wf_input_of_step he.input h, World.wf_output_of_step he.output h,
      he.sends.step (by simp) h, fun _ => hflow.symm, inCall_of_calls ?_ (by simp),
      fun hne => absurd hdropped hne⟩
    rw [World.step, World.resumeStep, hcall] at h
    obtain ⟨r, hrun, rfl⟩ := World.runJob_eq_next.mp h
    change (e.world.goto .loop .idle).calls .loop = .idle
    exact World.calls_goto_self _ _ _
  · rw [World.entrusted, World.accepted, hjob]
    dsimp only
    rw [Connection.Job.accepted, if_neg hopen, Task.messages, bytesOf_singleton, hm]

theorem Inv.step {e f : Echo} {a : Action} (he : e.Inv) (h : e.step a = .next f) : f.Inv := by
  cases step_cases h with
  | elsewhere v ha hstep => exact he.elsewhere ha hstep
  | round b v hphase ha hstep =>
    subst ha
    exact he.round hphase hstep
  | retrieve v hphase ha hstep =>
    subst ha
    exact he.retrieve hphase hstep
  | send data v hphase ha hstate hstep =>
    subst ha
    exact he.send hphase hstate hstep
  | drop data v hphase ha hstate hstep =>
    subst ha
    exact he.drop hphase hstate hstep
  | sent str io v hphase ha hstep =>
    subst ha
    exact (he.sent hphase hstep).1

/-! ## The server as a stage -/

/-- **`onMessage` is a stage**: what it retrieves it sends, in order, until a
string is dropped, and from then on it drops. -/
theorem stage_onMessage :
    Stage step Inv (fun _ _ => True) (ofWorld World.consumed) (ofWorld World.entrusted)
      (fun e => e.dropped ++ e.phase.held) := by
  refine ⟨fun e a f he _ h => he.step h, fun e a f he _ h => ?_⟩
  change e.dropped ++ e.phase.held ++ e.world.consumed a =
    e.world.entrusted a ++ (f.dropped ++ f.phase.held)
  cases step_cases h with
  | elsewhere v ha hstep =>
    rw [World.consumed_of_elsewhere ha, World.entrusted_of_none (World.jobOf_of_elsewhere ha),
      List.append_nil, List.nil_append]
  | round b v hphase ha hstep =>
    subst ha
    have hentrusted : e.world.entrusted (.loop b) = [] := by
      rw [World.entrusted, he.sends.accepted_of_round b]
      rfl
    have hconsumed : e.world.consumed (.loop b) = [] := rfl
    rw [hentrusted, hconsumed, hphase, apply_ite EchoPhase.held]
    simp [EchoPhase.held]
  | retrieve v hphase ha hstep =>
    subst ha
    rw [World.entrusted_of_none rfl, World.consumed_retrieveAll, hphase,
      EchoPhase.held_retrieved, List.nil_append]
    exact congrArg (· ++ _) (List.append_nil _)
  | send data v hphase ha hstate hstep =>
    subst ha
    have hconsumed : e.world.consumed (.call .loop (.send data)) = [] := rfl
    rw [World.entrusted_of_none rfl, hconsumed, hphase]
    simp [EchoPhase.held]
  | drop data v hphase ha hstate hstep =>
    subst ha
    have hconsumed : e.world.consumed (.call .loop (.send data)) = [] := rfl
    rw [World.entrusted_of_none rfl, hconsumed, hphase]
    simp [EchoPhase.held]
  | sent str io v hphase ha hstep =>
    subst ha
    have hin := he.inCall
    rw [InCall, hphase] at hin
    have hconsumed : e.world.consumed (.resume .loop io) = [] := rfl
    rw [(he.sent hphase hstep).2, hconsumed, hphase, hin.2.2]
    simp [EchoPhase.held]

/-- Everything an echo server has on its hands, what is next to go first. -/
def inside (e : Echo) : List UInt8 :=
  e.world.conn.outputBuffer.content ++
    (e.dropped ++ e.phase.held ++ e.world.conn.inputBuffer.content)

theorem inside_start (settings : Settings) : (start settings).inside = [] := by
  have hinput := World.content_input_start settings
  have houtput := World.content_output_start settings
  rw [inside]
  simp only [start, hinput, houtput]
  rfl

/-- From the socket to `onMessage` and to its `send`. -/
theorem stage_entrusted :
    Stage step Inv (fun _ _ => True) (ofWorld World.received) (ofWorld World.entrusted)
      (fun e => e.dropped ++ e.phase.held ++ e.world.conn.inputBuffer.content) :=
  ((World.stage_input.lift component).comp stage_onMessage).strengthen
    (fun _ _ _ he _ h => he.step h) (fun _ he => ⟨he.input, he⟩)
    fun _ _ _ => ⟨fun _ _ => trivial, trivial⟩

/-- **An echo server is a stage** from its socket to its socket. -/
theorem stage_echo :
    Stage step Inv (fun e a => ¬ e.world.WriteFaults a) (ofWorld World.received)
      (ofWorld World.delivered) inside := by
  refine (stage_entrusted.comp (World.stage_output.lift component)).strengthen
    (fun _ _ _ he _ h => he.step h) (fun _ he => ⟨he, he.output⟩) fun e a hgood => ⟨trivial, ?_⟩
  intro b hb hgives
  cases hb
  exact hgood (.of_givesUp hgives)

/-- **An echo server sends what it reads.**  In every run of an echo server's
connection, whatever other threads do with it besides sending and whatever the
kernel answers: what was read from the socket is what `sendInLoop` was run for,
what was dropped, what `onMessage` holds and what is in the input buffer, in
this order; nothing stays in the input buffer once `onMessage` has returned;
and strings are dropped only after the connection was shut down or closed. -/
theorem echo_in_order (settings : Settings) (actions : List Action) {e : Echo}
    (h : run step (start settings) actions = some e) :
    emitted step (ofWorld World.received) (start settings) actions =
        bytesOf e.world.ran ++
          (e.dropped ++ e.phase.held ++ e.world.conn.inputBuffer.content) ∧
      (e.phase ≠ .messaged → e.world.conn.inputBuffer.content = []) ∧
      (e.dropped ≠ [] → e.world.conn.state ≠ .kConnected) := by
  obtain ⟨he, hall⟩ := stage_entrusted.run (inv_start settings)
    (along_of_always (fun _ _ => trivial) _ _) h
  refine ⟨?_, he.empty, he.dropped⟩
  rw [World.bytesOf_ran_of_run component rfl h]
  refine Eq.trans ?_ hall
  have hempty : (start settings).world.conn.inputBuffer.content = [] :=
    World.content_input_start settings
  rw [hempty]
  rfl

/-- Two bytes arrive in one read and are sent back with one write. -/
def echoedOnce : List Action :=
  [.loop .swap, .loop .endRound, .loop (.poll epollIn),
    .loop (.handleEvents ⟨.fail 0, .data [65, 66]⟩), .user (.retrieve 2),
    .call .loop (.send ⟨[65, 66], SizeT.two_le_maxSize⟩), .resume .loop ⟨.accepted 2, .fail 0⟩]

theorem echo_in_order_echoedOnce :
    ∃ e, run step (start ⟨false, true, false, 0⟩) echoedOnce = some e ∧
      emitted step (ofWorld World.received) (start ⟨false, true, false, 0⟩) echoedOnce =
        bytesOf e.world.ran ++
          (e.dropped ++ e.phase.held ++ e.world.conn.inputBuffer.content) := by
  obtain ⟨e, he⟩ : ∃ e, run step (start ⟨false, true, false, 0⟩) echoedOnce = some e :=
    Option.isSome_iff_exists.mp (by decide +kernel)
  exact ⟨e, he, (echo_in_order _ _ he).1⟩

/-! ## The round trip -/

/-- An echo server as one end of a link. -/
def port : Port Abort Echo Action UInt8 := World.port.lift component

/-- A client and an echo server, just connected with each other. -/
def linked (settings settings' : Settings) : Link World Echo UInt8 :=
  { left := World.start settings, right := start settings', toLeft := [], toRight := [] }

/-- One step of the client or of the server. -/
abbrev linkStep : Link World Echo UInt8 → EndAction Action Action →
    Outcome Abort (Link World Echo UInt8) := Link.step World.port port

/-- Neither side has a fatal write error. -/
def Faultless : Link World Echo UInt8 → EndAction Action Action → Prop :=
  Link.Good (fun w a => ¬ w.WriteFaults a) fun e a => ¬ e.world.WriteFaults a

instance (l : Link World Echo UInt8) (a : EndAction Action Action) : Decidable (Faultless l a) :=
  inferInstanceAs (Decidable (Link.Good _ _ l a))

/-- Client, link, server and link again are a stage from the client's `send` to
the client's message callback. -/
theorem stage_round_trip :
    Stage linkStep
      (fun l => ((l.left.StreamInv ∧ l.right.Inv) ∧ True) ∧ l.left.conn.inputBuffer.WF)
      Faultless (Link.atLeft World.entrusted) (Link.atLeft World.consumed)
      (fun l => l.left.conn.inputBuffer.content ++
        (l.toLeft ++ (l.right.inside ++ (l.toRight ++ l.left.conn.outputBuffer.content)))) := by
  have hthere := Link.stage_leftToRight (P := World.port) (Q := port) World.stage_sender stage_echo
  have hback := (hthere.comp Link.stage_toLeft).comp
    (World.stage_input.lift (Link.component_left (P := World.port) (Q := port)))
  exact hback.restrict fun _ _ ha => ⟨⟨ha, trivial⟩, fun _ _ => trivial⟩

/-- **The echo.**  In every run of a client and an echo server over a link, with
any use of the client, any cutting of the stream on the way and no fatal write
error on either side: the bytes of all messages that have run at the client are
those its user has got back, followed by those in its input buffer, on the way
back, at the server, on the way there, and in its output buffer. -/
theorem echo_round_trip (settings settings' : Settings) (actions : List (EndAction Action Action))
    {l : Link World Echo UInt8}
    (hgood : Along linkStep Faultless (linked settings settings') actions)
    (h : run linkStep (linked settings settings') actions = some l) :
    bytesOf l.left.ran =
      emitted linkStep (Link.atLeft World.consumed) (linked settings settings') actions ++
        (l.left.conn.inputBuffer.content ++
          (l.toLeft ++ (l.right.inside ++ (l.toRight ++ l.left.conn.outputBuffer.content)))) := by
  have hall := stage_round_trip.run ⟨⟨⟨World.streamInv_start settings, inv_start settings'⟩,
    trivial⟩, Connection.wf_freshBuffer⟩ hgood h
  rw [World.bytesOf_ran_of_run (Link.component_left (P := World.port) (Q := port)) rfl h]
  refine Eq.trans ?_ hall.2
  simp only [linked, inside_start, World.content_input_start, World.content_output_start,
    List.nil_append]

/-- The client sends two bytes, the server reads both and sends them back, and
the client reads the first of them. -/
def thereAndBack : List (EndAction Action Action) :=
  [.left (.call .loop (.send ⟨[65, 66], SizeT.two_le_maxSize⟩)),
    .left (.resume .loop ⟨.accepted 2, .fail 0⟩), .left (.loop .swap), .left (.loop .endRound),
    .right (.loop .swap), .right (.loop .endRound), .right (.loop (.poll epollIn)),
    .right (.loop (.handleEvents ⟨.fail 0, .data [65, 66]⟩)), .right (.user (.retrieve 2)),
    .right (.call .loop (.send ⟨[65, 66], SizeT.two_le_maxSize⟩)),
    .right (.resume .loop ⟨.accepted 2, .fail 0⟩),
    .left (.loop (.poll epollIn)), .left (.loop (.handleEvents ⟨.fail 0, .data [65]⟩)),
    .left (.user (.retrieve 1))]

/-- The first byte is back and the second on its way. -/
theorem echo_round_trip_thereAndBack :
    ∃ l : Link World Echo UInt8,
      run linkStep (linked ⟨false, true, false, 0⟩ ⟨false, true, false, 0⟩) thereAndBack =
          some l ∧
        bytesOf l.left.ran =
          emitted linkStep (Link.atLeft World.consumed)
              (linked ⟨false, true, false, 0⟩ ⟨false, true, false, 0⟩) thereAndBack ++
            (l.left.conn.inputBuffer.content ++ (l.toLeft ++ (l.right.inside ++
              (l.toRight ++ l.left.conn.outputBuffer.content)))) := by
  obtain ⟨l, hl⟩ : ∃ l, run linkStep (linked ⟨false, true, false, 0⟩ ⟨false, true, false, 0⟩)
      thereAndBack = some l := Option.isSome_iff_exists.mp (by decide +kernel)
  exact ⟨l, hl, echo_round_trip _ _ _ (by decide +kernel) hl⟩

end Echo

end CppWeb.Tcp
