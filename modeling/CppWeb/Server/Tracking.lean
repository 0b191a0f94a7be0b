/-
  Server/Tracking.lean --- the server tracks exactly its live connections.

  `newConnetction` puts a connection into `m_connectionSet` and
  `closeConnection`, which every way to close a connection ends in, takes it
  out.  A closed connection stays closed, since on the loop thread no exchange
  of `m_state` falls behind the close; so the body of `handleClose` runs at
  most once, the connection leaves the set in the same step, and no message
  callback comes after it: `handleRead` insists on an open connection.
-/
import CppWeb.Server.Steps

set_option autoImplicit false

namespace CppWeb.Server.TCPServerSingle

open CppWeb.Foundation CppWeb.Poll CppWeb.Tcp

/-! ## What a step does to the server -/

/-- What a step does to the set and the connections. -/
inductive Changed (s t : TCPServerSingle) : Prop where
  | same (hset : t.connectionSet = s.connectionSet) (hall : t.accepted.all = s.accepted.all)
  /-- a connection is accepted -/
  | accept (hset : t.connectionSet = insert s.accepted.all.length s.connectionSet)
      (hall : t.accepted.all = s.accepted.all ++ [s.fresh])
  /-- a handler or closure runs -/
  | job (id : Nat) (shared : Shared) (io : Io) (job : Connection.Job)
      (r : Connection × List Task) (hid : s.accepted.all[id]? = some shared)
      (hrun : shared.conn.execute io job = .ok r)
      (hset : t.connectionSet =
        if Connections.closeCallbackRan shared r.1 then s.connectionSet.erase id
        else s.connectionSet)
      (hall : t.accepted.all =
        s.accepted.all.set id (Connections.ranJob s.connectionCallback shared io job r.1))
  /-- user code does something with a connection, or it is destroyed -/
  | use (id : Nat) (shared changed : Shared) (hid : s.accepted.all[id]? = some shared)
      (hused : shared.Used changed) (hset : t.connectionSet = s.connectionSet)
      (hall : t.accepted.all = s.accepted.all.set id changed)

/-- The fields that no step changes, and what a step does to the others. -/
structure Stepped (s t : TCPServerSingle) : Prop where
  connectionCallback : t.connectionCallback = s.connectionCallback
  changed : s.Changed t

theorem stepped_of_step {s t : TCPServerSingle} {a : Action} (h : s.step a = .next t) :
    s.Stepped t := by
  cases moves_of_step h with
  | accept io cb rest accepted hphase hall hqueue => exact ⟨rfl, .accept rfl hall⟩
  | handleEvents io accept id cb rest shared r hphase hid hrun =>
    exact ⟨rfl, .job id shared io (.callback cb) r hid hrun rfl rfl⟩
  | runTask io id task rest shared r hphase hbatch hid hrun =>
    exact ⟨rfl, .job id shared io (.task task) r hid hrun rfl rfl⟩
  | user a cs huses =>
    obtain ⟨_, hcs, heq⟩ := withAccepted_next.mp h
    cases heq
    obtain ⟨id, shared, changed, hid, hused, hall⟩ := Connections.userStep_next hcs
    exact ⟨rfl, .use id shared changed hid hused.1 rfl hall⟩
  | destroyConnection id shared hid =>
    exact ⟨rfl, .use id shared { shared with destroyed := true } hid ⟨Iff.rfl, rfl, rfl⟩ rfl rfl⟩
  | _ => exact ⟨rfl, .same rfl rfl⟩

/-! ## The set -/

/-- The connection is accepted and not disconnected. -/
def Live (s : TCPServerSingle) (id : Nat) : Prop := s.accepted.Live id

/-- The set of the live connections, and what the user has seen. -/
structure Tracks (s : TCPServerSingle) : Prop where
  live : ∀ id, id ∈ s.connectionSet ↔ s.Live id
  callbacks : ∀ (id : Nat) (shared : Shared), s.accepted.all[id]? = some shared →
    shared.Sees s.connectionCallback

/-- The set of the live connections, and the account of every connection. -/
structure Tracking (s : TCPServerSingle) : Prop where
  live : ∀ id, id ∈ s.connectionSet ↔ s.Live id
  tracked : ∀ (id : Nat) (shared : Shared), s.accepted.all[id]? = some shared →
    shared.Tracked s.connectionCallback

theorem Tracking.tracks {s : TCPServerSingle} (h : s.Tracking) : s.Tracks :=
  ⟨h.live, fun id shared hid => (h.tracked id shared hid).sees⟩

theorem tracking_new (connectionCallback messageCallback writeCompleteCallback : Bool) :
    (new connectionCallback messageCallback writeCompleteCallback).Tracking := by
  refine ⟨fun id => iff_of_false (Finset.notMem_empty id) ?_, fun id shared hid => ?_⟩
  · rintro ⟨shared, hid, _⟩
    simp [new, Connections.empty] at hid
  · simp [new, Connections.empty] at hid

/-- A connection that changes and is open or closed as before. -/
theorem Tracking.of_set {s t : TCPServerSingle} (h : s.Tracking) {id : Nat}
    {shared changed : Shared} (hid : s.accepted.all[id]? = some shared)
    (hcallback : t.connectionCallback = s.connectionCallback)
    (hset : t.connectionSet = s.connectionSet)
    (hall : t.accepted.all = s.accepted.all.set id changed)
    (hopen : changed.conn.IsOpen ↔ shared.conn.IsOpen)
    (htracked : changed.Tracked s.connectionCallback) : t.Tracking := by
  constructor
  · intro other
    rw [hset, h.live other, Live, Live]
    by_cases hne : id = other
    · subst hne
      rw [Connections.live_set_self hid hall, hopen, Connections.live_iff hid]
    · rw [Connections.live_set_of_ne hall hne]
  · rw [hall, hcallback]
    exact forall_set (fun other old _ hother => h.tracked other old hother) htracked

/-- A connection that is closed leaves the set. -/
theorem Tracking.of_erase {s t : TCPServerSingle} (h : s.Tracking) {id : Nat}
    {shared changed : Shared} (hid : s.accepted.all[id]? = some shared)
    (hcallback : t.connectionCallback = s.connectionCallback)
    (hset : t.connectionSet = s.connectionSet.erase id)
    (hall : t.accepted.all = s.accepted.all.set id changed)
    (hclosed : ¬ changed.conn.IsOpen) (htracked : changed.Tracked s.connectionCallback) :
    t.Tracking := by
  constructor
  · intro other
    rw [hset, Finset.mem_erase, h.live other, Live, Live]
    by_cases hne : id = other
    · subst hne
      rw [Connections.live_set_self hid hall]
      exact iff_of_false (fun hother => hother.1 rfl) hclosed
    · rw [Connections.live_set_of_ne hall hne]
      exact and_iff_right fun heq => hne heq.symm
  · rw [hall, hcallback]
    exact forall_set (fun other old _ hother => h.tracked other old hother) htracked

/-- Every step keeps the account. -/
theorem Tracking.step {s t : TCPServerSingle} {a : Action} (h : s.Tracking)
    (ht : s.step a = .next t) : t.Tracking := by
  obtain ⟨hcallback, hchanged⟩ := stepped_of_step ht
  cases hchanged with
  | same hset hall =>
    constructor
    · intro id
      rw [hset, h.live id, Live, Live, Connections.Live, Connections.Live, hall]
    · rw [hall, hcallback]
      exact h.tracked
  | accept hset hall =>
    constructor
    · intro id
      rw [hset, Finset.mem_insert, h.live id]
      exact (Connections.live_concat hall (Connection.isOpen_established s.settings) id).symm
    · rw [hall, hcallback]
      exact forall_concat h.tracked (Shared.tracked_established s.connectionCallback _ rfl)
  | job id shared io job r hid hrun hset hall =>
    obtain ⟨htracked, hclose⟩ := (h.tracked id shared hid).execute hrun
    rcases hclose with ⟨hran, hopen⟩ | ⟨hran, _, hclosed⟩
    · rw [hran, if_neg Bool.false_ne_true] at hset
      exact h.of_set hid hcallback hset hall hopen htracked
    · rw [hran, if_pos rfl] at hset
      exact h.of_erase hid hcallback hset hall hclosed htracked
  | use id shared changed hid hused hset hall =>
    exact h.of_set hid hcallback hset hall hused.isOpen ((h.tracked id shared hid).used hused)

/-- Every run keeps the account. -/
theorem tracking_throughout (connectionCallback messageCallback writeCompleteCallback : Bool)
    (as : List Action) :
    Throughout step Tracking (new connectionCallback messageCallback writeCompleteCallback) as :=
  throughout_of_invariant step
    (tracking_new connectionCallback messageCallback writeCompleteCallback)
    (fun _ _ _ hs ht => hs.step ht) as

/-- **The server tracks its live connections.**  In every run of rounds,
whatever the kernel answers and whatever user code on the loop thread does,
`m_connectionSet` is the set of the accepted connections that are not
disconnected, and the user sees of each the connection callback, then message
callbacks, then at most once the connection callback of a disconnected one. -/
theorem tracks_live_connections
    (connectionCallback messageCallback writeCompleteCallback : Bool) (as : List Action) :
    Throughout step Tracks (new connectionCallback messageCallback writeCompleteCallback) as :=
  (tracking_throughout connectionCallback messageCallback writeCompleteCallback as).mono
    fun _ h => h.tracks

/-- The life of a connection: accepted, sent a message by the peer, closed by the
peer, destroyed. -/
example :
    (run step (new true true true)
      [.start true, .poll [(.acceptor, epollIn)],
        .handleEvents ⟨.fail eAgain, .fail eAgain⟩ .accepted, .callbackReturn, .swap, .endRound,
        .poll [(.connection 0, epollIn)], .handleEvents ⟨.fail eAgain, .data [1, 2]⟩ .accepted,
        .callbackReturn, .swap, .endRound, .poll [(.connection 0, epollIn ||| epollRdHup)],
        .handleEvents ⟨.fail eAgain, .data []⟩ .accepted, .callbackReturn, .swap, .endRound,
        .destroyConnection 0]).map
      (fun s => (s.connectionSet, s.accepted.all.map Shared.log)) =
    some (∅, [[.connection .kConnected, .message, .connection .kDisconnected]]) := by
  decide +kernel

end CppWeb.Server.TCPServerSingle
