/-
  Poll/Poller.lean --- waiting for events, and the array they are returned in.

  `Epoller::poll` hands `epoll_wait` an array of 128 entries and doubles it
  whenever a wait fills it.  When more channels are ready than there is room
  for, the kernel chooses which of them it reports, and nothing is assumed of
  its choice.  Still no channel is left out for ever: a wait that leaves one out
  has filled the array, so that there are few such waits.

  The events of a wait are stored in the channels, `m_revents`, and the channels
  in `m_activeChannels`, which the loop goes through while handlers change the
  masks and the registration of any channel.  What the handlers get to see is
  exactly what the kernel has reported.
-/
import CppWeb.Poll.Registration

set_option autoImplicit false

namespace CppWeb.Poll

open CppWeb.Foundation

/-! ## The array of events -/

/-- `struct epoll_event`: the events, and `data.ptr`. -/
structure EpollEvent (ι : Type) where
  events : Mask
  ptr : Option ι
  deriving DecidableEq, Repr

/-- What `::epoll_wait` returns: -1, interrupted by a signal or because
`maxevents` is not positive, or the number of entries it has written.  Of the
descriptors that are `ready` it reports some. -/
inductive WaitResult (ι : Type) where
  | interrupted
  | invalid
  | events (ready reported : List (ι × Mask))
  deriving DecidableEq, Repr

/-- The channels of a loop with the kernel's table, `m_revents` of each, the
array `m_events`, `m_activeChannels` with the place of the loop in it, and two
histories: what the kernel has reported, and which handlers were called for
which events. -/
structure Poller (ι : Type) where
  epoller : Epoller ι
  revents : ι → Mask
  events : List (EpollEvent ι)
  activeChannels : List ι
  place : Nat
  reported : List (ι × Mask)
  handled : List (ι × Mask)

/-- What the loop thread does: wait, call the next handler, and in a handler or
a task operate on any channel. -/
inductive PollerAction (ι : Type) where
  | poll (result : WaitResult ι)
  | handleEvents
  | operate (request : Request ι)

/-- Why the process stops. -/
inductive PollerFault where
  | abort (reason : Abort)
  /-- a null `data.ptr` is followed -/
  | nullPointer
  deriving DecidableEq, Repr

namespace Poller

variable {ι : Type}

/-- `Epoller::Epoller`, with channels that nothing was asked of. -/
def new : Poller ι :=
  { epoller := Epoller.new
    revents := fun _ => 0#32
    events := List.replicate 128 ⟨0#32, none⟩
    activeChannels := []
    place := 0
    reported := []
    handled := [] }

/-- `static_cast<int>(m_events.size())` -/
def maxEvents (s : Poller ι) : Int := (BitVec.ofNat 32 s.events.length).toInt

/-- What `::epoll_wait` may return.  It reports registered descriptors with
events, each once, and leaves one out only when it has reported `maxevents`. -/
def MayReturn (fd : ι → Int) (s : Poller ι) : WaitResult ι → Prop
  | .interrupted => True
  | .invalid => s.maxEvents ≤ 0
  | .events ready reported =>
      0 < s.maxEvents ∧ ready ≠ [] ∧ (ready.map Prod.fst).Nodup ∧
        (∀ r ∈ ready, r.2 ≠ 0#32 ∧ s.epoller.table (fd r.1) ≠ none ∧
          Reportable (s.epoller.table (fd r.1)) r.2) ∧
        (reported.map Prod.fst).Nodup ∧ reported ⊆ ready ∧
        (reported.length : Int) = min s.maxEvents ready.length

instance [DecidableEq ι] (fd : ι → Int) (s : Poller ι) :
    ∀ result, Decidable (s.MayReturn fd result)
  | .interrupted => inferInstanceAs (Decidable True)
  | .invalid => inferInstanceAs (Decidable (_ ≤ _))
  | .events ready reported =>
      have _subset : Decidable (reported ⊆ ready) :=
        inferInstanceAs (Decidable (∀ r ∈ reported, r ∈ ready))
      inferInstanceAs (Decidable (_ ∧ _))

variable [DecidableEq ι]

/-- The kernel writes an entry for each descriptor it reports. -/
def write (s : Poller ι) (reported : List (ι × Mask)) : Poller ι :=
  { s with
    events := (reported.map fun r => ⟨r.2, some r.1⟩) ++ s.events.drop reported.length
    reported := s.reported ++ reported }

/-- `channel->setRevents(m_events[i].events); activeChannels.push_back(channel);` -/
def activate (s : Poller ι) (e : EpollEvent ι) : Except PollerFault (Poller ι) :=
  match e.ptr with
  | none => .error .nullPointer
  | some c =>
      .ok { s with
        revents := Function.update s.revents c e.events
        activeChannels := s.activeChannels ++ [c] }

/-- `m_events.resize(2 * m_events.size())` -/
def grow (s : Poller ι) : Poller ι :=
  { s with events := s.events ++ List.replicate s.events.length ⟨0#32, none⟩ }

/-- `Epoller::poll`, given what `::epoll_wait` returns. -/
def poll (s : Poller ι) : WaitResult ι → Except PollerFault (Poller ι)
  | .interrupted => .ok s
  | .invalid => .ok s
  | .events _ reported =>
      let maxEvents := s.maxEvents
      let nEvents := reported.length
      let s := s.write reported
      if 0 < nEvents then do
        let s ← (s.events.take nEvents).foldlM activate s
        .ok (if (nEvents : Int) = maxEvents then s.grow else s)
      else .ok s

/-- One step of the loop: `m_activeChannels.clear()` and `poll` when it is
through with `m_activeChannels`, otherwise the next `handleEvents()`. -/
def step (fd : ι → Int) (s : Poller ι) : PollerAction ι → Outcome PollerFault (Poller ι)
  | .poll result =>
      if s.place = s.activeChannels.length ∧ s.MayReturn fd result then
        .ofExcept (poll { s with activeChannels := [], place := 0 } result)
      else .disabled
  | .handleEvents =>
      match s.activeChannels[s.place]? with
      | none => .disabled
      | some c =>
          .next { s with place := s.place + 1, handled := s.handled ++ [(c, s.revents c)] }
  | .operate request =>
      match s.epoller.step fd request with
      | .disabled => .disabled
      | .abort reason => .abort (.abort reason)
      | .next epoller => .next { s with epoller := epoller }

/-! ## The size of the array -/

/-- The array has been doubled some number of times. -/
def Sized (s : Poller ι) : Prop := ∃ k, s.events.length = 128 * 2 ^ k

omit [DecidableEq ι] in
theorem sized_new : (new : Poller ι).Sized := ⟨0, rfl⟩

omit [DecidableEq ι] in
theorem maxEvents_of_lt {s : Poller ι} (h : s.events.length < 2 ^ 31) :
    s.maxEvents = s.events.length := by
  have hmod : (BitVec.ofNat 32 s.events.length).toNat = s.events.length := by
    rw [BitVec.toNat_ofNat, Nat.mod_eq_of_lt (by omega)]
  rw [maxEvents, BitVec.toInt_eq_toNat_of_lt (by omega), hmod]

omit [DecidableEq ι] in
/-- A doubled array either has a size that is an `int`, or the cast makes the
size negative or 0. -/
theorem maxEvents_eq {s : Poller ι} (hs : s.Sized) (hpos : 0 < s.maxEvents) :
    s.maxEvents = s.events.length := by
  obtain ⟨k, hk⟩ := hs
  rcases Nat.lt_trichotomy k 24 with hsmall | rfl | hlarge
  · refine maxEvents_of_lt ?_
    have hpow : 2 ^ k ≤ 2 ^ 23 := Nat.pow_le_pow_right (by decide) (by omega)
    omega
  · -- `INT_MIN`
    rw [maxEvents, hk] at hpos
    exact absurd hpos (by decide)
  · have hzero : BitVec.ofNat 32 s.events.length = 0#32 := by
      apply BitVec.eq_of_toNat_eq
      obtain ⟨j, rfl⟩ : ∃ j, k = 25 + j := ⟨k - 25, by omega⟩
      rw [BitVec.toNat_ofNat, hk, Nat.pow_add, ← Nat.mul_assoc]
      exact Nat.mul_mod_right (2 ^ 32) (2 ^ j)
    rw [maxEvents, hzero] at hpos
    exact absurd hpos (by decide)

/-! ## One wait -/

/-- `m_revents` after events have been stored in their channels. -/
def store (revents : ι → Mask) (reported : List (ι × Mask)) : ι → Mask :=
  reported.foldl (fun revents r => Function.update revents r.1 r.2) revents

theorem store_of_notMem {revents : ι → Mask} {reported : List (ι × Mask)} {c : ι}
    (h : c ∉ reported.map Prod.fst) : store revents reported c = revents c := by
  induction reported generalizing revents with
  | nil => rfl
  | cons r rest ih =>
    rw [List.map_cons, List.mem_cons, not_or] at h
    rw [store, List.foldl_cons]
    exact (ih h.2).trans (Function.update_of_ne h.1 _ _)

/-- Each channel keeps the events that were reported for it. -/
theorem map_store {revents : ι → Mask} {reported : List (ι × Mask)}
    (h : (reported.map Prod.fst).Nodup) :
    (reported.map Prod.fst).map (fun c => (c, store revents reported c)) = reported := by
  induction reported generalizing revents with
  | nil => rfl
  | cons r rest ih =>
    rw [List.map_cons, List.nodup_cons] at h
    have hhead : store revents (r :: rest) r.1 = r.2 :=
      (store_of_notMem h.1).trans (Function.update_self _ _ _)
    rw [List.map_cons, List.map_cons, hhead]
    exact congrArg _ (ih h.2)

/-- What a wait that reports some channels does. -/
structure Received (s t : Poller ι) (reported : List (ι × Mask)) : Prop where
  epoller : t.epoller = s.epoller
  revents : t.revents = store s.revents reported
  active : t.activeChannels = s.activeChannels ++ reported.map Prod.fst
  place : t.place = s.place
  handled : t.handled = s.handled
  length : t.events.length =
    if (reported.length : Int) = s.maxEvents then 2 * s.events.length else s.events.length
  reported : t.reported = s.reported ++ reported

/-- The loop over the entries that the kernel has written. -/
theorem foldlM_activate (s : Poller ι) (reported : List (ι × Mask)) :
    (reported.map fun r => (⟨r.2, some r.1⟩ : EpollEvent ι)).foldlM activate s = .ok { s with
      revents := store s.revents reported
      activeChannels := s.activeChannels ++ reported.map Prod.fst } := by
  induction reported generalizing s with
  | nil => simp [store, pure, Except.pure]
  | cons r rest ih =>
    rw [List.map_cons, List.foldlM_cons, activate]
    refine (ih _).trans ?_
    simp [store]

/-- **One wait.**  Only entries that the kernel has just written are read, so
that no null pointer is followed. -/
theorem poll_events (s : Poller ι) (ready : List (ι × Mask)) {reported : List (ι × Mask)}
    (hroom : reported.length ≤ s.events.length) (hsome : 0 < reported.length) :
    ∃ t, s.poll (.events ready reported) = .ok t ∧ Received s t reported := by
  have htake : (s.write reported).events.take reported.length =
      reported.map fun r => (⟨r.2, some r.1⟩ : EpollEvent ι) := by
    rw [write, List.take_append_of_le_length (by simp), List.take_of_length_le (by simp)]
  have hlength : (s.write reported).events.length = s.events.length := by
    simp only [write, List.length_append, List.length_map, List.length_drop]
    omega
  have hloop := foldlM_activate (s.write reported) reported
  rw [← htake] at hloop
  rw [poll]
  simp only [if_pos hsome, hloop]
  refine ⟨_, rfl, ?_⟩
  split
  · rename_i hfull
    refine ⟨rfl, rfl, rfl, rfl, rfl, ?_, rfl⟩
    rw [if_pos hfull]
    simp only [grow, List.length_append, List.length_replicate, hlength]
    omega
  · rename_i hfull
    refine ⟨rfl, rfl, rfl, rfl, rfl, ?_, rfl⟩
    rw [if_neg hfull]
    exact hlength

/-! ## Steps -/

/-- What the loop thread can do. -/
inductive Moves (fd : ι → Int) (s : Poller ι) : PollerAction ι → Poller ι → Prop where
  | failed (result : WaitResult ι) (hplace : s.place = s.activeChannels.length)
      (hnone : ∀ ready reported, result ≠ .events ready reported) :
      Moves fd s (.poll result) { s with activeChannels := [], place := 0 }
  | received (ready reported : List (ι × Mask)) (t : Poller ι)
      (hplace : s.place = s.activeChannels.length)
      (hmay : s.MayReturn fd (.events ready reported))
      (h : Received { s with activeChannels := [], place := 0 } t reported) :
      Moves fd s (.poll (.events ready reported)) t
  | handleEvents (c : ι) (h : s.activeChannels[s.place]? = some c) :
      Moves fd s .handleEvents
        { s with place := s.place + 1, handled := s.handled ++ [(c, s.revents c)] }
  | operate (request : Request ι) (epoller : Epoller ι)
      (h : s.epoller.step fd request = .next epoller) :
      Moves fd s (.operate request) { s with epoller := epoller }

omit [DecidableEq ι] in
/-- The entries a wait reports have room in the array. -/
theorem length_le_of_mayReturn {fd : ι → Int} {s : Poller ι} (hs : s.Sized)
    {ready reported : List (ι × Mask)} (h : s.MayReturn fd (.events ready reported)) :
    0 < reported.length ∧ reported.length ≤ s.events.length := by
  obtain ⟨hpos, hsome, _, _, _, _, hlength⟩ := h
  have hmax := maxEvents_eq hs hpos
  have hready := List.length_pos_iff.mpr hsome
  omega

/-- **No null pointer is followed**, and what the loop thread does otherwise. -/
theorem step_cases (fd : ι → Int) {s : Poller ι} (hs : s.Sized) (a : PollerAction ι) :
    s.step fd a = .disabled ∨ (∃ t, s.step fd a = .next t ∧ Moves fd s a t) ∨
      ∃ request reason, a = .operate request ∧ s.step fd a = .abort (.abort reason) := by
  cases a with
  | poll result =>
    rw [step]
    split
    · rename_i hguard
      obtain ⟨hplace, hmay⟩ := hguard
      refine Or.inr (Or.inl ?_)
      cases result with
      | interrupted => exact ⟨_, rfl, .failed _ hplace (by simp)⟩
      | invalid => exact ⟨_, rfl, .failed _ hplace (by simp)⟩
      | events ready reported =>
        obtain ⟨hsome, hroom⟩ := length_le_of_mayReturn hs hmay
        obtain ⟨t, ht, hreceived⟩ :=
          poll_events { s with activeChannels := [], place := 0 } ready hroom hsome
        exact ⟨t, by rw [ht]; rfl, .received ready reported t hplace hmay hreceived⟩
    · exact Or.inl rfl
  | handleEvents =>
    rw [step]
    split
    · exact Or.inl rfl
    · rename_i c hc
      exact Or.inr (Or.inl ⟨_, rfl, .handleEvents c hc⟩)
  | operate request =>
    rw [step]
    split
    · exact Or.inl rfl
    · rename_i reason _
      exact Or.inr (Or.inr ⟨request, reason, rfl, rfl⟩)
    · rename_i epoller h
      exact Or.inr (Or.inl ⟨_, rfl, .operate request epoller h⟩)

theorem moves_of_step {fd : ι → Int} {s t : Poller ι} {a : PollerAction ι} (hs : s.Sized)
    (h : s.step fd a = .next t) : Moves fd s a t := by
  rcases step_cases fd hs a with hnot | ⟨u, hu, hmoves⟩ | ⟨_, _, _, habort⟩
  · rw [hnot] at h
    cases h
  · rw [hu] at h
    cases h
    exact hmoves
  · rw [habort] at h
    cases h

/-! ## What the handlers get to see -/

/-- The channels that the loop still has to go through, with their events. -/
def toHandle (s : Poller ι) : List (ι × Mask) :=
  (s.activeChannels.drop s.place).map fun c => (c, s.revents c)

/-- What has been handled and what is still to be handled is what the kernel has
reported. -/
structure Delivering (s : Poller ι) : Prop where
  sized : s.Sized
  history : s.handled ++ s.toHandle = s.reported

omit [DecidableEq ι] in
theorem delivering_new : (new : Poller ι).Delivering := ⟨sized_new, rfl⟩

omit [DecidableEq ι] in
theorem toHandle_of_place {s : Poller ι} (h : s.place = s.activeChannels.length) :
    s.toHandle = [] := by
  rw [toHandle, h, List.drop_length, List.map_nil]

omit [DecidableEq ι] in
theorem Sized.double {s t : Poller ι} (hs : s.Sized)
    (h : t.events.length = 2 * s.events.length) : t.Sized := by
  obtain ⟨k, hk⟩ := hs
  refine ⟨k + 1, ?_⟩
  rw [h, hk, Nat.pow_succ]
  omega

omit [DecidableEq ι] in
theorem Sized.of_length {s t : Poller ι} (hs : s.Sized)
    (h : t.events.length = s.events.length) : t.Sized := by
  obtain ⟨k, hk⟩ := hs
  exact ⟨k, h.trans hk⟩

theorem Sized.moves {fd : ι → Int} {s t : Poller ι} {a : PollerAction ι} (hs : s.Sized)
    (h : Moves fd s a t) : t.Sized := by
  cases h with
  | failed result hplace hnone => exact hs
  | received ready reported t hplace hmay h =>
    have hlength := h.length
    split at hlength
    · exact hs.double hlength
    · exact hs.of_length hlength
  | handleEvents c h => exact hs
  | operate request epoller h => exact hs

theorem Delivering.step {fd : ι → Int} {s t : Poller ι} {a : PollerAction ι}
    (hs : s.Delivering) (h : s.step fd a = .next t) : t.Delivering := by
  have hmoves := moves_of_step hs.sized h
  refine ⟨hs.sized.moves hmoves, ?_⟩
  have hhistory := hs.history
  cases hmoves with
  | failed result hplace hnone =>
    rw [toHandle_of_place hplace] at hhistory
    exact hhistory
  | received ready reported t hplace hmay h =>
    -- the loop was through with the channels of the wait before
    obtain ⟨_, _, _, _, hnodup, _, _⟩ := hmay
    rw [toHandle_of_place hplace, List.append_nil] at hhistory
    have htoHandle : t.toHandle = reported := by
      rw [toHandle, h.place, h.active, h.revents]
      exact map_store hnodup
    rw [h.handled, h.reported, htoHandle]
    exact congrArg (· ++ reported) hhistory
  | handleEvents c hnext =>
    obtain ⟨hlt, hget⟩ := List.getElem?_eq_some_iff.mp hnext
    rw [← hhistory]
    simp only [toHandle]
    rw [List.drop_eq_getElem_cons hlt, hget, List.map_cons, List.append_assoc]
    rfl
  | operate request epoller h => exact hhistory

/-- **Events are delivered exactly once.**  In every run of a loop, whatever the
kernel reports and whatever the handlers do to the channels, the handlers
called and those still to be called in this round are, in order and with the
events they find in their channels, exactly what the kernel has reported; and
no null pointer is followed. -/
theorem events_delivered (fd : ι → Int) (actions : List (PollerAction ι)) :
    Throughout (step fd) (fun s => s.handled ++ s.toHandle = s.reported) new actions ∧
      Along (step fd) (fun s a => (s.step fd a).Stops (· ≠ .nullPointer)) new actions := by
  have hall := throughout_of_invariant (step fd) delivering_new
    (fun _ _ _ hs hstep => hs.step hstep) actions
  refine ⟨hall.mono fun s hs => hs.history, hall.along fun s a hs => ?_⟩
  rw [Outcome.stops_iff]
  rintro e he rfl
  rcases step_cases fd hs.sized a with h | ⟨t, h, _⟩ | ⟨_, _, _, h⟩ <;>
    rw [h] at he <;> cases he

/-! ## No channel is left out for ever -/

/-- The descriptors that are ready at a wait. -/
def readyAt : PollerAction ι → List (ι × Mask)
  | .poll (.events ready _) => ready
  | _ => []

/-- The wait leaves a ready descriptor out. -/
def leavesOut : PollerAction ι → Bool
  | .poll (.events ready reported) => reported.length < ready.length
  | _ => false

/-- The descriptor of the channel is ready at the wait. -/
def isReady (c : ι) (a : PollerAction ι) : Bool := c ∈ (readyAt a).map Prod.fst

omit [DecidableEq ι] in
/-- A wait that leaves a descriptor out has filled the array. -/
theorem full_of_leavesOut {fd : ι → Int} {s : Poller ι} (hs : s.Sized)
    {ready reported : List (ι × Mask)} (h : s.MayReturn fd (.events ready reported))
    (hleft : reported.length < ready.length) :
    (reported.length : Int) = s.maxEvents ∧ s.events.length < ready.length := by
  obtain ⟨hpos, _, _, _, _, _, hlength⟩ := h
  have hmax := maxEvents_eq hs hpos
  omega

omit [DecidableEq ι] in
/-- A wait that leaves none out reports each ready descriptor. -/
theorem mem_reported_of_ready {fd : ι → Int} {s : Poller ι}
    {ready reported : List (ι × Mask)} (h : s.MayReturn fd (.events ready reported))
    (hall : ready.length ≤ reported.length) {c : ι} (hc : c ∈ ready.map Prod.fst) :
    c ∈ reported.map Prod.fst := by
  obtain ⟨_, _, _, _, hnodup, hsubset, _⟩ := h
  have hperm := (List.subperm_of_subset (List.Nodup.of_map _ hnodup) hsubset).perm_of_length_le hall
  exact (hperm.map Prod.fst).mem_iff.mpr hc

/-- One wait: the channel is reported, or the array doubles. -/
theorem count_of_step {fd : ι → Int} {s t : Poller ι} {a : PollerAction ι} (hs : s.Sized)
    (h : s.step fd a = .next t) (c : ι) :
    (s.reported.map Prod.fst).count c + (if isReady c a then 1 else 0) ≤
      (t.reported.map Prod.fst).count c + (if leavesOut a then 1 else 0) := by
  cases moves_of_step hs h with
  | failed result hplace hnone =>
    cases result with
    | interrupted => simp [isReady, readyAt]
    | invalid => simp [isReady, readyAt]
    | events ready reported => exact absurd rfl (hnone ready reported)
  | received ready reported t hplace hmay h =>
    have hreported : t.reported = s.reported ++ reported := h.reported
    rw [hreported, List.map_append, List.count_append]
    by_cases hleft : reported.length < ready.length
    · have hout : leavesOut (.poll (.events ready reported)) = true := decide_eq_true hleft
      rw [hout, if_pos rfl]
      split <;> omega
    · by_cases hc : c ∈ ready.map Prod.fst
      · have hin := mem_reported_of_ready hmay (Nat.le_of_not_lt hleft) hc
        have hcount := List.count_pos_iff.mpr hin
        split <;> split <;> omega
      · have hnot : isReady c (.poll (.events ready reported)) = false := decide_eq_false hc
        rw [hnot, if_neg Bool.false_ne_true, Nat.add_zero, Nat.add_assoc]
        exact Nat.le_add_right _ _
  | handleEvents c h => simp [isReady, readyAt]
  | operate request epoller h => simp [isReady, readyAt]

/-- A wait that leaves a channel out doubles the array, which was smaller than
the number of ready channels. -/
theorem length_of_leavesOut {fd : ι → Int} {s t : Poller ι} {a : PollerAction ι} (hs : s.Sized)
    (h : s.step fd a = .next t) (hleft : leavesOut a = true) :
    t.events.length = 2 * s.events.length ∧ s.events.length < (readyAt a).length := by
  cases moves_of_step hs h with
  | failed result hplace hnone =>
    cases result with
    | interrupted => cases hleft
    | invalid => cases hleft
    | events ready reported => exact absurd rfl (hnone ready reported)
  | received ready reported t hplace hmay h =>
    obtain ⟨hfull, hlt⟩ := full_of_leavesOut hs hmay (of_decide_eq_true hleft)
    exact ⟨h.length.trans (if_pos hfull), hlt⟩
  | handleEvents c h => cases hleft
  | operate request epoller h => cases hleft

theorem length_le_of_moves {fd : ι → Int} {s t : Poller ι} {a : PollerAction ι}
    (h : Moves fd s a t) : s.events.length ≤ t.events.length := by
  cases h with
  | received ready reported t hplace hmay h =>
    rw [h.length]
    split
    · exact Nat.le_mul_of_pos_left _ (by decide)
    · exact Nat.le_refl _
  | _ => exact Nat.le_refl _

theorem counts_of_run {fd : ι → Int} {N : Nat} {s t : Poller ι} {actions : List (PollerAction ι)}
    (hs : s.Sized)
    (hready : Along (step fd) (fun _ a => (readyAt a).length ≤ N) s actions)
    (hrun : run (step fd) s actions = some t) :
    (actions.countP leavesOut = 0 ∨ s.events.length * 2 ^ actions.countP leavesOut < 2 * N) ∧
      ∀ c, (s.reported.map Prod.fst).count c + actions.countP (isReady c) ≤
        (t.reported.map Prod.fst).count c + actions.countP leavesOut := by
  induction actions generalizing s with
  | nil =>
    cases hrun
    exact ⟨Or.inl rfl, fun c => Nat.le_refl _⟩
  | cons a actions ih =>
    obtain ⟨u, hu, hrest⟩ := run_cons_eq_some.mp hrun
    have hmoves := moves_of_step hs hu
    obtain ⟨hleft, hcount⟩ := ih (hs.moves hmoves) (along_tail hready hu) hrest
    refine ⟨?_, fun c => ?_⟩
    · rw [List.countP_cons]
      split
      · rename_i ha
        obtain ⟨hdouble, hlt⟩ := length_of_leavesOut hs hu ha
        have hN := hready.1
        refine Or.inr ?_
        rw [Nat.pow_succ]
        rcases hleft with hnone | hsome
        · rw [hnone]
          omega
        · rw [hdouble] at hsome
          calc s.events.length * (2 ^ actions.countP leavesOut * 2)
              = 2 * s.events.length * 2 ^ actions.countP leavesOut := by
                rw [Nat.mul_comm (2 ^ _) 2, ← Nat.mul_assoc, Nat.mul_comm s.events.length 2]
            _ < 2 * N := hsome
      · have hmono := Nat.mul_le_mul_right (2 ^ actions.countP leavesOut)
          (length_le_of_moves hmoves)
        rw [Nat.add_zero]
        exact hleft.imp_right fun hsome => Nat.lt_of_le_of_lt hmono hsome
    · have hhead := count_of_step hs hu c
      have htail := hcount c
      rw [List.countP_cons, List.countP_cons]
      omega

/-- **No channel starves.**  Let at most `N` channels be ready at any wait of a
run.  Then at most the binary logarithm of `N / 64` waits leave a channel out,
whichever channels the kernel chooses to report; and the handler of a channel
has been called, or is to be called in this round, as often as the channel was
ready, but for these waits. -/
theorem no_channel_starves {fd : ι → Int} {N : Nat} {actions : List (PollerAction ι)}
    {t : Poller ι} (hready : Along (step fd) (fun _ a => (readyAt a).length ≤ N) new actions)
    (hrun : run (step fd) new actions = some t) :
    (actions.countP leavesOut = 0 ∨ 64 * 2 ^ actions.countP leavesOut < N) ∧
      ∀ c, actions.countP (isReady c) ≤
        ((t.handled ++ t.toHandle).map Prod.fst).count c + actions.countP leavesOut := by
  obtain ⟨hleft, hcount⟩ := counts_of_run sized_new hready hrun
  have hhistory := throughout_iff_run.mp (events_delivered fd actions).1 actions t
    List.prefix_rfl hrun
  refine ⟨hleft.imp_right fun hsome => ?_, fun c => ?_⟩
  · have hnew : (new : Poller ι).events.length = 128 := List.length_replicate
    rw [hnew] at hsome
    omega
  · rw [hhistory]
    have hnew : ((new : Poller ι).reported.map Prod.fst).count c = 0 := rfl
    have := hcount c
    omega

/-! ## The array stays small -/

/-- The array has been doubled `k` times, and last when half of it was filled. -/
def Bounded (N : Nat) (s : Poller ι) : Prop :=
  ∃ k, s.events.length = 128 * 2 ^ k ∧ (k = 0 ∨ 64 * 2 ^ k ≤ N)

theorem Bounded.step {fd : ι → Int} {N : Nat} {s t : Poller ι} {a : PollerAction ι}
    (hs : s.Bounded N) (hready : (readyAt a).length ≤ N) (h : s.step fd a = .next t) :
    t.Bounded N := by
  obtain ⟨k, hk, hbound⟩ := hs
  have hsized : s.Sized := ⟨k, hk⟩
  cases moves_of_step hsized h with
  | received ready reported t hplace hmay hreceived =>
    obtain ⟨hpos, _, _, _, _, _, hlength⟩ := hmay
    have hmax := maxEvents_eq hsized hpos
    have hgrown := hreceived.length
    split at hgrown
    · rename_i hfull
      -- the array was full, so that as many channels were ready
      have hfull' : (reported.length : Int) = s.maxEvents := hfull
      have hmany : s.events.length ≤ ready.length := by omega
      have hN : ready.length ≤ N := hready
      refine ⟨k + 1, ?_, Or.inr ?_⟩
      · rw [hgrown, Nat.pow_succ]
        dsimp only
        omega
      · rw [Nat.pow_succ]
        omega
    · exact ⟨k, hgrown.trans hk, hbound⟩
  | failed _ _ _ => exact ⟨k, hk, hbound⟩
  | handleEvents _ _ => exact ⟨k, hk, hbound⟩
  | operate _ _ _ => exact ⟨k, hk, hbound⟩

/-- **The array stays small.**  When at most `N` channels are ready at any wait,
the array has 128 entries or at most twice `N`, a power of two in any case; and
while `N` is below 2^30 the size is passed to the kernel unchanged, so that no
wait fails because of it. -/
theorem array_bounded {fd : ι → Int} {N : Nat} {actions : List (PollerAction ι)}
    (hready : Along (step fd) (fun _ a => (readyAt a).length ≤ N) new actions) :
    Throughout (step fd) (Bounded N) new actions ∧
      (N < 2 ^ 30 → Throughout (step fd)
        (fun s => s.maxEvents = s.events.length ∧ ¬ s.MayReturn fd .invalid) new actions) := by
  have hall : Throughout (step fd) (Bounded N) new actions :=
    throughout_of_along ⟨0, rfl, Or.inl rfl⟩
      (fun _ _ _ hs hready hstep => hs.step hready hstep) hready
  refine ⟨hall, fun hN => hall.mono fun s hs => ?_⟩
  obtain ⟨k, hk, hbound⟩ := hs
  have hpos : 0 < 2 ^ k := Nat.two_pow_pos k
  have hlt : s.events.length < 2 ^ 31 := by
    rcases hbound with rfl | hbound
    · omega
    · omega
  have hmax := maxEvents_of_lt hlt
  refine ⟨hmax, fun hinvalid => ?_⟩
  have hle : s.maxEvents ≤ 0 := hinvalid
  omega

/-- Two channels become ready at once; the handler of the first one to be
reported removes it. -/
def twoReady : List (PollerAction Bool) :=
  [.operate ⟨true, .enableRead, some (epollIn ||| epollPri)⟩,
    .operate ⟨false, .enableWrite, some epollOut⟩,
    .poll (.events [(true, epollIn), (false, epollOut)] [(false, epollOut), (true, epollIn)]),
    .handleEvents, .operate ⟨false, .disableAll, none⟩, .handleEvents,
    .poll (.events [(true, epollIn)] [(true, epollIn)])]

theorem no_channel_starves_twoReady :
    ∃ t, run (step Epoller.twoFds) new twoReady = some t ∧
      (t.handled ++ t.toHandle).map Prod.fst = [false, true, true] ∧
      (twoReady.countP leavesOut = 0 ∨ 64 * 2 ^ twoReady.countP leavesOut < 2) ∧
      ∀ c, twoReady.countP (isReady c) ≤
        ((t.handled ++ t.toHandle).map Prod.fst).count c + twoReady.countP leavesOut := by
  have hready : Along (step Epoller.twoFds) (fun _ a => (readyAt a).length ≤ 2) new twoReady := by
    decide +kernel
  obtain ⟨t, ht, hends⟩ : ∃ t, run (step Epoller.twoFds) new twoReady = some t ∧
      (t.handled ++ t.toHandle).map Prod.fst = [false, true, true] :=
    Option.map_eq_some_iff.mp (by decide +kernel)
  exact ⟨t, ht, hends, no_channel_starves hready ht⟩

theorem array_bounded_twoReady :
    Throughout (step Epoller.twoFds) (Bounded 2) new twoReady ∧
      (2 < 2 ^ 30 → Throughout (step Epoller.twoFds)
        (fun s => s.maxEvents = s.events.length ∧ ¬ s.MayReturn Epoller.twoFds .invalid)
        new twoReady) :=
  array_bounded (by decide +kernel)

end Poller

end CppWeb.Poll
