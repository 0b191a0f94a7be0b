/-
  Buffer/Refinement.lean --- a buffer is a byte queue.

  Any number of buffers are constructed, each with its own initial size, and
  then operated on in any order; `swap` exchanges two of them.  Beside every
  buffer runs the plain list of bytes it stands for.  The two agree as long as
  every buffer was constructed from a size to which the reserved space can be
  added without wrapping, and no buffer is given its own bytes to append after
  they have been moved.  For the eight largest values of `size_t` the first
  fails: the storage then ends before the write index, and the constructor's own
  assertions pass because the subtractions in them wrap back.
-/
import CppWeb.Buffer.Own
import CppWeb.Foundation.Transition
import Mathlib.Logic.Function.Basic

set_option autoImplicit false

namespace CppWeb.Buffer

open CppWeb.Foundation

/-- The public operations, with the bytes or the kernel's answer they get.  The
bytes of an `append` lie outside the storage, those of an `appendOwn` at index
`pos` of it; those of a `prepend` may lie anywhere, since it moves nothing. -/
inductive Op where
  | append (bytes : Bytes)
  | appendOwn (pos len : Nat) (moved : Bool)
  | appendInt (k : Nat) (hk : k ≤ 8) (x : BitVec (8 * k))
  | prepend (bytes : Bytes)
  | prependInt (k : Nat) (hk : k ≤ 8) (x : BitVec (8 * k))
  | retrieve (len : Nat)
  | retrieveAll
  | retrieveAsString (len : Nat)
  | retrieveAllAsString
  | peekInt (k : Nat)
  | readInt (k : Nat)
  | readFd (result : ReadResult)

/-- What an operation returns to its caller. -/
inductive Value where
  | none
  | string (bytes : List UInt8)
  | int (k : Nat) (x : BitVec (8 * k))
  | count (n : Int)
  deriving DecidableEq

/-- The precondition an operation asserts, and what the kernel promises about a
successful `::readv`: no more bytes than were asked for. -/
def Op.Pre (b : Buffer) : Op → Prop
  | .append _ => True
  | .appendOwn pos len _ => pos + len ≤ b.buffer.length
  | .appendInt .. => True
  | .prepend bytes => bytes.length ≤ SizeT.sub b.prependableBytes kCheapPrepend
  | .prependInt k _ _ => k ≤ SizeT.sub b.prependableBytes kCheapPrepend
  | .retrieve len => len ≤ b.readableBytes
  | .retrieveAll => True
  | .retrieveAsString len => len ≤ b.readableBytes
  | .retrieveAllAsString => True
  | .peekInt k => k ≤ b.readableBytes
  | .readInt k => k ≤ b.readableBytes
  | .readFd (.data bytes) => bytes.length ≤ b.readvSpace
  | .readFd (.fail _) => True

instance (b : Buffer) : ∀ op : Op, Decidable (op.Pre b)
  | .append _ => isTrue trivial
  | .appendOwn .. => Nat.decLe _ _
  | .appendInt .. => isTrue trivial
  | .prepend _ => Nat.decLe _ _
  | .prependInt .. => Nat.decLe _ _
  | .retrieve _ => Nat.decLe _ _
  | .retrieveAll => isTrue trivial
  | .retrieveAsString _ => Nat.decLe _ _
  | .retrieveAllAsString => isTrue trivial
  | .peekInt _ => Nat.decLe _ _
  | .readInt _ => Nat.decLe _ _
  | .readFd (.data _) => Nat.decLe _ _
  | .readFd (.fail _) => isTrue trivial

/-- The operation on the buffer. -/
def Op.exec (b : Buffer) : Op → Except Abort (Value × Buffer)
  | .append bytes => do let b ← b.append bytes; .ok (.none, b)
  | .appendOwn pos len moved => do let b ← b.appendOwn pos len moved; .ok (.none, b)
  | .appendInt k hk x => do let b ← b.appendInt k hk x; .ok (.none, b)
  | .prepend bytes => do let b ← b.prepend bytes; .ok (.none, b)
  | .prependInt k hk x => do let b ← b.prependInt k hk x; .ok (.none, b)
  | .retrieve len => do let b ← b.retrieve len; .ok (.none, b)
  | .retrieveAll => .ok (.none, b.retrieveAll)
  | .retrieveAsString len => do let r ← b.retrieveAsString len; .ok (.string r.1, r.2)
  | .retrieveAllAsString => do let r ← b.retrieveAllAsString; .ok (.string r.1, r.2)
  | .peekInt k => do let x ← b.peekInt k; .ok (.int k x, b)
  | .readInt k => do let r ← b.readInt k; .ok (.int k r.1, r.2)
  | .readFd result => do let r ← b.readFd result; .ok (.count r.1, r.2)

/-- The operation on a list of bytes: append at the end, prepend at the front,
drop from the front.  The bytes that a pointer into the storage of `b` is given
for are those it points to before the call. -/
def Op.onBytes (b : Buffer) (l : List UInt8) : Op → Value × List UInt8
  | .append bytes => (.none, l ++ bytes.data)
  | .appendOwn pos len _ => (.none, l ++ window b.buffer pos len)
  | .appendInt k _ x => (.none, l ++ bigEndian k x)
  | .prepend bytes => (.none, bytes.data ++ l)
  | .prependInt k _ x => (.none, bigEndian k x ++ l)
  | .retrieve len => (.none, l.drop len)
  | .retrieveAll => (.none, [])
  | .retrieveAsString len => (.string (l.take len), l.drop len)
  | .retrieveAllAsString => (.string l, [])
  | .peekInt k => (.int k (ofBigEndian k (l.take k)), l)
  | .readInt k => (.int k (ofBigEndian k (l.take k)), l.drop k)
  | .readFd (.data bytes) => (.count bytes.length, l ++ bytes)
  | .readFd (.fail _) => (.count (-1), l)

/-- An `append` finds the bytes it was called for. -/
def Op.Undisturbed (b : Buffer) : Op → Prop
  | .appendOwn pos len moved => b.Undisturbed pos len moved
  | _ => True

instance (b : Buffer) : ∀ op : Op, Decidable (op.Undisturbed b)
  | .appendOwn pos len moved => inferInstanceAs (Decidable (b.Undisturbed pos len moved))
  | .append _ => isTrue trivial
  | .appendInt .. => isTrue trivial
  | .prepend _ => isTrue trivial
  | .prependInt .. => isTrue trivial
  | .retrieve _ => isTrue trivial
  | .retrieveAll => isTrue trivial
  | .retrieveAsString _ => isTrue trivial
  | .retrieveAllAsString => isTrue trivial
  | .peekInt _ => isTrue trivial
  | .readInt _ => isTrue trivial
  | .readFd _ => isTrue trivial

/-- **One operation.**  Within its precondition an operation on a well-formed
buffer returns what the list operation returns and leaves the content it
leaves, unless the storage would have to grow past `max_size()` or the bytes to
append were disturbed. -/
theorem exec_spec {b : Buffer} (h : b.WF) {op : Op} (hpre : op.Pre b)
    (hkept : op.Undisturbed b) :
    Ensures (op.exec b)
      (fun r => r.2.WF ∧ r.1 = (op.onBytes b b.content).1 ∧
        r.2.content = (op.onBytes b b.content).2) Refused := by
  cases op with
  | append bytes =>
    refine Ensures.bind (append_spec h bytes) ?_
    rintro b' ⟨hwf, hcontent⟩
    exact ⟨hwf, rfl, hcontent⟩
  | appendOwn pos len moved =>
    have hspec := appendOwn_spec moved h hpre
    rw [Op.exec]
    generalize b.appendOwn pos len moved = r at hspec
    cases hspec with
    | stored b' bytes hwf hlen hcontent hbytes =>
      rw [hbytes.mpr hkept] at hcontent
      exact ⟨hwf, rfl, hcontent⟩
    | refused _ => rfl
    | dangling hlost => exact absurd hkept hlost
  | appendInt k hk x =>
    refine Ensures.bind (append_spec h (intBytes k hk x)) ?_
    rintro b' ⟨hwf, hcontent⟩
    exact ⟨hwf, rfl, hcontent⟩
  | prepend bytes =>
    obtain ⟨b', hb', hwf, hcontent⟩ := prepend_spec h hpre
    rw [Op.exec, hb', ok_bind]
    exact ⟨hwf, rfl, hcontent⟩
  | prependInt k hk x =>
    have hlen : (intBytes k hk x).length ≤ SizeT.sub b.prependableBytes kCheapPrepend := by
      simpa [intBytes, Op.Pre] using hpre
    obtain ⟨b', hb', hwf, hcontent⟩ := prepend_spec h hlen
    rw [Op.exec, prependInt, hb', ok_bind]
    exact ⟨hwf, rfl, hcontent⟩
  | retrieve len =>
    obtain ⟨b', hb', hwf, hcontent⟩ := retrieve_spec h hpre
    rw [Op.exec, hb', ok_bind]
    exact ⟨hwf, rfl, hcontent⟩
  | retrieveAll => exact ⟨wf_retrieveAll h, rfl, content_retrieveAll b⟩
  | retrieveAsString len =>
    obtain ⟨b', hb', hwf, hcontent⟩ := retrieveAsString_spec h hpre
    rw [Op.exec, hb', ok_bind]
    exact ⟨hwf, rfl, hcontent⟩
  | retrieveAllAsString =>
    obtain ⟨b', hb', hwf, hcontent⟩ := retrieveAsString_spec h (Nat.le_refl b.readableBytes)
    have hall : b.content.length ≤ b.readableBytes := Nat.le_of_eq (length_content h)
    rw [List.take_of_length_le hall] at hb'
    rw [List.drop_eq_nil_of_le hall] at hcontent
    rw [Op.exec, retrieveAllAsString, hb', ok_bind]
    exact ⟨hwf, rfl, hcontent⟩
  | peekInt k =>
    rw [Op.exec, peekInt_spec h hpre, ok_bind]
    exact ⟨h, rfl, rfl⟩
  | readInt k =>
    obtain ⟨b', hb', hwf, hcontent⟩ := readInt_spec h hpre
    rw [Op.exec, hb', ok_bind]
    exact ⟨hwf, rfl, hcontent⟩
  | readFd result =>
    cases result with
    | fail errno => exact ⟨h, rfl, rfl⟩
    | data bytes =>
      have htake : bytes.take b.readvSpace = bytes := List.take_of_length_le hpre
      have hread := readFd_spec h bytes
      rw [htake] at hread
      refine Ensures.bind hread ?_
      rintro r ⟨hcount, hwf, hcontent⟩
      exact ⟨hwf, congrArg Value.count hcount, hcontent⟩

/-- Whatever is appended, the indices stay in order. -/
theorem wf_of_exec {b : Buffer} (h : b.WF) {op : Op} (hpre : op.Pre b) {r : Value × Buffer}
    (hr : op.exec b = .ok r) : r.2.WF := by
  cases op with
  | appendOwn pos len moved =>
    have hspec := appendOwn_spec moved h hpre
    rw [Op.exec] at hr
    generalize b.appendOwn pos len moved = x at hspec hr
    cases hspec with
    | stored b' bytes hwf hlen hcontent hbytes =>
      cases hr
      exact hwf
    | refused _ => cases hr
    | dangling _ => cases hr
  | _ => exact ((exec_spec h hpre trivial).of_ok hr).1

/-! ## A pool of buffers and the byte lists they stand for -/

/-- The buffers of a program, the list of bytes each stands for, and what the
last operation returned on either side. -/
structure Lockstep where
  pool : Nat → Buffer
  bytes : Nat → List UInt8
  returned : Value
  expected : Value

/-- An operation on one buffer, or an exchange of two. -/
inductive PoolOp where
  | on (i : Nat) (op : Op)
  | swap (i j : Nat)

/-- One operation on both sides; it is not enabled outside its precondition. -/
def Lockstep.step (s : Lockstep) : PoolOp → Outcome Abort Lockstep
  | .on i op =>
      if op.Pre (s.pool i) then
        Outcome.ofExcept do
          let r ← op.exec (s.pool i)
          .ok { pool := Function.update s.pool i r.2
                bytes := Function.update s.bytes i (op.onBytes (s.pool i) (s.bytes i)).2
                returned := r.1
                expected := (op.onBytes (s.pool i) (s.bytes i)).1 }
      else .disabled
  | .swap i j =>
      let swapped := (s.pool i).swap (s.pool j)
      .next { s with
        pool := Function.update (Function.update s.pool i swapped.1) j swapped.2
        bytes := Function.update (Function.update s.bytes i (s.bytes j)) j (s.bytes i) }

/-- An operation that stops the program stops the pool. -/
theorem Lockstep.step_on_of_error {s : Lockstep} {i : Nat} {op : Op} {e : Abort}
    (hpre : op.Pre (s.pool i)) (h : op.exec (s.pool i) = .error e) :
    s.step (.on i op) = .abort e := by
  rw [Lockstep.step, if_pos hpre, h]
  rfl

/-- Newly constructed buffers stand for no bytes. -/
def Lockstep.start (pool : Nat → Buffer) : Lockstep :=
  { pool := pool, bytes := fun _ => [], returned := .none, expected := .none }

/-- The indices lie where they should. -/
def InBounds (b : Buffer) : Prop :=
  kCheapPrepend ≤ b.readerIndex ∧ b.readerIndex ≤ b.writerIndex ∧
    b.writerIndex ≤ b.buffer.length

/-- The index subtractions do not wrap. -/
def Exact (b : Buffer) : Prop :=
  b.writerIndex = b.readerIndex + b.readableBytes ∧
    b.buffer.length = b.writerIndex + b.writeableBytes

/-- Both sides agree on the contents and on what was returned, and the indices
of every buffer are in order. -/
structure Lockstep.Agree (s : Lockstep) : Prop where
  contents : ∀ i, (s.pool i).content = s.bytes i
  values : s.returned = s.expected
  inBounds : ∀ i, InBounds (s.pool i)
  exact : ∀ i, Exact (s.pool i)

/-- An operation can only be stopped by an allocation that is refused: none of
the assertions fails and no write leaves the storage. -/
def Lockstep.NoFailure (s : Lockstep) (a : PoolOp) : Prop :=
  ∀ e, s.step a = .abort e → e = .lengthError

/-- An operation within its precondition finds the bytes it is to append. -/
def Lockstep.Undisturbed (s : Lockstep) : PoolOp → Prop
  | .on i op => op.Pre (s.pool i) → op.Undisturbed (s.pool i)
  | .swap _ _ => True

instance (s : Lockstep) : ∀ a : PoolOp, Decidable (s.Undisturbed a)
  | .on i op => inferInstanceAs (Decidable (op.Pre (s.pool i) → op.Undisturbed (s.pool i)))
  | .swap _ _ => isTrue trivial

/-- The invariant behind the agreement. -/
structure Lockstep.Inv (s : Lockstep) : Prop where
  wf : ∀ i, (s.pool i).WF
  contents : ∀ i, (s.pool i).content = s.bytes i
  values : s.returned = s.expected

theorem inBounds_of_wf {b : Buffer} (h : b.WF) : InBounds b :=
  ⟨h.prepend_le, h.reader_le, h.writer_le⟩

theorem exact_of_wf {b : Buffer} (h : b.WF) : Exact b := by
  have hr := h.reader_le
  have hw := h.writer_le
  rw [Exact, readableBytes_eq h, writeableBytes_eq h]
  omega

theorem Lockstep.Inv.agree {s : Lockstep} (h : s.Inv) : s.Agree :=
  ⟨h.contents, h.values, fun i => inBounds_of_wf (h.wf i), fun i => exact_of_wf (h.wf i)⟩

theorem Lockstep.Inv.noFailure {s : Lockstep} (h : s.Inv) {a : PoolOp}
    (hkept : s.Undisturbed a) : s.NoFailure a := by
  intro e he
  cases a with
  | swap i j => simp [Lockstep.step] at he
  | on i op =>
    rw [Lockstep.step] at he
    split at he
    · rename_i hpre
      rw [Outcome.ofExcept_eq_abort, bind_eq_error] at he
      rcases he with he | ⟨r, _, he⟩
      · exact (exec_spec (h.wf i) hpre (hkept hpre)).of_error he
      · simp at he
    · simp at he

theorem Lockstep.Inv.step {s t : Lockstep} {a : PoolOp} (h : s.Inv) (hkept : s.Undisturbed a)
    (hs : s.step a = .next t) : t.Inv := by
  cases a with
  | swap i j =>
    simp only [Lockstep.step, Buffer.swap, Outcome.next.injEq] at hs
    subst hs
    refine ⟨fun k => ?_, fun k => ?_, h.values⟩
    · by_cases hj : k = j
      · subst hj
        simpa using h.wf i
      · by_cases hi : k = i
        · subst hi
          simpa [hj] using h.wf j
        · simpa [hi, hj] using h.wf k
    · by_cases hj : k = j
      · subst hj
        simpa using h.contents i
      · by_cases hi : k = i
        · subst hi
          simpa [hj] using h.contents j
        · simpa [hi, hj] using h.contents k
  | on i op =>
    rw [Lockstep.step] at hs
    split at hs
    · rename_i hpre
      rw [Outcome.ofExcept_eq_next, bind_eq_ok] at hs
      obtain ⟨r, hr, hs⟩ := hs
      cases hs
      obtain ⟨hwf, hvalue, hcontent⟩ := (exec_spec (h.wf i) hpre (hkept hpre)).of_ok hr
      rw [h.contents i] at hvalue hcontent
      refine ⟨fun k => ?_, fun k => ?_, hvalue⟩
      · by_cases hk : k = i
        · subst hk
          simpa using hwf
        · simpa [hk] using h.wf k
      · by_cases hk : k = i
        · subst hk
          simpa using hcontent
        · simpa [hk] using h.contents k
    · simp at hs

/-- Where the bytes to append were disturbed, the pointer dangles, or the buffer
and its list part. -/
theorem Lockstep.Inv.undisturbed {s : Lockstep} (h : s.Inv) {a : PoolOp}
    (hfine : s.NoFailure a) (hagree : (s.step a).Leads Agree) : s.Undisturbed a := by
  cases a with
  | swap i j => trivial
  | on i op =>
    intro hpre
    cases op with
    | appendOwn pos len moved =>
      have hspec := appendOwn_spec moved (h.wf i) hpre
      generalize hx : (s.pool i).appendOwn pos len moved = x at hspec
      cases hspec with
      | refused hkept => exact hkept
      | dangling _ =>
        have hexec : (Op.appendOwn pos len moved).exec (s.pool i) = .error .useAfterFree := by
          rw [Op.exec, hx, error_bind]
        cases hfine _ (Lockstep.step_on_of_error hpre hexec)
      | stored b' bytes hwf hlen hcontent hbytes =>
        rw [Lockstep.step, if_pos hpre, Op.exec, hx] at hagree
        have hsame := hagree.contents i
        simp only [Function.update_self, Op.onBytes] at hsame
        rw [hcontent, ← h.contents i] at hsame
        exact hbytes.mp (List.append_cancel_left hsame)
    | _ => trivial

/-- **One step.**  It keeps the agreement exactly if it appends no bytes that
were disturbed. -/
theorem Lockstep.Inv.agree_iff {s : Lockstep} (h : s.Inv) (a : PoolOp) :
    s.NoFailure a ∧ (s.step a).Leads Agree ↔ s.Undisturbed a := by
  refine ⟨fun hboth => h.undisturbed hboth.1 hboth.2, fun hkept => ⟨h.noFailure hkept, ?_⟩⟩
  rw [Outcome.leads_iff]
  exact fun t ht => (h.step hkept ht).agree

/-! ## Construction -/

/-- A constructed buffer, whatever size it was constructed from. -/
theorem of_new {initialSize : Nat} {b : Buffer} (h : new initialSize = .ok b) :
    b.writerIndex = kCheapPrepend ∧
      b.buffer.length = SizeT.add kCheapPrepend initialSize ∧
      SizeT.add kCheapPrepend initialSize ≤ SizeT.maxSize := by
  rw [new, bind_eq_ok] at h
  obtain ⟨storage, hstorage, h⟩ := h
  unfold allocate at hstorage
  split at hstorage
  · rename_i hle
    cases hstorage
    simp only [bind_eq_ok] at h
    obtain ⟨_, _, _, _, _, _, h⟩ := h
    cases h
    exact ⟨rfl, List.length_replicate, hle⟩
  · simp at hstorage

/-- When the reserved space and the initial size add up, the constructor leaves
a well-formed empty buffer. -/
theorem wf_of_new {initialSize : Nat} {b : Buffer} (h : new initialSize = .ok b)
    (hfit : kCheapPrepend + initialSize < SizeT.modulus) : b.WF ∧ b.content = [] := by
  obtain ⟨_, _, hle⟩ := of_new h
  rw [SizeT.add_eq hfit] at hle
  rw [new_of_le hle] at h
  cases h
  exact ⟨wf_new hle, content_new⟩

/-- When they wrap, the storage ends before the write index. -/
theorem not_inBounds_of_wrap {initialSize : Nat} {b : Buffer} (h : new initialSize = .ok b)
    (hsize : initialSize < SizeT.modulus)
    (hwrap : SizeT.modulus ≤ kCheapPrepend + initialSize) : ¬ InBounds b := by
  obtain ⟨hwriter, hlength, _⟩ := of_new h
  have hlt : kCheapPrepend < SizeT.modulus := by
    rw [SizeT.modulus_eq]
    decide
  rw [SizeT.add_eq_of_wrap hwrap hlt hsize] at hlength
  rintro ⟨_, _, hle⟩
  rw [hwriter, hlength] at hle
  generalize SizeT.modulus = m at *
  omega

/-- **When the buffers refine byte queues.**  For every sequence of operations
within their preconditions and every answer of the kernel and of the vectors,
contents and returned values are those of the list operations, the indices stay
in order, no index subtraction wraps and no assertion fails, exactly if the
reserved space can be added to the initial sizes and no operation appends bytes
of its own storage that were disturbed. -/
theorem lockstep_agree_iff (sizes : Nat → Nat) (pool : Nat → Buffer)
    (hsize : ∀ i, sizes i < SizeT.modulus) (hnew : ∀ i, new (sizes i) = .ok (pool i))
    (ops : List PoolOp) :
    Throughout Lockstep.step Lockstep.Agree (Lockstep.start pool) ops ∧
        Along Lockstep.step Lockstep.NoFailure (Lockstep.start pool) ops ↔
      (∀ i, kCheapPrepend + sizes i < SizeT.modulus) ∧
        Along Lockstep.step Lockstep.Undisturbed (Lockstep.start pool) ops := by
  have hinit (hfit : ∀ i, kCheapPrepend + sizes i < SizeT.modulus) : (Lockstep.start pool).Inv :=
    ⟨fun i => (wf_of_new (hnew i) (hfit i)).1, fun i => (wf_of_new (hnew i) (hfit i)).2, rfl⟩
  have hiff (hfit : ∀ i, kCheapPrepend + sizes i < SizeT.modulus) :=
    along_iff_along (hinit hfit) (fun _ _ _ hs hkept ht => Lockstep.Inv.step hs hkept ht)
      (fun _ a hs => Lockstep.Inv.agree_iff hs a) ops
  rw [throughout_and_along_iff]
  constructor
  · rintro ⟨hagree, halong⟩
    have hfit : ∀ i, kCheapPrepend + sizes i < SizeT.modulus := by
      intro i
      by_contra hwrap
      exact not_inBounds_of_wrap (hnew i) (hsize i) (Nat.le_of_not_lt hwrap) (hagree.inBounds i)
    exact ⟨hfit, (hiff hfit).mp halong⟩
  · rintro ⟨hfit, hkept⟩
    exact ⟨(hinit hfit).agree, (hiff hfit).mpr hkept⟩

/-- Two bytes, and the same again from the buffer itself. -/
def doubled : List PoolOp :=
  [.on 0 (.append ⟨[65, 66], by rw [SizeT.maxSize_eq]; decide⟩), .on 0 (.appendOwn 8 2 true)]

/-- Buffers of sixteen bytes have room for that. -/
theorem lockstep_agree_doubled :
    Throughout Lockstep.step Lockstep.Agree
        (Lockstep.start fun _ => ⟨List.replicate 24 0, 8, 8⟩) doubled ∧
      Along Lockstep.step Lockstep.NoFailure
        (Lockstep.start fun _ => ⟨List.replicate 24 0, 8, 8⟩) doubled := by
  have hnew : new 16 = .ok ⟨List.replicate 24 0, 8, 8⟩ :=
    new_of_le (by rw [SizeT.maxSize_eq]; decide)
  exact (lockstep_agree_iff (fun _ => 16) (fun _ => ⟨List.replicate 24 0, 8, 8⟩)
    (fun _ => by rw [SizeT.modulus_eq]; decide) (fun _ => hnew) doubled).mpr
    ⟨fun _ => by rw [SizeT.modulus_eq]; decide, by decide +kernel⟩

/-- Eight bytes, `ABCDEFGH`, of which two are consumed; then the next two are
appended once more. -/
def appendNext : List PoolOp :=
  [.on 0 (.append ⟨[65, 66, 67, 68, 69, 70, 71, 72], by rw [SizeT.maxSize_eq]; decide⟩),
    .on 0 (.retrieve 2), .on 0 (.appendOwn 10 2 false)]

/-- `Buffer(SIZE_MAX)` passes its assertions with a write index behind the end
of a storage of seven bytes, and the first `append` writes outside it.  And
`Buffer(9)` moves `CDEFGH` down to have room for two bytes more, and then appends
`EF` instead of `CD`. -/
theorem lockstep_not_agree :
    (new 18446744073709551615 = .ok ⟨[0, 0, 0, 0, 0, 0, 0], 8, 8⟩ ∧
      ¬ (Lockstep.start fun _ => ⟨[0, 0, 0, 0, 0, 0, 0], 8, 8⟩).Agree ∧
      ¬ (Lockstep.start fun _ => ⟨[0, 0, 0, 0, 0, 0, 0], 8, 8⟩).NoFailure
          (.on 0 (.append ⟨[65], by rw [SizeT.maxSize_eq]; decide⟩))) ∧
      new 9 = .ok ⟨List.replicate 17 0, 8, 8⟩ ∧
      ∃ s, run Lockstep.step (Lockstep.start fun _ => ⟨List.replicate 17 0, 8, 8⟩) appendNext =
          some s ∧
        (s.pool 0).content = [67, 68, 69, 70, 71, 72, 69, 70] ∧
        s.bytes 0 = [67, 68, 69, 70, 71, 72, 67, 68] := by
  refine ⟨⟨by decide +kernel, ?_, ?_⟩, ?_, ?_⟩
  · intro h
    have hle := (h.inBounds 0).2.2
    simp [Lockstep.start] at hle
  · have hexec : Op.exec ⟨[0, 0, 0, 0, 0, 0, 0], 8, 8⟩
        (.append ⟨[65], by rw [SizeT.maxSize_eq]; decide⟩) = .error .outOfBounds := by
      decide +kernel
    intro h
    have heq := h .outOfBounds (Lockstep.step_on_of_error trivial hexec)
    cases heq
  · exact new_of_le (by rw [SizeT.maxSize_eq]; decide)
  · have hrun : (run Lockstep.step (Lockstep.start fun _ => ⟨List.replicate 17 0, 8, 8⟩)
        appendNext).map (fun s => ((s.pool 0).content, s.bytes 0)) =
          some ([67, 68, 69, 70, 71, 72, 69, 70], [67, 68, 69, 70, 71, 72, 67, 68]) := by
      decide +kernel
    obtain ⟨s, hs, hcontents⟩ := Option.map_eq_some_iff.mp hrun
    exact ⟨s, hs, congrArg Prod.fst hcontents, congrArg Prod.snd hcontents⟩

end CppWeb.Buffer
