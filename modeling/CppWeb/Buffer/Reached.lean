/-
  Buffer/Reached.lean --- the buffers a program can get hold of.

  A buffer is constructed from an initial size and then operated on, each
  operation within its precondition.  (A `swap` only exchanges two buffers that
  were made this way.)  There are two kinds of them, and which kind a buffer is
  depends on its initial size alone: buffers that meet the index invariant, and
  stunted ones, whose storage ends inside the reserved space because the size of
  the storage wrapped.  A stunted buffer never becomes anything else: what would
  store a byte in it writes outside the storage.
-/
import CppWeb.Buffer.Refinement

set_option autoImplicit false

namespace CppWeb.Buffer

open CppWeb.Foundation

/-- One operation; it is not enabled outside its precondition. -/
def step (b : Buffer) (op : Op) : Outcome Abort Buffer :=
  if op.Pre b then
    Outcome.ofExcept do
      let r ← op.exec b
      .ok r.2
  else .disabled

/-- The buffer can be made from a new one of this initial size. -/
def Reached (initialSize : Nat) (b : Buffer) : Prop :=
  ∃ b₀ ops, new initialSize = .ok b₀ ∧ run step b₀ ops = some b

theorem step_eq_next {b b' : Buffer} {op : Op} :
    b.step op = .next b' ↔ op.Pre b ∧ ∃ v, op.exec b = .ok (v, b') := by
  unfold step
  split
  · rename_i hpre
    rw [Outcome.ofExcept_eq_next, bind_eq_ok]
    constructor
    · rintro ⟨⟨v, b₁⟩, hr, hb⟩
      cases hb
      exact ⟨hpre, v, hr⟩
    · rintro ⟨_, v, hr⟩
      exact ⟨(v, b'), hr, rfl⟩
  · rename_i hpre
    simp [hpre]

theorem step_eq_abort {b : Buffer} {op : Op} {e : Abort} :
    b.step op = .abort e ↔ op.Pre b ∧ op.exec b = .error e := by
  unfold step
  split
  · rename_i hpre
    rw [Outcome.ofExcept_eq_abort, bind_eq_error]
    simp [hpre]
  · rename_i hpre
    simp [hpre]

/-- What is kept by the operations holds of every buffer that is reached from
one that has it. -/
theorem run_induction {P : Buffer → Prop} (hstep : ∀ b op b', P b → b.step op = .next b' → P b')
    {b b' : Buffer} {ops : List Op} (hb : P b) (hrun : run step b ops = some b') : P b' :=
  throughout_iff_run.mp (throughout_of_invariant step hb hstep ops) ops b' List.prefix_rfl hrun

/-! ## What an operation leaves -/

theorem retrieve_of_retrieveAsString {b : Buffer} {len : Nat} {r : List UInt8 × Buffer}
    (h : b.retrieveAsString len = .ok r) : b.retrieve len = .ok r.2 := by
  rw [retrieveAsString, bind_eq_ok] at h
  obtain ⟨_, _, h⟩ := h
  rw [bind_eq_ok] at h
  obtain ⟨b', hb', h⟩ := h
  cases h
  exact hb'

theorem retrieve_of_readInt {b : Buffer} {k : Nat} {r : BitVec (8 * k) × Buffer}
    (h : b.readInt k = .ok r) : b.retrieve k = .ok r.2 := by
  rw [readInt, bind_eq_ok] at h
  obtain ⟨_, _, h⟩ := h
  rw [bind_eq_ok] at h
  obtain ⟨b', hb', h⟩ := h
  cases h
  exact hb'

/-- The buffer an operation leaves: the same one, or what one of six calls
makes of it. -/
inductive Leaves (b : Buffer) : Buffer → Prop where
  | same : Leaves b b
  | append {b' : Buffer} (bytes : Bytes) (h : b.append bytes = .ok b') : Leaves b b'
  | appendOwn {b' : Buffer} (pos len : Nat) (moved : Bool) (hpre : pos + len ≤ b.buffer.length)
      (h : b.appendOwn pos len moved = .ok b') : Leaves b b'
  | prepend {b' : Buffer} (bytes : Bytes) (h : b.prepend bytes = .ok b') : Leaves b b'
  | retrieve {b' : Buffer} (len : Nat) (h : b.retrieve len = .ok b') : Leaves b b'
  | retrieveAll : Leaves b b.retrieveAll
  | readFd {r : Int × Buffer} (bytes : List UInt8) (h : b.readFd (.data bytes) = .ok r) :
    Leaves b r.2

theorem leaves_of_exec {b : Buffer} {op : Op} (hpre : op.Pre b) {r : Value × Buffer}
    (hr : op.exec b = .ok r) : b.Leaves r.2 := by
  cases op with
  | append bytes =>
    rw [Op.exec, bind_eq_ok] at hr
    obtain ⟨b', hb', hr⟩ := hr
    cases hr
    exact .append bytes hb'
  | appendOwn pos len moved =>
    rw [Op.exec, bind_eq_ok] at hr
    obtain ⟨b', hb', hr⟩ := hr
    cases hr
    exact .appendOwn pos len moved hpre hb'
  | appendInt k hk x =>
    rw [Op.exec, bind_eq_ok] at hr
    obtain ⟨b', hb', hr⟩ := hr
    cases hr
    exact .append (intBytes k hk x) hb'
  | prepend bytes =>
    rw [Op.exec, bind_eq_ok] at hr
    obtain ⟨b', hb', hr⟩ := hr
    cases hr
    exact .prepend bytes hb'
  | prependInt k hk x =>
    rw [Op.exec, bind_eq_ok] at hr
    obtain ⟨b', hb', hr⟩ := hr
    cases hr
    exact .prepend (intBytes k hk x) hb'
  | retrieve len =>
    rw [Op.exec, bind_eq_ok] at hr
    obtain ⟨b', hb', hr⟩ := hr
    cases hr
    exact .retrieve len hb'
  | retrieveAll =>
    cases hr
    exact .retrieveAll
  | retrieveAsString len =>
    rw [Op.exec, bind_eq_ok] at hr
    obtain ⟨r', hr', hr⟩ := hr
    cases hr
    exact .retrieve len (retrieve_of_retrieveAsString hr')
  | retrieveAllAsString =>
    rw [Op.exec, bind_eq_ok] at hr
    obtain ⟨r', hr', hr⟩ := hr
    cases hr
    exact .retrieve b.readableBytes (retrieve_of_retrieveAsString hr')
  | peekInt k =>
    rw [Op.exec, bind_eq_ok] at hr
    obtain ⟨x, _, hr⟩ := hr
    cases hr
    exact .same
  | readInt k =>
    rw [Op.exec, bind_eq_ok] at hr
    obtain ⟨r', hr', hr⟩ := hr
    cases hr
    exact .retrieve k (retrieve_of_readInt hr')
  | readFd result =>
    rw [Op.exec, bind_eq_ok] at hr
    obtain ⟨r', hr', hr⟩ := hr
    cases hr
    cases result with
    | fail errno =>
      cases hr'
      exact .same
    | data bytes => exact .readFd bytes hr'

/-! ## Buffers that meet the index invariant -/

theorem WF.step {b b' : Buffer} {op : Op} (h : b.WF) (hs : b.step op = .next b') : b'.WF := by
  obtain ⟨hpre, v, hexec⟩ := step_eq_next.mp hs
  exact wf_of_exec h hpre hexec

theorem Reached.wf {initialSize : Nat} {b : Buffer} (h : Reached initialSize b)
    (hfit : kCheapPrepend + initialSize < SizeT.modulus) : b.WF := by
  obtain ⟨b₀, ops, hnew, hrun⟩ := h
  exact run_induction (fun _ _ _ => WF.step) (wf_of_new hnew hfit).1 hrun

/-! ## Stunted buffers -/

/-- An empty buffer whose storage ends inside the reserved space. -/
structure Stunted (b : Buffer) : Prop where
  reader : b.readerIndex = kCheapPrepend
  writer : b.writerIndex = kCheapPrepend
  short : b.buffer.length < kCheapPrepend

namespace Stunted

variable {b : Buffer}

theorem readableBytes_eq (h : b.Stunted) : b.readableBytes = 0 := by
  rw [readableBytes, h.reader, h.writer, sub_kCheapPrepend_self]

theorem content_eq (h : b.Stunted) : b.content = [] := by
  rw [content, h.readableBytes_eq, peek, window_zero]

/-- The free space is computed as nearly 2^64 bytes. -/
theorem maxSize_le_writeableBytes (h : b.Stunted) : SizeT.maxSize ≤ b.writeableBytes := by
  have hshort := h.short
  rw [writeableBytes, h.writer]
  unfold kCheapPrepend at *
  unfold SizeT.sub
  rw [SizeT.maxSize_eq, SizeT.modulus_eq]
  omega

/-- Nothing can be stored at the write index, not even no bytes. -/
theorem copyTo_eq (h : b.Stunted) (bytes : List UInt8) :
    copyTo b.buffer kCheapPrepend bytes = .error .outOfBounds := by
  have hshort := h.short
  rw [copyTo, if_neg (by omega)]

theorem append_eq (h : b.Stunted) (bytes : Bytes) : b.append bytes = .error .outOfBounds := by
  have hroom : bytes.length ≤ b.writeableBytes :=
    Nat.le_trans bytes.length_le h.maxSize_le_writeableBytes
  rw [append, ensureWriteableBytes_of_room hroom, ok_bind, h.writer, h.copyTo_eq, error_bind]

theorem appendOwn_eq (h : b.Stunted) {pos len : Nat} {moved : Bool}
    (hpre : pos + len ≤ b.buffer.length) :
    b.appendOwn pos len moved = .error .outOfBounds := by
  have hshort := h.short
  have hsmall : len ≤ SizeT.maxSize := by
    rw [SizeT.maxSize_eq]
    unfold kCheapPrepend at hshort
    omega
  have hroom : len ≤ b.writeableBytes := Nat.le_trans hsmall h.maxSize_le_writeableBytes
  simp only [appendOwn, ensureWriteableBytes_of_room hroom, ok_bind, Nat.lt_irrefl, false_and,
    if_false, h.writer, h.copyTo_eq, error_bind]

theorem prepend_eq (h : b.Stunted) (bytes : Bytes) :
    b.prepend bytes = .error (.assertion .prepend) ∨ b.prepend bytes = .error .outOfBounds := by
  rw [prepend, prependableBytes, h.reader, sub_kCheapPrepend_self]
  by_cases hlen : bytes.length ≤ 0
  · have hzero : bytes.length = 0 := Nat.le_zero.mp hlen
    have hindex : SizeT.sub kCheapPrepend 0 = kCheapPrepend :=
      SizeT.sub_eq_of_le_maxSize (Nat.zero_le _) (by rw [SizeT.maxSize_eq]; decide)
    right
    rw [require_ok hlen, ok_bind, hzero, hindex]
    dsimp only
    rw [h.copyTo_eq, error_bind]
  · left
    rw [require_error hlen, error_bind]

theorem readFd_eq (h : b.Stunted) (bytes : List UInt8) :
    b.readFd (.data bytes) = .error .outOfBounds := by
  simp only [readFd, h.writer, h.copyTo_eq, error_bind]

theorem retrieveAll_eq (h : b.Stunted) : b.retrieveAll = b := by
  obtain ⟨buffer, readerIndex, writerIndex⟩ := b
  have hr : readerIndex = kCheapPrepend := h.reader
  have hw : writerIndex = kCheapPrepend := h.writer
  subst hr hw
  rfl

theorem retrieve_eq (h : b.Stunted) {len : Nat} {b' : Buffer} (hb : b.retrieve len = .ok b') :
    b' = b := by
  rw [retrieve, h.readableBytes_eq, bind_eq_ok] at hb
  obtain ⟨_, _, hb⟩ := hb
  rw [if_neg (Nat.not_lt_zero _), h.retrieveAll_eq] at hb
  exact (Except.ok.inj hb).symm

/-- An operation on a stunted buffer changes nothing, if it returns at all. -/
theorem exec_eq (h : b.Stunted) {op : Op} (hpre : op.Pre b) {r : Value × Buffer}
    (hr : op.exec b = .ok r) : r.2 = b := by
  have hleft := leaves_of_exec hpre hr
  generalize r.2 = b' at hleft ⊢
  cases hleft with
  | same => rfl
  | append bytes hb =>
    rw [h.append_eq] at hb
    cases hb
  | appendOwn pos len moved hpre hb =>
    rw [h.appendOwn_eq hpre] at hb
    cases hb
  | prepend bytes hb =>
    rcases h.prepend_eq bytes with hp | hp
    · rw [hp] at hb
      cases hb
    · rw [hp] at hb
      cases hb
  | retrieve len hb => exact h.retrieve_eq hb
  | retrieveAll => exact h.retrieveAll_eq
  | readFd bytes hb =>
    rw [h.readFd_eq] at hb
    cases hb

theorem step {b' : Buffer} {op : Op} (h : b.Stunted) (hs : b.step op = .next b') :
    b'.Stunted := by
  obtain ⟨hpre, v, hexec⟩ := step_eq_next.mp hs
  have heq : b' = b := h.exec_eq hpre hexec
  rw [heq]
  exact h

end Stunted

/-- The constructor does not refuse a size that wraps. -/
theorem exists_new_of_wrap {initialSize : Nat} (hsize : initialSize < SizeT.modulus)
    (hwrap : SizeT.modulus ≤ kCheapPrepend + initialSize) :
    ∃ b, new initialSize = .ok b ∧ b.Stunted := by
  have hadd : SizeT.add kCheapPrepend initialSize = kCheapPrepend + initialSize - SizeT.modulus :=
    SizeT.add_eq_of_wrap hwrap (by rw [SizeT.modulus_eq]; decide) hsize
  have hshort : SizeT.add kCheapPrepend initialSize < kCheapPrepend := by
    generalize SizeT.modulus = m at *
    omega
  have halloc : allocate (SizeT.add kCheapPrepend initialSize) =
      .ok (List.replicate (SizeT.add kCheapPrepend initialSize) 0) := by
    refine allocate_of_le (Nat.le_trans (Nat.le_of_lt hshort) ?_)
    rw [SizeT.maxSize_eq]
    decide
  refine ⟨_, new_of_allocate halloc ?_, rfl, rfl, ?_⟩
  · -- the subtraction in the assertion wraps back
    rw [List.length_replicate, hadd]
    unfold SizeT.sub
    unfold kCheapPrepend at *
    rw [SizeT.modulus_eq] at *
    omega
  · rw [List.length_replicate]
    exact hshort

theorem Reached.stunted {initialSize : Nat} {b : Buffer} (h : Reached initialSize b)
    (hsize : initialSize < SizeT.modulus)
    (hwrap : SizeT.modulus ≤ kCheapPrepend + initialSize) : b.Stunted := by
  obtain ⟨b₀, ops, hnew, hrun⟩ := h
  obtain ⟨b₁, hnew₁, hstunted⟩ := exists_new_of_wrap hsize hwrap
  have heq : b₁ = b₀ := Except.ok.inj (hnew₁.symm.trans hnew)
  rw [heq] at hstunted
  exact run_induction (fun _ _ _ => Stunted.step) hstunted hrun

theorem Reached.of_new {initialSize : Nat} {b : Buffer} (h : new initialSize = .ok b) :
    Reached initialSize b :=
  ⟨b, [], h, rfl⟩

end CppWeb.Buffer
