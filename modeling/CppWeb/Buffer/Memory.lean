/-
  Buffer/Memory.lean --- how large the storage of a buffer becomes.

  `makeSpace` grows the storage to `m_writerIndex + len` without moving the
  content down first, so whatever was consumed in front of the content is kept
  in the new size.  It only does so when free space at both ends together is
  less than `len`; the space in front beyond the reserved bytes is then shorter
  than the bytes to come, hence than the content after them.  So the storage
  never exceeds twice the largest content, or the initial size, by more than the
  reserved bytes.
-/
import CppWeb.Buffer.Reached

set_option autoImplicit false

namespace CppWeb.Buffer

open CppWeb.Foundation

/-! ## Operations that keep the storage -/

theorem length_copyTo {storage storage' bytes : List UInt8} {at_ : Nat}
    (h : copyTo storage at_ bytes = .ok storage') : storage'.length = storage.length := by
  unfold copyTo at h
  split at h
  · rename_i hfit
    rw [← Except.ok.inj h]
    exact length_overwrite hfit
  · cases h

theorem retrieve_buffer {b b' : Buffer} {len : Nat} (h : b.retrieve len = .ok b') :
    b'.buffer = b.buffer := by
  rw [retrieve, bind_eq_ok] at h
  obtain ⟨_, _, h⟩ := h
  split at h
  · cases h
    rfl
  · cases h
    rfl

theorem prepend_length {b b' : Buffer} {bytes : Bytes} (h : b.prepend bytes = .ok b') :
    b'.buffer.length = b.buffer.length := by
  rw [prepend, bind_eq_ok] at h
  obtain ⟨_, _, h⟩ := h
  rw [bind_eq_ok] at h
  obtain ⟨storage, hcopy, h⟩ := h
  cases h
  exact length_copyTo hcopy

/-! ## Operations that may grow it -/

/-- The storage is as long as before, or at most twice the content and the
reserved bytes. -/
def Grown (b : Buffer) (readable : Nat) (b' : Buffer) : Prop :=
  b'.buffer.length = b.buffer.length ∨ b'.buffer.length ≤ kCheapPrepend + 2 * readable

/-- **Growing pays for itself.**  When the free space at both ends is less than
`len`, what lies before the content is at most `len` and the reserved bytes. -/
theorem resize_grown {b b' : Buffer} (h : b.WF) {len : Nat}
    (hshort : b.buffer.length - b.writerIndex + b.readerIndex - kCheapPrepend < len)
    (hb : b.resize (b.writerIndex + len) = .ok b') : b.Grown (b.readableBytes + len) b' := by
  have hr := h.reader_le
  have hw := h.writer_le
  have hread := readableBytes_eq h
  unfold resize at hb
  split at hb
  · rename_i hmax
    have hlength : b'.buffer.length = b.writerIndex + len := by
      rw [← Except.ok.inj hb]
      simp only [List.length_append, List.length_take, List.length_replicate]
      clear hmax
      omega
    right
    rw [hlength]
    clear hmax
    omega
  · cases hb

theorem makeSpace_grown {b b' : Buffer} (h : b.WF) {len : Nat} (hlen : len ≤ SizeT.maxSize)
    (hb : b.makeSpace len = .ok b') : b.Grown (b.readableBytes + len) b' := by
  rw [makeSpace, reclaimable_eq h] at hb
  split at hb
  · rename_i hshort
    have hadd : SizeT.add b.writerIndex len = b.writerIndex + len :=
      SizeT.add_eq_of_le_maxSize (Nat.le_trans h.writer_le h.fits) hlen
    rw [hadd] at hb
    exact resize_grown h hshort hb
  · -- the content is moved down within the storage
    rw [bind_eq_ok] at hb
    obtain ⟨_, _, hb⟩ := hb
    rw [bind_eq_ok] at hb
    obtain ⟨storage, hcopy, hb⟩ := hb
    cases hb
    exact Or.inl (length_copyTo hcopy)

theorem ensureWriteableBytes_grown {b b' : Buffer} (h : b.WF) {len : Nat}
    (hlen : len ≤ SizeT.maxSize) (hb : b.ensureWriteableBytes len = .ok b') :
    b.Grown (b.readableBytes + len) b' := by
  rw [ensureWriteableBytes, bind_eq_ok] at hb
  obtain ⟨b₁, hspace, hb⟩ := hb
  rw [bind_eq_ok] at hb
  obtain ⟨_, _, hb⟩ := hb
  cases hb
  split at hspace
  · exact makeSpace_grown h hlen hspace
  · cases hspace
    exact Or.inl rfl

/-- Storing and taking over bytes keeps the storage. -/
theorem written_length {b b' : Buffer} {bytes : List UInt8} {len : Nat}
    (hb : (do
      let storage ← copyTo b.buffer b.writerIndex bytes
      hasWritten len { b with buffer := storage }) = .ok b') :
    b'.buffer.length = b.buffer.length := by
  rw [bind_eq_ok] at hb
  obtain ⟨storage, hcopy, hb⟩ := hb
  rw [hasWritten, bind_eq_ok] at hb
  obtain ⟨_, _, hb⟩ := hb
  rw [← Except.ok.inj hb]
  exact length_copyTo hcopy

theorem append_grown {b b' : Buffer} (h : b.WF) {bytes : Bytes} (hb : b.append bytes = .ok b') :
    b.Grown b'.readableBytes b' := by
  obtain ⟨hwf, hcontent⟩ := (append_spec h bytes).of_ok hb
  have hread : b'.readableBytes = b.readableBytes + bytes.length := by
    rw [← length_content hwf, ← length_content h, hcontent, List.length_append]
    rfl
  rw [append, bind_eq_ok] at hb
  obtain ⟨b₁, hensure, hb⟩ := hb
  have hgrown := ensureWriteableBytes_grown h bytes.length_le hensure
  rw [Grown, ← written_length hb, ← hread] at hgrown
  exact hgrown

theorem appendOwn_grown {b b' : Buffer} (h : b.WF) {pos len : Nat} {moved : Bool}
    (hpre : pos + len ≤ b.buffer.length) (hb : b.appendOwn pos len moved = .ok b') :
    b.Grown b'.readableBytes b' := by
  have hread : b'.readableBytes = b.readableBytes + len := by
    have hspec := appendOwn_spec moved h hpre
    rw [hb] at hspec
    cases hspec with
    | stored _ bytes hwf hlen hcontent _ =>
      rw [← length_content hwf, ← length_content h, hcontent, List.length_append, hlen]
  simp only [appendOwn] at hb
  rw [bind_eq_ok] at hb
  obtain ⟨b₁, hensure, hb⟩ := hb
  split at hb
  · cases hb
  · have hgrown := ensureWriteableBytes_grown h (len_le_maxSize h hpre) hensure
    rw [Grown, ← written_length hb, ← hread] at hgrown
    exact hgrown

/-- The tail of the buffer is filled within the storage; what is left over is
appended to a full buffer. -/
theorem readFd_grown {b : Buffer} (h : b.WF) {bytes : List UInt8} {r : Int × Buffer}
    (hr : b.readFd (.data bytes) = .ok r) : b.Grown r.2.readableBytes r.2 := by
  simp only [readFd] at hr
  rw [bind_eq_ok] at hr
  obtain ⟨storage, hcopy, hr⟩ := hr
  have hlength := length_copyTo hcopy
  split at hr
  · cases hr
    exact Or.inl hlength
  · rename_i hn
    generalize bytes.take b.readvSpace = delivered at *
    rw [bind_eq_ok] at hr
    obtain ⟨b', hb', hr⟩ := hr
    cases hr
    have hroom := writeableBytes_eq h
    have hw := h.writer_le
    have htail : (delivered.take b.writeableBytes).length ≤ b.writeableBytes :=
      List.length_take_le _ _
    have hfull : (delivered.take b.writeableBytes).length = b.writeableBytes := by
      rw [List.length_take]
      omega
    have hfit : b.writerIndex + (delivered.take b.writeableBytes).length ≤ b.buffer.length := by
      omega
    have hend : storage.length = b.writerIndex + (delivered.take b.writeableBytes).length := by
      omega
    rw [copyTo_ok hfit] at hcopy
    have hwf := wf_written h htail
    rw [Except.ok.inj hcopy, ← hend] at hwf
    have hgrown := append_grown hwf hb'
    rw [Grown] at hgrown ⊢
    dsimp only at hgrown ⊢
    rw [← hlength]
    exact hgrown

/-- **One operation.** -/
theorem exec_grown {b : Buffer} (h : b.WF) {op : Op} (hpre : op.Pre b) {r : Value × Buffer}
    (hr : op.exec b = .ok r) : b.Grown r.2.readableBytes r.2 := by
  have hleft := leaves_of_exec hpre hr
  generalize r.2 = b' at hleft ⊢
  cases hleft with
  | same => exact Or.inl rfl
  | append bytes hb => exact append_grown h hb
  | appendOwn pos len moved hpre hb => exact appendOwn_grown h hpre hb
  | prepend bytes hb => exact Or.inl (prepend_length hb)
  | retrieve len hb => exact Or.inl (congrArg List.length (retrieve_buffer hb))
  | retrieveAll => exact Or.inl rfl
  | readFd bytes hb => exact readFd_grown h hb

/-! ## Runs -/

/-- A buffer, and the largest number of readable bytes it has had after an
operation. -/
structure Measured where
  buffer : Buffer
  peak : Nat
  deriving DecidableEq, Repr

namespace Measured

def start (b : Buffer) : Measured := { buffer := b, peak := 0 }

def step (s : Measured) (op : Op) : Outcome Abort Measured :=
  (s.buffer.step op).map fun b => { buffer := b, peak := max s.peak b.readableBytes }

/-- The size of the storage against the initial size and the largest content. -/
def Bounded (initialSize : Nat) (s : Measured) : Prop :=
  s.buffer.buffer.length ≤ kCheapPrepend + max initialSize (2 * s.peak)

instance (initialSize : Nat) (s : Measured) : Decidable (s.Bounded initialSize) :=
  inferInstanceAs (Decidable (_ ≤ _))

theorem step_eq_next {s t : Measured} {op : Op} (h : s.step op = .next t) :
    s.buffer.step op = .next t.buffer ∧ t.peak = max s.peak t.buffer.readableBytes := by
  rw [step, Outcome.map_eq_next] at h
  obtain ⟨b, hb, rfl⟩ := h
  exact ⟨hb, rfl⟩

theorem Bounded.step {initialSize : Nat} {s t : Measured} {op : Op} (h : s.Bounded initialSize)
    (hwf : s.buffer.WF) (ht : s.step op = .next t) : t.Bounded initialSize := by
  obtain ⟨hb, hpeak⟩ := step_eq_next ht
  obtain ⟨hpre, v, hexec⟩ := Buffer.step_eq_next.mp hb
  have hgrown := exec_grown hwf hpre hexec
  rw [Bounded] at h ⊢
  rw [Grown] at hgrown
  dsimp only at hgrown
  rcases hgrown with hsame | hpaid
  · omega
  · omega

/-- **The storage is bounded by twice the largest content.**  For every initial
size and every sequence of operations within their preconditions, the storage
never exceeds the reserved bytes plus the initial size or twice the largest
number of readable bytes so far, whichever is larger. -/
theorem storage_bounded (initialSize : Nat) (hsize : initialSize < SizeT.modulus) {b : Buffer}
    (hnew : new initialSize = .ok b) (ops : List Op) :
    Throughout step (Bounded initialSize) (start b) ops := by
  by_cases hfit : kCheapPrepend + initialSize < SizeT.modulus
  · obtain ⟨_, hlength, hle⟩ := of_new hnew
    have hinit : (start b).buffer.WF ∧ (start b).Bounded initialSize := by
      refine ⟨(wf_of_new hnew hfit).1, ?_⟩
      rw [Bounded, start, hlength, SizeT.add_eq hfit]
      exact Nat.add_le_add_left (Nat.le_max_left _ _) _
    have hinv := throughout_of_invariant step
      (I := fun s => s.buffer.WF ∧ s.Bounded initialSize) hinit
      (fun s op t h ht => ⟨h.1.step (step_eq_next ht).1, h.2.step h.1 ht⟩) ops
    exact hinv.mono fun s hs => hs.2
  · -- a stunted buffer keeps its storage of less than eight bytes
    obtain ⟨b₁, hnew₁, hstunted⟩ := exists_new_of_wrap hsize (Nat.le_of_not_lt hfit)
    have heq : b₁ = b := Except.ok.inj (hnew₁.symm.trans hnew)
    rw [heq] at hstunted
    have hinit : (start b).buffer.Stunted := hstunted
    have hinv := throughout_of_invariant step (I := fun s => s.buffer.Stunted) hinit
      (fun s op t h ht => h.step (step_eq_next ht).1) ops
    refine hinv.mono fun s hs => ?_
    exact Nat.le_trans (Nat.le_of_lt hs.short) (Nat.le_add_right _ _)

/-- A buffer of no initial size. -/
theorem storage_bounded_zero :
    new 0 = .ok ⟨[0, 0, 0, 0, 0, 0, 0, 0], 8, 8⟩ ∧
      ∀ ops : List Op,
        Throughout step (Bounded 0) (start ⟨[0, 0, 0, 0, 0, 0, 0, 0], 8, 8⟩) ops := by
  have hnew : new 0 = .ok ⟨[0, 0, 0, 0, 0, 0, 0, 0], 8, 8⟩ := by decide +kernel
  refine ⟨hnew, storage_bounded 0 ?_ hnew⟩
  rw [SizeT.modulus_eq]
  decide

end Measured

end CppWeb.Buffer
