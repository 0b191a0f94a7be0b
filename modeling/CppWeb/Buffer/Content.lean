/-
  Buffer/Content.lean --- what each operation of the buffer does to its content.

  The content of a buffer is the list of its readable bytes.  On a well-formed
  buffer every operation acts on the content as the list operation it stands
  for and leaves a well-formed buffer; none of its assertions fails, no write
  leaves the storage, and the only way to stop is a vector that would have to
  grow past `max_size()`.
-/
import CppWeb.Buffer.Core

set_option autoImplicit false

namespace CppWeb.Buffer

open CppWeb.Foundation

/-- The index invariant. -/
structure WF (b : Buffer) : Prop where
  prepend_le : kCheapPrepend ≤ b.readerIndex
  reader_le : b.readerIndex ≤ b.writerIndex
  writer_le : b.writerIndex ≤ b.buffer.length
  fits : b.buffer.length ≤ SizeT.maxSize

/-- The readable bytes, `[peek(), peek() + readableBytes())`. -/
def content (b : Buffer) : List UInt8 := b.peek b.readableBytes

section Lengths

variable {b : Buffer}

theorem readableBytes_eq (h : b.WF) : b.readableBytes = b.writerIndex - b.readerIndex :=
  SizeT.sub_eq_of_le_maxSize h.reader_le (Nat.le_trans h.writer_le h.fits)

theorem writeableBytes_eq (h : b.WF) : b.writeableBytes = b.buffer.length - b.writerIndex :=
  SizeT.sub_eq_of_le_maxSize h.writer_le h.fits

/-- The room in front that a compacting move would gain. -/
theorem reclaimable_eq (h : b.WF) :
    SizeT.sub (SizeT.add b.writeableBytes b.prependableBytes) kCheapPrepend =
      b.buffer.length - b.writerIndex + b.readerIndex - kCheapPrepend := by
  have h8 := h.prepend_le
  have hr := h.reader_le
  have hw := h.writer_le
  have hread : b.readerIndex ≤ b.buffer.length := by omega
  have hroom : b.buffer.length - b.writerIndex ≤ b.buffer.length := by omega
  have hsum : SizeT.add b.writeableBytes b.prependableBytes =
      b.buffer.length - b.writerIndex + b.readerIndex := by
    rw [writeableBytes_eq h]
    exact SizeT.add_eq_of_le_maxSize (Nat.le_trans hroom h.fits) (Nat.le_trans hread h.fits)
  have htotal : b.buffer.length - b.writerIndex + b.readerIndex ≤ b.buffer.length := by omega
  rw [hsum]
  exact SizeT.sub_eq_of_le_maxSize (by omega) (Nat.le_trans htotal h.fits)

theorem content_eq (h : b.WF) :
    b.content = window b.buffer b.readerIndex (b.writerIndex - b.readerIndex) := by
  rw [content, readableBytes_eq h, peek]

theorem length_content (h : b.WF) : b.content.length = b.readableBytes := by
  rw [content_eq h, readableBytes_eq h]
  have hr := h.reader_le
  have hw := h.writer_le
  exact length_window (by omega)

theorem content_eq_nil_iff (h : b.WF) : b.content = [] ↔ b.readableBytes = 0 := by
  rw [← length_content h, List.length_eq_zero_iff]

theorem readableBytes_le (h : b.WF) : b.readableBytes ≤ SizeT.maxSize := by
  rw [readableBytes_eq h]
  exact Nat.le_trans (Nat.sub_le _ _) (Nat.le_trans h.writer_le h.fits)

/-- A prefix of the content, as `peekIntN` and `retrieveAsString` read it. -/
theorem peek_eq_take (h : b.WF) {len : Nat} (hlen : len ≤ b.readableBytes) :
    b.peek len = b.content.take len := by
  rw [content_eq h, take_window]
  · rfl
  · rwa [← readableBytes_eq h]

end Lengths

theorem copyTo_ok {storage bytes : List UInt8} {at_ : Nat}
    (h : at_ + bytes.length ≤ storage.length) :
    copyTo storage at_ bytes = .ok (overwrite storage at_ bytes) := by
  simp [copyTo, h]

/-! ## Construction -/

theorem allocate_of_le {size : Nat} (h : size ≤ SizeT.maxSize) :
    allocate size = .ok (List.replicate size 0) := if_pos h

theorem sub_kCheapPrepend_self : SizeT.sub kCheapPrepend kCheapPrepend = 0 := by
  rw [SizeT.sub_eq_of_le_maxSize (Nat.le_refl _) (by rw [SizeT.maxSize_eq]; decide),
    Nat.sub_self]

/-- The three assertions of the constructor, on whatever storage was
allocated. -/
theorem new_of_allocate {initialSize : Nat} {storage : List UInt8}
    (h : allocate (SizeT.add kCheapPrepend initialSize) = .ok storage)
    (hsize : SizeT.sub storage.length kCheapPrepend = initialSize) :
    new initialSize = .ok ⟨storage, kCheapPrepend, kCheapPrepend⟩ := by
  have hread : readableBytes ⟨storage, kCheapPrepend, kCheapPrepend⟩ = 0 :=
    sub_kCheapPrepend_self
  have hwrite : writeableBytes ⟨storage, kCheapPrepend, kCheapPrepend⟩ = initialSize := hsize
  have hfront : prependableBytes ⟨storage, kCheapPrepend, kCheapPrepend⟩ = kCheapPrepend := rfl
  rw [new, h, ok_bind]
  dsimp only
  rw [require_ok hread, ok_bind, require_ok hwrite, ok_bind, require_ok hfront, ok_bind]

theorem new_of_le {initialSize : Nat} (h : kCheapPrepend + initialSize ≤ SizeT.maxSize) :
    new initialSize =
      .ok ⟨List.replicate (kCheapPrepend + initialSize) 0, kCheapPrepend, kCheapPrepend⟩ := by
  have hadd : SizeT.add kCheapPrepend initialSize = kCheapPrepend + initialSize :=
    SizeT.add_eq (Nat.lt_of_le_of_lt h SizeT.maxSize_lt_modulus)
  refine new_of_allocate ?_ ?_
  · rw [hadd, allocate_of_le h]
  · rw [List.length_replicate, SizeT.sub_eq_of_le_maxSize (Nat.le_add_right _ _) h,
      Nat.add_sub_cancel_left]

/-- A buffer of the default size is far from the limits of `size_t`. -/
theorem kInitialSize_le : kCheapPrepend + kInitialSize ≤ SizeT.maxSize := by
  rw [SizeT.maxSize_eq]
  decide

theorem kInitialSize_lt_modulus : kInitialSize < SizeT.modulus := by
  rw [SizeT.modulus_eq]
  decide

theorem wf_new {initialSize : Nat} (h : kCheapPrepend + initialSize ≤ SizeT.maxSize) :
    WF ⟨List.replicate (kCheapPrepend + initialSize) 0, kCheapPrepend, kCheapPrepend⟩ := by
  refine ⟨Nat.le_refl _, Nat.le_refl _, ?_, ?_⟩
  · simp
  · simpa using h

theorem content_new {initialSize : Nat} :
    content ⟨List.replicate (kCheapPrepend + initialSize) 0, kCheapPrepend, kCheapPrepend⟩ =
      [] := by
  simp [content, peek, readableBytes, sub_kCheapPrepend_self]

/-! ## Taking from the front -/

theorem wf_retrieveAll {b : Buffer} (h : b.WF) : b.retrieveAll.WF := by
  have h8 := h.prepend_le
  have hr := h.reader_le
  have hw := h.writer_le
  refine ⟨Nat.le_refl _, Nat.le_refl _, ?_, h.fits⟩
  simp only [retrieveAll]
  omega

theorem content_retrieveAll (b : Buffer) : b.retrieveAll.content = [] := by
  simp [content, peek, readableBytes, retrieveAll, sub_kCheapPrepend_self]

theorem retrieve_spec {b : Buffer} (h : b.WF) {len : Nat} (hlen : len ≤ b.readableBytes) :
    ∃ b', b.retrieve len = .ok b' ∧ b'.WF ∧ b'.content = b.content.drop len := by
  rw [retrieve, require_ok hlen, ok_bind]
  split
  · rename_i hlt
    have h8 := h.prepend_le
    have hr := h.reader_le
    have hw := h.writer_le
    have hread := readableBytes_eq h
    have hindex : b.readerIndex ≤ b.buffer.length := by omega
    have hadd : SizeT.add b.readerIndex len = b.readerIndex + len :=
      SizeT.add_eq_of_le_maxSize (Nat.le_trans hindex h.fits)
        (Nat.le_trans hlen (readableBytes_le h))
    have hwf : WF { b with readerIndex := SizeT.add b.readerIndex len } := by
      refine ⟨?_, ?_, hw, h.fits⟩ <;> simp only [hadd] <;> omega
    refine ⟨_, rfl, hwf, ?_⟩
    rw [content_eq hwf, content_eq h, drop_window, hadd]
    simp only [Nat.sub_sub]
  · rename_i hge
    refine ⟨_, rfl, wf_retrieveAll h, ?_⟩
    rw [content_retrieveAll, List.drop_eq_nil_of_le]
    rw [length_content h]
    omega

theorem retrieveAsString_spec {b : Buffer} (h : b.WF) {len : Nat}
    (hlen : len ≤ b.readableBytes) :
    ∃ b', b.retrieveAsString len = .ok (b.content.take len, b') ∧ b'.WF ∧
      b'.content = b.content.drop len := by
  obtain ⟨b', hb', hwf, hcontent⟩ := retrieve_spec h hlen
  refine ⟨b', ?_, hwf, hcontent⟩
  simp only [retrieveAsString, require_ok hlen, ok_bind, hb', peek_eq_take h hlen]

theorem peekInt_spec {k : Nat} {b : Buffer} (h : b.WF) (hlen : k ≤ b.readableBytes) :
    b.peekInt k = .ok (ofBigEndian k (b.content.take k)) := by
  simp only [peekInt, require_ok hlen, ok_bind, peek_eq_take h hlen]

theorem readInt_spec {k : Nat} {b : Buffer} (h : b.WF) (hlen : k ≤ b.readableBytes) :
    ∃ b', b.readInt k = .ok (ofBigEndian k (b.content.take k), b') ∧ b'.WF ∧
      b'.content = b.content.drop k := by
  obtain ⟨b', hb', hwf, hcontent⟩ := retrieve_spec h hlen
  refine ⟨b', ?_, hwf, hcontent⟩
  simp only [readInt, peekInt_spec h hlen, ok_bind, hb']

/-! ## Making room -/

/-- Growing the storage behind the write index. -/
theorem resize_spec {b : Buffer} (h : b.WF) {len : Nat} (hroom : b.writeableBytes < len) :
    Ensures (b.resize (b.writerIndex + len))
      (fun b' => b'.WF ∧ b'.content = b.content ∧ len ≤ b'.writeableBytes) Refused := by
  have hr := h.reader_le
  have hw := h.writer_le
  rw [writeableBytes_eq h] at hroom
  rw [resize]
  split
  · rename_i hmax
    have htake : b.buffer.take (b.writerIndex + len) = b.buffer := by
      refine List.take_of_length_le ?_
      clear hmax
      omega
    have hlength : (b.buffer ++
        List.replicate (b.writerIndex + len - b.buffer.length) (0 : UInt8)).length =
          b.writerIndex + len := by
      rw [List.length_append, List.length_replicate]
      clear hmax
      omega
    have hgrown : WF { b with
        buffer := b.buffer ++
          List.replicate (b.writerIndex + len - b.buffer.length) 0 } := by
      refine ⟨h.prepend_le, hr, ?_, ?_⟩
      · rw [hlength]
        exact Nat.le_add_right _ _
      · rw [hlength]
        exact hmax
    have hrange : b.readerIndex + (b.writerIndex - b.readerIndex) ≤ b.buffer.length := by
      clear hmax
      omega
    rw [htake]
    refine ⟨hgrown, ?_, ?_⟩
    · rw [content_eq hgrown, content_eq h]
      exact window_append_right _ _ hrange
    · rw [writeableBytes_eq hgrown, hlength]
      exact Nat.le_of_eq (Nat.add_sub_cancel_left _ _).symm
  · rfl

/-- Moving the content down to the start of the storage. -/
theorem compact_spec {b : Buffer} (h : b.WF) :
    ∃ b', (do
      let storage ← copyTo b.buffer kCheapPrepend (b.peek b.readableBytes)
      .ok { buffer := storage
            readerIndex := kCheapPrepend
            writerIndex := SizeT.add kCheapPrepend b.readableBytes : Buffer }) = .ok b' ∧
      b'.WF ∧ b'.content = b.content ∧
      b'.writeableBytes = b.buffer.length - b.writerIndex + b.readerIndex - kCheapPrepend := by
  have h8 := h.prepend_le
  have hr := h.reader_le
  have hw := h.writer_le
  have hpeek : (b.peek b.readableBytes).length = b.writerIndex - b.readerIndex := by
    rw [← readableBytes_eq h]
    exact length_content h
  have hcopy : kCheapPrepend + (b.peek b.readableBytes).length ≤ b.buffer.length := by
    omega
  have hfront : kCheapPrepend ≤ b.buffer.length := by omega
  have hadd : SizeT.add kCheapPrepend b.readableBytes =
      kCheapPrepend + (b.writerIndex - b.readerIndex) := by
    rw [← readableBytes_eq h]
    exact SizeT.add_eq_of_le_maxSize (Nat.le_trans hfront h.fits) (readableBytes_le h)
  have hmoved : WF
      { buffer := overwrite b.buffer kCheapPrepend (b.peek b.readableBytes)
        readerIndex := kCheapPrepend
        writerIndex := kCheapPrepend + (b.writerIndex - b.readerIndex) } := by
    refine ⟨Nat.le_refl _, Nat.le_add_right _ _, ?_, ?_⟩
    · rw [length_overwrite hcopy]
      dsimp only
      omega
    · rw [length_overwrite hcopy]
      exact h.fits
  refine ⟨_, ?_, hmoved, ?_, ?_⟩
  · rw [copyTo_ok hcopy, ok_bind, hadd]
  · have hwin := window_overwrite_end (Nat.le_refl kCheapPrepend) hcopy
    rw [Nat.sub_self, Nat.zero_add, window_zero, List.nil_append, hpeek] at hwin
    rw [content_eq hmoved]
    dsimp only
    rw [Nat.add_sub_cancel_left]
    exact hwin
  · rw [writeableBytes_eq hmoved, length_overwrite hcopy]
    dsimp only
    omega

/-- `makeSpace` keeps the content and leaves room for `len` bytes, whether it
grows the storage or moves the content down. -/
theorem makeSpace_spec {b : Buffer} (h : b.WF) {len : Nat} (hlen : len ≤ SizeT.maxSize)
    (hroom : b.writeableBytes < len) :
    Ensures (b.makeSpace len)
      (fun b' => b'.WF ∧ b'.content = b.content ∧ len ≤ b'.writeableBytes) Refused := by
  rw [makeSpace, reclaimable_eq h]
  split
  · have hadd : SizeT.add b.writerIndex len = b.writerIndex + len :=
      SizeT.add_eq_of_le_maxSize (Nat.le_trans h.writer_le h.fits) hlen
    rw [hadd]
    exact resize_spec h hroom
  · rename_i hreclaim
    -- room in front is what makes the difference, so the assertion holds
    rw [writeableBytes_eq h] at hroom
    have hlt : kCheapPrepend < b.readerIndex := by
      clear hlen
      omega
    obtain ⟨b', hb', hwf, hcontent, hspace⟩ := compact_spec h
    rw [require_ok hlt, ok_bind]
    dsimp only
    rw [hb']
    refine ⟨hwf, hcontent, ?_⟩
    rw [hspace]
    exact Nat.le_of_not_lt hreclaim

theorem ensureWriteableBytes_spec {b : Buffer} (h : b.WF) {len : Nat}
    (hlen : len ≤ SizeT.maxSize) :
    Ensures (b.ensureWriteableBytes len)
      (fun b' => b'.WF ∧ b'.content = b.content ∧ len ≤ b'.writeableBytes) Refused := by
  have hspace : Ensures (if b.writeableBytes < len then b.makeSpace len else .ok b)
      (fun b' => b'.WF ∧ b'.content = b.content ∧ len ≤ b'.writeableBytes) Refused := by
    split
    · rename_i hlt
      exact makeSpace_spec h hlen hlt
    · rename_i hge
      exact ⟨h, rfl, Nat.le_of_not_lt hge⟩
  rw [ensureWriteableBytes]
  refine Ensures.bind hspace fun b' hb' => ?_
  exact Ensures.require hb'.2.2 hb'

/-! ## Appending and prepending -/

/-- Bytes stored at the write index and then taken over by moving it. -/
theorem wf_written {b : Buffer} (h : b.WF) {bytes : List UInt8}
    (hroom : bytes.length ≤ b.writeableBytes) :
    WF { b with
      buffer := overwrite b.buffer b.writerIndex bytes
      writerIndex := b.writerIndex + bytes.length } := by
  have hr := h.reader_le
  have hw := h.writer_le
  rw [writeableBytes_eq h] at hroom
  have hfit : b.writerIndex + bytes.length ≤ b.buffer.length := by omega
  refine ⟨h.prepend_le, Nat.le_trans hr (Nat.le_add_right _ _), ?_, ?_⟩
  · rw [length_overwrite hfit]
    exact hfit
  · rw [length_overwrite hfit]
    exact h.fits

theorem content_written {b : Buffer} (h : b.WF) {bytes : List UInt8}
    (hroom : bytes.length ≤ b.writeableBytes) :
    content { b with
      buffer := overwrite b.buffer b.writerIndex bytes
      writerIndex := b.writerIndex + bytes.length } = b.content ++ bytes := by
  have hwf := wf_written h hroom
  have hr := h.reader_le
  have hw := h.writer_le
  rw [writeableBytes_eq h] at hroom
  have hfit : b.writerIndex + bytes.length ≤ b.buffer.length := by omega
  have hsplit : b.writerIndex + bytes.length - b.readerIndex =
      b.writerIndex - b.readerIndex + bytes.length := by omega
  rw [content_eq hwf, content_eq h]
  dsimp only
  rw [hsplit]
  exact window_overwrite_end hr hfit

/-- Where there is room, the bytes are stored and taken over. -/
theorem written_spec {b : Buffer} (bytes : List UInt8) {len : Nat} (h : b.WF)
    (hlen : bytes.length = len) (hroom : len ≤ b.writeableBytes) :
    ∃ b', (do
      let storage ← copyTo b.buffer b.writerIndex bytes
      hasWritten len { b with buffer := storage }) = .ok b' ∧
      b'.WF ∧ b'.content = b.content ++ bytes := by
  subst hlen
  have hspace := writeableBytes_eq h
  have hw := h.writer_le
  have hfit : b.writerIndex + bytes.length ≤ b.buffer.length := by omega
  have hsmall : bytes.length ≤ b.buffer.length := by omega
  have hadd : SizeT.add b.writerIndex bytes.length = b.writerIndex + bytes.length :=
    SizeT.add_eq_of_le_maxSize (Nat.le_trans hw h.fits) (Nat.le_trans hsmall h.fits)
  have hstored : writeableBytes { b with buffer := overwrite b.buffer b.writerIndex bytes } =
      b.writeableBytes := by
    simp only [writeableBytes, length_overwrite hfit]
  refine ⟨_, ?_, wf_written h hroom, content_written h hroom⟩
  rw [copyTo_ok hfit, ok_bind, hasWritten, hstored, require_ok hroom, ok_bind, hadd]

theorem append_spec {b : Buffer} (h : b.WF) (bytes : Bytes) :
    Ensures (b.append bytes)
      (fun b' => b'.WF ∧ b'.content = b.content ++ bytes.data) Refused := by
  rw [append]
  refine Ensures.bind (ensureWriteableBytes_spec h bytes.length_le) ?_
  rintro b₁ ⟨hwf, hcontent, hroom⟩
  obtain ⟨b₂, hb₂, hwf₂, hcontent₂⟩ := written_spec bytes.data hwf rfl hroom
  rw [← hcontent]
  dsimp only [Bytes.length]
  rw [hb₂]
  exact ⟨hwf₂, hcontent₂⟩

theorem prepend_spec {b : Buffer} (h : b.WF) {bytes : Bytes}
    (hlen : bytes.length ≤ SizeT.sub b.prependableBytes kCheapPrepend) :
    ∃ b', b.prepend bytes = .ok b' ∧ b'.WF ∧ b'.content = bytes.data ++ b.content := by
  have h8 := h.prepend_le
  have hr := h.reader_le
  have hw := h.writer_le
  have hread : b.readerIndex ≤ SizeT.maxSize :=
    Nat.le_trans hr (Nat.le_trans hw h.fits)
  have hroom : bytes.data.length ≤ b.readerIndex - kCheapPrepend := by
    rw [prependableBytes, SizeT.sub_eq_of_le_maxSize h8 hread] at hlen
    exact hlen
  have hindex : SizeT.sub b.readerIndex bytes.length = b.readerIndex - bytes.data.length :=
    SizeT.sub_eq_of_le_maxSize (Nat.le_trans hroom (Nat.sub_le _ _)) hread
  clear hread
  have hback : b.readerIndex - bytes.data.length + bytes.data.length = b.readerIndex := by
    omega
  have hfit : b.readerIndex - bytes.data.length + bytes.data.length ≤ b.buffer.length := by
    omega
  have hnew : WF { b with
      buffer := overwrite b.buffer (b.readerIndex - bytes.data.length) bytes.data
      readerIndex := b.readerIndex - bytes.data.length } := by
    refine ⟨?_, Nat.le_trans (Nat.sub_le _ _) hr, ?_, ?_⟩
    · dsimp only
      omega
    · rw [length_overwrite hfit]
      exact hw
    · rw [length_overwrite hfit]
      exact h.fits
  refine ⟨_, ?_, hnew, ?_⟩
  · rw [prepend, require_ok hlen, ok_bind]
    dsimp only
    rw [hindex, copyTo_ok hfit, ok_bind]
  · have hwin := window_overwrite_start (n := b.writerIndex - b.readerIndex) hfit
    rw [hback] at hwin
    have hsplit : b.writerIndex - (b.readerIndex - bytes.data.length) =
        bytes.data.length + (b.writerIndex - b.readerIndex) := by omega
    rw [content_eq hnew, content_eq h]
    dsimp only
    rw [hsplit]
    exact hwin

/-! ## Reading from the descriptor -/

/-- What the kernel delivers past the tail of the buffer fits `extrabuf`. -/
theorem extrabuf_delivered (b : Buffer) (bytes : List UInt8) :
    (extrabuf ((bytes.take b.readvSpace).drop b.writeableBytes)).data =
      (bytes.take b.readvSpace).drop b.writeableBytes := by
  refine List.take_of_length_le ?_
  rw [List.length_drop]
  refine Nat.sub_le_of_le_add (Nat.le_trans (List.length_take_le _ _) ?_)
  unfold readvSpace
  split
  · exact Nat.le_of_eq (Nat.add_comm _ _)
  · exact Nat.le_add_left _ _

/-- A successful read appends what the kernel delivered, in order, wherever the
delivery was split. -/
theorem readFd_spec {b : Buffer} (h : b.WF) (bytes : List UInt8) :
    Ensures (b.readFd (.data bytes))
      (fun r => r.1 = ((bytes.take b.readvSpace).length : Int) ∧ r.2.WF ∧
        r.2.content = b.content ++ bytes.take b.readvSpace) Refused := by
  have hextra := extrabuf_delivered b bytes
  simp only [readFd]
  generalize bytes.take b.readvSpace = delivered at hextra
  have hw := h.writer_le
  have hroom := writeableBytes_eq h
  have htail : (delivered.take b.writeableBytes).length ≤ b.writeableBytes :=
    List.length_take_le _ _
  have hfit : b.writerIndex + (delivered.take b.writeableBytes).length ≤ b.buffer.length := by
    omega
  rw [copyTo_ok hfit, ok_bind]
  split
  · rename_i hn
    have htake : delivered.take b.writeableBytes = delivered := List.take_of_length_le hn
    have hdelivered : delivered.length ≤ b.buffer.length := by omega
    have hadd : SizeT.add b.writerIndex delivered.length =
        b.writerIndex + delivered.length :=
      SizeT.add_eq_of_le_maxSize (Nat.le_trans hw h.fits) (Nat.le_trans hdelivered h.fits)
    rw [htake, hadd]
    exact ⟨rfl, wf_written h hn, content_written h hn⟩
  · rename_i hn
    have hfull : (delivered.take b.writeableBytes).length = b.writeableBytes := by
      rw [List.length_take]
      omega
    have hend : (overwrite b.buffer b.writerIndex (delivered.take b.writeableBytes)).length =
        b.writerIndex + (delivered.take b.writeableBytes).length := by
      rw [length_overwrite hfit]
      omega
    rw [hend]
    refine Ensures.bind (append_spec (wf_written h htail) _) ?_
    rintro b' ⟨hwf, hcontent⟩
    refine ⟨rfl, hwf, ?_⟩
    rw [hcontent, content_written h htail, hextra, List.append_assoc, List.take_append_drop]

end CppWeb.Buffer
