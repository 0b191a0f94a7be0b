/-
  Buffer/Own.lean --- appending what the buffer itself holds.

  `append` is given a pointer and reads through it only after it has made room.
  Bytes from elsewhere are by then what they were.  Bytes of the same storage,
  readable or not, are if there was room already, or if the vector grew where it
  stands; when the vector has taken new storage the pointer dangles, and when the
  content was moved down the pointer still points to the same place, where other
  bytes may lie by now.
-/
import CppWeb.Buffer.Content

set_option autoImplicit false

namespace CppWeb.Buffer

open CppWeb.Foundation

/-- How far `makeSpace` moves the content down. -/
def slack (b : Buffer) : Nat := b.readerIndex - kCheapPrepend

/-- The `len` bytes at index `pos` are still there when they are appended: there
is room already; or the vector grows in place, or not at all; or the content is
moved down and each byte that comes to lie under the pointer equals the one that
lay there. -/
def Undisturbed (b : Buffer) (pos len : Nat) (moved : Bool) : Prop :=
  len ≤ b.writeableBytes ∨
    if SizeT.sub (SizeT.add b.writeableBytes b.prependableBytes) kCheapPrepend < len then
      moved = false ∨ SizeT.maxSize < b.writerIndex + len
    else
      ∀ k < pos + len, pos ≤ k → kCheapPrepend ≤ k → k < kCheapPrepend + b.readableBytes →
        b.buffer[k + b.slack]? = b.buffer[k]?

instance (b : Buffer) (pos len : Nat) (moved : Bool) : Decidable (b.Undisturbed pos len moved) :=
  inferInstanceAs (Decidable (_ ∨ ite _ _ _))

theorem len_le_maxSize {b : Buffer} (h : b.WF) {pos len : Nat}
    (hpre : pos + len ≤ b.buffer.length) : len ≤ SizeT.maxSize :=
  Nat.le_trans (Nat.le_trans (Nat.le_add_left _ _) hpre) h.fits

/-! ## The three ways of making room -/

section Room

variable {b : Buffer} {len : Nat}

theorem ensureWriteableBytes_of_room (hroom : len ≤ b.writeableBytes) :
    b.ensureWriteableBytes len = .ok b := by
  rw [ensureWriteableBytes, if_neg (Nat.not_lt.mpr hroom), ok_bind, require_ok hroom, ok_bind]

theorem ensureWriteableBytes_of_makeSpace {g : Buffer} (hroom : b.writeableBytes < len)
    (hg : b.makeSpace len = .ok g) (henough : len ≤ g.writeableBytes) :
    b.ensureWriteableBytes len = .ok g := by
  rw [ensureWriteableBytes, if_pos hroom, hg, ok_bind, require_ok henough, ok_bind]

/-- The vector grows. -/
theorem makeSpace_of_grow (h : b.WF) (hlen : len ≤ SizeT.maxSize)
    (hroom : b.writeableBytes < len)
    (hgrow : SizeT.sub (SizeT.add b.writeableBytes b.prependableBytes) kCheapPrepend < len)
    (hmax : b.writerIndex + len ≤ SizeT.maxSize) :
    b.makeSpace len = .ok { b with
      buffer := b.buffer ++ List.replicate (b.writerIndex + len - b.buffer.length) 0 } := by
  have hadd : SizeT.add b.writerIndex len = b.writerIndex + len :=
    SizeT.add_eq_of_le_maxSize (Nat.le_trans h.writer_le h.fits) hlen
  have hlong : b.buffer.length ≤ b.writerIndex + len := by
    have hw := h.writer_le
    rw [writeableBytes_eq h] at hroom
    clear hmax
    omega
  rw [makeSpace, if_pos hgrow, hadd, resize, if_pos hmax, List.take_of_length_le hlong]

theorem makeSpace_of_refuse (h : b.WF) (hlen : len ≤ SizeT.maxSize)
    (hgrow : SizeT.sub (SizeT.add b.writeableBytes b.prependableBytes) kCheapPrepend < len)
    (hmax : SizeT.maxSize < b.writerIndex + len) : b.makeSpace len = .error .lengthError := by
  have hadd : SizeT.add b.writerIndex len = b.writerIndex + len :=
    SizeT.add_eq_of_le_maxSize (Nat.le_trans h.writer_le h.fits) hlen
  rw [makeSpace, if_pos hgrow, hadd, resize, if_neg (Nat.not_le.mpr hmax)]

/-- The content is moved down. -/
theorem makeSpace_of_move (h : b.WF) (hroom : b.writeableBytes < len)
    (hmove : ¬ SizeT.sub (SizeT.add b.writeableBytes b.prependableBytes) kCheapPrepend < len) :
    b.makeSpace len = .ok
      { buffer := overwrite b.buffer kCheapPrepend b.content
        readerIndex := kCheapPrepend
        writerIndex := kCheapPrepend + b.readableBytes } := by
  have h8 := h.prepend_le
  have hr := h.reader_le
  have hw := h.writer_le
  have hread := readableBytes_eq h
  have hlength := length_content h
  have hcopy : kCheapPrepend + b.content.length ≤ b.buffer.length := by omega
  have hfront : kCheapPrepend ≤ b.buffer.length := by omega
  have hadd : SizeT.add kCheapPrepend b.readableBytes = kCheapPrepend + b.readableBytes :=
    SizeT.add_eq_of_le_maxSize (Nat.le_trans hfront h.fits) (readableBytes_le h)
  have hlt : kCheapPrepend < b.readerIndex := by
    rw [reclaimable_eq h] at hmove
    rw [writeableBytes_eq h] at hroom
    omega
  rw [makeSpace, if_neg hmove, require_ok hlt, ok_bind]
  dsimp only
  rw [← content, copyTo_ok hcopy, ok_bind, hadd]

end Room

/-! ## What is appended -/

section Appending

variable {b g : Buffer} {pos len : Nat} {moved : Bool}

/-- The bytes under the pointer once room has been made are appended. -/
theorem appendOwn_of_room (hg : g.WF) (hensure : b.ensureWriteableBytes len = .ok g)
    (hroom : len ≤ g.writeableBytes)
    (hkept : ¬ (b.buffer.length < g.buffer.length ∧ moved = true)) {bytes : List UInt8}
    (hbytes : window g.buffer pos len = bytes) (hlen : bytes.length = len) :
    ∃ b', b.appendOwn pos len moved = .ok b' ∧ b'.WF ∧ b'.content = g.content ++ bytes := by
  obtain ⟨b', hb', hspec⟩ := written_spec bytes hg hlen hroom
  refine ⟨b', ?_, hspec⟩
  simp only [appendOwn, hensure, ok_bind, if_neg hkept, hbytes]
  exact hb'

/-- There is room for the content at the front. -/
theorem content_fits (h : b.WF) : kCheapPrepend + b.content.length ≤ b.buffer.length := by
  have h8 := h.prepend_le
  have hr := h.reader_le
  have hw := h.writer_le
  have hread := readableBytes_eq h
  have hlength := length_content h
  omega

/-- After the content was moved down, the same bytes lie under the pointer
exactly if those moved there equal those that were there. -/
theorem window_move_eq_iff (h : b.WF) (pos len : Nat) :
    window (overwrite b.buffer kCheapPrepend b.content) pos len = window b.buffer pos len ↔
      ∀ k < pos + len, pos ≤ k → kCheapPrepend ≤ k → k < kCheapPrepend + b.readableBytes →
        b.buffer[k + b.slack]? = b.buffer[k]? := by
  have h8 := h.prepend_le
  have hr := h.reader_le
  have hread := readableBytes_eq h
  -- the byte that is moved to index `k`
  have hbyte : ∀ k, kCheapPrepend ≤ k → k < kCheapPrepend + b.readableBytes →
      b.content[k - kCheapPrepend]? = b.buffer[k + b.slack]? := by
    intro k hk hend
    have hindex : b.readerIndex + (k - kCheapPrepend) = k + b.slack := by
      unfold slack
      omega
    rw [content_eq h, getElem?_window, if_pos (by omega), hindex]
  rw [window_overwrite_eq_iff (content_fits h), length_content h]
  constructor
  · intro hall k hk hpos hfront hend
    rw [← hbyte k hfront hend]
    exact hall k hk hpos hfront hend
  · intro hall k hk hpos hfront hend
    rw [hbyte k hfront hend]
    exact hall k hk hpos hfront hend

theorem undisturbed_iff_of_grow (hroom : ¬ len ≤ b.writeableBytes)
    (hgrow : SizeT.sub (SizeT.add b.writeableBytes b.prependableBytes) kCheapPrepend < len) :
    b.Undisturbed pos len moved ↔ moved = false ∨ SizeT.maxSize < b.writerIndex + len := by
  rw [Undisturbed, if_pos hgrow, or_iff_right hroom]

theorem undisturbed_iff_of_move (hroom : ¬ len ≤ b.writeableBytes)
    (hmove : ¬ SizeT.sub (SizeT.add b.writeableBytes b.prependableBytes) kCheapPrepend < len) :
    b.Undisturbed pos len moved ↔
      ∀ k < pos + len, pos ≤ k → kCheapPrepend ≤ k → k < kCheapPrepend + b.readableBytes →
        b.buffer[k + b.slack]? = b.buffer[k]? := by
  rw [Undisturbed, if_neg hmove, or_iff_right hroom]

/-- What an append of the `len` bytes at index `pos` ends in. -/
inductive Appended (b : Buffer) (pos len : Nat) (moved : Bool) : Except Abort Buffer → Prop where
  /-- some bytes were appended: those it was called for if they were undisturbed -/
  | stored (b' : Buffer) (bytes : List UInt8) (hwf : b'.WF) (hlen : bytes.length = len)
      (hcontent : b'.content = b.content ++ bytes)
      (hbytes : bytes = window b.buffer pos len ↔ b.Undisturbed pos len moved) :
      Appended b pos len moved (.ok b')
  /-- the vector cannot grow that far -/
  | refused (hkept : b.Undisturbed pos len moved) : Appended b pos len moved (.error .lengthError)
  /-- the pointer dangles -/
  | dangling (hlost : ¬ b.Undisturbed pos len moved) :
      Appended b pos len moved (.error .useAfterFree)

/-- The vector grows. -/
theorem appended_of_grow (h : b.WF) (hpre : pos + len ≤ b.buffer.length)
    (hroom : ¬ len ≤ b.writeableBytes)
    (hgrow : SizeT.sub (SizeT.add b.writeableBytes b.prependableBytes) kCheapPrepend < len)
    (hmax : b.writerIndex + len ≤ SizeT.maxSize) :
    b.Appended pos len moved (b.appendOwn pos len moved) := by
  have hlen := len_le_maxSize h hpre
  have hshort := Nat.lt_of_not_le hroom
  have hspace := makeSpace_of_grow h hlen hshort hgrow hmax
  obtain ⟨hwf, hcontent, henough⟩ := (makeSpace_spec h hlen hshort).of_ok hspace
  have hensure := ensureWriteableBytes_of_makeSpace hshort hspace henough
  have hiff : b.Undisturbed pos len moved ↔
      moved = false ∨ SizeT.maxSize < b.writerIndex + len := undisturbed_iff_of_grow hroom hgrow
  cases moved with
  | true =>
    have hlonger : b.buffer.length < (b.buffer ++
        List.replicate (b.writerIndex + len - b.buffer.length) (0 : UInt8)).length := by
      have hspace := writeableBytes_eq h
      have hw := h.writer_le
      rw [List.length_append, List.length_replicate]
      clear hmax hiff
      omega
    have hdangles : b.appendOwn pos len true = .error .useAfterFree := by
      simp only [appendOwn, hensure, ok_bind]
      rw [if_pos ⟨hlonger, trivial⟩]
    rw [hdangles]
    refine .dangling fun hkept => ?_
    rcases hiff.mp hkept with hfalse | hlarge
    · cases hfalse
    · exact Nat.not_lt.mpr hmax hlarge
  | false =>
    obtain ⟨b', hb', hwf', hcontent'⟩ := appendOwn_of_room hwf hensure henough
      (fun hgrown => Bool.false_ne_true hgrown.2) (window_append_right _ _ hpre)
      (length_window hpre)
    rw [hb']
    rw [hcontent] at hcontent'
    exact .stored b' _ hwf' (length_window hpre) hcontent'
      (iff_of_true rfl (hiff.mpr (Or.inl rfl)))

/-- The content is moved down. -/
theorem appended_of_move (h : b.WF) (hpre : pos + len ≤ b.buffer.length)
    (hroom : ¬ len ≤ b.writeableBytes)
    (hmove : ¬ SizeT.sub (SizeT.add b.writeableBytes b.prependableBytes) kCheapPrepend < len) :
    b.Appended pos len moved (b.appendOwn pos len moved) := by
  have hshort := Nat.lt_of_not_le hroom
  have hspace := makeSpace_of_move h hshort hmove
  obtain ⟨hwf, hcontent, henough⟩ :=
    (makeSpace_spec h (len_le_maxSize h hpre) hshort).of_ok hspace
  have hensure := ensureWriteableBytes_of_makeSpace hshort hspace henough
  have hsame : (overwrite b.buffer kCheapPrepend b.content).length = b.buffer.length :=
    length_overwrite (content_fits h)
  have hlen : (window (overwrite b.buffer kCheapPrepend b.content) pos len).length = len :=
    length_window (hsame ▸ hpre)
  obtain ⟨b', hb', hwf', hcontent'⟩ := appendOwn_of_room hwf hensure henough
    (fun hgrown => Nat.lt_irrefl _ (hsame ▸ hgrown.1)) rfl hlen
  rw [hb']
  rw [hcontent] at hcontent'
  exact .stored b' _ hwf' hlen hcontent'
    ((window_move_eq_iff h pos len).trans (undisturbed_iff_of_move hroom hmove).symm)

/-- **Appending from the buffer itself.**  The bytes pointed to are appended
exactly if they are undisturbed; no assertion fails. -/
theorem appendOwn_spec (moved : Bool) (h : b.WF) (hpre : pos + len ≤ b.buffer.length) :
    b.Appended pos len moved (b.appendOwn pos len moved) := by
  by_cases hroom : len ≤ b.writeableBytes
  · obtain ⟨b', hb', hwf, hcontent⟩ := appendOwn_of_room h
      (ensureWriteableBytes_of_room hroom) hroom (fun hgrown => Nat.lt_irrefl _ hgrown.1)
      rfl (length_window hpre)
    rw [hb']
    exact .stored b' _ hwf (length_window hpre) hcontent (iff_of_true rfl (Or.inl hroom))
  by_cases hgrow :
      SizeT.sub (SizeT.add b.writeableBytes b.prependableBytes) kCheapPrepend < len
  · by_cases hmax : b.writerIndex + len ≤ SizeT.maxSize
    · exact appended_of_grow h hpre hroom hgrow hmax
    · have hlarge := Nat.lt_of_not_le hmax
      have hrefuse := makeSpace_of_refuse h (len_le_maxSize h hpre) hgrow hlarge
      have hrefused : b.appendOwn pos len moved = .error .lengthError := by
        simp only [appendOwn, ensureWriteableBytes, if_pos (Nat.lt_of_not_le hroom), hrefuse,
          error_bind]
      rw [hrefused]
      exact .refused ((undisturbed_iff_of_grow hroom hgrow).mpr (Or.inr hlarge))
  · exact appended_of_move h hpre hroom hgrow

end Appending

end CppWeb.Buffer
