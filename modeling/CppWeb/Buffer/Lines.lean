/-
  Buffer/Lines.lean --- searching a buffer for the ends of lines.

  The searches look at the range from their start to the write index and at
  nothing else: they return the first end of a line that lies in this range, and
  null when there is none.  Bytes of earlier traffic, which the storage still
  holds on both sides of the content, are never looked at.

  A reader of lines feeds a buffer by `append` and `readFd` and takes complete
  lines off its front, in any order.  What it has taken off and what is left are
  the pieces of the stream it was fed, however the stream was cut.
-/
import CppWeb.Buffer.Reached
import Mathlib.Order.Bounds.Basic

set_option autoImplicit false

namespace CppWeb.Buffer

open CppWeb.Foundation

/-! ## What a search should return -/

/-- CR LF stands at index `p`, both bytes before the write index. -/
def IsCRLF (b : Buffer) (p : Nat) : Prop :=
  p + 2 ≤ b.writerIndex ∧ b.buffer[p]? = some 13 ∧ b.buffer[p + 1]? = some 10

/-- LF stands at index `p`, before the write index. -/
def IsEOL (b : Buffer) (p : Nat) : Prop :=
  p + 1 ≤ b.writerIndex ∧ b.buffer[p]? = some 10

/-- The least index from `start` on, null exactly when there is none. -/
def Found (at_ : Nat → Prop) (start : Nat) (found : Option Nat) : Prop :=
  (∀ p, found = some p → IsLeast {q | start ≤ q ∧ at_ q} p) ∧
    (found = none ↔ ∀ q, start ≤ q → ¬ at_ q)

/-- The two buffers have the same readable bytes at the same place. -/
structure SameReadable (b b' : Buffer) : Prop where
  reader : b'.readerIndex = b.readerIndex
  writer : b'.writerIndex = b.writerIndex
  bytes : ∀ p, b.readerIndex ≤ p → p < b.writerIndex → b'.buffer[p]? = b.buffer[p]?

/-- The four searches return what they should, and look at readable bytes
only. -/
structure SearchExact (b : Buffer) : Prop where
  findCRLF : Found b.IsCRLF b.readerIndex b.findCRLF
  findCRLFFrom : ∀ start, b.readerIndex ≤ start → start ≤ b.writerIndex →
    ∃ r, b.findCRLFFrom start = .ok r ∧ Found b.IsCRLF start r
  findEOL : Found b.IsEOL b.readerIndex b.findEOL
  findEOLFrom : ∀ start, b.readerIndex ≤ start → start ≤ b.writerIndex →
    ∃ r, b.findEOLFrom start = .ok r ∧ Found b.IsEOL start r
  stale : ∀ b', b.SameReadable b' →
    b'.findCRLF = b.findCRLF ∧ b'.findEOL = b.findEOL ∧
      ∀ start, b.readerIndex ≤ start → b'.findCRLFFrom start = b.findCRLFFrom start ∧
        b'.findEOLFrom start = b.findEOLFrom start

/-! ## Ranges of the storage -/

theorem getElem?_window {s : List UInt8} {i n j : Nat} :
    (window s i n)[j]? = if j < n then s[i + j]? else none := by
  rw [window, List.getElem?_take]
  split
  · rw [List.getElem?_drop]
  · rfl

/-- The range from `start` to the write index lies within the storage. -/
def Within (b : Buffer) (start : Nat) : Prop :=
  start ≤ b.writerIndex ∧ (start = b.writerIndex ∨ b.writerIndex ≤ b.buffer.length)

theorem Within.length {b : Buffer} {start : Nat} (h : b.Within start) :
    start + (b.upToWrite start).length = b.writerIndex := by
  obtain ⟨hle, hend⟩ := h
  rw [upToWrite, window, List.length_take, List.length_drop]
  omega

theorem prefix_pair_iff {x y : UInt8} {l : List UInt8} :
    [x, y] <+: l ↔ l[0]? = some x ∧ l[1]? = some y := by
  cases l with
  | nil => simp
  | cons a rest =>
    cases rest with
    | nil => simp
    | cons a' rest =>
      simp only [List.cons_prefix_cons, List.nil_prefix, and_true, List.getElem?_cons_zero,
        List.getElem?_cons_succ, Option.some.injEq]
      exact and_congr eq_comm eq_comm

/-- CR LF in the range is CR LF in the buffer. -/
theorem occursAt_upToWrite {b : Buffer} {start i : Nat} (hstart : start ≤ b.writerIndex) :
    OccursAt kCRLF (b.upToWrite start) i ↔ b.IsCRLF (start + i) := by
  rw [OccursAt, kCRLF, prefix_pair_iff, List.getElem?_drop, List.getElem?_drop, upToWrite,
    getElem?_window, getElem?_window, IsCRLF]
  constructor
  · rintro ⟨hcr, hlf⟩
    split at hlf
    · rename_i hlt
      rw [if_pos (by omega)] at hcr
      exact ⟨by omega, hcr, hlf⟩
    · cases hlf
  · rintro ⟨hend, hcr, hlf⟩
    rw [if_pos (by omega), if_pos (by omega)]
    exact ⟨hcr, hlf⟩

/-- A least index of the range, counted from its start, is a least index of the
buffer. -/
theorem found_of_least {at_ : Nat → Prop} {start i : Nat} (hi : at_ (start + i))
    (hfirst : ∀ j, j < i → ¬ at_ (start + j)) : Found at_ start (some (start + i)) := by
  constructor
  · intro p hp
    cases hp
    refine ⟨⟨Nat.le_add_right _ _, hi⟩, ?_⟩
    rintro q ⟨hle, hq⟩
    by_contra hlt
    have hsplit : start + (q - start) = q := Nat.add_sub_cancel' hle
    refine hfirst (q - start) (by omega) ?_
    rw [hsplit]
    exact hq
  · constructor
    · intro hnone
      cases hnone
    · intro hno
      exact absurd hi (hno _ (Nat.le_add_right _ _))

theorem found_none {at_ : Nat → Prop} {start : Nat} (h : ∀ i, ¬ at_ (start + i)) :
    Found at_ start none := by
  constructor
  · intro p hp
    cases hp
  · refine ⟨fun _ q hle hq => ?_, fun _ => rfl⟩
    have hsplit : start + (q - start) = q := Nat.add_sub_cancel' hle
    refine h (q - start) ?_
    rw [hsplit]
    exact hq

theorem kCRLF_ne_nil : kCRLF ≠ [] := by decide

/-- **The search for CR LF is exact.** -/
theorem found_search {b : Buffer} {start : Nat} (h : b.Within start) :
    Found b.IsCRLF start (if start + search kCRLF (b.upToWrite start) = b.writerIndex then none
      else some (start + search kCRLF (b.upToWrite start))) := by
  have hlength := h.length
  have hoccurs := fun i => occursAt_upToWrite (i := i) h.1
  by_cases hnone : search kCRLF (b.upToWrite start) = (b.upToWrite start).length
  · rw [if_pos (by rw [hnone, hlength])]
    refine found_none fun i hi => ?_
    exact (search_eq_length_iff kCRLF_ne_nil).mp hnone i ((hoccurs i).mpr hi)
  · have hle := search_le kCRLF (b.upToWrite start)
    rw [if_neg (by omega)]
    refine found_of_least ?_ fun j hj hat => ?_
    · exact (hoccurs _).mp (occursAt_search (Nat.lt_of_le_of_ne hle hnone))
    · exact not_occursAt_of_lt_search hj ((hoccurs j).mpr hat)

theorem isEOL_iff {b : Buffer} {start i : Nat} (hstart : start ≤ b.writerIndex) :
    (b.upToWrite start)[i]? = some 10 ↔ b.IsEOL (start + i) := by
  rw [upToWrite, getElem?_window, IsEOL]
  constructor
  · intro hlf
    split at hlf
    · exact ⟨by omega, hlf⟩
    · cases hlf
  · rintro ⟨hend, hlf⟩
    rw [if_pos (by omega)]
    exact hlf

/-- **The search for LF is exact.** -/
theorem found_memchr {b : Buffer} {start : Nat} (hstart : start ≤ b.writerIndex) :
    Found b.IsEOL start ((memchr (b.upToWrite start) 10).map (start + ·)) := by
  have heol := fun i => isEOL_iff (i := i) hstart
  rw [memchr]
  cases hfind : (b.upToWrite start).findIdx? (· == 10) with
  | none =>
    rw [List.findIdx?_eq_none_iff] at hfind
    refine found_none fun i hi => ?_
    have hmem := List.mem_of_getElem? ((heol i).mpr hi)
    have hno := hfind 10 hmem
    simp at hno
  | some i =>
    rw [List.findIdx?_eq_some_iff_getElem] at hfind
    obtain ⟨hlt, hhit, hfirst⟩ := hfind
    refine found_of_least ((heol i).mp ?_) fun j hj hat => ?_
    · rw [List.getElem?_eq_getElem hlt]
      exact congrArg some (beq_iff_eq.mp hhit)
    · have hbyte := (heol j).mpr hat
      rw [List.getElem?_eq_getElem (Nat.lt_trans hj hlt), Option.some.injEq] at hbyte
      exact hfirst j hj (beq_iff_eq.mpr hbyte)

/-- The range looks at readable bytes only. -/
theorem SameReadable.upToWrite {b b' : Buffer} (h : b.SameReadable b') {start : Nat}
    (hstart : b.readerIndex ≤ start) : b'.upToWrite start = b.upToWrite start := by
  apply List.ext_getElem?
  intro i
  rw [Buffer.upToWrite, Buffer.upToWrite, getElem?_window, getElem?_window, h.writer]
  split
  · exact h.bytes (start + i) (by omega) (by omega)
  · rfl

/-- The range that `findEOL()` searches. -/
theorem peek_eq_upToWrite {b : Buffer} (hindex : b.readerIndex ≤ b.writerIndex)
    (hwriter : b.writerIndex < SizeT.modulus) :
    b.peek b.readableBytes = b.upToWrite b.readerIndex := by
  rw [peek, readableBytes, SizeT.sub_eq hindex hwriter, upToWrite]

theorem searchExact_of_within {b : Buffer}
    (h : ∀ start, b.readerIndex ≤ start → start ≤ b.writerIndex → b.Within start)
    (hindex : b.readerIndex ≤ b.writerIndex) (hwriter : b.writerIndex < SizeT.modulus) :
    b.SearchExact := by
  refine ⟨found_search (h _ (Nat.le_refl _) hindex), ?_, ?_, ?_, ?_⟩
  · intro start hpeek hwrite
    refine ⟨_, ?_, found_search (h start hpeek hwrite)⟩
    simp only [findCRLFFrom, require_ok hpeek, require_ok hwrite, ok_bind]
  · rw [findEOL, peek_eq_upToWrite hindex hwriter]
    exact found_memchr hindex
  · intro start hpeek hwrite
    refine ⟨_, ?_, found_memchr hwrite⟩
    simp only [findEOLFrom, require_ok hpeek, require_ok hwrite, ok_bind]
  · intro b' hsame
    have hreader := hsame.upToWrite (Nat.le_refl b.readerIndex)
    refine ⟨?_, ?_, fun start hstart => ⟨?_, ?_⟩⟩
    · simp only [findCRLF, hsame.reader, hsame.writer, hreader]
    · have hindex' : b'.readerIndex ≤ b'.writerIndex := by
        rw [hsame.reader, hsame.writer]
        exact hindex
      rw [findEOL, findEOL, peek_eq_upToWrite hindex hwriter,
        peek_eq_upToWrite hindex' (hsame.writer ▸ hwriter), hsame.reader, hreader]
    · simp only [findCRLFFrom, hsame.reader, hsame.writer, hsame.upToWrite hstart]
    · simp only [findEOLFrom, hsame.reader, hsame.writer, hsame.upToWrite hstart]

/-- **The searches are exact on every buffer** that a program can get hold of. -/
theorem Reached.searchExact {initialSize : Nat} (hsize : initialSize < SizeT.modulus)
    {b : Buffer} (hb : Reached initialSize b) : b.SearchExact := by
  by_cases hfit : kCheapPrepend + initialSize < SizeT.modulus
  · have hwf := hb.wf hfit
    have hwriter : b.writerIndex < SizeT.modulus :=
      Nat.lt_of_le_of_lt (Nat.le_trans hwf.writer_le hwf.fits) SizeT.maxSize_lt_modulus
    refine searchExact_of_within ?_ hwf.reader_le hwriter
    intro start _ hle
    exact ⟨hle, Or.inr hwf.writer_le⟩
  · have hstunted := hb.stunted hsize (Nat.le_of_not_lt hfit)
    have hwriter : b.writerIndex < SizeT.modulus := by
      rw [hstunted.writer, SizeT.modulus_eq]
      decide
    have hindex : b.readerIndex = b.writerIndex := hstunted.reader.trans hstunted.writer.symm
    refine searchExact_of_within ?_ (Nat.le_of_eq hindex) hwriter
    intro start hpeek hle
    exact ⟨hle, Or.inl (Nat.le_antisymm hle (hindex ▸ hpeek))⟩

/-! ## Lines -/

theorem content_eq_upToWrite {b : Buffer} (h : b.WF) :
    b.content = b.upToWrite b.readerIndex :=
  content_eq h

/-- `findCRLF()` finds nothing where there is nothing to cut. -/
theorem findCRLF_eq_none_iff {b : Buffer} (h : b.WF) :
    b.findCRLF = none ↔ cut kCRLF b.content = none := by
  have hlength := Within.length (b := b) ⟨h.reader_le, Or.inr h.writer_le⟩
  rw [cut_eq_none_iff, content_eq_upToWrite h, findCRLF]
  constructor
  · intro hnone
    split at hnone
    · omega
    · cases hnone
  · intro hnone
    rw [if_pos]
    omega

/-- Where it finds something, the bytes before are the next line. -/
theorem cut_of_findCRLF {b : Buffer} (h : b.WF) {crlf : Nat} (hfound : b.findCRLF = some crlf) :
    crlf - b.readerIndex + 2 ≤ b.readableBytes ∧
      cut kCRLF b.content =
        some (b.peek (crlf - b.readerIndex), b.content.drop (crlf - b.readerIndex + 2)) := by
  have hlength := Within.length (b := b) ⟨h.reader_le, Or.inr h.writer_le⟩
  have hlen := length_content h
  rw [content_eq_upToWrite h] at hlen
  rw [findCRLF] at hfound
  split at hfound
  · cases hfound
  · rename_i hne
    have hle := search_le kCRLF (b.upToWrite b.readerIndex)
    have hlt : search kCRLF (b.upToWrite b.readerIndex) < (b.upToWrite b.readerIndex).length := by
      omega
    have hend := (occursAt_search hlt).le kCRLF_ne_nil
    have hindex : crlf - b.readerIndex = search kCRLF (b.upToWrite b.readerIndex) := by
      rw [← Option.some.inj hfound, Nat.add_sub_cancel_left]
    have htwo : kCRLF.length = 2 := rfl
    rw [htwo] at hend
    rw [hindex]
    refine ⟨by omega, ?_⟩
    rw [peek_eq_take h (by omega), cut, content_eq_upToWrite h, if_neg (Nat.ne_of_lt hlt), htwo]

/-- A buffer from which lines are taken, the lines taken off it, and the stream
it was fed. -/
structure LineReader where
  buffer : Buffer
  lines : List (List UInt8)
  stream : List UInt8

/-- What the kernel delivers. -/
def ReadResult.delivered (b : Buffer) : ReadResult → List UInt8
  | .data bytes => bytes.take b.readvSpace
  | .fail _ => []

namespace LineReader

/-- Bytes arrive, or a complete line is taken off. -/
inductive Input where
  | append (bytes : Bytes)
  | readFd (result : ReadResult)
  | extract

def start (b : Buffer) : LineReader := { buffer := b, lines := [], stream := [] }

/-- A line is taken off by `findCRLF()`, a copy of the bytes before, and
`retrieve` past the terminator. -/
def step (s : LineReader) : Input → Outcome Abort LineReader
  | .append bytes => Outcome.ofExcept do
      let b ← s.buffer.append bytes
      .ok { s with buffer := b, stream := s.stream ++ bytes.data }
  | .readFd result => Outcome.ofExcept do
      let r ← s.buffer.readFd result
      .ok { s with buffer := r.2, stream := s.stream ++ ReadResult.delivered s.buffer result }
  | .extract =>
      match s.buffer.findCRLF with
      | none => .disabled
      | some crlf => Outcome.ofExcept do
          let line := s.buffer.peek (crlf - s.buffer.readerIndex)
          let b ← s.buffer.retrieve (crlf - s.buffer.readerIndex + 2)
          .ok { s with buffer := b, lines := s.lines ++ [line] }

/-- Every complete line has been taken off. -/
def Drained (s : LineReader) : Prop := s.buffer.findCRLF = none

/-- Only an allocation can be refused. -/
def NoFailure (s : LineReader) (a : Input) : Prop := (s.step a).Stops Refused

/-- The lines and the content are pieces of the stream. -/
structure Inv (s : LineReader) : Prop where
  wf : s.buffer.WF
  cuts : Cuts kCRLF s.stream s.lines s.buffer.content

/-- Feeding extends the stream and the content alike. -/
theorem Inv.feed {s : LineReader} (h : s.Inv) {b : Buffer} {bytes : List UInt8} (hwf : b.WF)
    (hcontent : b.content = s.buffer.content ++ bytes) :
    Inv { s with buffer := b, stream := s.stream ++ bytes } := by
  refine ⟨hwf, ?_⟩
  dsimp only
  rw [hcontent]
  exact h.cuts.append kCRLF_ne_nil bytes

/-- Taking a line off succeeds and is a cut. -/
theorem Inv.extract {s : LineReader} (h : s.Inv) {crlf : Nat}
    (hfound : s.buffer.findCRLF = some crlf) :
    ∃ t, s.step .extract = .next t ∧ t.Inv ∧ t.stream = s.stream ∧
      t.buffer.readableBytes < s.buffer.readableBytes := by
  obtain ⟨hlen, hcut⟩ := cut_of_findCRLF h.wf hfound
  obtain ⟨b, hb, hwf, hcontent⟩ := retrieve_spec h.wf hlen
  have hshorter := length_of_cut kCRLF_ne_nil hcut
  rw [← hcontent] at hcut hshorter
  refine ⟨{ s with buffer := b, lines := s.lines ++ [s.buffer.peek (crlf - s.buffer.readerIndex)] },
    ?_, ⟨hwf, h.cuts.concat hcut⟩, rfl, ?_⟩
  · simp only [step, hfound, hb, ok_bind]
    rfl
  · rw [← length_content hwf, ← length_content h.wf]
    exact hshorter

/-- **One step.**  It keeps the invariant, and is not stopped by anything but an
allocation. -/
theorem Inv.step {s : LineReader} (h : s.Inv) (a : Input) :
    s.NoFailure a ∧ (s.step a).Leads Inv := by
  cases a with
  | append bytes =>
    have hspec := append_spec h.wf bytes
    rw [NoFailure, LineReader.step]
    cases hb : s.buffer.append bytes with
    | error e =>
      exact ⟨hspec.of_error hb, trivial⟩
    | ok b =>
      obtain ⟨hwf, hcontent⟩ := hspec.of_ok hb
      exact ⟨trivial, h.feed hwf hcontent⟩
  | readFd result =>
    rw [NoFailure, LineReader.step]
    cases result with
    | fail errno =>
      refine ⟨trivial, h.feed h.wf ?_⟩
      exact (List.append_nil _).symm
    | data bytes =>
      have hspec := readFd_spec h.wf bytes
      cases hr : s.buffer.readFd (.data bytes) with
      | error e => exact ⟨hspec.of_error hr, trivial⟩
      | ok r =>
        obtain ⟨_, hwf, hcontent⟩ := hspec.of_ok hr
        exact ⟨trivial, h.feed hwf hcontent⟩
  | extract =>
    rw [NoFailure]
    cases hfound : s.buffer.findCRLF with
    | none =>
      simp only [LineReader.step, hfound]
      exact ⟨trivial, trivial⟩
    | some crlf =>
      obtain ⟨t, ht, hinv, _, _⟩ := h.extract hfound
      rw [ht]
      exact ⟨trivial, hinv⟩

/-- Complete lines run out: taking them off one after the other drains the
buffer. -/
theorem Inv.exists_drained {s : LineReader} (h : s.Inv) :
    ∃ n t, run LineReader.step s (List.replicate n .extract) = some t ∧ t.Drained ∧
      t.stream = s.stream := by
  induction hn : s.buffer.readableBytes using Nat.strong_induction_on generalizing s with
  | _ n ih =>
    cases hfound : s.buffer.findCRLF with
    | none => exact ⟨0, s, rfl, hfound, rfl⟩
    | some crlf =>
      obtain ⟨t, ht, hinv, hstream, hless⟩ := h.extract hfound
      obtain ⟨m, u, hrun, hdrained, hsame⟩ := ih _ (hn ▸ hless) hinv rfl
      refine ⟨m + 1, u, ?_, hdrained, hsame.trans hstream⟩
      rw [List.replicate_succ, run_cons_of_next ht, hrun]

/-- A stunted buffer is never fed, so there is no line to take off it. -/
structure Starved (s : LineReader) : Prop where
  stunted : s.buffer.Stunted
  lines : s.lines = []
  stream : s.stream = []

theorem Starved.step {s t : LineReader} {a : Input} (h : s.Starved) (ht : s.step a = .next t) :
    t.Starved := by
  cases a with
  | append bytes =>
    rw [LineReader.step, h.stunted.append_eq] at ht
    cases ht
  | readFd result =>
    cases result with
    | fail errno =>
      cases ht
      exact ⟨h.stunted, h.lines, (List.append_nil _).trans h.stream⟩
    | data bytes =>
      rw [LineReader.step, h.stunted.readFd_eq] at ht
      cases ht
  | extract =>
    have hnone : s.buffer.findCRLF = none := by
      rw [findCRLF, upToWrite, h.stunted.reader, h.stunted.writer, Nat.sub_self, window_zero]
      rfl
    simp only [LineReader.step, hnone] at ht
    cases ht

/-- The lines are cut off the stream, the content is the rest, and it is only
called drained when there is nothing left to cut. -/
structure Split (s : LineReader) : Prop where
  cuts : Cuts kCRLF s.stream s.lines s.buffer.content
  drained : s.Drained → cut kCRLF s.buffer.content = none

theorem inv_start {initialSize : Nat} {b : Buffer} (hnew : new initialSize = .ok b)
    (hfit : kCheapPrepend + initialSize < SizeT.modulus) : (start b).Inv := by
  obtain ⟨hwf, hcontent⟩ := wf_of_new hnew hfit
  refine ⟨hwf, ?_⟩
  rw [start, hcontent]
  exact Cuts.refl []

theorem Inv.of_step {s t : LineReader} {a : Input} (h : s.Inv) (ht : s.step a = .next t) :
    t.Inv :=
  Outcome.leads_iff.mp (h.step a).2 t ht

theorem split_of_run {initialSize : Nat} (hsize : initialSize < SizeT.modulus) {b : Buffer}
    (hnew : new initialSize = .ok b) {inputs : List Input} {s : LineReader}
    (hrun : run step (start b) inputs = some s) : s.Split := by
  by_cases hfit : kCheapPrepend + initialSize < SizeT.modulus
  · have hinv := throughout_iff_run.mp (throughout_of_invariant step (inv_start hnew hfit)
      (fun _ _ _ h ht => h.of_step ht) inputs) inputs s List.prefix_rfl hrun
    exact ⟨hinv.cuts, (findCRLF_eq_none_iff hinv.wf).mp⟩
  · obtain ⟨b₁, hnew₁, hstunted⟩ := exists_new_of_wrap hsize (Nat.le_of_not_lt hfit)
    have heq : b₁ = b := Except.ok.inj (hnew₁.symm.trans hnew)
    rw [heq] at hstunted
    have hinit : (start b).Starved := ⟨hstunted, rfl, rfl⟩
    have hstarved := throughout_iff_run.mp (throughout_of_invariant step hinit
      (fun _ _ _ h ht => h.step ht) inputs) inputs s List.prefix_rfl hrun
    have hcontent := hstarved.stunted.content_eq
    refine ⟨?_, fun _ => ?_⟩
    · rw [hstarved.stream, hstarved.lines, hcontent]
      exact Cuts.refl []
    · rw [hcontent]
      rfl

/-- **Lines are found exactly, and do not depend on how the stream was cut.**
On every buffer made from a new one the four searches return the first end of a
line among the readable bytes.  Two readers that were fed the same stream, in
whatever pieces, and have taken off every complete line have taken off the same
lines and are left with the same tail.  Feeding and taking off never fail, and
taking off comes to an end, unless the size of the buffer wrapped. -/
theorem line_search (initialSize : Nat) (hsize : initialSize < SizeT.modulus) :
    (∀ b, Reached initialSize b → b.SearchExact) ∧
      (∀ b, new initialSize = .ok b → ∀ otherSize, otherSize < SizeT.modulus →
        ∀ b', new otherSize = .ok b' → ∀ (inputs inputs' : List Input) (s s' : LineReader),
          run step (start b) inputs = some s → run step (start b') inputs' = some s' →
          s.Drained → s'.Drained → s.stream = s'.stream →
            s.lines = s'.lines ∧ s.buffer.content = s'.buffer.content) ∧
      (kCheapPrepend + initialSize < SizeT.modulus → ∀ b, new initialSize = .ok b →
        ∀ inputs : List Input, Along step NoFailure (start b) inputs ∧
          ∀ s, run step (start b) inputs = some s →
            ∃ n t, run step s (List.replicate n .extract) = some t ∧ t.Drained ∧
              t.stream = s.stream) := by
  refine ⟨fun b hb => hb.searchExact hsize, ?_, ?_⟩
  · intro b hnew otherSize hother b' hnew' inputs inputs' s s' hrun hrun' hdrained hdrained' hstream
    have hsplit := split_of_run hsize hnew hrun
    have hsplit' := split_of_run hother hnew' hrun'
    have hcuts := hsplit.cuts
    rw [hstream] at hcuts
    exact hcuts.unique hsplit'.cuts (hsplit.drained hdrained) (hsplit'.drained hdrained')
  · intro hfit b hnew inputs
    have hinv := throughout_of_invariant step (inv_start hnew hfit)
      (fun _ _ _ h ht => h.of_step ht) inputs
    refine ⟨hinv.along fun s a h => (h.step a).1, ?_⟩
    intro s hrun
    exact (throughout_iff_run.mp hinv inputs s List.prefix_rfl hrun).exists_drained

/-- The bytes 65 CR LF 66 in two pieces, cut between CR and LF. -/
def cutInTwo : List Input :=
  [.append ⟨[65, 13], by rw [SizeT.maxSize_eq]; decide⟩,
    .append ⟨[10, 66], by rw [SizeT.maxSize_eq]; decide⟩]

example :
    (run step (start ⟨List.replicate 12 0, 8, 8⟩) (cutInTwo ++ [.extract])).map
      (fun s => (s.lines, s.buffer.content)) = some ([[65]], [66]) := by
  decide +kernel

/-- The searches on a buffer of four bytes, the two pieces there and the whole in
a buffer of nine, and what is left to take off after the pieces. -/
theorem line_search_cutInTwo :
    (∃ b, Reached 4 b ∧ b.SearchExact) ∧
      (∃ s s', run step (start ⟨List.replicate 12 0, 8, 8⟩) (cutInTwo ++ [.extract]) = some s ∧
        run step (start ⟨List.replicate 17 0, 8, 8⟩)
          [.readFd (.data [65, 13, 10, 66]), .extract] = some s' ∧
        s.lines = s'.lines ∧ s.buffer.content = s'.buffer.content) ∧
      ∃ s n t, run step (start ⟨List.replicate 12 0, 8, 8⟩) cutInTwo = some s ∧
        run step s (List.replicate n .extract) = some t ∧ t.Drained := by
  obtain ⟨hexact, hsame, htake⟩ := line_search 4 (by rw [SizeT.modulus_eq]; decide)
  have hnew : new 4 = .ok ⟨List.replicate 12 0, 8, 8⟩ :=
    new_of_le (by rw [SizeT.maxSize_eq]; decide)
  have hnew' : new 9 = .ok ⟨List.replicate 17 0, 8, 8⟩ :=
    new_of_le (by rw [SizeT.maxSize_eq]; decide)
  refine ⟨⟨_, Reached.of_new hnew, hexact _ (Reached.of_new hnew)⟩, ?_, ?_⟩
  · obtain ⟨s, hs, hend⟩ := Option.map_eq_some_iff.mp
      (show (run step (start ⟨List.replicate 12 0, 8, 8⟩) (cutInTwo ++ [.extract])).map
        (fun s => (s.stream, s.buffer.findCRLF)) = some ([65, 13, 10, 66], none) by decide +kernel)
    obtain ⟨s', hs', hend'⟩ := Option.map_eq_some_iff.mp
      (show (run step (start ⟨List.replicate 17 0, 8, 8⟩)
          [.readFd (.data [65, 13, 10, 66]), .extract]).map
        (fun s => (s.stream, s.buffer.findCRLF)) = some ([65, 13, 10, 66], none) by decide +kernel)
    obtain ⟨hstream, hdrained⟩ := Prod.mk.inj hend
    obtain ⟨hstream', hdrained'⟩ := Prod.mk.inj hend'
    exact ⟨s, s', hs, hs', hsame _ hnew 9 (by rw [SizeT.modulus_eq]; decide) _ hnew' _ _ s s' hs hs'
      hdrained hdrained' (hstream.trans hstream'.symm)⟩
  · obtain ⟨s, hs⟩ : ∃ s, run step (start ⟨List.replicate 12 0, 8, 8⟩) cutInTwo = some s :=
      Option.isSome_iff_exists.mp (by decide +kernel)
    obtain ⟨n, t, ht, hdrained, _⟩ :=
      (htake (by rw [SizeT.modulus_eq]; decide) _ hnew cutInTwo).2 s hs
    exact ⟨s, n, t, hs, ht, hdrained⟩

end LineReader

end CppWeb.Buffer
