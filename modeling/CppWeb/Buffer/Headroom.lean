/-
  Buffer/Headroom.lean --- how much of the front of a buffer can be prepended to.

  The constructor and every operation that empties a buffer leave the first
  `kCheapPrepend` bytes of the storage in front of the content, so that a header
  can be put there later without moving the content.  `prepend` does not allow
  it: it asserts that the bytes fit in `prependableBytes() - kCheapPrepend`, the
  part of the front beyond the reserved bytes, which a new buffer does not have.
-/
import CppWeb.Buffer.Codec

set_option autoImplicit false

namespace CppWeb.Buffer

open CppWeb.Foundation

/-- `b'` is `b` with the bytes put in front: the content says so, it stands any
later append, and an integer that was put in front is read back. -/
def Prepended (b : Buffer) (bytes : Bytes) (b' : Buffer) : Prop :=
  b'.content = bytes.data ++ b.content ∧
    (∀ more : Bytes,
      Ensures (b'.append more) (fun b'' => b''.content = b'.content ++ more.data) Refused) ∧
    ∀ x : Integer, bytes.data = x.bytes →
      ∃ b'', x.width.read b' = .ok (x, b'') ∧ b''.content = b.content

/-- The part of the front that `prepend` accepts. -/
theorem headroom_eq {b : Buffer} (h : b.WF) :
    SizeT.sub b.prependableBytes kCheapPrepend = b.prependableBytes - kCheapPrepend := by
  have hread : b.readerIndex ≤ b.buffer.length := Nat.le_trans h.reader_le h.writer_le
  exact SizeT.sub_eq_of_le_maxSize h.prepend_le (Nat.le_trans hread h.fits)

/-- `prepend` returns only where its assertion holds. -/
theorem le_of_prepend {b b' : Buffer} {bytes : Bytes} (h : b.prepend bytes = .ok b') :
    bytes.length ≤ SizeT.sub b.prependableBytes kCheapPrepend := by
  rw [prepend, bind_eq_ok] at h
  obtain ⟨_, hlen, _⟩ := h
  exact require_eq_ok.mp hlen

theorem prepended_of_le {b : Buffer} (h : b.WF) {bytes : Bytes}
    (hlen : bytes.length ≤ SizeT.sub b.prependableBytes kCheapPrepend) :
    ∃ b', b.prepend bytes = .ok b' ∧ b.Prepended bytes b' := by
  obtain ⟨b', hb', hwf, hcontent⟩ := prepend_spec h hlen
  refine ⟨b', hb', hcontent, ?_, ?_⟩
  · intro more
    exact (append_spec hwf more).mono fun _ hb => hb.2
  · intro x hx
    rw [hx] at hcontent
    obtain ⟨b'', hread, _, hrest⟩ := Width.read_spec hwf hcontent
    exact ⟨b'', hread, hrest⟩

/-- **The reserved bytes of the front cannot be used.**  On a buffer made from a
new one by any operations, prepending succeeds, and does what it should, if and
only if the bytes leave the first `kCheapPrepend` bytes of the storage free (and
the size of the buffer did not wrap). -/
theorem prepend_iff (initialSize : Nat) (hsize : initialSize < SizeT.modulus) {b : Buffer}
    (hb : Reached initialSize b) (bytes : Bytes) :
    (∃ b', b.prepend bytes = .ok b' ∧ b.Prepended bytes b') ↔
      kCheapPrepend + initialSize < SizeT.modulus ∧
        bytes.length + kCheapPrepend ≤ b.prependableBytes := by
  constructor
  · rintro ⟨b', hb', _⟩
    have hfit : kCheapPrepend + initialSize < SizeT.modulus := by
      by_contra hwrap
      have hstunted := hb.stunted hsize (Nat.le_of_not_lt hwrap)
      rcases hstunted.prepend_eq bytes with herror | herror
      · rw [herror] at hb'
        cases hb'
      · rw [herror] at hb'
        cases hb'
    have hwf := hb.wf hfit
    have hlen := le_of_prepend hb'
    have h8 : kCheapPrepend ≤ b.prependableBytes := hwf.prepend_le
    rw [headroom_eq hwf] at hlen
    exact ⟨hfit, Nat.add_le_of_le_sub h8 hlen⟩
  · rintro ⟨hfit, hlen⟩
    have hwf := hb.wf hfit
    refine prepended_of_le hwf ?_
    rw [headroom_eq hwf]
    exact Nat.le_sub_of_add_le hlen

/-- Once four bytes of the content have been consumed, four can be put in front
of the rest. -/
theorem prepend_afterRetrieve :
    Reached 16 ⟨[0, 0, 0, 0, 0, 0, 0, 0, 1, 2, 3, 4, 5, 0, 0, 0, 0, 0, 0, 0, 0, 0, 0, 0], 12, 13⟩ ∧
      ∃ b', prepend (intBytes 4 (by decide) 7#32)
          ⟨[0, 0, 0, 0, 0, 0, 0, 0, 1, 2, 3, 4, 5, 0, 0, 0, 0, 0, 0, 0, 0, 0, 0, 0], 12, 13⟩ =
            .ok b' ∧
        Prepended ⟨[0, 0, 0, 0, 0, 0, 0, 0, 1, 2, 3, 4, 5, 0, 0, 0, 0, 0, 0, 0, 0, 0, 0, 0], 12, 13⟩
          (intBytes 4 (by decide) 7#32) b' := by
  have hreached : Reached 16
      ⟨[0, 0, 0, 0, 0, 0, 0, 0, 1, 2, 3, 4, 5, 0, 0, 0, 0, 0, 0, 0, 0, 0, 0, 0], 12, 13⟩ :=
    ⟨⟨List.replicate 24 0, 8, 8⟩,
      [.append ⟨[1, 2, 3, 4, 5], by rw [SizeT.maxSize_eq]; decide⟩, .retrieve 4],
      by decide +kernel, by decide +kernel⟩
  refine ⟨hreached, (prepend_iff 16 ?_ hreached _).mpr ⟨?_, by decide⟩⟩
  · rw [SizeT.modulus_eq]
    decide
  · rw [SizeT.modulus_eq]
    decide

/-- A payload of one byte in a buffer of the default size: `prependInt32` fails
its assertion, although eight bytes are prependable. -/
theorem prepend_not_reserved :
    ((do
        let b ← new kInitialSize
        let b ← b.append ⟨[65], by rw [SizeT.maxSize_eq]; decide⟩
        b.prependInt32 7#32) : Except Abort Buffer) = .error (.assertion .prepend) ∧
      ((do
        let b ← new kInitialSize
        let b ← b.append ⟨[65], by rw [SizeT.maxSize_eq]; decide⟩
        .ok b.prependableBytes) : Except Abort Nat) = .ok 8 := by
  refine ⟨?_, ?_⟩
  · decide +kernel
  · decide +kernel

end CppWeb.Buffer
