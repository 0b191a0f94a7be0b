/-
  Buffer/Codec.lean --- integers through a buffer and back.

  A list of integers of mixed widths is appended one by one, what was readable
  before is consumed, and the integers are read again.  On a buffer that meets
  the index invariant the append puts down the bytes of each integer in two's
  complement, most significant first, and the reads return the list that was
  written.  A stunted buffer has no room for a single byte.
-/
import CppWeb.Buffer.Reached

set_option autoImplicit false

namespace CppWeb.Buffer

open CppWeb.Foundation

/-! ## Integers of the four widths -/

inductive Width where
  | int8
  | int16
  | int32
  | int64
  deriving DecidableEq, Repr

/-- `sizeof(intN_t)` -/
def Width.bytes : Width → Nat
  | .int8 => 1
  | .int16 => 2
  | .int32 => 4
  | .int64 => 8

theorem Width.bytes_le (w : Width) : w.bytes ≤ 8 := by
  cases w <;> decide

/-- A value of one of the types `int8_t` to `int64_t`. -/
structure Integer where
  width : Width
  value : BitVec (8 * width.bytes)
  deriving DecidableEq

namespace Integer

/-- The integer in two's complement, most significant byte first. -/
def bytes (x : Integer) : List UInt8 := twosComplement x.width.bytes x.value.toInt

/-- The matching `appendIntN`. -/
def append : Integer → Buffer → Except Abort Buffer
  | ⟨.int8, x⟩ => appendInt8 x
  | ⟨.int16, x⟩ => appendInt16 x
  | ⟨.int32, x⟩ => appendInt32 x
  | ⟨.int64, x⟩ => appendInt64 x

end Integer

/-- The matching `peekIntN`. -/
def Width.peek : Width → Buffer → Except Abort Integer
  | .int8, b => do let x ← b.peekInt8; .ok ⟨.int8, x⟩
  | .int16, b => do let x ← b.peekInt16; .ok ⟨.int16, x⟩
  | .int32, b => do let x ← b.peekInt32; .ok ⟨.int32, x⟩
  | .int64, b => do let x ← b.peekInt64; .ok ⟨.int64, x⟩

/-- The matching `readIntN`. -/
def Width.read : Width → Buffer → Except Abort (Integer × Buffer)
  | .int8, b => do let r ← b.readInt8; .ok (⟨.int8, r.1⟩, r.2)
  | .int16, b => do let r ← b.readInt16; .ok (⟨.int16, r.1⟩, r.2)
  | .int32, b => do let r ← b.readInt32; .ok (⟨.int32, r.1⟩, r.2)
  | .int64, b => do let r ← b.readInt64; .ok (⟨.int64, r.1⟩, r.2)

theorem Integer.append_eq (x : Integer) (b : Buffer) :
    x.append b = b.appendInt x.width.bytes x.width.bytes_le x.value := by
  obtain ⟨width, value⟩ := x
  cases width <;> rfl

theorem Width.peek_eq (w : Width) (b : Buffer) :
    w.peek b = (do let x ← b.peekInt w.bytes; .ok ⟨w, x⟩) := by
  cases w <;> rfl

theorem Width.read_eq (w : Width) (b : Buffer) :
    w.read b = (do let r ← b.readInt w.bytes; .ok (⟨w, r.1⟩, r.2)) := by
  cases w <;> rfl

/-! ## Lists of integers -/

def appendAll : List Integer → Buffer → Except Abort Buffer
  | [], b => .ok b
  | x :: xs, b => do
    let b ← x.append b
    appendAll xs b

def readAll : List Width → Buffer → Except Abort (List Integer × Buffer)
  | [], b => .ok ([], b)
  | w :: ws, b => do
    let r ← w.read b
    let rs ← readAll ws r.2
    .ok (r.1 :: rs.1, rs.2)

/-- Append the integers, consume what was readable before, read them again. -/
def exchange (xs : List Integer) (b : Buffer) : Except Abort (List Integer × Buffer) := do
  let before := b.readableBytes
  let b ← appendAll xs b
  let b ← b.retrieve before
  readAll (xs.map (·.width)) b

/-- What the integer operations promise of a buffer; only an allocation can be
refused. -/
structure RoundTrips (b : Buffer) : Prop where
  exchange : ∀ xs : List Integer,
    Ensures (exchange xs b) (fun r => r.1 = xs ∧ r.2.readableBytes = 0) Refused
  append : ∀ x : Integer,
    Ensures (x.append b) (fun b' => b'.content = b.content ++ x.bytes) Refused
  peek : ∀ w : Width, w.peek b = (w.read b).map Prod.fst
  reappend : ∀ (w : Width) (x : Integer) (b' : Buffer), w.read b = .ok (x, b') →
    Ensures (x.append b') (fun b'' => b''.content = b'.content ++ b.content.take w.bytes) Refused

/-! ## One integer -/

theorem Integer.bytes_eq (x : Integer) : x.bytes = bigEndian x.width.bytes x.value :=
  (bigEndian_eq_twosComplement _ _).symm

theorem Integer.length_bytes (x : Integer) : x.bytes.length = x.width.bytes := by
  rw [x.bytes_eq, length_bigEndian]

theorem Integer.append_spec {b : Buffer} (h : b.WF) (x : Integer) :
    Ensures (x.append b) (fun b' => b'.WF ∧ b'.content = b.content ++ x.bytes) Refused := by
  rw [x.append_eq, x.bytes_eq]
  exact Buffer.append_spec h (intBytes x.width.bytes x.width.bytes_le x.value)

/-- Reading takes the integer that stands in front. -/
theorem Width.read_spec {b : Buffer} (h : b.WF) {x : Integer} {rest : List UInt8}
    (hcontent : b.content = x.bytes ++ rest) :
    ∃ b', x.width.read b = .ok (x, b') ∧ b'.WF ∧ b'.content = rest := by
  have hlen : x.width.bytes ≤ b.readableBytes := by
    rw [← length_content h, hcontent, List.length_append, x.length_bytes]
    exact Nat.le_add_right _ _
  obtain ⟨b', hb', hwf, hrest⟩ := readInt_spec h hlen
  have htake : b.content.take x.width.bytes = x.bytes := by
    rw [hcontent, ← x.length_bytes, List.take_left]
  have hdrop : b.content.drop x.width.bytes = rest := by
    rw [hcontent, ← x.length_bytes, List.drop_left]
  refine ⟨b', ?_, hwf, hrest.trans hdrop⟩
  rw [Width.read_eq, hb', ok_bind, htake, x.bytes_eq, ofBigEndian_bigEndian]

/-- `readIntN` asserts nothing that `peekIntN` does not. -/
theorem Width.peek_eq_read (w : Width) (b : Buffer) : w.peek b = (w.read b).map Prod.fst := by
  rw [w.peek_eq, w.read_eq, readInt, peekInt]
  by_cases hlen : w.bytes ≤ b.readableBytes
  · have hretrieve : ∃ b', b.retrieve w.bytes = .ok b' := by
      rw [retrieve, require_ok hlen, ok_bind]
      split
      · exact ⟨_, rfl⟩
      · exact ⟨_, rfl⟩
    obtain ⟨b', hb'⟩ := hretrieve
    rw [require_ok hlen]
    simp only [ok_bind, hb']
    rfl
  · rw [require_error hlen]
    rfl

/-- Reading succeeds only where there are enough bytes. -/
theorem Width.le_of_read {w : Width} {b : Buffer} {r : Integer × Buffer}
    (h : w.read b = .ok r) : w.bytes ≤ b.readableBytes := by
  rw [Width.read_eq, bind_eq_ok] at h
  obtain ⟨r', hr', _⟩ := h
  rw [readInt, bind_eq_ok] at hr'
  obtain ⟨x, hx, _⟩ := hr'
  rw [peekInt, bind_eq_ok] at hx
  obtain ⟨_, hlen, _⟩ := hx
  exact require_eq_ok.mp hlen

/-- The bytes that were read are those of the integer they were read as. -/
theorem Width.read_bytes {w : Width} {b b' : Buffer} {x : Integer} (h : b.WF)
    (hread : w.read b = .ok (x, b')) : b'.WF ∧ x.bytes = b.content.take w.bytes := by
  have hlen := Width.le_of_read hread
  obtain ⟨b₁, hb₁, hwf, _⟩ := readInt_spec h hlen
  rw [Width.read_eq, hb₁, ok_bind] at hread
  cases hread
  refine ⟨hwf, ?_⟩
  have htake : (b.content.take w.bytes).length = w.bytes := by
    rw [List.length_take, length_content h, Nat.min_eq_left hlen]
  rw [Integer.bytes_eq]
  exact bigEndian_ofBigEndian htake

/-! ## Lists -/

theorem appendAll_spec {b : Buffer} (h : b.WF) (xs : List Integer) :
    Ensures (appendAll xs b)
      (fun b' => b'.WF ∧ b'.content = b.content ++ xs.flatMap Integer.bytes) Refused := by
  induction xs generalizing b with
  | nil =>
    refine ⟨h, ?_⟩
    rw [List.flatMap_nil, List.append_nil]
  | cons x xs ih =>
    refine Ensures.bind (x.append_spec h) ?_
    rintro b₁ ⟨hwf, hcontent⟩
    refine (ih hwf).mono ?_
    rintro b₂ ⟨hwf', hcontent'⟩
    refine ⟨hwf', ?_⟩
    rw [hcontent', hcontent, List.flatMap_cons, List.append_assoc]

theorem readAll_spec {b : Buffer} (h : b.WF) (xs : List Integer)
    (hcontent : b.content = xs.flatMap Integer.bytes) :
    ∃ b', readAll (xs.map (·.width)) b = .ok (xs, b') ∧ b'.WF ∧ b'.content = [] := by
  induction xs generalizing b with
  | nil => exact ⟨b, rfl, h, hcontent⟩
  | cons x xs ih =>
    rw [List.flatMap_cons] at hcontent
    obtain ⟨b₁, hread, hwf, hrest⟩ := Width.read_spec h hcontent
    obtain ⟨b₂, hall, hwf', hempty⟩ := ih hwf hrest
    refine ⟨b₂, ?_, hwf', hempty⟩
    rw [List.map_cons, readAll, hread, ok_bind]
    dsimp only
    rw [hall, ok_bind]

theorem exchange_spec {b : Buffer} (h : b.WF) (xs : List Integer) :
    Ensures (exchange xs b) (fun r => r.1 = xs ∧ r.2.readableBytes = 0) Refused := by
  rw [exchange]
  refine Ensures.bind (appendAll_spec h xs) ?_
  rintro b₁ ⟨hwf, hcontent⟩
  have hbefore : b.readableBytes ≤ b₁.readableBytes := by
    rw [← length_content h, ← length_content hwf, hcontent, List.length_append]
    exact Nat.le_add_right _ _
  obtain ⟨b₂, hb₂, hwf₂, hdrop⟩ := retrieve_spec hwf hbefore
  have hleft : b₂.content = xs.flatMap Integer.bytes := by
    rw [hdrop, hcontent, ← length_content h, List.drop_left]
  obtain ⟨b₃, hb₃, hwf₃, hempty⟩ := readAll_spec hwf₂ xs hleft
  rw [hb₂, ok_bind, hb₃]
  exact ⟨rfl, (content_eq_nil_iff hwf₃).mp hempty⟩

theorem roundTrips_of_wf {b : Buffer} (h : b.WF) : b.RoundTrips := by
  refine ⟨exchange_spec h, ?_, fun w => w.peek_eq_read b, ?_⟩
  · intro x
    exact (x.append_spec h).mono fun _ hb => hb.2
  · intro w x b' hread
    obtain ⟨hwf, hbytes⟩ := Width.read_bytes h hread
    rw [← hbytes]
    exact (x.append_spec hwf).mono fun _ hb => hb.2

/-- **Integers survive a buffer exactly when its size did not wrap.**  On every
buffer made from a new one, by any operations, a list of integers that is
appended is read back as it was, each append adds the bytes of the integer,
peeking is reading without consuming, and what was read can be appended
again. -/
theorem roundTrips_iff (initialSize : Nat) (hsize : initialSize < SizeT.modulus) :
    (∀ b, Reached initialSize b → b.RoundTrips) ↔
      kCheapPrepend + initialSize < SizeT.modulus := by
  constructor
  · intro h
    by_contra hwrap
    obtain ⟨b, hnew, hstunted⟩ := exists_new_of_wrap hsize (Nat.le_of_not_lt hwrap)
    have happend := (h b (Reached.of_new hnew)).append ⟨.int8, 0⟩
    rw [Integer.append_eq, appendInt, hstunted.append_eq] at happend
    cases happend
  · intro hfit b hb
    exact roundTrips_of_wf (hb.wf hfit)

/-- Integers survive the buffers of the default size, of which there are. -/
theorem roundTrips_kInitialSize :
    (∃ b, Reached kInitialSize b) ∧ ∀ b, Reached kInitialSize b → b.RoundTrips := by
  have hfit : kCheapPrepend + kInitialSize < SizeT.modulus :=
    Nat.lt_of_le_of_lt kInitialSize_le SizeT.maxSize_lt_modulus
  exact ⟨⟨_, Reached.of_new (new_of_le kInitialSize_le)⟩,
    (roundTrips_iff kInitialSize kInitialSize_lt_modulus).mpr hfit⟩

/-- `Buffer(SIZE_MAX)` is constructed, and `appendInt8` writes outside its
storage. -/
theorem not_roundTrips_max :
    new 18446744073709551615 = .ok ⟨[0, 0, 0, 0, 0, 0, 0], 8, 8⟩ ∧
      appendInt8 65#8 ⟨[0, 0, 0, 0, 0, 0, 0], 8, 8⟩ = .error .outOfBounds ∧
      ¬ RoundTrips ⟨[0, 0, 0, 0, 0, 0, 0], 8, 8⟩ := by
  refine ⟨by decide +kernel, by decide +kernel, fun h => ?_⟩
  have happend : Integer.append ⟨.int8, 65#8⟩ ⟨[0, 0, 0, 0, 0, 0, 0], 8, 8⟩ =
      .error .outOfBounds := by
    decide +kernel
  have habort := (h.append ⟨.int8, 65#8⟩).of_error happend
  cases habort

/-- A negative integer of 32 bits behind one of 8 bits. -/
example : (exchange [⟨.int8, -1#8⟩, ⟨.int32, -2#32⟩] ⟨List.replicate 24 0, 8, 8⟩).map Prod.fst =
    .ok [⟨.int8, -1#8⟩, ⟨.int32, -2#32⟩] := by
  decide +kernel

end CppWeb.Buffer
