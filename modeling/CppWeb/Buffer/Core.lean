/-
  Buffer/Core.lean --- the buffer of Buffer.hpp and Buffer.cpp.

  A vector of bytes with two indices.  The readable bytes lie between them, the
  bytes before `readerIndex` can be reclaimed, and the first `kCheapPrepend`
  bytes are held back.  Indices and lengths are `size_t`, and their arithmetic
  wraps as it does in the source; whether it ever does is a question for
  `Buffer/Refinement.lean`.

  A write through a pointer into the storage goes through `copyTo`, which
  refuses to leave the storage.
-/
import CppWeb.Abort
import CppWeb.Foundation.SizeT
import CppWeb.Foundation.Region
import CppWeb.Foundation.Endian
import CppWeb.Foundation.Search

set_option autoImplicit false

namespace CppWeb

open CppWeb.Foundation

/-- `class Buffer`. -/
structure Buffer where
  buffer : List UInt8
  readerIndex : Nat
  writerIndex : Nat
  deriving DecidableEq, Repr

/-- What `::readv` answers: the bytes that are there to be read (the call takes
as many of them as fit), none of them at the end of the stream, or an error. -/
inductive ReadResult where
  | data (bytes : List UInt8)
  | fail (errno : Nat)
  deriving DecidableEq, Repr

/-- `std::copy` to index `at_` of the storage. -/
def copyTo (storage : List UInt8) (at_ : Nat) (bytes : List UInt8) :
    Except Abort (List UInt8) :=
  if at_ + bytes.length ≤ storage.length then .ok (overwrite storage at_ bytes)
  else .error .outOfBounds

namespace Buffer

/-- `Buffer::kCheapPrepend` -/
def kCheapPrepend : Nat := 8

/-- `Buffer::kInitialSize` -/
def kInitialSize : Nat := 1024

/-- `sizeof(extrabuf)` in `readFd` -/
@[irreducible] def extrabufSize : Nat := 65536

theorem extrabufSize_eq : extrabufSize = 65536 := by
  unfold extrabufSize
  rfl

def readableBytes (b : Buffer) : Nat := SizeT.sub b.writerIndex b.readerIndex

def writeableBytes (b : Buffer) : Nat := SizeT.sub b.buffer.length b.writerIndex

def prependableBytes (b : Buffer) : Nat := b.readerIndex

/-- The `len` bytes at `peek()`. -/
def peek (b : Buffer) (len : Nat) : List UInt8 := window b.buffer b.readerIndex len

/-- `std::vector<char>(size)` -/
def allocate (size : Nat) : Except Abort (List UInt8) :=
  if size ≤ SizeT.maxSize then .ok (List.replicate size 0) else .error .lengthError

/-- `Buffer::Buffer(initialSize)` -/
def new (initialSize : Nat) : Except Abort Buffer := do
  let storage ← allocate (SizeT.add kCheapPrepend initialSize)
  let b : Buffer := ⟨storage, kCheapPrepend, kCheapPrepend⟩
  require .bufferReadable (b.readableBytes = 0)
  require .bufferWriteable (b.writeableBytes = initialSize)
  require .bufferPrependable (b.prependableBytes = kCheapPrepend)
  .ok b

/-- `m_buffer.resize(size)` -/
def resize (size : Nat) (b : Buffer) : Except Abort Buffer :=
  if size ≤ SizeT.maxSize then
    .ok { b with
      buffer := b.buffer.take size ++ List.replicate (size - b.buffer.length) 0 }
  else .error .lengthError

def retrieveAll (b : Buffer) : Buffer :=
  { b with readerIndex := kCheapPrepend, writerIndex := kCheapPrepend }

def retrieve (len : Nat) (b : Buffer) : Except Abort Buffer := do
  require .retrieve (len ≤ b.readableBytes)
  if len < b.readableBytes then
    .ok { b with readerIndex := SizeT.add b.readerIndex len }
  else
    .ok b.retrieveAll

def retrieveAsString (len : Nat) (b : Buffer) : Except Abort (List UInt8 × Buffer) := do
  require .retrieveAsString (len ≤ b.readableBytes)
  let result := b.peek len
  let b ← b.retrieve len
  .ok (result, b)

def retrieveAllAsString (b : Buffer) : Except Abort (List UInt8 × Buffer) :=
  b.retrieveAsString b.readableBytes

def hasWritten (len : Nat) (b : Buffer) : Except Abort Buffer := do
  require .hasWritten (len ≤ b.writeableBytes)
  .ok { b with writerIndex := SizeT.add b.writerIndex len }

def makeSpace (len : Nat) (b : Buffer) : Except Abort Buffer :=
  if SizeT.sub (SizeT.add b.writeableBytes b.prependableBytes) kCheapPrepend < len then
    b.resize (SizeT.add b.writerIndex len)
  else do
    require .makeSpace (kCheapPrepend < b.readerIndex)
    let readable := b.readableBytes
    let storage ← copyTo b.buffer kCheapPrepend (b.peek readable)
    .ok { buffer := storage
          readerIndex := kCheapPrepend
          writerIndex := SizeT.add kCheapPrepend readable }

def ensureWriteableBytes (len : Nat) (b : Buffer) : Except Abort Buffer := do
  let b ← (if b.writeableBytes < len then b.makeSpace len else .ok b : Except Abort Buffer)
  require .ensureWriteableBytes (len ≤ b.writeableBytes)
  .ok b

/-- `append(data, len)`, which the other two forms of `append` call, for bytes
that lie outside the storage of this buffer. -/
def append (bytes : Bytes) (b : Buffer) : Except Abort Buffer := do
  let b ← b.ensureWriteableBytes bytes.length
  let storage ← copyTo b.buffer b.writerIndex bytes.data
  hasWritten bytes.length { b with buffer := storage }

/-- `append(data, len)` where `data` points to index `pos` of the storage of this
buffer.  The bytes are read through the pointer after room was made for them.
`moved` says whether a vector that grows takes new storage, and so gives back the
one pointed to. -/
def appendOwn (pos len : Nat) (moved : Bool) (b : Buffer) : Except Abort Buffer := do
  let room ← b.ensureWriteableBytes len
  if b.buffer.length < room.buffer.length ∧ moved = true then .error .useAfterFree
  else do
    -- `std::copy` of characters is `memmove`
    let storage ← copyTo room.buffer room.writerIndex (window room.buffer pos len)
    hasWritten len { room with buffer := storage }

def prepend (bytes : Bytes) (b : Buffer) : Except Abort Buffer := do
  require .prepend (bytes.length ≤ SizeT.sub b.prependableBytes kCheapPrepend)
  let readerIndex := SizeT.sub b.readerIndex bytes.length
  let storage ← copyTo b.buffer readerIndex bytes.data
  .ok { b with buffer := storage, readerIndex := readerIndex }

/-- `swap`, both buffers after it. -/
def swap (b rhs : Buffer) : Buffer × Buffer := (rhs, b)

/-! ## Integers -/

section Integers

variable (k : Nat)

/-- The memory of a `k`-byte integer after `htobeN`. -/
def intBytes (hk : k ≤ 8) (x : BitVec (8 * k)) : Bytes :=
  ⟨bigEndian k x, by rw [length_bigEndian, SizeT.maxSize_eq]; omega⟩

/-- `appendIntN` for `N = 8 * k` -/
def appendInt (hk : k ≤ 8) (x : BitVec (8 * k)) (b : Buffer) : Except Abort Buffer :=
  b.append (intBytes k hk x)

/-- `prependIntN` -/
def prependInt (hk : k ≤ 8) (x : BitVec (8 * k)) (b : Buffer) : Except Abort Buffer :=
  b.prepend (intBytes k hk x)

/-- `peekIntN` -/
def peekInt (b : Buffer) : Except Abort (BitVec (8 * k)) := do
  require .peekInt (k ≤ b.readableBytes)
  .ok (ofBigEndian k (b.peek k))

/-- `readIntN`: `peekIntN`, then `retrieveIntN` -/
def readInt (b : Buffer) : Except Abort (BitVec (8 * k) × Buffer) := do
  let result ← b.peekInt k
  let b ← b.retrieve k
  .ok (result, b)

end Integers

def appendInt64 : BitVec 64 → Buffer → Except Abort Buffer := appendInt 8 (by decide)
def appendInt32 : BitVec 32 → Buffer → Except Abort Buffer := appendInt 4 (by decide)
def appendInt16 : BitVec 16 → Buffer → Except Abort Buffer := appendInt 2 (by decide)
def appendInt8 : BitVec 8 → Buffer → Except Abort Buffer := appendInt 1 (by decide)

def prependInt64 : BitVec 64 → Buffer → Except Abort Buffer := prependInt 8 (by decide)
def prependInt32 : BitVec 32 → Buffer → Except Abort Buffer := prependInt 4 (by decide)
def prependInt16 : BitVec 16 → Buffer → Except Abort Buffer := prependInt 2 (by decide)
def prependInt8 : BitVec 8 → Buffer → Except Abort Buffer := prependInt 1 (by decide)

def peekInt64 : Buffer → Except Abort (BitVec 64) := peekInt 8
def peekInt32 : Buffer → Except Abort (BitVec 32) := peekInt 4
def peekInt16 : Buffer → Except Abort (BitVec 16) := peekInt 2
def peekInt8 : Buffer → Except Abort (BitVec 8) := peekInt 1

def readInt64 : Buffer → Except Abort (BitVec 64 × Buffer) := readInt 8
def readInt32 : Buffer → Except Abort (BitVec 32 × Buffer) := readInt 4
def readInt16 : Buffer → Except Abort (BitVec 16 × Buffer) := readInt 2
def readInt8 : Buffer → Except Abort (BitVec 8 × Buffer) := readInt 1

/-! ## Searching

A pointer into the storage is modelled as the index it points to, `nullptr` as
`none`. -/

/-- `Buffer::kCRLF` -/
def kCRLF : List UInt8 := [13, 10]

/-- `memchr`: the index of the first such byte. -/
def memchr (bytes : List UInt8) (byte : UInt8) : Option Nat := bytes.findIdx? (· == byte)

/-- `[start, beginWrite)` -/
def upToWrite (b : Buffer) (start : Nat) : List UInt8 :=
  window b.buffer start (b.writerIndex - start)

/-- `findCRLF()` -/
def findCRLF (b : Buffer) : Option Nat :=
  let beginWrite := b.writerIndex
  let crlf := b.readerIndex + search kCRLF (b.upToWrite b.readerIndex)
  if crlf = beginWrite then none else some crlf

/-- `findCRLF(start)` -/
def findCRLFFrom (start : Nat) (b : Buffer) : Except Abort (Option Nat) := do
  let beginWrite := b.writerIndex
  require .findCRLFPeek (b.readerIndex ≤ start)
  require .findCRLFBeginWrite (start ≤ beginWrite)
  let crlf := start + search kCRLF (b.upToWrite start)
  .ok (if crlf = beginWrite then none else some crlf)

/-- `findEOL()` -/
def findEOL (b : Buffer) : Option Nat :=
  (memchr (b.peek b.readableBytes) 10).map (b.readerIndex + ·)

/-- `findEOL(start)` -/
def findEOLFrom (start : Nat) (b : Buffer) : Except Abort (Option Nat) := do
  let beginWrite := b.writerIndex
  require .findEOLPeek (b.readerIndex ≤ start)
  require .findEOLBeginWrite (start ≤ beginWrite)
  .ok ((memchr (b.upToWrite start) 10).map (start + ·))

/-! ## readFd -/

/-- The length of the iovec array that `readFd` passes to `::readv`: the tail
of the buffer, and `extrabuf` when that tail is shorter than it. -/
def readvSpace (b : Buffer) : Nat :=
  if b.writeableBytes < extrabufSize then b.writeableBytes + extrabufSize
  else b.writeableBytes

/-- What ends up in `extrabuf`. -/
def extrabuf (bytes : List UInt8) : Bytes :=
  ⟨bytes.take extrabufSize,
    Nat.le_trans (List.length_take_le _ _) (by rw [SizeT.maxSize_eq, extrabufSize_eq]; decide)⟩

/-- `Buffer::readFd`, with what `::readv` returns (-1 on an error). -/
def readFd (result : ReadResult) (b : Buffer) : Except Abort (Int × Buffer) :=
  match result with
  | .fail _ => .ok (-1, b)
  | .data bytes => do
    let writeable := b.writeableBytes
    let delivered := bytes.take b.readvSpace
    let n := delivered.length
    -- the kernel fills the tail of the buffer first, then `extrabuf`
    let storage ← copyTo b.buffer b.writerIndex (delivered.take writeable)
    if n ≤ writeable then
      .ok (n, { b with buffer := storage, writerIndex := SizeT.add b.writerIndex n })
    else do
      let b ← append (extrabuf (delivered.drop writeable))
        { b with buffer := storage, writerIndex := storage.length }
      .ok (n, b)

end Buffer

end CppWeb
