/-
  Tcp/Connection.lean --- what a `TCPConnection` does on its loop.

  The handlers of the connection's channel and the closures that its public
  functions hand to the loop are functions on the state of the connection.
  Each makes at most one `::readv` and one `::write`, whose results are an
  argument, and returns the tasks it queued beside the new state.

  The connection keeps a log of the system calls on its socket.  What the
  kernel has accepted so far, whether a FIN was issued and in which order, is
  read off the log.

  The user's callbacks stand at the end of the functions that call them, so
  what they do to the connection is a matter of the calls that the loop thread
  makes after them (see `Tcp/World.lean`).
-/
import CppWeb.Buffer.Content
import CppWeb.Loop.EventLoop
import CppWeb.Poll.Channel

set_option autoImplicit false

namespace CppWeb.Tcp

open CppWeb.Foundation CppWeb.Loop CppWeb.Poll

/-! ## System calls -/

def eIntr : Nat := 4
def eAgain : Nat := 11
def eWouldBlock : Nat := eAgain

/-- What `::write` answers: how many bytes it accepted (at most as many as it
was offered), or an error. -/
inductive WriteResult where
  | accepted (n : Nat)
  | fail (errno : Nat)
  deriving DecidableEq, Repr

/-- The number of bytes that were accepted of `len` offered ones. -/
def WriteResult.taken (len : Nat) : WriteResult → Nat
  | .accepted n => min n len
  | .fail _ => 0

/-- The error for which `sendInLoop` gives up: any but the three that mean "not
now". -/
def WriteResult.isFault : WriteResult → Bool
  | .accepted _ => false
  | .fail errno => !(errno == eAgain || errno == eWouldBlock || errno == eIntr)

/-- A system call on the socket of the connection. -/
inductive Syscall where
  | readv (result : ReadResult)
  | write (data : List UInt8) (result : WriteResult)
  | shutdownWr
  | getsockopt
  deriving DecidableEq, Repr

/-- The bytes a system call handed over to the kernel. -/
def Syscall.delivered : Syscall → List UInt8
  | .write data result => data.take (result.taken data.length)
  | .readv _ | .shutdownWr | .getsockopt => []

/-- What the system calls of one handler or closure answer. -/
structure Io where
  write : WriteResult
  read : ReadResult

/-! ## State -/

/-- `ConnectionState` -/
inductive ConnectionState where
  | kConnecting
  | kConnected
  | kDisconnecting
  | kDisconnected
  deriving DecidableEq, Repr

/-- The value of an enumerator, for `m_state <= kDisconnecting`. -/
def ConnectionState.toNat : ConnectionState → Nat
  | .kConnecting => 0
  | .kConnected => 1
  | .kDisconnecting => 2
  | .kDisconnected => 3

/-- A message with the call of `send` it comes from: the thread, and how many
calls of `send` that thread made before. -/
structure Message where
  sender : Thread
  seq : Nat
  data : Bytes
  deriving DecidableEq, Repr

/-- The closures that a connection hands to its loop. -/
inductive Task where
  | sendInLoop (message : Message)
  | shutdownInLoop
  | forceCloseInLoop
  | stopRead
  | startRead
  | writeCompleteCallback
  | highWaterMarkCallback (len : Nat)
  deriving DecidableEq, Repr

/-- The closures that do no more than call a callback of the user. -/
def Task.IsNotification : Task → Prop
  | .writeCompleteCallback | .highWaterMarkCallback _ => True
  | .sendInLoop _ | .shutdownInLoop | .forceCloseInLoop | .stopRead | .startRead => False

/-- Which callbacks are set, and the high-water mark. -/
structure Settings where
  writeCompleteCallback : Bool
  closeCallback : Bool
  highWaterMarkCallback : Bool
  highWaterMark : Nat
  deriving DecidableEq, Repr

/-- A `TCPConnection`, with the log of its system calls and how often the body
of `handleClose` and the close callback were run. -/
structure Connection where
  settings : Settings
  state : ConnectionState
  channel : Channel
  inputBuffer : Buffer
  outputBuffer : Buffer
  syscalls : List Syscall
  closes : Nat
  closeCallbacks : Nat
  deriving DecidableEq, Repr

namespace Connection

/-- The bytes the kernel has accepted, in order. -/
def wire (c : Connection) : List UInt8 := c.syscalls.flatMap Syscall.delivered

/-- One more system call. -/
def record (c : Connection) (call : Syscall) : Connection :=
  { c with syscalls := c.syscalls ++ [call] }

/-! ## Construction -/

/-- `TCPConnection::TCPConnection`, with the setters called on it before it is
established. -/
def new (settings : Settings) : Except Abort Connection := do
  let inputBuffer ← Buffer.new Buffer.kInitialSize
  let outputBuffer ← Buffer.new Buffer.kInitialSize
  .ok { settings := settings
        state := .kConnecting
        channel := Channel.new
        inputBuffer := inputBuffer
        outputBuffer := outputBuffer
        syscalls := []
        closes := 0
        closeCallbacks := 0 }

def connectEstablished (c : Connection) : Except Abort Connection := do
  require .connectEstablished (c.state = .kConnecting)
  let channel ← c.channel.enableRead
  .ok { c with state := .kConnected, channel := channel }

/-- The assertion of `TCPConnection::~TCPConnection`. -/
def destructor (c : Connection) : Except Abort Unit :=
  require .destructor (c.state = .kDisconnected)

/-! ## Closures -/

/-- The first half of `sendInLoop`: unless a write is pending, write at once.
Returns `n`, `falutError` and the tasks queued. -/
def writeAtOnce (c : Connection) (io : WriteResult) (message : Bytes) :
    Except Abort (Connection × Nat × Bool × List Task) :=
  if !c.channel.isWriting then do
    require .sendInLoop (c.outputBuffer.readableBytes = 0)
    let written := c.record (.write message.data io)
    let n := io.taken message.length
    match io with
    | .fail _ => .ok (written, 0, io.isFault, [])
    | .accepted _ =>
        let tasks := if message.length - n = 0 ∧ c.settings.writeCompleteCallback = true then
          [.writeCompleteCallback] else []
        .ok (written, n, false, tasks)
  else .ok (c, 0, false, [])

/-- The second half of `sendInLoop`: what is left goes into the buffer. -/
def bufferRest (c : Connection) (rest : Bytes) : Except Abort (Connection × List Task) := do
  let oldLen := c.outputBuffer.readableBytes
  let newLen := SizeT.add oldLen rest.length
  let tasks := if c.settings.highWaterMarkCallback = true ∧
      oldLen < c.settings.highWaterMark ∧ newLen ≥ c.settings.highWaterMark then
    [Task.highWaterMarkCallback newLen] else []
  let outputBuffer ← c.outputBuffer.append rest
  let channel ← c.channel.enableWrite
  .ok ({ c with outputBuffer := outputBuffer, channel := channel }, tasks)

def sendInLoop (c : Connection) (io : WriteResult) (message : Bytes) :
    Except Abort (Connection × List Task) :=
  if c.state = .kDisconnected then .ok (c, [])
  else do
    let (written, n, falutError, tasks) ← c.writeAtOnce io message
    let remain := message.length - n
    if !falutError ∧ remain > 0 then do
      let r ← written.bufferRest (message.drop n)
      .ok (r.1, tasks ++ r.2)
    else .ok (written, tasks)

def shutdownInLoop (c : Connection) : Connection :=
  if c.state ≠ .kDisconnected ∧ c.channel.isWriting = false then c.record .shutdownWr
  else c

def handleClose (c : Connection) : Except Abort (Connection × List Task) := do
  require .handleClose (c.state = .kConnected ∨ c.state = .kDisconnecting)
  let channel ← c.channel.disableAll
  .ok ({ c with
    state := .kDisconnected
    channel := channel
    closes := c.closes + 1
    closeCallbacks := if c.settings.closeCallback then c.closeCallbacks + 1
      else c.closeCallbacks }, [])

def forceCloseInLoop (c : Connection) : Except Abort (Connection × List Task) :=
  if c.state ≠ .kDisconnected then c.handleClose else .ok (c, [])

/-- The closure of `stopRead`. -/
def stopReadInLoop (c : Connection) : Except Abort (Connection × List Task) :=
  if c.channel.isReading then do
    let channel ← c.channel.disableRead
    .ok ({ c with channel := channel }, [])
  else .ok (c, [])

/-- The closure of `startRead`. -/
def startReadInLoop (c : Connection) : Except Abort (Connection × List Task) :=
  if !c.channel.isReading then do
    let channel ← c.channel.enableRead
    .ok ({ c with channel := channel }, [])
  else .ok (c, [])

/-! ## Handlers -/

/-- `handleError`: the pending error of the socket is only logged. -/
def handleError (c : Connection) : Connection := c.record .getsockopt

def handleRead (c : Connection) (io : ReadResult) : Except Abort (Connection × List Task) := do
  require .handleRead (c.state ≠ .kDisconnected)
  let (n, inputBuffer) ← c.inputBuffer.readFd io
  let read := { c with inputBuffer := inputBuffer }.record (.readv io)
  if n = -1 then .ok (read.handleError, [])
  else if n = 0 then read.handleClose
  else .ok (read, [])

def handleWrite (c : Connection) (io : WriteResult) : Except Abort (Connection × List Task) :=
  if c.state = .kDisconnected then .ok (c, [])
  else do
    require .handleWriteReadable (0 < c.outputBuffer.readableBytes)
    require .handleWriteWriting (c.channel.isWriting = true)
    let data := c.outputBuffer.peek c.outputBuffer.readableBytes
    let written := c.record (.write data io)
    match io with
    | .fail _ => .ok (written, [])
    | .accepted _ => do
      let outputBuffer ← c.outputBuffer.retrieve (io.taken c.outputBuffer.readableBytes)
      let retrieved := { written with outputBuffer := outputBuffer }
      if outputBuffer.readableBytes = 0 then do
        let channel ← c.channel.disableWrite
        let drained := { retrieved with channel := channel }
        let shut := if drained.state = .kDisconnecting then drained.shutdownInLoop else drained
        .ok (shut, if c.settings.writeCompleteCallback then [.writeCompleteCallback] else [])
      else .ok (retrieved, [])

/-! ## What runs on the loop -/

/-- A callback of the channel, or a closure. -/
inductive Job where
  | callback (cb : Callback)
  | task (task : Task)
  deriving DecidableEq, Repr

/-- What the loop thread runs for the connection. -/
def execute (c : Connection) (io : Io) : Job → Except Abort (Connection × List Task)
  | .callback .close => c.handleClose
  | .callback .error => .ok (c.handleError, [])
  | .callback .read => c.handleRead io.read
  | .callback .write => c.handleWrite io.write
  | .task (.sendInLoop message) => c.sendInLoop io.write message.data
  | .task .shutdownInLoop => .ok (c.shutdownInLoop, [])
  | .task .forceCloseInLoop => c.forceCloseInLoop
  | .task .stopRead => c.stopReadInLoop
  | .task .startRead => c.startReadInLoop
  | .task .writeCompleteCallback => .ok (c, [])
  | .task (.highWaterMarkCallback _) => .ok (c, [])

end Connection

end CppWeb.Tcp
