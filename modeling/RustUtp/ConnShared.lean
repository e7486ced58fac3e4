import RustUtp.Packet

/-! # Per-connection state shared with the application

    `ConnCell` is what a connection handle and its engine socket both see.
    The engine reaches it only through the callbacks below.  Every callback is
    also appended to `calls`: the condition variable carries no data, so a
    wake-up is visible in the model exactly as an entry of that trace. -/

namespace UtpConnShared

open UtpPacket

inductive SocketAddr where
  | v4 (ip : UInt32) (port : UInt16)
  | v6 (ip : BitVec 128) (port : UInt16) (flowinfo scopeId : UInt32)
  deriving DecidableEq

namespace SocketAddr

def port : SocketAddr → UInt16
  | v4 _ port => port
  | v6 _ port _ _ => port

def isIpv6 : SocketAddr → Bool
  | v4 _ _ => false
  | v6 _ _ _ _ => true

end SocketAddr

/-- The `io::ErrorKind`s the engine produces or distinguishes; `other` is any
    further kind a transport may report. -/
inductive ErrorKind where
  | connectionReset
  | timedOut
  | invalidInput
  | addrNotAvailable
  | other (code : Nat)
  deriving DecidableEq

inductive Callback where
  | onRead (data : Bytes)
  | onWritable
  | onConnect
  | onEof
  | onError (kind : ErrorKind)
  | onDestroying
  deriving DecidableEq

structure ConnCell where
  readBuf : Bytes
  gotEof : Bool
  gotConnect : Bool
  /-- the engine-side socket no longer exists -/
  destroyed : Bool
  /-- `Conn::close` was called (or the handle dropped) -/
  closed : Bool
  error : Option ErrorKind
  remoteAddr : SocketAddr
  /-- every callback so far, oldest first -/
  calls : List Callback

namespace ConnCell

def new (remoteAddr : SocketAddr) : ConnCell where
  readBuf := []
  gotEof := false
  gotConnect := false
  destroyed := false
  closed := false
  error := none
  remoteAddr := remoteAddr
  calls := []

def onRead (c : ConnCell) (data : Bytes) : ConnCell :=
  { c with readBuf := c.readBuf ++ data, calls := c.calls ++ [.onRead data] }

def onWritable (c : ConnCell) : ConnCell :=
  { c with calls := c.calls ++ [.onWritable] }

def onConnect (c : ConnCell) : ConnCell :=
  { c with gotConnect := true, calls := c.calls ++ [.onConnect] }

def onEof (c : ConnCell) : ConnCell :=
  { c with gotEof := true, calls := c.calls ++ [.onEof] }

def onError (c : ConnCell) (kind : ErrorKind) : ConnCell :=
  { c with
    error := match c.error with
      | none => some kind
      | some k => some k
    calls := c.calls ++ [.onError kind] }

def onDestroying (c : ConnCell) : ConnCell :=
  { c with destroyed := true, calls := c.calls ++ [.onDestroying] }

end ConnCell

/-- The bytes a trace of callbacks handed to the application, in order. -/
def deliveredBytes : List Callback → Bytes
  | [] => []
  | .onRead data :: rest => data ++ deliveredBytes rest
  | _ :: rest => deliveredBytes rest

/-- How often a trace reported end of file. -/
def eofCount : List Callback → Nat
  | [] => 0
  | .onEof :: rest => eofCount rest + 1
  | _ :: rest => eofCount rest

/-- The bytes of two histories one after the other. -/
theorem deliveredBytes_append (l₁ l₂ : List Callback) :
    deliveredBytes (l₁ ++ l₂) = deliveredBytes l₁ ++ deliveredBytes l₂ := by
  induction l₁ with
  | nil => rfl
  | cons c rest ih => cases c <;> simp [deliveredBytes, ih]

/-- The ends of stream in two histories, counted together. -/
theorem eofCount_append (l₁ l₂ : List Callback) :
    eofCount (l₁ ++ l₂) = eofCount l₁ + eofCount l₂ := by
  induction l₁ with
  | nil => simp [eofCount]
  | cons c rest ih => cases c <;> (simp [eofCount, ih]; try omega)

/-- What a cell says about the incoming stream: what waits to be read, whether
    the end was reported, and all that was ever handed over. -/
structure Stream where
  readBuf : Bytes
  gotEof : Bool
  bytes : Bytes
  eofs : Nat

def ConnCell.stream (c : ConnCell) : Stream :=
  ⟨c.readBuf, c.gotEof, deliveredBytes c.calls, eofCount c.calls⟩

/-- A cell that becomes writable has the same stream. -/
@[simp] theorem stream_onWritable (c : ConnCell) : c.onWritable.stream = c.stream := by
  simp [ConnCell.stream, ConnCell.onWritable, deliveredBytes_append, eofCount_append,
    deliveredBytes, eofCount]

@[simp] theorem stream_onConnect (c : ConnCell) : c.onConnect.stream = c.stream := by
  simp [ConnCell.stream, ConnCell.onConnect, deliveredBytes_append, eofCount_append,
    deliveredBytes, eofCount]

@[simp] theorem stream_onError (c : ConnCell) (kind : ErrorKind) :
    (c.onError kind).stream = c.stream := by
  simp [ConnCell.stream, ConnCell.onError, deliveredBytes_append, eofCount_append,
    deliveredBytes, eofCount]

@[simp] theorem stream_onDestroying (c : ConnCell) : c.onDestroying.stream = c.stream := by
  simp [ConnCell.stream, ConnCell.onDestroying, deliveredBytes_append, eofCount_append,
    deliveredBytes, eofCount]

/-- Bytes that arrive wait behind those that do already. -/
@[simp] theorem stream_onRead (c : ConnCell) (data : Bytes) :
    (c.onRead data).stream
      = { c.stream with readBuf := c.readBuf ++ data, bytes := c.stream.bytes ++ data } := by
  simp [ConnCell.stream, ConnCell.onRead, deliveredBytes_append, eofCount_append,
    deliveredBytes, eofCount]

/-- The end of the stream is recorded once for each call. -/
@[simp] theorem stream_onEof (c : ConnCell) :
    c.onEof.stream = { c.stream with gotEof := true, eofs := c.stream.eofs + 1 } := by
  simp [ConnCell.stream, ConnCell.onEof, deliveredBytes_append, eofCount_append,
    deliveredBytes, eofCount]

end UtpConnShared
