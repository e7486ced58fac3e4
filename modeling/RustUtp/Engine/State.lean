import RustUtp.Circular
import RustUtp.ConnShared
import RustUtp.DelayHist
import Mathlib.Data.Finmap

/-! # The engine's state

    `UtpSock` is one connection, `Context` the whole engine behind one UDP
    port.  The source detaches a socket from the table before it runs code on
    it and hands that code both objects; `Detached` is that pair, and every
    socket operation is a function on it.

    What lies outside the engine appears as data of the context:

    * `clock` is the reading of the monotonic clock; one operation sees one
      reading, the environment moves it between operations;
    * `transport n` is the outcome of the `n`-th `send_to` of the run, and
      `wire` lists what was passed to `send_to`, in order;
    * `fpu` holds the results of the `f64` expressions of the controller;
    * `users` is the heap of the reference-counted `ConnShared` cells: a socket
      holds the index of its cell. -/

namespace UtpEngine

open UtpCircular UtpPacket UtpUtil UtpConnShared UtpDelayHist

/-! ## Constants -/

def timeoutCheckInterval : Nat := 500
def maxWindowDecay : Int := 100
def reorderBufferMaxSize : Nat := 1024
def outgoingBufferMaxSize : Nat := 1024
def packetSizeDefault : Nat := 1435
/-- The minimum `max_window` value. It can never drop below this. -/
def minWindowSize : Nat := 10
/-- If we receive 4 or more duplicate acks, we resend the packet that hasn't
    been acked yet. -/
def duplicateAcksBeforeResend : Nat := 3
/-- Allow a reception window of at least 3 ack_nrs behind seq_nr. -/
def ackNrAllowedWindow : Nat := 3
def maxAverageDelaySample : Nat := 2147483647 / 4
/-- The smallest MTU we will search down to. -/
def mtuFloorMin : Nat := 576
def rstInfoTimeout : Int := 10000
def rstInfoLimit : Nat := 1000
def keepaliveInterval : Int := 29000
def ackNrMask : UInt32 := 0xffff
def maxEack : Nat := 128
def ccontrolTarget : Nat := 100 * 1000
def defaultBuf : Nat := 1024 * 1024
def udpIpv4Mtu : Nat := 1500 - 20 - 8 - 24 - 8 - 2 - 36
def udpTeredoMtu : Nat := 1280 - 40 - 8

/-! ## Data types -/

structure Key where
  addr : SocketAddr
  recvId : UInt32
  deriving DecidableEq

inductive ConnState where
  | idle
  | synSent
  | synRecv
  | connected
  | connectedFull
  | reset
  | destroy
  deriving DecidableEq

/-- The states in which data is accepted. -/
def ConnState.isConnected : ConnState → Bool
  | .connected | .connectedFull => true
  | _ => false

structure OutgoingPacket where
  payload : Nat
  /-- microseconds -/
  timeSent : Nat
  transmissions : Nat
  needResend : Bool
  /-- header + payload; total wire length is `data.length` -/
  data : Bytes
  /-- the bytes that waited to be read when the window field was last written;
      only statements about headers speak of it -/
  unread : Nat

structure RstInfo where
  addr : SocketAddr
  connid : UInt32
  ackNr : UInt16
  timestamp : Nat
  deriving DecidableEq

inductive AckResult where
  | acked
  | alreadyAcked
  | notSent
  deriving DecidableEq

/-- Index of a `ConnShared` cell in the heap. -/
abbrev UserId := Nat

/-- MTU discovery. -/
structure Mtu where
  discoverTime : Nat
  ceiling : Nat
  floor : Nat
  last : Nat
  probeSeq : UInt32
  probeSize : Nat

/-- Round trip time, variance, timeouts. -/
structure Timers where
  rtt : Nat
  rttVar : Nat
  rto : Nat
  rttHist : DelayHist
  retransmitCount : Nat
  retransmitTimeout : Nat
  /-- the RTO timer will timeout here -/
  rtoTimeout : Nat
  /-- window-probe timer for a zero remote window -/
  zerowindowTime : Nat
  lastGotPacket : Nat
  lastSentPacket : Nat

/-- Delay histories, and the average delay bookkeeping for the clock drift
    estimate. -/
structure Delay where
  replyMicro : UInt32
  lastMeasuredDelay : Nat
  ourHist : DelayHist
  theirHist : DelayHist
  averageDelay : Int
  currentDelaySum : Int
  currentDelaySamples : Int
  averageDelayBase : UInt32
  averageSampleTime : Nat
  /-- estimated clock drift, microseconds per 5 seconds -/
  clockDrift : Int
  clockDriftRaw : Int

/-- The byte limits on what may be in flight. -/
structure Cwnd where
  /-- maximum window size, in bytes -/
  maxWindow : Nat
  optSndbuf : Nat
  /-- target delay in microseconds -/
  targetDelay : Nat
  /-- max receive window for other end, in bytes -/
  maxWindowUser : Nat
  /-- ms when we last decayed window -/
  lastRwinDecay : Int
  /-- timestamp of the last time the cwnd was full -/
  lastMaxedOutWindow : Nat
  /-- true if we're in slow-start (exponential growth) phase -/
  slowStart : Bool
  /-- the slow-start threshold, in bytes -/
  ssthresh : Nat

/-- Duplicate acks and fast retransmission. -/
structure Resend where
  duplicateAck : UInt8
  fastTimeout : Bool
  timeoutSeqNr : UInt16
  /-- sequence number of the next packet we're allowed to fast-resend -/
  fastResendSeqNr : UInt16

/-- One connection. The fields of the source are flat; here its commented
    groups (timers, delays, windows, resending, MTU) are records of their own. -/
structure UtpSock where
  key : Key
  user : UserId
  inAckList : Bool
  reorderCount : Nat
  /-- the number of packets in the send queue; the oldest un-acked packet is
      `seqNr - curWindowPackets` -/
  curWindowPackets : Nat
  /-- how much of the window is used, number of bytes in-flight -/
  curWindow : Nat
  optRcvbuf : Nat
  gotFin : Bool
  gotFinReached : Bool
  finSent : Bool
  finSentAcked : Bool
  readShutdown : Bool
  closeRequested : Bool
  state : ConnState
  /-- the sequence number of the FIN packet -/
  eofPkt : UInt16
  /-- all sequence numbers up to including this have been properly received -/
  ackNr : UInt16
  /-- the sequence number for the next packet to be sent -/
  seqNr : UInt16
  connSeed : UInt32
  /-- connection ID for packets I receive -/
  connIdRecv : UInt32
  /-- connection ID for packets I send -/
  connIdSend : UInt32
  /-- last rcv window we advertised, in bytes -/
  lastRcvWin : Nat
  extensions : Bytes
  inbuf : CircularBuffer Bytes
  outbuf : CircularBuffer OutgoingPacket
  cwnd : Cwnd
  timers : Timers
  delay : Delay
  resend : Resend
  mtu : Mtu
  /-- a `debug_assert!` about the send window has failed, or a subtraction from
      `cur_window` has underflowed -/
  windowFault : Bool

/-- A reading of the monotonic clock: microseconds since the engine started. -/
structure Clock where
  elapsed : Nat

def Clock.micros (c : Clock) : Nat := 1000000 + c.elapsed
def Clock.millis (c : Clock) : Nat := 1000 + c.elapsed / 1000

/-- Results of the floating-point expressions of the congestion controller. -/
structure Fpu where
  /-- the candidate window of the LEDBAT branch -/
  ledbatCwnd : (maxWindow bytesAcked : Nat) → (offTarget target : Int) →
    (rateLimited : Bool) → Nat
  /-- the candidate window of slow start -/
  ssCwnd : (maxWindow bytesAcked packetSize : Nat) → Nat
  /-- `our_delay > target * 0.9` -/
  nearTarget : (ourDelay target : Int) → Bool

/-- What holds of a socket when it sends a datagram: the ids, numbers and the
    room for data that the header is about.  The code keeps no such note. -/
structure Note where
  connIdSend : UInt32
  ackNr : UInt16
  optRcvbuf : Nat
  /-- the bytes that wait to be read -/
  unread : Nat
  /-- and those that did when the window field was written -/
  unreadWritten : Nat
  deriving DecidableEq

/-- A datagram passed to `send_to`, with the cell of the emitting socket and the
    note of it (`none` for an RST, which no socket sends). -/
structure Sent where
  src : Option UserId
  dst : SocketAddr
  bytes : Bytes
  note : Option Note
  deriving DecidableEq

structure Context where
  sockets : Finmap (fun _ : Key => UtpSock)
  ackList : List Key
  rstInfo : List RstInfo
  targetDelay : Nat
  optSndbuf : Nat
  optRcvbuf : Nat
  currentMs : Nat
  lastCheck : Nat
  clock : Clock
  rng : Rng
  transport : Nat → Option ErrorKind
  fpu : Fpu
  users : UserId → ConnCell
  nextUser : UserId
  wire : List Sent

/-- `Context::new`, with the surroundings it starts in. -/
def Context.new (clock : Clock) (rng : Rng) (transport : Nat → Option ErrorKind)
    (fpu : Fpu) (users : UserId → ConnCell) : Context where
  sockets := ∅
  ackList := []
  rstInfo := []
  targetDelay := ccontrolTarget
  optSndbuf := defaultBuf
  optRcvbuf := defaultBuf
  currentMs := 0
  lastCheck := 0
  clock := clock
  rng := rng
  transport := transport
  fpu := fpu
  users := users
  nextUser := 0
  wire := []

/-- `UtpSock::new`: the defaults of a created but unconnected socket. -/
def UtpSock.new (ctx : Context) (addr : SocketAddr) (user : UserId) : UtpSock where
  key := { addr := addr, recvId := 0 }
  user := user
  inAckList := false
  reorderCount := 0
  curWindowPackets := 0
  curWindow := 0
  optRcvbuf := ctx.optRcvbuf
  gotFin := false
  gotFinReached := false
  finSent := false
  finSentAcked := false
  readShutdown := false
  closeRequested := false
  state := .idle
  eofPkt := 0
  ackNr := 0
  seqNr := 1
  connSeed := 0
  connIdRecv := 0
  connIdSend := 0
  lastRcvWin := 0
  extensions := List.replicate 8 0
  inbuf := CircularBuffer.new
  outbuf := CircularBuffer.new
  cwnd :=
    { maxWindow := 0
      optSndbuf := ctx.optSndbuf
      targetDelay := ctx.targetDelay
      maxWindowUser := 255 * packetSizeDefault
      lastRwinDecay := 0
      lastMaxedOutWindow := 0
      slowStart := true
      ssthresh := ctx.optSndbuf }
  timers :=
    { rtt := 0
      rttVar := 800
      rto := 3000
      rttHist := DelayHist.new 0
      retransmitCount := 0
      retransmitTimeout := 0
      rtoTimeout := 0
      zerowindowTime := 0
      lastGotPacket := 0
      lastSentPacket := 0 }
  delay :=
    { replyMicro := 0
      lastMeasuredDelay := 0
      ourHist := DelayHist.new 0
      theirHist := DelayHist.new 0
      averageDelay := 0
      currentDelaySum := 0
      currentDelaySamples := 0
      averageDelayBase := 0
      averageSampleTime := 0
      clockDrift := 0
      clockDriftRaw := 0 }
  resend :=
    { duplicateAck := 0
      fastTimeout := false
      timeoutSeqNr := 0
      fastResendSeqNr := 1 }
  mtu :=
    { discoverTime := 0
      ceiling := 0
      floor := 0
      last := 0
      probeSeq := 0
      probeSize := 0 }
  windowFault := false

/-- A socket detached from the table together with the context it runs in. -/
structure Detached where
  ctx : Context
  sock : UtpSock

/-! ## The heap of `ConnShared` cells -/

/-- Run a callback on the cell of user `u`. -/
def Context.onUser (ctx : Context) (u : UserId) (f : ConnCell → ConnCell) : Context :=
  { ctx with users := Function.update ctx.users u (f (ctx.users u)) }

/-- `Arc::new(ConnShared::new(addr))`: a fresh cell. -/
def Context.allocUser (ctx : Context) (addr : SocketAddr) : UserId × Context :=
  (ctx.nextUser,
    { ctx with
      users := Function.update ctx.users ctx.nextUser (ConnCell.new addr)
      nextUser := ctx.nextUser + 1 })

namespace Detached

/-- Run a callback on the socket's own cell. -/
def notify (m : Detached) (f : ConnCell → ConnCell) : Detached :=
  { m with ctx := m.ctx.onUser m.sock.user f }

/-- The cell of the socket's connection. -/
def cell (m : Detached) : ConnCell := m.ctx.users m.sock.user

/-- A `debug_assert!` about the send window. -/
def check (m : Detached) (ok : Bool) : Detached :=
  { m with sock := { m.sock with windowFault := m.sock.windowFault || !ok } }

end Detached

end UtpEngine
