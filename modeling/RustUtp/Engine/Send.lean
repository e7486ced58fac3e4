import RustUtp.Engine.State

/-! # Sending — acks, packets, the send queue and writes

    The sending half of the socket, function by function.  The wrapping loops
    of the source run over a window whose bounds do not move while they run,
    so each is a structural recursion on the number of its rounds. -/

namespace UtpEngine

open UtpCircular UtpPacket UtpUtil UtpConnShared UtpDelayHist

/-! ## Windows and sizes -/

def Cwnd.canDecayWin (w : Cwnd) (msec : Int) : Bool :=
  msec - w.lastRwinDecay ≥ maxWindowDecay

/-- If we can, decay max window. The source halves through `f64`, which is
    exact integer halving below 2^53. -/
def Cwnd.maybeDecayWin (w : Cwnd) (currentMs : Nat) : Cwnd :=
  if w.canDecayWin currentMs then
    { w with
      maxWindow := max (w.maxWindow / 2) minWindowSize
      lastRwinDecay := currentMs
      slowStart := false
      ssthresh := max (w.maxWindow / 2) minWindowSize }
  else w

/-- `max_send` of `is_full`: the smallest of the three byte limits. -/
def Cwnd.maxSend (w : Cwnd) : Nat := min (min w.maxWindow w.optSndbuf) w.maxWindowUser

/-- Start a new search below the MTU of the interface. -/
def Mtu.reset (m : Mtu) (udpMtu currentMs : Nat) : Mtu :=
  { m with
    ceiling := udpMtu
    -- an interface can report an MTU below the smallest size we would
    -- otherwise search down to; follow it down
    floor := if mtuFloorMin > udpMtu then udpMtu else mtuFloorMin
    discoverTime := currentMs + 30 * 60 * 1000 }

namespace UtpSock

/-- Be conservative and assume all IPv6 connections are Teredo. -/
def getUdpMtu (s : UtpSock) : Nat :=
  if s.key.addr.isIpv6 then udpTeredoMtu else udpIpv4Mtu

/-- The max number of bytes of payload the connection is allowed to send in
    one packet. -/
def getPacketSize (s : UtpSock) : Nat :=
  (if s.mtu.last ≠ 0 then s.mtu.last else s.mtu.ceiling) - headerSize

def mtuReset (s : UtpSock) (currentMs : Nat) : UtpSock :=
  { s with mtu := s.mtu.reset s.getUdpMtu currentMs }

/-- The decision of `is_full`. -/
def fullFor (s : UtpSock) (bytes : Option Nat) : Bool :=
  let packetSize := s.getPacketSize
  let bytes := match bytes with
    | none => packetSize
    | some b => min b packetSize
  -- subtract one to save space for the FIN packet
  s.curWindowPackets ≥ outgoingBufferMaxSize - 1 || s.curWindow + bytes > s.cwnd.maxSend

/-- The selective-ack bit mask: bit `i` is set when `ackNr + 2 + i` is held in
    the reorder buffer. -/
def ackMask (s : UtpSock) : Nat :=
  (List.range (min (14 + 16) s.inbuf.size)).foldl
    (fun m i =>
      if (s.inbuf.get (s.ackNr.toNat + i + 2)).isSome then m ||| (1 <<< i) else m) 0

end UtpSock

/-- `u32::to_le_bytes`. -/
def leBytes32 (m : Nat) : Bytes :=
  [UInt8.ofNat m, UInt8.ofNat (m / 2 ^ 8), UInt8.ofNat (m / 2 ^ 16),
    UInt8.ofNat (m / 2 ^ 24)]

/-- Record a datagram on the wire and report the transport's verdict. -/
def Context.sendToAddr (ctx : Context) (src : Option UserId) (note : Option Note) (buf : Bytes)
    (addr : SocketAddr) : Context × Option ErrorKind :=
  ({ ctx with wire := ctx.wire ++ [⟨src, addr, buf, note⟩] }, ctx.transport ctx.wire.length)

namespace Detached

/-- `ctx.current_ms = ctx.clock.millis()` -/
def readClock (m : Detached) : Detached :=
  { m with ctx := { m.ctx with currentMs := m.ctx.clock.millis } }

/-- Current receive window: what is buffered for the app is trimmed off. -/
def getRcvWindow (m : Detached) : Nat := m.sock.optRcvbuf - m.cell.readBuf.length

/-- `self.last_rcv_win = self.get_rcv_window(ctx)` -/
def updateRcvWin (m : Detached) : Detached :=
  { m with sock := { m.sock with lastRcvWin := m.getRcvWindow } }

def ackListRemove (m : Detached) : Detached :=
  if m.sock.inAckList then
    { ctx := { m.ctx with ackList := m.ctx.ackList.filter (· ≠ m.sock.key) }
      sock := { m.sock with inAckList := false } }
  else m

def scheduleAck (m : Detached) : Detached :=
  if m.sock.inAckList then m
  else
    { ctx := { m.ctx with ackList := m.ctx.ackList ++ [m.sock.key] }
      sock := { m.sock with inAckList := true } }

/-! ## Putting packets on the wire -/

/-- The header timestamps `send_data` writes just before sending. -/
def stampTimes (m : Detached) (buf : Bytes) : Bytes :=
  setReplyMicro (setTvUsec buf (UInt32.ofNat m.ctx.clock.micros)) m.sock.delay.replyMicro

/-- The note of a datagram whose window field was written when `written` bytes
    waited to be read. -/
def note (m : Detached) (written : Nat) : Note :=
  ⟨m.sock.connIdSend, m.sock.ackNr, m.sock.optRcvbuf, m.cell.readBuf.length, written⟩

/-- `send_data`: stamp the header timestamps and put the packet on the wire.
    Unrecoverable argument and routing errors fail the connection, transient
    ones are ignored. -/
def sendData (m : Detached) (written : Nat) (buf : Bytes) : Detached :=
  let sent := m.ctx.sendToAddr (some m.sock.user) (some (m.note written)) (m.stampTimes buf)
    m.sock.key.addr
  let m : Detached :=
    { ctx := sent.1
      sock :=
        { m.sock with timers := { m.sock.timers with lastSentPacket := m.ctx.currentMs } } }
  let m := match sent.2 with
    | some .invalidInput => m.notify (·.onError .invalidInput)
    | some .addrNotAvailable => m.notify (·.onError .addrNotAvailable)
    | _ => m
  m.ackListRemove

/-- The datagram `send_ack` builds, before the timestamps. -/
def ackDatagram (m : Detached) : Bytes :=
  let b := List.replicate headerSize 0
  let b := setVersionType b 1 stState
  let b := setConnId b m.sock.connIdSend.toUInt16
  let b := setAckNr b m.sock.ackNr
  let b := setSeqNr b m.sock.seqNr
  let b := setWindowSize b (UInt32.ofNat m.getRcvWindow)
  -- we never need to send EACK for connections that are shutting down
  if m.sock.reorderCount ≠ 0 ∧ m.sock.gotFinReached = false then
    setExt b 1 ++ ([0, 4] ++ leBytes32 m.sock.ackMask)
  else b

/-- `send_ack`. The `synack` argument only feeds a debug assertion. -/
def sendAck (m : Detached) (_synack : Bool) : Detached :=
  let b := m.ackDatagram
  (m.updateRcvWin.sendData m.cell.readBuf.length b).ackListRemove

def sendKeepAlive (m : Detached) : Detached :=
  let m := { m with sock := { m.sock with ackNr := m.sock.ackNr - 1 } }
  let m := m.sendAck false
  { m with sock := { m.sock with ackNr := m.sock.ackNr + 1 } }

/-- The MTU bookkeeping of `send_packet`: a periodic restart of the search,
    then the choice of a probe among packets sent for the first time. -/
def mtuOnSend (s : UtpSock) (curTime : Nat) (pkt : OutgoingPacket) : Mtu :=
  let mtu := if s.mtu.discoverTime < curTime then s.mtu.reset s.getUdpMtu curTime else s.mtu
  if mtu.floor < mtu.ceiling ∧ pkt.data.length > mtu.floor
      ∧ pkt.data.length ≤ mtu.ceiling ∧ mtu.probeSeq = 0 ∧ s.seqNr ≠ 1
      ∧ pkt.transmissions = 0 then
    -- we've already incremented seq_nr for this packet
    { mtu with probeSeq := (s.seqNr - 1).toUInt32, probeSize := pkt.data.length }
  else mtu

/-- The accounting of `send_packet`. Only the first transmission, or one after a
    loss, counts against the window. -/
def countSend (m : Detached) (pkt : OutgoingPacket) : Detached :=
  { m with
    sock :=
      { m.sock with
        curWindow :=
          if pkt.transmissions = 0 ∨ pkt.needResend = true then
            m.sock.curWindow + pkt.payload
          else m.sock.curWindow
        mtu := mtuOnSend m.sock m.ctx.clock.millis pkt } }

/-- The packet as it stays in the queue after it has been sent. -/
def sentPacket (m : Detached) (pkt : OutgoingPacket) : OutgoingPacket where
  payload := pkt.payload
  timeSent := m.ctx.clock.micros
  transmissions := pkt.transmissions + 1
  needResend := false
  data := m.stampTimes (setAckNr pkt.data m.sock.ackNr)
  unread := pkt.unread

/-- Put a packet into slot `seq` of the queue, or clear the slot. -/
def putOut (m : Detached) (seq : UInt16) (pkt : Option OutgoingPacket) : Detached :=
  { m with sock := { m.sock with outbuf := m.sock.outbuf.put seq.toNat pkt } }

/-- `send_packet`, addressed by sequence number since packets live in outbuf. -/
def sendPacketAt (m : Detached) (seq : UInt16) : Detached :=
  match m.sock.outbuf.get seq.toNat with
  | none => m
  | some pkt =>
      ((m.countSend pkt).sendData pkt.unread (setAckNr pkt.data m.sock.ackNr)).putOut seq
        (some (m.sentPacket pkt))

/-! ## The send window -/

def isFull (m : Detached) (bytes : Option Nat) : Detached × Bool :=
  if m.sock.fullFor bytes then
    ({ m with
        sock :=
          { m.sock with
            cwnd := { m.sock.cwnd with lastMaxedOutWindow := m.ctx.currentMs } } }, true)
  else (m, false)

/-- Is there a packet at `i` that waits to be (re)sent? Returns its payload. -/
def sendable (s : UtpSock) (i : UInt16) : Option Nat :=
  match s.outbuf.get i.toNat with
  | none => none
  | some p => if p.transmissions = 0 ∨ p.needResend = true then some p.payload else none

/-- The loop of `flush_packets`; the counter is `seq_nr - i`. -/
def flushLoop (packetSize : Nat) : Nat → UInt16 → Detached → Detached × Bool
  | 0, _, m => (m, false)
  | n + 1, i, m =>
      match sendable m.sock i with
      | none => flushLoop packetSize n (i + 1) m
      | some payload =>
          -- have we run out of quota?
          if (m.isFull none).2 then ((m.isFull none).1, true)
          -- Nagle check: don't send the last packet if we have packets
          -- in-flight and the current packet is still small.
          else if i ≠ m.sock.seqNr - 1 ∨ m.sock.curWindowPackets = 1
              ∨ payload ≥ packetSize then
            flushLoop packetSize n (i + 1) (m.sendPacketAt i)
          else flushLoop packetSize n (i + 1) m

/-- Returns true if it ran out of window. -/
def flushPackets (m : Detached) : Detached × Bool :=
  let i := m.sock.seqNr - UInt16.ofNat m.sock.curWindowPackets
  flushLoop m.sock.getPacketSize (m.sock.seqNr - i).toNat i m

/-! ## Filling the send queue -/

/-- The header fields every new or extended packet gets. -/
def fillHeader (m : Detached) (flags : UInt8) (seq : Option UInt16) (data : Bytes) :
    Bytes :=
  let b := setVersionType data 1 flags
  let b := setExt b 0
  let b := setConnId b m.sock.connIdSend.toUInt16
  let b := setWindowSize b (UInt32.ofNat m.sock.lastRcvWin)
  let b := setAckNr b m.sock.ackNr
  match seq with
  | some s => setSeqNr b s
  | none => b

/-- The last packet in the window, if it hasn't been sent yet and there's any
    room left in it. -/
def extensible (s : UtpSock) (packetSize payload : Nat) : Option OutgoingPacket :=
  if payload > 0 ∧ s.curWindowPackets > 0 then
    match s.outbuf.get (s.seqNr - 1).toNat with
    | some p => if p.transmissions = 0 ∧ p.payload < packetSize then some p else none
    | none => none
  else none

/-- How many of `payload` bytes an extension of `p` takes. -/
def roomFor (p : OutgoingPacket) (packetSize payload : Nat) : Nat :=
  min (payload + p.payload) (max packetSize p.payload) - p.payload

/-- Packet `p`, extended by `added` bytes. -/
def extendedPacket (m : Detached) (p : OutgoingPacket) (flags : UInt8) (added : Nat)
    (data : Bytes) : OutgoingPacket :=
  { p with
    data := m.fillHeader flags none (p.data ++ data.take added)
    payload := p.payload + added
    unread := m.cell.readBuf.length }

/-- Extend the last packet by `added` bytes. -/
def extendLast (m : Detached) (p : OutgoingPacket) (flags : UInt8) (added : Nat)
    (data : Bytes) : Detached :=
  let m := m.check (p.needResend = false && min added data.length = added)
  m.putOut (m.sock.seqNr - 1) (some (m.extendedPacket p flags added data))

/-- A new packet with `added` bytes of payload. -/
def newPacket (m : Detached) (flags : UInt8) (added : Nat) (data : Bytes) :
    OutgoingPacket where
  payload := added
  timeSent := 0
  transmissions := 0
  needResend := false
  data := m.fillHeader flags (some m.sock.seqNr)
    (List.replicate headerSize 0 ++ data.take added)
  unread := m.cell.readBuf.length

/-- Remember a new message of `added` bytes in the outgoing queue. -/
def pushPacket (m : Detached) (flags : UInt8) (added : Nat) (data : Bytes) : Detached :=
  let m := m.check (min added data.length = added)
  { m with
    sock :=
      { m.sock with
        outbuf := (m.sock.outbuf.ensureSize m.sock.seqNr.toNat
          m.sock.curWindowPackets).put m.sock.seqNr.toNat
          (some (m.newPacket flags added data))
        seqNr := m.sock.seqNr + 1
        curWindowPackets := m.sock.curWindowPackets + 1 } }

/-- The loop of `write_outgoing_packet`. A round that extends the last packet
    consumes at least one byte and a round that creates a packet is the last
    one, so `payload + 1` rounds are enough. -/
def writeLoop (packetSize : Nat) (flags : UInt8) :
    Nat → Nat → Bytes → Detached → Detached × Bytes
  | 0, _, data, m => (m, data)
  | fuel + 1, payload, data, m =>
      let m := m.check (m.sock.curWindowPackets < outgoingBufferMaxSize)
      let m := m.updateRcvWin
      match extensible m.sock packetSize payload with
      | some p =>
          let added := roomFor p packetSize payload
          let m := m.extendLast p flags added data
          if payload - added = 0 then (m, data.drop added)
          else writeLoop packetSize flags fuel (payload - added) (data.drop added) m
      | none => (m.pushPacket flags payload data, data.drop payload)

/-- Setup initial timeout timer. -/
def armTimer (m : Detached) : Detached :=
  if m.sock.curWindowPackets = 0 then
    ({ m with
        sock :=
          { m.sock with
            timers :=
              { m.sock.timers with
                retransmitTimeout := m.sock.timers.rto
                rtoTimeout := m.ctx.currentMs + m.sock.timers.rto } } }).check
      (m.sock.curWindow = 0)
  else m

/-- `write_outgoing_packet`; also returns what is left of the caller's slice. -/
def writeOutgoingPacket (m : Detached) (payload : Nat) (flags : UInt8) (data : Bytes) :
    Detached × Bytes :=
  let m := m.armTimer
  let r := writeLoop m.sock.getPacketSize flags (payload + 1) payload data m
  (r.1.flushPackets.1, r.2)

/-- The loop of `utp_writev`: rounds, bytes left, bytes accepted so far. Every
    round but one on an empty slice consumes at least one byte. The flag tells
    whether the slice was used up. -/
def writeEngineLoop (packetSize : Nat) :
    Nat → Bytes → Nat → Detached → Detached × Nat × Bool
  | 0, _, sent, m => (m, sent, false)
  | fuel + 1, remaining, sent, m =>
      let numToSend := min remaining.length packetSize
      if (m.isFull (some numToSend)).2 then ((m.isFull (some numToSend)).1, sent, false)
      else
        let r := m.writeOutgoingPacket numToSend stData remaining
        if min r.2.length packetSize = 0 then (r.1, sent + numToSend, true)
        else writeEngineLoop packetSize fuel r.2 (sent + numToSend) r.1

/-- `utp_writev` (single buffer). Returns bytes accepted; 0 means the socket is
    not currently writable. -/
def writeEngine (m : Detached) (buf : Bytes) : Detached × Nat :=
  if m.sock.state ≠ .connected then (m, 0)
  else if m.sock.finSent then (m, 0)
  else
    let m := m.readClock
    let r := writeEngineLoop m.sock.getPacketSize (buf.length + 1) buf 0 m
    if r.2.2 then (r.1, r.2.1)
    else
      let m := (r.1.isFull none).1
      if (r.1.isFull none).2 then
        -- mark the socket as not being writable
        ({ m with sock := { m.sock with state := .connectedFull } }, r.2.1)
      else (m, r.2.1)

end Detached

end UtpEngine
