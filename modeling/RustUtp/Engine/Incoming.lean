import RustUtp.Engine.Ack

/-! # Processing an incoming datagram

    `process_incoming` in the order of the source: range check of the ack
    number, the walk over the extension headers, the sequence check, the
    bookkeeping of acknowledgements and delays, the application of the acks to
    the send queue, and last the receive side. -/

namespace UtpEngine

open UtpCircular UtpPacket UtpUtil UtpConnShared UtpDelayHist

/-! ## Extension headers -/

/-- What the walk over the extension headers found. -/
structure ExtWalk where
  dataStart : Nat
  /-- offset and length of the selective-ack mask -/
  selack : Option (Nat × Nat)

/-- The walk over the extension chain from offset `start`, where an element of
    type `extension` begins. Each round moves `start` by at least two bytes, so
    `buf.length` rounds are enough; the first component is the
    `extensions` field, which keeps what was copied before a failure. -/
def extLoop (buf : Bytes) :
    Nat → Nat → UInt8 → Option (Nat × Nat) → Bytes → Bytes × Option ExtWalk
  | 0, _, _, _, exts => (exts, none)
  | fuel + 1, start, extension, selack, exts =>
      -- Verify that the packet is valid.
      let dataStart := start + 2
      if dataStart > buf.length then (exts, none)
      else
        let elen := (byteAt buf (dataStart - 1)).toNat
        if buf.length - dataStart < elen then (exts, none)
        else if extension = 2 ∧ elen ≠ 8 then (exts, none)
        else
          let selack := if extension = 1 then some (dataStart, elen) else selack
          let exts := if extension = 2 then (buf.drop dataStart).take 8 else exts
          let next := byteAt buf (dataStart - 2)
          if next = 0 then (exts, some ⟨dataStart + elen, selack⟩)
          else extLoop buf fuel (dataStart + elen) next selack exts

/-- Skip the extension headers. -/
def skipExtensions (buf exts : Bytes) : Bytes × Option ExtWalk :=
  if ext buf = 0 then (exts, some ⟨headerSize, none⟩)
  else extLoop buf buf.length headerSize (ext buf) none exts

/-- The mask bytes of a selective ack. -/
def maskOf (buf : Bytes) (sel : Nat × Nat) : Bytes := (buf.drop sel.1).take sel.2

namespace UtpSock

/-- Acks outside `[seq_nr - 1 - curr_window, seq_nr - 1]` are dropped. -/
def ackOutOfRange (s : UtpSock) (pkAckNr : UInt16) : Bool :=
  let currWindow := max ((s.curWindowPackets + ackNrAllowedWindow) % 2 ^ 16) ackNrAllowedWindow
  wrappingCompareLess (s.seqNr - 1).toUInt32 pkAckNr.toUInt32 ackNrMask
    || wrappingCompareLess pkAckNr.toUInt32
        (s.seqNr - 1 - UInt16.ofNat currWindow).toUInt32 ackNrMask

/-- The number of packets a cumulative ack covers; 0 for an old ack. -/
def acksOf (s : UtpSock) (pkAckNr : UInt16) : Nat :=
  let acks := (pkAckNr - (s.seqNr - 1 - UInt16.ofNat s.curWindowPackets)).toNat
  if acks > s.curWindowPackets then 0 else acks

/-- The sequence number of the oldest packet in the window. -/
def oldest (s : UtpSock) : UInt16 := s.seqNr - UInt16.ofNat s.curWindowPackets

/-- The duplicate-ack counter, and the MTU probe verdict it can trigger. It's
    important to only count ACKs in ST_STATE packets. -/
def countDuplicate (s : UtpSock) (nowMs : Nat) (pkAckNr : UInt16) (pkFlags : UInt8) :
    UtpSock :=
  if s.curWindowPackets > 0 then
    if pkAckNr = s.oldest - 1 ∧ pkFlags = stState then
      let duplicateAck := s.resend.duplicateAck + 1
      let mtu :=
        if duplicateAck.toNat = duplicateAcksBeforeResend ∧ s.mtu.probeSeq ≠ 0 then
          -- it's likely the probe was rejected due to its size
          if pkAckNr.toUInt32 = (s.mtu.probeSeq - 1) &&& ackNrMask then
            { s.mtu with ceiling := s.mtu.probeSize - 1 }.searchUpdate nowMs
          else
            -- A non-probe was blocked before our probe. Can't conclude much,
            -- send a new probe
            { s.mtu with probeSeq := 0, probeSize := 0 }
        else s.mtu
      { s with resend := { s.resend with duplicateAck := duplicateAck }, mtu := mtu }
    else { s with resend := { s.resend with duplicateAck := 0 } }
  else s

end UtpSock

/-- What the cumulatively acked packets add up to: bytes acked, minimum rtt
    and MTU verdicts. -/
structure AckCount where
  mtu : Mtu
  bytes : Nat
  minRtt : Int

/-- One acked packet, if it is still in the queue. -/
def AckCount.add (c : AckCount) (now nowMs : Nat) (seq : UInt16)
    (pkt : Option OutgoingPacket) : AckCount :=
  match pkt with
  | some p =>
      if p.transmissions > 0 then
        { mtu :=
            if c.mtu.probeSeq ≠ 0 ∧ seq.toUInt32 = c.mtu.probeSeq then
              { c.mtu with floor := c.mtu.probeSize }.searchUpdate nowMs
            else c.mtu
          bytes := c.bytes + p.payload
          minRtt := min c.minRtt (Detached.sampleRtt now p.timeSent) }
      else c
  | none => c

/-- Count the `acks` oldest packets. -/
def UtpSock.countAcked (s : UtpSock) (now nowMs acks : Nat) : AckCount :=
  (List.range acks).foldl
    (fun c i =>
      let seq := s.oldest + UInt16.ofNat i
      c.add now nowMs seq (s.outbuf.get seq.toNat))
    { mtu := s.mtu, bytes := 0, minRtt := 2 ^ 63 - 1 }

/-! ## Delay measurement -/

/-- The signed distance of a delay sample from the base, clamped to the range
    the average can represent. -/
def delayDistance (base sample : UInt32) : Int :=
  let distDown := base - sample
  let distUp := sample - base
  if distDown > distUp then min distUp.toNat maxAverageDelaySample
  else -(min distDown.toNat maxAverageDelaySample : Nat)

namespace Delay

/-- Record the delay to report back; if their new delay base is less than
    their previous one, shift our delay base in the other direction, by at
    most 10 milliseconds. -/
def theirDelay (d : Delay) (time currentMs : Nat) (p : UInt32) : Delay :=
  let delay := if p = 0 then 0 else UInt32.ofNat time - p
  let prevDelayBase := d.theirHist.delayBase
  let theirHist :=
    if delay ≠ 0 then d.theirHist.addSample delay currentMs else d.theirHist
  let d :=
    { d with
      lastMeasuredDelay := currentMs
      replyMicro := delay
      theirHist := theirHist }
  if prevDelayBase ≠ 0
      ∧ wrappingCompareLess theirHist.delayBase prevDelayBase timestampMask = true
      ∧ prevDelayBase - theirHist.delayBase ≤ 10000 then
    { d with ourHist := d.ourHist.shift (prevDelayBase - theirHist.delayBase) }
  else d

/-- Close one 5-second averaging slot: new average, normalization around zero,
    clock drift. -/
def closeSlot (d : Delay) : Delay :=
  let prevAverage := d.averageDelay
  let average := d.currentDelaySum.tdiv d.currentDelaySamples
  let minSample := min prevAverage average
  let maxSample := max prevAverage average
  let adjust := if minSample > 0 then -minSample else if maxSample < 0 then -maxSample else 0
  let drift := (average + adjust) - (prevAverage + adjust)
  { d with
    averageDelay := average + adjust
    averageSampleTime := d.averageSampleTime + 5000
    currentDelaySum := 0
    currentDelaySamples := 0
    averageDelayBase := d.averageDelayBase - UInt32.ofInt adjust
    clockDrift := (d.clockDrift * 7 + drift).tdiv 8
    clockDriftRaw := drift }

/-- Keep an average of the delay samples received within the last 5 seconds. -/
def averageSample (d : Delay) (currentMs : Nat) (actualDelay : UInt32) : Delay :=
  let d := { d with ourHist := d.ourHist.addSample actualDelay currentMs }
  let base := if d.averageDelayBase = 0 then actualDelay else d.averageDelayBase
  let d :=
    { d with
      averageDelayBase := base
      currentDelaySum := d.currentDelaySum + delayDistance base actualDelay
      currentDelaySamples := d.currentDelaySamples + 1 }
  if currentMs > d.averageSampleTime then d.closeSlot else d

/-- If the delay estimate exceeds the RTT, adjust the base delay to compensate. -/
def cap (d : Delay) (minRtt : Int) : Delay :=
  if (d.ourHist.getValue.toNat : Int) > minRtt then
    { d with
      ourHist := d.ourHist.shift
        (UInt32.ofNat (asU32 ((d.ourHist.getValue.toNat : Int) - minRtt))) }
  else d

/-- All delay bookkeeping of one acceptable packet. -/
def onPacket (d : Delay) (time currentMs : Nat) (p actualDelay : UInt32) (minRtt : Int) :
    Delay :=
  let d := d.theirDelay time currentMs p
  let d := if actualDelay ≠ 0 then d.averageSample currentMs actualDelay else d
  d.cap minRtt

end Delay

/-- The delay the peer reports; `i32::MAX` means it has no sample yet. -/
def actualDelay (buf : Bytes) : UInt32 :=
  if replyMicro buf = 2147483647 then 0 else replyMicro buf

namespace Detached

/-- Count the bytes acked by EACK too; the minimum rtt is over both. -/
def totalAcked (m : Detached) (buf : Bytes) (selack : Option (Nat × Nat))
    (counted : AckCount) : Nat × Int :=
  match selack with
  | some sel =>
      let r := m.selectiveAckBytes (ackNr buf + 2) (maskOf buf sel) counted.minRtt
      (counted.bytes + r.1, r.2)
  | none => (counted.bytes, counted.minRtt)

/-- All measurements taken from an acceptable packet before its acks are
    applied: duplicate acks, bytes acked, delays and the congestion window. -/
def measure (m : Detached) (buf : Bytes) (selack : Option (Nat × Nat)) (acks : Nat) :
    Detached :=
  let time := m.ctx.clock.micros
  let nowMs := m.ctx.clock.millis
  let m := { m with sock := m.sock.countDuplicate nowMs (ackNr buf) (packetType buf) }
  let counted := m.sock.countAcked time nowMs acks
  let total := m.totalAcked buf selack counted
  let m : Detached :=
    { m with
      sock :=
        { m.sock with
          mtu := counted.mtu
          delay := m.sock.delay.onPacket time m.ctx.currentMs (tvUsec buf) (actualDelay buf)
            total.2 } }
  -- only apply the congestion controller on acks
  if actualDelay buf ≠ 0 ∧ total.1 ≥ 1 then m.applyCcontrol total.1 total.2 else m

/-! ## Applying acks -/

/-- Handshake completion, and the FIN that has been acked. A dialled
    connection does an empty write, to tell the remote it's ready. -/
def advanceState (m : Detached) (pkFlags : UInt8) (acks : Nat) : Detached :=
  -- Incoming connection completion
  let m :=
    if pkFlags = stData ∧ m.sock.state = .synRecv then
      ({ m with sock := { m.sock with state := .connected } }).notify (·.onWritable)
    else m
  -- Outgoing connection completion
  if pkFlags = stState ∧ m.sock.state = .synSent then
    let m := ({ m with sock := { m.sock with state := .connected } }).notify (·.onConnect)
    (m.writeEngine []).1
  -- We've sent a fin, and everything was ACKed (including the FIN)
  else if m.sock.finSent = true ∧ m.sock.curWindowPackets = acks then
    { m with
      sock :=
        { m.sock with
          finSentAcked := true
          state := if m.sock.closeRequested then .destroy else m.sock.state } }
  else m

/-- Ack the `acks` oldest packets; a packet that was never sent ends the
    loop. -/
def ackLoop : Nat → Detached → Detached
  | 0, m => m
  | n + 1, m =>
      let r := m.ackPacket m.sock.oldest
      if r.2 = .notSent then r.1
      else
        ackLoop n
          { r.1 with sock := { r.1.sock with curWindowPackets := r.1.sock.curWindowPackets - 1 } }

/-- Keep shrinking the window until we hit a packet still waiting to be
    acked. -/
def shrinkLoop : Nat → Detached → Detached
  | 0, m => m
  | n + 1, m =>
      if m.sock.curWindowPackets > 0 ∧ (m.sock.outbuf.get m.sock.oldest.toNat).isNone then
        shrinkLoop n
          { m with sock := { m.sock with curWindowPackets := m.sock.curWindowPackets - 1 } }
      else m

/-- The cumulative ack. -/
def ackCumulative (acks : Nat) (m : Detached) : Detached :=
  let m := ackLoop acks m
  let m := shrinkLoop m.sock.curWindowPackets m
  -- this invariant should always be true
  m.check (m.sock.curWindowPackets = 0
    || (m.sock.outbuf.get m.sock.oldest.toNat).isSome)

/-- Flush Nagle: a single packet that was never sent goes out now. -/
def flushNagle (m : Detached) : Detached :=
  if m.sock.curWindowPackets = 1 then
    match m.sock.outbuf.get (m.sock.seqNr - 1).toNat with
    | some p => if p.transmissions = 0 then m.sendPacketAt (m.sock.seqNr - 1) else m
    | none => m
  else m

/-- Fast timeout-retry: resend the oldest packet once. -/
def fastTimeoutRetry (m : Detached) : Detached :=
  if m.sock.resend.fastTimeout then
    if m.sock.oldest ≠ m.sock.resend.fastResendSeqNr then
      { m with sock := { m.sock with resend := { m.sock.resend with fastTimeout := false } } }
    else if isSent m.sock m.sock.oldest then
      -- bump fast_resend_seq_nr to not allow another fast resend on it again
      let resend :=
        { m.sock.resend with fastResendSeqNr := m.sock.resend.fastResendSeqNr + 1 }
      let m := { m with sock := { m.sock with resend := resend } }
      m.sendPacketAt m.sock.oldest
    else m
  else m

/-- The peer's window, and the timer that probes a closed one. -/
def noteWindow (m : Detached) (buf : Bytes) : Detached :=
  let wnd := (windowSize buf).toNat
  { m with
    sock :=
      { m.sock with
        cwnd := { m.sock.cwnd with maxWindowUser := wnd }
        timers :=
          { m.sock.timers with
            zerowindowTime :=
              if wnd = 0 then m.ctx.currentMs + 15000
              else m.sock.timers.zerowindowTime } } }

def updateFastResend (m : Detached) (pkAckNr : UInt16) : Detached :=
  if wrappingCompareLess m.sock.resend.fastResendSeqNr.toUInt32 (pkAckNr + 1).toUInt32
      ackNrMask then
    { m with
      sock := { m.sock with resend := { m.sock.resend with fastResendSeqNr := pkAckNr + 1 } } }
  else m

/-- Everything that is skipped when the other end acks packets past the point
    we've sent. -/
def applyAcks (m : Detached) (buf : Bytes) (acks : Nat) : Detached :=
  if acks ≤ m.sock.curWindowPackets then
    let m := m.noteWindow buf
    let m := m.advanceState (packetType buf) acks
    let m := m.updateFastResend (ackNr buf)
    (ackCumulative acks m).flushNagle.fastTimeoutRetry
  else m

/-- Mark the socket as writable once the window has room again. -/
def markWritable (m : Detached) : Detached :=
  if m.sock.state = .connectedFull then
    let r := m.isFull none
    if r.2 then r.1
    else ({ m with sock := { m.sock with state := .connected } }).notify (·.onWritable)
  else m

/-- From the ack number of an acceptable packet to the writability of the
    socket: the sending side's share of `process_incoming`. -/
def processAck (m : Detached) (buf : Bytes) (selack : Option (Nat × Nat)) : Detached :=
  let acks := m.sock.acksOf (ackNr buf)
  let m := m.measure buf selack acks
  let m := m.applyAcks buf acks
  let m := match selack with
    | some sel => m.selectiveAck (ackNr buf + 2) (maskOf buf sel)
    | none => m
  m.markWritable

/-! ## The receive side -/

/-- Hand payload to the application, unless it shut reading down. -/
def deliver (m : Detached) (data : Bytes) : Detached :=
  if data ≠ [] ∧ m.sock.readShutdown = false then m.notify (·.onRead data) else m

/-- The FIN has been reached: report EOF. -/
def markFinReached (m : Detached) : Detached :=
  ({ m with
      sock :=
        { m.sock with
          gotFinReached := true
          timers :=
            { m.sock.timers with
              rtoTimeout := m.ctx.currentMs + min (m.sock.timers.rto * 3) 60 } } }).notify
    (·.onEof)

/-- A FIN that has been reached is acked at once, and any stragglers with higher
    sequence numbers are ignored. -/
def reachFin (m : Detached) : Detached :=
  if m.sock.gotFinReached = false ∧ m.sock.gotFin = true ∧ m.sock.eofPkt = m.sock.ackNr then
    let m := m.markFinReached.sendAck false
    { m with sock := { m.sock with reorderCount := 0 } }
  else m

/-- Hand over the packet that was expected next. -/
def acceptNext (m : Detached) (data : Bytes) : Detached :=
  let m := m.deliver data
  { m with sock := { m.sock with ackNr := m.sock.ackNr + 1 } }

/-- Hand over the packet that was expected next, from the reorder buffer. -/
def drainNext (m : Detached) (p : Bytes) : Detached :=
  let m : Detached :=
    { m with
      sock := { m.sock with inbuf := m.sock.inbuf.put (m.sock.ackNr.toNat + 1) none } }
  let m := m.acceptNext p
  { m with sock := { m.sock with reorderCount := m.sock.reorderCount - 1 } }

/-- Check if the next packet has been received too, but is waiting in the
    reorder buffer. Every round but the last takes one buffered packet. -/
def drainLoop : Nat → Detached → Detached
  | 0, m => m
  | fuel + 1, m =>
      let m := m.reachFin
      if m.sock.reorderCount = 0 then m
      else
        match m.sock.inbuf.get (m.sock.ackNr.toNat + 1) with
        | none => m
        | some p => drainLoop fuel (m.drainNext p)

/-- An in-order packet. -/
def receiveInOrder (m : Detached) (data : Bytes) : Detached :=
  let m := m.acceptNext data
  (drainLoop (m.sock.reorderCount + 1) m).scheduleAck

/-- Grow the circle buffer for a packet `seqnr` past the expected one. -/
def growInbuf (m : Detached) (pkSeqNr : UInt16) (seqnr : Nat) : Detached :=
  { m with
    sock :=
      { m.sock with
        inbuf := m.sock.inbuf.ensureSize (pkSeqNr.toNat + 1) (seqnr + 1) } }

/-- Remember a packet for later. -/
def storePacket (m : Detached) (pkSeqNr : UInt16) (data : Bytes) : Detached :=
  { m with
    sock :=
      { m.sock with
        inbuf := m.sock.inbuf.put pkSeqNr.toNat (some data)
        reorderCount := m.sock.reorderCount + 1 } }

/-- An out of order packet. It needs to be remembered and reordered later. -/
def receiveOutOfOrder (m : Detached) (pkSeqNr : UInt16) (seqnr : Nat) (data : Bytes) :
    Detached × Nat :=
  -- if we have received a FIN packet, and the EOF-sequence number is lower
  -- than the sequence number of this packet, something is wrong
  if m.sock.gotFin = true ∧ pkSeqNr > m.sock.eofPkt then (m, 0)
  else if seqnr > 0x3ff then (m, 0)
  else
    -- grow the circle buffer before checking for duplicates so we don't look
    -- at an older packet (the indices wrap)
    let m := m.growInbuf pkSeqNr seqnr
    -- duplicate? discard
    if (m.sock.inbuf.get pkSeqNr.toNat).isSome then (m, 0)
    else ((m.storePacket pkSeqNr data).scheduleAck, data.length)

/-- Is this a finalize packet? -/
def noteFin (m : Detached) (pkFlags : UInt8) (pkSeqNr : UInt16) : Detached :=
  if pkFlags = stFin ∧ m.sock.gotFin = false then
    { m with sock := { m.sock with gotFin := true, eofPkt := pkSeqNr } }
  else m

/-- The receive side's share of `process_incoming`, for a packet that is not
    just a state packet and a socket that can accept data. -/
def receive (m : Detached) (buf : Bytes) (dataStart seqnr : Nat) : Detached × Nat :=
  let m := m.noteFin (packetType buf) (seqNr buf)
  let data := buf.drop dataStart
  if seqnr = 0 then (m.receiveInOrder data, data.length)
  else m.receiveOutOfOrder (seqNr buf) seqnr data

/-- Receipt of a packet whose header passed all checks: a syn-ack initializes
    our ack_nr to match the sequence number of the other end. -/
def noteReceipt (m : Detached) (pkSeqNr : UInt16) : Detached :=
  { m with
    sock :=
      { m.sock with
        ackNr := if m.sock.state = .synSent then pkSeqNr - 1 else m.sock.ackNr
        timers := { m.sock.timers with lastGotPacket := m.ctx.currentMs } } }

/-- How many packets past the expected packet this is; 0 means "this is the
    next expected packet". -/
def seqOffset (s : UtpSock) (pkSeqNr : UInt16) : Nat := (pkSeqNr - s.ackNr - 1).toNat

/-- The part of `process_incoming` after the header checks. -/
def processChecked (m : Detached) (buf : Bytes) (walk : ExtWalk) : Detached × Nat :=
  let seqnr := seqOffset m.sock (seqNr buf)
  -- Getting an invalid sequence number?
  if seqnr ≥ reorderBufferMaxSize then
    if seqnr ≥ 0x10000 - reorderBufferMaxSize ∧ packetType buf ≠ stState then
      (m.scheduleAck, 0)
    else (m, 0)
  else
    let m := m.processAck buf walk.selack
    -- This is a state packet only.
    if packetType buf = stState then (m, 0)
    -- The connection is not in a state that can accept data?
    else if m.sock.state.isConnected = false then (m, 0)
    else m.receive buf walk.dataStart seqnr

/-- `utp_process_incoming`. `syn` is true when this is the SYN of an incoming
    connection; parsing stops after the header in that case. Returns the
    number of payload bytes consumed. -/
def processIncoming (m : Detached) (buf : Bytes) (syn : Bool) : Detached × Nat :=
  let m := m.readClock
  if packetType buf ≥ stNumStates then (m, 0)
  -- ignore packets whose ack_nr is invalid
  else if (packetType buf ≠ stSyn ∨ m.sock.state ≠ .synRecv)
      ∧ m.sock.ackOutOfRange (ackNr buf) = true then (m, 0)
  else if headerSize > buf.length then (m, 0)
  else
    let walk := skipExtensions buf m.sock.extensions
    let m := { m with sock := { m.sock with extensions := walk.1 } }
    match walk.2 with
    | none => (m, 0)
    | some w =>
        let m := m.noteReceipt (seqNr buf)
        if syn then (m, 0) else m.processChecked buf w

end Detached

end UtpEngine
