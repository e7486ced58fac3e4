import RustUtp.Engine.Incoming

/-! # Timers, reads and closing

    The per-socket operations that do not start from a datagram. -/

namespace UtpEngine

open UtpCircular UtpPacket UtpUtil UtpConnShared UtpDelayHist

namespace Detached

/-- A lost packet leaves the byte count and waits to be resent. -/
def markLost (m : Detached) (seq : UInt16) : Detached :=
  match m.sock.outbuf.get seq.toNat with
  | none => m
  | some pkt =>
      if pkt.transmissions = 0 ∨ pkt.needResend = true then m
      else
        ({ m with
            sock :=
              { m.sock with
                outbuf := m.sock.outbuf.put seq.toNat (some { pkt with needResend := true })
                curWindow := m.sock.curWindow - pkt.payload } }).check
          (m.sock.curWindow ≥ pkt.payload)

/-- Every packet should be considered lost: round `i` marks `seq_nr - i - 1`. -/
def markAllLost : Nat → Detached → Detached
  | 0, m => m
  | n + 1, m =>
      let m := markAllLost n m
      m.markLost (m.sock.seqNr - UInt16.ofNat n - 1)

/-- Did the timeout hit a lone MTU probe? That loss is likely due to its size,
    not congestion. -/
def probeTimedOut (s : UtpSock) : Bool :=
  s.curWindowPackets = 1 && (s.seqNr - 1).toUInt32 = s.mtu.probeSeq && s.mtu.probeSeq ≠ 0

/-- The MTU verdict of a timeout; afterwards a new probe is allowed. -/
def mtuOnTimeout (s : UtpSock) (nowMs : Nat) : Mtu :=
  let mtu :=
    if probeTimedOut s then
      { s.mtu with ceiling := s.mtu.probeSize - 1 }.searchUpdate nowMs
    else s.mtu
  { mtu with probeSeq := 0, probeSize := 0 }

/-- The congestion window after a timeout that is not ignored. -/
def windowOnTimeout (s : UtpSock) : UtpSock :=
  let packetSize := s.getPacketSize
  { s with
    resend := { s.resend with duplicateAck := 0 }
    cwnd :=
      if s.curWindowPackets = 0 ∧ s.cwnd.maxWindow > packetSize then
        -- connection is idling; let the window decay by a third
        { s.cwnd with maxWindow := max (s.cwnd.maxWindow * 2 / 3) packetSize }
      else
        -- reset the congestion window to fit one packet, to start over again
        { s.cwnd with maxWindow := packetSize, slowStart := true } }

/-- A connection that is not answered any more: 4 consecutive transmissions
    have timed out (2 when still connecting). -/
def givesUp (s : UtpSock) : Bool :=
  s.timers.retransmitCount ≥ 4 || (s.state = .synSent && s.timers.retransmitCount ≥ 2)

/-- The retransmission part of a timeout: all packets are lost, the oldest one
    is sent again. -/
def retransmitAll (m : Detached) : Detached :=
  let m := markAllLost m.sock.curWindowPackets m
  if m.sock.curWindowPackets > 0 then
    let m :=
      { m with
        sock :=
          { m.sock with
            timers :=
              { m.sock.timers with retransmitCount := m.sock.timers.retransmitCount + 1 }
            resend :=
              { m.sock.resend with fastTimeout := true, timeoutSeqNr := m.sock.seqNr } } }
    m.sendPacketAt m.sock.oldest
  else m

/-- The RTO branch of `check_timeouts`. The flag tells that the socket was
    killed and the caller returns at once. -/
def rtoExpired (m : Detached) : Detached × Bool :=
  let ignoreLoss := probeTimedOut m.sock
  let mtu := mtuOnTimeout m.sock m.ctx.clock.millis
  let m := { m with sock := { m.sock with mtu := mtu } }
  -- Increase RTO
  let newTimeout :=
    if ignoreLoss then m.sock.timers.retransmitTimeout
    else m.sock.timers.retransmitTimeout * 2
  -- They initiated the connection but failed to respond before the rto.
  if m.sock.state = .synRecv then
    (({ m with sock := { m.sock with state := .destroy } }).notify (·.onError .timedOut), true)
  else if givesUp m.sock then
    (({ m with
        sock :=
          { m.sock with
            state := if m.sock.closeRequested then .destroy else .reset } }).notify
      (·.onError .timedOut), true)
  else
    let m :=
      { m with
        sock :=
          { m.sock with
            timers :=
              { m.sock.timers with
                retransmitTimeout := newTimeout
                rtoTimeout := m.ctx.currentMs + newTimeout } } }
    let m := if ignoreLoss then m else { m with sock := windowOnTimeout m.sock }
    (m.retransmitAll, false)

/-- The keep-alive of an idle, established connection. -/
def keepAliveIfIdle (m : Detached) : Detached :=
  if m.sock.state.isConnected = true ∧ m.sock.finSent = false
      ∧ asI32 (msSub m.ctx.currentMs m.sock.timers.lastSentPacket) ≥ keepaliveInterval then
    m.sendKeepAlive
  else m

/-- After 15 seconds a closed peer window is probed with one packet. -/
def reopenWindow (m : Detached) : Detached :=
  if msElapsed m.ctx.currentMs m.sock.timers.zerowindowTime = true
      ∧ m.sock.cwnd.maxWindowUser = 0 then
    { m with
      sock := { m.sock with cwnd := { m.sock.cwnd with maxWindowUser := packetSizeDefault } } }
  else m

/-- The timers of a socket that has any. -/
def tick (m : Detached) : Detached :=
  let m := m.reopenWindow
  let r :=
    if msElapsed m.ctx.currentMs m.sock.timers.rtoTimeout = true
        ∧ m.sock.timers.rtoTimeout > 0 then
      m.rtoExpired
    else (m, false)
  if r.2 then r.1 else r.1.markWritable.keepAliveIfIdle

/-- `check_timeouts` of one socket. -/
def checkTimeouts (m : Detached) : Detached :=
  let m := if m.sock.state ≠ .destroy then m.flushPackets.1 else m
  match m.sock.state with
  | .synSent | .synRecv | .connectedFull | .connected => m.tick
  | _ => m

/-- `utp_read_drained`: if last window was 0 send ACK immediately, otherwise
    defer. -/
def readDrained (m : Detached) : Detached :=
  if m.getRcvWindow > m.sock.lastRcvWin then
    if m.sock.lastRcvWin = 0 then m.sendAck false else m.readClock.scheduleAck
  else m

/-- `utp_close` of an established connection. -/
def closeConnected (m : Detached) : Detached :=
  let m := { m with sock := { m.sock with readShutdown := true, closeRequested := true } }
  if m.sock.finSent = false then
    let m := { m with sock := { m.sock with finSent := true } }
    (m.writeOutgoingPacket 0 stFin []).1
  else if m.sock.finSentAcked then
    { m with sock := { m.sock with state := .destroy } }
  else m

/-- `utp_close` -/
def closeEngine (m : Detached) : Detached :=
  match m.sock.state with
  | .connected | .connectedFull => m.closeConnected
  | .synSent =>
      { m with
        sock :=
          { m.sock with
            timers :=
              { m.sock.timers with
                rtoTimeout := m.ctx.clock.millis + min (m.sock.timers.rto * 2) 60 }
            state := .destroy } }
  | _ => { m with sock := { m.sock with state := .destroy } }

end Detached

end UtpEngine
