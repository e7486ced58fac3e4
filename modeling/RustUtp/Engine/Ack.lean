import RustUtp.Engine.Send

/-! # Acknowledgements and congestion control

    What an incoming acknowledgement does to the send queue: single packets,
    the selective-ack mask, the MTU search verdicts and the LEDBAT window. -/

namespace UtpEngine

open UtpCircular UtpPacket UtpUtil UtpConnShared UtpDelayHist

/-- The repair step of the MTU search: the floor can end up above the ceiling;
    search again from half way down rather than from the bottom. -/
def Mtu.repair (m : Mtu) : Mtu :=
  if m.floor > m.ceiling then
    { m with
      ceiling := m.floor
      floor := if m.floor > mtuFloorMin then (mtuFloorMin + m.floor) / 2 else m.floor }
  else m

/-- `mtu_search_update`, called every time we change the floor or ceiling. -/
def Mtu.searchUpdate (m : Mtu) (nowMs : Nat) : Mtu :=
  let m := m.repair
  -- binary search; enable a new probe to be sent
  let m := { m with last := (m.floor + m.ceiling) / 2, probeSeq := 0, probeSize := 0 }
  -- if the floor and ceiling are close enough, the search is done. We use the
  -- floor since that's the only size we know can go through.
  if m.ceiling - m.floor ≤ 16 then
    { m with last := m.floor, ceiling := m.floor, discoverTime := nowMs + 30 * 60 * 1000 }
  else m

/-- The round-trip estimate after a sample `ertt` (milliseconds). -/
def Timers.rttSample (t : Timers) (ertt currentMs : Nat) : Timers :=
  let t :=
    if t.rtt = 0 then
      -- First round trip time sample
      { t with rtt := ertt, rttVar := ertt / 2 }
    else
      -- Compute new round trip times
      let delta := asI32 t.rtt - asI32 ertt
      { t with
        rttVar := asU32 (asI32 t.rttVar + (|delta| - asI32 t.rttVar).tdiv 4)
        rtt := t.rtt - t.rtt / 8 + ertt / 8
        rttHist := t.rttHist.addSample (UInt32.ofNat ertt) currentMs }
  { t with rto := max (t.rtt + t.rttVar * 4) 1000 }

/-- The timers after packet `pkt` has been acked: if we never re-sent it, its
    round trip is a sample. -/
def Timers.onAck (t : Timers) (pkt : OutgoingPacket) (nowMicros currentMs : Nat) : Timers :=
  let t :=
    if pkt.transmissions = 1 then
      t.rttSample (msSub nowMicros pkt.timeSent / 1000 % 2 ^ 32) currentMs
    else t
  { t with
    retransmitTimeout := t.rto
    rtoTimeout := currentMs + t.rto
    retransmitCount := 0 }

namespace Detached

/-- `ack_packet`: unacknowledged, sent packets leave the queue; a packet that
    is marked for resending is not counted in `cur_window` anymore. -/
def ackPacket (m : Detached) (seq : UInt16) : Detached × AckResult :=
  match m.sock.outbuf.get seq.toNat with
  | none => (m, .alreadyAcked)
  | some pkt =>
      if pkt.transmissions = 0 then (m, .notSent)
      else
        (({ m with
            sock :=
              { m.sock with
                outbuf := m.sock.outbuf.put seq.toNat none
                timers := m.sock.timers.onAck pkt m.ctx.clock.micros m.ctx.currentMs
                curWindow :=
                  if pkt.needResend then m.sock.curWindow
                  else m.sock.curWindow - pkt.payload } }).check
            (pkt.needResend || m.sock.curWindow ≥ pkt.payload),
          .acked)

/-! ## The selective-ack mask -/

/-- Bit `bits` of a mask; bits outside of it are unset. -/
def bitSet (mask : Bytes) (bits : Int) : Bool :=
  if 0 ≤ bits ∧ bits < 8 * mask.length then
    ((mask.getD (bits.toNat / 8) 0).toNat).testBit (bits.toNat % 8)
  else false

/-- `base.wrapping_add(bits as u16)` -/
def seqOfBit (base : UInt16) (bits : Int) : UInt16 := base + UInt16.ofInt bits

/-- Does `v` lie in the send window, past its oldest packet?  Sequence number
    space:

    ```
        rejected <   accepted   > rejected
    <============+--------------+============>
                 ^              ^
           (seq_nr-wnd)         seq_nr
    ``` -/
def inSackWindow (s : UtpSock) (v : UInt16) : Bool :=
  (s.seqNr - v - 1).toNat < s.curWindowPackets - 1

/-- The time since a packet was sent, in case our clock is not monotonic. -/
def sampleRtt (now timeSent : Nat) : Int :=
  if timeSent < now then asI64 (now - timeSent) else 50000

/-- The bit positions `-1 ..= top`, from the highest down. -/
def bitsDown (top : Nat) : List Int :=
  ((List.range (top + 1)).map (fun (i : Nat) => (i : Int) - 1)).reverse

/-- One bit of `selective_ack_bytes`: the running byte count and minimum rtt. -/
def sackBytesStep (m : Detached) (base : UInt16) (mask : Bytes) (acc : Nat × Int)
    (bits : Int) : Nat × Int :=
  let v := seqOfBit base bits
  if inSackWindow m.sock v then
    match m.sock.outbuf.get v.toNat with
    | some p =>
        if p.transmissions > 0 ∧ bitSet mask bits = true then
          (acc.1 + p.payload, min acc.2 (sampleRtt m.ctx.clock.micros p.timeSent))
        else acc
    | none => acc
  else acc

/-- Count the number of bytes that were acked by the EACK header. -/
def selectiveAckBytes (m : Detached) (base : UInt16) (mask : Bytes) (minRtt : Int) :
    Nat × Int :=
  if m.sock.curWindowPackets = 0 then (0, minRtt)
  else (bitsDown (mask.length * 8 + 1)).foldl (m.sackBytesStep base mask) (0, minRtt)

/-- The loop state of `selective_ack`: the socket, the number of set bits seen
    so far, and the stack of sequence numbers we need to resend. -/
structure SackScan where
  m : Detached
  count : Nat
  resends : List UInt16

/-- Push onto the resend stack; if it is full, throw away the lower half. -/
def pushResend (resends : List UInt16) (v : UInt16) : List UInt16 :=
  (if resends.length ≥ maxEack - 2 then resends.drop (maxEack / 2) else resends) ++ [v]

/-- May `v` be fast-resent, with `count` acked packets in front of it? -/
def wantsResend (s : UtpSock) (v : UInt16) (count : Nat) : Bool :=
  (v - s.resend.fastResendSeqNr).toNat ≤ outgoingBufferMaxSize
    && count ≥ duplicateAcksBeforeResend

def isSent (s : UtpSock) (v : UInt16) : Bool :=
  match s.outbuf.get v.toNat with
  | some p => p.transmissions > 0
  | none => false

/-- One bit of `selective_ack`. -/
def sackStep (base : UInt16) (mask : Bytes) (st : SackScan) (bits : Int) : SackScan :=
  let v := seqOfBit base bits
  if inSackWindow st.m.sock v then
    -- this counts as a duplicate ack, even though we might have received an
    -- ack for this packet previously
    let count := if bitSet mask bits then st.count + 1 else st.count
    if isSent st.m.sock v then
      if bitSet mask bits then
        { st with m := (st.m.ackPacket v).1, count := count }
      else if wantsResend st.m.sock v count then
        { st with count := count, resends := pushResend st.resends v }
      else { st with count := count }
    else { st with count := count }
  else st

/-- The resend loop: at most `quota` packets, popped from the top of the stack
    (the head of the list here). Returns whether anything was resent. -/
def resendLoop : Nat → List UInt16 → Detached → Bool → Detached × Bool
  | _, [], m, backOff => (m, backOff)
  | 0, _, m, backOff => (m, backOff)
  | quota + 1, v :: rest, m, backOff =>
      -- don't consider the tail of 0:es to be lost packets
      if (m.sock.outbuf.get v.toNat).isNone then resendLoop (quota + 1) rest m backOff
      else
        let m := m.sendPacketAt v
        let m :=
          { m with
            sock := { m.sock with resend := { m.sock.resend with fastResendSeqNr := v + 1 } } }
        resendLoop quota rest m true

def selectiveAck (m : Detached) (base : UInt16) (mask : Bytes) : Detached :=
  if m.sock.curWindowPackets = 0 then m
  else
    let st := (bitsDown (mask.length * 8)).foldl (sackStep base mask) ⟨m, 0, []⟩
    -- if we get enough duplicate acks to start resending, the first packet we
    -- should resend is base-1
    let resends :=
      if wantsResend st.m.sock (base - 1) st.count then st.resends ++ [base - 1]
      else st.resends
    -- Re-send max 4 packets.
    let r := resendLoop 4 resends.reverse st.m false
    let cwnd :=
      if r.2 then r.1.sock.cwnd.maybeDecayWin r.1.ctx.currentMs else r.1.sock.cwnd
    { r.1 with
      sock :=
        { r.1.sock with
          cwnd := cwnd
          resend := { r.1.sock.resend with duplicateAck := UInt8.ofNat st.count } } }

/-! ## The LEDBAT congestion controller -/

/-- `apply_ccontrol` once it has the delay, its distance to the target and the
    target. The `f64` results come from `fpu`; the source's `clamp` panics on an
    `opt_sndbuf` below `minWindowSize`. -/
def steerWindow (m : Detached) (bytesAcked : Nat) (ourDelay offTarget target : Int) : Detached :=
  let w := m.sock.cwnd
  let rateLimited : Bool := msSub m.ctx.currentMs w.lastMaxedOutWindow > 1000
  let ledbatCwnd := m.ctx.fpu.ledbatCwnd w.maxWindow bytesAcked offTarget target rateLimited
  let w :=
    if w.slowStart then
      let ssCwnd := m.ctx.fpu.ssCwnd w.maxWindow bytesAcked m.sock.getPacketSize
      if ssCwnd > w.ssthresh then { w with slowStart := false }
      else if m.ctx.fpu.nearTarget ourDelay target then
        -- even a little under the target delay, we conservatively discontinue
        -- the slow start phase
        { w with slowStart := false, ssthresh := w.maxWindow }
      else { w with maxWindow := max ssCwnd ledbatCwnd }
    else { w with maxWindow := ledbatCwnd }
  { m with
    sock :=
      { m.sock with
        cwnd := { w with maxWindow := max minWindowSize (min w.maxWindow w.optSndbuf) } } }

/-- `apply_ccontrol`. -/
def applyCcontrol (m : Detached) (bytesAcked : Nat) (minRtt : Int) : Detached :=
  -- the delay can never be greater than the rtt
  let ourDelay := asI32 (min m.sock.delay.ourHist.getValue.toNat (asU64 minRtt))
  let target :=
    if asI32 m.sock.cwnd.targetDelay ≤ 0 then 100000 else asI32 m.sock.cwnd.targetDelay
  -- compensate for very large clock drift
  let ourDelay :=
    if m.sock.delay.clockDrift < -200000 then
      ourDelay + (-m.sock.delay.clockDrift - 200000).tdiv 7
    else ourDelay
  m.steerWindow bytesAcked ourDelay (target - ourDelay) target

end Detached

end UtpEngine
