import RustUtp.Engine.Context
import RustUtp.Lib.Path
import RustUtp.Lib.Circle

/-! # What the sending side of a socket can do

    Every operation of the engine is a sequence of a few elementary acts on
    the send queue, the wire and the connection state, with bookkeeping of
    timers, windows and estimates in between.  `TxAct` lists the acts with the
    guards under which the code performs them; the label is the data an act
    appends to the stream of the connection.  The decomposition theorems show
    that each function of the sending side is a path of such acts, so a
    property of all of them is proved once per act. -/

namespace UtpActs

open UtpCircular UtpPacket UtpUtil UtpConnShared UtpEngine UtpEngine.Detached LabelledPath

/-- Does `acks` count the packets from the oldest one up to `pkAckNr`? -/
def AcksUpTo (s : UtpSock) (pkAckNr : UInt16) (acks : Nat) : Prop :=
  acks ≤ s.curWindowPackets ∧ (acks ≠ 0 → acks = (pkAckNr - (s.oldest - 1)).toNat)

/-- The retransmission timer has just been started. -/
def TimerSet (m : Detached) : Prop :=
  m.sock.timers.retransmitTimeout = m.sock.timers.rto
    ∧ m.sock.timers.rtoTimeout = m.ctx.currentMs + m.sock.timers.rto

/-- The timers of a socket, changed. -/
def setTimers (m : Detached) (f : Timers → Timers) : Detached :=
  { m with sock := { m.sock with timers := f m.sock.timers } }

/-- The bookkeeping of resends, changed. -/
def setResend (m : Detached) (f : Resend → Resend) : Detached :=
  { m with sock := { m.sock with resend := f m.sock.resend } }

/-- The bookkeeping steps of the code, with the guards under which it performs
    them. -/
inductive Bookkeeping (inp : Option Bytes) : Detached → Detached → Prop where
  | readClock (m : Detached) : Bookkeeping inp m m.readClock
  | maxedOut (m : Detached) :
      Bookkeeping inp m
        { m with
          sock :=
            { m.sock with
              cwnd := { m.sock.cwnd with lastMaxedOutWindow := m.ctx.currentMs } } }
  /-- the timer is started for the first packet of an empty window -/
  | arm (m : Detached) (hst : m.sock.state.isConnected = true)
      (hidle : m.sock.curWindowPackets = 0) :
      Bookkeeping inp m
        (setTimers m (fun t =>
          { t with
            retransmitTimeout := t.rto
            rtoTimeout := m.ctx.currentMs + t.rto }))
  | measure (m : Detached) (buf : Bytes) (selack : Option (Nat × Nat)) (hinp : inp = some buf) :
      Bookkeeping inp m (m.measure buf selack (m.sock.acksOf (ackNr buf)))
  | noteWindow (m : Detached) (buf : Bytes) (hinp : inp = some buf) :
      Bookkeeping inp m (m.noteWindow buf)
  | updateFastResend (m : Detached) (buf : Bytes) (hinp : inp = some buf) :
      Bookkeeping inp m (m.updateFastResend (ackNr buf))
  | endFastTimeout (m : Detached) :
      Bookkeeping inp m (setResend m (fun r => { r with fastTimeout := false }))
  /-- the cursor of fast resends moves past packet `v` -/
  | cursor (m : Detached) (v : UInt16) (buf : Bytes) (hinp : inp = some buf) :
      Bookkeeping inp m (setResend m (fun r => { r with fastResendSeqNr := v + 1 }))
  | sackDone (m : Detached) (backOff : Bool) (count : Nat) :
      Bookkeeping inp m
        { m with
          sock :=
            { m.sock with
              cwnd :=
                if backOff then m.sock.cwnd.maybeDecayWin m.ctx.currentMs else m.sock.cwnd
              resend := { m.sock.resend with duplicateAck := UInt8.ofNat count } } }
  | reopenWindow (m : Detached) : Bookkeeping inp m m.reopenWindow
  | mtuTimeout (m : Detached) :
      Bookkeeping inp m
        { m with sock := { m.sock with mtu := mtuOnTimeout m.sock m.ctx.clock.millis } }
  /-- a timeout restarts the timer, for at least as long -/
  | backOff (m : Detached) (timeout : Nat) (hinp : inp = none) (hst : m.sock.state ≠ .synRecv)
      (hlonger : m.sock.timers.retransmitTimeout ≤ timeout) :
      Bookkeeping inp m
        (setTimers m (fun t =>
          { t with
            retransmitTimeout := timeout
            rtoTimeout := m.ctx.currentMs + timeout }))
  | windowOnTimeout (m : Detached) :
      Bookkeeping inp m { m with sock := windowOnTimeout m.sock }
  | retransmit (m : Detached) (hbusy : 0 < m.sock.curWindowPackets) :
      Bookkeeping inp m
        { m with
          sock :=
            { m.sock with
              timers :=
                { m.sock.timers with retransmitCount := m.sock.timers.retransmitCount + 1 }
              resend :=
                { m.sock.resend with fastTimeout := true, timeoutSeqNr := m.sock.seqNr } } }
  | gotPacket (m : Detached) :
      Bookkeeping inp m (setTimers m (fun t => { t with lastGotPacket := m.ctx.currentMs }))
  | noteExtensions (m : Detached) (exts : Bytes) :
      Bookkeeping inp m { m with sock := { m.sock with extensions := exts } }
  /-- a dial that is given up -/
  | linger (m : Detached) (hinp : inp = none) (hst : m.sock.state = .synSent) :
      Bookkeeping inp m
        (setTimers m (fun t => { t with rtoTimeout := m.ctx.clock.millis + min (t.rto * 2) 60 }))

/-- One act of the sending side, while datagram `inp` (if any) is processed. -/
inductive TxAct (inp : Option Bytes) : Bytes → Detached → Detached → Prop where
  /-- timers, estimates, limits and the cached clock reading -/
  | quiet (m : Detached) (cwnd : Cwnd) (timers : Timers) (delay : Delay) (resend : Resend)
      (mtu : Mtu) (extensions : Bytes) (t : Nat)
      (hbook : Bookkeeping inp m
        { ctx := { m.ctx with currentMs := t }
          sock :=
            { m.sock with
              cwnd := cwnd
              timers := timers
              delay := delay
              resend := resend
              mtu := mtu
              extensions := extensions } }) :
      TxAct inp [] m
        { ctx := { m.ctx with currentMs := t }
          sock :=
            { m.sock with
              cwnd := cwnd
              timers := timers
              delay := delay
              resend := resend
              mtu := mtu
              extensions := extensions } }
  | noteRcvWin (m : Detached) :
      TxAct inp [] m m.updateRcvWin
  | checkIdle (m : Detached) (h : m.sock.curWindowPackets = 0) :
      TxAct inp [] m (m.check (m.sock.curWindow = 0))
  | sendPacket (m : Detached) (seq : UInt16) : TxAct inp [] m (m.sendPacketAt seq)
  | push (m : Detached) (n : Nat) (data : Bytes) (hst : m.sock.state = .connected)
      (hfin : m.sock.finSent = false)
      (hroom : m.sock.curWindowPackets < outgoingBufferMaxSize - 1)
      (hn : n ≤ data.length) (harm : m.sock.curWindowPackets = 0 → TimerSet m)
      (hwin : m.sock.lastRcvWin = m.getRcvWindow) :
      TxAct inp (data.take n) m (m.pushPacket stData n data)
  | extend (m : Detached) (p : OutgoingPacket) (n : Nat) (data : Bytes)
      (hst : m.sock.state = .connected) (hfin : m.sock.finSent = false)
      (hcwp : 0 < m.sock.curWindowPackets)
      (hp : m.sock.outbuf.get (m.sock.seqNr - 1).toNat = some p)
      (hunsent : p.transmissions = 0) (hn : n ≤ data.length)
      (hwin : m.sock.lastRcvWin = m.getRcvWindow) :
      TxAct inp (data.take n) m (m.extendLast p stData n data)
  | ackCum (m : Detached) (buf : Bytes) (acks : Nat) (hinp : inp = some buf)
      (hacks : AcksUpTo m.sock (ackNr buf) acks) : TxAct inp [] m (ackCumulative acks m)
  | ackSel (m : Detached) (buf : Bytes) (sel : Nat × Nat) (bits : Int)
      (hinp : inp = some buf) (exts : Bytes) (w : ExtWalk)
      (hwalk : (skipExtensions buf exts).2 = some w) (hsel : w.selack = some sel)
      (hwin : inSackWindow m.sock (seqOfBit (ackNr buf + 2) bits) = true)
      (hbit : bitSet (maskOf buf sel) bits = true) :
      TxAct inp [] m (m.ackPacket (seqOfBit (ackNr buf + 2) bits)).1
  | lose (m : Detached) (seq : UInt16) : TxAct inp [] m (m.markLost seq)
  /-- incoming connection completion -/
  | established (m : Detached) (buf : Bytes) (hinp : inp = some buf)
      (hty : packetType buf = stData) (hst : m.sock.state = .synRecv) :
      TxAct inp [] m
        (({ m with sock := { m.sock with state := .connected } }).notify (·.onWritable))
  /-- outgoing connection completion -/
  | dialed (m : Detached) (buf : Bytes) (hinp : inp = some buf)
      (hty : packetType buf = stState) (hst : m.sock.state = .synSent) :
      TxAct inp [] m
        (({ m with sock := { m.sock with state := .connected } }).notify (·.onConnect))
  | finAcked (m : Detached) (buf : Bytes) (acks : Nat) (hinp : inp = some buf)
      (hacks : AcksUpTo m.sock (ackNr buf) acks) (hfin : m.sock.finSent = true)
      (hall : m.sock.curWindowPackets = acks) :
      TxAct inp [] m
        { m with
          sock :=
            { m.sock with
              finSentAcked := true
              state := if m.sock.closeRequested then .destroy else m.sock.state } }
  | becomeFull (m : Detached) (hst : m.sock.state = .connected) :
      TxAct inp [] m { m with sock := { m.sock with state := .connectedFull } }
  | becomeWritable (m : Detached) (hst : m.sock.state = .connectedFull) :
      TxAct inp [] m
        (({ m with sock := { m.sock with state := .connected } }).notify (·.onWritable))

/-- A path of sending acts. -/
abbrev TxPath (inp : Option Bytes) : Bytes → Detached → Detached → Prop :=
  Steps (TxAct inp)

variable {inp : Option Bytes}

/-- Reading the clock is bookkeeping. -/
theorem path_readClock (m : Detached) : TxPath inp [] m m.readClock :=
  Steps.single (.quiet m m.sock.cwnd m.sock.timers m.sock.delay m.sock.resend m.sock.mtu
    m.sock.extensions m.ctx.clock.millis (.readClock m))

/-! ## Flushing -/

/-- Looking for room may note when the window was last full. -/
theorem path_isFull (m : Detached) (bytes : Option Nat) :
    TxPath inp [] m (m.isFull bytes).1 := by
  unfold isFull
  split
  · exact Steps.single (.quiet m { m.sock.cwnd with lastMaxedOutWindow := m.ctx.currentMs }
      m.sock.timers m.sock.delay m.sock.resend m.sock.mtu m.sock.extensions m.ctx.currentMs
      (.maxedOut m))
  · exact Steps.refl m

/-- Flushing transmits queued packets, one by one. -/
theorem path_flushLoop (packetSize : Nat) :
    ∀ (n : Nat) (i : UInt16) (m : Detached), TxPath inp [] m (flushLoop packetSize n i m).1 := by
  intro n
  induction n with
  | zero => intro i m; exact Steps.refl m
  | succ n ih =>
      intro i m
      rw [flushLoop]
      split
      · exact ih (i + 1) m
      · split
        · exact path_isFull m none
        · split
          · exact (Steps.single (.sendPacket m i)).silent (ih (i + 1) _)
          · exact ih (i + 1) m

theorem path_flushPackets (m : Detached) : TxPath inp [] m m.flushPackets.1 :=
  path_flushLoop _ _ _ m

/-! ## Writing

    A write keeps the connection state and the FIN flag, so the guards of its
    first round hold in every later one; it only appends to the window, so the
    oldest packet stays the oldest. -/

/-- What a write does not disturb. -/
structure Kept (s s' : UtpSock) : Prop where
  state : s'.state = s.state
  finSent : s'.finSent = s.finSent
  oldest : s'.oldest = s.oldest
  cwp : s.curWindowPackets ≤ s'.curWindowPackets

namespace Kept

theorem refl (s : UtpSock) : Kept s s := ⟨rfl, rfl, rfl, Nat.le_refl _⟩

theorem trans {s₁ s₂ s₃ : UtpSock} (h : Kept s₁ s₂) (h' : Kept s₂ s₃) : Kept s₁ s₃ :=
  ⟨h'.state.trans h.state, h'.finSent.trans h.finSent, h'.oldest.trans h.oldest,
    h.cwp.trans h'.cwp⟩

end Kept

/-- An assertion that holds leaves no trace. -/
@[simp] theorem check_true (m : Detached) : m.check true = m := by
  simp [check]

/-- Leaving the ack list takes the flag down. -/
@[simp] theorem ackListRemove_sock (m : Detached) :
    m.ackListRemove.sock = { m.sock with inAckList := false } := by
  unfold ackListRemove
  cases h : m.sock.inAckList with
  | true => rfl
  | false =>
      obtain ⟨ctx, s⟩ := m
      cases s
      subst h
      rfl

/-- Sending takes the flag down and notes the time. -/
theorem sendData_sock (m : Detached) (written : Nat) (buf : Bytes) :
    (m.sendData written buf).sock
      = { m.sock with
          timers := { m.sock.timers with lastSentPacket := m.ctx.currentMs }
          inAckList := false } := by
  unfold sendData
  simp only [ackListRemove_sock]
  split <;> rfl

/-- What sending a packet of the queue changes in its socket. -/
theorem sendPacketAt_sock {m : Detached} {seq : UInt16} {pkt : OutgoingPacket}
    (hp : m.sock.outbuf.get seq.toNat = some pkt) :
    (m.sendPacketAt seq).sock
      = { (m.countSend pkt).sock with
          timers := { m.sock.timers with lastSentPacket := m.ctx.currentMs }
          inAckList := false
          outbuf := m.sock.outbuf.put seq.toNat (some (m.sentPacket pkt)) } := by
  unfold sendPacketAt
  rw [hp]
  simp only [putOut, sendData_sock]
  rfl

/-- Transmitting a packet keeps state, buffer numbers and flags. -/
theorem kept_sendPacketAt (m : Detached) (seq : UInt16) :
    Kept m.sock (m.sendPacketAt seq).sock := by
  unfold sendPacketAt
  split
  · exact Kept.refl _
  · refine ⟨?_, ?_, ?_, ?_⟩ <;>
      simp only [putOut, sendData_sock, countSend, UtpSock.oldest, Nat.le_refl]

/-- Looking for room keeps them. -/
theorem kept_isFull (m : Detached) (bytes : Option Nat) :
    Kept m.sock (m.isFull bytes).1.sock := by
  unfold isFull
  split
  · exact ⟨rfl, rfl, rfl, Nat.le_refl _⟩
  · exact Kept.refl _

/-- Flushing keeps them. -/
theorem kept_flushLoop (packetSize : Nat) :
    ∀ (n : Nat) (i : UInt16) (m : Detached),
      Kept m.sock (flushLoop packetSize n i m).1.sock := by
  intro n
  induction n with
  | zero => intro i m; exact Kept.refl _
  | succ n ih =>
      intro i m
      rw [flushLoop]
      split
      · exact ih (i + 1) m
      · split
        · exact kept_isFull m none
        · split
          · exact (kept_sendPacketAt m i).trans (ih (i + 1) _)
          · exact ih (i + 1) m

/-- Queueing a packet moves the next number only. -/
theorem kept_pushPacket (m : Detached) (flags : UInt8) (n : Nat) (data : Bytes) :
    Kept m.sock (m.pushPacket flags n data).sock := by
  refine ⟨rfl, rfl, ?_, Nat.le_succ _⟩
  show m.sock.seqNr + 1 - UInt16.ofNat (m.sock.curWindowPackets + 1)
    = m.sock.seqNr - UInt16.ofNat m.sock.curWindowPackets
  rw [← SeqNum.ofNat_add_one]
  grind

/-- No more goes into a packet than there is. -/
theorem roomFor_le (p : OutgoingPacket) (packetSize payload : Nat) :
    roomFor p packetSize payload ≤ payload := by
  unfold roomFor
  omega

/-- A packet that is not full takes something. -/
theorem roomFor_pos {p : OutgoingPacket} {packetSize payload : Nat}
    (hp : p.payload < packetSize) (h : 0 < payload) :
    0 < roomFor p packetSize payload := by
  unfold roomFor
  omega

/-- What `extensible` promises about the packet it finds. -/
theorem extensible_spec {s : UtpSock} {packetSize payload : Nat} {p : OutgoingPacket}
    (h : extensible s packetSize payload = some p) :
    0 < payload ∧ 0 < s.curWindowPackets
      ∧ s.outbuf.get (s.seqNr - 1).toNat = some p
      ∧ p.transmissions = 0 ∧ p.payload < packetSize := by
  unfold extensible at h
  split at h
  · rename_i hpos
    split at h
    · rename_i q hq
      split at h
      · rename_i hfits
        obtain rfl := Option.some.inj h
        exact ⟨hpos.1, hpos.2, hq, hfits.1, hfits.2⟩
      · exact nomatch h
    · exact nomatch h
  · exact nomatch h

/-- The loop of `write_outgoing_packet` moves exactly `payload` bytes of the
    caller's slice into the queue. -/
theorem path_writeLoop (packetSize : Nat) :
    ∀ (fuel payload : Nat) (data : Bytes) (m : Detached), payload < fuel →
      payload ≤ data.length → m.sock.state = .connected → m.sock.finSent = false →
      m.sock.curWindowPackets < outgoingBufferMaxSize - 1 →
      (m.sock.curWindowPackets = 0 → TimerSet m) →
      TxPath inp (data.take payload) m (writeLoop packetSize stData fuel payload data m).1
        ∧ (writeLoop packetSize stData fuel payload data m).2 = data.drop payload
        ∧ Kept m.sock (writeLoop packetSize stData fuel payload data m).1.sock := by
  intro fuel
  induction fuel with
  | zero => intro payload data m h; omega
  | succ fuel ih =>
      intro payload data m hfuel hlen hst hfin hroom harm
      have hcheck : m.check (m.sock.curWindowPackets < outgoingBufferMaxSize) = m := by
        rw [show decide (m.sock.curWindowPackets < outgoingBufferMaxSize) = true from
          decide_eq_true (by unfold outgoingBufferMaxSize at *; omega), check_true]
      rw [writeLoop]
      simp only [hcheck]
      have hrcv : TxPath inp [] m m.updateRcvWin := Steps.single (.noteRcvWin m)
      have hkept : Kept m.sock m.updateRcvWin.sock := ⟨rfl, rfl, rfl, Nat.le_refl _⟩
      have hroom₁ : m.updateRcvWin.sock.curWindowPackets < outgoingBufferMaxSize - 1 := hroom
      have hst₁ : m.updateRcvWin.sock.state = .connected := hst
      have hfin₁ : m.updateRcvWin.sock.finSent = false := hfin
      have harm₁ : m.updateRcvWin.sock.curWindowPackets = 0 → TimerSet m.updateRcvWin := harm
      have hwin₁ : m.updateRcvWin.sock.lastRcvWin = m.updateRcvWin.getRcvWindow := rfl
      generalize m.updateRcvWin = m₁ at hrcv hkept hroom₁ hst₁ hfin₁ harm₁ hwin₁ ⊢
      split
      · -- top up the last packet, then go on with what did not fit
        rename_i p hp
        obtain ⟨hpos, hcwp, hget, hunsent, hsmall⟩ := extensible_spec hp
        have hle := roomFor_le p packetSize payload
        have hadd := roomFor_pos hsmall hpos
        generalize roomFor p packetSize payload = added at hle hadd
        have hext : TxPath inp (data.take added) m (m₁.extendLast p stData added data) :=
          hrcv.trans (Steps.single (.extend m₁ p added data hst₁ hfin₁ hcwp hget hunsent
            (by omega) hwin₁))
        have hkept₂ : Kept m.sock (m₁.extendLast p stData added data).sock :=
          hkept.trans ⟨rfl, rfl, rfl, Nat.le_refl _⟩
        split
        · rename_i hdone
          have hEq : added = payload := by omega
          subst hEq
          exact ⟨hext, rfl, hkept₂⟩
        · obtain ⟨hpath, hrest, hkept₃⟩ := ih (payload - added) (data.drop added)
            (m₁.extendLast p stData added data) (by omega) (by rw [List.length_drop]; omega)
            hst₁ hfin₁ hroom₁ (fun h => absurd h (Nat.pos_iff_ne_zero.mp hcwp))
          refine ⟨?_, ?_, hkept₂.trans hkept₃⟩
          · have hsplit : data.take payload
                = data.take added ++ (data.drop added).take (payload - added) := by
              rw [← List.take_add]
              congr 1
              omega
            rw [hsplit]
            exact hext.trans hpath
          · rw [hrest, List.drop_drop]
            congr 1
            omega
      · exact ⟨hrcv.trans (Steps.single (.push m₁ payload data hst₁ hfin₁ hroom₁ hlen harm₁ hwin₁)),
          rfl, hkept.trans (kept_pushPacket m₁ stData payload data)⟩

/-- Arming the timer is bookkeeping. -/
theorem path_armTimer (m : Detached) (hst : m.sock.state.isConnected = true) :
    TxPath inp [] m m.armTimer := by
  unfold armTimer
  split
  · rename_i hcwp
    exact (Steps.single (.quiet m m.sock.cwnd
      { m.sock.timers with
        retransmitTimeout := m.sock.timers.rto
        rtoTimeout := m.ctx.currentMs + m.sock.timers.rto }
      m.sock.delay m.sock.resend m.sock.mtu m.sock.extensions m.ctx.currentMs
      (.arm m hst hcwp))).silent (Steps.single (.checkIdle _ hcwp))
  · exact Steps.refl m

/-- A timer that guards nothing yet is started. -/
theorem armTimer_set (m : Detached) :
    m.armTimer.sock.curWindowPackets = 0 → TimerSet m.armTimer := by
  unfold armTimer
  split
  · exact fun _ => ⟨rfl, rfl⟩
  · rename_i hne
    exact fun h => absurd h hne

/-- Arming the timer leaves the queue. -/
theorem armTimer_sock (m : Detached) :
    Kept m.sock m.armTimer.sock
      ∧ m.armTimer.sock.curWindowPackets = m.sock.curWindowPackets := by
  unfold armTimer
  split <;> exact ⟨⟨rfl, rfl, rfl, Nat.le_refl _⟩, rfl⟩

/-- `write_outgoing_packet` takes the bytes it was told to take, and leaves room
    for none or one packet less. -/
theorem path_writeOutgoingPacket (m : Detached) (payload : Nat) (data : Bytes)
    (hlen : payload ≤ data.length) (hst : m.sock.state = .connected)
    (hfin : m.sock.finSent = false)
    (hroom : m.sock.curWindowPackets < outgoingBufferMaxSize - 1) :
    TxPath inp (data.take payload) m (m.writeOutgoingPacket payload stData data).1
      ∧ (m.writeOutgoingPacket payload stData data).2 = data.drop payload
      ∧ Kept m.sock (m.writeOutgoingPacket payload stData data).1.sock := by
  obtain ⟨hkept, hcwp⟩ := armTimer_sock m
  obtain ⟨hpath, hrest, hkept'⟩ := path_writeLoop
    m.armTimer.sock.getPacketSize (payload + 1) payload data m.armTimer
    (Nat.lt_succ_self _) hlen (by rw [hkept.state, hst]) (by rw [hkept.finSent, hfin])
    (by rw [hcwp]; exact hroom) (armTimer_set m)
  unfold writeOutgoingPacket
  dsimp only
  refine ⟨?_, hrest, (hkept.trans hkept').trans (kept_flushLoop _ _ _ _)⟩
  have : TxPath inp _ _ _ :=
    ((path_armTimer m (by rw [hst]; rfl)).trans hpath).trans (path_flushPackets _)
  rwa [List.append_nil] at this

/-- A window that is not full has room for a packet in the ring. -/
theorem room_of_not_full {s : UtpSock} {bytes : Option Nat} (h : s.fullFor bytes = false) :
    s.curWindowPackets < outgoingBufferMaxSize - 1 := by
  unfold UtpSock.fullFor at h
  simp only [Bool.or_eq_false_iff, decide_eq_false_iff_not] at h
  omega

/-- The loop of `utp_writev` moves the first bytes of the slice into the queue
    and counts them. -/
theorem path_writeEngineLoop (packetSize : Nat) :
    ∀ (fuel : Nat) (remaining : Bytes) (sent : Nat) (m : Detached),
      m.sock.state = .connected → m.sock.finSent = false →
      ∃ k ≤ remaining.length,
        (writeEngineLoop packetSize fuel remaining sent m).2.1 = sent + k
        ∧ TxPath inp (remaining.take k) m (writeEngineLoop packetSize fuel remaining sent m).1
        ∧ Kept m.sock (writeEngineLoop packetSize fuel remaining sent m).1.sock := by
  intro fuel
  induction fuel with
  | zero =>
      intro remaining sent m _ _
      exact ⟨0, Nat.zero_le _, rfl, Steps.refl m, Kept.refl _⟩
  | succ fuel ih =>
      intro remaining sent m hst hfin
      rw [writeEngineLoop]
      generalize hnum : min remaining.length packetSize = num
      have hle : num ≤ remaining.length := by omega
      cases hfull : m.sock.fullFor (some num) with
      | true =>
          have hflag : (m.isFull (some num)).2 = true := by unfold isFull; rw [if_pos hfull]
          rw [if_pos hflag]
          exact ⟨0, Nat.zero_le _, rfl, path_isFull m _, kept_isFull m _⟩
      | false =>
          have hflag : (m.isFull (some num)).2 = false := by
            unfold isFull; rw [if_neg (by rw [hfull]; exact Bool.false_ne_true)]
          rw [if_neg (by rw [hflag]; exact Bool.false_ne_true)]
          obtain ⟨hpath, hrest, hkept⟩ := path_writeOutgoingPacket m num
            remaining hle hst hfin (room_of_not_full hfull)
          dsimp only
          split
          · exact ⟨num, hle, rfl, hpath, hkept⟩
          · obtain ⟨k, hk, hsent, hpath', hkept'⟩ := ih
              (m.writeOutgoingPacket num stData remaining).2 (sent + num)
              (m.writeOutgoingPacket num stData remaining).1 (hkept.state.trans hst)
              (hkept.finSent.trans hfin)
            rw [hrest, List.length_drop] at hk
            refine ⟨num + k, by omega, by rw [hsent]; omega, ?_, hkept.trans hkept'⟩
            rw [List.take_add]
            rw [hrest] at hpath' ⊢
            exact hpath.trans hpath'

/-- **A WRITE CONSERVES THE STREAM**: `write_engine` accepts a prefix of its
    buffer and appends exactly that prefix to the stream, at the young end of
    the window. -/
theorem path_writeEngine (m : Detached) (buf : Bytes) :
    (m.writeEngine buf).2 ≤ buf.length
      ∧ TxPath inp (buf.take (m.writeEngine buf).2) m (m.writeEngine buf).1
      ∧ (m.writeEngine buf).1.sock.oldest = m.sock.oldest
      ∧ m.sock.curWindowPackets ≤ (m.writeEngine buf).1.sock.curWindowPackets := by
  unfold writeEngine
  by_cases hst : m.sock.state = .connected
  · rw [if_neg (not_not.mpr hst)]
    cases hfin : m.sock.finSent with
    | true => exact ⟨Nat.zero_le _, Steps.refl m, rfl, Nat.le_refl _⟩
    | false =>
        rw [if_neg Bool.false_ne_true]
        obtain ⟨k, hk, hsent, hpath, hkept⟩ := path_writeEngineLoop
          m.readClock.sock.getPacketSize (buf.length + 1) buf 0 m.readClock hst hfin
        rw [Nat.zero_add] at hsent
        have hall : TxPath inp (buf.take k) m _ := (path_readClock m).trans hpath
        dsimp only
        generalize writeEngineLoop m.readClock.sock.getPacketSize (buf.length + 1) buf 0
          m.readClock = r at hsent hall hkept ⊢
        split
        · rw [hsent]
          exact ⟨hk, hall, hkept.oldest, hkept.cwp⟩
        · have hchk := hall.trans (path_isFull r.1 none)
          have hkept' := hkept.trans (kept_isFull r.1 none)
          rw [List.append_nil] at hchk
          rw [hsent]
          split
          · have hfull := hchk.trans (Steps.single (.becomeFull _ (hkept'.state.trans hst)))
            rw [List.append_nil] at hfull
            exact ⟨hk, hfull, hkept'.oldest, hkept'.cwp⟩
          · exact ⟨hk, hchk, hkept'.oldest, hkept'.cwp⟩
  · rw [if_pos hst]
    exact ⟨Nat.zero_le _, Steps.refl m, rfl, Nat.le_refl _⟩

end UtpActs
