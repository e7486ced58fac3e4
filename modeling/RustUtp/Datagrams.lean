import RustUtp.Engine.Context

/-! # The datagrams an engine puts on the wire

    The header and the payload of everything the engine builds: queued packets,
    acks with their selective-ack extension, SYNs and RSTs. -/

namespace UtpDatagrams

open UtpCircular UtpPacket UtpUtil UtpConnShared UtpEngine UtpEngine.Detached

/-! ## Queued packets -/

/-- Stamping overwrites bytes and adds none. -/
@[simp] theorem length_stampTimes (m : Detached) (b : Bytes) :
    (m.stampTimes b).length = b.length := by
  unfold stampTimes
  rw [length_setReplyMicro, length_setTvUsec]

/-- The stamps lie in the header. -/
@[simp] theorem body_stampTimes (m : Detached) (b : Bytes) :
    body (m.stampTimes b) = body b := by
  unfold stampTimes
  rw [body_setReplyMicro, body_setTvUsec]

/-- Stamping sets the two time fields of the header, and no other. -/
theorem hdr_stampTimes (m : Detached) {b : Bytes} (hb : headerSize ≤ b.length) :
    hdr (m.stampTimes b) =
      { hdr b with
        tvUsec := UInt32.ofNat m.ctx.clock.micros
        replyMicro := m.sock.delay.replyMicro } := by
  unfold stampTimes
  rw [hdr_setReplyMicro (by rwa [length_setTvUsec]), hdr_setTvUsec hb]

/-- A queued packet as it goes out: only the timestamps and the ack number are
    written anew. -/
theorem hdr_outgoing (m : Detached) {b : Bytes} (hb : headerSize ≤ b.length) (a : UInt16) :
    hdr (m.stampTimes (setAckNr b a)) =
      { hdr b with
        tvUsec := UInt32.ofNat m.ctx.clock.micros
        replyMicro := m.sock.delay.replyMicro
        ackNr := a } := by
  rw [hdr_stampTimes m (by rwa [length_setAckNr]), hdr_setAckNr hb]

/-- A transmission renews the header of a packet and leaves its payload. -/
theorem body_outgoing (m : Detached) (b : Bytes) (a : UInt16) :
    body (m.stampTimes (setAckNr b a)) = body b := by
  rw [body_stampTimes, body_setAckNr]

/-- Filling in a header keeps the length of the packet. -/
theorem length_fillHeader (m : Detached) (flags : UInt8) (seq : Option UInt16) (b : Bytes) :
    (m.fillHeader flags seq b).length = b.length := by
  unfold fillHeader
  cases seq <;> simp

/-- Filling in a header keeps the payload of the packet. -/
theorem body_fillHeader (m : Detached) (flags : UInt8) (seq : Option UInt16) (b : Bytes) :
    body (m.fillHeader flags seq b) = body b := by
  unfold fillHeader
  cases seq <;> simp

/-- The header of a fresh packet, field by field. An extended packet keeps its
    sequence number, a new one gets the number given. -/
theorem hdr_fillHeader (m : Detached) {flags : UInt8} (hf : flags < stNumStates)
    (seq : Option UInt16) {b : Bytes} (hb : headerSize ≤ b.length) :
    hdr (m.fillHeader flags seq b) =
      { version := 1
        packetType := flags
        ext := 0
        connId := m.sock.connIdSend.toUInt16
        tvUsec := tvUsec b
        replyMicro := replyMicro b
        windowSize := UInt32.ofNat m.sock.lastRcvWin
        seqNr := seq.getD (UtpPacket.seqNr b)
        ackNr := m.sock.ackNr } := by
  have hbase : hdr (setAckNr (setWindowSize (setConnId (setExt (setVersionType b 1 flags) 0)
        m.sock.connIdSend.toUInt16) (UInt32.ofNat m.sock.lastRcvWin)) m.sock.ackNr) =
      { version := 1
        packetType := flags
        ext := 0
        connId := m.sock.connIdSend.toUInt16
        tvUsec := tvUsec b
        replyMicro := replyMicro b
        windowSize := UInt32.ofNat m.sock.lastRcvWin
        seqNr := UtpPacket.seqNr b
        ackNr := m.sock.ackNr } := by
    rw [hdr_setAckNr (by simpa using hb), hdr_setWindowSize (by simpa using hb),
      hdr_setConnId (by simpa using hb), hdr_setExt (by simpa using hb),
      hdr_setVersionType hb _ hf]
    rfl
  unfold fillHeader
  cases seq with
  | none => exact hbase
  | some v => rw [hdr_setSeqNr (by simpa using hb), hbase]; rfl

/-! ## Acks -/

/-- Does an ack of this socket carry the selective-ack extension? -/
def carriesMask (s : UtpSock) : Bool := s.reorderCount ≠ 0 && !s.gotFinReached

/-- An ack is a header, followed by a mask of what is missing if there is
    something to report. -/
theorem ackDatagram_eq (m : Detached) :
    m.ackDatagram =
      let b := setWindowSize (setSeqNr (setAckNr (setConnId (setVersionType
        (List.replicate headerSize 0) 1 stState) m.sock.connIdSend.toUInt16) m.sock.ackNr)
        m.sock.seqNr) (UInt32.ofNat m.getRcvWindow)
      if carriesMask m.sock then setExt b 1 ++ ([0, 4] ++ leBytes32 m.sock.ackMask) else b := by
  unfold ackDatagram carriesMask
  simp only [Bool.and_eq_true, Bool.not_eq_true', decide_eq_true_eq]

/-- The mask takes six bytes: two of the extension header and four of bits. -/
theorem length_ackDatagram (m : Detached) :
    m.ackDatagram.length = headerSize + if carriesMask m.sock then 6 else 0 := by
  rw [ackDatagram_eq]
  dsimp only
  split
  · simp [leBytes32]
  · simp

/-- The header of an ack, field by field. -/
theorem hdr_ackDatagram (m : Detached) :
    hdr m.ackDatagram =
      { version := 1
        packetType := stState
        ext := if carriesMask m.sock then 1 else 0
        connId := m.sock.connIdSend.toUInt16
        tvUsec := 0
        replyMicro := 0
        windowSize := UInt32.ofNat m.getRcvWindow
        seqNr := m.sock.seqNr
        ackNr := m.sock.ackNr } := by
  have hzero : hdr (List.replicate headerSize 0) = ⟨0, 0, 0, 0, 0, 0, 0, 0, 0⟩ := by decide
  rw [ackDatagram_eq]
  dsimp only
  split
  · rw [hdr_append (by simp), hdr_setExt (by simp), hdr_setWindowSize (by simp),
      hdr_setSeqNr (by simp), hdr_setAckNr (by simp), hdr_setConnId (by simp),
      hdr_setVersionType (by simp) _ (by decide), hzero]
  · rw [hdr_setWindowSize (by simp), hdr_setSeqNr (by simp), hdr_setAckNr (by simp),
      hdr_setConnId (by simp), hdr_setVersionType (by simp) _ (by decide), hzero]

/-! ## The SYN -/

/-- A SYN has no payload. -/
theorem length_synPacket (s : UtpSock) : (Context.synPacket s).data.length = headerSize := by
  simp [Context.synPacket]

/-- The header of a SYN carries the id to receive on, all later packets the id
    to send on. -/
theorem hdr_synPacket (s : UtpSock) :
    hdr (Context.synPacket s).data =
      { version := 1
        packetType := stSyn
        ext := 0
        connId := s.connIdRecv.toUInt16
        tvUsec := 0
        replyMicro := 0
        windowSize := UInt32.ofNat s.lastRcvWin
        seqNr := s.seqNr
        ackNr := 0 } := by
  have hzero : hdr (List.replicate headerSize 0) = ⟨0, 0, 0, 0, 0, 0, 0, 0, 0⟩ := by decide
  unfold Context.synPacket
  rw [hdr_setSeqNr (by simp), hdr_setWindowSize (by simp), hdr_setConnId (by simp),
    hdr_setVersionType (by simp) _ (by decide), hzero]

/-! ## The RST -/

/-- An RST is a bare header. -/
theorem length_rstDatagram (id : UInt32) (ack seq : UInt16) :
    (Context.rstDatagram id ack seq).length = headerSize := by
  simp [Context.rstDatagram]

/-- The header of an RST, field by field. -/
theorem hdr_rstDatagram (id : UInt32) (ack seq : UInt16) :
    hdr (Context.rstDatagram id ack seq) =
      { version := 1
        packetType := stReset
        ext := 0
        connId := id.toUInt16
        tvUsec := 0
        replyMicro := 0
        windowSize := 0
        seqNr := seq
        ackNr := ack } := by
  have hzero : hdr (List.replicate headerSize 0) = ⟨0, 0, 0, 0, 0, 0, 0, 0, 0⟩ := by decide
  unfold Context.rstDatagram
  rw [hdr_setWindowSize (by simp), hdr_setSeqNr (by simp), hdr_setAckNr (by simp),
    hdr_setConnId (by simp), hdr_setVersionType (by simp) _ (by decide), hzero]

end UtpDatagrams
