import RustUtp.Emissions
import RustUtp.SendQueue

/-! # Fresh headers — what a datagram says about its sender

    An ack is written when it is sent, so its connection id, ack number and
    window are those of that moment.  A queued packet is written when it is
    created or extended; each transmission renews its ack number and its
    timestamps, but the window stays what it was.  Every datagram on the wire
    carries a note of its sender as it was when the datagram left, and of the
    bytes that waited to be read when the window was written; what the header
    says is compared with this note. -/

namespace UtpFreshHeaders

open UtpCircular UtpPacket UtpUtil UtpConnShared UtpEngine UtpEngine.Detached UtpActs
  UtpDatagrams UtpSendQueue UtpEmissions LabelledPath

/-! ## The header of a queued packet -/

/-- A packet built by a connection with these ids and this receive buffer: a SYN
    carries the id to receive on, all others the id to send on and the window
    that the bytes waiting at that time left. -/
structure Built (recv send : UInt32) (rcvbuf : Nat) (p : OutgoingPacket) : Prop where
  version : UtpPacket.version p.data = 1
  ext : UtpPacket.ext p.data = 0
  kind : packetType p.data = stSyn ∧ connId p.data = recv.toUInt16
    ∨ (packetType p.data = stData ∨ packetType p.data = stFin)
      ∧ connId p.data = send.toUInt16
      ∧ windowSize p.data = UInt32.ofNat (rcvbuf - p.unread)

/-- The condition on a packet that only reads its header. -/
theorem Built.of_hdr {recv send : UInt32} {rcvbuf : Nat} {p q : OutgoingPacket}
    (h : Built recv send rcvbuf p)
    (hver : UtpPacket.version q.data = UtpPacket.version p.data)
    (hext : UtpPacket.ext q.data = UtpPacket.ext p.data)
    (hty : packetType q.data = packetType p.data) (hid : connId q.data = connId p.data)
    (hwin : windowSize q.data = windowSize p.data) (hunread : q.unread = p.unread) :
    Built recv send rcvbuf q := by
  refine ⟨hver.trans h.version, hext.trans h.ext, ?_⟩
  rw [hty, hid, hwin, hunread]
  exact h.kind

/-- The packet was built by the connection of `s`. -/
def BuiltBy (s : UtpSock) (p : OutgoingPacket) : Prop :=
  Built s.connIdRecv s.connIdSend s.optRcvbuf p

/-- A header that is filled in while the receive window is up to date names the
    window of that moment. -/
theorem built_fillHeader (m : Detached) (hrcv : m.sock.lastRcvWin = m.getRcvWindow)
    {flags : UInt8} (hflags : flags = stData ∨ flags = stFin) (seq : Option UInt16) {b : Bytes}
    (hb : headerSize ≤ b.length) {p : OutgoingPacket} (hp : p.data = m.fillHeader flags seq b)
    (hunread : p.unread = m.cell.readBuf.length) : BuiltBy m.sock p := by
  have hlt : flags < stNumStates := by
    rcases hflags with rfl | rfl <;> decide
  have hhdr := hdr_fillHeader m hlt seq hb
  rw [← hp] at hhdr
  have hwin : windowSize p.data = UInt32.ofNat m.sock.lastRcvWin := congrArg Hdr.windowSize hhdr
  refine ⟨congrArg Hdr.version hhdr, congrArg Hdr.ext hhdr,
    .inr ⟨?_, congrArg Hdr.connId hhdr, ?_⟩⟩
  · rw [show packetType p.data = flags from congrArg Hdr.packetType hhdr]
    exact hflags
  · rw [hwin, hrcv, hunread]
    rfl

/-- A queued packet has a full header. -/
theorem headerSize_le {n : Nat} {p : OutgoingPacket} (h : PacketOk n p) :
    headerSize ≤ p.data.length := by
  rw [h.length]
  exact Nat.le_add_right _ _

/-- What happens to a queued packet leaves how it was built. -/
theorem closed_built (m : Detached) : Closed (fun _ p => BuiltBy m.sock p) m where
  sent := fun n p hpk h => by
    have hhdr := hdr_outgoing m (headerSize_le hpk) m.sock.ackNr
    exact h.of_hdr (congrArg Hdr.version hhdr) (congrArg Hdr.ext hhdr)
      (congrArg Hdr.packetType hhdr) (congrArg Hdr.connId hhdr) (congrArg Hdr.windowSize hhdr) rfl
  lost := fun _ _ h => ⟨h.version, h.ext, h.kind⟩
  made := fun hrcv _ k data =>
    built_fillHeader m hrcv (.inl rfl) (some m.sock.seqNr)
      (b := List.replicate headerSize 0 ++ data.take k) (by simp) rfl rfl
  extended := fun hrcv n p k data hpk _ => by
    refine built_fillHeader m hrcv (.inl rfl) none (b := p.data ++ data.take k) ?_ rfl rfl
    rw [List.length_append]
    exact Nat.le_add_right_of_le (headerSize_le hpk)
  fin := fun hrcv _ =>
    built_fillHeader m hrcv (.inr rfl) (some m.sock.seqNr)
      (b := List.replicate headerSize 0 ++ [].take 0) (by simp) rfl rfl

/-- Every packet of the queue was built by the connection it belongs to. -/
def BuiltQueue (s : UtpSock) : Prop := ∃ lo f, Queue (fun _ p => BuiltBy s p) s lo f

/-- One act keeps all packets of the queue. -/
theorem builtQueue_act {occ : Occasion} {l : Bytes} {m m' : Detached} (hact : Act occ l m m')
    (h : BuiltQueue m.sock) : BuiltQueue m'.sock := by
  obtain ⟨lo, f, hq⟩ := h
  have hrecv : m'.sock.connIdRecv = m.sock.connIdRecv := congrArg Ident.connIdRecv hact.ident_eq
  have hsend : m'.sock.connIdSend = m.sock.connIdSend := congrArg Ident.connIdSend hact.ident_eq
  have hrcvbuf : m'.sock.optRcvbuf = m.sock.optRcvbuf := congrArg Ident.optRcvbuf hact.ident_eq
  unfold BuiltQueue BuiltBy
  rw [hrecv, hsend, hrcvbuf]
  exact hq.actOf (closed_built m) hact

/-- The SYN of a dial. -/
theorem builtQueue_dialled (ctx : Context) (addr : SocketAddr) (seed : UInt32) (rng : Rng) :
    BuiltQueue (ctx.dialled addr seed rng).sock := by
  obtain ⟨t, ht, hv⟩ := txView_dialled ctx addr seed rng
  have hhdr := hdr_synPacket t
  refine ⟨_, _, queue_syn ⟨congrArg Hdr.version hhdr, congrArg Hdr.ext hhdr,
    .inl ⟨congrArg Hdr.packetType hhdr, ?_⟩⟩ hv⟩
  have hid : connId (Context.synPacket t).data = t.connIdRecv.toUInt16 :=
    congrArg Hdr.connId hhdr
  rw [hid, ht]
  show seed.toUInt16 = (0 + seed).toUInt16
  rw [UInt32.zero_add]

/-- An accepted socket starts with an empty queue. -/
theorem builtQueue_accepting (ctx : Context) (buf : Bytes) (addr : SocketAddr) :
    BuiltQueue (ctx.accepting buf addr).sock := by
  obtain ⟨v, hv⟩ := txView_accepting ctx buf addr
  exact ⟨_, _, queue_empty hv⟩

/-- Every packet of every queue was built by its connection. -/
theorem reachable_builtQueue {ctx : Context} (h : Reachable ctx) : EverySock BuiltQueue ctx :=
  Reachable.everySock (fun _ _ _ _ hact => builtQueue_act hact) builtQueue_dialled
    builtQueue_accepting h

/-- At every moment, the packet about to be sent was built by its connection. -/
theorem Moment.built {occ : Occasion} {ctx : Context} (hreach : Reachable ctx) {m : Detached}
    {seq : UInt16} {pkt : OutgoingPacket} (h : Moment occ ctx m (.queued seq pkt)) :
    BuiltBy m.sock pkt ∧ ∃ n, UInt16.ofNat n = seqNr pkt.data ∧ PacketOk n pkt := by
  rcases Moment.invariant (Q := fun _ => True) (fun _ _ _ _ hact => builtQueue_act hact)
    builtQueue_dialled builtQueue_accepting (fun _ _ _ => trivial) (fun _ _ _ _ _ => trivial) h
    (reachable_builtQueue hreach) with ⟨lo, f, hq⟩ | ⟨hack, -⟩
  · cases h with
    | between hpath hready =>
        obtain ⟨n, -, -, -, hfn⟩ := hq.find hready
        obtain ⟨hpk, hbuilt⟩ := hq.good n pkt hfn
        exact ⟨hbuilt, n, hpk.seq.symm, hpk⟩
  · exact nomatch hack

/-! ## What is fresh -/

/-- The receive window of the sender, as far as a header can express it. -/
def Note.window (n : Note) : Nat := min (2 ^ 32 - 1) (n.optRcvbuf - n.unread)

/-- The bytes that waited when the window field was written left the room that
    those waiting now leave.  The room is written with its high bits cut off. -/
def Note.Kept (n : Note) : Prop := (n.optRcvbuf - n.unreadWritten) % 2 ^ 32 = Note.window n

instance (n : Note) : Decidable (Note.Kept n) := inferInstanceAs (Decidable (_ = _))

/-- In a receive buffer of less than 4 GiB nothing is cut off: as many bytes wait
    as did then, up to the size of the buffer. -/
theorem Note.kept_iff {n : Note} (h : n.optRcvbuf < 2 ^ 32) :
    Note.Kept n ↔ min n.optRcvbuf n.unreadWritten = min n.optRcvbuf n.unread := by
  unfold Note.Kept Note.window
  omega

/-- What the header of a datagram says of its sender. -/
structure Says (n : Note) (b : Bytes) : Prop where
  connId : UtpPacket.connId b = n.connIdSend.toUInt16
  ackNr : UtpPacket.ackNr b = n.ackNr
  window : windowSize b = UInt32.ofNat (n.optRcvbuf - n.unreadWritten)
  ack : packetType b = stState → n.unreadWritten = n.unread

/-- The header of an ack that leaves. -/
theorem hdr_ack (m : Detached) :
    hdr (m.stampTimes m.ackDatagram) =
      { hdr m.ackDatagram with
        tvUsec := UInt32.ofNat m.ctx.clock.micros
        replyMicro := m.sock.delay.replyMicro } := by
  refine hdr_stampTimes m ?_
  rw [length_ackDatagram]
  exact Nat.le_add_right _ _

/-- An ack says what is true at that moment. -/
theorem says_ack (m : Detached) :
    Says (m.note m.cell.readBuf.length) (m.stampTimes m.ackDatagram) := by
  have hhdr := hdr_ack m
  rw [hdr_ackDatagram] at hhdr
  exact ⟨congrArg Hdr.connId hhdr, congrArg Hdr.ackNr hhdr, congrArg Hdr.windowSize hhdr,
    fun _ => rfl⟩

/-- A queued packet says what was true when it was built, with the ack number of
    its last transmission. -/
theorem says_queued {m : Detached} {pkt : OutgoingPacket} {n : Nat} (hpk : PacketOk n pkt)
    (hbuilt : BuiltBy m.sock pkt)
    (hsyn : packetType (m.stampTimes (setAckNr pkt.data m.sock.ackNr)) ≠ stSyn) :
    Says (m.note pkt.unread) (m.stampTimes (setAckNr pkt.data m.sock.ackNr)) := by
  have hhdr := hdr_outgoing m (headerSize_le hpk) m.sock.ackNr
  have hty : packetType (m.stampTimes (setAckNr pkt.data m.sock.ackNr)) = packetType pkt.data :=
    congrArg Hdr.packetType hhdr
  rcases hbuilt.kind with ⟨hkind, -⟩ | ⟨hkind, hid, hwin⟩
  · exact absurd (hty.trans hkind) hsyn
  · refine ⟨(congrArg Hdr.connId hhdr).trans hid, congrArg Hdr.ackNr hhdr,
      (congrArg Hdr.windowSize hhdr).trans hwin, fun hstate => ?_⟩
    rw [hty] at hstate
    rcases hkind with hdata | hfin
    · exact nomatch hdata.symm.trans hstate
    · exact nomatch hfin.symm.trans hstate

/-- **WHAT A DATAGRAM SAYS** at the moment it leaves. -/
theorem says_moment {occ : Occasion} {ctx : Context} (hreach : Reachable ctx) {m : Detached}
    {src : Source} (h : Moment occ ctx m src) (hsyn : packetType (src.bytes m) ≠ stSyn) :
    Says (src.note m) (src.bytes m) := by
  cases src with
  | ack => exact says_ack m
  | keepAlive => exact says_ack (backOne m)
  | queued seq pkt =>
      obtain ⟨hbuilt, n, -, hpk⟩ := Moment.built hreach h
      exact says_queued hpk hbuilt hsyn

/-- A data, FIN or state packet with its note. -/
def Noted (d : Sent) : Prop :=
  packetType d.bytes ≠ stSyn → packetType d.bytes ≠ stReset →
    ∃ n, d.note = some n ∧ Says n d.bytes

/-- The datagrams of one operation tell the truth about their notes. -/
theorem noted_step {ctx ctx' : Context} (hreach : Reachable ctx) {op : Op}
    (hstep : ctx.step op = some ctx') (h : ∀ d ∈ ctx.wire, Noted d) : ∀ d ∈ ctx'.wire, Noted d := by
  have hexplained := explained_step hstep
  obtain ⟨new, hgrown⟩ := hexplained.grows
  intro d hd
  rw [← hgrown] at hd
  rcases List.mem_append.mp hd with hold | hnew
  · exact h d hold
  · obtain ⟨pre, post, rfl⟩ := List.append_of_mem hnew
    rw [← List.append_assoc] at hgrown
    cases hexplained.each _ d post hgrown.symm (by rw [List.length_append]; omega) with
    | socket m src hmoment hpre heq =>
        subst heq
        exact fun hsyn _ => ⟨src.note m, rfl, says_moment hreach hmoment hsyn⟩
    | rst addr id ack seq heq =>
        subst heq
        exact fun _ hrst => absurd (congrArg Hdr.packetType (hdr_rstDatagram id.toUInt32 ack seq)) hrst

/-- Every datagram of every run tells the truth about its note. -/
theorem reachable_noted {ctx : Context} (h : Reachable ctx) : ∀ d ∈ ctx.wire, Noted d := by
  induction h with
  | new => exact fun d hd => nomatch hd
  | step op hreach hstep ih => exact noted_step hreach hstep ih

/-- **FRESH HEADERS**: every data, FIN and state packet that was ever put on the
    wire carries the connection id and the ack number its socket had when it
    left, which a keep-alive sets back by one for the time of the transmission;
    and its window is the receive window of that moment exactly when the bytes
    then waiting to be read left the room of those that waited when the window
    was written.  For a state packet these are the same bytes. -/
theorem headers_fresh_iff {ctx : Context} (hreach : Reachable ctx) :
    (∀ d ∈ ctx.wire, packetType d.bytes ≠ stSyn → packetType d.bytes ≠ stReset →
        ∃ n, d.note = some n
          ∧ connId d.bytes = n.connIdSend.toUInt16
          ∧ ackNr d.bytes = n.ackNr
          ∧ ((windowSize d.bytes).toNat = Note.window n ↔ Note.Kept n)
          ∧ (n.optRcvbuf < 2 ^ 32 →
            (Note.Kept n ↔ min n.optRcvbuf n.unreadWritten = min n.optRcvbuf n.unread))
          ∧ (packetType d.bytes = stState → n.unreadWritten = n.unread))
      ∧ ∀ m : Detached, ∃ d, m.sendKeepAlive.ctx.wire = m.ctx.wire ++ [d]
        ∧ ackNr d.bytes = m.sock.ackNr - 1 ∧ m.sendKeepAlive.sock.ackNr = m.sock.ackNr := by
  refine ⟨fun d hd hsyn hrst => ?_, fun m => ?_⟩
  · obtain ⟨n, hn, htold⟩ := reachable_noted hreach d hd hsyn hrst
    refine ⟨n, hn, htold.connId, htold.ackNr, ?_, Note.kept_iff, htold.ack⟩
    rw [htold.window, UInt32.toNat_ofNat']
    exact Iff.rfl
  · -- the keep-alive is an ack sent with `ack_nr` one lower, which is then restored
    refine ⟨Source.ack.sent (backOne m), wire_sendAck (backOne m) false,
      (says_ack (backOne m)).ackNr, ?_⟩
    show ((backOne m).sendAck false).sock.ackNr + 1 = _
    rw [show ((backOne m).sendAck false).sock.ackNr = m.sock.ackNr - 1 by
      unfold sendAck
      rw [ackListRemove_sock, sendData_sock]
      rfl]
    exact UInt16.sub_add_cancel _ _

/-- The receive window of the connection under `key`. -/
def windowAt (ctx : Context) (key : Key) : Option Nat :=
  (ctx.sockets.lookup key).map (fun s => (ctx.detach key s).getRcvWindow)

/-- A run in which a connection is accepted and writes, its application reads,
    and then the retransmission timer is due. -/
def staleOps : List Op :=
  [arrives (datagram stSyn 1000 1 0 []),
    arrives (setWindowSize (datagram stData 1001 2 52654 [7]) 65535),
    .write acceptedKey [1, 2, 3], .recv acceptedKey 0 10, .elapse ⟨5000000⟩]

/-- What a timer check reports: the receive window before and after it, and the
    type, the window and the note of every datagram it sends. -/
structure TimerReport where
  before : Option Nat
  after : Option Nat
  sent : List (UInt8 × UInt32 × Option Note)
  deriving DecidableEq

def timerReport (ctx : Context) : Option TimerReport :=
  (ctx.step (.checkTimeouts [acceptedKey])).map (fun c =>
    { before := windowAt ctx acceptedKey
      after := windowAt c acceptedKey
      sent := (c.wire.drop ctx.wire.length).map (fun d =>
        (packetType d.bytes, windowSize d.bytes, d.note)) })

/-- The timer check of this run sends one datagram, with an old window. -/
theorem stale_step :
    ∃ ctx ctx' d, Reachable ctx ∧ ctx.step (.checkTimeouts [acceptedKey]) = some ctx'
      ∧ ctx'.wire = ctx.wire ++ [d] ∧ packetType d.bytes = stData
      ∧ windowAt ctx acceptedKey = some 1048576 ∧ windowAt ctx' acceptedKey = some 1048576
      ∧ (windowSize d.bytes).toNat = 1048575 ∧ d.note = some ⟨1000, 2, 1048576, 0, 1⟩ := by
  obtain ⟨ctx, s, hreach, hs, hq⟩ := detachedAfter_of 0 staleOps acceptedKey
    (Q := fun m => timerReport (Context.attach acceptedKey m)
      = some ⟨some 1048576, some 1048576, [(stData, 1048575, some ⟨1000, 2, 1048576, 0, 1⟩)]⟩)
    (by decide +kernel)
  rw [attach_detach hs] at hq
  obtain ⟨ctx', hstep, hval⟩ := Option.map_eq_some_iff.mp hq
  obtain ⟨hbefore, hafter, hsent⟩ := TimerReport.mk.inj hval
  obtain ⟨new, hnew⟩ := (explained_step hstep).grows
  rw [← hnew, List.drop_left] at hsent
  obtain ⟨d, rfl, hd⟩ := List.map_eq_singleton_iff.mp hsent
  obtain ⟨hty, hpair⟩ := Prod.mk.inj hd
  obtain ⟨hwin, hnote⟩ := Prod.mk.inj hpair
  exact ⟨ctx, ctx', d, hreach, hstep, hnew.symm, hty, hbefore, hafter, by rw [hwin]; rfl, hnote⟩

/-- The retransmission tells the peer the window of the time when the packet was
    written. -/
theorem retransmission_stale :
    ∃ ctx ctx' d, Reachable ctx ∧ ctx.step (.checkTimeouts [acceptedKey]) = some ctx'
      ∧ ctx'.wire = ctx.wire ++ [d] ∧ packetType d.bytes = stData
      ∧ windowAt ctx acceptedKey = some 1048576 ∧ windowAt ctx' acceptedKey = some 1048576
      ∧ (windowSize d.bytes).toNat ≠ min (2 ^ 32 - 1) 1048576 := by
  obtain ⟨ctx, ctx', d, hreach, hstep, hwire, hty, hbefore, hafter, hwin, -⟩ := stale_step
  refine ⟨ctx, ctx', d, hreach, hstep, hwire, hty, hbefore, hafter, ?_⟩
  rw [hwin]
  decide

/-- One byte waited to be read when the packet was written, and none does when it
    is sent again. -/
theorem headers_fresh_retransmission :
    ∃ ctx d n, Reachable ctx ∧ d ∈ ctx.wire ∧ packetType d.bytes = stData ∧ d.note = some n
      ∧ n.unreadWritten = 1 ∧ n.unread = 0 ∧ connId d.bytes = n.connIdSend.toUInt16
      ∧ ackNr d.bytes = n.ackNr ∧ (windowSize d.bytes).toNat ≠ Note.window n := by
  obtain ⟨ctx, ctx', d, hreach, hstep, hwire, hty, -, -, -, hnote⟩ := stale_step
  have hreach' : Reachable ctx' := hreach.step _ hstep
  have hmem : d ∈ ctx'.wire := by
    rw [hwire]
    exact List.mem_append_right _ (List.mem_singleton_self d)
  obtain ⟨n, hn, hid, hack, hwin, -⟩ :=
    (headers_fresh_iff hreach').1 d hmem (by rw [hty]; decide) (by rw [hty]; decide)
  obtain rfl := Option.some.inj (hnote.symm.trans hn)
  exact ⟨ctx', d, _, hreach', hmem, hty, hn, rfl, rfl, hid, hack,
    fun h => absurd (hwin.mp h) (by decide)⟩

end UtpFreshHeaders
