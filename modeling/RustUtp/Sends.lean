import RustUtp.Decoding
import RustUtp.Lib.SlidingWindow

/-! # The sending end of a connection

    A socket represents the sending end of a transfer when its queue holds the
    packets of the transfer that have not arrived: `Sends`.  Sending, losing,
    queueing and acking packets are operations of the transfer's sender, or
    none at all, as long as the acks that come in are true. -/

namespace UtpSends

open UtpCircular UtpPacket UtpUtil UtpConnShared UtpEngine UtpEngine.Detached UtpActs
  UtpDatagrams UtpSendQueue UtpDecoding LabelledPath SlidingWindow

/-! ## Packets of a transfer -/

/-- The datagram carries packet `n` of the transfer. -/
structure Bears (t : Transfer UInt8) (n : Nat) (data : Bytes) : Prop where
  after : t.first < n
  kind : packetType data = if t.last = some n then stFin else stData
  ext : ext data = 0
  body : body data = t.content n

/-- Packet `n` of the queue is the SYN, which has been sent, or packet `n` of the
    transfer. -/
def Fits (t : Transfer UInt8) (n : Nat) (p : OutgoingPacket) : Prop :=
  (n = t.first ∧ packetType p.data = stSyn ∧ 0 < p.transmissions)
    ∨ Bears t n p.data ∧ (n ∈ t.sent → 0 < p.transmissions)

variable {t t' : Transfer UInt8} {n : Nat} {p : OutgoingPacket} {data : Bytes}

/-- A datagram bears the same payload in a transfer that agrees on its number.
    -/
theorem Bears.of_same (h : Bears t n data) (hfirst : t'.first = t.first)
    (hcontent : t'.content n = t.content n) (hlast : t'.last = some n ↔ t.last = some n) :
    Bears t' n data := by
  refine ⟨by rw [hfirst]; exact h.after, ?_, h.ext, h.body.trans hcontent.symm⟩
  rw [h.kind]
  simp only [hlast]

/-- A packet fits a transfer that agrees on its number. -/
theorem Fits.of_same (h : Fits t n p) (hfirst : t'.first = t.first)
    (hcontent : t'.content n = t.content n) (hlast : t'.last = some n ↔ t.last = some n)
    (hsent : n ∈ t'.sent → n ∉ t.sent → 0 < p.transmissions) : Fits t' n p := by
  rcases h with ⟨hn, hsyn⟩ | ⟨hbears, hcount⟩
  · exact .inl ⟨hn.trans hfirst.symm, hsyn⟩
  · refine .inr ⟨hbears.of_same hfirst hcontent hlast, fun hin => ?_⟩
    by_cases hold : n ∈ t.sent
    · exact hcount hold
    · exact hsent hin hold

/-- What every socket writes into a packet as it goes out leaves the rest of it
    alone. -/
theorem outgoing_same (m : Detached) (hlen : headerSize ≤ data.length) (a : UInt16) :
    packetType (m.stampTimes (setAckNr data a)) = packetType data
      ∧ ext (m.stampTimes (setAckNr data a)) = ext data
      ∧ seqNr (m.stampTimes (setAckNr data a)) = seqNr data
      ∧ ackNr (m.stampTimes (setAckNr data a)) = a
      ∧ body (m.stampTimes (setAckNr data a)) = body data := by
  have hhdr := hdr_outgoing m hlen a
  exact ⟨congrArg Hdr.packetType hhdr, congrArg Hdr.ext hhdr, congrArg Hdr.seqNr hhdr,
    congrArg Hdr.ackNr hhdr, body_outgoing m data a⟩

/-- A transmission renews what is no part of the payload. -/
theorem Bears.outgoing (h : Bears t n data) (m : Detached) (hlen : headerSize ≤ data.length)
    (a : UInt16) : Bears t n (m.stampTimes (setAckNr data a)) := by
  obtain ⟨hty, hext, -, -, hbody⟩ := outgoing_same m hlen a
  exact ⟨h.after, hty.trans h.kind, hext.trans h.ext, hbody.trans h.body⟩

/-- A queued packet has a full header. -/
theorem PacketOk.length_le (h : PacketOk n p) : headerSize ≤ p.data.length := by
  rw [h.length]
  exact Nat.le_add_right _ _

/-- A packet still fits when it has been sent. -/
theorem Fits.sent (h : Fits t n p) (hp : PacketOk n p) (m : Detached) :
    Fits t n (m.sentPacket p) := by
  rcases h with ⟨hn, hty, -⟩ | ⟨hbears, -⟩
  · exact .inl ⟨hn, (outgoing_same m (PacketOk.length_le hp) m.sock.ackNr).1.trans hty,
      Nat.succ_pos _⟩
  · exact .inr ⟨hbears.outgoing m (PacketOk.length_le hp) _, fun _ => Nat.succ_pos _⟩

/-! ## Sockets that send a transfer -/

/-- What has not arrived is in the queue, as the transfer says. -/
structure Queued (t : Transfer UInt8) (s : UtpSock) (lo : Nat)
    (f : Nat → Option OutgoingPacket) : Prop extends Queue (Fits t) s lo f where
  next : t.next = lo + s.curWindowPackets
  kept : ∀ n, t.first < n → n < t.next → (f n).isSome = true ∨ t.Received n
  opened : s.finSent = false → t.last = none

/-- The socket represents the sending end of `t`. -/
def Sends (t : Transfer UInt8) (s : UtpSock) : Prop := ∃ lo f, Queued t s lo f

variable {s s' : UtpSock} {lo : Nat} {f : Nat → Option OutgoingPacket}

/-- A step that leaves the sending side. -/
theorem Sends.of_view (h : Sends t s) (hv : txView s' = txView s) : Sends t s' := by
  obtain ⟨lo, f, hq⟩ := h
  have hcwp : s'.curWindowPackets = s.curWindowPackets := congrArg TxView.curWindowPackets hv
  have hfin : s'.finSent = s.finSent := congrArg TxView.finSent hv
  exact ⟨lo, f, hq.toQueue.of_view hv, by rw [hcwp]; exact hq.next, hq.kept,
    by rw [hfin]; exact hq.opened⟩

/-- The receiver's progress. -/
theorem Sends.receiver (h : Sends t s) (hgrow : ReceiverGrows t t') : Sends t' s := by
  obtain ⟨lo, f, hq⟩ := h
  refine ⟨lo, f, hq.toQueue.weaken (fun n p _ hfit => ?_), hgrow.next.trans hq.next,
    fun n hlo hhi => ?_, fun hfin => hgrow.last.trans (hq.opened hfin)⟩
  · refine hfit.of_same hgrow.first (by rw [hgrow.content]) (by rw [hgrow.last])
      (fun hin hout => ?_)
    rw [hgrow.sent] at hin
    exact absurd hin hout
  · rw [hgrow.first] at hlo
    rw [hgrow.next] at hhi
    exact (hq.kept n hlo hhi).imp id (hgrow.received n)

/-- The window starts not far past the last number taken in order. -/
theorem Queued.lo_le (h : Queued t s lo f) (hsound : Sound 1024 t) : lo ≤ t.ack + 1025 := by
  by_contra hgt
  have hbegun := hsound.begun
  have hnext := h.next
  rcases h.kept (lo - 1) (by omega) (by omega) with hsome | hle | hheld
  · obtain ⟨p, hp⟩ := Option.isSome_iff_exists.mp hsome
    have := (h.ring.support _ p hp).1
    omega
  · omega
  · have := (hsound.ahead _ hheld).2.1
    omega

/-! ## Packets go out -/

/-- The datagram is packet `n` of the transfer, on its way. -/
structure Ships (t : Transfer UInt8) (n : Nat) (data : Bytes) : Prop where
  sent : n ∈ t.sent
  seq : seqNr data = UInt16.ofNat n
  length : headerSize ≤ data.length
  bears : Bears t n data

/-- Transmitting a packet puts it on the wire. -/
theorem wire_sendPacketAt {m : Detached} {seq : UInt16}
    (hp : m.sock.outbuf.get seq.toNat = some p) :
    (m.sendPacketAt seq).ctx.wire = m.ctx.wire
      ++ [⟨some m.sock.user, m.sock.key.addr, m.stampTimes (setAckNr p.data m.sock.ackNr),
        some (m.note p.unread)⟩] := by
  unfold Detached.sendPacketAt
  rw [hp]
  exact UtpEmissions.wire_sendData _ _ _

/-- What sending one slot of the queue means: nothing, the SYN again, or a packet
    of the transfer. -/
inductive SendsOut (t : Transfer UInt8) (m m' : Detached) : Prop where
  | nothing (h : m' = m)
  | syn (d : Bytes) (note : Option Note) (hsends : Sends t m'.sock)
      (hwire : m'.ctx.wire = m.ctx.wire ++ [⟨some m.sock.user, m.sock.key.addr, d, note⟩])
      (hty : packetType d = stSyn) (hseq : seqNr d = UInt16.ofNat t.first)
  | packet (n : Nat) (d : Bytes) (note : Option Note) (hlo : t.first < n) (hhi : n < t.next)
      (hnear : t.next ≤ n + 1024) (hsends : Sends (t.send n) m'.sock)
      (hwire : m'.ctx.wire = m.ctx.wire ++ [⟨some m.sock.user, m.sock.key.addr, d, note⟩])
      (hships : Ships (t.send n) n d) (hack : ackNr d = m.sock.ackNr)

/-- The transfer records a packet that goes out. -/
theorem sends_sendPacketAt {m : Detached} (h : Sends t m.sock) (seq : UInt16) :
    SendsOut t m (m.sendPacketAt seq) := by
  obtain ⟨lo, f, hq⟩ := h
  cases hp : m.sock.outbuf.get seq.toNat with
  | none =>
      refine .nothing ?_
      unfold Detached.sendPacketAt
      rw [hp]
  | some p =>
      obtain ⟨n, hle, hlt, hmod, hfn⟩ := hq.find hp
      obtain ⟨hpk, hfit⟩ := hq.good n p hfn
      have hlen := PacketOk.length_le hpk
      have hview := txView_sendPacketAt hp
      have hcwp : (m.sendPacketAt seq).sock.curWindowPackets = m.sock.curWindowPackets :=
        congrArg TxView.curWindowPackets hview
      have hfin : (m.sendPacketAt seq).sock.finSent = m.sock.finSent :=
        congrArg TxView.finSent hview
      have hwire := wire_sendPacketAt hp
      have hqueue : Queue (Fits t) (m.sendPacketAt seq).sock lo
          (Function.update f n (some (m.sentPacket p))) := by
        -- the packet sent takes the place of the one in the slot
        refine Queue.of_view (hq.update hle hlt hmod (fun q hq' => ?_) ?_ (.inr rfl)) hview
        · obtain rfl := Option.some.inj hq'
          exact ⟨hpk.sent m, hfit.sent hpk m⟩
        · rw [flight_sent, hfn, flight_some]
          split <;> split <;> rename_i h1 h2
          · rcases h1 with h1 | h1
            · exact absurd h2.1 (by omega)
            · rw [h1] at h2
              exact absurd h2.2 (by decide)
          · omega
          · omega
          · rw [not_or] at h1
            exact absurd ⟨Nat.pos_of_ne_zero h1.1, Bool.eq_false_iff.mpr h1.2⟩ h2
      -- no number of the stream is lost by sending
      have hkept : ∀ k, t.first < k → k < t.next →
          (Function.update f n (some (m.sentPacket p)) k).isSome = true ∨ t.Received k := by
        intro k hlo hhi
        by_cases hk : k = n
        · rw [hk, Function.update_self]
          exact .inl rfl
        · rw [Function.update_of_ne hk]
          exact hq.kept k hlo hhi
      have hnext : t.next = lo + (m.sendPacketAt seq).sock.curWindowPackets := by
        rw [hcwp]
        exact hq.next
      have hopened : (m.sendPacketAt seq).sock.finSent = false → t.last = none := by
        rw [hfin]
        exact hq.opened
      obtain ⟨hty, -, hseq, hack, -⟩ := outgoing_same m hlen m.sock.ackNr
      -- the SYN goes out, or a packet of the stream
      rcases hfit with ⟨hn, hsyn, -⟩ | ⟨hbears, -⟩
      · exact .syn _ _ ⟨lo, _, hqueue, hnext, hkept, hopened⟩ hwire (hty.trans hsyn)
          (hseq.trans (hn ▸ hpk.seq))
      · refine .packet n _ _ hbears.after (by rw [hq.next]; exact hlt) ?_ ?_ hwire ?_ hack
        · have hle' := hq.cwp_le
          have hnext' := hq.next
          omega
        · refine ⟨lo, _, hqueue.weaken (fun k q hk hfit => ?_), hnext, hkept, hopened⟩
          refine hfit.of_same rfl rfl Iff.rfl (fun hin hout => ?_)
          obtain rfl := (Set.mem_insert_iff.mp hin).resolve_right hout
          rw [Function.update_self] at hk
          obtain rfl := Option.some.inj hk
          exact Nat.succ_pos _
        · refine ⟨Set.mem_insert n t.sent, hseq.trans hpk.seq, ?_, ?_⟩
          · rw [length_stampTimes, length_setAckNr]
            exact hlen
          · exact (hbears.outgoing m hlen _).of_same rfl rfl Iff.rfl

/-- A packet that is marked lost stays in the queue. -/
theorem sends_markLost {m : Detached} (h : Sends t m.sock) (seq : UInt16) :
    Sends t (m.markLost seq).sock := by
  obtain ⟨lo, f, hq⟩ := h
  obtain ⟨f', hqueue, htouched⟩ := hq.toQueue.markLost seq (fun n p _ hfit => hfit)
  have hsame : (m.markLost seq).sock.curWindowPackets = m.sock.curWindowPackets
      ∧ (m.markLost seq).sock.finSent = m.sock.finSent := by
    unfold Detached.markLost
    split
    · exact ⟨rfl, rfl⟩
    · split <;> exact ⟨rfl, rfl⟩
  refine ⟨lo, f', hqueue, by rw [hsame.1]; exact hq.next, fun n hlo hhi => ?_,
    by rw [hsame.2]; exact hq.opened⟩
  rcases htouched n with heq | ⟨p, -, hnew⟩
  · rw [heq]
    exact hq.kept n hlo hhi
  · rw [hnew]
    exact .inl rfl

/-- An empty queue has no bytes in flight. -/
theorem sends_checkIdle {m : Detached} (h : Sends t m.sock) (hcwp : m.sock.curWindowPackets = 0) :
    m.check (m.sock.curWindow = 0) = m := by
  obtain ⟨lo, f, hq⟩ := h
  have hzero : m.sock.curWindow = 0 := by
    rw [hq.bytes, hcwp, Nat.add_zero, Finset.Ico_self, Finset.sum_empty]
  rw [decide_eq_true hzero, check_true]

/-! ## Acks come in -/

/-- The bits of a selective ack for `k` name packets that have arrived. -/
def TrueMask (t : Transfer UInt8) (k : Nat) (buf : Bytes) : Prop :=
  ∀ exts w sel bits, (skipExtensions buf exts).2 = some w → w.selack = some sel →
    bitSet (maskOf buf sel) bits = true →
    0 ≤ bits ∧ bits < 32 ∧ t.Received (k + 2 + bits.toNat)

/-- The datagram acks what has arrived, and is not much older than that. -/
structure Acked (t : Transfer UInt8) (k : Nat) (buf : Bytes) : Prop where
  number : ackNr buf = UInt16.ofNat k
  le : k ≤ t.ack
  fresh : t.ack ≤ k + 40000
  mask : TrueMask t k buf

/-- A mask stays true while the receiver goes on. -/
theorem TrueMask.mono {k : Nat} {buf : Bytes} (h : TrueMask t k buf)
    (hgrow : ∀ n, t.Received n → t'.Received n) : TrueMask t' k buf :=
  fun exts w sel bits hwalk hsel hbit =>
    let ⟨h₁, h₂, h₃⟩ := h exts w sel bits hwalk hsel hbit
    ⟨h₁, h₂, hgrow _ h₃⟩

/-- An ack stays true while the sender goes on. -/
theorem Acked.sender {k : Nat} {buf : Bytes} (h : Acked t k buf) (hgrow : SenderGrows t t') :
    Acked t' k buf :=
  ⟨h.number, by rw [hgrow.ack]; exact h.le, by rw [hgrow.ack]; exact h.fresh,
    h.mask.mono (fun _ => hgrow.received.mpr)⟩

/-- The packets that a true ack covers have arrived. -/
theorem Queued.acks_le (h : Queued t s lo f) (hsound : Sound 1024 t) {k : Nat} {buf : Bytes}
    (hack : Acked t k buf) {acks : Nat} (hacks : AcksUpTo s (ackNr buf) acks) :
    acks = 0 ∨ lo + acks ≤ k + 1 := by
  obtain ⟨hle, hcount⟩ := hacks
  by_cases hzero : acks = 0
  · exact .inl hzero
  · right
    have hnear := hsound.near
    have hbehind := hsound.behind
    have hnext := h.next
    have hk := hack.le
    have hfresh := hack.fresh
    have hdist := hcount hzero
    rw [hack.number, h.oldest_eq, show (1 : UInt16) = UInt16.ofNat 1 from rfl] at hdist
    -- the count is a distance of 16-bit numbers, and the numbers are near
    have hmod : (UInt16.ofNat k - (UInt16.ofNat lo - UInt16.ofNat 1)).toNat
        = (k + 1 + (65536 - lo % 65536)) % 65536 := by
      rw [UInt16.toNat_sub, UInt16.toNat_sub, UInt16.toNat_ofNat', UInt16.toNat_ofNat',
        UInt16.toNat_ofNat']
      omega
    rw [hmod] at hdist
    have hcwp := h.cwp_le
    omega

/-- A true ack takes packets off that were received. -/
theorem sends_ackCumulative {m : Detached} (h : Sends t m.sock) (hsound : Sound 1024 t) {k : Nat}
    {buf : Bytes} (hack : Acked t k buf) {acks : Nat}
    (hacks : AcksUpTo m.sock (ackNr buf) acks) : Sends t (ackCumulative acks m).sock := by
  obtain ⟨lo, f, hq⟩ := h
  obtain ⟨lo', f', hqueue, hle, hend, hthin⟩ := hq.toQueue.ackCumulative hacks.1
  have hfin : (ackCumulative acks m).sock.finSent = m.sock.finSent :=
    congrArg RxView.finSent (rxView_ackCumulative acks m)
  refine ⟨lo', f', hqueue, hq.next.trans hend.symm, fun n hlo hhi => ?_,
    by rw [hfin]; exact hq.opened⟩
  rcases hthin n with heq | ⟨-, hlt⟩
  · rw [heq]
    exact hq.kept n hlo hhi
  · rcases hq.kept n hlo hhi with hsome | hrec
    · obtain ⟨p, hp⟩ := Option.isSome_iff_exists.mp hsome
      have hge := (hq.ring.support n p hp).1
      have hk := hack.le
      rcases hq.acks_le hsound hack hacks with hzero | hbound
      · omega
      · exact .inr (.inl (by omega))
    · exact .inr hrec

/-- The number that a bit of a true selective ack names. -/
theorem seqOfBit_number {k : Nat} {buf : Bytes} (hack : Acked t k buf) {bits : Int}
    (hpos : 0 ≤ bits) : seqOfBit (ackNr buf + 2) bits = UInt16.ofNat (k + 2 + bits.toNat) := by
  obtain ⟨i, rfl⟩ := Int.eq_ofNat_of_zero_le hpos
  unfold seqOfBit
  have hofInt : UInt16.ofInt (i : Int) = UInt16.ofNat i := by
    rw [← UInt16.toNat_inj, UInt16.ofInt, UInt16.toNat_ofNat', UInt16.toNat_ofNat']
    omega
  rw [hack.number, Int.toNat_natCast, UInt16.ofNat_add, UInt16.ofNat_add, hofInt]
  rfl

theorem sends_ackSelective {m : Detached} (h : Sends t m.sock) (hsound : Sound 1024 t) {k : Nat}
    {buf exts : Bytes} (hack : Acked t k buf) {w : ExtWalk} {sel : Nat × Nat} {bits : Int}
    (hwalk : (skipExtensions buf exts).2 = some w) (hsel : w.selack = some sel)
    (hwin : inSackWindow m.sock (seqOfBit (ackNr buf + 2) bits) = true)
    (hbit : bitSet (maskOf buf sel) bits = true) :
    Sends t (m.ackPacket (seqOfBit (ackNr buf + 2) bits)).1.sock := by
  obtain ⟨lo, f, hq⟩ := h
  obtain ⟨hpos, hsmall, hrec⟩ := hack.mask exts w sel bits hwalk hsel hbit
  obtain ⟨n, f', hlo, hhi, hnum, hqueue, hcwp, hgone⟩ := hq.toQueue.ackSelective hwin
  have hfin : (m.ackPacket (seqOfBit (ackNr buf + 2) bits)).1.sock.finSent = m.sock.finSent :=
    congrArg RxView.finSent (rxView_ackPacket m _)
  -- the bit stands for a number that was received
  have hsame : n = k + 2 + bits.toNat := by
    rw [seqOfBit_number hack hpos] at hnum
    have hnext := hq.next
    have hcount := hq.cwp_le
    have hnear := hsound.near
    have hbehind := hsound.behind
    have hk := hack.le
    have hfresh := hack.fresh
    exact SeqNum.eq_of_ofNat_eq hnum.symm (by omega) (by omega)
  refine ⟨lo, f', hqueue, by rw [hcwp]; exact hq.next, fun j hj hj' => ?_,
    by rw [hfin]; exact hq.opened⟩
  -- that slot is emptied, every other one is kept
  rcases hgone j with heq | ⟨-, rfl⟩
  · rw [heq]
    exact hq.kept j hj hj'
  · rw [hsame]
    exact .inr hrec

/-! ## Packets are queued -/

/-- The packets that are already in the queue, under a transfer that differs
    from packet `t.next` on only. -/
theorem Queued.later (h : Queued t s lo f) (hfirst : t'.first = t.first)
    (hsent : t'.sent = t.sent) (hcontent : ∀ n, n < t.next → t'.content n = t.content n)
    (hlast : ∀ n, n < t.next → (t'.last = some n ↔ t.last = some n)) : Queue (Fits t') s lo f := by
  refine h.toQueue.weaken (fun n p hn hfit => ?_)
  have hlt : n < t.next := by
    rw [h.next]
    exact h.live n p hn
  exact hfit.of_same hfirst (hcontent n hlt) (hlast n hlt) (fun hin hout => by
    rw [hsent] at hin
    exact absurd hin hout)

/-- An open stream sends data. -/
theorem kind_open (h : t.last = none) (n : Nat) :
    stData = if t.last = some n then stFin else stData := by
  rw [h, if_neg nofun]

/-- A packet that is new in the queue. -/
theorem Fits.new (m : Detached) {flags : UInt8} (hflags : flags < stNumStates) (k : Nat)
    (hfirst : t.first < n) (hkind : flags = if t.last = some n then stFin else stData)
    (hcontent : data.take k = t.content n) (hsent : n ∉ t.sent) :
    Fits t n (m.newPacket flags k data) := by
  obtain ⟨hhdr, hbody⟩ := new_reads m hflags k data
  refine .inr ⟨⟨hfirst, ?_, ?_, hbody.trans hcontent⟩, fun hin => absurd hin hsent⟩
  · exact (congrArg Hdr.packetType hhdr).trans hkind
  · exact congrArg Hdr.ext hhdr

/-- What queueing a packet under number `t.next` takes of the new transfer. -/
structure Appends (t t' : Transfer UInt8) : Prop where
  first : t'.first = t.first
  sent : t'.sent = t.sent
  next : t'.next = t.next + 1
  content : ∀ n, n < t.next → t'.content n = t.content n
  last : ∀ n, n < t.next → (t'.last = some n ↔ t.last = some n)
  received : ∀ n, t.Received n → t'.Received n

/-- A packet that is queued behind all others. -/
theorem Queued.append (h : Queued t s lo f) (happ : Appends t t')
    (hqueue : Queue (Fits t') s' lo (Function.update f t.next (some p)))
    (hcwp : s'.curWindowPackets = s.curWindowPackets + 1)
    (hopened : s'.finSent = false → t'.last = none) : Sends t' s' := by
  refine ⟨lo, _, hqueue, ?_, fun n hlo hhi => ?_, hopened⟩
  · rw [happ.next, h.next, hcwp, Nat.add_assoc]
  · by_cases hn : n = t.next
    · rw [hn, Function.update_self]
      exact .inl rfl
    · rw [Function.update_of_ne hn]
      rw [happ.first] at hlo
      rw [happ.next] at hhi
      exact (h.kept n hlo (by omega)).imp id (happ.received n)

/-- A write appends a packet. -/
theorem appends_push (t : Transfer UInt8) (data : Bytes) : Appends t (t.push data) :=
  ⟨rfl, rfl, rfl, fun _ hn => Function.update_of_ne (Nat.ne_of_lt hn) .., fun _ _ => Iff.rfl,
    fun _ h => h⟩

/-- A close appends the end. -/
theorem appends_finish (t : Transfer UInt8) (hopen : t.last = none) : Appends t t.finish := by
  refine ⟨rfl, rfl, rfl, fun _ hn => Function.update_of_ne (Nat.ne_of_lt hn) .., fun n hn => ?_,
    fun _ h => h⟩
  constructor
  · intro h
    exact absurd (Option.some.inj h).symm (Nat.ne_of_lt hn)
  · intro h
    exact nomatch hopen.symm.trans h

/-- Queueing a packet, in the socket and in the transfer. -/
theorem sends_push {m : Detached} (h : Sends t m.sock) (hsound : Sound 1024 t) {k : Nat}
    (hfin : m.sock.finSent = false)
    (hroom : m.sock.curWindowPackets < outgoingBufferMaxSize - 1) (hk : k ≤ data.length) :
    Sends (t.push (data.take k)) (m.pushPacket stData k data).sock
      ∧ Sound 1024 (t.push (data.take k)) := by
  obtain ⟨lo, f, hq⟩ := h
  have hopen := hq.opened hfin
  -- the packets queued before still fit, for the stream only grew
  have hnew : Fits (t.push (data.take k)) t.next (m.newPacket stData k data) := by
    refine Fits.new m (by decide) k (Nat.lt_of_le_of_lt hsound.begun hsound.behind) ?_ ?_
      (fun hin => Nat.lt_irrefl _ (hsound.inside _ hin).2)
    · exact kind_open (t := t.push (data.take k)) hopen t.next
    · exact (Function.update_self t.next (data.take k) t.content).symm
  have hbase : Queue (Fits (t.push (data.take k))) m.sock lo f :=
    hq.later rfl rfl (appends_push t _).content (appends_push t _).last
  rw [hq.next] at hnew
  have hqueue := hbase.pushPacket (by decide) hk (.inl hroom) hnew
  rw [← hq.next] at hqueue
  refine ⟨hq.append (appends_push t _) hqueue rfl (fun _ => hopen), hsound.push _ hopen ?_⟩
  have hlo := hq.lo_le hsound
  have hnext := hq.next
  unfold outgoingBufferMaxSize at hroom
  omega

/-- Queueing the FIN, in the socket and in the transfer. -/
theorem sends_queueFin {m : Detached} (h : Sends t m.sock) (hsound : Sound 1024 t)
    (hfin : m.sock.finSent = false) :
    Sends t.finish (queueFin m).sock ∧ Sound 1024 t.finish ∧ t.last = none := by
  obtain ⟨lo, f, hq⟩ := h
  have hopen := hq.opened hfin
  have hnew : Fits t.finish t.next (m.newPacket stFin 0 []) :=
    Fits.new m (by decide) 0 (Nat.lt_of_le_of_lt hsound.begun hsound.behind) (if_pos rfl).symm
      (Function.update_self t.next [] t.content).symm
      (fun hin => Nat.lt_irrefl _ (hsound.inside _ hin).2)
  have hbase : Queue (Fits t.finish) m.sock lo f :=
    hq.later rfl rfl (appends_finish t hopen).content (appends_finish t hopen).last
  rw [hq.next] at hnew
  have hqueue := hbase.queueFin hfin hnew
  rw [← hq.next] at hqueue
  refine ⟨hq.append (appends_finish t hopen) hqueue rfl (fun h => nomatch h), hsound.finish ?_,
    hopen⟩
  have hlo := hq.lo_le hsound
  have hnext := hq.next
  -- one slot stays free for the FIN
  have hcap : m.sock.curWindowPackets ≤ outgoingBufferMaxSize - 1 :=
    hq.cap.resolve_right (fun hc => by rw [hfin] at hc; exact nomatch hc.1)
  unfold outgoingBufferMaxSize at hcap
  omega

/-- The last packet grows while it has not been sent. -/
theorem sends_extend {m : Detached} (h : Sends t m.sock) (hsound : Sound 1024 t) {k : Nat}
    (hfin : m.sock.finSent = false) (hcwp : 0 < m.sock.curWindowPackets)
    (hp : m.sock.outbuf.get (m.sock.seqNr - 1).toNat = some p) (hunsent : p.transmissions = 0)
    (hk : k ≤ data.length) :
    Sends (t.extend (data.take k)) (m.extendLast p stData k data).sock
      ∧ Sound 1024 (t.extend (data.take k)) ∧ t.next - 1 ∉ t.sent ∧ t.first + 1 < t.next := by
  obtain ⟨lo, f, hq⟩ := h
  have hopen := hq.opened hfin
  have hnext := hq.next
  have hlast : lo + m.sock.curWindowPackets - 1 = t.next - 1 := by omega
  -- the packet has not been sent, so it is not the SYN and nobody has seen it
  have hfn : f (t.next - 1) = some p := by
    rw [← hlast, ← hq.get_number (by omega) (by omega), ← hp, hq.seq,
      SeqNum.ofNat_sub_one (by omega)]
  obtain ⟨hpk, hfit⟩ := hq.good _ p hfn
  obtain ⟨hbears, hcount⟩ := hfit.resolve_left
    (fun hsyn => Nat.lt_irrefl 0 (hunsent ▸ hsyn.2.2))
  have hout : t.next - 1 ∉ t.sent := fun hin => Nat.lt_irrefl 0 (hunsent ▸ hcount hin)
  obtain ⟨hhdr, hbody⟩ := extended_reads m (PacketOk.length_le hpk)
    (show stData < stNumStates by decide) k data
  have hnew : Fits (t.extend (data.take k)) (t.next - 1) (m.extendedPacket p stData k data) := by
    refine .inr ⟨⟨hbears.after, ?_, congrArg Hdr.ext hhdr, ?_⟩, fun hin => absurd hin hout⟩
    · exact (congrArg Hdr.packetType hhdr).trans
        (kind_open (t := t.extend (data.take k)) hopen (t.next - 1))
    · rw [hbody, hbears.body]
      exact (Function.update_self (t.next - 1) _ t.content).symm
  -- while the packet changes, the queue fits the new transfer everywhere else
  have hothers : Queue (fun n q => n ≠ t.next - 1 → Fits (t.extend (data.take k)) n q) m.sock lo
      f := by
    refine hq.toQueue.weaken (fun n q _ hfit hne => ?_)
    exact hfit.of_same rfl (Function.update_of_ne hne ..) Iff.rfl
      (fun hin hout' => absurd hin hout')
  obtain ⟨-, hqueue⟩ := hothers.extendLast hcwp hp hunsent
    (show stData < stNumStates by decide) hk
    (fun hne => absurd hlast hne)
  rw [hlast] at hqueue
  refine ⟨⟨lo, _, hqueue.weaken (fun n q hn hfit => ?_), hnext, fun n hlo hhi => ?_,
    fun _ => hopen⟩, hsound.extend _ hopen, hout, ?_⟩
  · by_cases hne : n = t.next - 1
    · rw [hne, Function.update_self] at hn
      obtain rfl := Option.some.inj hn
      rw [hne]
      exact hnew
    · exact hfit hne
  · by_cases hne : n = t.next - 1
    · rw [hne, Function.update_self]
      exact .inl rfl
    · rw [Function.update_of_ne hne]
      exact hq.kept n hlo hhi
  · have := hbears.after
    omega

end UtpSends
