import RustUtp.Mirror
import RustUtp.SendQueue
import RustUtp.Eof

/-! # Sequence shifts — no receive decision depends on where the numbers wrap

    Two runs of the receive path, the second one with all sequence numbers of
    the peer `k` further.  The second socket stays the mirror image of the first
    as long as the one plain comparison of the receive path, the check of an
    out-of-order packet against the number of the FIN, comes out the same. -/

namespace UtpShift

open UtpCircular UtpPacket UtpUtil UtpConnShared UtpDelayHist UtpEngine UtpEngine.Detached
  UtpActs UtpMirror UtpReceive UtpEof LabelledPath

/-! ## Shifting a datagram -/

/-- The same datagram with a sequence number `k` further. -/
def shiftSeq (k : UInt16) (buf : Bytes) : Bytes := setSeqNr buf (seqNr buf + k)

section ShiftSeq

variable {k : UInt16} {buf : Bytes} (hlen : headerSize ≤ buf.length)

include hlen

/-- Shifting a datagram changes its sequence number, and no other field. -/
theorem hdr_shiftSeq : hdr (shiftSeq k buf) = { hdr buf with seqNr := seqNr buf + k } :=
  hdr_setSeqNr hlen _

/-- The bytes past the header stay. -/
theorem byteAt_shiftSeq {i : Nat} (hi : headerSize ≤ i) :
    byteAt (shiftSeq k buf) i = byteAt buf i := by
  unfold shiftSeq setSeqNr
  unfold headerSize at hlen hi
  rw [byteAt_setU16 _ _ _ _ (by omega), if_neg (by omega), if_neg (by omega)]

omit hlen in
/-- The payload stays. -/
theorem drop_shiftSeq {n : Nat} (hn : headerSize ≤ n) :
    (shiftSeq k buf).drop n = buf.drop n := by
  have hbody : (shiftSeq k buf).drop headerSize = buf.drop headerSize := body_setSeqNr buf _
  rw [← Nat.add_sub_cancel' hn, ← List.drop_drop, ← List.drop_drop, hbody]

omit hlen in
/-- The length stays. -/
theorem length_shiftSeq : (shiftSeq k buf).length = buf.length := length_setSeqNr buf _

/-- The walk over the extensions reads past the header only. -/
theorem extLoop_shiftSeq (fuel : Nat) :
    ∀ (start : Nat) (extension : UInt8) (selack : Option (Nat × Nat)) (exts : Bytes),
      headerSize ≤ start →
      extLoop (shiftSeq k buf) fuel start extension selack exts
        = extLoop buf fuel start extension selack exts := by
  induction fuel with
  | zero => intro start extension selack exts _; rfl
  | succ fuel ih =>
      intro start extension selack exts hstart
      rw [extLoop, extLoop]
      dsimp only
      rw [length_shiftSeq, byteAt_shiftSeq hlen (i := start + 2 - 1) (by omega),
        byteAt_shiftSeq hlen (i := start + 2 - 2) (by omega),
        drop_shiftSeq (n := start + 2) (by omega), ih _ _ _ _ (by omega)]

theorem skipExtensions_shiftSeq (exts : Bytes) :
    skipExtensions (shiftSeq k buf) exts = skipExtensions buf exts := by
  have hext : ext (shiftSeq k buf) = ext buf := congrArg Hdr.ext (hdr_shiftSeq hlen)
  unfold skipExtensions
  rw [hext, length_shiftSeq, extLoop_shiftSeq hlen _ _ _ _ _ (Nat.le_refl _)]

end ShiftSeq

/-- Offsets past the header. -/
def ExtWalk.PastHeader (w : ExtWalk) : Prop :=
  headerSize ≤ w.dataStart ∧ ∀ sel, w.selack = some sel → headerSize ≤ sel.1

/-- What the walk finds lies past the header. -/
theorem extLoop_pastHeader {buf : Bytes} (fuel : Nat) :
    ∀ (start : Nat) (extension : UInt8) (selack : Option (Nat × Nat)) (exts : Bytes)
      (w : ExtWalk), headerSize ≤ start → (∀ sel, selack = some sel → headerSize ≤ sel.1) →
      (extLoop buf fuel start extension selack exts).2 = some w → ExtWalk.PastHeader w := by
  induction fuel with
  | zero => intro start extension selack exts w _ _ h; exact nomatch h
  | succ fuel ih =>
      intro start extension selack exts w hstart hsel h
      rw [extLoop] at h
      dsimp only at h
      split at h
      · exact nomatch h
      · split at h
        · exact nomatch h
        · split at h
          · exact nomatch h
          · -- what the walk stores is an offset past the header
            have hsel' : ∀ sel, (if extension = 1 then
                some (start + 2, (byteAt buf (start + 2 - 1)).toNat) else selack) = some sel →
                headerSize ≤ sel.1 := by
              intro sel hs
              split at hs
              · obtain rfl := Option.some.inj hs
                show headerSize ≤ start + 2
                omega
              · exact hsel sel hs
            -- the chain ends here, or goes on
            split at h
            · obtain rfl := Option.some.inj h
              exact ⟨by show headerSize ≤ start + 2 + _; omega, hsel'⟩
            · exact ih _ _ _ _ _ (by omega) hsel' h

theorem skipExtensions_pastHeader {buf exts : Bytes} {w : ExtWalk}
    (h : (skipExtensions buf exts).2 = some w) : ExtWalk.PastHeader w := by
  unfold skipExtensions at h
  split at h
  · obtain rfl := Option.some.inj h
    exact ⟨Nat.le_refl _, fun sel hsel => absurd hsel.symm (Option.some_ne_none sel)⟩
  · exact extLoop_pastHeader _ _ _ _ _ _ (Nat.le_refl _) (fun sel hsel => absurd hsel.symm (Option.some_ne_none sel)) h

/-- The sending side does not look at the sequence number of a datagram. -/
theorem processAck_shiftSeq {k : UInt16} {buf : Bytes} (hlen : headerSize ≤ buf.length)
    {w : ExtWalk} (hw : ExtWalk.PastHeader w) (m : Detached) :
    m.processAck (shiftSeq k buf) w.selack = m.processAck buf w.selack := by
  -- every field but the number is read from the same bytes
  have hh := hdr_shiftSeq (k := k) hlen
  have hack : ackNr (shiftSeq k buf) = ackNr buf := congrArg Hdr.ackNr hh
  have hty : packetType (shiftSeq k buf) = packetType buf := congrArg Hdr.packetType hh
  have htv : tvUsec (shiftSeq k buf) = tvUsec buf := congrArg Hdr.tvUsec hh
  have hreply : replyMicro (shiftSeq k buf) = replyMicro buf := congrArg Hdr.replyMicro hh
  have hwnd : windowSize (shiftSeq k buf) = windowSize buf := congrArg Hdr.windowSize hh
  have hactual : actualDelay (shiftSeq k buf) = actualDelay buf := by
    unfold actualDelay
    rw [hreply]
  have hmask : ∀ sel, w.selack = some sel → maskOf (shiftSeq k buf) sel = maskOf buf sel := by
    intro sel hsel
    unfold maskOf
    rw [drop_shiftSeq (hw.2 sel hsel)]
  -- the mask lies past the header too
  have htotal : ∀ (m : Detached) (c : AckCount),
      m.totalAcked (shiftSeq k buf) w.selack c = m.totalAcked buf w.selack c := by
    intro m c
    unfold totalAcked
    cases hsel : w.selack with
    | none => rfl
    | some sel =>
        dsimp only
        rw [hack, hmask sel hsel]
  have hmeasure : ∀ (m : Detached) (acks : Nat),
      m.measure (shiftSeq k buf) w.selack acks = m.measure buf w.selack acks := by
    intro m acks
    unfold Detached.measure
    dsimp only
    rw [hack, hty, htv, hactual, htotal]
  have hnote : ∀ m : Detached, m.noteWindow (shiftSeq k buf) = m.noteWindow buf := by
    intro m
    unfold noteWindow
    rw [hwnd]
  have happly : ∀ (m : Detached) (acks : Nat),
      m.applyAcks (shiftSeq k buf) acks = m.applyAcks buf acks := by
    intro m acks
    unfold applyAcks
    rw [hnote, hty, hack]
  unfold processAck
  dsimp only
  rw [hack, hmeasure, happly]
  cases hsel : w.selack with
  | none => rfl
  | some sel =>
      dsimp only
      rw [hmask sel hsel]

/-! ## The receive side of mirror images -/

variable {k : UInt16} {base : List Sent} {m m' : Detached}

/-- Both sides hand over the same bytes. -/
theorem mirror_deliver (h : Mirror k base m m') (data : Bytes) :
    Mirror k base (m.deliver data) (m'.deliver data) := by
  have hshut : m'.sock.readShutdown = m.sock.readShutdown := by
    obtain ⟨x, rfl, hx⟩ := h
    rfl
  unfold deliver
  rw [hshut]
  split
  · exact mirror_notify h _
  · exact h

/-- Numbers that are `k` apart stay so. -/
theorem mirror_setAck (h : Mirror k base m m') {a a' : UInt16} (ha : a' = a + k) :
    Mirror k base { m with sock := { m.sock with ackNr := a } }
      { m' with sock := { m'.sock with ackNr := a' } } := by
  obtain ⟨x, rfl, hx⟩ := h
  exact ⟨Touched.mk a' x.eofPkt x.inbuf x.outbuf x.wire, rfl,
    ha, hx.eofPkt, hx.inbuf, hx.outbuf, hx.wire⟩

/-- Both sides accept the packet they expected. -/
theorem mirror_acceptNext (h : Mirror k base m m') (data : Bytes) :
    Mirror k base (m.acceptNext data) (m'.acceptNext data) := by
  have hdeliver := mirror_deliver h data
  refine mirror_setAck hdeliver ?_
  rw [hdeliver.ackNr]
  grind

/-- Rotated buffers stay rotated. -/
theorem mirror_setInbuf (h : Mirror k base m m') {b b' : CircularBuffer Bytes}
    (hb : Rotated k b b') (n : Nat) :
    Mirror k base { m with sock := { m.sock with inbuf := b, reorderCount := n } }
      { m' with sock := { m'.sock with inbuf := b', reorderCount := n } } := by
  obtain ⟨x, rfl, hx⟩ := h
  exact ⟨Touched.mk x.ackNr x.eofPkt b' x.outbuf x.wire, rfl,
    hx.ackNr, hx.eofPkt, hb, hx.outbuf, hx.wire⟩

/-- Both sides count the same packets. -/
theorem mirror_setCount (h : Mirror k base m m') (n : Nat) :
    Mirror k base { m with sock := { m.sock with reorderCount := n } }
      { m' with sock := { m'.sock with reorderCount := n } } :=
  h.silent (fun m => { m with sock := { m.sock with reorderCount := n } }) (fun _ => rfl) rfl

/-- The index after a number and the index after its shift. -/
theorem succ_mod (a k : UInt16) :
    ((a + k).toNat + 1) % 65536 = (a.toNat + 1 + k.toNat) % 65536 := by
  rw [UInt16.toNat_add]
  omega

/-- Both sides drain the same packet. -/
theorem mirror_drainNext (h : Mirror k base m m') (p : Bytes) :
    Mirror k base (m.drainNext p) (m'.drainNext p) := by
  have hput : Rotated k (m.sock.inbuf.put (m.sock.ackNr.toNat + 1) none)
      (m'.sock.inbuf.put (m'.sock.ackNr.toNat + 1) none) := by
    refine h.inbuf.put ?_ none
    rw [h.ackNr]
    exact succ_mod _ _
  have hset := mirror_setInbuf h hput m.sock.reorderCount
  have hsame : ({ m' with sock := { m'.sock with
      inbuf := m'.sock.inbuf.put (m'.sock.ackNr.toNat + 1) none
      reorderCount := m.sock.reorderCount } } : Detached)
      = { m' with sock := { m'.sock with
          inbuf := m'.sock.inbuf.put (m'.sock.ackNr.toNat + 1) none } } := by
    rw [← h.flags.2.2.1]
  rw [hsame] at hset
  have hnext := mirror_acceptNext hset p
  have hcount := hnext.flags.2.2.1
  unfold drainNext
  dsimp only
  dsimp only at hnext hcount
  rw [hcount]
  exact mirror_setCount hnext _

/-- Both sides reach the FIN. -/
theorem mirror_markFinReached (h : Mirror k base m m') :
    Mirror k base m.markFinReached m'.markFinReached :=
  h.silent markFinReached (fun _ => rfl) rfl

/-- Both sides find out together that they have reached it: equality is kept by
    a shift. -/
theorem mirror_reachFin (h : Mirror k base m m') : Mirror k base m.reachFin m'.reachFin := by
  obtain ⟨hfin, hreached, -, heof⟩ := h.flags
  have hcond : (m'.sock.gotFinReached = false ∧ m'.sock.gotFin = true
      ∧ m'.sock.eofPkt = m'.sock.ackNr) ↔ (m.sock.gotFinReached = false ∧ m.sock.gotFin = true
      ∧ m.sock.eofPkt = m.sock.ackNr) := by
    rw [hfin, hreached, heof, h.ackNr, UInt16.add_left_inj]
  unfold reachFin
  by_cases hc : m.sock.gotFinReached = false ∧ m.sock.gotFin = true
      ∧ m.sock.eofPkt = m.sock.ackNr
  · rw [if_pos hc, if_pos (hcond.mpr hc)]
    exact mirror_setCount (mirror_sendAck (mirror_markFinReached h) false) 0
  · rw [if_neg hc, if_neg (fun h => hc (hcond.mp h))]
    exact h

/-- Both sides drain the same packets. The induction is on the fuel. -/
theorem mirror_drainLoop (fuel : Nat) :
    ∀ m m' : Detached, Mirror k base m m' →
      Mirror k base (drainLoop fuel m) (drainLoop fuel m') := by
  induction fuel with
  | zero => intro m m' h; exact h
  | succ fuel ih =>
      intro m m' h
      have hreach := mirror_reachFin h
      rw [drainLoop, drainLoop]
      generalize m.reachFin = m₁ at hreach ⊢
      generalize m'.reachFin = m₁' at hreach ⊢
      have hget : m₁'.sock.inbuf.get (m₁'.sock.ackNr.toNat + 1)
          = m₁.sock.inbuf.get (m₁.sock.ackNr.toNat + 1) := by
        refine hreach.inbuf.get_of_mod ?_
        rw [hreach.ackNr]
        exact succ_mod _ _
      rw [hreach.flags.2.2.1, hget]
      split
      · exact hreach
      · split
        · exact hreach
        · exact ih _ _ (mirror_drainNext hreach _)

/-- **AN IN-ORDER PACKET** is taken alike. -/
theorem mirror_receiveInOrder (h : Mirror k base m m') (data : Bytes) :
    Mirror k base (m.receiveInOrder data) (m'.receiveInOrder data) := by
  have hnext := mirror_acceptNext h data
  unfold receiveInOrder
  dsimp only
  rw [hnext.flags.2.2.1]
  exact mirror_scheduleAck (mirror_drainLoop _ _ _ hnext)

/-- A packet `off` past the expected one is in the ring, which has room for it. -/
def Buffered (s : UtpSock) (v : UInt16) (off : Nat) : Prop :=
  off + 1 < s.inbuf.size ∧ (s.inbuf.get v.toNat).isSome = true

/-- A packet that is buffered is dropped, by one check or the other. -/
theorem receiveOutOfOrder_buffered {v : UInt16} {off : Nat} (h : Buffered m.sock v off)
    (data : Bytes) : (m.receiveOutOfOrder v off data).1 = m := by
  have hkeep : m.sock.inbuf.ensureSize (v.toNat + 1) (off + 1) = m.sock.inbuf :=
    if_neg (Nat.not_lt.mpr (Nat.le_of_lt_succ h.1))
  have hgrow : m.growInbuf v off = m := by
    unfold growInbuf
    rw [hkeep]
  unfold receiveOutOfOrder
  dsimp only
  split
  · rfl
  · split
    · rfl
    · rw [hgrow, if_pos h.2]

/-- An out-of-order packet that is buffered, or for which the comparison with the
    FIN comes out the same. -/
theorem mirror_receiveOutOfOrder (h : Mirror k base m m') {v : UInt16} {off : Nat}
    (hoff : off < 1024) (data : Bytes)
    (hagree : Buffered m.sock v off
      ∨ (m.sock.gotFin = true → (v > m.sock.eofPkt ↔ v + k > m.sock.eofPkt + k))) :
    Mirror k base (m.receiveOutOfOrder v off data).1
      (m'.receiveOutOfOrder (v + k) off data).1 := by
  obtain ⟨hfin, -, hcount, heof⟩ := h.flags
  have hidx : (v + k).toNat % 65536 = (v.toNat + k.toNat) % 65536 := by
    rw [UInt16.toNat_add]
    omega
  -- a packet that is held already is dropped on both sides
  rcases hagree with hbuf | hagree
  · have hbuf' : Buffered m'.sock (v + k) off := by
      unfold Buffered
      rw [h.inbuf.size, h.inbuf.get_of_mod hidx]
      exact hbuf
    rw [receiveOutOfOrder_buffered hbuf, receiveOutOfOrder_buffered hbuf']
    exact h
  -- otherwise the FIN test is the one place where numbers are compared as they stand
  have hcond : (m'.sock.gotFin = true ∧ v + k > m'.sock.eofPkt)
      ↔ (m.sock.gotFin = true ∧ v > m.sock.eofPkt) := by
    rw [hfin, heof]
    constructor
    · rintro ⟨hg, hgt⟩
      exact ⟨hg, (hagree hg).mpr hgt⟩
    · rintro ⟨hg, hgt⟩
      exact ⟨hg, (hagree hg).mp hgt⟩
  -- growing the ring keeps the slots rotated
  have hitem : ((v + k).toNat + 1) % 65536 = (v.toNat + 1 + k.toNat) % 65536 := succ_mod v k
  have hgrown : Rotated k (m.sock.inbuf.ensureSize (v.toNat + 1) (off + 1))
      (m'.sock.inbuf.ensureSize ((v + k).toNat + 1) (off + 1)) :=
    h.inbuf.ensureSize (by omega) hitem
  have hgrow : Mirror k base (m.growInbuf v off) (m'.growInbuf (v + k) off) := by
    have hset := mirror_setInbuf h hgrown m.sock.reorderCount
    rw [show m.growInbuf v off = ({ m with sock := { m.sock with
        inbuf := m.sock.inbuf.ensureSize (v.toNat + 1) (off + 1)
        reorderCount := m.sock.reorderCount } } : Detached) from rfl,
      show m'.growInbuf (v + k) off = ({ m' with sock := { m'.sock with
        inbuf := m'.sock.inbuf.ensureSize ((v + k).toNat + 1) (off + 1)
        reorderCount := m'.sock.reorderCount } } : Detached) from rfl, hcount]
    exact hset
  have hget : (m'.growInbuf (v + k) off).sock.inbuf.get (v + k).toNat
      = (m.growInbuf v off).sock.inbuf.get v.toNat := hgrow.inbuf.get_of_mod hidx
  unfold receiveOutOfOrder
  by_cases hc : m.sock.gotFin = true ∧ v > m.sock.eofPkt
  · rw [if_pos hc, if_pos (hcond.mpr hc)]
    exact h
  · rw [if_neg hc, if_neg (fun h => hc (hcond.mp h))]
    split
    · exact h
    · dsimp only
      rw [hget]
      generalize m.growInbuf v off = m₁ at hgrow hget ⊢
      generalize m'.growInbuf (v + k) off = m₁' at hgrow hget ⊢
      split
      · exact hgrow
      · -- a free slot takes the packet
        have hstore := mirror_setInbuf hgrow (hgrow.inbuf.put hidx (some data))
          (m₁.sock.reorderCount + 1)
        have hstore' : Mirror k base (m₁.storePacket v data) (m₁'.storePacket (v + k) data) := by
          rw [show m₁'.storePacket (v + k) data = ({ m₁' with sock := { m₁'.sock with
            inbuf := m₁'.sock.inbuf.put (v + k).toNat (some data)
            reorderCount := m₁'.sock.reorderCount + 1 } } : Detached) from rfl,
            hgrow.flags.2.2.1]
          exact hstore
        exact mirror_scheduleAck hstore'

/-- The FIN is noted under numbers that are `k` apart. -/
theorem mirror_noteFin (h : Mirror k base m m') (kind : UInt8) (v : UInt16) :
    Mirror k base (m.noteFin kind v) (m'.noteFin kind (v + k)) := by
  unfold noteFin
  rw [h.flags.1]
  split
  · obtain ⟨x, rfl, hx⟩ := h
    exact ⟨Touched.mk x.ackNr (v + k) x.inbuf x.outbuf x.wire, rfl,
      hx.ackNr, rfl, hx.inbuf, hx.outbuf, hx.wire⟩
  · exact h

/-- The plain comparison of a sequence number with that of the FIN comes out
    the same after a shift. -/
def SameOrder (k eofPkt v : UInt16) : Prop := v > eofPkt ↔ v + k > eofPkt + k

/-- The receive side's share of a packet, if the comparison with the FIN comes
    out the same. -/
theorem mirror_receive (h : Mirror k base m m') {buf : Bytes} (hlen : headerSize ≤ buf.length)
    {dataStart off : Nat} (hstart : headerSize ≤ dataStart) (hoff : off < 1024)
    (hagree : off ≠ 0 → Buffered m.sock (seqNr buf) off
      ∨ (m.sock.gotFin = true → SameOrder k m.sock.eofPkt (seqNr buf))) :
    Mirror k base (m.receive buf dataStart off).1
      (m'.receive (shiftSeq k buf) dataStart off).1 := by
  have hh := hdr_shiftSeq (k := k) hlen
  have hty : packetType (shiftSeq k buf) = packetType buf := congrArg Hdr.packetType hh
  have hseq : seqNr (shiftSeq k buf) = seqNr buf + k := congrArg Hdr.seqNr hh
  have hfin := mirror_noteFin h (packetType buf) (seqNr buf)
  unfold receive
  dsimp only
  rw [hty, hseq, drop_shiftSeq hstart]
  by_cases hzero : off = 0
  · rw [if_pos hzero, if_pos hzero]
    exact mirror_receiveInOrder hfin _
  · rw [if_neg hzero, if_neg hzero]
    refine mirror_receiveOutOfOrder hfin hoff _ ?_
    unfold noteFin
    split
    · -- the FIN itself
      exact .inr (fun _ => ⟨fun hgt => absurd hgt (UInt16.lt_irrefl _),
        fun hgt => absurd hgt (UInt16.lt_irrefl _)⟩)
    · exact hagree hzero

/-- The distance to the expected number is the same on both sides. -/
theorem seqOffset_eq (h : Mirror k base m m') (v : UInt16) :
    seqOffset m'.sock (v + k) = seqOffset m.sock v := by
  unfold seqOffset
  rw [h.ackNr]
  congr 1
  grind

/-- A packet whose header passed all checks. -/
theorem mirror_processChecked (h : Mirror k base m m') {buf : Bytes}
    (hlen : headerSize ≤ buf.length) {w : ExtWalk} {exts : Bytes}
    (hwalk : (skipExtensions buf exts).2 = some w)
    (hagree : (m.processAck buf w.selack).sock.state.isConnected = true →
      packetType buf ≠ stState → seqOffset m.sock (seqNr buf) ≠ 0 →
      seqOffset m.sock (seqNr buf) < reorderBufferMaxSize →
      Buffered m.sock (seqNr buf) (seqOffset m.sock (seqNr buf))
        ∨ (m.sock.gotFin = true → SameOrder k m.sock.eofPkt (seqNr buf))) :
    Mirror k base (m.processChecked buf w).1 (m'.processChecked (shiftSeq k buf) w).1 := by
  have hw := skipExtensions_pastHeader hwalk
  have hh := hdr_shiftSeq (k := k) hlen
  have hty : packetType (shiftSeq k buf) = packetType buf := congrArg Hdr.packetType hh
  have hseq : seqNr (shiftSeq k buf) = seqNr buf + k := congrArg Hdr.seqNr hh
  have hack := mirror_processAck h buf w.selack
  have hview := (path_processAck m buf exts w hwalk).rxView_eq
  unfold processChecked
  dsimp only
  rw [hty, hseq, seqOffset_eq h, processAck_shiftSeq hlen hw]
  split
  · -- outside the window: an ack, or nothing
    split
    · exact mirror_scheduleAck h
    · exact h
  · rename_i hoff
    have hlt := Nat.not_le.mp hoff
    split
    · exact hack
    · rename_i hkind
      rw [hack.same.2.2.2.1]
      split
      · exact hack
      · rename_i hst
        have hst' : (m.processAck buf w.selack).sock.state.isConnected = true := by
          cases hs : (m.processAck buf w.selack).sock.state.isConnected with
          | true => rfl
          | false => exact absurd hs hst
        refine mirror_receive hack hlen hw.1 hlt (fun hne => ?_)
        -- the acks left the receive side alone, so the condition still speaks of it
        have hgot : (m.processAck buf w.selack).sock.gotFin = m.sock.gotFin :=
          congrArg RxView.gotFin hview
        have heof : (m.processAck buf w.selack).sock.eofPkt = m.sock.eofPkt :=
          congrArg RxView.eofPkt hview
        have hinbuf : (m.processAck buf w.selack).sock.inbuf = m.sock.inbuf :=
          congrArg RxView.inbuf hview
        unfold Buffered
        rw [hgot, heof, hinbuf]
        exact hagree hst' hkind hne hlt

/-- The extension bits of the peer are the same. -/
theorem mirror_setExtensions (h : Mirror k base m m') (exts : Bytes) :
    Mirror k base { m with sock := { m.sock with extensions := exts } }
      { m' with sock := { m'.sock with extensions := exts } } :=
  h.silent (fun m => { m with sock := { m.sock with extensions := exts } }) (fun _ => rfl) rfl

/-- A socket that dials takes over a number `k` further. -/
theorem mirror_noteReceipt (h : Mirror k base m m') (v : UInt16) :
    Mirror k base (m.noteReceipt v) (m'.noteReceipt (v + k)) := by
  have hack : (if m'.sock.state = .synSent then v + k - 1 else m'.sock.ackNr)
      = (if m.sock.state = .synSent then v - 1 else m.sock.ackNr) + k := by
    rw [h.same.2.2.2.1, h.ackNr]
    split
    · grind
    · rfl
  unfold noteReceipt
  rw [hack]
  generalize (if m.sock.state = .synSent then v - 1 else m.sock.ackNr) = a
  have hset := mirror_setAck h (a := a) rfl
  exact hset.silent (fun m => { m with sock := { m.sock with
    timers := { m.sock.timers with lastGotPacket := m.ctx.currentMs } } }) (fun _ => rfl) rfl

/-- A packet for which the comparison with the FIN comes out differently: an
    acceptable packet ahead of the expected one and not buffered yet, on a
    connection that has seen a FIN. -/
structure Straddles (k : UInt16) (m : Detached) (buf : Bytes) : Prop where
  full : headerSize ≤ buf.length
  kind : packetType buf < stNumStates ∧ packetType buf ≠ stState
  acks : m.sock.ackOutOfRange (ackNr buf) = false
  body : ((skipExtensions buf m.sock.extensions).2).isSome = true
  connected : m.sock.state.isConnected = true
  fin : m.sock.gotFin = true
  ahead : 0 < seqOffset m.sock (seqNr buf) ∧ seqOffset m.sock (seqNr buf) < reorderBufferMaxSize
  fresh : ¬ Buffered m.sock (seqNr buf) (seqOffset m.sock (seqNr buf))
  order : ¬ SameOrder k m.sock.eofPkt (seqNr buf)

/-- A packet that reaches the comparison with the FIN and matters there compares
    alike on both sides, unless it straddles. -/
theorem agrees_of_not_straddles {buf : Bytes} (hstart : FinLate m.sock)
    (hgood : ¬ Straddles k m buf) (hlen : headerSize ≤ buf.length)
    (hkind : packetType buf < stNumStates)
    (hout : ¬ ((packetType buf ≠ stSyn ∨ m.sock.state ≠ .synRecv)
      ∧ m.sock.ackOutOfRange (ackNr buf) = true))
    {w : ExtWalk} (hwalk : (skipExtensions buf m.sock.extensions).2 = some w)
    (hconn : ((admitted m buf).processAck buf w.selack).sock.state.isConnected = true)
    (hstate : packetType buf ≠ stState)
    (hne : seqOffset (admitted m buf).sock (seqNr buf) ≠ 0)
    (hlt : seqOffset (admitted m buf).sock (seqNr buf) < reorderBufferMaxSize) :
    Buffered (admitted m buf).sock (seqNr buf) (seqOffset (admitted m buf).sock (seqNr buf))
      ∨ ((admitted m buf).sock.gotFin = true →
        SameOrder k (admitted m buf).sock.eofPkt (seqNr buf)) := by
  by_contra hbad
  obtain ⟨hfresh, hdiffers⟩ := not_or.mp hbad
  obtain ⟨hg, hdiffers⟩ := Classical.not_imp.mp hdiffers
  have hlate : late m.sock.state := hstart hg
  obtain ⟨hview, hsame⟩ := rxView_admitted buf hlate.2.1
  have hack : (admitted m buf).sock.ackNr = m.sock.ackNr := congrArg RxView.ackNr hview
  have hoff : seqOffset (admitted m buf).sock (seqNr buf) = seqOffset m.sock (seqNr buf) := by
    unfold seqOffset
    rw [hack]
  have hinbuf : (admitted m buf).sock.inbuf = m.sock.inbuf := congrArg RxView.inbuf hview
  have hopen : (admitted m buf).sock.state.isConnected = true :=
    connected_before (path_processAck (admitted m buf) buf _ w hwalk)
      (by rw [hsame]; exact hlate) hconn
  refine hgood ⟨hlen, ⟨hkind, hstate⟩, ?_, Option.isSome_iff_exists.mpr ⟨w, hwalk⟩, ?_, hg,
    ⟨?_, ?_⟩, fun hbuf => ?_, hdiffers⟩
  · cases hr : m.sock.ackOutOfRange (ackNr buf) with
    | false => rfl
    | true => exact absurd ⟨.inr hlate.2.2, hr⟩ hout
  · rw [← hsame]
    exact hopen
  · rw [← hoff]
    exact Nat.pos_of_ne_zero hne
  · rw [← hoff]
    exact hlt
  · refine hfresh ?_
    show Buffered (admitted m buf).sock _ (seqOffset (admitted m buf).sock _)
    unfold Buffered
    rw [hoff, hinbuf]
    exact hbuf

/-- What is too short for a header is ignored in any case. -/
theorem processIncoming_short {buf : Bytes} (hlen : buf.length < headerSize) :
    (m.processIncoming buf false).1 = m.readClock := by
  unfold processIncoming
  dsimp only
  split
  · rfl
  · split
    · rfl
    · rfl

/-- **ONE PACKET KEEPS THE MIRROR**, unless it straddles. -/
theorem mirror_processIncoming (h : Mirror k base m m') {buf : Bytes}
    (hstart : FinLate m.sock) (hgood : ¬ Straddles k m buf) :
    Mirror k base (m.processIncoming buf false).1
      (m'.processIncoming (shiftSeq k buf) false).1 := by
  have hclock := mirror_readClock h
  by_cases hlen : headerSize ≤ buf.length
  · have hh := hdr_shiftSeq (k := k) hlen
    have hty : packetType (shiftSeq k buf) = packetType buf := congrArg Hdr.packetType hh
    have hseq : seqNr (shiftSeq k buf) = seqNr buf + k := congrArg Hdr.seqNr hh
    have hack : ackNr (shiftSeq k buf) = ackNr buf := congrArg Hdr.ackNr hh
    have hrange : ((packetType buf ≠ stSyn ∨ m'.readClock.sock.state ≠ .synRecv)
        ∧ m'.readClock.sock.ackOutOfRange (ackNr buf) = true)
        ↔ ((packetType buf ≠ stSyn ∨ m.readClock.sock.state ≠ .synRecv)
          ∧ m.readClock.sock.ackOutOfRange (ackNr buf) = true) := by
      obtain ⟨x, rfl, hx⟩ := h
      exact Iff.rfl
    have hexts : m'.readClock.sock.extensions = m.readClock.sock.extensions := by
      obtain ⟨x, rfl, hx⟩ := h
      rfl
    unfold processIncoming
    dsimp only
    rw [hty, hack, length_shiftSeq, hexts, skipExtensions_shiftSeq hlen, hseq]
    by_cases hkind : packetType buf ≥ stNumStates
    · rw [if_pos hkind, if_pos hkind]
      exact hclock
    · rw [if_neg hkind, if_neg hkind]
      by_cases hout : (packetType buf ≠ stSyn ∨ m.readClock.sock.state ≠ .synRecv)
          ∧ m.readClock.sock.ackOutOfRange (ackNr buf) = true
      · rw [if_pos hout, if_pos (hrange.mpr hout)]
        exact hclock
      · rw [if_neg hout, if_neg (fun h => hout (hrange.mp h))]
        split
        · exact hclock
        · have hset := mirror_setExtensions hclock
            (skipExtensions buf m.readClock.sock.extensions).1
          cases hwalk : (skipExtensions buf m.readClock.sock.extensions).2 with
          | none => exact hset
          | some w =>
              have hrec := mirror_noteReceipt hset (seqNr buf)
              dsimp only
              rw [if_neg Bool.false_ne_true, if_neg Bool.false_ne_true]
              refine mirror_processChecked hrec hlen hwalk (fun hconn hstate hne hlt => ?_)
              exact agrees_of_not_straddles hstart hgood hlen (UInt8.not_le.mp hkind) hout hwalk
                hconn hstate hne hlt
  · have hshort := Nat.not_le.mp hlen
    rw [processIncoming_short hshort, processIncoming_short (by rw [length_shiftSeq]; exact hshort)]
    exact hclock

/-! ## Runs of the receive path -/

/-- What happens to the receiving socket: a datagram for it, the issue of its
    deferred ack, another reading of the clock. -/
inductive Event where
  | packet (buf : Bytes)
  | issueAck
  | elapse (clock : Clock)

/-- The event with the peer's sequence numbers `k` further. -/
def Event.shift (k : UInt16) : Event → Event
  | .packet buf => .packet (shiftSeq k buf)
  | e => e

/-- One event. A deferred ack is issued as `issue_deferred_acks` does it for a
    socket in the ack list. -/
def Event.apply (m : Detached) : Event → Detached
  | .packet buf => (m.processIncoming buf false).1
  | .issueAck =>
      if m.sock.inAckList then
        ({ m with sock := { m.sock with inAckList := false } }).sendAck false
      else m
  | .elapse clock => { m with ctx := { m.ctx with clock := clock } }

/-- The events one after another. -/
def receiveRun (m : Detached) (events : List Event) : Detached := events.foldl Event.apply m

/-- No packet of the run straddles. -/
def NoneStraddles (k : UInt16) : Detached → List Event → Prop
  | _, [] => True
  | m, .packet buf :: rest =>
      ¬ Straddles k m buf ∧ NoneStraddles k (Event.apply m (.packet buf)) rest
  | m, e :: rest => NoneStraddles k (Event.apply m e) rest

/-- The second state: the numbers of the receive side are `k` further, and the
    buffer is re-indexed accordingly. -/
def shifted (k : UInt16) (m : Detached) (inbuf : CircularBuffer Bytes) : Detached :=
  { m with
    sock :=
      { m.sock with
        ackNr := m.sock.ackNr + k
        eofPkt := m.sock.eofPkt + k
        inbuf := inbuf } }

/-- The ring `b'` holds what `b` holds, at indices `k` further. -/
def Reindexed (k : UInt16) (b b' : CircularBuffer Bytes) : Prop :=
  b'.size = b.size ∧ ∀ n, b'.get (n + k.toNat) = b.get n

/-- What the two runs have in common: the callbacks (so the same bytes in the
    same `on_read` calls and the end reported at the same time), the buffered
    packets and their count, and the datagrams sent since the start, whose ack
    numbers are `k` apart. -/
structure Equivariant (k : UInt16) (base : List Sent) (m m' : Detached) : Prop where
  calls : ∀ u, (m'.ctx.users u).calls = (m.ctx.users u).calls
  ackNr : m'.sock.ackNr = m.sock.ackNr + k
  reorderCount : m'.sock.reorderCount = m.sock.reorderCount
  buffered : Reindexed k m.sock.inbuf m'.sock.inbuf
  sent : ∃ l l', m.ctx.wire = base ++ l ∧ m'.ctx.wire = base ++ l'
    ∧ List.Forall₂ (SentShift k) l l'

/-- Mirror images look the same from outside, but for the shift. -/
theorem Mirror.equivariant (h : Mirror k base m m') : Equivariant k base m m' := by
  have hack := h.ackNr
  have hcount := h.flags.2.2.1
  have hin := h.inbuf
  obtain ⟨x, rfl, hx⟩ := h
  exact ⟨fun _ => rfl, hack, hcount, ⟨hin.size, hin.get⟩, hx.wire⟩

/-- An event leaves a FIN to sockets past their handshake. -/
theorem finLate_apply (e : Event) (hinv : FinLate m.sock) :
    FinLate (Event.apply m e).sock := by
  have hact : ∀ {occ : Occasion} {l : Bytes} {m₁ m₂ : Detached}, ActPath occ l m₁ m₂ →
      FinLate m₁.sock → FinLate m₂.sock := fun hpath h =>
    Steps.invariant (P := fun m : Detached => FinLate m.sock)
      (fun _ _ _ ha => finLate_act ha) hpath h
  cases e with
  | packet buf =>
      have hpath : ActPath ⟨some buf, false, false⟩ [] m (m.processIncoming buf false).1 :=
        path_processIncoming m buf false rfl
      exact hact hpath hinv
  | issueAck =>
      have hpath : ActPath ⟨none, true, false⟩ [] m
          (({ m with sock := { m.sock with inAckList := false } } : Detached).sendAck false) :=
        (Steps.single (Act.unlist m rfl)).silent (Steps.single (.ack _ false (.due rfl)))
      show FinLate (if m.sock.inAckList then _ else m).sock
      split
      · exact hact hpath hinv
      · exact hinv
  | elapse clock => exact hinv

/-- **A WHOLE RUN KEEPS THE MIRROR**, if no packet of it straddles. -/
theorem mirror_run (events : List Event) :
    ∀ m m' : Detached, Mirror k base m m' → FinLate m.sock →
      NoneStraddles k m events →
      Mirror k base (receiveRun m events) (receiveRun m' (events.map (Event.shift k))) := by
  induction events with
  | nil => intro m m' h _ _; exact h
  | cons e rest ih =>
      intro m m' h hinv hgood
      have hinv' := finLate_apply e hinv
      cases e with
      | packet buf =>
          obtain ⟨hno, hrest⟩ := hgood
          exact ih _ _ (mirror_processIncoming h hinv hno) hinv' hrest
      | issueAck =>
          refine ih _ _ ?_ hinv' hgood
          have hlist : m'.sock.inAckList = m.sock.inAckList := by
            obtain ⟨x, rfl, hx⟩ := h
            rfl
          show Mirror k base (if m.sock.inAckList then _ else m) (if m'.sock.inAckList then _ else m')
          rw [hlist]
          split
          · exact mirror_sendAck (h.silent
              (fun m => { m with sock := { m.sock with inAckList := false } }) (fun _ => rfl) rfl)
              false
          · exact h
      | elapse clock =>
          refine ih _ _ ?_ hinv' hgood
          exact h.silent (fun m => { m with ctx := { m.ctx with clock := clock } })
            (fun _ => rfl) rfl

/-! ## From reachable sockets -/

/-- The reorder buffer of a reachable socket is small, also after a FIN. -/
theorem reachable_small {ctx : Context} (h : Reachable ctx) :
    EverySock (fun s => s.inbuf.size ≤ 2048) ctx := by
  have hdrain : ∀ l a b, DrainAct l a b → b.sock.inbuf.size = a.sock.inbuf.size := by
    -- draining empties slots, it does not grow the ring
    intro l a b hab
    cases hab with
    | drain => rw [drainNext_sock, CircularBuffer.size_put]
    | reach => rfl
    | ackFin =>
        exact congrArg (fun v : RxView => v.inbuf.size) (rxView_sendAck a false)
    | dropStragglers => rfl
  have hact : ∀ occ l (m m' : Detached), Act occ l m m' → m.sock.inbuf.size ≤ 2048 →
      m'.sock.inbuf.size ≤ 2048 := by
    intro occ l m m' ha hsmall
    cases ha with
    | tx htx =>
        rw [show m'.sock.inbuf = m.sock.inbuf from congrArg RxView.inbuf htx.rxView_eq]
        exact hsmall
    | inOrder _ _ _ data _ _ _ hpath =>
        have hsize := DrainPath.lift
          (S := fun a b : Detached => b.sock.inbuf.size = a.sock.inbuf.size) (fun _ => rfl)
          (fun _ _ _ hab hbc => hbc.trans hab) hdrain (by rw [acceptNext_sock]) hpath
        rw [hsize]
        exact hsmall
    | growIn _ buf data _ _ _ hoff =>
        -- a number is less than 1024 ahead, so doubling stops at 2048
        refine m.sock.inbuf.size_ensureSize_le _ _ 2048 hsmall ?_
        unfold reorderBufferMaxSize at hoff
        omega
    | ack =>
        rw [show (m.sendAck _).sock.inbuf = m.sock.inbuf from
          congrArg RxView.inbuf (rxView_sendAck m _)]
        exact hsmall
    | keepAlive =>
        rw [show m.sendKeepAlive.sock.inbuf = m.sock.inbuf from
          congrArg RxView.inbuf (rxView_sendKeepAlive m)]
        exact hsmall
    | schedule =>
        rw [show m.scheduleAck.sock.inbuf = m.sock.inbuf from
          congrArg RxView.inbuf (scheduleAck_same m).1]
        exact hsmall
    | _ => exact hsmall
  have hnew : (CircularBuffer.new : CircularBuffer Bytes).size ≤ 2048 := by decide
  exact Reachable.everySock hact (fun _ _ _ _ => hnew) (fun _ _ _ => hnew) h

/-- A queue of full packets is the same as itself. -/
theorem sameRing_refl {s : UtpSock} (h : ∀ n p, s.outbuf.get n = some p →
    headerSize ≤ p.data.length) : SameRing s.outbuf s.outbuf := by
  refine ⟨rfl, fun n => ?_⟩
  cases hn : s.outbuf.get n with
  | none => exact .none
  | some p => exact .some ⟨rfl, rfl, rfl, rfl, .refl (h n p hn)⟩

/-- **RECEIVING DOES NOT DEPEND ON WHERE THE NUMBERS WRAP**, in every run in
    which no out-of-order packet after a FIN straddles the end of the number
    space with it. -/
theorem receive_shift_equivariant {ctx : Context} (h : Reachable ctx) {key : Key} {s : UtpSock}
    (hs : ctx.sockets.lookup key = some s) (k : UInt16) {inbuf : CircularBuffer Bytes}
    (hin : Reindexed k s.inbuf inbuf) {events : List Event}
    (hgood : NoneStraddles k (ctx.detach key s) events) :
    Equivariant k ctx.wire (receiveRun (ctx.detach key s) events)
      (receiveRun (shifted k (ctx.detach key s) inbuf) (events.map (Event.shift k))) := by
  obtain ⟨lo, f, hq⟩ := UtpSendQueue.reachable_queue h key s hs
  have hfull : ∀ n p, s.outbuf.get n = some p → headerSize ≤ p.data.length := by
    intro n p hp
    obtain ⟨i, -, -, -, hi⟩ := hq.ring.slot hp
    rw [(hq.good i p hi).1.length]
    exact Nat.le_add_right _ _
  have hstart : Mirror k ctx.wire (ctx.detach key s) (shifted k (ctx.detach key s) inbuf) := by
    refine ⟨⟨s.ackNr + k, s.eofPkt + k, inbuf, s.outbuf, ctx.wire⟩, rfl, rfl, rfl,
      ⟨reachable_small h key s hs, hin.1, hin.2⟩, sameRing_refl hfull, [], [], ?_, ?_, .nil⟩
    · exact (List.append_nil _).symm
    · exact (List.append_nil _).symm
  exact Mirror.equivariant
    (mirror_run events _ _ hstart (reachable_finLate h key s hs) hgood)

/-- An empty ring is its own re-indexing. -/
theorem reindexed_empty (k : UInt16) {b : CircularBuffer Bytes} (hsize : b.size = 16)
    (hempty : ((List.range 16).all fun i => (b.get i).isNone) = true) : Reindexed k b b := by
  have hnone : ∀ n, b.get n = none := by
    intro n
    rw [← b.get_mod n, hsize]
    have hin : n % 16 ∈ List.range 16 := List.mem_range.mpr (Nat.mod_lt _ (by decide))
    exact Option.isNone_iff_eq_none.mp (List.all_eq_true.mp hempty _ hin)
  refine ⟨rfl, fun n => ?_⟩
  rw [hnone, hnone]

/-- A FIN with number 5 arrives at the accepted connection, which waits for
    number 3, and then the packet before it. -/
def finThenData : List Event :=
  [.packet (datagram stFin 1001 5 52654 []), .packet (datagram stData 1001 4 52654 [9])]

/-- A shift by 1 changes nothing. -/
theorem receive_shift_equivariant_one :
    ∃ ctx s, Reachable ctx ∧ ctx.sockets.lookup acceptedKey = some s
      ∧ Equivariant 1 ctx.wire (receiveRun (ctx.detach acceptedKey s) finThenData)
        (receiveRun (shifted 1 (ctx.detach acceptedKey s) s.inbuf)
          (finThenData.map (Event.shift 1))) := by
  obtain ⟨ctx, s, hreach, hs, hfin, heof, hsize, hempty⟩ :=
    detachedAfter_of 0 acceptOps acceptedKey
      (Q := fun m => m.sock.gotFin = false
        ∧ (Event.apply m (.packet (datagram stFin 1001 5 52654 []))).sock.eofPkt = 5
        ∧ m.sock.inbuf.size = 16 ∧ ((List.range 16).all fun i => (m.sock.inbuf.get i).isNone) = true)
      (by decide +kernel)
  have hgood : NoneStraddles 1 (ctx.detach acceptedKey s) finThenData := by
    refine ⟨fun hbad => ?_, fun hbad => ?_, trivial⟩
    · exact absurd (hfin.symm.trans hbad.fin) Bool.false_ne_true
    · have horder := hbad.order
      rw [heof] at horder
      exact horder (by unfold SameOrder; decide)
  exact ⟨ctx, s, hreach, hs, receive_shift_equivariant hreach hs 1
    (reindexed_empty 1 hsize hempty) hgood⟩

/-- Five numbers less, and the packet before the FIN compares as one after it:
    the first run buffers two packets, the second one drops the data. -/
theorem receive_shift_straddles :
    ¬ ∀ (ctx : Context) (key : Key) (s : UtpSock) (k : UInt16) (inbuf : CircularBuffer Bytes)
      (events : List Event), Reachable ctx → ctx.sockets.lookup key = some s →
      Reindexed k s.inbuf inbuf →
      Equivariant k ctx.wire (receiveRun (ctx.detach key s) events)
        (receiveRun (shifted k (ctx.detach key s) inbuf) (events.map (Event.shift k))) := by
  intro hall
  obtain ⟨ctx, s, hreach, hs, hfirst, hsecond, hsize, hempty⟩ :=
    detachedAfter_of 0 acceptOps acceptedKey
      (Q := fun m => (receiveRun m finThenData).sock.reorderCount = 2
        ∧ (receiveRun (shifted 65531 m m.sock.inbuf)
          (finThenData.map (Event.shift 65531))).sock.reorderCount = 1
        ∧ m.sock.inbuf.size = 16 ∧ ((List.range 16).all fun i => (m.sock.inbuf.get i).isNone) = true)
      (by decide +kernel)
  have hcount := (hall ctx acceptedKey s 65531 s.inbuf finThenData hreach hs
    (reindexed_empty _ hsize hempty)).reorderCount
  rw [hfirst] at hcount
  exact absurd (hsecond.symm.trans hcount) (by decide)

end UtpShift
