import RustUtp.Datagrams
import RustUtp.RingWindow
import RustUtp.Engine.Incoming

/-! # Mirror images — two sockets whose receive sides are a shift apart

    A socket and its mirror image agree in everything but the numbers of the
    receive side, which are `k` apart, and what follows from these: the slots of
    the reorder buffer are rotated, and the ack number in every header is `k`
    apart.  The sending half of the engine never looks at any of this, so each
    of its functions takes mirror images to mirror images. -/

namespace UtpMirror

open UtpCircular UtpPacket UtpUtil UtpConnShared UtpDelayHist UtpEngine UtpEngine.Detached

/-! ## Datagrams that differ in their ack number -/

/-- The same bytes outside of the ack number. -/
structure SameButAck (b b' : Bytes) : Prop where
  full : headerSize ≤ b.length
  length : b'.length = b.length
  bytes : ∀ i, i ≠ 18 → i ≠ 19 → byteAt b' i = byteAt b i

/-- The ack numbers are `k` apart, everything else is the same. -/
structure AckShift (k : UInt16) (b b' : Bytes) : Prop extends SameButAck b b' where
  ack : ackNr b' = ackNr b + k

namespace SameButAck

variable {b b' : Bytes}

theorem refl (h : headerSize ≤ b.length) : SameButAck b b := ⟨h, rfl, fun _ _ _ => rfl⟩

/-- Writing the same byte into both headers keeps them the same. -/
theorem set (h : SameButAck b b') {i : Nat} (hi : i < headerSize) (v : UInt8) :
    SameButAck (b.set i v) (b'.set i v) := by
  have hlen := h.full
  refine ⟨by rw [List.length_set]; exact h.full, ?_, fun j hj hj' => ?_⟩
  · rw [List.length_set, List.length_set, h.length]
  · rw [byteAt_set _ _ _ _ (by have := h.length; omega), byteAt_set _ _ _ _ (by omega)]
    split
    · rfl
    · exact h.bytes j hj hj'

/-- Writing the same 16-bit field keeps them the same. -/
theorem setU16 (h : SameButAck b b') {i : Nat} (hi : i + 1 < headerSize) (v : UInt16) :
    SameButAck (setU16 b i v) (setU16 b' i v) :=
  (h.set (by omega) _).set hi _

/-- Writing the same 32-bit field keeps them the same. -/
theorem setU32 (h : SameButAck b b') {i : Nat} (hi : i + 3 < headerSize) (v : UInt32) :
    SameButAck (setU32 b i v) (setU32 b' i v) :=
  (((h.set (by omega) _).set (by omega) _).set (by omega) _).set hi _

/-- Appending the same bytes keeps them the same. -/
theorem append (h : SameButAck b b') (c : Bytes) : SameButAck (b ++ c) (b' ++ c) := by
  have hlen := h.full
  refine ⟨by rw [List.length_append]; omega, ?_, fun i hi hi' => ?_⟩
  · rw [List.length_append, List.length_append, h.length]
  · unfold byteAt
    rcases Nat.lt_or_ge i b.length with hlt | hge
    · rw [List.getD_append _ _ _ _ (by rw [h.length]; exact hlt), List.getD_append _ _ _ _ hlt]
      exact h.bytes i hi hi'
    · rw [List.getD_append_right _ _ _ _ (by rw [h.length]; exact hge),
        List.getD_append_right _ _ _ _ hge, h.length]

/-- Writing ack numbers `k` apart. -/
theorem setAckNr (h : SameButAck b b') (a k : UInt16) :
    AckShift k (setAckNr b a) (setAckNr b' (a + k)) := by
  have hlen := h.full
  have hlen' : 18 + 1 < b.length := hlen
  have hlen'' : 18 + 1 < b'.length := by rw [h.length]; exact hlen
  refine ⟨⟨by rw [length_setAckNr]; exact hlen, ?_, fun i hi hi' => ?_⟩, ?_⟩
  · rw [length_setAckNr, length_setAckNr, h.length]
  · unfold UtpPacket.setAckNr
    rw [byteAt_setU16 _ _ _ _ hlen'', byteAt_setU16 _ _ _ _ hlen', if_neg (by omega),
      if_neg (by omega), if_neg (by omega), if_neg (by omega)]
    exact h.bytes i hi hi'
  · unfold UtpPacket.setAckNr ackNr
    rw [u16At_setU16 _ _ _ hlen', u16At_setU16 _ _ _ hlen'']

end SameButAck

namespace AckShift

variable {k : UInt16} {b b' : Bytes}

/-- Writing another field. -/
theorem of_hdr (h : AckShift k b b') {c c' : Bytes} (hs : SameButAck c c')
    (hc : ackNr c = ackNr b) (hc' : ackNr c' = ackNr b') : AckShift k c c' :=
  ⟨hs, by rw [hc, hc', h.ack]⟩

/-- The fields that are no sequence numbers of the peer are written alike. -/
theorem setTvUsec (h : AckShift k b b') (v : UInt32) :
    AckShift k (setTvUsec b v) (setTvUsec b' v) :=
  h.of_hdr (h.setU32 (by decide) v) (congrArg Hdr.ackNr (hdr_setTvUsec h.full v))
    (congrArg Hdr.ackNr (hdr_setTvUsec (by rw [h.length]; exact h.full) v))

theorem setReplyMicro (h : AckShift k b b') (v : UInt32) :
    AckShift k (setReplyMicro b v) (setReplyMicro b' v) :=
  h.of_hdr (h.setU32 (by decide) v) (congrArg Hdr.ackNr (hdr_setReplyMicro h.full v))
    (congrArg Hdr.ackNr (hdr_setReplyMicro (by rw [h.length]; exact h.full) v))

theorem setSeqNr (h : AckShift k b b') (v : UInt16) :
    AckShift k (setSeqNr b v) (setSeqNr b' v) :=
  h.of_hdr (h.setU16 (by decide) v) (congrArg Hdr.ackNr (hdr_setSeqNr h.full v))
    (congrArg Hdr.ackNr (hdr_setSeqNr (by rw [h.length]; exact h.full) v))

theorem setWindowSize (h : AckShift k b b') (v : UInt32) :
    AckShift k (setWindowSize b v) (setWindowSize b' v) :=
  h.of_hdr (h.setU32 (by decide) v) (congrArg Hdr.ackNr (hdr_setWindowSize h.full v))
    (congrArg Hdr.ackNr (hdr_setWindowSize (by rw [h.length]; exact h.full) v))

theorem setExt (h : AckShift k b b') (v : UInt8) : AckShift k (setExt b v) (setExt b' v) :=
  h.of_hdr (h.set (by decide) v) (congrArg Hdr.ackNr (hdr_setExt h.full v))
    (congrArg Hdr.ackNr (hdr_setExt (by rw [h.length]; exact h.full) v))

/-- Appending the same bytes keeps them the same. -/
theorem append (h : AckShift k b b') (c : Bytes) : AckShift k (b ++ c) (b' ++ c) :=
  h.of_hdr (h.toSameButAck.append c) (congrArg Hdr.ackNr (hdr_append h.full c))
    (congrArg Hdr.ackNr (hdr_append (by rw [h.length]; exact h.full) c))

end AckShift

/-! ## Rotated and veiled rings -/

/-- The same ring, rotated by `k`. -/
structure Rotated (k : UInt16) (b b' : CircularBuffer Bytes) : Prop where
  small : b.size ≤ 2048
  size : b'.size = b.size
  get : ∀ n, b'.get (n + k.toNat) = b.get n

/-- Packets that differ in the ack numbers of their headers. -/
structure SamePacket (p p' : OutgoingPacket) : Prop where
  payload : p'.payload = p.payload
  timeSent : p'.timeSent = p.timeSent
  transmissions : p'.transmissions = p.transmissions
  needResend : p'.needResend = p.needResend
  data : SameButAck p.data p'.data

/-- Slots with such packets. -/
inductive SameSlot : Option OutgoingPacket → Option OutgoingPacket → Prop where
  | none : SameSlot none none
  | some {p p' : OutgoingPacket} (h : SamePacket p p') : SameSlot (some p) (some p')

/-- Rings of such packets. -/
structure SameRing (b b' : CircularBuffer OutgoingPacket) : Prop where
  size : b'.size = b.size
  get : ∀ n, SameSlot (b.get n) (b'.get n)

/-- Storing packets that differ in their ack number under the same number. -/
theorem SameRing.put {b b' : CircularBuffer OutgoingPacket} (h : SameRing b b') (i : Nat)
    {v v' : Option OutgoingPacket} (hv : SameSlot v v') :
    SameRing (b.put i v) (b'.put i v') :=
  ⟨h.size, CircularBuffer.put_rel h.size h.get i hv⟩

/-- Growing both rings of the send queue. -/
theorem SameRing.ensureSize {b b' : CircularBuffer OutgoingPacket} (h : SameRing b b')
    (item index : Nat) : SameRing (b.ensureSize item index) (b'.ensureSize item index) := by
  obtain ⟨hsize, hget⟩ := CircularBuffer.ensureSize_rel h.size h.get .none item index
  exact ⟨hsize, hget⟩

namespace Rotated

variable {k : UInt16} {b b' : CircularBuffer Bytes}

/-- The size is a power of two below 2^16, so indices may be taken modulo the
    number space. -/
theorem dvd (h : Rotated k b b') : b.size ∣ 65536 := by
  have := b.size_dvd (K := 16) (h.small.trans (by decide))
  exact this

/-- Two indices into the two rings that are `k` apart up to a turn. -/
theorem get_of_mod (h : Rotated k b b') {i i' : Nat}
    (hi : i' % 65536 = (i + k.toNat) % 65536) : b'.get i' = b.get i := by
  rw [← h.get i]
  refine b'.get_congr ?_
  rw [h.size]
  exact (Nat.ModEq.of_dvd h.dvd (show i' ≡ i + k.toNat [MOD 65536] from hi))

/-- Storing under a number that is `k` further keeps the rotation. -/
theorem put (h : Rotated k b b') {i i' : Nat} (hi : i' % 65536 = (i + k.toNat) % 65536)
    (v : Option Bytes) : Rotated k (b.put i v) (b'.put i' v) := by
  have hmod : i' % b.size = (i + k.toNat) % b.size :=
    Nat.ModEq.of_dvd h.dvd (show i' ≡ i + k.toNat [MOD 65536] from hi)
  refine ⟨h.small, h.size, fun n => ?_⟩
  rw [CircularBuffer.get_put, CircularBuffer.get_put, h.size, hmod, h.get n]
  by_cases hn : i % b.size = n % b.size
  · have hn' : (i + k.toNat) % b.size = (n + k.toNat) % b.size := Nat.ModEq.add_right k.toNat hn
    rw [if_pos hn, if_pos hn']
  · have hn' : ¬ (i + k.toNat) % b.size = (n + k.toNat) % b.size :=
      fun heq => hn (Nat.ModEq.add_right_cancel' k.toNat heq)
    rw [if_neg hn, if_neg hn']

/-- Growing for a number that is `k` further keeps the rotation: both rings
    reach the same size. -/
theorem ensureSize (h : Rotated k b b') {item item' index : Nat} (hidx : index ≤ 1024)
    (hitem : item' % 65536 = (item + k.toNat) % 65536) :
    Rotated k (b.ensureSize item index) (b'.ensureSize item' index) := by
  have hsmall : (b.ensureSize item index).size ≤ 2048 :=
    b.size_ensureSize_le item index 2048 h.small (by omega)
  have hsize : (b'.ensureSize item' index).size = (b.ensureSize item index).size := by
    have hmask : b'.mask = b.mask := Nat.succ.inj h.size
    unfold CircularBuffer.ensureSize
    rw [hmask]
    split
    · rw [CircularBuffer.size_grow, CircularBuffer.size_grow, hmask]
    · exact h.size
  have hdvd : (b.ensureSize item index).size ∣ 65536 := by
    have := (b.ensureSize item index).size_dvd (K := 16) (hsmall.trans (by decide))
    exact this
  refine ⟨hsmall, hsize, fun n => ?_⟩
  -- read both rings from the start of their windows
  have hlo : (item + 65536 - index + index) % (b.ensureSize item index).size
      = item % (b.ensureSize item index).size := by
    have h65 : (item + 65536 - index + index) % 65536 = item % 65536 := by omega
    exact Nat.ModEq.of_dvd hdvd h65
  have hlo' : (item + 65536 - index + k.toNat + index) % (b'.ensureSize item' index).size
      = item' % (b'.ensureSize item' index).size := by
    rw [hsize]
    have h65 : (item + 65536 - index + k.toNat + index) % 65536 = item' % 65536 := by omega
    exact Nat.ModEq.of_dvd hdvd h65
  obtain ⟨i, hle, hlt, hmod⟩ :=
    Represents.exists_number (b := b.ensureSize item index) (item + 65536 - index) n
  obtain ⟨j, rfl⟩ := Nat.exists_eq_add_of_le hle
  have hleft := (b.ensureSize item index).get_congr hmod
  have hmod' : (n + k.toNat) % (b'.ensureSize item' index).size
      = (item + 65536 - index + k.toNat + j) % (b'.ensureSize item' index).size := by
    rw [hsize, show item + 65536 - index + k.toNat + j = item + 65536 - index + j + k.toNat by
      omega]
    exact Nat.ModEq.add_right k.toNat hmod
  rw [hleft, (b'.ensureSize item' index).get_congr hmod']
  rcases Nat.lt_or_ge j b.size with hj | hj
  · rw [b.get_ensureSize_live item index (by omega) hlo hj,
      b'.get_ensureSize_live item' index (by omega) hlo' (by rw [h.size]; exact hj),
      show item + 65536 - index + k.toNat + j = item + 65536 - index + j + k.toNat by omega,
      h.get]
  · rw [b.get_ensureSize_fresh item index (by omega) hlo hj (by omega),
      b'.get_ensureSize_fresh item' index (by omega) hlo' (by rw [h.size]; exact hj)
        (by rw [hsize]; omega)]

end Rotated

/-! ## Mirror images -/

/-- The part of a socket and its context that the shift touches. -/
structure Touched where
  ackNr : UInt16
  eofPkt : UInt16
  inbuf : CircularBuffer Bytes
  outbuf : CircularBuffer OutgoingPacket
  wire : List Sent

def touched (m : Detached) : Touched :=
  ⟨m.sock.ackNr, m.sock.eofPkt, m.sock.inbuf, m.sock.outbuf, m.ctx.wire⟩

/-- `m` with that part replaced. -/
def graft (m : Detached) (x : Touched) : Detached where
  ctx := { m.ctx with wire := x.wire }
  sock :=
    { m.sock with
      ackNr := x.ackNr
      eofPkt := x.eofPkt
      inbuf := x.inbuf
      outbuf := x.outbuf }

/-- The same datagram with an ack number `k` further. -/
structure SentShift (k : UInt16) (e e' : Sent) : Prop where
  src : e'.src = e.src
  dst : e'.dst = e.dst
  bytes : AckShift k e.bytes e'.bytes

/-- The parts are `k` apart, after a common history `base` of the wire. -/
structure Apart (k : UInt16) (base : List Sent) (x x' : Touched) : Prop where
  ackNr : x'.ackNr = x.ackNr + k
  eofPkt : x'.eofPkt = x.eofPkt + k
  inbuf : Rotated k x.inbuf x'.inbuf
  outbuf : SameRing x.outbuf x'.outbuf
  wire : ∃ l l', x.wire = base ++ l ∧ x'.wire = base ++ l' ∧ List.Forall₂ (SentShift k) l l'

/-- `m'` is the mirror image of `m`. -/
def Mirror (k : UInt16) (base : List Sent) (m m' : Detached) : Prop :=
  ∃ x, m' = graft m x ∧ Apart k base (touched m) x

variable {k : UInt16} {base : List Sent} {m m' : Detached}

/-- A function that neither reads nor writes the touched part. -/
theorem Mirror.silent (h : Mirror k base m m') (f : Detached → Detached)
    (hf : ∀ x, f (graft m x) = graft (f m) x) (hsame : touched (f m) = touched m) :
    Mirror k base (f m) (f m') := by
  obtain ⟨x, rfl, hx⟩ := h
  refine ⟨x, hf x, ?_⟩
  rw [hsame]
  exact hx

/-- The lengths of the wires agree. -/
theorem Apart.wire_length {x x' : Touched} (h : Apart k base x x') :
    x'.wire.length = x.wire.length := by
  obtain ⟨l, l', hl, hl', hrel⟩ := h.wire
  rw [hl, hl', List.length_append, List.length_append, hrel.length_eq]

/-- One more datagram on each wire. -/
theorem Apart.send {x x' : Touched} (h : Apart k base x x') {e e' : Sent}
    (he : SentShift k e e') :
    Apart k base { x with wire := x.wire ++ [e] } { x' with wire := x'.wire ++ [e'] } := by
  obtain ⟨l, l', hl, hl', hrel⟩ := h.wire
  refine ⟨h.ackNr, h.eofPkt, h.inbuf, h.outbuf, l ++ [e], l' ++ [e'], ?_, ?_, ?_⟩
  · show x.wire ++ [e] = _
    rw [hl, List.append_assoc]
  · show x'.wire ++ [e'] = _
    rw [hl', List.append_assoc]
  · exact List.rel_append hrel (List.Forall₂.cons he .nil)

/-! ## Sending -/

/-- The ack list holds keys, and these are the same. -/
theorem mirror_ackListRemove (h : Mirror k base m m') :
    Mirror k base m.ackListRemove m'.ackListRemove := by
  refine h.silent ackListRemove (fun x => ?_) ?_
  · unfold ackListRemove
    show (if m.sock.inAckList then _ else _) = _
    split <;> rfl
  · unfold ackListRemove
    split <;> rfl

/-- The cells of the application are the same, and stay so. -/
theorem mirror_notify (h : Mirror k base m m') (f : ConnCell → ConnCell) :
    Mirror k base (m.notify f) (m'.notify f) :=
  h.silent (·.notify f) (fun _ => rfl) rfl

/-- The noted assertions are the same. -/
theorem mirror_check (h : Mirror k base m m') (ok : Bool) :
    Mirror k base (m.check ok) (m'.check ok) :=
  h.silent (·.check ok) (fun _ => rfl) rfl

/-- An ack is due on one side if and only if it is on the other. -/
theorem mirror_scheduleAck (h : Mirror k base m m') :
    Mirror k base m.scheduleAck m'.scheduleAck := by
  refine h.silent scheduleAck (fun x => ?_) ?_
  · unfold scheduleAck
    show (if m.sock.inAckList then _ else _) = _
    split <;> rfl
  · unfold scheduleAck
    split <;> rfl

/-- The receive window is the same: it depends on the bytes that wait. -/
theorem mirror_updateRcvWin (h : Mirror k base m m') :
    Mirror k base m.updateRcvWin m'.updateRcvWin :=
  h.silent updateRcvWin (fun _ => rfl) rfl

/-- Sending datagrams that differ in their ack number. Their notes do not matter
    here. -/
theorem mirror_sendData (h : Mirror k base m m') {b b' : Bytes} (hb : AckShift k b b')
    (written written' : Nat) :
    Mirror k base (m.sendData written b) (m'.sendData written' b') := by
  obtain ⟨x, rfl, hx⟩ := h
  -- the header is stamped with the same times on both sides
  have hstamp : AckShift k (m.stampTimes b) ((graft m x).stampTimes b') :=
    (hb.setTvUsec _).setReplyMicro _
  have hsent : SentShift k
      ⟨some m.sock.user, m.sock.key.addr, m.stampTimes b, some (m.note written)⟩
      ⟨some m.sock.user, m.sock.key.addr, (graft m x).stampTimes b',
        some ((graft m x).note written')⟩ := ⟨rfl, rfl, hstamp⟩
  -- the datagrams differ by the shift alone
  have hpair := hx.send hsent
  have htransport : (graft m x).ctx.transport (graft m x).ctx.wire.length
      = m.ctx.transport m.ctx.wire.length := by
    show m.ctx.transport x.wire.length = _
    rw [hx.wire_length]
    rfl
  unfold sendData Context.sendToAddr
  dsimp only
  rw [htransport]
  refine mirror_ackListRemove ?_
  have hsent' : Mirror k base
      { ctx := { m.ctx with wire := m.ctx.wire
          ++ [⟨some m.sock.user, m.sock.key.addr, m.stampTimes b, some (m.note written)⟩] }
        sock := { m.sock with timers := { m.sock.timers with lastSentPacket := m.ctx.currentMs } } }
      { ctx := { (graft m x).ctx with wire := (graft m x).ctx.wire
          ++ [⟨some (graft m x).sock.user, (graft m x).sock.key.addr,
            (graft m x).stampTimes b', some ((graft m x).note written')⟩] }
        sock := { (graft m x).sock with
          timers := { (graft m x).sock.timers with
            lastSentPacket := (graft m x).ctx.currentMs } } } :=
    ⟨_, rfl, hpair⟩
  split
  · exact mirror_notify hsent' _
  · exact mirror_notify hsent' _
  · exact hsent'

/-- The selective-ack masks are the same. -/
theorem ackMask_eq {x : Touched} (hx : Apart k base (touched m) x) :
    (graft m x).sock.ackMask = m.sock.ackMask := by
  have hget : ∀ i, x.inbuf.get (x.ackNr.toNat + i + 2)
      = m.sock.inbuf.get (m.sock.ackNr.toNat + i + 2) := by
    intro i
    refine hx.inbuf.get_of_mod ?_
    have hack : x.ackNr = m.sock.ackNr + k := hx.ackNr
    rw [hack, UInt16.toNat_add]
    omega
  have hsize : x.inbuf.size = m.sock.inbuf.size := hx.inbuf.size
  show (List.range (min (14 + 16) x.inbuf.size)).foldl (fun acc i =>
    if (x.inbuf.get (x.ackNr.toNat + i + 2)).isSome then acc ||| (1 <<< i) else acc) 0 = _
  rw [hsize]
  simp only [hget]
  rfl

/-- The acks that the two sides send differ in their number only: the mask is
    relative to it. -/
theorem ackDatagram_shift {x : Touched} (hx : Apart k base (touched m) x) :
    AckShift k m.ackDatagram (graft m x).ackDatagram := by
  have hack : (graft m x).sock.ackNr = m.sock.ackNr + k := hx.ackNr
  have hplain : AckShift k
      (setWindowSize (setSeqNr (setAckNr (setConnId (setVersionType
        (List.replicate headerSize 0) 1 stState) m.sock.connIdSend.toUInt16) m.sock.ackNr)
        m.sock.seqNr) (UInt32.ofNat m.getRcvWindow))
      (setWindowSize (setSeqNr (setAckNr (setConnId (setVersionType
        (List.replicate headerSize 0) 1 stState) m.sock.connIdSend.toUInt16)
        (m.sock.ackNr + k)) m.sock.seqNr) (UInt32.ofNat m.getRcvWindow)) :=
    (((SameButAck.refl (by simp)).setAckNr _ k).setSeqNr _).setWindowSize _
  unfold ackDatagram
  rw [hack, ackMask_eq hx]
  dsimp only
  show AckShift k _ (if m.sock.reorderCount ≠ 0 ∧ m.sock.gotFinReached = false then _ else _)
  split
  · exact (hplain.setExt 1).append _
  · exact hplain

/-- **BOTH SIDES ACK ALIKE.** -/
theorem mirror_sendAck (h : Mirror k base m m') (synack : Bool) :
    Mirror k base (m.sendAck synack) (m'.sendAck synack) := by
  have hdatagram : AckShift k m.ackDatagram m'.ackDatagram := by
    obtain ⟨x, rfl, hx⟩ := h
    exact ackDatagram_shift hx
  exact mirror_ackListRemove (mirror_sendData (mirror_updateRcvWin h) hdatagram _ _)

/-- What the two queues hold at a slot. -/
theorem Mirror.slot (h : Mirror k base m m') (n : Nat) :
    SameSlot (m.sock.outbuf.get n) (m'.sock.outbuf.get n) := by
  obtain ⟨x, rfl, hx⟩ := h
  exact hx.outbuf.get n

/-- The second side expects a number `k` further. -/
theorem Mirror.ackNr (h : Mirror k base m m') : m'.sock.ackNr = m.sock.ackNr + k := by
  obtain ⟨x, rfl, hx⟩ := h
  exact hx.ackNr

/-- The flags and the counter of the receive side are the same. -/
theorem Mirror.flags (h : Mirror k base m m') :
    m'.sock.gotFin = m.sock.gotFin ∧ m'.sock.gotFinReached = m.sock.gotFinReached
      ∧ m'.sock.reorderCount = m.sock.reorderCount ∧ m'.sock.eofPkt = m.sock.eofPkt + k := by
  obtain ⟨x, rfl, hx⟩ := h
  exact ⟨rfl, rfl, rfl, hx.eofPkt⟩

/-- The second buffer is the first one, rotated by `k`. -/
theorem Mirror.inbuf (h : Mirror k base m m') : Rotated k m.sock.inbuf m'.sock.inbuf := by
  obtain ⟨x, rfl, hx⟩ := h
  exact hx.inbuf

/-- Packets of equal length count the same in the window. -/
theorem mirror_countSend (h : Mirror k base m m') {p p' : OutgoingPacket}
    (hp : SamePacket p p') : Mirror k base (m.countSend p) (m'.countSend p') := by
  have hsame : ∀ m : Detached, m.countSend p' = m.countSend p := by
    intro m
    unfold countSend mtuOnSend
    rw [hp.payload, hp.transmissions, hp.needResend, hp.data.length]
  rw [hsame m']
  exact h.silent (·.countSend p) (fun _ => rfl) rfl

/-- Storing in the send queue, whose numbers are not shifted. -/
theorem mirror_putOut (h : Mirror k base m m') (seq : UInt16) {v v' : Option OutgoingPacket}
    (hv : SameSlot v v') : Mirror k base (m.putOut seq v) (m'.putOut seq v') := by
  obtain ⟨x, rfl, hx⟩ := h
  exact ⟨{ x with outbuf := x.outbuf.put seq.toNat v' }, rfl,
    ⟨hx.ackNr, hx.eofPkt, hx.inbuf, hx.outbuf.put _ hv, hx.wire⟩⟩

/-- Transmitting a queued packet: its ack number is written anew on each side.
    -/
theorem mirror_sendPacketAt (h : Mirror k base m m') (seq : UInt16) :
    Mirror k base (m.sendPacketAt seq) (m'.sendPacketAt seq) := by
  have hslot := h.slot seq.toNat
  unfold sendPacketAt
  generalize m.sock.outbuf.get seq.toNat = v at hslot ⊢
  generalize m'.sock.outbuf.get seq.toNat = v' at hslot ⊢
  cases hslot with
  | none => exact h
  | @some p p' hp =>
      have hdata : AckShift k (setAckNr p.data m.sock.ackNr)
          (setAckNr p'.data m'.sock.ackNr) := by
        rw [h.ackNr]
        exact hp.data.setAckNr _ k
      refine mirror_putOut (mirror_sendData (mirror_countSend h hp) hdata _ _) seq (.some ?_)
      obtain ⟨x, rfl, hx⟩ := h
      exact ⟨hp.payload, rfl, congrArg (· + 1) hp.transmissions, rfl,
        ((hdata.setTvUsec _).setReplyMicro _).toSameButAck⟩

/-! ## The send window -/

/-- Both sides find the same room. -/
theorem mirror_isFull (h : Mirror k base m m') (bytes : Option Nat) :
    Mirror k base (m.isFull bytes).1 (m'.isFull bytes).1
      ∧ (m'.isFull bytes).2 = (m.isFull bytes).2 := by
  have hflag : m'.sock.fullFor bytes = m.sock.fullFor bytes := by
    obtain ⟨x, rfl, hx⟩ := h
    rfl
  unfold isFull
  rw [hflag]
  split
  · exact ⟨h.silent (fun m => { m with
      sock := { m.sock with cwnd := { m.sock.cwnd with lastMaxedOutWindow := m.ctx.currentMs } } })
      (fun _ => rfl) rfl, rfl⟩
  · exact ⟨h, rfl⟩

/-- The fields of a socket that the shift does not touch. -/
theorem Mirror.same (h : Mirror k base m m') :
    m'.sock.seqNr = m.sock.seqNr ∧ m'.sock.curWindowPackets = m.sock.curWindowPackets
      ∧ m'.sock.getPacketSize = m.sock.getPacketSize ∧ m'.sock.state = m.sock.state
      ∧ m'.sock.finSent = m.sock.finSent ∧ m'.sock.oldest = m.sock.oldest := by
  obtain ⟨x, rfl, hx⟩ := h
  exact ⟨rfl, rfl, rfl, rfl, rfl, rfl⟩

/-- The same packets wait to be sent. -/
theorem sendable_eq (h : Mirror k base m m') (i : UInt16) :
    sendable m'.sock i = sendable m.sock i := by
  have hslot := h.slot i.toNat
  unfold sendable
  generalize m.sock.outbuf.get i.toNat = v at hslot ⊢
  generalize m'.sock.outbuf.get i.toNat = v' at hslot ⊢
  cases hslot with
  | none => rfl
  | some hp =>
      dsimp only
      rw [hp.transmissions, hp.needResend, hp.payload]

/-- Flushing packet by packet. The induction is on the packets left. -/
theorem mirror_flushLoop (packetSize n : Nat) :
    ∀ (i : UInt16) (m m' : Detached), Mirror k base m m' →
      Mirror k base (flushLoop packetSize n i m).1 (flushLoop packetSize n i m').1 := by
  induction n with
  | zero => intro i m m' h; exact h
  | succ n ih =>
      intro i m m' h
      rw [flushLoop, flushLoop, sendable_eq h]
      cases sendable m.sock i with
      | none => exact ih _ _ _ h
      | some payload =>
          obtain ⟨hfull, hflag⟩ := mirror_isFull h none
          obtain ⟨hseq, hcwp, -⟩ := h.same
          dsimp only
          rw [hflag, hseq, hcwp]
          split
          · exact hfull
          · split
            · exact ih _ _ _ (mirror_sendPacketAt h i)
            · exact ih _ _ _ h

/-- Flushing the queue sends the same packets on both sides. -/
theorem mirror_flushPackets (h : Mirror k base m m') :
    Mirror k base m.flushPackets.1 m'.flushPackets.1 := by
  obtain ⟨hseq, hcwp, hsize, -⟩ := h.same
  unfold flushPackets
  rw [hseq, hcwp, hsize]
  exact mirror_flushLoop _ _ _ _ _ h

/-! ## Filling the send queue -/

/-- A header filled in on both sides differs in the ack number only. -/
theorem fillHeader_same (h : Mirror k base m m') (flags : UInt8) (seq : Option UInt16)
    {b b' : Bytes} (hb : SameButAck b b') :
    SameButAck (m.fillHeader flags seq b) (m'.fillHeader flags seq b') := by
  have hack := h.ackNr
  obtain ⟨x, rfl, hx⟩ := h
  have hplain := (((hb.set (i := 0) (by decide) ((flags <<< 4) ||| (1 &&& 0xf))).set (i := 1)
    (by decide) 0).setU16 (i := 2) (by decide) m.sock.connIdSend.toUInt16).setU32 (i := 12)
    (by decide) (UInt32.ofNat m.sock.lastRcvWin)
  have hacked := (hplain.setAckNr m.sock.ackNr k).toSameButAck
  unfold fillHeader
  rw [hack]
  cases seq with
  | none => exact hacked
  | some v => exact hacked.setU16 (i := 16) (by decide) v

/-- Both sides extend their last packet alike. -/
theorem mirror_extendLast (h : Mirror k base m m') {p p' : OutgoingPacket} (hp : SamePacket p p')
    (flags : UInt8) (added : Nat) (data : Bytes) :
    Mirror k base (m.extendLast p flags added data) (m'.extendLast p' flags added data) := by
  unfold extendLast
  rw [hp.needResend]
  have hcheck := mirror_check h (p.needResend = false && min added data.length = added)
  generalize m.check _ = m₁ at hcheck ⊢
  generalize m'.check _ = m₁' at hcheck ⊢
  dsimp only
  rw [hcheck.same.1]
  refine mirror_putOut hcheck _ (.some ⟨?_, hp.timeSent, hp.transmissions, hp.needResend, ?_⟩)
  · exact congrArg (· + added) hp.payload
  · exact fillHeader_same hcheck flags none (hp.data.append _)

/-- Both sides queue a new packet alike. -/
theorem mirror_pushPacket (h : Mirror k base m m') (flags : UInt8) (added : Nat) (data : Bytes) :
    Mirror k base (m.pushPacket flags added data) (m'.pushPacket flags added data) := by
  unfold pushPacket
  have hcheck := mirror_check h (min added data.length = added)
  generalize m.check _ = m₁ at hcheck ⊢
  generalize m'.check _ = m₁' at hcheck ⊢
  have hnew : SameSlot (some (m₁.newPacket flags added data))
      (some (m₁'.newPacket flags added data)) := by
    refine .some ⟨rfl, rfl, rfl, rfl, ?_⟩
    show SameButAck (m₁.fillHeader flags (some m₁.sock.seqNr) _)
      (m₁'.fillHeader flags (some m₁'.sock.seqNr) _)
    rw [hcheck.same.1]
    refine fillHeader_same hcheck flags _ (.refl ?_)
    rw [List.length_append, List.length_replicate]
    exact Nat.le_add_right _ _
  obtain ⟨x, rfl, hx⟩ := hcheck
  have hring := (hx.outbuf.ensureSize m₁.sock.seqNr.toNat m₁.sock.curWindowPackets).put
    m₁.sock.seqNr.toNat hnew
  exact ⟨Touched.mk x.ackNr x.eofPkt x.inbuf ((x.outbuf.ensureSize m₁.sock.seqNr.toNat
    m₁.sock.curWindowPackets).put m₁.sock.seqNr.toNat
    (some ((graft m₁ x).newPacket flags added data))) x.wire, rfl,
    hx.ackNr, hx.eofPkt, hx.inbuf, hring, hx.wire⟩

/-- Both sides cut the bytes of a write alike. -/
theorem mirror_writeLoop (packetSize : Nat) (flags : UInt8) (fuel : Nat) :
    ∀ (payload : Nat) (data : Bytes) (m m' : Detached), Mirror k base m m' →
      Mirror k base (writeLoop packetSize flags fuel payload data m).1
        (writeLoop packetSize flags fuel payload data m').1
      ∧ (writeLoop packetSize flags fuel payload data m').2
        = (writeLoop packetSize flags fuel payload data m).2 := by
  induction fuel with
  | zero => intro payload data m m' h; exact ⟨h, rfl⟩
  | succ fuel ih =>
      intro payload data m m' h
      have hcheck := mirror_updateRcvWin
        (mirror_check h (m.sock.curWindowPackets < outgoingBufferMaxSize))
      rw [writeLoop, writeLoop, h.same.2.1]
      generalize (m.check _).updateRcvWin = m₁ at hcheck ⊢
      generalize (m'.check _).updateRcvWin = m₁' at hcheck ⊢
      -- both loops look at the same numbers, so they branch alike
      obtain ⟨hseq, hcwp, -⟩ := hcheck.same
      have hslot := hcheck.slot (m₁.sock.seqNr - 1).toNat
      unfold extensible
      dsimp only
      rw [hseq, hcwp]
      by_cases hroom : payload > 0 ∧ m₁.sock.curWindowPackets > 0
      · -- the last packet may still grow
        rw [if_pos hroom, if_pos hroom]
        generalize m₁.sock.outbuf.get (m₁.sock.seqNr - 1).toNat = v at hslot ⊢
        generalize m₁'.sock.outbuf.get (m₁.sock.seqNr - 1).toNat = v' at hslot ⊢
        cases hslot with
        | none => exact ⟨mirror_pushPacket hcheck _ _ _, rfl⟩
        | @some p p' hp =>
            dsimp only
            rw [hp.transmissions, hp.payload]
            by_cases hext : p.transmissions = 0 ∧ p.payload < packetSize
            · -- it has room and was never sent
              rw [if_pos hext, if_pos hext]
              have hadd : roomFor p' packetSize payload = roomFor p packetSize payload := by
                unfold roomFor
                rw [hp.payload]
              dsimp only
              rw [hadd]
              have hlast := mirror_extendLast hcheck hp flags (roomFor p packetSize payload) data
              split
              · exact ⟨hlast, rfl⟩
              · exact ih _ _ _ _ hlast
            · rw [if_neg hext, if_neg hext]
              exact ⟨mirror_pushPacket hcheck _ _ _, rfl⟩
      · -- a new packet is needed
        rw [if_neg hroom, if_neg hroom]
        exact ⟨mirror_pushPacket hcheck _ _ _, rfl⟩

/-- The timers are the same. -/
theorem mirror_armTimer (h : Mirror k base m m') : Mirror k base m.armTimer m'.armTimer := by
  refine h.silent armTimer (fun x => ?_) ?_
  · unfold armTimer
    show (if m.sock.curWindowPackets = 0 then _ else _) = _
    split <;> rfl
  · unfold armTimer
    split <;> rfl

/-- The clock is the same. -/
theorem mirror_readClock (h : Mirror k base m m') : Mirror k base m.readClock m'.readClock :=
  h.silent readClock (fun _ => rfl) rfl

/-- Both sides queue and flush a write alike. -/
theorem mirror_writeOutgoingPacket (h : Mirror k base m m') (payload : Nat) (flags : UInt8)
    (data : Bytes) :
    Mirror k base (m.writeOutgoingPacket payload flags data).1
        (m'.writeOutgoingPacket payload flags data).1
      ∧ (m'.writeOutgoingPacket payload flags data).2
        = (m.writeOutgoingPacket payload flags data).2 := by
  have harm := mirror_armTimer h
  unfold writeOutgoingPacket
  dsimp only
  rw [harm.same.2.2.1]
  obtain ⟨hloop, hrest⟩ := mirror_writeLoop m.armTimer.sock.getPacketSize flags (payload + 1)
    payload data _ _ harm
  exact ⟨mirror_flushPackets hloop, hrest⟩

/-- Both sides take the same part of the bytes, packet size by packet size. -/
theorem mirror_writeEngineLoop (packetSize : Nat) (fuel : Nat) :
    ∀ (remaining : Bytes) (sent : Nat) (m m' : Detached), Mirror k base m m' →
      Mirror k base (writeEngineLoop packetSize fuel remaining sent m).1
        (writeEngineLoop packetSize fuel remaining sent m').1
      ∧ (writeEngineLoop packetSize fuel remaining sent m').2
        = (writeEngineLoop packetSize fuel remaining sent m).2 := by
  induction fuel with
  | zero => intro remaining sent m m' h; exact ⟨h, rfl⟩
  | succ fuel ih =>
      intro remaining sent m m' h
      obtain ⟨hfull, hflag⟩ := mirror_isFull h (some (min remaining.length packetSize))
      obtain ⟨hwrite, hrest⟩ := mirror_writeOutgoingPacket h (min remaining.length packetSize)
        stData remaining
      rw [writeEngineLoop, writeEngineLoop]
      dsimp only
      rw [hflag, hrest]
      split
      · exact ⟨hfull, rfl⟩
      · split
        · exact ⟨hwrite, rfl⟩
        · exact ih _ _ _ _ hwrite

/-- Both sides change to the same state. -/
theorem mirror_setState (h : Mirror k base m m') (st : ConnState) :
    Mirror k base { m with sock := { m.sock with state := st } }
      { m' with sock := { m'.sock with state := st } } :=
  h.silent (fun m => { m with sock := { m.sock with state := st } }) (fun _ => rfl) rfl

/-- **BOTH SIDES WRITE ALIKE.** -/
theorem mirror_writeEngine (h : Mirror k base m m') (buf : Bytes) :
    Mirror k base (m.writeEngine buf).1 (m'.writeEngine buf).1 := by
  obtain ⟨-, -, -, hst, hfin, -⟩ := h.same
  unfold writeEngine
  rw [hst, hfin]
  split
  · exact h
  · split
    · exact h
    · have hclock := mirror_readClock h
      obtain ⟨hloop, hrest⟩ := mirror_writeEngineLoop m.readClock.sock.getPacketSize
        (buf.length + 1) buf 0 _ _ hclock
      dsimp only
      rw [hclock.same.2.2.1, hrest]
      obtain ⟨hfull, hflag⟩ := mirror_isFull hloop none
      rw [hflag]
      split
      · exact hloop
      · split
        · exact mirror_setState hfull _
        · exact hfull

/-! ## Acknowledgements -/

/-- The same packet is acked, with the same result. -/
theorem mirror_ackPacket (h : Mirror k base m m') (seq : UInt16) :
    Mirror k base (m.ackPacket seq).1 (m'.ackPacket seq).1
      ∧ (m'.ackPacket seq).2 = (m.ackPacket seq).2 := by
  have hslot := h.slot seq.toNat
  unfold ackPacket
  generalize m.sock.outbuf.get seq.toNat = v at hslot ⊢
  generalize m'.sock.outbuf.get seq.toNat = v' at hslot ⊢
  cases hslot with
  | none => exact ⟨h, rfl⟩
  | @some p p' hp =>
      have hsent : p'.transmissions = p.transmissions := hp.transmissions
      have htimers : ∀ (t : Timers) (now ms : Nat), t.onAck p' now ms = t.onAck p now ms := by
        intro t now ms
        unfold Timers.onAck
        rw [hsent, hp.timeSent]
      dsimp only
      rw [hsent, hp.needResend, hp.payload]
      -- never sent, so the ack is refused on both sides
      by_cases hzero : p.transmissions = 0
      · rw [if_pos hzero, if_pos hzero]
        exact ⟨h, rfl⟩
      · rw [if_neg hzero, if_neg hzero, htimers]
        refine ⟨?_, rfl⟩
        obtain ⟨x, rfl, hx⟩ := h
        exact ⟨Touched.mk x.ackNr x.eofPkt x.inbuf (x.outbuf.put seq.toNat none) x.wire, rfl,
          hx.ackNr, hx.eofPkt, hx.inbuf, hx.outbuf.put _ .none, hx.wire⟩

/-- The window shrinks by one packet on both sides. -/
theorem mirror_dropOldest (h : Mirror k base m m') :
    Mirror k base
      { m with sock := { m.sock with curWindowPackets := m.sock.curWindowPackets - 1 } }
      { m' with sock := { m'.sock with curWindowPackets := m'.sock.curWindowPackets - 1 } } :=
  h.silent (fun m => { m with
    sock := { m.sock with curWindowPackets := m.sock.curWindowPackets - 1 } }) (fun _ => rfl) rfl

/-- The same packets are acked one after the other. -/
theorem mirror_ackLoop (n : Nat) :
    ∀ m m' : Detached, Mirror k base m m' → Mirror k base (ackLoop n m) (ackLoop n m') := by
  induction n with
  | zero => intro m m' h; exact h
  | succ n ih =>
      intro m m' h
      obtain ⟨hack, hres⟩ := mirror_ackPacket h m.sock.oldest
      rw [ackLoop, ackLoop, h.same.2.2.2.2.2]
      dsimp only
      rw [hres]
      split
      · exact hack
      · exact ih _ _ (mirror_dropOldest hack)

/-- A slot is empty on both sides or on none. -/
theorem SameSlot.isNone_eq {v v' : Option OutgoingPacket} (h : SameSlot v v') :
    v'.isNone = v.isNone := by
  cases h <;> rfl

theorem SameSlot.isSome_eq {v v' : Option OutgoingPacket} (h : SameSlot v v') :
    v'.isSome = v.isSome := by
  cases h <;> rfl

/-- The window shrinks over the same empty slots. -/
theorem mirror_shrinkLoop (n : Nat) :
    ∀ m m' : Detached, Mirror k base m m' → Mirror k base (shrinkLoop n m) (shrinkLoop n m') := by
  induction n with
  | zero => intro m m' h; exact h
  | succ n ih =>
      intro m m' h
      obtain ⟨-, hcwp, -, -, -, hold⟩ := h.same
      rw [shrinkLoop, shrinkLoop, hcwp, hold, (h.slot _).isNone_eq]
      split
      · have hdrop := mirror_dropOldest h
        rw [hcwp] at hdrop
        exact ih _ _ hdrop
      · exact h

/-- **BOTH SIDES TAKE A CUMULATIVE ACK ALIKE.** -/
theorem mirror_ackCumulative (h : Mirror k base m m') (acks : Nat) :
    Mirror k base (ackCumulative acks m) (ackCumulative acks m') := by
  have hloop := mirror_ackLoop acks m m' h
  unfold ackCumulative
  dsimp only
  rw [hloop.same.2.1]
  have hshrink := mirror_shrinkLoop (ackLoop acks m).sock.curWindowPackets _ _ hloop
  generalize shrinkLoop _ (ackLoop acks m) = m₁ at hshrink ⊢
  generalize shrinkLoop _ (ackLoop acks m') = m₁' at hshrink ⊢
  obtain ⟨-, hcwp, -, -, -, hold⟩ := hshrink.same
  rw [hcwp, hold, (hshrink.slot _).isSome_eq]
  exact mirror_check hshrink _

/-- The lone packet that was held back goes out on both sides. -/
theorem mirror_flushNagle (h : Mirror k base m m') :
    Mirror k base m.flushNagle m'.flushNagle := by
  obtain ⟨hseq, hcwp, -⟩ := h.same
  have hslot := h.slot (m.sock.seqNr - 1).toNat
  unfold flushNagle
  rw [hcwp, hseq]
  split
  · generalize m.sock.outbuf.get (m.sock.seqNr - 1).toNat = v at hslot ⊢
    generalize m'.sock.outbuf.get (m.sock.seqNr - 1).toNat = v' at hslot ⊢
    cases hslot with
    | none => exact h
    | some hp =>
        dsimp only
        rw [hp.transmissions]
        split
        · exact mirror_sendPacketAt h _
        · exact h
  · exact h

/-- The same packets have been sent. -/
theorem isSent_eq (h : Mirror k base m m') (v : UInt16) : isSent m'.sock v = isSent m.sock v := by
  have hslot := h.slot v.toNat
  unfold isSent
  generalize m.sock.outbuf.get v.toNat = p at hslot ⊢
  generalize m'.sock.outbuf.get v.toNat = p' at hslot ⊢
  cases hslot with
  | none => rfl
  | some hp =>
      dsimp only
      rw [hp.transmissions]

/-- The record of fast resends is the same. -/
theorem Mirror.resend (h : Mirror k base m m') : m'.sock.resend = m.sock.resend := by
  obtain ⟨x, rfl, hx⟩ := h
  rfl

/-- Both sides write the same record. -/
theorem mirror_setResend (h : Mirror k base m m') (r : Resend) :
    Mirror k base { m with sock := { m.sock with resend := r } }
      { m' with sock := { m'.sock with resend := r } } :=
  h.silent (fun m => { m with sock := { m.sock with resend := r } }) (fun _ => rfl) rfl

/-- The fast timeout resends the same packet. -/
theorem mirror_fastTimeoutRetry (h : Mirror k base m m') :
    Mirror k base m.fastTimeoutRetry m'.fastTimeoutRetry := by
  have hold := h.same.2.2.2.2.2
  unfold fastTimeoutRetry
  rw [h.resend, hold, isSent_eq h]
  split
  · split
    · exact mirror_setResend h _
    · split
      · have hset := mirror_setResend h
          { m.sock.resend with fastResendSeqNr := m.sock.resend.fastResendSeqNr + 1 }
        show Mirror k base (sendPacketAt _ m.sock.oldest) (sendPacketAt _ m'.sock.oldest)
        rw [hold]
        exact mirror_sendPacketAt hset _
      · exact h
  · exact h

/-! ### Measurements -/

/-- Counting the acked packets gives the same on both sides. -/
theorem countAcked_eq (h : Mirror k base m m') (now nowMs acks : Nat) :
    m'.sock.countAcked now nowMs acks = m.sock.countAcked now nowMs acks := by
  have hadd : ∀ (c : AckCount) (seq : UInt16),
      c.add now nowMs seq (m'.sock.outbuf.get seq.toNat)
        = c.add now nowMs seq (m.sock.outbuf.get seq.toNat) := by
    intro c seq
    have hslot := h.slot seq.toNat
    generalize m.sock.outbuf.get seq.toNat = v at hslot ⊢
    generalize m'.sock.outbuf.get seq.toNat = v' at hslot ⊢
    cases hslot with
    | none => rfl
    | some hp =>
        unfold AckCount.add
        dsimp only
        rw [hp.transmissions, hp.payload, hp.timeSent]
  have hmtu : m'.sock.mtu = m.sock.mtu := by
    obtain ⟨x, rfl, hx⟩ := h
    rfl
  unfold UtpSock.countAcked
  dsimp only
  simp only [hadd, h.same.2.2.2.2.2, hmtu]

theorem sackBytesStep_eq (h : Mirror k base m m') (first : UInt16) (mask : Bytes) :
    m'.sackBytesStep first mask = m.sackBytesStep first mask := by
  funext acc bits
  have hslot := h.slot (seqOfBit first bits).toNat
  have hwin : inSackWindow m'.sock (seqOfBit first bits)
      = inSackWindow m.sock (seqOfBit first bits) := by
    obtain ⟨x, rfl, hx⟩ := h
    rfl
  have hclock : m'.ctx.clock = m.ctx.clock := by
    obtain ⟨x, rfl, hx⟩ := h
    rfl
  unfold sackBytesStep
  dsimp only
  rw [hwin, hclock]
  generalize m.sock.outbuf.get (seqOfBit first bits).toNat = v at hslot ⊢
  generalize m'.sock.outbuf.get (seqOfBit first bits).toNat = v' at hslot ⊢
  cases hslot with
  | none => rfl
  | some hp =>
      dsimp only
      rw [hp.transmissions, hp.payload, hp.timeSent]

/-- The same bytes are acked, with the same smallest round trip. -/
theorem totalAcked_eq (h : Mirror k base m m') (buf : Bytes) (selack : Option (Nat × Nat))
    (counted : AckCount) :
    m'.totalAcked buf selack counted = m.totalAcked buf selack counted := by
  unfold totalAcked selectiveAckBytes
  cases selack with
  | none => rfl
  | some sel =>
      dsimp only
      rw [h.same.2.1, sackBytesStep_eq h]

/-- The controller is called with the same arguments and finds the same state.
    -/
theorem mirror_applyCcontrol (h : Mirror k base m m') (bytes : Nat) (minRtt : Int) :
    Mirror k base (m.applyCcontrol bytes minRtt) (m'.applyCcontrol bytes minRtt) :=
  h.silent (·.applyCcontrol bytes minRtt) (fun _ => rfl) rfl

/-- A duplicate ack counts on both sides. -/
theorem mirror_countDuplicate (h : Mirror k base m m') (nowMs : Nat) (ack : UInt16)
    (kind : UInt8) :
    Mirror k base { m with sock := m.sock.countDuplicate nowMs ack kind }
      { m' with sock := m'.sock.countDuplicate nowMs ack kind } := by
  refine h.silent (fun m => { m with sock := m.sock.countDuplicate nowMs ack kind })
    (fun x => ?_) ?_
  · unfold UtpSock.countDuplicate
    show Detached.mk _ (if m.sock.curWindowPackets > 0 then
      if ack = m.sock.oldest - 1 ∧ kind = stState then _ else _ else _) = _
    split
    · split <;> rfl
    · rfl
  · unfold UtpSock.countDuplicate
    split
    · split <;> rfl
    · rfl

/-- Both sides measure the same. -/
theorem mirror_measure (h : Mirror k base m m') (buf : Bytes) (selack : Option (Nat × Nat))
    (acks : Nat) : Mirror k base (m.measure buf selack acks) (m'.measure buf selack acks) := by
  have hclock : m'.ctx.clock = m.ctx.clock ∧ m'.ctx.currentMs = m.ctx.currentMs
      ∧ m'.sock.delay = m.sock.delay := by
    obtain ⟨x, rfl, hx⟩ := h
    -- measuring reads the clock and the delays, which the shift leaves alone
    exact ⟨rfl, rfl, rfl⟩
  have hdup := mirror_countDuplicate h m.ctx.clock.millis (ackNr buf) (packetType buf)
  have hdelay : ∀ (mtu : Mtu) (delay : Delay), Mirror k base
      { m with sock := { m.sock.countDuplicate m.ctx.clock.millis (ackNr buf) (packetType buf) with
        mtu := mtu, delay := delay } }
      { m' with sock := { m'.sock.countDuplicate m.ctx.clock.millis (ackNr buf) (packetType buf)
        with mtu := mtu, delay := delay } } :=
    fun mtu delay => hdup.silent
      (fun m => { m with sock := { m.sock with mtu := mtu, delay := delay } }) (fun _ => rfl) rfl
  have hsame : (m'.sock.countDuplicate m.ctx.clock.millis (ackNr buf) (packetType buf)).delay
      = (m.sock.countDuplicate m.ctx.clock.millis (ackNr buf) (packetType buf)).delay := by
    obtain ⟨x, hx, -⟩ := hdup
    exact congrArg (fun m : Detached => m.sock.delay) hx
  unfold Detached.measure
  dsimp only
  rw [hclock.1, hclock.2.1, countAcked_eq hdup, totalAcked_eq hdup, hsame]
  split
  · exact mirror_applyCcontrol (hdelay _ _) _ _
  · exact hdelay _ _

/-! ### Applying acks -/

/-- Both sides advance to the same state. -/
theorem mirror_advanceState (h : Mirror k base m m') (kind : UInt8) (acks : Nat) :
    Mirror k base (m.advanceState kind acks) (m'.advanceState kind acks) := by
  have hconnect := mirror_setState h .connected
  have hfirst : Mirror k base
      (if kind = stData ∧ m.sock.state = .synRecv then
        ({ m with sock := { m.sock with state := .connected } }).notify (·.onWritable) else m)
      (if kind = stData ∧ m'.sock.state = .synRecv then
        ({ m' with sock := { m'.sock with state := .connected } }).notify (·.onWritable)
        else m') := by
    -- a data packet completes the handshake of an accepted socket
    rw [h.same.2.2.2.1]
    split
    · exact mirror_notify hconnect _
    · exact h
  unfold advanceState
  dsimp only
  generalize (if kind = stData ∧ m.sock.state = .synRecv then _ else m) = m₁ at hfirst ⊢
  generalize (if kind = stData ∧ m'.sock.state = .synRecv then _ else m') = m₁' at hfirst ⊢
  obtain ⟨-, hcwp, -, hst, hfin, -⟩ := hfirst.same
  have hdial : (kind = stState ∧ m₁'.sock.state = .synSent)
      ↔ (kind = stState ∧ m₁.sock.state = .synSent) := by rw [hst]
  have hacked : (m₁'.sock.finSent = true ∧ m₁'.sock.curWindowPackets = acks)
      ↔ (m₁.sock.finSent = true ∧ m₁.sock.curWindowPackets = acks) := by rw [hfin, hcwp]
  -- the answer to the SYN
  by_cases hd : kind = stState ∧ m₁.sock.state = .synSent
  · rw [if_pos hd, if_pos (hdial.mpr hd)]
    exact mirror_writeEngine (mirror_notify (mirror_setState hfirst .connected) _) []
  · rw [if_neg hd, if_neg (fun h => hd (hdial.mp h))]
    -- the acks cover the FIN
    by_cases ha : m₁.sock.finSent = true ∧ m₁.sock.curWindowPackets = acks
    · rw [if_pos ha, if_pos (hacked.mpr ha)]
      exact hfirst.silent (fun m => { m with sock := { m.sock with
        finSentAcked := true
        state := if m.sock.closeRequested then .destroy else m.sock.state } })
        (fun _ => rfl) rfl
    · rw [if_neg ha, if_neg (fun h => ha (hacked.mp h))]
      exact hfirst

/-- Only the window and the timers change, by functions of themselves and the
    time. -/
theorem noteWindow_eq (buf : Bytes) :
    ∃ (f : Cwnd → Cwnd) (g : Nat → Timers → Timers), ∀ m : Detached, m.noteWindow buf
      = { m with sock := { m.sock with
          cwnd := f m.sock.cwnd
          timers := g m.ctx.currentMs m.sock.timers } } :=
  ⟨fun w => { w with maxWindowUser := (windowSize buf).toNat },
    fun ms t => { t with zerowindowTime :=
      if (windowSize buf).toNat = 0 then ms + 15000 else t.zerowindowTime }, fun _ => rfl⟩

/-- Both sides take over the same window. -/
theorem mirror_noteWindow (h : Mirror k base m m') (buf : Bytes) :
    Mirror k base (m.noteWindow buf) (m'.noteWindow buf) := by
  obtain ⟨f, g, heq⟩ := noteWindow_eq buf
  rw [heq m, heq m']
  exact h.silent (fun m => { m with sock := { m.sock with
    cwnd := f m.sock.cwnd
    timers := g m.ctx.currentMs m.sock.timers } }) (fun _ => rfl) rfl

/-- The cursor counts numbers of the send queue, which are not shifted. -/
theorem mirror_updateFastResend (h : Mirror k base m m') (ack : UInt16) :
    Mirror k base (m.updateFastResend ack) (m'.updateFastResend ack) := by
  unfold updateFastResend
  rw [h.resend]
  split
  · exact mirror_setResend h _
  · exact h

/-- **BOTH SIDES APPLY THE ACKS OF A DATAGRAM ALIKE.** -/
theorem mirror_applyAcks (h : Mirror k base m m') (buf : Bytes) (acks : Nat) :
    Mirror k base (m.applyAcks buf acks) (m'.applyAcks buf acks) := by
  unfold applyAcks
  rw [h.same.2.1]
  split
  · exact mirror_fastTimeoutRetry (mirror_flushNagle (mirror_ackCumulative
      (mirror_updateFastResend (mirror_advanceState (mirror_noteWindow h buf) _ _) _) _))
  · exact h

/-- Scanning a mask bit by bit finds the same packets acked and missing. -/
theorem mirror_sackStep (first : UInt16) (mask : Bytes) (bits : List Int) :
    ∀ st st' : SackScan, Mirror k base st.m st'.m → st'.count = st.count →
      st'.resends = st.resends →
      Mirror k base (bits.foldl (sackStep first mask) st).m
          (bits.foldl (sackStep first mask) st').m
        ∧ (bits.foldl (sackStep first mask) st').count
          = (bits.foldl (sackStep first mask) st).count
        ∧ (bits.foldl (sackStep first mask) st').resends
          = (bits.foldl (sackStep first mask) st).resends := by
  induction bits with
  | nil => intro st st' hm hc hr; exact ⟨hm, hc, hr⟩
  | cons bit rest ih =>
      intro st st' hm hc hr
      obtain ⟨hm₁, hc₁, hr₁⟩ : Mirror k base (sackStep first mask st bit).m
          (sackStep first mask st' bit).m
          ∧ (sackStep first mask st' bit).count = (sackStep first mask st bit).count
          ∧ (sackStep first mask st' bit).resends = (sackStep first mask st bit).resends := by
        -- the window test speaks of distances only
        have hwin : inSackWindow st'.m.sock (seqOfBit first bit)
            = inSackWindow st.m.sock (seqOfBit first bit) := by
          obtain ⟨x, hx, -⟩ := hm
          rw [hx]
          rfl
        have hwant : ∀ c, wantsResend st'.m.sock (seqOfBit first bit) c
            = wantsResend st.m.sock (seqOfBit first bit) c := by
          intro c
          unfold wantsResend
          rw [hm.resend]
        unfold sackStep
        dsimp only
        rw [hwin, isSent_eq hm, hc, hr]
        simp only [hwant]
        split
        · split
          · split
            · exact ⟨(mirror_ackPacket hm _).1, rfl, rfl⟩
            · split
              · exact ⟨hm, rfl, rfl⟩
              · exact ⟨hm, rfl, rfl⟩
          · exact ⟨hm, rfl, rfl⟩
        · exact ⟨hm, hc, hr⟩
      exact ih _ _ hm₁ hc₁ hr₁

/-- The same packets are resent until the quota is used up. -/
theorem mirror_resendLoop (stack : List UInt16) :
    ∀ (quota : Nat) (m m' : Detached) (backOff : Bool), Mirror k base m m' →
      Mirror k base (resendLoop quota stack m backOff).1 (resendLoop quota stack m' backOff).1
        ∧ (resendLoop quota stack m' backOff).2 = (resendLoop quota stack m backOff).2 := by
  induction stack with
  | nil => intro quota m m' backOff h; cases quota <;> exact ⟨h, rfl⟩
  | cons v rest ih =>
      intro quota m m' backOff h
      cases quota with
      | zero => exact ⟨h, rfl⟩
      | succ quota =>
          rw [resendLoop, resendLoop, (h.slot v.toNat).isNone_eq]
          split
          · exact ih _ _ _ _ h
          · have hsend := mirror_sendPacketAt h v
            refine ih _ _ _ _ ?_
            rw [hsend.resend]
            exact mirror_setResend hsend _

/-- **BOTH SIDES TAKE A SELECTIVE ACK ALIKE.** -/
theorem mirror_selectiveAck (h : Mirror k base m m') (first : UInt16) (mask : Bytes) :
    Mirror k base (m.selectiveAck first mask) (m'.selectiveAck first mask) := by
  unfold selectiveAck
  rw [h.same.2.1]
  split
  · exact h
  · obtain ⟨hm, hc, hr⟩ := mirror_sackStep first mask (bitsDown (mask.length * 8)) ⟨m, 0, []⟩
      ⟨m', 0, []⟩ h rfl rfl
    generalize (bitsDown (mask.length * 8)).foldl (sackStep first mask) ⟨m, 0, []⟩ = st
      at hm hc hr ⊢
    generalize (bitsDown (mask.length * 8)).foldl (sackStep first mask) ⟨m', 0, []⟩ = st'
      at hm hc hr ⊢
    have hwant : wantsResend st'.m.sock (first - 1) st.count
        = wantsResend st.m.sock (first - 1) st.count := by
      unfold wantsResend
      rw [hm.resend]
    dsimp only
    rw [hc, hr, hwant]
    -- the scan ends with the same numbers to resend on both sides
    generalize List.reverse _ = stack
    obtain ⟨hloop, hback⟩ := mirror_resendLoop stack 4 _ _ false hm
    rw [hback]
    generalize resendLoop 4 stack st.m false = r at hloop ⊢
    generalize resendLoop 4 stack st'.m false = r' at hloop ⊢
    have hsame : r'.1.sock.cwnd = r.1.sock.cwnd ∧ r'.1.ctx.currentMs = r.1.ctx.currentMs := by
      obtain ⟨x, hx, -⟩ := hloop
      rw [hx]
      exact ⟨rfl, rfl⟩
    rw [hsame.1, hsame.2, hloop.resend]
    exact hloop.silent (fun m => { m with sock := { m.sock with
      cwnd := if r.2 then r.1.sock.cwnd.maybeDecayWin r.1.ctx.currentMs else r.1.sock.cwnd
      resend := { r.1.sock.resend with duplicateAck := UInt8.ofNat st.count } } })
      (fun _ => rfl) rfl

/-- Both sides become writable at the same time. -/
theorem mirror_markWritable (h : Mirror k base m m') :
    Mirror k base m.markWritable m'.markWritable := by
  obtain ⟨hfull, hflag⟩ := mirror_isFull h none
  unfold markWritable
  rw [h.same.2.2.2.1]
  dsimp only
  rw [hflag]
  split
  · split
    · exact hfull
    · exact mirror_notify (mirror_setState h .connected) _
  · exact h

/-- **THE SENDING SIDE DOES NOT SEE THE SHIFT.** -/
theorem mirror_processAck (h : Mirror k base m m') (buf : Bytes)
    (selack : Option (Nat × Nat)) :
    Mirror k base (m.processAck buf selack) (m'.processAck buf selack) := by
  have hacks : m'.sock.acksOf (ackNr buf) = m.sock.acksOf (ackNr buf) := by
    obtain ⟨x, rfl, hx⟩ := h
    rfl
  unfold processAck
  dsimp only
  rw [hacks]
  refine mirror_markWritable ?_
  have happly := mirror_applyAcks (mirror_measure h buf selack (m.sock.acksOf (ackNr buf))) buf
    (m.sock.acksOf (ackNr buf))
  cases selack with
  | none => exact happly
  | some sel => exact mirror_selectiveAck happly _ _

end UtpMirror
