import RustUtp.Acts.Engine
import RustUtp.Datagrams
import RustUtp.RingWindow
import Mathlib.Algebra.BigOperators.Intervals
import Mathlib.Algebra.Order.BigOperators.Group.Finset

/-! # The send queue — a window of numbered packets and its byte count

    The abstract queue is a start `lo`, a number of packets and a partial map
    from numbers to packets.  `Queue` says that a socket represents it: the
    ring holds the map, the wrapped `seq_nr` is the end of the window, the byte
    counter is the sum over the packets in flight, and no assertion about the
    window has failed.  Every act of a socket keeps some such queue. -/

namespace UtpSendQueue

open UtpCircular UtpPacket UtpUtil UtpConnShared UtpEngine UtpEngine.Detached UtpActs
  UtpDatagrams LabelledPath

/-- The bytes a packet counts for in `cur_window`. -/
def flight : Option OutgoingPacket → Nat
  | some p => if p.transmissions > 0 ∧ p.needResend = false then p.payload else 0
  | none => 0

/-- A packet counts in flight from its transmission until it is marked lost. -/
theorem flight_some (p : OutgoingPacket) :
    flight (some p) = if p.transmissions > 0 ∧ p.needResend = false then p.payload else 0 := rfl

/-- What every packet of the queue with number `n` satisfies. -/
structure PacketOk (n : Nat) (p : OutgoingPacket) : Prop where
  seq : seqNr p.data = UInt16.ofNat n
  length : p.data.length = headerSize + p.payload
  fresh : p.transmissions = 0 → p.needResend = false

/-- All of the invariant that holds inside an ack loop, too. -/
structure Body (ok : Nat → OutgoingPacket → Prop) (s : UtpSock) (lo : Nat)
    (f : Nat → Option OutgoingPacket) : Prop where
  ring : Represents s.outbuf lo f
  small : s.outbuf.size ≤ 2048
  seq : s.seqNr = UInt16.ofNat (lo + s.curWindowPackets)
  cap : s.curWindowPackets ≤ outgoingBufferMaxSize - 1
    ∨ s.finSent = true ∧ s.curWindowPackets ≤ outgoingBufferMaxSize
  fits : s.curWindowPackets ≤ s.outbuf.size
  live : ∀ n p, f n = some p → n < lo + s.curWindowPackets
  good : ∀ n p, f n = some p → PacketOk n p ∧ ok n p
  bytes : s.curWindow = ∑ n ∈ Finset.Ico lo (lo + s.curWindowPackets), flight (f n)
  sound : s.windowFault = false

/-- The representation of a queue by a socket. -/
structure Queue (ok : Nat → OutgoingPacket → Prop) (s : UtpSock) (lo : Nat)
    (f : Nat → Option OutgoingPacket) : Prop extends Body ok s lo f where
  oldest : 0 < s.curWindowPackets → (f lo).isSome = true

variable {ok : Nat → OutgoingPacket → Prop} {s s' : UtpSock} {lo : Nat}
  {f : Nat → Option OutgoingPacket}

/-! ## Acts that do not touch the queue -/

/-- The fields the invariant is about. -/
structure TxView where
  outbuf : CircularBuffer OutgoingPacket
  seqNr : UInt16
  curWindowPackets : Nat
  curWindow : Nat
  finSent : Bool
  windowFault : Bool

def txView (s : UtpSock) : TxView :=
  ⟨s.outbuf, s.seqNr, s.curWindowPackets, s.curWindow, s.finSent, s.windowFault⟩

/-- The queue is part of what the sending side shows. -/
theorem Body.of_view (h : Body ok s lo f) (hv : txView s' = txView s) : Body ok s' lo f := by
  obtain ⟨h1, h2, h3, h4, h5, h6⟩ := TxView.mk.inj hv
  exact ⟨h1 ▸ h.ring, h1 ▸ h.small, by rw [h2, h3]; exact h.seq,
    by rw [h3, h5]; exact h.cap, by rw [h3, h1]; exact h.fits, by rw [h3]; exact h.live,
    h.good, by rw [h4, h3]; exact h.bytes, by rw [h6]; exact h.sound⟩

theorem Queue.of_view (h : Queue ok s lo f) (hv : txView s' = txView s) : Queue ok s' lo f :=
  ⟨h.toBody.of_view hv, by
    rw [show s'.curWindowPackets = s.curWindowPackets from congrArg TxView.curWindowPackets hv]
    exact h.oldest⟩

/-- The predicate on packets may change as long as the packets in the queue
    still satisfy it. -/
theorem Queue.weaken {ok' : Nat → OutgoingPacket → Prop} (h : Queue ok s lo f)
    (hok : ∀ n p, f n = some p → ok n p → ok' n p) : Queue ok' s lo f :=
  ⟨⟨h.ring, h.small, h.seq, h.cap, h.fits, h.live,
    fun n p hp => ⟨(h.good n p hp).1, hok n p hp (h.good n p hp).2⟩, h.bytes, h.sound⟩,
    h.oldest⟩

/-! ## Numbers and slots -/

/-- The window has room for the packets of the ring. -/
theorem Body.cwp_le (h : Body ok s lo f) : s.curWindowPackets ≤ 1024 := by
  rcases h.cap with hc | ⟨-, hc⟩ <;> unfold outgoingBufferMaxSize at hc <;> omega

/-- The oldest number is where the queue begins. -/
theorem Body.oldest_eq (h : Body ok s lo f) : s.oldest = UInt16.ofNat lo := by
  unfold UtpSock.oldest
  rw [h.seq, UInt16.ofNat_add]
  grind

/-- A number of the queue is read from its slot. -/
theorem Body.get_number (h : Body ok s lo f) {n : Nat} (hle : lo ≤ n)
    (hlt : n < lo + s.curWindowPackets) : s.outbuf.get (UInt16.ofNat n).toNat = f n := by
  rw [get_wrap s.outbuf h.small n]
  exact h.ring.get_eq n hle (lt_of_lt_of_le hlt (Nat.add_le_add_left h.fits lo))

/-- The next number has a slot of its own: the 16-bit wrap does not show. -/
theorem Body.seq_slot (h : Body ok s lo f) (b : CircularBuffer OutgoingPacket)
    (hb : b.size ≤ 2048) : s.seqNr.toNat % b.size = (lo + s.curWindowPackets) % b.size := by
  rw [h.seq]
  exact wrap_mod_size b hb _

/-- A packet found under any sequence number belongs to the window. -/
theorem Body.find (h : Body ok s lo f) {seq : UInt16} {p : OutgoingPacket}
    (hp : s.outbuf.get seq.toNat = some p) :
    ∃ n, lo ≤ n ∧ n < lo + s.curWindowPackets ∧ seq.toNat % s.outbuf.size = n % s.outbuf.size
      ∧ f n = some p := by
  obtain ⟨n, hle, -, hmod, hfn⟩ := h.ring.slot hp
  exact ⟨n, hle, h.live n p hfn, hmod, hfn⟩

/-! ## The byte count -/

/-- The byte count after one slot has changed. -/
theorem sum_update {lo cwp n : Nat} (f : Nat → Option OutgoingPacket)
    (v : Option OutgoingPacket) (hle : lo ≤ n) (hlt : n < lo + cwp) :
    (∑ k ∈ Finset.Ico lo (lo + cwp), flight (Function.update f n v k)) + flight (f n)
      = (∑ k ∈ Finset.Ico lo (lo + cwp), flight (f k)) + flight v := by
  have hmem : n ∈ Finset.Ico lo (lo + cwp) := Finset.mem_Ico.mpr ⟨hle, hlt⟩
  rw [← Finset.sum_erase_add _ _ hmem, ← Finset.sum_erase_add _ (fun k => flight (f k)) hmem,
    Function.update_self]
  have hrest : ∀ k ∈ (Finset.Ico lo (lo + cwp)).erase n,
      flight (Function.update f n v k) = flight (f k) := by
    intro k hk
    rw [Function.update_of_ne (Finset.ne_of_mem_erase hk)]
  rw [Finset.sum_congr rfl hrest]
  omega

/-- One packet counts no more than all. -/
theorem flight_le_sum {lo cwp n : Nat} (f : Nat → Option OutgoingPacket) (hle : lo ≤ n)
    (hlt : n < lo + cwp) : flight (f n) ≤ ∑ k ∈ Finset.Ico lo (lo + cwp), flight (f k) :=
  Finset.single_le_sum (f := fun k => flight (f k)) (fun _ _ => Nat.zero_le _)
    (Finset.mem_Ico.mpr ⟨hle, hlt⟩)

/-! ## One slot changes -/

/-- A slot of the window is overwritten, and the byte counter follows. -/
theorem Body.update (h : Body ok s lo f) {n : Nat} {v : Option OutgoingPacket} {i c : Nat}
    (hle : lo ≤ n) (hlt : n < lo + s.curWindowPackets)
    (hi : i % s.outbuf.size = n % s.outbuf.size)
    (hv : ∀ p, v = some p → PacketOk n p ∧ ok n p)
    (hcw : c + flight (f n) = s.curWindow + flight v) :
    Body ok { s with outbuf := s.outbuf.put i v, curWindow := c } lo
      (Function.update f n v) := by
  refine ⟨h.ring.put v hle (by have := h.fits; omega) hi, h.small, h.seq, h.cap, h.fits,
    fun k p hk => ?_, fun k p hk => ?_, ?_, h.sound⟩
  · -- the slot that was written, and all others
    by_cases hkn : k = n
    · rw [hkn]
      exact hlt
    · rw [Function.update_of_ne hkn] at hk
      exact h.live k p hk
  · by_cases hkn : k = n
    · subst hkn
      rw [Function.update_self] at hk
      exact hv p hk
    · rw [Function.update_of_ne hkn] at hk
      exact h.good k p hk
  · -- one term of the sum has changed
    show c = ∑ k ∈ Finset.Ico lo (lo + s.curWindowPackets), flight (Function.update f n v k)
    have hsum := sum_update f v hle hlt
    rw [← h.bytes] at hsum
    omega

/-- The same for the whole invariant: the oldest packet must stay in place. -/
theorem Queue.update (h : Queue ok s lo f) {n : Nat} {v : Option OutgoingPacket} {i c : Nat}
    (hle : lo ≤ n) (hlt : n < lo + s.curWindowPackets)
    (hi : i % s.outbuf.size = n % s.outbuf.size)
    (hv : ∀ p, v = some p → PacketOk n p ∧ ok n p)
    (hcw : c + flight (f n) = s.curWindow + flight v)
    (hold : n ≠ lo ∨ v.isSome = true) :
    Queue ok { s with outbuf := s.outbuf.put i v, curWindow := c } lo
      (Function.update f n v) := by
  refine ⟨h.toBody.update hle hlt hi hv hcw, fun hpos => ?_⟩
  rcases Decidable.em (lo = n) with heq | hne
  · rw [heq, Function.update_self]
    exact hold.resolve_left (fun hn => hn heq.symm)
  · rw [Function.update_of_ne hne]
    exact h.oldest hpos

/-! ## Sending, losing and acking one packet -/

/-- Some packets of the map are changed by `g`, the others stay. -/
def Touched (g : OutgoingPacket → OutgoingPacket) (f f' : Nat → Option OutgoingPacket) : Prop :=
  ∀ n, f' n = f n ∨ ∃ p, f n = some p ∧ f' n = some (g p)

/-- No packet was touched. -/
theorem touched_refl (g : OutgoingPacket → OutgoingPacket) (f : Nat → Option OutgoingPacket) :
    Touched g f f := fun _ => .inl rfl

/-- One packet was touched. -/
theorem touched_update {n : Nat} {p : OutgoingPacket} (g : OutgoingPacket → OutgoingPacket)
    (hn : f n = some p) : Touched g f (Function.update f n (some (g p))) := by
  intro k
  by_cases hk : k = n
  · rw [hk, Function.update_self]
    exact .inr ⟨p, hn, rfl⟩
  · rw [Function.update_of_ne hk]
    exact .inl rfl

/-- What the transmission of a packet does to the sending side. -/
theorem txView_sendPacketAt {m : Detached} {seq : UInt16} {p : OutgoingPacket}
    (hp : m.sock.outbuf.get seq.toNat = some p) :
    txView (m.sendPacketAt seq).sock = txView
      { m.sock with
        outbuf := m.sock.outbuf.put seq.toNat (some (m.sentPacket p))
        curWindow :=
          if p.transmissions = 0 ∨ p.needResend = true then m.sock.curWindow + p.payload
          else m.sock.curWindow } := by
  unfold sendPacketAt
  rw [hp]
  simp only [putOut, sendData_sock, countSend, txView]

/-- A packet that was sent is still well formed. -/
theorem PacketOk.sent {n : Nat} {p : OutgoingPacket} (h : PacketOk n p) (m : Detached) :
    PacketOk n (m.sentPacket p) := by
  have hlen : headerSize ≤ p.data.length := by rw [h.length]; exact Nat.le_add_right _ _
  refine ⟨?_, ?_, fun h0 => rfl⟩
  · exact (congrArg Hdr.seqNr (hdr_outgoing m hlen m.sock.ackNr)).trans h.seq
  · show (m.stampTimes (setAckNr p.data m.sock.ackNr)).length = _
    rw [length_stampTimes, length_setAckNr]
    exact h.length

/-- A packet that was sent is in flight. -/
theorem flight_sent (m : Detached) (p : OutgoingPacket) :
    flight (some (m.sentPacket p)) = p.payload := by
  simp [flight, sentPacket]

/-- Sending marks the packet as in flight. -/
theorem Queue.sendPacketAt {m : Detached} (h : Queue ok m.sock lo f) (seq : UInt16)
    (hok : ∀ n p, f n = some p → ok n p → ok n (m.sentPacket p)) :
    ∃ f', Queue ok (m.sendPacketAt seq).sock lo f' ∧ Touched m.sentPacket f f' := by
  cases hp : m.sock.outbuf.get seq.toNat with
  | none =>
      -- nothing is queued under this number: nothing is sent
      refine ⟨f, ?_, touched_refl _ f⟩
      unfold UtpEngine.Detached.sendPacketAt
      rw [hp]
      exact h
  | some p =>
      obtain ⟨n, hle, hlt, hmod, hfn⟩ := h.find hp
      obtain ⟨hpk, hokp⟩ := h.good n p hfn
      refine ⟨Function.update f n (some (m.sentPacket p)), Queue.of_view
        (h.update hle hlt hmod ?_ ?_ (.inr rfl)) (txView_sendPacketAt hp),
        touched_update m.sentPacket hfn⟩
      · intro q hq
        obtain rfl := Option.some.inj hq
        exact ⟨hpk.sent m, hok n p hfn hokp⟩
      · rw [flight_sent, hfn, flight_some]
        -- bytes that were not in flight are added, those that were are counted once
        split <;> split <;> rename_i h1 h2
        · rcases h1 with h1 | h1
          · exact absurd h2.1 (by omega)
          · rw [h1] at h2
            exact absurd h2.2 (by decide)
        · omega
        · omega
        · rw [not_or] at h1
          exact absurd ⟨Nat.pos_of_ne_zero h1.1, Bool.eq_false_iff.mpr h1.2⟩ h2

/-- A lost packet leaves the byte count; the subtraction does not underflow. -/
theorem Queue.markLost {m : Detached} (h : Queue ok m.sock lo f) (seq : UInt16)
    (hok : ∀ n p, f n = some p → ok n p → ok n { p with needResend := true }) :
    ∃ f', Queue ok (m.markLost seq).sock lo f'
      ∧ Touched (fun p => { p with needResend := true }) f f' := by
  unfold UtpEngine.Detached.markLost
  split
  · exact ⟨f, h, touched_refl _ f⟩
  · rename_i p hp
    split
    · exact ⟨f, h, touched_refl _ f⟩
    · rename_i hsent
      rw [not_or] at hsent
      obtain ⟨n, hle, hlt, hmod, hfn⟩ := h.find hp
      obtain ⟨hpk, hokp⟩ := h.good n p hfn
      -- the packet was in flight, so its bytes can be subtracted
      have hflight : flight (f n) = p.payload := by
        rw [hfn]
        exact if_pos ⟨Nat.pos_of_ne_zero hsent.1, Bool.eq_false_iff.mpr hsent.2⟩
      have hge : p.payload ≤ m.sock.curWindow := by
        rw [← hflight, h.bytes]
        exact flight_le_sum f hle hlt
      have hlost : flight (some { p with needResend := true }) = 0 := by simp [flight]
      refine ⟨Function.update f n (some { p with needResend := true }), ?_,
        touched_update (fun p => { p with needResend := true }) hfn⟩
      rw [decide_eq_true hge, check_true]
      refine Queue.of_view (h.update hle hlt hmod ?_ ?_ (.inr rfl)) rfl
      · intro q hq
        obtain rfl := Option.some.inj hq
        exact ⟨⟨hpk.seq, hpk.length, fun h0 => absurd h0 hsent.1⟩, hok n p hfn hokp⟩
      · rw [hflight, hlost]
        omega

/-- What `ack_packet` does to packet `n`: a sent packet leaves the queue, and
    the subtraction does not underflow. -/
theorem Body.ackPacket {m : Detached} (h : Body ok m.sock lo f) {n : Nat} (hle : lo ≤ n)
    (hlt : n < lo + m.sock.curWindowPackets) :
    (∃ p, f n = some p ∧ p.transmissions = 0 ∧ m.ackPacket (UInt16.ofNat n) = (m, .notSent))
      ∨ (m.ackPacket (UInt16.ofNat n)).2 ≠ .notSent
        ∧ (m.ackPacket (UInt16.ofNat n)).1.sock.curWindowPackets = m.sock.curWindowPackets
        ∧ Body ok (m.ackPacket (UInt16.ofNat n)).1.sock lo (Function.update f n none) := by
  have hget := h.get_number hle hlt
  unfold UtpEngine.Detached.ackPacket
  rw [hget]
  cases hfn : f n with
  | none =>
      -- acked before: the slot is empty already
      refine .inr ⟨nofun, rfl, ?_⟩
      rwa [show Function.update f n none = f from Function.update_eq_self_iff.mpr hfn.symm]
  | some p =>
      by_cases h0 : p.transmissions = 0
      · -- never sent: the ack is refused
        refine .inl ⟨p, rfl, h0, ?_⟩
        simp only [h0, if_true]
      · refine .inr ?_
        simp only [h0, if_false]
        have hge : (p.needResend || decide (m.sock.curWindow ≥ p.payload)) = true := by
          cases hr : p.needResend with
          | true => rfl
          | false =>
              have hflight : flight (f n) = p.payload := by
                rw [hfn]
                exact if_pos ⟨Nat.pos_of_ne_zero h0, hr⟩
              rw [Bool.false_or]
              refine decide_eq_true ?_
              rw [ge_iff_le, ← hflight, h.bytes]
              exact flight_le_sum f hle hlt
        -- its bytes leave the window unless they were given up for lost
        rw [hge, check_true]
        refine ⟨nofun, rfl, Body.of_view (h.update hle hlt (wrap_mod_size _ h.small n)
          (v := none) (c := if p.needResend then m.sock.curWindow
            else m.sock.curWindow - p.payload) (fun q hq => nomatch hq) ?_) rfl⟩
        rw [hfn]
        cases hr : p.needResend with
        | true => simp [flight, hr]
        | false =>
            rw [hr, Bool.false_or, decide_eq_true_iff] at hge
            simp only [flight, hr, Nat.pos_of_ne_zero h0, and_self, if_true,
              Bool.false_eq_true, if_false]
            omega

/-! ## Cumulative and selective acks -/

/-- The window drops its oldest number, which is not in the map. -/
theorem Body.advance (h : Body ok s lo f) (hpos : 0 < s.curWindowPackets)
    (hlo : f lo = none) :
    Body ok { s with curWindowPackets := s.curWindowPackets - 1 } (lo + 1) f := by
  have hend : lo + 1 + (s.curWindowPackets - 1) = lo + s.curWindowPackets := by omega
  refine ⟨h.ring.slide hlo, h.small, ?_, ?_, ?_, ?_, h.good, ?_, h.sound⟩
  · show s.seqNr = UInt16.ofNat (lo + 1 + (s.curWindowPackets - 1))
    rw [hend]
    exact h.seq
  · rcases h.cap with hc | ⟨hfin, hc⟩
    · exact .inl (by show s.curWindowPackets - 1 ≤ _; omega)
    · exact .inr ⟨hfin, by show s.curWindowPackets - 1 ≤ _; omega⟩
  · show s.curWindowPackets - 1 ≤ s.outbuf.size
    have := h.fits
    omega
  · show ∀ n p, f n = some p → n < lo + 1 + (s.curWindowPackets - 1)
    rw [hend]
    exact h.live
  · show s.curWindow
      = ∑ n ∈ Finset.Ico (lo + 1) (lo + 1 + (s.curWindowPackets - 1)), flight (f n)
    rw [hend, h.bytes, Finset.sum_eq_sum_Ico_succ_bot (by omega), hlo]
    exact Nat.zero_add _

/-- What acks leave of the map: numbers below the ack may go, nothing else. -/
def Thinned (f f' : Nat → Option OutgoingPacket) (bound : Nat) : Prop :=
  ∀ n, f' n = f n ∨ f' n = none ∧ n < bound

/-- The map without the numbers from `a` up to `b`. -/
def erased (f : Nat → Option OutgoingPacket) (a b : Nat) : Nat → Option OutgoingPacket :=
  fun n => if a ≤ n ∧ n < b then none else f n

/-- Nothing is erased. -/
theorem erased_self (f : Nat → Option OutgoingPacket) (a : Nat) : erased f a a = f := by
  funext n
  exact if_neg (by omega)

/-- Erasing the first number, then the others. -/
theorem erased_cons (f : Nat → Option OutgoingPacket) {a b : Nat} (h : a < b) :
    erased (Function.update f a none) (a + 1) b = erased f a b := by
  funext n
  unfold erased
  by_cases hn : n = a
  · subst hn
    rw [if_neg (by omega), if_pos ⟨Nat.le_refl n, h⟩, Function.update_self]
  · rw [Function.update_of_ne hn]
    by_cases hin : a ≤ n ∧ n < b
    · rw [if_pos hin, if_pos (by omega)]
    · rw [if_neg hin, if_neg (by omega)]

/-- Of the `n` oldest packets, the first `k` are acked: each of them has been
    sent, and only a packet that has not been sent ends the loop early. -/
structure AckedUpTo (f : Nat → Option OutgoingPacket) (lo n k : Nat) : Prop where
  le : k ≤ n
  sent : ∀ i p, lo ≤ i → i < lo + k → f i = some p → 0 < p.transmissions
  stop : k = n ∨ ∃ p, f (lo + k) = some p ∧ p.transmissions = 0

/-- **THE ACK LOOP** takes sent packets off the old end of the window. -/
theorem Body.ackLoop (n : Nat) :
    ∀ (m : Detached) (lo : Nat) (f : Nat → Option OutgoingPacket), Body ok m.sock lo f →
      n ≤ m.sock.curWindowPackets →
      ∃ k, AckedUpTo f lo n k ∧ Body ok (ackLoop n m).sock (lo + k) (erased f lo (lo + k))
        ∧ (ackLoop n m).sock.curWindowPackets + k = m.sock.curWindowPackets := by
  induction n with
  | zero =>
      intro m lo f h _
      refine ⟨0, ⟨Nat.le_refl _, fun i p hle hlt => absurd hlt (by omega), .inl rfl⟩, ?_, rfl⟩
      rw [Nat.add_zero, erased_self]
      exact h
  | succ n ih =>
      intro m lo f h hn
      rw [Detached.ackLoop]
      dsimp only
      rw [h.oldest_eq]
      rcases h.ackPacket (Nat.le_refl lo) (by omega) with ⟨p, hp, h0, hres⟩ | ⟨hres, hcwp, hbody⟩
      · -- a packet that was never sent stops the loop
        rw [hres, if_pos rfl]
        refine ⟨0, ⟨Nat.zero_le _, fun i p hle hlt => absurd hlt (by omega), .inr ⟨p, hp, h0⟩⟩, ?_,
          rfl⟩
        rw [Nat.add_zero, erased_self]
        exact h
      · rw [if_neg hres]
        have hsent : ∀ p, f lo = some p → 0 < p.transmissions := by
          intro p hp
          refine Nat.pos_of_ne_zero (fun h0 => hres ?_)
          unfold UtpEngine.Detached.ackPacket
          rw [h.get_number (Nat.le_refl lo) (by omega), hp]
          simp only [h0, if_true]
        have hnone : Function.update f lo none lo = none := Function.update_self ..
        -- the empty slot falls out of the window, and the loop goes on behind it
        have hadv := hbody.advance (by omega) hnone
        obtain ⟨k, hacked, hbody', hend⟩ := ih
          { (m.ackPacket (UInt16.ofNat lo)).1 with
            sock :=
              { (m.ackPacket (UInt16.ofNat lo)).1.sock with
                curWindowPackets :=
                  (m.ackPacket (UInt16.ofNat lo)).1.sock.curWindowPackets - 1 } }
          (lo + 1) _ hadv (by show n ≤ _ - 1; omega)
        have hle := hacked.le
        rw [show lo + 1 + k = lo + (k + 1) by omega, erased_cons f (by omega)] at hbody'
        refine ⟨k + 1, ⟨by omega, fun i p hi hlt hp => ?_, ?_⟩, hbody', ?_⟩
        · by_cases hlo : i = lo
          · rw [hlo] at hp
            exact hsent p hp
          · refine hacked.sent i p (by omega) (by omega) ?_
            rw [Function.update_of_ne hlo]
            exact hp
        · rcases hacked.stop with heq | ⟨p, hp, h0⟩
          · exact .inl (congrArg (· + 1) heq)
          · refine .inr ⟨p, ?_, h0⟩
            rw [Function.update_of_ne (by omega)] at hp
            rw [show lo + (k + 1) = lo + 1 + k by omega]
            exact hp
        · refine (congrArg (· + 1) hend).trans ?_
          show (m.ackPacket (UInt16.ofNat lo)).1.sock.curWindowPackets - 1 + 1 = _
          omega

/-- The shrink loop ends at a packet still waiting to be acked. -/
theorem Body.shrinkLoop (n : Nat) :
    ∀ (m : Detached) (lo : Nat), Body ok m.sock lo f → m.sock.curWindowPackets ≤ n →
      ∃ lo', Queue ok (shrinkLoop n m).sock lo' f ∧ lo ≤ lo'
        ∧ lo' + (shrinkLoop n m).sock.curWindowPackets = lo + m.sock.curWindowPackets := by
  induction n with
  | zero =>
      intro m lo h hn
      exact ⟨lo, ⟨h, fun hpos => absurd hpos (by rw [Detached.shrinkLoop]; omega)⟩,
        Nat.le_refl _, rfl⟩
  | succ n ih =>
      intro m lo h hn
      rw [Detached.shrinkLoop]
      split
      · -- the oldest slot is empty
        rename_i hgap
        have hlo : f lo = none := by
          rw [← h.get_number (Nat.le_refl lo) (by omega), ← h.oldest_eq]
          exact Option.isNone_iff_eq_none.mp hgap.2
        have hadv := h.advance hgap.1 hlo
        obtain ⟨lo', hq, hle, hend⟩ := ih
          { m with sock := { m.sock with curWindowPackets := m.sock.curWindowPackets - 1 } }
          (lo + 1) hadv (by show m.sock.curWindowPackets - 1 ≤ n; omega)
        refine ⟨lo', hq, by omega, ?_⟩
        rw [hend]
        show lo + 1 + (m.sock.curWindowPackets - 1) = _
        omega
      · rename_i hgap
        refine ⟨lo, ⟨h, fun hpos => ?_⟩, Nat.le_refl _, rfl⟩
        rw [not_and, Option.isNone_iff_eq_none, h.oldest_eq,
          h.get_number (Nat.le_refl lo) (by omega)] at hgap
        exact Option.isSome_iff_ne_none.mpr (hgap hpos)

/-- **THE CUMULATIVE ACK** removes packets from the old end of the window, then
    the window closes up, and its assertion holds. -/
theorem Queue.ackExactly {m : Detached} (h : Queue ok m.sock lo f) {acks : Nat}
    (hacks : acks ≤ m.sock.curWindowPackets) :
    ∃ k lo', AckedUpTo f lo acks k
      ∧ Queue ok (ackCumulative acks m).sock lo' (erased f lo (lo + k)) ∧ lo + k ≤ lo'
      ∧ lo' + (ackCumulative acks m).sock.curWindowPackets = lo + m.sock.curWindowPackets := by
  obtain ⟨k, hacked, hbody, hend₁⟩ := h.toBody.ackLoop acks m lo f hacks
  obtain ⟨lo₂, hq, hle₂, hend₂⟩ := hbody.shrinkLoop _ (Detached.ackLoop acks m) (lo + k)
    (Nat.le_refl _)
  unfold UtpEngine.Detached.ackCumulative
  dsimp only
  generalize Detached.shrinkLoop (Detached.ackLoop acks m).sock.curWindowPackets
    (Detached.ackLoop acks m) = m₂ at hq hend₂ ⊢
  have hassert : (decide (m₂.sock.curWindowPackets = 0)
      || (m₂.sock.outbuf.get m₂.sock.oldest.toNat).isSome) = true := by
    by_cases hzero : m₂.sock.curWindowPackets = 0
    · rw [decide_eq_true hzero, Bool.true_or]
    · rw [hq.oldest_eq, hq.get_number (Nat.le_refl _) (by omega), hq.oldest (by omega),
        Bool.or_true]
  rw [hassert, check_true]
  exact ⟨k, lo₂, hacked, hq, hle₂, by omega⟩

/-- The same, with what later proofs mostly need of it. -/
theorem Queue.ackCumulative {m : Detached} (h : Queue ok m.sock lo f) {acks : Nat}
    (hacks : acks ≤ m.sock.curWindowPackets) :
    ∃ lo' f', Queue ok (ackCumulative acks m).sock lo' f' ∧ lo ≤ lo'
      ∧ lo' + (ackCumulative acks m).sock.curWindowPackets = lo + m.sock.curWindowPackets
      ∧ Thinned f f' (lo + acks) := by
  obtain ⟨k, lo', hacked, hq, hle, hend⟩ := h.ackExactly hacks
  have hk := hacked.le
  refine ⟨lo', _, hq, by omega, hend, fun n => ?_⟩
  unfold erased
  by_cases hin : lo ≤ n ∧ n < lo + k
  · rw [if_pos hin]
    exact .inr ⟨rfl, by omega⟩
  · rw [if_neg hin]
    exact .inl rfl

/-- A bit of a selective ack names a number of the window past its oldest. -/
theorem Body.sackNumber (h : Body ok s lo f) {v : UInt16} (hv : inSackWindow s v = true) :
    ∃ n, lo < n ∧ n < lo + s.curWindowPackets ∧ v = UInt16.ofNat n := by
  unfold inSackWindow at hv
  rw [decide_eq_true_iff] at hv
  generalize hd : (s.seqNr - v - 1).toNat = d at hv
  refine ⟨lo + s.curWindowPackets - 1 - d, by omega, by omega, ?_⟩
  have hv' : v = s.seqNr - 1 - UInt16.ofNat d := by
    rw [← hd, UInt16.ofNat_toNat]
    grind
  rw [hv', h.seq, SeqNum.ofNat_sub_one (by omega), ← UInt16.ofNat_sub (by omega)]

/-- **ONE BIT OF A SELECTIVE ACK** removes at most the packet it names. -/
theorem Queue.ackSelective {m : Detached} (h : Queue ok m.sock lo f) {v : UInt16}
    (hv : inSackWindow m.sock v = true) :
    ∃ n f', lo < n ∧ n < lo + m.sock.curWindowPackets ∧ v = UInt16.ofNat n
      ∧ Queue ok (m.ackPacket v).1.sock lo f'
      ∧ (m.ackPacket v).1.sock.curWindowPackets = m.sock.curWindowPackets
      ∧ ∀ k, f' k = f k ∨ f' k = none ∧ k = n := by
  obtain ⟨n, hlo, hlt, rfl⟩ := h.sackNumber hv
  rcases h.ackPacket (Nat.le_of_lt hlo) hlt with ⟨p, hp, h0, hres⟩ | ⟨-, hcwp, hbody⟩
  · rw [hres]
    exact ⟨n, f, hlo, hlt, rfl, h, rfl, fun k => .inl rfl⟩
  · refine ⟨n, _, hlo, hlt, rfl, ⟨hbody, fun hpos => ?_⟩, hcwp, fun k => ?_⟩
    · rw [Function.update_of_ne (Nat.ne_of_lt hlo)]
      exact h.oldest (hcwp ▸ hpos)
    · by_cases hk : k = n
      · rw [hk, Function.update_self]
        exact .inr ⟨rfl, rfl⟩
      · rw [Function.update_of_ne hk]
        exact .inl rfl

/-! ## Queueing -/

/-- A new packet is well formed, under the next number. -/
theorem newPacket_ok {m : Detached} {lo : Nat}
    (hseq : m.sock.seqNr = UInt16.ofNat (lo + m.sock.curWindowPackets)) {flags : UInt8}
    (hflags : flags < stNumStates) {n : Nat} {data : Bytes} (hn : n ≤ data.length) :
    PacketOk (lo + m.sock.curWindowPackets) (m.newPacket flags n data) := by
  have hlen : (List.replicate headerSize (0 : UInt8) ++ data.take n).length
      = headerSize + n := by
    rw [List.length_append, List.length_replicate, List.length_take, Nat.min_eq_left hn]
  refine ⟨?_, ?_, fun _ => rfl⟩
  · refine (congrArg Hdr.seqNr (hdr_fillHeader m hflags (some m.sock.seqNr)
      (b := List.replicate headerSize 0 ++ data.take n) ?_)).trans hseq
    rw [hlen]
    exact Nat.le_add_right _ _
  · show (m.fillHeader flags (some m.sock.seqNr) _).length = _
    rw [length_fillHeader, hlen]
    rfl

/-- A new packet goes to the young end of the window; the ring grows when it is
    full. -/
theorem Queue.pushPacket {m : Detached} (h : Queue ok m.sock lo f) {flags : UInt8}
    (hflags : flags < stNumStates) {n : Nat} {data : Bytes} (hn : n ≤ data.length)
    (hcap : m.sock.curWindowPackets + 1 ≤ outgoingBufferMaxSize - 1
      ∨ m.sock.finSent = true ∧ m.sock.curWindowPackets + 1 ≤ outgoingBufferMaxSize)
    (hok : ok (lo + m.sock.curWindowPackets) (m.newPacket flags n data)) :
    Queue ok (m.pushPacket flags n data).sock lo
      (Function.update f (lo + m.sock.curWindowPackets) (some (m.newPacket flags n data))) := by
  have hcwp := h.cwp_le
  have hcheck : m.check (decide (min n data.length = n)) = m := by
    rw [decide_eq_true (Nat.min_eq_left hn), check_true]
  have hnew := newPacket_ok h.seq hflags hn
  have hnone : flight (some (m.newPacket flags n data)) = 0 := by simp [flight, newPacket]
  unfold UtpEngine.Detached.pushPacket
  dsimp only
  rw [hcheck]
  generalize m.newPacket flags n data = p at hok hnew hnone ⊢
  -- only what growing promises matters from here on
  have hsize : (m.sock.outbuf.ensureSize m.sock.seqNr.toNat m.sock.curWindowPackets).size
      ≤ 2048 := m.sock.outbuf.size_ensureSize_le _ _ 2048 h.small (by omega)
  have hslot := h.seq_slot _ hsize
  have hring := h.ring.ensureSize m.sock.seqNr.toNat m.sock.curWindowPackets (by omega)
    hslot.symm
  have hroom := m.sock.outbuf.index_lt_size_ensureSize m.sock.seqNr.toNat
    m.sock.curWindowPackets
  generalize m.sock.outbuf.ensureSize m.sock.seqNr.toNat m.sock.curWindowPackets = b
    at hsize hslot hring hroom ⊢
  have hne : ∀ k q, f k = some q → k ≠ lo + m.sock.curWindowPackets := by
    intro k q hk
    exact Nat.ne_of_lt (h.live k q hk)
  refine ⟨⟨hring.put (some p) (Nat.le_add_right _ _) (by omega) hslot, hsize, ?_, hcap,
    ?_, ?_, ?_, ?_, h.sound⟩, fun _ => ?_⟩
  · show m.sock.seqNr + 1 = _
    rw [h.seq, SeqNum.ofNat_add_one]
    rfl
  · show m.sock.curWindowPackets + 1 ≤ b.size
    omega
  · intro k q hk
    show k < lo + (m.sock.curWindowPackets + 1)
    by_cases hkn : k = lo + m.sock.curWindowPackets
    · omega
    · rw [Function.update_of_ne hkn] at hk
      have := h.live k q hk
      omega
  · intro k q hk
    by_cases hkn : k = lo + m.sock.curWindowPackets
    · rw [hkn, Function.update_self] at hk
      obtain rfl := Option.some.inj hk
      rw [hkn]
      exact ⟨hnew, hok⟩
    · rw [Function.update_of_ne hkn] at hk
      exact h.good k q hk
  · show m.sock.curWindow = ∑ k ∈ Finset.Ico lo (lo + (m.sock.curWindowPackets + 1)), _
    rw [← Nat.add_assoc, Finset.sum_Ico_succ_top (Nat.le_add_right _ _), Function.update_self,
      hnone, Nat.add_zero, h.bytes]
    refine Finset.sum_congr rfl (fun k hk => ?_)
    rw [Function.update_of_ne (Nat.ne_of_lt (Finset.mem_Ico.mp hk).2)]
  · by_cases hzero : lo = lo + m.sock.curWindowPackets
    · rw [← hzero, Function.update_self]
      rfl
    · rw [Function.update_of_ne hzero]
      exact h.oldest (by omega)

theorem extendedPacket_ok {m : Detached} {k : Nat} {p : OutgoingPacket} (hp : PacketOk k p)
    {flags : UInt8} (hflags : flags < stNumStates) {n : Nat} {data : Bytes}
    (hn : n ≤ data.length) : PacketOk k (m.extendedPacket p flags n data) := by
  have hlen : (p.data ++ data.take n).length = headerSize + (p.payload + n) := by
    rw [List.length_append, hp.length, List.length_take, Nat.min_eq_left hn]
    omega
  have hhdr : headerSize ≤ p.data.length := by rw [hp.length]; exact Nat.le_add_right _ _
  refine ⟨?_, ?_, hp.fresh⟩
  · refine (congrArg Hdr.seqNr (hdr_fillHeader m hflags none (b := p.data ++ data.take n)
      (by rw [hlen]; exact Nat.le_add_right _ _))).trans ?_
    show seqNr (p.data ++ data.take n) = _
    rw [← hp.seq]
    exact seqNr_append hhdr _
  · show (m.fillHeader flags none _).length = _
    rw [length_fillHeader, hlen]
    rfl

/-- The last packet grows while it has not been sent; it does not count for the
    window yet. -/
theorem Queue.extendLast {m : Detached} (h : Queue ok m.sock lo f)
    (hcwp : 0 < m.sock.curWindowPackets) {p : OutgoingPacket}
    (hp : m.sock.outbuf.get (m.sock.seqNr - 1).toNat = some p) (hunsent : p.transmissions = 0)
    {flags : UInt8} (hflags : flags < stNumStates) {n : Nat} {data : Bytes}
    (hn : n ≤ data.length)
    (hok : ok (lo + m.sock.curWindowPackets - 1) (m.extendedPacket p flags n data)) :
    f (lo + m.sock.curWindowPackets - 1) = some p
      ∧ Queue ok (m.extendLast p flags n data).sock lo
        (Function.update f (lo + m.sock.curWindowPackets - 1)
          (some (m.extendedPacket p flags n data))) := by
  have hseq : m.sock.seqNr - 1 = UInt16.ofNat (lo + m.sock.curWindowPackets - 1) := by
    rw [h.seq, SeqNum.ofNat_sub_one (by omega)]
  have hle : lo ≤ lo + m.sock.curWindowPackets - 1 := by omega
  have hlt : lo + m.sock.curWindowPackets - 1 < lo + m.sock.curWindowPackets := by omega
  have hfn : f (lo + m.sock.curWindowPackets - 1) = some p := by
    rw [← h.get_number hle hlt, ← hseq, hp]
  obtain ⟨hpk, -⟩ := h.good _ p hfn
  have hcheck : m.check (p.needResend = false && decide (min n data.length = n)) = m := by
    rw [hpk.fresh hunsent, decide_eq_true rfl, Bool.true_and,
      decide_eq_true (Nat.min_eq_left hn), check_true]
  -- a packet that was never sent counts nothing, whatever its size
  have hflight : ∀ q : OutgoingPacket, q.transmissions = 0 → flight (some q) = 0 := by
    intro q hq
    simp [flight, hq]
  refine ⟨hfn, ?_⟩
  unfold UtpEngine.Detached.extendLast
  dsimp only
  rw [hcheck]
  refine Queue.of_view (h.update hle hlt (i := (m.sock.seqNr - 1).toNat)
    (c := m.sock.curWindow) ?_ ?_ ?_ (.inr rfl)) rfl
  · rw [hseq]
    exact wrap_mod_size _ h.small _
  · intro q hq
    obtain rfl := Option.some.inj hq
    exact ⟨extendedPacket_ok hpk hflags hn, hok⟩
  · rw [hfn, hflight p hunsent, hflight (m.extendedPacket p flags n data) hunsent]

/-! ## Every act keeps the queue -/

/-- An ack leaves the sending side. -/
theorem txView_sendAck (m : Detached) (synack : Bool) :
    txView (m.sendAck synack).sock = txView m.sock := by
  unfold sendAck
  rw [ackListRemove_sock, sendData_sock]
  rfl

/-- Receiving leaves the send queue alone. -/
theorem txView_drain {m m' : Detached} {data : Bytes}
    (h : DrainPath [] (m.acceptNext data) m') : txView m'.sock = txView m.sock := by
  refine DrainPath.lift (S := fun a b : Detached => txView b.sock = txView a.sock)
    (fun _ => rfl) (fun _ _ _ hab hbc => hbc.trans hab) (fun _ a b hab => ?_)
    (by rw [acceptNext_sock]; rfl) h
  cases hab with
  | drain => rw [drainNext_sock]; rfl
  | reach => rfl
  | ackFin => exact txView_sendAck a _
  | dropStragglers => rfl

/-- A condition on packets that everything the code does to a packet keeps. -/
structure Closed (ok : Nat → OutgoingPacket → Prop) (m : Detached) : Prop where
  sent : ∀ n p, PacketOk n p → ok n p → ok n (m.sentPacket p)
  lost : ∀ n p, ok n p → ok n { p with needResend := true }
  made : m.sock.lastRcvWin = m.getRcvWindow → ∀ n k data, ok n (m.newPacket stData k data)
  extended : m.sock.lastRcvWin = m.getRcvWindow → ∀ n p k data, PacketOk n p → ok n p →
    ok n (m.extendedPacket p stData k data)
  fin : m.sock.lastRcvWin = m.getRcvWindow → ∀ n, ok n (m.newPacket stFin 0 [])

/-- **EVERY ACT OF THE SEND SIDE** keeps the queue, and what `ok` says of its
    packets. -/
theorem Queue.txActOf {inp : Option Bytes} {l : Bytes} {m m' : Detached}
    (hc : Closed ok m) (h : Queue ok m.sock lo f) (ha : TxAct inp l m m') :
    ∃ lo' f', Queue ok m'.sock lo' f' := by
  cases ha with
  | checkIdle _ hcwp =>
      -- with no packet in the window no byte is in flight
      have hzero : m.sock.curWindow = 0 := by
        rw [h.bytes, hcwp, Nat.add_zero, Finset.Ico_self, Finset.sum_empty]
      rw [decide_eq_true hzero, check_true]
      exact ⟨lo, f, h⟩
  | sendPacket _ seq =>
      obtain ⟨f', hq, -⟩ := h.sendPacketAt seq (fun n p hp hok =>
        hc.sent n p (h.good n p hp).1 hok)
      exact ⟨lo, f', hq⟩
  | push _ n data hst hfin hroom hn harm hwin =>
      exact ⟨lo, _, h.pushPacket (by decide) hn (.inl hroom) (hc.made hwin _ n data)⟩
  | extend _ p n data hst hfin hcwp hp hunsent hn hwin =>
      have hseq : m.sock.seqNr - 1 = UInt16.ofNat (lo + m.sock.curWindowPackets - 1) := by
        rw [h.seq, SeqNum.ofNat_sub_one (by omega)]
      have hfn : f (lo + m.sock.curWindowPackets - 1) = some p := by
        rw [← h.get_number (by omega) (by omega), ← hseq, hp]
      obtain ⟨hpk, hok⟩ := h.good _ p hfn
      exact ⟨lo, _, (h.extendLast hcwp hp hunsent (by decide) hn
        (hc.extended hwin _ p n data hpk hok)).2⟩
  | ackCum _ buf acks hinp hacks =>
      obtain ⟨lo', f', hq, -⟩ := h.ackCumulative hacks.1
      exact ⟨lo', f', hq⟩
  | ackSel _ buf sel bits hinp exts w hwalk hsel hwin hbit =>
      obtain ⟨n, f', -, -, -, hq, -⟩ := h.ackSelective hwin
      exact ⟨lo, f', hq⟩
  | lose _ seq =>
      obtain ⟨f', hq, -⟩ := h.markLost seq (fun n p _ hok => hc.lost n p hok)
      exact ⟨lo, f', hq⟩
  | _ => exact ⟨lo, f, h.of_view rfl⟩

/-- No condition on packets beyond `PacketOk`. -/
def AnyPacket (_ : Nat) (_ : OutgoingPacket) : Prop := True

/-- Where nothing is said of the packets, nothing is lost. -/
theorem closed_anyPacket (m : Detached) : Closed AnyPacket m :=
  ⟨fun _ _ _ _ => trivial, fun _ _ _ => trivial, fun _ _ _ _ => trivial,
    fun _ _ _ _ _ _ _ => trivial, fun _ _ => trivial⟩

/-- Every act of the send side keeps the queue. -/
theorem Queue.txAct {inp : Option Bytes} {l : Bytes} {m m' : Detached}
    (h : Queue AnyPacket m.sock lo f) (ha : TxAct inp l m m') :
    ∃ lo' f', Queue AnyPacket m'.sock lo' f' := h.txActOf (closed_anyPacket m) ha

/-- The FIN takes the one place in the window that data leaves free. -/
theorem Queue.queueFin {m : Detached} (h : Queue ok m.sock lo f)
    (hfin : m.sock.finSent = false)
    (hok : ok (lo + m.sock.curWindowPackets) (m.newPacket stFin 0 [])) :
    Queue ok (queueFin m).sock lo
      (Function.update f (lo + m.sock.curWindowPackets) (some (m.newPacket stFin 0 []))) := by
  have hcwp : m.sock.curWindowPackets ≤ outgoingBufferMaxSize - 1 :=
    h.cap.resolve_right (fun hc => by rw [hfin] at hc; exact nomatch hc.1)
  have hlt : m.sock.curWindowPackets < outgoingBufferMaxSize := by
    unfold outgoingBufferMaxSize at *
    omega
  unfold UtpActs.queueFin
  rw [decide_eq_true hlt, check_true]
  have hflag : Queue ok { m.sock with finSent := true } lo f :=
    ⟨⟨h.ring, h.small, h.seq, .inl hcwp, h.fits, h.live, h.good, h.bytes, h.sound⟩, h.oldest⟩
  exact Queue.pushPacket (m := { m with sock := { m.sock with finSent := true } }) hflag
    (by decide) (Nat.zero_le _) (.inr ⟨rfl, hlt⟩) hok

/-- **EVERY ACT** keeps the queue. -/
theorem Queue.actOf {occ : Occasion} {l : Bytes} {m m' : Detached} (hc : Closed ok m)
    (h : Queue ok m.sock lo f) (ha : Act occ l m m') : ∃ lo' f', Queue ok m'.sock lo' f' := by
  cases ha with
  | tx ha => exact h.txActOf hc ha
  | fin _ hst hfin harm hwin => exact ⟨lo, _, h.queueFin hfin (hc.fin hwin _)⟩
  | inOrder _ _ _ _ _ _ _ hdrain => exact ⟨lo, f, h.of_view (txView_drain hdrain)⟩
  | ack => exact ⟨lo, f, h.of_view (txView_sendAck m _)⟩
  | schedule => exact ⟨lo, f, h.of_view (by unfold scheduleAck; split <;> rfl)⟩
  | keepAlive => exact ⟨lo, f, h.of_view (txView_sendAck _ _)⟩
  | _ => exact ⟨lo, f, h.of_view rfl⟩

theorem Queue.act {occ : Occasion} {l : Bytes} {m m' : Detached}
    (h : Queue AnyPacket m.sock lo f) (ha : Act occ l m m') :
    ∃ lo' f', Queue AnyPacket m'.sock lo' f' := h.actOf (closed_anyPacket m) ha

/-- The queue of a dialling socket: its SYN and nothing else. -/
theorem txView_dialled (ctx : Context) (addr : SocketAddr) (seed : UInt32) (rng : Rng) :
    ∃ t : UtpSock, t.connIdRecv = seed ∧
      txView (ctx.dialled addr seed rng).sock
        = ⟨CircularBuffer.new.put t.seqNr.toNat (some (Context.synPacket t)), t.seqNr + 1,
          1, 0, false, false⟩ := by
  unfold Context.dialled Context.dialSocket
  refine ⟨_, ?_, rfl⟩
  show 0 + seed = seed
  exact UInt32.zero_add seed

/-- A SYN is a well-formed packet. -/
theorem synPacket_ok (t : UtpSock) : PacketOk t.seqNr.toNat (Context.synPacket t) := by
  refine ⟨?_, ?_, fun _ => rfl⟩
  · rw [UInt16.ofNat_toNat]
    exact congrArg Hdr.seqNr (hdr_synPacket t)
  · rw [length_synPacket]
    rfl

/-- The queue of a dial holds the SYN. -/
theorem queue_syn {s t : UtpSock} (hok : ok t.seqNr.toNat (Context.synPacket t))
    (hv : txView s = ⟨CircularBuffer.new.put t.seqNr.toNat (some (Context.synPacket t)),
      t.seqNr + 1, 1, 0, false, false⟩) :
    Queue ok s t.seqNr.toNat
      (Function.update (fun _ => none) t.seqNr.toNat (some (Context.synPacket t))) := by
  obtain ⟨h1, h2, h3, h4, h5, h6⟩ := TxView.mk.inj hv
  have hsize : s.outbuf.size = 16 := by rw [h1]; rfl
  -- the ring holds the SYN and nothing else
  have honly : ∀ n p, Function.update (fun _ => none) t.seqNr.toNat
      (some (Context.synPacket t)) n = some p → n = t.seqNr.toNat ∧ p = Context.synPacket t := by
    intro n p hn
    by_cases hne : n = t.seqNr.toNat
    · rw [hne, Function.update_self] at hn
      exact ⟨hne, (Option.some.inj hn).symm⟩
    · rw [Function.update_of_ne hne] at hn
      exact nomatch hn
  refine ⟨⟨?_, by omega, ?_, ?_, by omega, ?_, ?_, ?_, h6⟩, fun _ => ?_⟩
  · rw [h1]
    exact (Represents.new _).put _ (Nat.le_refl _) (Nat.lt_add_of_pos_right (by decide)) rfl
  · rw [h2, h3, ← SeqNum.ofNat_add_one, UInt16.ofNat_toNat]
  · rw [h3]
    exact .inl (by decide)
  · intro n p hn
    rw [(honly n p hn).1, h3]
    exact Nat.lt_succ_self _
  · intro n p hn
    obtain ⟨rfl, rfl⟩ := honly n p hn
    exact ⟨synPacket_ok t, hok⟩
  · rw [h4, h3, Nat.Ico_succ_singleton, Finset.sum_singleton, Function.update_self]
    rfl
  · rw [Function.update_self]
    rfl

/-- The queue of an accepted socket is empty. -/
theorem txView_accepting (ctx : Context) (buf : Bytes) (addr : SocketAddr) :
    ∃ v : UInt16, txView (ctx.accepting buf addr).sock
      = ⟨CircularBuffer.new, v, 0, 0, false, false⟩ := ⟨_, rfl⟩

/-- The queue of an accepted socket is empty. -/
theorem queue_empty {s : UtpSock} {v : UInt16}
    (hv : txView s = ⟨CircularBuffer.new, v, 0, 0, false, false⟩) :
    Queue ok s v.toNat (fun _ => none) := by
  obtain ⟨h1, h2, h3, h4, h5, h6⟩ := TxView.mk.inj hv
  refine ⟨⟨?_, ?_, ?_, ?_, ?_, (fun _ _ h => nomatch h), (fun _ _ h => nomatch h), ?_, h6⟩, ?_⟩
  · rw [h1]
    exact Represents.new _
  · rw [h1]
    decide
  · rw [h2, h3, Nat.add_zero, UInt16.ofNat_toNat]
  · rw [h3]
    exact .inl (Nat.zero_le _)
  · rw [h3]
    exact Nat.zero_le _
  · rw [h4, h3, Nat.add_zero, Finset.Ico_self, Finset.sum_empty]
  · rw [h3]
    exact fun h => absurd h (Nat.lt_irrefl 0)

/-- **EVERY SOCKET OF EVERY REACHABLE ENGINE REPRESENTS A QUEUE.** -/
theorem reachable_queue {ctx : Context} (h : Reachable ctx) :
    EverySock (fun s => ∃ lo f, Queue AnyPacket s lo f) ctx := by
  refine Reachable.everySock (fun _ _ _ _ ha hq => ?_) (fun ctx addr seed rng => ?_)
    (fun ctx buf addr => ?_) h
  · obtain ⟨lo, f, hq⟩ := hq
    exact hq.act ha
  · obtain ⟨t, -, hv⟩ := txView_dialled ctx addr seed rng
    exact ⟨_, _, queue_syn trivial hv⟩
  · obtain ⟨v, hv⟩ := txView_accepting ctx buf addr
    exact ⟨_, _, queue_empty hv⟩

/-- Along an operation the socket keeps representing a queue. -/
theorem queue_actPath {occ : Occasion} {l : Bytes} {m m' : Detached} (h : ActPath occ l m m')
    (hq : ∃ lo f, Queue AnyPacket m.sock lo f) : ∃ lo f, Queue AnyPacket m'.sock lo f :=
  Steps.invariant (P := fun m : Detached => ∃ lo f, Queue AnyPacket m.sock lo f)
    (fun _ _ _ ha ⟨_, _, hq⟩ => hq.act ha) h hq

/-! ## The representation invariant in the source's own terms -/

/-- Sequence number `v` lies in the window `[seq_nr - cur_window_packets, seq_nr)`. -/
def InWindow (s : UtpSock) (v : UInt16) : Prop :=
  (v - s.oldest).toNat < s.curWindowPackets

/-- The packet in the queue that carries sequence number `oldest + j`. -/
def windowPacket (s : UtpSock) (j : Nat) : Option OutgoingPacket :=
  s.outbuf.get (s.oldest + UInt16.ofNat j).toNat

/-- The send queue of a socket is well formed. -/
structure SendQueueOk (s : UtpSock) : Prop where
  /-- the packet count stays below the buffer limit, with one place for a FIN -/
  count : s.curWindowPackets ≤ 1023 ∨ s.finSent = true ∧ s.curWindowPackets ≤ 1024
  fits : s.curWindowPackets ≤ s.outbuf.size
  /-- an occupied slot belongs to a number of the window, which its packet
      carries, and the packet is as long as it says -/
  owned : ∀ i p, s.outbuf.get i = some p → ∃ v, InWindow s v
    ∧ i % s.outbuf.size = v.toNat % s.outbuf.size
    ∧ seqNr p.data = v ∧ p.data.length = 20 + p.payload
  oldest : 0 < s.curWindowPackets → (s.outbuf.get s.oldest.toNat).isSome = true
  /-- `cur_window` is the sum of the payloads in flight -/
  bytes : s.curWindow = ∑ j ∈ Finset.range s.curWindowPackets, flight (windowPacket s j)
  /-- no `debug_assert!` about the window has failed and no subtraction from
      `cur_window` has underflowed -/
  sound : s.windowFault = false

/-- The queue, in terms of the fields of the socket. -/
theorem Queue.sendQueueOk (h : Queue ok s lo f) : SendQueueOk s := by
  have hsum : (∑ n ∈ Finset.Ico lo (lo + s.curWindowPackets), flight (f n))
      = ∑ j ∈ Finset.range s.curWindowPackets, flight (windowPacket s j) := by
    rw [Finset.sum_Ico_eq_sum_range, Nat.add_sub_cancel_left]
    refine Finset.sum_congr rfl (fun j hj => ?_)
    unfold windowPacket
    rw [h.oldest_eq, ← UInt16.ofNat_add, h.get_number (Nat.le_add_right _ _)
      (Nat.add_lt_add_left (Finset.mem_range.mp hj) lo)]
  refine ⟨h.cap, h.fits, fun i p hp => ?_, fun hpos => ?_, h.bytes.trans hsum, h.sound⟩
  · obtain ⟨n, hle, -, hmod, hfn⟩ := h.ring.slot hp
    have hlt := h.live n p hfn
    obtain ⟨hpk, -⟩ := h.good n p hfn
    refine ⟨UInt16.ofNat n, ?_, ?_, hpk.seq, hpk.length⟩
    · unfold InWindow
      rw [h.oldest_eq, SeqNum.toNat_ofNat_sub hle]
      have := h.cwp_le
      omega
    · rw [wrap_mod_size _ h.small n, hmod]
  · rw [h.oldest_eq, h.get_number (Nat.le_refl _) (by omega)]
    exact h.oldest hpos

/-- The send-queue invariant holds of every socket of every reachable engine,
    whatever datagrams, writes, closes and timer ticks led to it. -/
theorem send_queue_invariant {ctx : Context} (h : Reachable ctx) {key : Key} {s : UtpSock}
    (hs : ctx.sockets.lookup key = some s) : SendQueueOk s := by
  obtain ⟨lo, f, hq⟩ := reachable_queue h key s hs
  exact hq.sendQueueOk

/-- A controller that opens the window by a packet for every ack. -/
def eagerFpu : Fpu :=
  { idleFpu with
    ssCwnd := fun maxWindow _ packetSize => maxWindow + packetSize
    nearTarget := fun _ _ => false }

/-- A run in which an accepted connection writes three bytes one by one, the
    first of which is acked, its application closes it, and the timer runs out. -/
def lossyOps : List Op :=
  [arrives (datagram stSyn 1000 1 0 []),
    arrives (setWindowSize (datagram stData 1001 2 52654 [7]) 65535), .write acceptedKey [1],
    arrives (setReplyMicro (setWindowSize (datagram stState 1001 3 52655 []) 65535) 5),
    .write acceptedKey [2], .write acceptedKey [3], .close acceptedKey, .elapse ⟨5000000⟩,
    .checkTimeouts [acceptedKey]]

/-- Of the two bytes in flight one is sent again and one is lost, and the FIN waits
    behind them. -/
theorem send_queue_invariant_lossy :
    ∃ ctx s, Reachable ctx ∧ ctx.sockets.lookup acceptedKey = some s ∧ s.curWindowPackets = 3
      ∧ s.curWindow = 1 ∧ (s.outbuf.get 52657).map (·.needResend) = some true
      ∧ (s.outbuf.get 52658).map (·.transmissions) = some 0 ∧ SendQueueOk s := by
  have hstart : Reachable (Context.new ⟨0⟩ ⟨0⟩ (fun _ => none) eagerFpu
      (fun _ => ConnCell.new (.v4 0 0))) := .new _ _ _ _ _
  have heval : ((Context.new ⟨0⟩ ⟨0⟩ (fun _ => none) eagerFpu
      (fun _ => ConnCell.new (.v4 0 0))).run lossyOps).bind (fun ctx =>
        (ctx.sockets.lookup acceptedKey).map (fun s => decide (s.curWindowPackets = 3
          ∧ s.curWindow = 1 ∧ (s.outbuf.get 52657).map (·.needResend) = some true
          ∧ (s.outbuf.get 52658).map (·.transmissions) = some 0))) = some true := by
    decide +kernel
  obtain ⟨ctx, hrun, hsock⟩ := Option.bind_eq_some_iff.mp heval
  obtain ⟨s, hs, hfacts⟩ := Option.map_eq_some_iff.mp hsock
  obtain ⟨hcwp, hflight, hlost, hfin⟩ := of_decide_eq_true hfacts
  have hreach : Reachable ctx := reachable_run lossyOps hstart hrun
  exact ⟨ctx, s, hreach, hs, hcwp, hflight, hlost, hfin, send_queue_invariant hreach hs⟩

end UtpSendQueue
