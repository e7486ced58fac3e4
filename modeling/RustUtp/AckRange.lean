import RustUtp.FastResend

/-! # The ack range check is exact

    Two wrapping comparisons, a window size that saturates at three, and a
    wrapping subtraction decide what an ack number is worth.  Together they are
    an interval: an ack passes exactly when it lies at most
    `cur_window_packets + 3` behind the last number used, wherever the numbers
    stand on the circle; and it then covers exactly the packets of the window
    up to the acked one. -/

namespace UtpAckRange

open UtpCircular UtpPacket UtpUtil UtpConnShared UtpEngine UtpEngine.Detached UtpActs
open UtpReceive UtpSendQueue UtpFastResend LabelledPath

/-- How far behind the last number used the ack is. -/
def ackDistance (s : UtpSock) (pkAckNr : UInt16) : Nat := (s.seqNr - 1 - pkAckNr).toNat

/-- What `process_incoming` does once the ack number is accepted. -/
def afterAckCheck (m : Detached) (buf : Bytes) (syn : Bool) : Detached × Nat :=
  if headerSize > buf.length then (m, 0)
  else
    let walk := skipExtensions buf m.sock.extensions
    let m := { m with sock := { m.sock with extensions := walk.1 } }
    match walk.2 with
    | none => (m, 0)
    | some w =>
        let m := m.noteReceipt (seqNr buf)
        if syn then (m, 0) else m.processChecked buf w

/-- The numbers of the send window that are not younger than the ack. -/
def ackedNumbers (s : UtpSock) (pkAckNr : UInt16) : Finset Nat :=
  (Finset.range s.curWindowPackets).filter
    (fun j => (pkAckNr - (s.oldest + UInt16.ofNat j)).toNat < 2 ^ 15)

/-- The socket at the point where the cumulative ack starts. -/
def beforeAcks (m : Detached) (buf : Bytes) (selack : Option (Nat × Nat)) (acks : Nat) :
    Detached :=
  (((m.measure buf selack acks).noteWindow buf).advanceState (packetType buf) acks).updateFastResend
    (ackNr buf)

/-! ## The interval -/

/-- **THE CHECK IS AN INTERVAL**, the antipodal number included. -/
theorem ackOutOfRange_iff {s : UtpSock} (hcwp : s.curWindowPackets ≤ 1024) (a : UInt16) :
    s.ackOutOfRange a = false ↔ ackDistance s a ≤ s.curWindowPackets + 3 := by
  have hwindow : max ((s.curWindowPackets + ackNrAllowedWindow) % 2 ^ 16) ackNrAllowedWindow
      = s.curWindowPackets + 3 := by
    unfold ackNrAllowedWindow
    omega
  have hback : a - (s.seqNr - 1 - UInt16.ofNat (s.curWindowPackets + 3))
      = UInt16.ofNat (s.curWindowPackets + 3) - (s.seqNr - 1 - a) := by
    grind
  have hnum : (UInt16.ofNat (s.curWindowPackets + 3)).toNat = s.curWindowPackets + 3 := by
    rw [UInt16.toNat_ofNat']
    omega
  have hlt := (s.seqNr - 1 - a).toNat_lt
  unfold UtpSock.ackOutOfRange ackDistance
  dsimp only
  rw [hwindow, Bool.or_eq_false_iff, Bool.eq_false_iff, Bool.eq_false_iff, Ne, Ne,
    compareLess_iff, compareLess_iff, hback, toNat_sub_eq (UInt16.ofNat _), hnum]
  omega

/-- The ack check of `process_incoming`, for a datagram that is not a SYN. -/
theorem processIncoming_check {m : Detached} {buf : Bytes} (hkind : packetType buf < stNumStates)
    (hsyn : packetType buf ≠ stSyn) (syn : Bool) :
    m.processIncoming buf syn
      = if m.sock.ackOutOfRange (ackNr buf) = true then (m.readClock, 0)
        else afterAckCheck m.readClock buf syn := by
  have hsame : m.readClock.sock = m.sock := rfl
  unfold processIncoming
  dsimp only
  rw [if_neg (UInt8.not_le.mpr hkind), hsame]
  by_cases hrange : m.sock.ackOutOfRange (ackNr buf) = true
  · rw [if_pos ⟨.inl hsyn, hrange⟩, if_pos hrange]
  · rw [if_neg (fun h => hrange h.2), if_neg hrange]
    rfl

/-! ## The packets an ack covers -/

/-- The distance of the ack from a number of the window. -/
theorem toNat_ack_sub {s : UtpSock} (hcwp : s.curWindowPackets ≤ 1024) {a : UInt16} {j : Nat}
    (hj : j < s.curWindowPackets) :
    (a - (s.oldest + UInt16.ofNat j)).toNat
      = (65536 + (s.curWindowPackets - 1 - j) - ackDistance s a) % 65536 := by
  have hsplit : a - (s.oldest + UInt16.ofNat j)
      = (UInt16.ofNat s.curWindowPackets - 1 - UInt16.ofNat j) - (s.seqNr - 1 - a) := by
    unfold UtpSock.oldest
    grind
  have hnum : UInt16.ofNat s.curWindowPackets - 1 - UInt16.ofNat j
      = UInt16.ofNat (s.curWindowPackets - 1 - j) := by
    rw [SeqNum.ofNat_sub_one (by omega), ← UInt16.ofNat_sub (by omega)]
  rw [hsplit, hnum, toNat_sub_eq, UInt16.toNat_ofNat']
  unfold ackDistance
  omega

/-- A number of the window is not younger than an acceptable ack exactly when it
    lies at least as far behind. -/
theorem covered_iff {s : UtpSock} (hcwp : s.curWindowPackets ≤ 1024) {a : UInt16}
    (hrange : ackDistance s a ≤ s.curWindowPackets + 3) {j : Nat}
    (hj : j < s.curWindowPackets) :
    (a - (s.oldest + UInt16.ofNat j)).toNat < 2 ^ 15
      ↔ j < s.curWindowPackets - ackDistance s a := by
  rw [toNat_ack_sub hcwp hj]
  omega

/-- The count, from the distance of the ack number. -/
theorem acksOf_eq {s : UtpSock} (hcwp : s.curWindowPackets ≤ 1024) {a : UInt16}
    (hrange : ackDistance s a ≤ s.curWindowPackets + 3) :
    s.acksOf a = s.curWindowPackets - ackDistance s a := by
  have hsplit : a - (s.seqNr - 1 - UInt16.ofNat s.curWindowPackets)
      = UInt16.ofNat s.curWindowPackets - (s.seqNr - 1 - a) := by
    grind
  have hcount : (a - (s.seqNr - 1 - UInt16.ofNat s.curWindowPackets)).toNat
      = (65536 + s.curWindowPackets - ackDistance s a) % 65536 := by
    rw [hsplit, toNat_sub_eq, UInt16.toNat_ofNat']
    unfold ackDistance
    omega
  unfold UtpSock.acksOf
  dsimp only
  rw [hcount]
  by_cases hold : s.curWindowPackets < ackDistance s a
  · rw [if_pos (by omega)]
    omega
  · rw [if_neg (by omega)]
    omega

/-- **AN ACK IS WORTH THE NUMBERS IT COVERS**, none for an old one. -/
theorem acksOf_eq_card {s : UtpSock} (hcwp : s.curWindowPackets ≤ 1024) {a : UInt16}
    (hrange : ackDistance s a ≤ s.curWindowPackets + 3) :
    s.acksOf a = (ackedNumbers s a).card := by
  have hset : ackedNumbers s a = Finset.range (s.curWindowPackets - ackDistance s a) := by
    ext j
    unfold ackedNumbers
    rw [Finset.mem_filter, Finset.mem_range, Finset.mem_range]
    constructor
    · rintro ⟨hj, hcov⟩
      exact (covered_iff hcwp hrange hj).mp hcov
    · intro hj
      have hlt : j < s.curWindowPackets := by omega
      exact ⟨hlt, (covered_iff hcwp hrange hlt).mpr hj⟩
  rw [hset, Finset.card_range, acksOf_eq hcwp hrange]

/-! ## The cumulative ack stays behind the ack number -/

/-- Shrinking the window empties no slot. -/
theorem outbuf_shrinkLoop (n : Nat) :
    ∀ m : Detached, (shrinkLoop n m).sock.outbuf = m.sock.outbuf := by
  induction n with
  | zero => intro m; rfl
  | succ n ih =>
      intro m
      rw [shrinkLoop]
      split
      · rw [ih]
      · rfl

/-- Packets past the acked ones stay in their slots. -/
theorem get_ackCumulative {m : Detached} {lo : Nat} {f : Nat → Option OutgoingPacket}
    (hq : Queue AnyPacket m.sock lo f) {acks j : Nat} (hacks : acks ≤ m.sock.curWindowPackets)
    (hj : acks ≤ j) (hlt : j < m.sock.curWindowPackets) :
    (ackCumulative acks m).sock.outbuf.get (m.sock.oldest + UInt16.ofNat j).toNat
      = m.sock.outbuf.get (m.sock.oldest + UInt16.ofNat j).toNat := by
  obtain ⟨k, hacked, hbody, hend⟩ := hq.toBody.ackLoop acks m lo f hacks
  have hk := hacked.le
  have hshrunk : (ackCumulative acks m).sock.outbuf = (ackLoop acks m).sock.outbuf :=
    outbuf_shrinkLoop _ _
  rw [hshrunk, hq.oldest_eq, ← UInt16.ofNat_add, hbody.get_number (by omega) (by omega),
    hq.get_number (by omega) (by omega)]
  exact if_neg (by omega)

/-- The cumulative ack starts on the window the ack was counted on, or on that
    window and one more packet. -/
theorem beforeAcks_spec {m : Detached} {buf : Bytes} (selack : Option (Nat × Nat))
    (hq : ∃ lo f, Queue AnyPacket m.sock lo f) :
    ∃ m₁, (∃ lo f, Queue AnyPacket m₁.sock lo f)
      ∧ m₁ = beforeAcks m buf selack (m.sock.acksOf (ackNr buf))
      ∧ AcksUpTo m₁.sock (ackNr buf) (m.sock.acksOf (ackNr buf)) := by
  have hmeas := quiet_measure m buf selack (m.sock.acksOf (ackNr buf))
  have hnote := quiet_noteWindow (m.measure buf selack (m.sock.acksOf (ackNr buf))) buf
  have hquiet := hmeas.trans hnote
  have hpath : TxPath (some buf) [] m
      ((m.measure buf selack (m.sock.acksOf (ackNr buf))).noteWindow buf) :=
    (hmeas.path (.measure m buf selack rfl)).silent (hnote.path (.noteWindow _ buf rfl))
  obtain ⟨hadv, hacks⟩ := path_advanceState
    ((m.measure buf selack (m.sock.acksOf (ackNr buf))).noteWindow buf) buf
    (m.sock.acksOf (ackNr buf)) ((acksOf_spec m.sock (ackNr buf)).quiet hquiet)
  have hfast := quiet_updateFastResend
    (((m.measure buf selack (m.sock.acksOf (ackNr buf))).noteWindow buf).advanceState
      (packetType buf) (m.sock.acksOf (ackNr buf))) (ackNr buf)
  refine ⟨_, ?_, rfl, hacks.quiet hfast⟩
  exact queue_path ((hpath.silent hadv).silent (hfast.path (.updateFastResend _ buf rfl))) hq

/-- An ack that covers packets up to its number covers no younger one. -/
theorem young_of_acksUpTo {s : UtpSock} (hcwp : s.curWindowPackets ≤ 1024) {a : UInt16}
    {acks j : Nat} (hacks : AcksUpTo s a acks) (hj : j < acks) :
    (a - (s.oldest + UInt16.ofNat j)).toNat < 2 ^ 15 := by
  have hcount := hacks.2 (by omega)
  have hsplit : a - (s.oldest + UInt16.ofNat j) = (a - (s.oldest - 1)) - UInt16.ofNat (j + 1) := by
    rw [← SeqNum.ofNat_add_one]
    grind
  have hle := hacks.1
  rw [hsplit, toNat_sub_eq, ← hcount, UInt16.toNat_ofNat']
  omega

/-! ## The result -/

/-- **THE ACK RANGE CHECK IS EXACT**: a datagram that is not a SYN gets past it
    exactly when its ack lies at most `cur_window_packets + 3` behind the last
    number used.  What it is then worth is the count of the window's numbers
    that are not younger than it, the guard on that count holds, and the
    cumulative ack leaves every younger packet where it is. -/
theorem ack_range_exact {ctx : Context} (h : Reachable ctx) {key : Key} {s : UtpSock}
    (hs : ctx.sockets.lookup key = some s) {buf : Bytes}
    (hkind : packetType buf < stNumStates) (hsyn : packetType buf ≠ stSyn) (syn : Bool) :
    (ctx.detach key s).processIncoming buf syn
        = (if ackDistance s (ackNr buf) ≤ s.curWindowPackets + 3 then
            afterAckCheck (ctx.detach key s).readClock buf syn
          else ((ctx.detach key s).readClock, 0))
      ∧ (ackDistance s (ackNr buf) ≤ s.curWindowPackets + 3 →
        ∀ selack : Option (Nat × Nat),
          let m := admitted (ctx.detach key s) buf
          let acks := m.sock.acksOf (ackNr buf)
          let m₁ := beforeAcks m buf selack acks
          acks ≤ s.curWindowPackets
            ∧ acks = (ackedNumbers s (ackNr buf)).card
            ∧ acks ≤ (m.measure buf selack acks).sock.curWindowPackets
            ∧ (m.measure buf selack acks).applyAcks buf acks
                = (ackCumulative acks m₁).flushNagle.fastTimeoutRetry
            ∧ ∀ j, j < m₁.sock.curWindowPackets →
              2 ^ 15 ≤ (ackNr buf - (m₁.sock.oldest + UInt16.ofNat j)).toNat →
              (ackCumulative acks m₁).sock.outbuf.get (m₁.sock.oldest + UInt16.ofNat j).toNat
                = m₁.sock.outbuf.get (m₁.sock.oldest + UInt16.ofNat j).toNat) := by
  obtain ⟨lo, f, hq⟩ := reachable_queue h key s hs
  have hcwp := hq.cwp_le
  constructor
  · rw [processIncoming_check hkind hsyn]
    have hiff := ackOutOfRange_iff hcwp (ackNr buf)
    by_cases hin : ackDistance s (ackNr buf) ≤ s.curWindowPackets + 3
    · have hpass : ¬ (ctx.detach key s).sock.ackOutOfRange (ackNr buf) = true :=
        Bool.eq_false_iff.mp (hiff.mpr hin)
      rw [if_neg hpass, if_pos hin]
    · have hdrop : (ctx.detach key s).sock.ackOutOfRange (ackNr buf) = true :=
        Bool.not_eq_false _ |>.mp (mt hiff.mp hin)
      rw [if_pos hdrop, if_neg hin]
  · intro hin selack m acks m₁
    have hsame : acks = s.acksOf (ackNr buf) := rfl
    have hquiet := quiet_measure m buf selack acks
    have hguard : acks ≤ (m.measure buf selack acks).sock.curWindowPackets :=
      ((acksOf_spec m.sock (ackNr buf)).quiet hquiet).1
    obtain ⟨m₂, ⟨lo₂, f₂, hq₂⟩, hm₂, hacks⟩ :=
      @beforeAcks_spec _ buf selack ⟨lo, f, (hq.of_view rfl : Queue AnyPacket m.sock lo f)⟩
    obtain rfl : m₂ = m₁ := hm₂
    refine ⟨(acksOf_spec s (ackNr buf)).1, ?_, hguard, ?_, fun j hj hyoung => ?_⟩
    · rw [hsame, acksOf_eq_card hcwp hin]
    · unfold applyAcks
      rw [if_pos hguard]
      rfl
    · refine get_ackCumulative hq₂ hacks.1 (Nat.not_lt.mp (fun hlt => ?_)) hj
      have := young_of_acksUpTo hq₂.cwp_le hacks hlt
      omega

/-- The answer to a dial passes the check and acks the SYN. -/
theorem ack_range_exact_synAck :
    ∃ ctx s, Reachable ctx ∧ ctx.sockets.lookup firstKey = some s
      ∧ (admitted (ctx.detach firstKey s) (synAck 0xcdaf 26100)).sock.acksOf
          (ackNr (synAck 0xcdaf 26100)) ≤ s.curWindowPackets := by
  obtain ⟨ctx, s, hreach, hs, hdist⟩ :=
    detachedAfter_of 0 [.connect peerAddr 1] firstKey
      (Q := fun m => ackDistance m.sock (ackNr (synAck 0xcdaf 26100)) ≤ m.sock.curWindowPackets + 3)
      (by decide +kernel)
  have hkind : packetType (synAck 0xcdaf 26100) < stNumStates := by decide
  have hsyn : packetType (synAck 0xcdaf 26100) ≠ stSyn := by decide
  exact ⟨ctx, s, hreach, hs, ((ack_range_exact hreach hs hkind hsyn false).2 hdist none).1⟩

end UtpAckRange
