import RustUtp.SendQueue
import RustUtp.Receive

/-! # The fast-resend cursor — where an ack leaves it

    `fastResendSeqNr` is the next packet a socket may resend on the word of
    duplicate or selective acks.  An ack moves it up to the first packet that
    is still outstanding, but only if the cursor looks older than that packet;
    resends move it on from there.  Positions are measured by their distance
    `past` the acked number: the cursor is inside the stream when it is at most
    as far past it as `seqNr`.  An accepted socket starts its cursor at its
    first number; a dialling one leaves it at 1, wherever its numbers start. -/

namespace UtpFastResend

open UtpCircular UtpPacket UtpUtil UtpConnShared UtpEngine UtpEngine.Detached UtpActs
open UtpReceive UtpSendQueue LabelledPath

/-! ## Distances -/

/-- How far `v` lies past the first number that an ack of `a` leaves open. -/
def past (a v : UInt16) : Nat := (v - a - 1).toNat

/-- A distance is less than the number space. -/
theorem past_lt (a v : UInt16) : past a v < 65536 := UInt16.toNat_lt _

/-- The difference of two numbers, without the wrap. -/
theorem toNat_sub_eq (v w : UInt16) : (v - w).toNat = (65536 + v.toNat - w.toNat) % 65536 := by
  have hw := w.toNat_lt
  rw [UInt16.toNat_sub]
  congr 1
  omega

/-- The distance between two numbers is the difference of how far past they
    are. -/
theorem toNat_sub_past (a v w : UInt16) :
    (v - w).toNat = (65536 + past a v - past a w) % 65536 := by
  have hsplit : v - w = (v - a - 1) - (w - a - 1) := by grind
  rw [hsplit, toNat_sub_eq]
  rfl

/-- Going on from a number, modulo the number space. -/
theorem past_add (a v w : UInt16) : past a (v + w) = (past a v + w.toNat) % 65536 := by
  have hsplit : v + w - a - 1 = (v - a - 1) + w := by grind
  unfold past
  rw [hsplit, UInt16.toNat_add]

/-- The first number that an ack leaves open is not past it. -/
theorem past_self (a : UInt16) : past a (a + 1) = 0 := by
  have hzero : a + 1 - a - 1 = 0 := by grind
  unfold past
  rw [hzero]
  rfl

/-- The masked difference of the code is the 16-bit one. -/
theorem masked_sub (v w : UInt16) :
    ((v.toUInt32 - w.toUInt32) &&& ackNrMask).toNat = (v - w).toNat := by
  have hv := v.toNat_lt
  have hw := w.toNat_lt
  have hmask : ackNrMask.toNat = 2 ^ 16 - 1 := by decide
  rw [UInt32.toNat_and, hmask, Nat.and_two_pow_sub_one_eq_mod, UInt32.toNat_sub,
    UInt16.toNat_toUInt32, UInt16.toNat_toUInt32, toNat_sub_eq]
  omega

/-- The wrapping comparison: `v` counts as older than `w` when it is more than
    half the number space past it. -/
theorem compareLess_iff (v w : UInt16) :
    wrappingCompareLess v.toUInt32 w.toUInt32 ackNrMask = true ↔ 32768 < (v - w).toNat := by
  unfold wrappingCompareLess
  dsimp only
  rw [decide_eq_true_iff, UInt32.lt_iff_toNat_lt, masked_sub, masked_sub, toNat_sub_eq,
    toNat_sub_eq]
  have hv := v.toNat_lt
  have hw := w.toNat_lt
  omega

/-- The cursor is moved if it is more than half the number space past the ack,
    that is, if it looks older. -/
theorem compareLess_past (a v : UInt16) :
    wrappingCompareLess v.toUInt32 (a + 1).toUInt32 ackNrMask = true ↔ 32768 < past a v := by
  rw [compareLess_iff]
  have hsplit : v - (a + 1) = v - a - 1 := by grind
  rw [hsplit]
  rfl

/-- The cursor lies between the first number that an ack of `a` leaves open and
    the next number to be used. -/
def CursorInside (s : UtpSock) (a : UInt16) : Prop :=
  (s.seqNr - s.resend.fastResendSeqNr).toNat ≤ (s.seqNr - a - 1).toNat

instance (s : UtpSock) (a : UInt16) : Decidable (CursorInside s a) :=
  inferInstanceAs (Decidable (_ ≤ _))

/-- Being inside, as a comparison of two distances from the ack. -/
theorem inside_iff_past (a seq c : UInt16) :
    (seq - c).toNat ≤ (seq - a - 1).toNat ↔ past a c ≤ past a seq := by
  rw [toNat_sub_past a]
  have hseq := past_lt a seq
  have hc := past_lt a c
  show _ ≤ past a seq ↔ _
  omega

/-- An acceptable ack is at most a few numbers older than the window. -/
theorem past_seq_of_inRange {s : UtpSock} {a : UInt16} (hcwp : s.curWindowPackets ≤ 1024)
    (h : s.ackOutOfRange a = false) : past a s.seqNr ≤ 1027 := by
  unfold UtpSock.ackOutOfRange at h
  dsimp only at h
  rw [Bool.or_eq_false_iff] at h
  obtain ⟨hyoung, hold⟩ := h
  -- what the two comparisons say of the distances
  have hyoung' : ¬ 32768 < (s.seqNr - 1 - a).toNat := by
    rw [← compareLess_iff, hyoung]
    exact Bool.false_ne_true
  generalize hcw : max ((s.curWindowPackets + ackNrAllowedWindow) % 2 ^ 16) ackNrAllowedWindow
    = cw at hold
  have hbound : 3 ≤ cw ∧ cw ≤ 1027 := by
    unfold ackNrAllowedWindow at hcw
    omega
  have hold' : ¬ 32768 < (a - (s.seqNr - 1 - UInt16.ofNat cw)).toNat := by
    rw [← compareLess_iff, hold]
    exact Bool.false_ne_true
  -- both distances are counted back from the next number
  have hfar : s.seqNr - 1 - a = s.seqNr - a - 1 := by grind
  have hback : a - (s.seqNr - 1 - UInt16.ofNat cw) = UInt16.ofNat cw - (s.seqNr - a - 1) := by
    grind
  have hcwNat : (UInt16.ofNat cw).toNat = cw := by
    rw [UInt16.toNat_ofNat']
    omega
  rw [hfar] at hyoung'
  rw [hback, toNat_sub_eq, hcwNat] at hold'
  have hlt := past_lt a s.seqNr
  unfold past at hlt ⊢
  omega

/-! ## What leaves the cursor alone -/

/-- Everything the cursor's position is judged by. -/
structure CursorView where
  seqNr : UInt16
  cursor : UInt16

def cursorView (s : UtpSock) : CursorView := ⟨s.seqNr, s.resend.fastResendSeqNr⟩

/-- Transmitting a packet leaves the cursor. -/
theorem cursorView_sendPacketAt (m : Detached) (seq : UInt16) :
    cursorView (m.sendPacketAt seq).sock = cursorView m.sock := by
  unfold sendPacketAt
  split
  · rfl
  · show cursorView (Detached.sendData _ _ _).sock = _
    rw [sendData_sock]
    rfl

theorem cursorView_isFull (m : Detached) (bytes : Option Nat) :
    cursorView (m.isFull bytes).1.sock = cursorView m.sock := by
  unfold isFull
  split <;> rfl

theorem cursorView_flushLoop (packetSize : Nat) :
    ∀ (n : Nat) (i : UInt16) (m : Detached),
      cursorView (flushLoop packetSize n i m).1.sock = cursorView m.sock :=
  fun n => flushLoop_keeps (fun m => cursorView m.sock) cursorView_sendPacketAt
    (fun m => cursorView_isFull m none) packetSize n

/-- Taking an acked packet leaves the cursor: it is moved once for each
    datagram. -/
theorem cursorView_ackPacket (m : Detached) (seq : UInt16) :
    cursorView (m.ackPacket seq).1.sock = cursorView m.sock := by
  unfold ackPacket
  split
  · rfl
  · split <;> rfl

theorem cursorView_ackCumulative (acks : Nat) (m : Detached) :
    cursorView (ackCumulative acks m).sock = cursorView m.sock :=
  ackCumulative_keeps cursorView cursorView_ackPacket (fun _ _ => rfl) (fun _ _ => rfl) acks m

/-- The lone packet that was held back leaves the cursor. -/
theorem cursorView_flushNagle (m : Detached) :
    cursorView m.flushNagle.sock = cursorView m.sock := by
  unfold flushNagle
  split
  · split
    · split
      · exact cursorView_sendPacketAt m _
      · rfl
    · rfl
  · rfl

/-- Becoming writable does, too. -/
theorem cursorView_markWritable (m : Detached) :
    cursorView m.markWritable.sock = cursorView m.sock := by
  unfold markWritable
  split
  · dsimp only
    split
    · exact cursorView_isFull m none
    · rfl
  · rfl

/-! ## What moves it

    `a` is the number the datagram acks and the cursor has been brought up to
    it, so it is at most half the number space past `a`. -/

/-- The distances a datagram that acks `a` finds. -/
structure Settled (v : CursorView) (a : UInt16) : Prop where
  near : past a v.seqNr ≤ 1028
  cursor : past a v.cursor ≤ 32768

/-- The cursor of the one socket is inside the stream exactly when that of the
    other is, and outside of it stays where it is. -/
structure SameSide (a : UInt16) (s s' : UtpSock) : Prop where
  seqNr : s'.seqNr = s.seqNr
  settled : Settled (cursorView s') a
  inside : past a s'.resend.fastResendSeqNr ≤ past a s.seqNr
    ↔ past a s.resend.fastResendSeqNr ≤ past a s.seqNr
  outside : past a s.seqNr < past a s.resend.fastResendSeqNr →
    s'.resend.fastResendSeqNr = s.resend.fastResendSeqNr

/-- A step that leaves the cursor leaves its side. -/
theorem SameSide.of_view {a : UInt16} {s s' : UtpSock} (h : Settled (cursorView s) a)
    (hv : cursorView s' = cursorView s) : SameSide a s s' := by
  have hseq : s'.seqNr = s.seqNr := congrArg CursorView.seqNr hv
  have hcursor : s'.resend.fastResendSeqNr = s.resend.fastResendSeqNr :=
    congrArg CursorView.cursor hv
  refine ⟨hseq, by rw [hv]; exact h, ?_, fun _ => hcursor⟩
  rw [hcursor]

theorem SameSide.trans {a : UInt16} {s₁ s₂ s₃ : UtpSock} (h : SameSide a s₁ s₂)
    (h' : SameSide a s₂ s₃) : SameSide a s₁ s₃ := by
  refine ⟨h'.seqNr.trans h.seqNr, h'.settled, ?_, fun hout => ?_⟩
  · have hsecond := h'.inside
    rw [h.seqNr] at hsecond
    exact hsecond.trans h.inside
  · have hfirst := h.outside hout
    have hsecond := h'.outside
    rw [h.seqNr, hfirst] at hsecond
    exact hsecond hout

/-- Both cursors are inside. -/
theorem SameSide.of_inside {a : UInt16} {s s' : UtpSock} (h : Settled (cursorView s) a)
    (hseq : s'.seqNr = s.seqNr) (hin : past a s.resend.fastResendSeqNr ≤ past a s.seqNr)
    (hin' : past a s'.resend.fastResendSeqNr ≤ past a s.seqNr) : SameSide a s s' := by
  have hnear : past a s.seqNr ≤ 1028 := h.near
  refine ⟨hseq, ⟨?_, ?_⟩, ⟨fun _ => hin, fun _ => hin'⟩, fun hout => absurd hin (Nat.not_le.mpr hout)⟩
  · show past a s'.seqNr ≤ 1028
    rw [hseq]
    exact hnear
  · show past a s'.resend.fastResendSeqNr ≤ 32768
    omega

/-- A fast timeout resends the oldest packet only if the cursor points at it,
    and then the cursor was inside the stream. -/
theorem sameSide_fastTimeoutRetry {m : Detached} {a : UInt16}
    (h : Settled (cursorView m.sock) a) {lo : Nat} {f : Nat → Option OutgoingPacket}
    (hq : Queue AnyPacket m.sock lo f) : SameSide a m.sock m.fastTimeoutRetry.sock := by
  unfold fastTimeoutRetry
  split
  · split
    · exact SameSide.of_view h rfl
    · rename_i hcursor
      split
      · rename_i hsent
        -- the oldest packet is there, so the window is not empty
        have hbusy : 0 < m.sock.curWindowPackets := by
          unfold isSent at hsent
          split at hsent
          · rename_i p hp
            obtain ⟨n, hle, hlt, -⟩ := hq.find hp
            omega
          · exact nomatch hsent
        have hcwp := hq.cwp_le
        have hnear : past a m.sock.seqNr ≤ 1028 := h.near
        have hsettled : past a m.sock.resend.fastResendSeqNr ≤ 32768 := h.cursor
        have hlt := past_lt a m.sock.resend.fastResendSeqNr
        have hsum : m.sock.seqNr
            = m.sock.resend.fastResendSeqNr + UInt16.ofNat m.sock.curWindowPackets := by
          rw [← not_not.mp hcursor]
          unfold UtpSock.oldest
          grind
        have hdist := past_add a m.sock.resend.fastResendSeqNr
          (UInt16.ofNat m.sock.curWindowPackets)
        rw [← hsum, UInt16.toNat_ofNat'] at hdist
        have hnext := past_add a m.sock.resend.fastResendSeqNr 1
        have hone : (1 : UInt16).toNat = 1 := rfl
        rw [hone] at hnext
        have hview := cursorView_sendPacketAt
          ({ m with
            sock :=
              { m.sock with
                resend :=
                  { m.sock.resend with
                    fastResendSeqNr := m.sock.resend.fastResendSeqNr + 1 } } }) m.sock.oldest
        have hmoved := congrArg CursorView.cursor hview
        refine SameSide.of_inside h (congrArg CursorView.seqNr hview) (by omega) ?_
        refine Nat.le_trans (Nat.le_of_eq (congrArg (past a) hmoved)) ?_
        show past a (m.sock.resend.fastResendSeqNr + 1) ≤ past a m.sock.seqNr
        omega
      · exact SameSide.of_view h rfl
  · exact SameSide.of_view h rfl

/-! ## Selective acks -/

/-- The bits of a mask, from the top one down to the one below it. -/
theorem mem_bitsDown {top : Nat} {bits : Int} (h : bits ∈ bitsDown top) :
    ∃ i : Nat, i ≤ top ∧ bits = (i : Int) - 1 := by
  unfold bitsDown at h
  rw [List.mem_reverse, List.mem_map] at h
  obtain ⟨i, hi, rfl⟩ := h
  exact ⟨i, Nat.lt_succ_iff.mp (List.mem_range.mp hi), rfl⟩

/-- Bit `i - 1` of a mask is the number `i` past the acked one. -/
theorem past_seqOfBit (a : UInt16) (i : Nat) :
    past a (seqOfBit (a + 2) ((i : Int) - 1)) = i % 65536 := by
  have hsplit : a + 2 + UInt16.ofInt ((i : Int) - 1) - a - 1 = UInt16.ofInt (i : Int) := by
    rw [Int.sub_eq_add_neg, UInt16.ofInt_add, UInt16.ofInt_neg_one]
    grind
  unfold past seqOfBit
  rw [hsplit, UInt16.ofInt, UInt16.toNat_ofNat']
  omega

/-- A number of the selective-ack window that a mask can name lies before
    `seqNr`. -/
theorem past_of_inSackWindow {s : UtpSock} {a v : UInt16} (hcwp : s.curWindowPackets ≤ 1024)
    (hnear : past a s.seqNr ≤ 1028) (hv : past a v ≤ 4096) (h : inSackWindow s v = true) :
    past a v < past a s.seqNr := by
  unfold inSackWindow at h
  rw [decide_eq_true_iff] at h
  have hsplit : s.seqNr - v - 1 = s.seqNr - (v + 1) := by grind
  have hnext := past_add a v 1
  have hone : (1 : UInt16).toNat = 1 := rfl
  rw [hone] at hnext
  rw [hsplit, toNat_sub_past a, hnext] at h
  omega

/-- The state of the scan over a mask: the packets to resend lie in the stream,
    close after the cursor, and a set bit means that there is a stream. -/
structure Scanned (a : UInt16) (s : UtpSock) (st : SackScan) : Prop where
  view : cursorView st.m.sock = cursorView s
  cwp : st.m.sock.curWindowPackets = s.curWindowPackets
  resends : ∀ v ∈ st.resends, past a v < past a s.seqNr
    ∧ (v - s.resend.fastResendSeqNr).toNat ≤ 1024
  count : 0 < st.count → 0 < past a s.seqNr

/-- Only numbers that were pushed are resent. -/
theorem mem_pushResend {resends : List UInt16} {v w : UInt16} (h : w ∈ pushResend resends v) :
    w ∈ resends ∨ w = v := by
  unfold pushResend at h
  rw [List.mem_append, List.mem_singleton] at h
  rcases h with h | h
  · split at h
    · exact .inl (List.mem_of_mem_drop h)
    · exact .inl h
  · exact .inr h

/-- A number that is resent lies less than a window past the cursor, and was
    reported missing three times. -/
theorem near_of_wantsResend {s : UtpSock} {v : UInt16} {count : Nat}
    (h : wantsResend s v count = true) :
    (v - s.resend.fastResendSeqNr).toNat ≤ 1024 ∧ 3 ≤ count := by
  unfold wantsResend at h
  rw [Bool.and_eq_true, decide_eq_true_iff, decide_eq_true_iff] at h
  exact h

/-- Taking a packet out of the middle leaves the window. -/
theorem cwp_ackPacket (m : Detached) (seq : UInt16) :
    (m.ackPacket seq).1.sock.curWindowPackets = m.sock.curWindowPackets := by
  unfold ackPacket
  split
  · rfl
  · split <;> rfl

/-- One bit of the mask. -/
theorem scanned_step {a : UInt16} {s : UtpSock} {mask : Bytes} {st : SackScan} {bits : Int}
    (hcwp : s.curWindowPackets ≤ 1024) (hnear : past a s.seqNr ≤ 1028)
    (hbits : past a (seqOfBit (a + 2) bits) ≤ 4096) (h : Scanned a s st) :
    Scanned a s (sackStep (a + 2) mask st bits) := by
  have hseq : st.m.sock.seqNr = s.seqNr := congrArg CursorView.seqNr h.view
  have hcursor : st.m.sock.resend.fastResendSeqNr = s.resend.fastResendSeqNr :=
    congrArg CursorView.cursor h.view
  unfold sackStep
  dsimp only
  split
  · rename_i hwin
    -- the scan looks only at numbers that were sent
    have hin : past a (seqOfBit (a + 2) bits) < past a s.seqNr := by
      rw [← hseq]
      exact past_of_inSackWindow (by rw [h.cwp]; exact hcwp) (by rw [hseq]; exact hnear) hbits hwin
    have hpos : 0 < past a s.seqNr := Nat.lt_of_le_of_lt (Nat.zero_le _) hin
    split
    · split
      · exact ⟨(cursorView_ackPacket st.m _).trans h.view, (cwp_ackPacket st.m _).trans h.cwp,
          h.resends, fun _ => hpos⟩
      · split
        · -- the packet is missing and three are held above it: it is put on the stack
          rename_i hwants
          refine ⟨h.view, h.cwp, fun w hw => ?_, fun _ => hpos⟩
          rcases mem_pushResend hw with hold | rfl
          · exact h.resends w hold
          · have hclose := (near_of_wantsResend hwants).1
            rw [hcursor] at hclose
            exact ⟨hin, hclose⟩
        · exact ⟨h.view, h.cwp, h.resends, fun _ => hpos⟩
    · -- not in flight: the bit is skipped
      exact ⟨h.view, h.cwp, h.resends, fun _ => hpos⟩
  · exact h

/-- The whole mask. The induction is on its bits. -/
theorem scanned_fold {a : UInt16} {s : UtpSock} {mask : Bytes}
    (hcwp : s.curWindowPackets ≤ 1024) (hnear : past a s.seqNr ≤ 1028) (l : List Int) :
    (∀ bits ∈ l, past a (seqOfBit (a + 2) bits) ≤ 4096) →
      ∀ st : SackScan, Scanned a s st →
        Scanned a s (l.foldl (sackStep (a + 2) mask) st) := by
  induction l with
  | nil => intro _ st h; exact h
  | cons bits rest ih =>
      intro hall st h
      rw [List.foldl_cons]
      exact ih (fun b hb => hall b (List.mem_cons_of_mem _ hb)) _
        (scanned_step hcwp hnear (hall bits List.mem_cons_self) h)

/-- The resend loop leaves the cursor alone, or right after a packet it
    resent. -/
theorem cursor_resendLoop (stack : List UInt16) :
    ∀ (quota : Nat) (m : Detached) (backOff : Bool),
      (resendLoop quota stack m backOff).1.sock.seqNr = m.sock.seqNr
        ∧ ((resendLoop quota stack m backOff).1.sock.resend.fastResendSeqNr
            = m.sock.resend.fastResendSeqNr
          ∨ ∃ v ∈ stack,
            (resendLoop quota stack m backOff).1.sock.resend.fastResendSeqNr = v + 1) := by
  induction stack with
  | nil => intro quota m backOff; cases quota <;> exact ⟨rfl, .inl rfl⟩
  | cons v rest ih =>
      intro quota m backOff
      cases quota with
      | zero => exact ⟨rfl, .inl rfl⟩
      | succ quota =>
          rw [resendLoop]
          -- below the cursor: it is passed over, and the quota stays
          split
          · obtain ⟨hseq, hcursor⟩ := ih (quota + 1) m backOff
            refine ⟨hseq, hcursor.imp id ?_⟩
            rintro ⟨w, hw, heq⟩
            exact ⟨w, List.mem_cons_of_mem _ hw, heq⟩
          · obtain ⟨hseq, hcursor⟩ := ih quota
              (setResend (m.sendPacketAt v) (fun r => { r with fastResendSeqNr := v + 1 })) true
            -- resending moves the cursor just above the packet
            have hsent : (m.sendPacketAt v).sock.seqNr = m.sock.seqNr :=
              congrArg CursorView.seqNr (cursorView_sendPacketAt m v)
            refine ⟨hseq.trans hsent, .inr ?_⟩
            rcases hcursor with hcursor | ⟨w, hw, heq⟩
            · exact ⟨v, List.mem_cons_self, hcursor⟩
            · exact ⟨w, List.mem_cons_of_mem _ hw, heq⟩

/-- A selective ack moves the cursor only inside the stream, and only if it was
    there before. -/
theorem sameSide_selectiveAck {m : Detached} {a : UInt16} {mask : Bytes}
    (h : Settled (cursorView m.sock) a) (hcwp : m.sock.curWindowPackets ≤ 1024)
    (hmask : mask.length ≤ 255) :
    SameSide a m.sock (m.selectiveAck (a + 2) mask).sock := by
  have hnear : past a m.sock.seqNr ≤ 1028 := h.near
  have hsettled : past a m.sock.resend.fastResendSeqNr ≤ 32768 := h.cursor
  unfold selectiveAck
  split
  · exact SameSide.of_view h rfl
  · dsimp only
    have hbits : ∀ bits ∈ bitsDown (mask.length * 8),
        past a (seqOfBit (a + 2) bits) ≤ 4096 := by
      intro bits hbits
      obtain ⟨i, hi, rfl⟩ := mem_bitsDown hbits
      rw [past_seqOfBit]
      omega
    have hscan : Scanned a m.sock
        ((bitsDown (mask.length * 8)).foldl (sackStep (a + 2) mask) ⟨m, 0, []⟩) :=
      scanned_fold hcwp hnear _ hbits ⟨m, 0, []⟩
        ⟨rfl, rfl, (fun v hv => nomatch hv), fun h => absurd h (Nat.lt_irrefl 0)⟩
    generalize (bitsDown (mask.length * 8)).foldl (sackStep (a + 2) mask) ⟨m, 0, []⟩ = st
      at hscan ⊢
    have hseq : st.m.sock.seqNr = m.sock.seqNr := congrArg CursorView.seqNr hscan.view
    have hcursor : st.m.sock.resend.fastResendSeqNr = m.sock.resend.fastResendSeqNr :=
      congrArg CursorView.cursor hscan.view
    -- the first packet to resend is the one right after the acked number
    have hstack : ∀ v ∈ (if wantsResend st.m.sock (a + 2 - 1) st.count then
          st.resends ++ [a + 2 - 1] else st.resends).reverse,
        past a v < past a m.sock.seqNr ∧ (v - m.sock.resend.fastResendSeqNr).toNat ≤ 1024 := by
      intro v hv
      rw [List.mem_reverse] at hv
      split at hv
      · rename_i hwants
        rw [List.mem_append, List.mem_singleton] at hv
        rcases hv with hv | rfl
        · exact hscan.resends v hv
        · obtain ⟨hclose, hcount⟩ := near_of_wantsResend hwants
          rw [hcursor] at hclose
          refine ⟨?_, hclose⟩
          have hfirst : a + 2 - 1 = a + 1 := by grind
          rw [hfirst, past_self]
          exact hscan.count (by omega)
      · exact hscan.resends v hv
    generalize List.reverse _ = stack at hstack ⊢
    obtain ⟨hseq', hmoved⟩ := cursor_resendLoop stack 4 st.m false
    generalize resendLoop 4 stack st.m false = r at hseq' hmoved ⊢
    have hseqr : r.1.sock.seqNr = m.sock.seqNr := hseq'.trans hseq
    rw [hcursor] at hmoved
    rcases hmoved with hsame | ⟨v, hv, hafter⟩
    · exact SameSide.of_view h (by
        show CursorView.mk r.1.sock.seqNr r.1.sock.resend.fastResendSeqNr = _
        rw [hseqr, hsame]
        rfl)
    · obtain ⟨hbefore, hclose⟩ := hstack v hv
      have hnext := past_add a v 1
      have hone : (1 : UInt16).toNat = 1 := rfl
      rw [hone] at hnext
      rw [toNat_sub_past a] at hclose
      have hlt := past_lt a m.sock.resend.fastResendSeqNr
      refine SameSide.of_inside h hseqr (by omega) ?_
      show past a r.1.sock.resend.fastResendSeqNr ≤ past a m.sock.seqNr
      rw [hafter]
      omega

/-! ## A dial in progress

    Until a dial is answered its queue holds the SYN, which carries no bytes,
    so the empty write that completes it is never refused. -/

/-- No packet of the ring carries a byte. -/
def NoPayload (b : CircularBuffer OutgoingPacket) : Prop :=
  ∀ n p, b.get n = some p → p.payload = 0

/-- Storing a packet without payload. -/
theorem NoPayload.put {b : CircularBuffer OutgoingPacket} (h : NoPayload b) (i : Nat)
    {v : Option OutgoingPacket} (hv : ∀ p, v = some p → p.payload = 0) :
    NoPayload (b.put i v) := by
  intro n p hp
  rw [CircularBuffer.get_put] at hp
  split at hp
  · exact hv p hp
  · exact h n p hp

/-- Emptying a slot. -/
theorem NoPayload.clear {b : CircularBuffer OutgoingPacket} (h : NoPayload b) (i : Nat) :
    NoPayload (b.put i none) :=
  h.put i (fun _ hp => nomatch hp)

/-- The queue of an unanswered dial. -/
structure Dialling (s : UtpSock) : Prop where
  finSent : s.finSent = false
  cwp : s.curWindowPackets ≤ 1
  payload : NoPayload s.outbuf

def DialInv (s : UtpSock) : Prop := s.state = .synSent → Dialling s

/-- Transmitting the SYN again keeps the dial. -/
theorem dialling_sendPacketAt {m : Detached} (h : Dialling m.sock) (seq : UInt16) :
    Dialling (m.sendPacketAt seq).sock := by
  cases hpkt : m.sock.outbuf.get seq.toNat with
  | none =>
      unfold sendPacketAt
      rw [hpkt]
      exact h
  | some pkt =>
    rw [sendPacketAt_sock hpkt]
    refine ⟨h.finSent, h.cwp, h.payload.put _ (fun p hp => ?_)⟩
    obtain rfl := Option.some.inj hp
    exact h.payload seq.toNat pkt hpkt

/-- Acking it does. -/
theorem dialling_ackPacket {m : Detached} (h : Dialling m.sock) (seq : UInt16) :
    Dialling (m.ackPacket seq).1.sock := by
  unfold ackPacket
  split
  · exact h
  · split
    · exact h
    · exact ⟨h.finSent, h.cwp, h.payload.clear _⟩

theorem Dialling.shrink {s : UtpSock} (h : Dialling s) :
    Dialling { s with curWindowPackets := s.curWindowPackets - 1 } :=
  ⟨h.finSent, (Nat.sub_le _ _).trans h.cwp, h.payload⟩

theorem dialling_ackLoop (n : Nat) :
    ∀ m : Detached, Dialling m.sock → Dialling (ackLoop n m).sock := by
  induction n with
  | zero => intro m h; exact h
  | succ n ih =>
      intro m h
      have hacked := dialling_ackPacket h m.sock.oldest
      rw [ackLoop]
      generalize m.ackPacket m.sock.oldest = r at hacked ⊢
      split
      · exact hacked
      · exact ih _ hacked.shrink

theorem dialling_shrinkLoop (n : Nat) :
    ∀ m : Detached, Dialling m.sock → Dialling (shrinkLoop n m).sock := by
  induction n with
  | zero => intro m h; exact h
  | succ n ih =>
      intro m h
      rw [shrinkLoop]
      split
      · exact ih _ h.shrink
      · exact h

/-- Losing the SYN keeps the dial. -/
theorem dialling_markLost {m : Detached} (h : Dialling m.sock) (seq : UInt16) :
    Dialling (m.markLost seq).sock := by
  unfold markLost
  split
  · exact h
  · rename_i pkt hpkt
    split
    · exact h
    · refine ⟨h.finSent, h.cwp, h.payload.put _ (fun p hp => ?_)⟩
      obtain rfl := Option.some.inj hp
      exact h.payload seq.toNat pkt hpkt

variable {inp : Option Bytes} {occ : Occasion}

/-- No act of the send side queues a payload before the dial is answered. -/
theorem dialInv_txAct {l : Bytes} {m m' : Detached} (h : TxAct inp l m m')
    (hinv : DialInv m.sock) : DialInv m'.sock := by
  intro hst
  cases h with
  | sendPacket _ seq =>
      rw [UtpLifecycle.state_sendPacketAt] at hst
      exact dialling_sendPacketAt (hinv hst) seq
  -- a dialling socket cannot queue data
  | push _ n data hconn => exact nomatch hconn.symm.trans hst
  | extend _ p n data hconn => exact nomatch hconn.symm.trans hst
  | ackCum _ buf acks =>
      rw [UtpLifecycle.state_ackCumulative] at hst
      have hshrunk := dialling_shrinkLoop (ackLoop acks m).sock.curWindowPackets _
        (dialling_ackLoop acks m (hinv hst))
      exact ⟨hshrunk.finSent, hshrunk.cwp, hshrunk.payload⟩
  | ackSel =>
      rw [UtpLifecycle.state_ackPacket] at hst
      exact dialling_ackPacket (hinv hst) _
  | lose _ seq =>
      rw [UtpLifecycle.state_markLost] at hst
      exact dialling_markLost (hinv hst) seq
  | finAcked _ buf acks _ _ hfin _ =>
      -- no FIN can be acked before one was sent
      have hst' : m.sock.state = .synSent := by
        dsimp only at hst
        split at hst
        · exact nomatch hst
        · exact hst
      rw [(hinv hst').finSent] at hfin
      exact nomatch hfin
  | established => exact nomatch hst
  | dialed => exact nomatch hst
  | becomeFull => exact nomatch hst
  | becomeWritable => exact nomatch hst
  | quiet => exact ⟨(hinv hst).finSent, (hinv hst).cwp, (hinv hst).payload⟩
  | noteRcvWin => exact ⟨(hinv hst).finSent, (hinv hst).cwp, (hinv hst).payload⟩
  | checkIdle => exact ⟨(hinv hst).finSent, (hinv hst).cwp, (hinv hst).payload⟩

/-- What keeps the queue and leads to no dial keeps the dial in progress. -/
theorem dialInv_of_view {s s' : UtpSock} (h : DialInv s) (hv : sendView s' = sendView s) :
    DialInv s' := by
  intro hst
  have hstate : s.state = .synSent := (congrArg SendView.state hv).symm.trans hst
  have hfin : s'.finSent = s.finSent := congrArg SendView.finSent hv
  have hcwp : s'.curWindowPackets = s.curWindowPackets := congrArg SendView.curWindowPackets hv
  have hring : s'.outbuf = s.outbuf := congrArg SendView.outbuf hv
  exact ⟨by rw [hfin]; exact (h hstate).finSent, by rw [hcwp]; exact (h hstate).cwp,
    by rw [hring]; exact (h hstate).payload⟩

theorem dialInv_act {l : Bytes} {m m' : Detached} (h : Act occ l m m') (hinv : DialInv m.sock) :
    DialInv m'.sock := by
  cases h with
  | tx h => exact dialInv_txAct h hinv
  | closing => exact fun hst => ⟨(hinv hst).finSent, (hinv hst).cwp, (hinv hst).payload⟩
  | fin _ hconn =>
      intro hst
      rw [show m.sock.state = .synSent from hst] at hconn
      exact nomatch hconn
  | closeAcked => exact fun hst => nomatch hst
  | abandon => exact fun hst => nomatch hst
  | giveUp _ st hst =>
      intro hsent
      have hsent' : st = .synSent := hsent
      rcases hst with ⟨-, rfl⟩ | ⟨-, rfl⟩
      · exact nomatch hsent'
      · cases hreq : m.sock.closeRequested <;> rw [hreq] at hsent' <;> exact nomatch hsent'
  | noteSyn => exact fun hst => ⟨(hinv hst).finSent, (hinv hst).cwp, (hinv hst).payload⟩
  | noteFin => exact fun hst => ⟨(hinv hst).finSent, (hinv hst).cwp, (hinv hst).payload⟩
  | inOrder _ _ buf data _ hconn _ hdrain =>
      intro hst
      have hstate := congrArg SendView.state (sendView_drainPath hdrain)
      rw [show m.sock.state = .synSent from hstate.symm.trans hst] at hconn
      exact nomatch hconn
  | growIn => exact fun hst => ⟨(hinv hst).finSent, (hinv hst).cwp, (hinv hst).payload⟩
  | store => exact fun hst => ⟨(hinv hst).finSent, (hinv hst).cwp, (hinv hst).payload⟩
  | ack _ synack => exact dialInv_of_view hinv (sendView_sendAck m synack)
  | unlist => exact fun hst => ⟨(hinv hst).finSent, (hinv hst).cwp, (hinv hst).payload⟩
  | schedule => exact dialInv_of_view hinv (sendView_scheduleAck m)
  | keepAlive => exact dialInv_of_view hinv (sendView_sendKeepAlive m)
  | reset =>
      intro hst
      have hst' : (if m.sock.closeRequested then ConnState.destroy else .reset) = .synSent := hst
      cases hreq : m.sock.closeRequested <;> rw [hreq] at hst' <;> exact nomatch hst'

/-- **A DIAL HAS NO PAYLOAD** in any reachable state. -/
theorem reachable_dialInv {ctx : Context} (h : Reachable ctx) : EverySock DialInv ctx := by
  refine Reachable.everySock (fun _ _ _ _ hact => dialInv_act hact)
    (fun ctx addr seed rng _ => ?_) (fun ctx buf addr hst => nomatch hst) h
  obtain ⟨t, -, hv⟩ := txView_dialled ctx addr seed rng
  obtain ⟨hring, -, hcwp, -, hfin, -⟩ := TxView.mk.inj hv
  refine ⟨hfin, by rw [hcwp], ?_⟩
  rw [hring]
  have hempty : NoPayload CircularBuffer.new := by
    intro n p hp
    rw [CircularBuffer.get_new] at hp
    exact nomatch hp
  refine hempty.put _ (fun p hp => ?_)
  obtain rfl := Option.some.inj hp
  rfl

/-- A queue without payload counts no bytes. -/
theorem curWindow_zero {s : UtpSock} {lo : Nat} {f : Nat → Option OutgoingPacket}
    (hq : Queue AnyPacket s lo f) (h : NoPayload s.outbuf) : s.curWindow = 0 := by
  rw [hq.bytes]
  refine Finset.sum_eq_zero (fun n hn => ?_)
  obtain ⟨hle, hlt⟩ := Finset.mem_Ico.mp hn
  cases hf : f n with
  | none => rfl
  | some p =>
      rw [flight_some]
      have hzero : p.payload = 0 := h _ p ((hq.get_number hle hlt).trans hf)
      rw [hzero]
      exact ite_self 0

/-- An empty write into an unanswered dial's queue is not refused. -/
theorem room_for_empty {s : UtpSock} (hcwp : s.curWindowPackets ≤ 1) (hbytes : s.curWindow = 0) :
    s.fullFor (some 0) = false := by
  unfold UtpSock.fullFor
  dsimp only
  rw [Bool.or_eq_false_iff, decide_eq_false_iff_not, decide_eq_false_iff_not, hbytes,
    Nat.zero_min]
  unfold outgoingBufferMaxSize
  omega

/-- The empty write of a completed dial takes one number. -/
theorem cursorView_writeEmpty {m : Detached} (hst : m.sock.state = .connected)
    (hfin : m.sock.finSent = false) (hroom : m.sock.fullFor (some 0) = false) :
    cursorView (m.writeEngine []).1.sock
      = ⟨m.sock.seqNr + 1, m.sock.resend.fastResendSeqNr⟩ := by
  have hflag : (m.readClock.isFull (some 0)).2 = false := by
    unfold isFull
    rw [if_neg (by rw [show m.readClock.sock.fullFor (some 0) = false from hroom]
                   exact Bool.false_ne_true)]
  have hloop : ∀ packetSize, writeEngineLoop packetSize (([] : Bytes).length + 1) [] 0 m.readClock
      = ((m.readClock.writeOutgoingPacket 0 stData []).1, 0, true) := by
    intro packetSize
    rw [writeEngineLoop]
    simp only [List.length_nil, Nat.zero_min]
    rw [if_neg (by rw [hflag]; exact Bool.false_ne_true)]
    rfl
  unfold writeEngine
  rw [if_neg (not_not.mpr hst), if_neg (by rw [hfin]; exact Bool.false_ne_true)]
  dsimp only
  rw [hloop]
  show cursorView (flushLoop _ _ _ _).1.sock = _
  rw [cursorView_flushLoop]
  have harm : cursorView m.readClock.armTimer.sock = cursorView m.sock := by
    unfold armTimer
    split <;> rfl
  show CursorView.mk (m.readClock.armTimer.sock.seqNr + 1)
    m.readClock.armTimer.sock.resend.fastResendSeqNr = _
  rw [show m.readClock.armTimer.sock.seqNr = m.sock.seqNr from congrArg CursorView.seqNr harm,
    show m.readClock.armTimer.sock.resend.fastResendSeqNr = m.sock.resend.fastResendSeqNr from
      congrArg CursorView.cursor harm]

/-! ## The acks of one datagram -/

/-- The next number to be used once a packet has been acked: a dial that a
    state packet completes queues an empty packet. -/
def seqAfter (s : UtpSock) (buf : Bytes) : UInt16 :=
  if packetType buf = stState ∧ s.state = .synSent then s.seqNr + 1 else s.seqNr

/-- The answer to a dial queues an empty packet and leaves the cursor. -/
theorem cursorView_advanceState {m : Detached} {buf : Bytes} (acks : Nat)
    (hdial : DialInv m.sock) {lo : Nat} {f : Nat → Option OutgoingPacket}
    (hq : Queue AnyPacket m.sock lo f) :
    cursorView (m.advanceState (packetType buf) acks).sock
      = ⟨seqAfter m.sock buf, m.sock.resend.fastResendSeqNr⟩ := by
  unfold advanceState seqAfter
  dsimp only
  by_cases hdata : packetType buf = stData ∧ m.sock.state = .synRecv
  · have hno : ∀ st : ConnState, ¬ (packetType buf = stState ∧ st = .synSent) := by
      rintro st ⟨hty, -⟩
      rw [hdata.1] at hty
      exact absurd hty (by decide)
    rw [if_pos hdata, if_neg (hno _), if_neg (hno _)]
    split <;> rfl
  · rw [if_neg hdata]
    by_cases hstate : packetType buf = stState ∧ m.sock.state = .synSent
    · rw [if_pos hstate, if_pos hstate]
      have hd := hdial hstate.2
      have hbytes : m.sock.curWindow = 0 := curWindow_zero hq hd.payload
      exact cursorView_writeEmpty
        (m := ({ m with sock := { m.sock with state := .connected } } : Detached).notify
          (·.onConnect)) rfl hd.finSent (room_for_empty hd.cwp hbytes)
    · rw [if_neg hstate, if_neg hstate]
      split <;> rfl

/-- The cursor after an ack brought it up. -/
theorem updateFastResend_spec {m : Detached} {a : UInt16} (hnear : past a m.sock.seqNr ≤ 1028) :
    (m.updateFastResend a).sock.seqNr = m.sock.seqNr
      ∧ Settled (cursorView (m.updateFastResend a).sock) a
      ∧ (past a (m.updateFastResend a).sock.resend.fastResendSeqNr ≤ past a m.sock.seqNr
        ↔ 32768 < past a m.sock.resend.fastResendSeqNr
          ∨ past a m.sock.resend.fastResendSeqNr ≤ past a m.sock.seqNr)
      ∧ (past a m.sock.seqNr < past a (m.updateFastResend a).sock.resend.fastResendSeqNr →
        (m.updateFastResend a).sock.resend.fastResendSeqNr = m.sock.resend.fastResendSeqNr) := by
  unfold updateFastResend
  by_cases hless : 32768 < past a m.sock.resend.fastResendSeqNr
  · rw [if_pos ((compareLess_past a _).mpr hless)]
    have hfirst : past a (a + 1) ≤ past a m.sock.seqNr := by
      rw [past_self]
      exact Nat.zero_le _
    refine ⟨rfl, ⟨hnear, ?_⟩, ⟨fun _ => .inl hless, fun _ => hfirst⟩,
      fun hout => absurd hfirst (Nat.not_le.mpr hout)⟩
    show past a (a + 1) ≤ 32768
    rw [past_self]
    exact Nat.zero_le _
  · rw [if_neg (fun h => hless ((compareLess_past a _).mp h))]
    exact ⟨rfl, ⟨hnear, Nat.not_lt.mp hless⟩,
      ⟨.inr, fun h => h.resolve_left hless⟩, fun _ => rfl⟩

/-- Any path of sending acts keeps the queue. -/
theorem queue_path {l : Bytes} {m m' : Detached} (h : TxPath inp l m m')
    (hq : ∃ lo f, Queue AnyPacket m.sock lo f) : ∃ lo f, Queue AnyPacket m'.sock lo f := by
  refine Steps.invariant (P := fun a : Detached => ∃ lo f, Queue AnyPacket a.sock lo f)
    (fun _ _ _ hact hP => ?_) h hq
  obtain ⟨lo, f, hP⟩ := hP
  exact hP.txAct hact

/-- The length of a selective-ack mask is one byte of the packet. -/
theorem extLoop_selack (buf : Bytes) (fuel : Nat) :
    ∀ (start : Nat) (extension : UInt8) (selack : Option (Nat × Nat)) (exts : Bytes),
      (∀ sel, selack = some sel → sel.2 ≤ 255) →
      ∀ w, (extLoop buf fuel start extension selack exts).2 = some w →
        ∀ sel, w.selack = some sel → sel.2 ≤ 255 := by
  induction fuel with
  | zero => intro start extension selack exts _ w hw; exact nomatch hw
  | succ fuel ih =>
      intro start extension selack exts hsel w hw
      have hsel' : ∀ sel, (if extension = 1 then
          some (start + 2, (byteAt buf (start + 2 - 1)).toNat) else selack) = some sel →
          sel.2 ≤ 255 := by
        intro sel h
        split at h
        · obtain rfl := Option.some.inj h
          exact Nat.le_of_lt_succ (UInt8.toNat_lt _)
        · exact hsel sel h
      rw [extLoop] at hw
      dsimp only at hw
      split at hw
      · exact nomatch hw
      · split at hw
        · exact nomatch hw
        · split at hw
          · exact nomatch hw
          · split at hw
            · obtain rfl := Option.some.inj hw
              exact hsel'
            · exact ih _ _ _ _ hsel' w hw

/-- A mask has less than 256 bytes: its length is a byte. -/
theorem skipExtensions_selack {buf exts : Bytes} {w : ExtWalk}
    (h : (skipExtensions buf exts).2 = some w) : ∀ sel, w.selack = some sel → sel.2 ≤ 255 := by
  unfold skipExtensions at h
  split at h
  · obtain rfl := Option.some.inj h
    intro sel hsel
    have hnone : (none : Option (Nat × Nat)) = some sel := hsel
    exact nomatch hnone
  · exact extLoop_selack buf _ _ _ none _ (fun sel hsel => nomatch hsel) w h

/-- The acks of a datagram are applied to a socket that differs from the one it
    met in measurements and in the peer's window only. -/
theorem applyAcks_eq (m : Detached) (buf : Bytes) (selack : Option (Nat × Nat)) :
    ∃ m₁, Quiet m m₁ ∧ TxPath (some buf) [] m m₁ ∧ cursorView m₁.sock = cursorView m.sock
      ∧ (m.measure buf selack (m.sock.acksOf (ackNr buf))).applyAcks buf
          (m.sock.acksOf (ackNr buf))
        = (ackCumulative (m.sock.acksOf (ackNr buf))
            ((m₁.advanceState (packetType buf) (m.sock.acksOf (ackNr buf))).updateFastResend
              (ackNr buf))).flushNagle.fastTimeoutRetry := by
  obtain ⟨cwnd, delay, dup, hmeas, -⟩ := measure_shape m buf selack (m.sock.acksOf (ackNr buf))
  obtain ⟨wnd, t, -, hnote⟩ :=
    noteWindow_shape (m.measure buf selack (m.sock.acksOf (ackNr buf))) buf
  have hpath : TxPath (some buf) [] m
      ((m.measure buf selack (m.sock.acksOf (ackNr buf))).noteWindow buf) :=
    ((quiet_measure m buf selack _).path (.measure m buf selack rfl)).silent
      ((quiet_noteWindow _ buf).path (.noteWindow _ buf rfl))
  have hle : m.sock.acksOf (ackNr buf)
      ≤ (m.measure buf selack (m.sock.acksOf (ackNr buf))).sock.curWindowPackets := by
    rw [hmeas]
    exact (acksOf_spec m.sock (ackNr buf)).1
  refine ⟨_, (quiet_measure m buf selack _).trans (quiet_noteWindow _ buf), hpath, ?_, ?_⟩
  · rw [hnote, hmeas]
    rfl
  · unfold applyAcks
    rw [if_pos hle]

/-- The next number is never far ahead of an ack number in range, also right
    after the handshake. -/
theorem past_seqAfter {s : UtpSock} {buf : Bytes} (hcwp : s.curWindowPackets ≤ 1024)
    (hrange : s.ackOutOfRange (ackNr buf) = false) :
    past (ackNr buf) (seqAfter s buf) ≤ 1028 := by
  have hseq := past_seq_of_inRange hcwp hrange
  unfold seqAfter
  split
  · have hnext := past_add (ackNr buf) s.seqNr 1
    have hone : (1 : UInt16).toNat = 1 := rfl
    rw [hone] at hnext
    omega
  · omega

/-- Up to the point where the ack brings the cursor up, a datagram moves the
    sequence number at most, by the handshake. -/
theorem applyAcks_advanced {m : Detached} {buf : Bytes} (selack : Option (Nat × Nat))
    (hdial : DialInv m.sock) (hq : ∃ lo f, Queue AnyPacket m.sock lo f) :
    ∃ m₂ : Detached,
      cursorView m₂.sock = ⟨seqAfter m.sock buf, m.sock.resend.fastResendSeqNr⟩
        ∧ (∃ lo f, Queue AnyPacket m₂.sock lo f)
        ∧ AcksUpTo m₂.sock (ackNr buf) (m.sock.acksOf (ackNr buf))
        ∧ (m.measure buf selack (m.sock.acksOf (ackNr buf))).applyAcks buf
            (m.sock.acksOf (ackNr buf))
          = (ackCumulative (m.sock.acksOf (ackNr buf))
              (m₂.updateFastResend (ackNr buf))).flushNagle.fastTimeoutRetry := by
  -- measurements and the peer's window change nothing that matters here
  obtain ⟨m₁, hquiet, -, hview₁, happly⟩ := applyAcks_eq m buf selack
  have hacks := (acksOf_spec m.sock (ackNr buf)).quiet hquiet
  have hdial₁ : DialInv m₁.sock := by
    obtain ⟨_, _, _, _, _, rfl⟩ := hquiet
    exact fun hst => ⟨(hdial hst).finSent, (hdial hst).cwp, (hdial hst).payload⟩
  have hq₁ : ∃ lo f, Queue AnyPacket m₁.sock lo f := by
    obtain ⟨lo, f, hq⟩ := hq
    obtain ⟨_, _, _, _, _, rfl⟩ := hquiet
    exact ⟨lo, f, hq.of_view rfl⟩
  have hafter : seqAfter m₁.sock buf = seqAfter m.sock buf := by
    obtain ⟨_, _, _, _, _, rfl⟩ := hquiet
    rfl
  have hcursor₁ : m₁.sock.resend.fastResendSeqNr = m.sock.resend.fastResendSeqNr :=
    congrArg CursorView.cursor hview₁
  -- the handshake may take one number
  obtain ⟨hadv, hacks₂⟩ := path_advanceState m₁ buf (m.sock.acksOf (ackNr buf)) hacks
  refine ⟨_, ?_, queue_path hadv hq₁, hacks₂, happly⟩
  obtain ⟨lo, f, hq₁⟩ := hq₁
  rw [cursorView_advanceState _ hdial₁ hq₁, hafter, hcursor₁]

/-- What follows leaves a settled cursor on its side: the cumulative ack, Nagle
    and the fast timeout. -/
theorem sameSide_acked {m : Detached} {a : UInt16} {buf : Bytes} {acks : Nat}
    (hsettled : Settled (cursorView m.sock) a) (hq : ∃ lo f, Queue AnyPacket m.sock lo f)
    (ha : ackNr buf = a) (hacks : AcksUpTo m.sock a acks) :
    SameSide a m.sock (ackCumulative acks m).flushNagle.fastTimeoutRetry.sock
      ∧ ∃ lo f, Queue AnyPacket (ackCumulative acks m).flushNagle.fastTimeoutRetry.sock lo f := by
  have hq₁ : ∃ lo f, Queue AnyPacket (ackCumulative acks m).flushNagle.sock lo f :=
    queue_path ((Steps.single (TxAct.ackCum m buf _ rfl (ha ▸ hacks))).silent
      (path_flushNagle _)) hq
  have hview : cursorView (ackCumulative acks m).flushNagle.sock = cursorView m.sock := by
    rw [cursorView_flushNagle, cursorView_ackCumulative]
  have hside := SameSide.of_view hsettled hview
  generalize (ackCumulative acks m).flushNagle = m₁ at hq₁ hside ⊢
  refine ⟨?_, queue_path (path_fastTimeoutRetry m₁ buf) hq₁⟩
  obtain ⟨lo, f, hq₁⟩ := hq₁
  exact hside.trans (sameSide_fastTimeoutRetry hside.settled hq₁)

/-- **WHERE THE ACKS OF A DATAGRAM LEAVE THE CURSOR.** -/
theorem cursor_processAck {m : Detached} {buf exts : Bytes} {w : ExtWalk}
    (hwalk : (skipExtensions buf exts).2 = some w) (hdial : DialInv m.sock)
    (hq : ∃ lo f, Queue AnyPacket m.sock lo f)
    (hrange : m.sock.ackOutOfRange (ackNr buf) = false) :
    (m.processAck buf w.selack).sock.seqNr = seqAfter m.sock buf
      ∧ (past (ackNr buf) (m.processAck buf w.selack).sock.resend.fastResendSeqNr
          ≤ past (ackNr buf) (seqAfter m.sock buf)
        ↔ 32768 < past (ackNr buf) m.sock.resend.fastResendSeqNr
          ∨ past (ackNr buf) m.sock.resend.fastResendSeqNr
            ≤ past (ackNr buf) (seqAfter m.sock buf))
      ∧ (past (ackNr buf) (seqAfter m.sock buf)
          < past (ackNr buf) (m.processAck buf w.selack).sock.resend.fastResendSeqNr →
        (m.processAck buf w.selack).sock.resend.fastResendSeqNr
          = m.sock.resend.fastResendSeqNr) := by
  have hnear : past (ackNr buf) (seqAfter m.sock buf) ≤ 1028 := by
    obtain ⟨lo, f, hq⟩ := hq
    exact past_seqAfter hq.cwp_le hrange
  obtain ⟨m₂, hview₂, hq₂, hacks₂, happly⟩ := applyAcks_advanced w.selack hdial hq
  unfold processAck
  dsimp only
  rw [happly]
  generalize ha : ackNr buf = a at hnear hacks₂ ⊢
  generalize m.sock.acksOf a = acks at hacks₂ ⊢
  have hseq₂ : m₂.sock.seqNr = seqAfter m.sock buf := congrArg CursorView.seqNr hview₂
  have hcursor₂ : m₂.sock.resend.fastResendSeqNr = m.sock.resend.fastResendSeqNr :=
    congrArg CursorView.cursor hview₂
  -- the ack brings the cursor up
  obtain ⟨hseq₃, hsettled₃, hinside₃, hstays₃⟩ := updateFastResend_spec (m := m₂) (a := a)
    (by rw [hseq₂]; exact hnear)
  rw [hseq₂, hcursor₂] at hinside₃ hstays₃
  rw [hseq₂] at hseq₃
  have hfast := quiet_updateFastResend m₂ a
  have hq₃ : ∃ lo f, Queue AnyPacket (m₂.updateFastResend a).sock lo f := by
    obtain ⟨lo, f, hq₂⟩ := hq₂
    obtain ⟨_, _, _, _, _, heq⟩ := hfast
    rw [heq]
    exact ⟨lo, f, hq₂.of_view rfl⟩
  have hacks₃ := hacks₂.quiet hfast
  generalize m₂.updateFastResend a = m₃ at hseq₃ hsettled₃ hinside₃ hstays₃ hq₃ hacks₃ ⊢
  obtain ⟨hside₅, hq₅⟩ := sameSide_acked hsettled₃ hq₃ ha hacks₃
  generalize (ackCumulative acks m₃).flushNagle.fastTimeoutRetry = m₅ at hside₅ hq₅ ⊢
  have hend : ∀ m₆ : Detached, SameSide a m₃.sock m₆.sock →
      m₆.markWritable.sock.seqNr = seqAfter m.sock buf
        ∧ (past a m₆.markWritable.sock.resend.fastResendSeqNr ≤ past a (seqAfter m.sock buf)
          ↔ 32768 < past a m.sock.resend.fastResendSeqNr
            ∨ past a m.sock.resend.fastResendSeqNr ≤ past a (seqAfter m.sock buf))
        ∧ (past a (seqAfter m.sock buf) < past a m₆.markWritable.sock.resend.fastResendSeqNr →
          m₆.markWritable.sock.resend.fastResendSeqNr = m.sock.resend.fastResendSeqNr) := by
    intro m₆ hside₆
    have hside := hside₆.trans (SameSide.of_view hside₆.settled (cursorView_markWritable m₆))
    have hiff := hside.inside
    have hstays := hside.outside
    rw [hseq₃] at hiff hstays
    refine ⟨hside.seqNr.trans hseq₃, hiff.trans hinside₃, fun hout => ?_⟩
    -- outside now means outside right after the ack brought it up
    have hout₃ := Nat.not_le.mp (fun hin => Nat.not_le.mpr hout (hiff.mpr hin))
    exact (hstays hout₃).trans (hstays₃ hout₃)
  -- and a selective ack only moves a cursor that is inside the stream
  split
  · rename_i sel hsel
    obtain ⟨lo, f, hq₅⟩ := hq₅
    refine hend _ (hside₅.trans (sameSide_selectiveAck hside₅.settled hq₅.cwp_le ?_))
    exact Nat.le_trans (List.length_take_le _ _) (skipExtensions_selack hwalk sel hsel)
  · exact hend _ hside₅

/-! ## The result -/

/-- A datagram that passes all checks of `process_incoming`, those of its ack
    number and of its sequence number among them. -/
structure FullyProcessed (m : Detached) (buf : Bytes) : Prop where
  kind : packetType buf < stNumStates
  acks : m.sock.ackOutOfRange (ackNr buf) = false
  full : headerSize ≤ buf.length
  body : ((skipExtensions buf m.sock.extensions).2).isSome = true
  seq : seqOffset (admitted m buf).sock (seqNr buf) < reorderBufferMaxSize

/-- What the invariants of the queue say of a socket. -/
structure Sane (s : UtpSock) : Prop where
  dial : DialInv s
  queue : ∃ lo f, Queue AnyPacket s lo f

/-- Every socket of a reachable state is sane. -/
theorem reachable_sane {ctx : Context} (h : Reachable ctx) : EverySock Sane ctx :=
  fun key s hs => ⟨reachable_dialInv h key s hs, reachable_queue h key s hs⟩

/-- **A DATAGRAM LEAVES THE CURSOR INSIDE THE STREAM EXACTLY WHEN IT FOUND IT
    THERE OR WITHIN HALF THE NUMBER SPACE BEFORE IT**; otherwise it leaves it
    where it was. -/
theorem cursor_processed {m : Detached} (h : Sane m.sock) {buf : Bytes}
    (hproc : FullyProcessed m buf) :
    (m.processIncoming buf false).1.sock.seqNr = seqAfter m.sock buf
      ∧ (CursorInside (m.processIncoming buf false).1.sock (ackNr buf)
        ↔ 32768 < past (ackNr buf) m.sock.resend.fastResendSeqNr
          ∨ past (ackNr buf) m.sock.resend.fastResendSeqNr
            ≤ past (ackNr buf) (seqAfter m.sock buf))
      ∧ (¬ CursorInside (m.processIncoming buf false).1.sock (ackNr buf) →
        (m.processIncoming buf false).1.sock.resend.fastResendSeqNr
          = m.sock.resend.fastResendSeqNr) := by
  obtain ⟨hdial, lo, f, hq⟩ := h
  obtain ⟨w, hwalk⟩ := Option.isSome_iff_exists.mp hproc.body
  have hrange : ¬ ((packetType buf ≠ stSyn ∨ m.sock.state ≠ .synRecv)
      ∧ m.sock.ackOutOfRange (ackNr buf) = true) := by
    rw [hproc.acks]
    exact fun hand => nomatch hand.2
  rw [processIncoming_eq hproc.kind hrange hproc.full hwalk]
  -- the bookkeeping before the acks does not touch the queue
  obtain ⟨a, t, hadm⟩ : ∃ (a : UInt16) (t : Timers), (admitted m buf).sock
      = { m.sock with
          extensions := (skipExtensions buf m.sock.extensions).1
          ackNr := a
          timers := t } := ⟨_, _, rfl⟩
  have hdial' : DialInv (admitted m buf).sock := by
    rw [hadm]
    exact fun hst => ⟨(hdial hst).finSent, (hdial hst).cwp, (hdial hst).payload⟩
  have hq' : ∃ lo f, Queue AnyPacket (admitted m buf).sock lo f := by
    rw [hadm]
    exact ⟨lo, f, hq.of_view rfl⟩
  have hrange' : (admitted m buf).sock.ackOutOfRange (ackNr buf) = false := by
    rw [hadm]
    exact hproc.acks
  have hafter : seqAfter (admitted m buf).sock buf = seqAfter m.sock buf := by
    rw [hadm]
    rfl
  have hcursor : (admitted m buf).sock.resend.fastResendSeqNr = m.sock.resend.fastResendSeqNr := by
    rw [hadm]
  have hview := sendView_processChecked hwalk hproc.seq
  obtain ⟨hseq, hinside, hstays⟩ := cursor_processAck hwalk hdial' hq' hrange'
  rw [hafter] at hseq hinside hstays
  rw [hcursor] at hinside hstays
  have hresend : ((admitted m buf).processChecked buf w).1.sock.resend
      = ((admitted m buf).processAck buf w.selack).sock.resend := congrArg SendView.resend hview
  have hseqNr : ((admitted m buf).processChecked buf w).1.sock.seqNr = seqAfter m.sock buf :=
    (congrArg SendView.seqNr hview).trans hseq
  unfold CursorInside
  rw [hseqNr, hresend, inside_iff_past]
  exact ⟨rfl, hinside, fun hout => hstays (Nat.not_le.mp hout)⟩

/-- The answer to a dial: a state packet. -/
def synAck (id ack : UInt16) : Bytes := datagram stState id 7 ack []

/-- When the numbers of a dial start in the upper half, its answer leaves the
    cursor at 1, far outside the stream. -/
theorem cursor_left_behind :
    ¬ ∀ (ctx : Context) (key : Key) (s : UtpSock) (buf : Bytes), Reachable ctx →
      ctx.sockets.lookup key = some s → FullyProcessed (ctx.detach key s) buf →
      ((ctx.detach key s).processIncoming buf false).1.sock.state.isConnected = true →
      CursorInside ((ctx.detach key s).processIncoming buf false).1.sock (ackNr buf) := by
  intro hall
  obtain ⟨ctx, s, hreach, hs, hacks, hseq, hconn, houtside⟩ :=
    detachedAfter_of 1 [.connect peerAddr 1] ⟨peerAddr, 23745⟩
      (Q := fun m => m.sock.ackOutOfRange (ackNr (synAck 23745 60519)) = false
        ∧ seqOffset (admitted m (synAck 23745 60519)).sock (seqNr (synAck 23745 60519)) < 1024
        ∧ (m.processIncoming (synAck 23745 60519) false).1.sock.state.isConnected = true
        ∧ ¬ CursorInside (m.processIncoming (synAck 23745 60519) false).1.sock
          (ackNr (synAck 23745 60519)))
      (by decide +kernel)
  exact houtside (hall ctx ⟨peerAddr, 23745⟩ s (synAck 23745 60519) hreach hs
    ⟨by decide, hacks, by decide, rfl, hseq⟩ hconn)

end UtpFastResend
