import RustUtp.FreshHeaders
import RustUtp.Reassembler

/-! # Decoding — what is sent is what is read

    Encoder and decoder of the wire format are separate pieces of code.  Every
    datagram of the engine passes the checks of the receiver, its header reads
    back as it was written, the walk over its extensions ends where its payload
    starts, and the bits of a selective ack name exactly the packets in the
    reorder buffer of the sender. -/

namespace UtpDecoding

open UtpCircular UtpPacket UtpUtil UtpConnShared UtpEngine UtpEngine.Detached UtpActs
  UtpDatagrams UtpSendQueue UtpRecvQueue UtpReceive UtpReassembler UtpLifecycle UtpEmissions
  UtpFreshHeaders LabelledPath

/-! ## The reorder buffer until the FIN is reached -/

/-- Until the FIN is reached the reorder buffer is well formed, also when the
    number of the FIN is known already. -/
structure Windowed (s : UtpSock) : Prop where
  fresh : s.state = .synSent → s.inbuf = CircularBuffer.new ∧ s.reorderCount = 0
  queue : s.gotFinReached = false → ∃ a g, RecvQueue anyPayload s a g

/-- The window of the buffer only depends on these fields. -/
theorem Windowed.of_same {occ : Occasion} {s s' : UtpSock} (h : Windowed s)
    (hmove : Moves occ s s') (hin : s'.inbuf = s.inbuf) (hack : s'.ackNr = s.ackNr)
    (hcount : s'.reorderCount = s.reorderCount)
    (hreached : s'.gotFinReached = s.gotFinReached) : Windowed s' := by
  refine ⟨fun hst => ?_, fun hno => ?_⟩
  · rw [hin, hcount]
    exact h.fresh (Move.synSent hmove hst)
  · obtain ⟨a, g, hq⟩ := h.queue (hreached ▸ hno)
    exact ⟨a, g, hq.of_same hin hack hcount⟩

/-- A step that leaves the receive side. -/
theorem Windowed.of_view {occ : Occasion} {m m' : Detached} (h : Windowed m.sock)
    (hmove : Moves occ m.sock m'.sock) (hview : rxView m' = rxView m) : Windowed m'.sock :=
  h.of_same hmove (congrArg RxView.inbuf hview) (congrArg RxView.ackNr hview)
    (congrArg RxView.reorderCount hview) (congrArg RxView.gotFinReached hview)

/-- While the buffer is drained it stays well formed, up to the FIN. -/
theorem body_drain {l : Bytes} {m m' : Detached} (hpath : DrainPath l m m')
    (h : m.sock.gotFinReached = false → ∃ a g, RecvBody anyPayload m.sock a g) :
    m'.sock.gotFinReached = false → ∃ a g, RecvBody anyPayload m'.sock a g := by
  refine Steps.invariant (P := fun d : Detached => d.sock.gotFinReached = false →
    ∃ a g, RecvBody anyPayload d.sock a g) (fun _ x y hact hP => ?_) hpath h
  cases hact with
  | drain _ p hst hcount hget =>
      intro hno
      have hno' : x.sock.gotFinReached = false := by
        rw [drainNext_sock] at hno
        exact hno
      obtain ⟨a, g, hb⟩ := hP hno'
      exact ⟨_, _, hb.drainNext (hb.next_slot.symm.trans hget)⟩
  | reach => exact fun hno => nomatch hno
  | ackFin _ hreached heof =>
      intro hno
      rw [show (x.sendAck false).sock.gotFinReached = x.sock.gotFinReached from
        congrArg RxView.gotFinReached (rxView_sendAck x false), hreached] at hno
      exact nomatch hno
  | dropStragglers _ hreached heof =>
      intro hno
      exact nomatch hno.symm.trans hreached

/-- Every act keeps the buffer inside its window. -/
theorem windowed_act {occ : Occasion} {l : Bytes} {m m' : Detached} (hact : Act occ l m m')
    (h : Windowed m.sock) : Windowed m'.sock := by
  have hmove := moves_act hact
  cases hact with
  | tx htx => exact h.of_view hmove htx.rxView_eq
  | ack => exact h.of_view hmove (rxView_sendAck m _)
  | keepAlive => exact h.of_view hmove (rxView_sendKeepAlive m)
  | schedule =>
      unfold scheduleAck at hmove ⊢
      split at hmove <;> split <;> exact h.of_same hmove rfl rfl rfl rfl
  | noteSyn _ buf hdat hst _ _ =>
      obtain ⟨hin, hcount⟩ := h.fresh hst
      exact ⟨fun _ => ⟨hin, hcount⟩, fun _ => ⟨_, _, recvQueue_new hin hcount⟩⟩
  | inOrder _ _ buf data hacc hst hoff hdrain hdone =>
      refine ⟨fun hs => ?_, fun hno => ?_⟩
      · have hstate : m'.sock.state = m.sock.state := congrArg Flags.state (flags_drain hdrain)
        exact absurd (hstate.symm.trans hs) (not_synSent hst)
      · obtain ⟨a, g, hb⟩ := body_drain hdrain (fun hno' => by
          rw [acceptNext_sock] at hno'
          obtain ⟨a, g, hq⟩ := h.queue hno'
          exact ⟨_, _, hq.acceptNext data⟩) hno
        exact ⟨a, g, hb.queue hdone⟩
  | growIn _ buf data hacc hst hpos hoff =>
      refine ⟨fun hs => absurd hs (not_synSent hst), fun hno => ?_⟩
      obtain ⟨a, g, hq⟩ := h.queue hno
      exact ⟨a, g, hq.growInbuf hoff⟩
  | store _ buf data hacc hst hpos hoff hfits hfree =>
      refine ⟨fun hs => absurd hs (not_synSent hst), fun hno => ?_⟩
      obtain ⟨a, g, hq⟩ := h.queue hno
      exact ⟨a, _, hq.storePacket hpos hoff hfits hfree trivial⟩
  | _ => exact h.of_same hmove rfl rfl rfl rfl

/-- A new buffer is empty. -/
theorem windowed_new {s : UtpSock} (hin : s.inbuf = CircularBuffer.new)
    (hcount : s.reorderCount = 0) : Windowed s :=
  ⟨fun _ => ⟨hin, hcount⟩, fun _ => ⟨_, _, recvQueue_new hin hcount⟩⟩

/-- **EVERY BUFFER** of a reachable state lies inside its window until the FIN
    is reached. -/
theorem reachable_windowed {ctx : Context} (h : Reachable ctx) : EverySock Windowed ctx :=
  Reachable.everySock (fun _ _ _ _ hact => windowed_act hact)
    (fun _ _ _ _ => windowed_new rfl rfl) (fun _ _ _ => windowed_new rfl rfl) h

/-- The reorder buffer of `s` holds the packet with sequence number `v`. -/
def Holds (s : UtpSock) (v : UInt16) : Prop :=
  ∃ a g n, RecvQueue anyPayload s a g ∧ v = UInt16.ofNat n ∧ (g n).isSome = true

/-! ## The bits of a selective ack -/

/-- The loop that sets bits one by one, bit for bit. -/
theorem testBit_orLoop (p : Nat → Bool) (n : Nat) (i : Nat) :
    ((List.range n).foldl (fun m k => if p k then m ||| (1 <<< k) else m) 0).testBit i
      = (decide (i < n) && p i) := by
  induction n with
  | zero => simp
  | succ n ih =>
      rw [List.range_succ, List.foldl_append, List.foldl_cons, List.foldl_nil]
      have hbit : (1 <<< n).testBit i = decide (i = n) := by
        rw [Nat.one_shiftLeft, Nat.testBit_two_pow]
        simp [eq_comm]
      by_cases hi : i = n
      · subst hi
        cases hp : p i with
        | true => simp [ih, hbit]
        | false => simp [ih]
      · have hlt : decide (i < n + 1) = decide (i < n) := by
          simp only [decide_eq_decide]
          omega
        rw [hlt]
        cases hp : p n with
        | true => simp [ih, hbit, hi]
        | false => simp [ih]

/-- A bit of the mask is set for a packet that is buffered. -/
theorem testBit_ackMask (s : UtpSock) (i : Nat) :
    s.ackMask.testBit i = (decide (i < min 30 s.inbuf.size)
      && (s.inbuf.get (s.ackNr.toNat + i + 2)).isSome) :=
  testBit_orLoop (fun i => (s.inbuf.get (s.ackNr.toNat + i + 2)).isSome) _ i

/-- One byte of a little-endian word. -/
theorem testBit_byte (n k j : Nat) (hj : j < 8) :
    (UInt8.ofNat (n / 2 ^ k)).toNat.testBit j = n.testBit (k + j) := by
  rw [UInt8.toNat_ofNat', show (2 : Nat) ^ 8 = 2 ^ 8 from rfl, Nat.testBit_mod_two_pow,
    Nat.testBit_div_two_pow]
  simp [hj, Nat.add_comm]

/-- A little-endian word read bit by bit. -/
theorem bitSet_leBytes32 (n : Nat) {i : Nat} (hi : i < 32) :
    bitSet (leBytes32 n) i = n.testBit i := by
  have hlt : (0 : Int) ≤ (i : Int) ∧ (i : Int) < 8 * ((leBytes32 n).length : Int) := by
    rw [show (leBytes32 n).length = 4 from rfl]
    omega
  unfold bitSet
  rw [if_pos hlt, Int.toNat_natCast]
  have hmod : i % 8 < 8 := Nat.mod_lt _ (by decide)
  have hcases : i / 8 = 0 ∨ i / 8 = 1 ∨ i / 8 = 2 ∨ i / 8 = 3 := by omega
  rcases hcases with h | h | h | h
  · rw [h]
    have := testBit_byte n 0 (i % 8) hmod
    rw [Nat.pow_zero, Nat.div_one, show 0 + i % 8 = i by omega] at this
    exact this
  · rw [h]
    exact (testBit_byte n 8 (i % 8) hmod).trans (by rw [show 8 + i % 8 = i by omega])
  · rw [h]
    exact (testBit_byte n 16 (i % 8) hmod).trans (by rw [show 16 + i % 8 = i by omega])
  · rw [h]
    exact (testBit_byte n 24 (i % 8) hmod).trans (by rw [show 24 + i % 8 = i by omega])

/-- The slot that the encoder looks at for a number shortly after the ack holds
    exactly the packet with that number. -/
theorem slot_holds {s : UtpSock} {a : Nat} {g : Nat → Option Bytes}
    (h : RecvQueue anyPayload s a g) {n j : Nat} (hlo : a < n) (hhi : n ≤ a + 1 + s.inbuf.size)
    (hj : j % s.inbuf.size = n % s.inbuf.size) :
    (s.inbuf.get j).isSome = true ↔ Holds s (UInt16.ofNat n) := by
  have hsmall := h.small
  rw [s.inbuf.get_congr hj]
  -- what any other description of the same buffer says about `n`
  have hany : ∀ a' g' n', RecvQueue anyPayload s a' g' → UInt16.ofNat n = UInt16.ofNat n' →
      (g' n').isSome = true → n + a' = n' + a := by
    intro a' g' n' h' hn hsome
    obtain ⟨p, hp⟩ := Option.isSome_iff_exists.mp hsome
    have hsup := h'.ring.support n' p hp
    have hack := SeqNum.ofNat_eq_iff.mp (h.ack.symm.trans h'.ack)
    have hmod := SeqNum.ofNat_eq_iff.mp hn
    omega
  by_cases hlast : n = a + 1 + s.inbuf.size
  · -- one past the ring: its slot is the one of the expected packet, which is empty
    have hempty : s.inbuf.get n = none := by
      rw [s.inbuf.get_congr (show n % s.inbuf.size = (a + 1) % s.inbuf.size by
        rw [hlast, Nat.add_mod_right]), h.ring.get_eq _ (Nat.le_refl _)
        (Nat.lt_add_of_pos_right s.inbuf.size_pos)]
      exact h.drained
    rw [hempty]
    refine ⟨fun hf => (nomatch hf), ?_⟩
    rintro ⟨a', g', n', h', hn, hsome⟩
    obtain ⟨p, hp⟩ := Option.isSome_iff_exists.mp hsome
    have hsup := h'.ring.support n' p hp
    have := hany a' g' n' h' hn hsome
    omega
  · rw [h.ring.get_eq n hlo (by omega)]
    constructor
    · intro hsome
      exact ⟨a, g, n, h, rfl, hsome⟩
    · rintro ⟨a', g', n', h', hn, hsome⟩
      obtain ⟨p, hp⟩ := Option.isSome_iff_exists.mp hsome
      have hsup := h'.ring.support n' p hp
      have heq := hany a' g' n' h' hn hsome
      have hdvd : s.inbuf.size ∣ 2 ^ 16 := s.inbuf.size_dvd (hsmall.trans (by decide))
      have hmod : n % 2 ^ 16 = n' % 2 ^ 16 := SeqNum.ofNat_eq_iff.mp hn
      have hslot : n % s.inbuf.size = n' % s.inbuf.size := by
        rw [← Nat.mod_mod_of_dvd n hdvd, hmod, Nat.mod_mod_of_dvd _ hdvd]
      rw [← h.ring.get_eq n hlo (by omega), s.inbuf.get_congr hslot,
        h'.ring.get_eq n' hsup.1 hsup.2]
      exact hsome

/-- The bits of the mask that `s` builds for the ack number `s.ackNr`, read
    against the buffer of `t`, which has the same slots and expects packet
    `a + 1`: the ack number may lag one behind, as in a keep-alive. -/
theorem ackMask_bit {s t : UtpSock} {a : Nat} {g : Nat → Option Bytes}
    (h : RecvQueue anyPayload t a g) (hin : s.inbuf = t.inbuf)
    (hack : s.ackNr = t.ackNr ∨ s.ackNr = t.ackNr - 1) (i : Nat) :
    s.ackMask.testBit i = true
      ↔ i < min 30 t.inbuf.size ∧ Holds t (s.ackNr + 2 + UInt16.ofNat i) := by
  rw [testBit_ackMask, hin, Bool.and_eq_true, decide_eq_true_eq]
  refine and_congr_right (fun hi => ?_)
  obtain ⟨k, hk, hk1, hk2⟩ : ∃ k, s.ackNr + 2 = UInt16.ofNat (a + k) ∧ 1 ≤ k ∧ k ≤ 2 := by
    rcases hack with hack | hack
    · refine ⟨2, ?_, by decide, by decide⟩
      rw [hack, h.ack, UInt16.ofNat_add]
      rfl
    · refine ⟨1, ?_, by decide, by decide⟩
      rw [hack, h.ack, UInt16.ofNat_add]
      grind
  have hnum : s.ackNr + 2 + UInt16.ofNat i = UInt16.ofNat (a + k + i) := by
    rw [hk, UInt16.ofNat_add (a + k) i]
  rw [hnum]
  refine slot_holds h (by omega) (by omega) ?_
  have hdvd : t.inbuf.size ∣ 2 ^ 16 := t.inbuf.size_dvd (h.small.trans (by decide))
  have hmod : (s.ackNr.toNat + i + 2) % 2 ^ 16 = (a + k + i) % 2 ^ 16 := by
    have hnat := congrArg UInt16.toNat hk
    rw [UInt16.toNat_add, UInt16.toNat_ofNat'] at hnat
    have h2 : (2 : UInt16).toNat = 2 := rfl
    omega
  rw [← Nat.mod_mod_of_dvd _ hdvd, hmod, Nat.mod_mod_of_dvd _ hdvd]

/-! ## Reading a datagram back -/

/-- What the receiver makes of a datagram: its header, its payload, and where a
    selective ack sits. -/
structure Reads (b : Bytes) (h : Hdr) (payload : Bytes) (selack : Option (Nat × Nat)) :
    Prop where
  length : headerSize ≤ b.length
  version : wireVersion b = 1
  header : hdr b = h
  walk : ∃ start, (∀ exts, skipExtensions b exts = (exts, some ⟨start, selack⟩))
    ∧ b.drop start = payload

/-- A datagram without extensions. -/
theorem reads_plain {b : Bytes} (hlen : headerSize ≤ b.length) {h : Hdr} (hhdr : hdr b = h)
    (hver : h.version = 1) (hty : h.packetType < stNumStates) (hext : h.ext = 0) :
    Reads b h (body b) none := by
  have hext' : ext b = 0 := (congrArg Hdr.ext hhdr).trans hext
  have hty' : packetType b < stNumStates := by
    rw [show packetType b = h.packetType from congrArg Hdr.packetType hhdr]
    exact hty
  refine ⟨hlen, ?_, hhdr, headerSize, fun exts => ?_, rfl⟩
  · unfold wireVersion
    rw [if_pos ⟨hty', by rw [hext']; decide⟩]
    exact (congrArg Hdr.version hhdr).trans hver
  · unfold skipExtensions
    rw [if_pos hext']

/-- Bytes behind an offset. -/
theorem byteAt_drop (b : Bytes) (k i : Nat) : byteAt b (k + i) = byteAt (b.drop k) i := by
  unfold byteAt
  rw [List.getD_eq_getElem?_getD, List.getD_eq_getElem?_getD, List.getElem?_drop]

/-- A datagram whose only extension is a selective ack of four bytes. -/
theorem reads_masked {b mask : Bytes} {h : Hdr} (hhdr : hdr b = h) (hver : h.version = 1)
    (hty : h.packetType < stNumStates) (hext : h.ext = 1) (hmask : mask.length = 4)
    (hbody : body b = [0, 4] ++ mask) :
    Reads b h [] (some (22, 4)) ∧ maskOf b (22, 4) = mask := by
  have hlen : b.length = 26 := by
    have hl := congrArg List.length hbody
    unfold body headerSize at hl
    rw [List.length_drop, List.length_append, hmask] at hl
    change b.length - 20 = 2 + 4 at hl
    omega
  have hext' : ext b = 1 := (congrArg Hdr.ext hhdr).trans hext
  have hty' : packetType b < stNumStates := by
    rw [show packetType b = h.packetType from congrArg Hdr.packetType hhdr]
    exact hty
  have hnext : byteAt b 20 = 0 := by
    rw [show (20 : Nat) = headerSize + 0 from rfl, byteAt_drop]
    show byteAt (body b) 0 = 0
    rw [hbody]
    rfl
  have helen : byteAt b 21 = 4 := by
    rw [show (21 : Nat) = headerSize + 1 from rfl, byteAt_drop]
    show byteAt (body b) 1 = 4
    rw [hbody]
    rfl
  refine ⟨⟨by rw [hlen]; decide, ?_, hhdr, 26, fun exts => ?_, ?_⟩, ?_⟩
  · unfold wireVersion
    rw [if_pos ⟨hty', by rw [hext']; decide⟩]
    exact (congrArg Hdr.version hhdr).trans hver
  · unfold skipExtensions
    rw [hext', if_neg (by decide), hlen, extLoop]
    simp only [hlen, headerSize]
    rw [if_neg (by decide), show 20 + 2 - 1 = 21 from rfl, helen, if_neg (by decide),
      if_neg (by decide), show 20 + 2 - 2 = 20 from rfl, hnext, if_pos rfl, if_neg (by decide)]
    rfl
  · exact List.drop_eq_nil_of_le (Nat.le_of_eq hlen)
  · unfold maskOf
    show (b.drop 22).take 4 = mask
    rw [show (22 : Nat) = headerSize + 2 from rfl, ← List.drop_drop]
    show ((body b).drop 2).take 4 = mask
    rw [hbody]
    show mask.take 4 = mask
    rw [← hmask, List.take_length]

/-! ## What was written -/

/-- A new packet: the header as it is filled in, the payload as it is handed
    over. -/
theorem new_reads (m : Detached) {flags : UInt8} (hf : flags < stNumStates) (n : Nat)
    (data : Bytes) :
    hdr (m.newPacket flags n data).data
        = ⟨1, flags, 0, m.sock.connIdSend.toUInt16, 0, 0, UInt32.ofNat m.sock.lastRcvWin,
          m.sock.seqNr, m.sock.ackNr⟩
      ∧ body (m.newPacket flags n data).data = data.take n := by
  have hlen : headerSize ≤ (List.replicate headerSize (0 : UInt8) ++ data.take n).length := by
    simp
  have hzero : hdr (List.replicate headerSize 0 ++ data.take n) = ⟨0, 0, 0, 0, 0, 0, 0, 0, 0⟩ := by
    rw [hdr_append (by simp)]
    decide
  -- the zeroed header is filled field by field
  have hfilled : ∀ b : Bytes, headerSize ≤ b.length → hdr b = ⟨0, 0, 0, 0, 0, 0, 0, 0, 0⟩ →
      hdr (m.fillHeader flags (some m.sock.seqNr) b)
        = ⟨1, flags, 0, m.sock.connIdSend.toUInt16, 0, 0, UInt32.ofNat m.sock.lastRcvWin,
          m.sock.seqNr, m.sock.ackNr⟩ := by
    intro b hb hz
    rw [hdr_fillHeader m hf (some m.sock.seqNr) hb,
      show tvUsec b = 0 from congrArg Hdr.tvUsec hz,
      show replyMicro b = 0 from congrArg Hdr.replyMicro hz]
    rfl
  constructor
  · exact hfilled _ hlen hzero
  · refine (body_fillHeader m flags (some m.sock.seqNr) _).trans ?_
    unfold body
    -- the payload behind the header is untouched
    rw [List.drop_append_of_le_length (by simp)]
    simp

/-- An extended packet: it keeps its number and what it had, and goes on. -/
theorem extended_reads (m : Detached) {p : OutgoingPacket} (hp : headerSize ≤ p.data.length)
    {flags : UInt8} (hf : flags < stNumStates) (n : Nat) (data : Bytes) :
    hdr (m.extendedPacket p flags n data).data
        = ⟨1, flags, 0, m.sock.connIdSend.toUInt16, tvUsec p.data, replyMicro p.data,
          UInt32.ofNat m.sock.lastRcvWin, seqNr p.data, m.sock.ackNr⟩
      ∧ body (m.extendedPacket p flags n data).data = body p.data ++ data.take n := by
  have hlen : headerSize ≤ (p.data ++ data.take n).length := by
    rw [List.length_append]
    exact Nat.le_add_right_of_le hp
  have hsame := hdr_append hp (data.take n)
  constructor
  · refine (hdr_fillHeader m hf none hlen).trans ?_
    rw [show tvUsec (p.data ++ data.take n) = tvUsec p.data from congrArg Hdr.tvUsec hsame,
      show replyMicro (p.data ++ data.take n) = replyMicro p.data from
        congrArg Hdr.replyMicro hsame,
      Option.getD_none, seqNr_append hp]
  · refine (body_fillHeader m flags none _).trans ?_
    unfold body
    rw [List.drop_append_of_le_length hp]

/-- The accessors return what the setters wrote, no setter disturbs another
    field, and a packet carries the fields it was built with. -/
structure HeaderRoundTrip : Prop where
  versionType : ∀ b t, headerSize ≤ b.length → t < stNumStates →
    hdr (setVersionType b 1 t) = { hdr b with version := 1, packetType := t }
  ext : ∀ b v, headerSize ≤ b.length → hdr (setExt b v) = { hdr b with ext := v }
  connId : ∀ b v, headerSize ≤ b.length → hdr (setConnId b v) = { hdr b with connId := v }
  tvUsec : ∀ b v, headerSize ≤ b.length → hdr (setTvUsec b v) = { hdr b with tvUsec := v }
  replyMicro : ∀ b v, headerSize ≤ b.length →
    hdr (setReplyMicro b v) = { hdr b with replyMicro := v }
  window : ∀ b v, headerSize ≤ b.length →
    hdr (setWindowSize b v) = { hdr b with windowSize := v }
  seqNr : ∀ b v, headerSize ≤ b.length → hdr (setSeqNr b v) = { hdr b with seqNr := v }
  ackNr : ∀ b v, headerSize ≤ b.length → hdr (setAckNr b v) = { hdr b with ackNr := v }
  made : ∀ (m : Detached) flags n data, flags < stNumStates →
    hdr (m.newPacket flags n data).data
        = ⟨1, flags, 0, m.sock.connIdSend.toUInt16, 0, 0, UInt32.ofNat m.sock.lastRcvWin,
          m.sock.seqNr, m.sock.ackNr⟩
      ∧ body (m.newPacket flags n data).data = data.take n
  extended : ∀ (m : Detached) p flags n data, headerSize ≤ p.data.length → flags < stNumStates →
    hdr (m.extendedPacket p flags n data).data
        = ⟨1, flags, 0, m.sock.connIdSend.toUInt16, UtpPacket.tvUsec p.data,
          UtpPacket.replyMicro p.data, UInt32.ofNat m.sock.lastRcvWin, UtpPacket.seqNr p.data,
          m.sock.ackNr⟩
      ∧ body (m.extendedPacket p flags n data).data = body p.data ++ data.take n
  syn : ∀ s : UtpSock, hdr (Context.synPacket s).data
    = ⟨1, stSyn, 0, s.connIdRecv.toUInt16, 0, 0, UInt32.ofNat s.lastRcvWin, s.seqNr, 0⟩

/-- **EVERY SETTER IS READ BACK** by its accessor. -/
theorem header_round_trip : HeaderRoundTrip where
  versionType := fun _ t hb ht => hdr_setVersionType hb t ht
  ext := fun _ v hb => hdr_setExt hb v
  connId := fun _ v hb => hdr_setConnId hb v
  tvUsec := fun _ v hb => hdr_setTvUsec hb v
  replyMicro := fun _ v hb => hdr_setReplyMicro hb v
  window := fun _ v hb => hdr_setWindowSize hb v
  seqNr := fun _ v hb => hdr_setSeqNr hb v
  ackNr := fun _ v hb => hdr_setAckNr hb v
  made := fun m _ n data hf => new_reads m hf n data
  extended := fun m _ _ n data hp hf => extended_reads m hp hf n data
  syn := hdr_synPacket

/-! ## Every datagram of the engine -/

/-- The header of an ack sent by `m`. -/
def ackHdr (m : Detached) : Hdr where
  version := 1
  packetType := stState
  ext := if carriesMask m.sock then 1 else 0
  connId := m.sock.connIdSend.toUInt16
  tvUsec := UInt32.ofNat m.ctx.clock.micros
  replyMicro := m.sock.delay.replyMicro
  windowSize := UInt32.ofNat m.getRcvWindow
  seqNr := m.sock.seqNr
  ackNr := m.sock.ackNr

/-- Where an ack of `s` has its mask. -/
def selackOf (s : UtpSock) : Option (Nat × Nat) := if carriesMask s then some (22, 4) else none

/-- What a receiver reads of an ack. -/
theorem reads_ack (m : Detached) :
    Reads (m.stampTimes m.ackDatagram) (ackHdr m) [] (selackOf m.sock)
      ∧ (carriesMask m.sock = true →
        maskOf (m.stampTimes m.ackDatagram) (22, 4) = leBytes32 m.sock.ackMask) := by
  have hhdr : hdr (m.stampTimes m.ackDatagram) = ackHdr m := by
    rw [hdr_ack, hdr_ackDatagram]
    rfl
  have hlen : m.ackDatagram.length = headerSize + if carriesMask m.sock then 6 else 0 :=
    length_ackDatagram m
  -- behind the header stands the mask or nothing
  have hbody : body (m.stampTimes m.ackDatagram)
      = if carriesMask m.sock then [0, 4] ++ leBytes32 m.sock.ackMask else [] := by
    rw [body_stampTimes, ackDatagram_eq]
    dsimp only
    split
    · unfold body
      rw [List.drop_append_of_le_length (by simp)]
      simp
    · unfold body
      simp
  cases hmask : carriesMask m.sock with
  | true =>
      -- the mask of four bytes
      rw [hmask, if_pos rfl] at hbody
      obtain ⟨hreads, hbits⟩ := reads_masked hhdr rfl (show stState < stNumStates by decide)
        (show (if carriesMask m.sock then (1 : UInt8) else 0) = 1 by rw [hmask]; rfl) rfl hbody
      refine ⟨?_, fun _ => hbits⟩
      unfold selackOf
      rw [hmask]
      exact hreads
  | false =>
      rw [hmask, if_neg Bool.false_ne_true] at hbody
      refine ⟨?_, fun h => nomatch h⟩
      unfold selackOf
      rw [hmask, ← hbody]
      refine reads_plain ?_ hhdr rfl (show stState < stNumStates by decide) ?_
      · rw [length_stampTimes, hlen]
        exact Nat.le_add_right _ _
      · show (if carriesMask m.sock then (1 : UInt8) else 0) = 0
        rw [hmask]
        rfl

/-- The bits of the mask in `b` name the packets that `s` holds after the one
    that `b` expects next. -/
def MaskExact (s : UtpSock) (b : Bytes) : Prop :=
  ∀ i : Nat, i < 32 → (bitSet (maskOf b (22, 4)) i = true
    ↔ i < min 30 s.inbuf.size ∧ Holds s (ackNr b + 2 + UInt16.ofNat i))

/-- What the receiver reads of a datagram that `m` sends. -/
def Decoded (m : Detached) (b : Bytes) : Source → Prop
  | .ack => Reads b (ackHdr m) [] (selackOf m.sock)
      ∧ (carriesMask m.sock = true → MaskExact m.sock b)
  | .keepAlive => Reads b (ackHdr (backOne m)) [] (selackOf m.sock)
      ∧ (carriesMask m.sock = true → MaskExact m.sock b)
  | .queued _ pkt => Reads b
        { hdr pkt.data with
          tvUsec := UInt32.ofNat m.ctx.clock.micros
          replyMicro := m.sock.delay.replyMicro
          ackNr := m.sock.ackNr } (body pkt.data) none
      ∧ (body pkt.data).length = pkt.payload
      ∧ BuiltBy m.sock pkt

/-- The mask of an ack that `m` sends for `t`, itself or one number ahead. -/
theorem maskExact_of {m : Detached} {t : UtpSock} (hw : Windowed t)
    (hin : m.sock.inbuf = t.inbuf) (hack : m.sock.ackNr = t.ackNr ∨ m.sock.ackNr = t.ackNr - 1)
    (hreached : m.sock.gotFinReached = t.gotFinReached) (hmask : carriesMask m.sock = true) :
    MaskExact t (m.stampTimes m.ackDatagram) := by
  obtain ⟨hreads, hbits⟩ := reads_ack m
  have hno : t.gotFinReached = false := by
    unfold carriesMask at hmask
    rw [Bool.and_eq_true, Bool.not_eq_true', hreached] at hmask
    exact hmask.2
  obtain ⟨a, g, hq⟩ := hw.queue hno
  intro i hi
  have hackNr : ackNr (m.stampTimes m.ackDatagram) = m.sock.ackNr :=
    congrArg Hdr.ackNr hreads.header
  rw [hbits hmask, bitSet_leBytes32 _ hi, hackNr]
  exact ackMask_bit hq hin hack i

/-- What a receiver reads of a queued packet. -/
theorem decoded_queued {occ : Occasion} {ctx : Context} (hreach : Reachable ctx) {m : Detached}
    {seq : UInt16} {pkt : OutgoingPacket} (h : Moment occ ctx m (.queued seq pkt)) :
    Decoded m (Source.bytes m (.queued seq pkt)) (.queued seq pkt) := by
  obtain ⟨hbuilt, n, -, hpk⟩ := Moment.built hreach h
  have hlen := headerSize_le hpk
  have hhdr := hdr_outgoing m hlen m.sock.ackNr
  have hbody := body_outgoing m pkt.data m.sock.ackNr
  have hty : packetType pkt.data < stNumStates := by
    rcases hbuilt.kind with ⟨hty, -⟩ | ⟨hty | hty, -⟩ <;> rw [hty] <;> decide
  refine ⟨?_, ?_, hbuilt⟩
  · rw [← hbody]
    refine reads_plain ?_ hhdr hbuilt.version hty hbuilt.ext
    show headerSize ≤ (m.stampTimes (setAckNr pkt.data m.sock.ackNr)).length
    rw [length_stampTimes, length_setAckNr]
    exact hlen
  · unfold body
    rw [List.length_drop, hpk.length]
    exact Nat.add_sub_cancel_left _ _

/-- **EVERY DATAGRAM IS READ AS IT WAS MEANT** at its moment. -/
theorem decoded_moment {occ : Occasion} {ctx : Context} (hreach : Reachable ctx) {m : Detached}
    {src : Source} (h : Moment occ ctx m src) : Decoded m (src.bytes m) src := by
  have hinv := Moment.invariant (Q := fun _ => True) (fun _ _ _ _ hact => windowed_act hact)
    (fun _ _ _ _ => windowed_new rfl rfl) (fun _ _ _ => windowed_new rfl rfl)
    (fun _ _ _ => trivial) (fun _ _ _ _ _ => trivial) h (reachable_windowed hreach)
  cases src with
  | ack =>
      refine ⟨(reads_ack m).1, fun hmask => ?_⟩
      rcases hinv with hw | ⟨-, hreached, -⟩
      · exact maskExact_of hw rfl (.inl rfl) rfl hmask
      · unfold carriesMask at hmask
        rw [hreached, Bool.and_eq_true] at hmask
        exact nomatch hmask.2
  | keepAlive =>
      refine ⟨(reads_ack (backOne m)).1, fun hmask => ?_⟩
      rcases hinv with hw | ⟨hack, -⟩
      · exact maskExact_of (m := backOne m) hw rfl (.inr rfl) rfl hmask
      · exact nomatch hack
  | queued seq pkt => exact decoded_queued hreach h

/-- The header of an RST. -/
def rstHdr (id : UInt16) (ack seq : UInt16) : Hdr := ⟨1, stReset, 0, id, 0, 0, 0, seq, ack⟩

/-- **EMITTED DATAGRAMS DECODE TO WHAT WAS ENCODED**: every datagram that an
    operation puts on the wire is one of a socket at a moment of the operation,
    or an RST, and the receiver reads of it what its sender wrote. -/
theorem emitted_decodes {ctx ctx' : Context} (hreach : Reachable ctx) {op : Op}
    (hstep : ctx.step op = some ctx') {pre post : List Sent} {d : Sent}
    (hwire : ctx'.wire = pre ++ d :: post) (hnew : ctx.wire.length ≤ pre.length) :
    HeaderRoundTrip
    ∧ ((∃ m src, Moment (Op.occasion op) ctx m src ∧ m.ctx.wire = pre ∧ d = src.sent m
        ∧ Decoded m d.bytes src)
      ∨ ∃ addr id ack seq, d = ⟨none, addr, Context.rstDatagram id.toUInt32 ack seq, none⟩
        ∧ Reads d.bytes (rstHdr id ack seq) [] none) := by
  refine ⟨header_round_trip, ?_⟩
  -- a socket or the RST sender wrote it
  cases (explained_step hstep).each pre d post hwire hnew with
  | socket m src hmoment hpre hd =>
      subst hd
      exact .inl ⟨m, src, hmoment, hpre, rfl, decoded_moment hreach hmoment⟩
  | rst addr id ack seq hd =>
      subst hd
      refine .inr ⟨addr, id, ack, seq, rfl, ?_⟩
      have hhdr : hdr (Context.rstDatagram id.toUInt32 ack seq) = rstHdr id ack seq := by
        rw [hdr_rstDatagram, UInt16.toUInt16_toUInt32]
        rfl
      have hlen := length_rstDatagram id.toUInt32 ack seq
      have hread := reads_plain (Nat.le_of_eq hlen.symm) hhdr rfl
        (show stReset < stNumStates by decide) rfl
      rwa [show body (Context.rstDatagram id.toUInt32 ack seq) = [] from
        List.drop_eq_nil_of_le (Nat.le_of_eq hlen)] at hread

/-- A run that leaves one packet in the reorder buffer. -/
def gapOps : List Op := acceptOps ++ [arrives (datagram stData 1001 4 52654 [9])]

/-- The extension byte and the mask of every ack a sweep sends. -/
def sweepReport (ctx : Context) : Option (List (UInt8 × Bytes)) :=
  (ctx.step .issueDeferredAcks).map (fun c =>
    (c.wire.drop ctx.wire.length).map (fun d => (ext d.bytes, maskOf d.bytes (22, 4))))

/-- The sweep acks the gap: bit 0 of the mask stands for the packet after it. -/
theorem emitted_decodes_gap :
    ∃ ctx ctx' d, Reachable ctx ∧ ctx.step .issueDeferredAcks = some ctx'
      ∧ ctx'.wire = ctx.wire ++ [d] ∧ ext d.bytes = 1 ∧ maskOf d.bytes (22, 4) = [1, 0, 0, 0]
      ∧ ((∃ m src, Moment (Op.occasion .issueDeferredAcks) ctx m src ∧ m.ctx.wire = ctx.wire
          ∧ d = src.sent m ∧ Decoded m d.bytes src)
        ∨ ∃ addr id ack seq, d = ⟨none, addr, Context.rstDatagram id.toUInt32 ack seq, none⟩
          ∧ Reads d.bytes (rstHdr id ack seq) [] none) := by
  obtain ⟨ctx, s, hreach, hs, hq⟩ := detachedAfter_of 0 gapOps acceptedKey
    (Q := fun m => sweepReport (Context.attach acceptedKey m) = some [(1, [1, 0, 0, 0])])
    (by decide +kernel)
  rw [attach_detach hs] at hq
  obtain ⟨ctx', hstep, hval⟩ := Option.map_eq_some_iff.mp hq
  obtain ⟨new, hnew⟩ := (explained_step hstep).grows
  rw [← hnew, List.drop_left] at hval
  obtain ⟨d, rfl, hd⟩ := List.map_eq_singleton_iff.mp hval
  obtain ⟨hext, hmask⟩ := Prod.mk.inj hd
  exact ⟨ctx, ctx', d, hreach, hstep, hnew.symm, hext, hmask,
    (emitted_decodes hreach hstep hnew.symm (Nat.le_refl _)).2⟩

end UtpDecoding
