import RustUtp.Flush
import RustUtp.Lifecycle

/-! # Segmentation — the stream in the send queue

    A write cuts the caller's bytes into packets: it tops up the last packet
    while that has not been sent, and appends new ones.  `Writes l` says of two
    sockets that the second holds the stream of the first followed by `l`, cut
    no larger than the packet size, with every older packet as it was but for
    the last one.  `Lasting q` says what later operations, which have queued `q`
    packets, leave of a packet that has been sent: its type, number and bytes,
    until it is acked. -/

namespace UtpSegments

open UtpCircular UtpPacket UtpUtil UtpConnShared UtpEngine UtpEngine.Detached UtpActs
open UtpSendQueue UtpDatagrams UtpFlush UtpMtuSearch UtpLifecycle LabelledPath

/-! ## The stream of a queue -/

/-- The bytes a place of the queue contributes to the stream. -/
def carried : Option OutgoingPacket → Bytes
  | some p => body p.data
  | none => []

/-- The stream carried by the first `n` places from `lo` on. -/
def bytesFrom (f : Nat → Option OutgoingPacket) (lo n : Nat) : Bytes :=
  (List.range n).flatMap (fun j => carried (f (lo + j)))

/-- The payload bytes of the send queue, in sequence order. -/
def queueBytes (s : UtpSock) : Bytes :=
  (List.range s.curWindowPackets).flatMap (fun j => carried (windowPacket s j))

/-- One packet more carries its payload. -/
theorem bytesFrom_succ (f : Nat → Option OutgoingPacket) (lo n : Nat) :
    bytesFrom f lo (n + 1) = bytesFrom f lo n ++ carried (f (lo + n)) := by
  unfold bytesFrom
  rw [List.range_succ, List.flatMap_append, List.flatMap_singleton]

/-- The bytes only depend on what the packets carry. -/
theorem bytesFrom_congr {f f' : Nat → Option OutgoingPacket} {lo n : Nat}
    (h : ∀ j < n, carried (f' (lo + j)) = carried (f (lo + j))) :
    bytesFrom f' lo n = bytesFrom f lo n := by
  induction n with
  | zero => rfl
  | succ n ih =>
      rw [bytesFrom_succ, bytesFrom_succ, ih (fun j hj => h j (by omega)), h n (by omega)]

/-- What a packet says, apart from its timestamps, ack and window. -/
structure Content where
  kind : UInt8
  seq : UInt16
  bytes : Bytes
  payload : Nat

def content (p : OutgoingPacket) : Content :=
  ⟨packetType p.data, seqNr p.data, body p.data, p.payload⟩

/-- What a write leaves at an older place of the queue. Only the last packet
    may be extended, and only while it has never been sent. -/
inductive Later (size : Nat) (last : Prop) : Option OutgoingPacket → Option OutgoingPacket → Prop where
  | gone : Later size last none none
  | same (p p' : OutgoingPacket) (hsent : p.transmissions ≤ p'.transmissions)
      (hcontent : content p' = content p) : Later size last (some p) (some p')
  | extended (p p' : OutgoingPacket) (hlast : last) (hunsent : p.transmissions = 0)
      (hseq : seqNr p'.data = seqNr p.data) (hsize : p'.payload ≤ max size p.payload)
      (hbytes : body p.data <+: body p'.data) : Later size last (some p) (some p')

/-- A packet that nothing happened to. -/
theorem later_refl (size : Nat) (last : Prop) (o : Option OutgoingPacket) :
    Later size last o o := by
  cases o with
  | none => exact .gone
  | some p => exact .same p p (Nat.le_refl _) rfl

/-- What may happen to a packet may happen twice. -/
theorem later_trans {size : Nat} {last last' : Prop} {o₁ o₂ o₃ : Option OutgoingPacket}
    (hlast : last' → last) (h : Later size last o₁ o₂) (h' : Later size last' o₂ o₃) :
    Later size last o₁ o₃ := by
  cases h with
  | gone => cases h'; exact .gone
  | same p p₂ hsent hcontent =>
      cases h' with
      | same _ p₃ hsent' hcontent' =>
          exact .same p p₃ (hsent.trans hsent') (hcontent'.trans hcontent)
      | extended _ p₃ hl hunsent hseq hsize hbytes =>
          obtain ⟨-, hseq₂, hbytes₂, hpay₂⟩ := Content.mk.inj hcontent
          exact .extended p p₃ (hlast hl) (by omega) (hseq.trans hseq₂) (by omega)
            (by rw [← hbytes₂]; exact hbytes)
  | extended p p₂ hl hunsent hseq hsize hbytes =>
      cases h' with
      | same _ p₃ hsent' hcontent' =>
          obtain ⟨-, hseq₃, hbytes₃, hpay₃⟩ := Content.mk.inj hcontent'
          exact .extended p p₃ hl hunsent (hseq₃.trans hseq) (by omega)
            (by rw [hbytes₃]; exact hbytes)
      | extended _ p₃ _ _ hseq' hsize' hbytes' =>
          exact .extended p p₃ hl hunsent (hseq'.trans hseq) (by omega) (hbytes.trans hbytes')

/-- The queue of `cwp` packets from `lo` on has grown by the bytes `l`. -/
structure Grown (size lo cwp cwp' : Nat) (f f' : Nat → Option OutgoingPacket) (l : Bytes) :
    Prop where
  le : cwp ≤ cwp'
  bytes : bytesFrom f' lo cwp' = bytesFrom f lo cwp ++ l
  old : ∀ j, j < cwp → Later size (j + 1 = cwp) (f (lo + j)) (f' (lo + j))
  new : ∀ j p, cwp ≤ j → f' (lo + j) = some p → p.payload ≤ size

theorem Grown.trans {size lo c₁ c₂ c₃ : Nat} {f₁ f₂ f₃ : Nat → Option OutgoingPacket}
    {l l' : Bytes} (h : Grown size lo c₁ c₂ f₁ f₂ l) (h' : Grown size lo c₂ c₃ f₂ f₃ l') :
    Grown size lo c₁ c₃ f₁ f₃ (l ++ l') := by
  have hle := h.le
  refine ⟨h.le.trans h'.le, ?_, fun j hj => ?_, fun j p hj hp => ?_⟩
  · rw [h'.bytes, h.bytes, List.append_assoc]
  · exact later_trans (fun _ => by omega) (h.old j hj) (h'.old j (by omega))
  · by_cases hlt : j < c₂
    · -- made by the first part, at most extended by the second
      have hlater := h'.old j hlt
      rw [hp] at hlater
      cases hf : f₂ (lo + j) with
      | none => rw [hf] at hlater; cases hlater
      | some q =>
          have hq := h.new j q hj hf
          rw [hf] at hlater
          cases hlater with
          | same _ _ _ hcontent =>
              have hpay : p.payload = q.payload := (Content.mk.inj hcontent).2.2.2
              omega
          | extended _ _ _ _ _ hsize _ => omega
    · exact h'.new j p (by omega) hp

/-- A step of a write: what it makes of every queue that the socket may
    represent. -/
def Writes (size : Nat) (l : Bytes) (m m' : Detached) : Prop :=
  ∀ lo f, Queue AnyPacket m.sock lo f →
    ∃ f', Queue AnyPacket m'.sock lo f'
      ∧ Grown size lo m.sock.curWindowPackets m'.sock.curWindowPackets f f' l

namespace Writes

theorem trans {size : Nat} {l l' : Bytes} {m₁ m₂ m₃ : Detached} (h : Writes size l m₁ m₂)
    (h' : Writes size l' m₂ m₃) : Writes size (l ++ l') m₁ m₃ := by
  intro lo f hq
  obtain ⟨f₂, hq₂, hgrown⟩ := h lo f hq
  obtain ⟨f₃, hq₃, hgrown'⟩ := h' lo f₂ hq₂
  exact ⟨f₃, hq₃, hgrown.trans hgrown'⟩

/-- Two steps in a row, the second without new bytes. -/
theorem silent {size : Nat} {l : Bytes} {m₁ m₂ m₃ : Detached} (h : Writes size l m₁ m₂)
    (h' : Writes size [] m₂ m₃) : Writes size l m₁ m₃ := by
  have := h.trans h'
  rwa [List.append_nil] at this

/-- A step that leaves the queue writes nothing. -/
theorem of_view {size : Nat} {m m' : Detached} (h : txView m'.sock = txView m.sock) :
    Writes size [] m m' := by
  intro lo f hq
  have hcwp : m'.sock.curWindowPackets = m.sock.curWindowPackets :=
    congrArg TxView.curWindowPackets h
  refine ⟨f, hq.of_view h, ?_⟩
  rw [hcwp]
  refine ⟨Nat.le_refl _, (List.append_nil _).symm, fun j _ => later_refl _ _ _,
    fun j p hj hp => ?_⟩
  have := hq.live _ p hp
  omega

end Writes

/-! ## The steps of a write -/

/-- A transmission renews the header and keeps type, number and payload. -/
theorem content_sentPacket (m : Detached) {n : Nat} {p : OutgoingPacket} (h : PacketOk n p) :
    content (m.sentPacket p) = content p := by
  have hlen : headerSize ≤ p.data.length := by
    rw [h.length]
    exact Nat.le_add_right _ _
  have hhdr := hdr_outgoing m hlen m.sock.ackNr
  have hkind : packetType (m.sentPacket p).data = packetType p.data :=
    congrArg Hdr.packetType hhdr
  have hseq : seqNr (m.sentPacket p).data = seqNr p.data := congrArg Hdr.seqNr hhdr
  have hbody : body (m.sentPacket p).data = body p.data := body_outgoing m p.data m.sock.ackNr
  unfold content
  rw [hkind, hseq, hbody]
  rfl

/-- Transmitting a packet writes nothing. -/
theorem writes_sendPacketAt (size : Nat) (m : Detached) (seq : UInt16) :
    Writes size [] m (m.sendPacketAt seq) := by
  intro lo f hq
  obtain ⟨f', hq', htouched⟩ := hq.sendPacketAt seq (fun _ _ _ _ => trivial)
  have hcwp := (steady_sendPacketAt m seq).cwp
  have hlater : ∀ n, Later size False (f n) (f' n) := by
    intro n
    rcases htouched n with heq | ⟨p, hp, hp'⟩
    · rw [heq]
      exact later_refl _ _ _
    · rw [hp, hp']
      exact .same p _ (Nat.le_succ _) (content_sentPacket m (hq.good n p hp).1)
  have hcarried : ∀ n, carried (f' n) = carried (f n) := by
    intro n
    have h := hlater n
    revert h
    cases f n <;> cases f' n <;> intro h
    · rfl
    · cases h
    · cases h
    · cases h with
      | same _ _ _ hcontent => exact (Content.mk.inj hcontent).2.2.1
      | extended _ _ hlast => exact hlast.elim
  refine ⟨f', hq', ?_⟩
  rw [hcwp]
  refine ⟨Nat.le_refl _, ?_, fun j _ => later_trans (fun h => h.elim) (later_refl _ _ _) (hlater _),
    fun j p hj hp => ?_⟩
  · rw [List.append_nil]
    exact bytesFrom_congr (fun j _ => hcarried _)
  · have := hq'.live _ p hp
    rw [hcwp] at this
    omega

/-- A new packet carries the bytes it was made of. -/
theorem body_newPacket (m : Detached) (flags : UInt8) (n : Nat) (data : Bytes) :
    body (m.newPacket flags n data).data = data.take n := by
  refine (body_fillHeader m flags (some m.sock.seqNr) _).trans ?_
  exact List.drop_left' (List.length_replicate)

/-- An extended packet carries the new bytes behind its own. -/
theorem body_extendedPacket (m : Detached) {k : Nat} {p : OutgoingPacket} (h : PacketOk k p)
    (flags : UInt8) (n : Nat) (data : Bytes) :
    body (m.extendedPacket p flags n data).data = body p.data ++ data.take n := by
  refine (body_fillHeader m flags none _).trans ?_
  exact List.drop_append_of_le_length (by rw [h.length]; exact Nat.le_add_right _ _)

/-- Queueing a packet writes the bytes it takes. -/
theorem writes_pushPacket {size : Nat} {m : Detached} {n : Nat} {data : Bytes}
    (hroom : m.sock.curWindowPackets < outgoingBufferMaxSize - 1) (hn : n ≤ data.length)
    (hsize : n ≤ size) : Writes size (data.take n) m (m.pushPacket stData n data) := by
  intro lo f hq
  refine ⟨_, hq.pushPacket (by decide) hn (.inl hroom) trivial, ?_⟩
  have hcwp : (m.pushPacket stData n data).sock.curWindowPackets
      = m.sock.curWindowPackets + 1 := rfl
  have hother : ∀ j, j < m.sock.curWindowPackets → Function.update f
      (lo + m.sock.curWindowPackets) (some (m.newPacket stData n data)) (lo + j) = f (lo + j) :=
    fun j hj => Function.update_of_ne (by omega) _ _
  rw [hcwp]
  refine ⟨Nat.le_succ _, ?_, fun j hj => ?_, fun j p hj hp => ?_⟩
  · rw [bytesFrom_succ, Function.update_self, bytesFrom_congr (fun j hj => by rw [hother j hj])]
    exact congrArg _ (body_newPacket m stData n data)
  · rw [hother j hj]
    exact later_refl _ _ _
  · by_cases hlast : j = m.sock.curWindowPackets
    · rw [hlast, Function.update_self] at hp
      obtain rfl := Option.some.inj hp
      exact hsize
    · rw [Function.update_of_ne (by omega)] at hp
      have := hq.live _ p hp
      omega

/-- Extending the last packet writes the bytes it takes, if it was never sent.
    -/
theorem writes_extendLast {size : Nat} {m : Detached} (hcwp : 0 < m.sock.curWindowPackets)
    {p : OutgoingPacket} (hp : m.sock.outbuf.get (m.sock.seqNr - 1).toNat = some p)
    (hunsent : p.transmissions = 0) {n : Nat} {data : Bytes} (hn : n ≤ data.length)
    (hsize : p.payload + n ≤ max size p.payload) :
    Writes size (data.take n) m (m.extendLast p stData n data) := by
  intro lo f hq
  have hflags : stData < stNumStates := by decide
  obtain ⟨hlast, hq'⟩ := hq.extendLast hcwp hp hunsent hflags hn trivial
  obtain ⟨c, hc⟩ : ∃ c, m.sock.curWindowPackets = c + 1 := ⟨_, (Nat.succ_pred_eq_of_pos hcwp).symm⟩
  have hplace : lo + m.sock.curWindowPackets - 1 = lo + c := by omega
  rw [hplace] at hlast hq'
  have hpk := (hq.good _ p hlast).1
  refine ⟨_, hq', ?_⟩
  have hsame : (m.extendLast p stData n data).sock.curWindowPackets
      = m.sock.curWindowPackets := rfl
  rw [hsame, hc]
  refine ⟨Nat.le_refl _, ?_, fun j hj => ?_, fun j q hj hq₁ => ?_⟩
  · rw [bytesFrom_succ, bytesFrom_succ, Function.update_self, hlast,
      bytesFrom_congr (fun j hj => by rw [Function.update_of_ne (by omega)]), List.append_assoc]
    exact congrArg _ (body_extendedPacket m hpk stData n data)
  · by_cases hjc : j = c
    · rw [hjc, Function.update_self, hlast]
      refine .extended p _ rfl hunsent ?_ hsize ?_
      · exact (extendedPacket_ok hpk (by decide) hn).seq.trans hpk.seq.symm
      · rw [body_extendedPacket m hpk]
        exact List.prefix_append _ _
    · rw [Function.update_of_ne (by omega)]
      exact later_refl _ _ _
  · have := hq'.live _ q hq₁
    rw [hsame] at this
    omega

/-- Looking for room writes nothing. -/
theorem writes_isFull (size : Nat) (m : Detached) (bytes : Option Nat) :
    Writes size [] m (m.isFull bytes).1 := by
  unfold isFull
  split
  · exact .of_view rfl
  · exact .of_view rfl

/-- Flushing writes nothing. -/
theorem writes_flushLoop (size packetSize : Nat) :
    ∀ (n : Nat) (i : UInt16) (m : Detached),
      Writes size [] m (flushLoop packetSize n i m).1 := by
  intro n
  induction n with
  | zero => intro i m; exact .of_view rfl
  | succ n ih =>
      intro i m
      rcases round packetSize n i m with
        ⟨-, hloop, -⟩ | ⟨_, -, -, hloop, -⟩ | ⟨_, -, -, -, hloop, -⟩ | ⟨_, -, -, -, hloop, -⟩
      · rw [hloop]
        exact ih (i + 1) m
      · rw [hloop]
        exact writes_isFull size m none
      · rw [hloop]
        exact (writes_sendPacketAt size m i).silent (ih (i + 1) _)
      · rw [hloop]
        exact ih (i + 1) m

/-! ## The loop of `write_outgoing_packet` -/

/-- Topping up goes to the packet size and not beyond. -/
theorem roomFor_fits (p : OutgoingPacket) (packetSize payload : Nat) :
    p.payload + roomFor p packetSize payload ≤ max packetSize p.payload := by
  unfold roomFor
  omega

/-- The loop writes exactly the bytes it was given: first into the last packet,
    then into a new one. -/
theorem writes_writeLoop (packetSize : Nat) :
    ∀ (fuel payload : Nat) (data : Bytes) (m : Detached), payload < fuel →
      payload ≤ data.length → payload ≤ packetSize →
      m.sock.curWindowPackets < outgoingBufferMaxSize - 1 →
      Writes packetSize (data.take payload) m
        (writeLoop packetSize stData fuel payload data m).1 := by
  intro fuel
  induction fuel with
  | zero => intro payload data m h; omega
  | succ fuel ih =>
      intro payload data m hfuel hlen hsize hroom
      have hcheck : m.check (m.sock.curWindowPackets < outgoingBufferMaxSize) = m := by
        rw [decide_eq_true (by unfold outgoingBufferMaxSize at *; omega), check_true]
      have hrcv : Writes packetSize [] m m.updateRcvWin := .of_view rfl
      have hroom₁ : m.updateRcvWin.sock.curWindowPackets < outgoingBufferMaxSize - 1 := hroom
      rw [writeLoop, hcheck]
      dsimp only
      generalize m.updateRcvWin = m₁ at hrcv hroom₁ ⊢
      split
      · rename_i p hp
        obtain ⟨hpos, hcwp, hget, hunsent, hsmall⟩ := extensible_spec hp
        have hle := roomFor_le p packetSize payload
        have hadd := roomFor_pos hsmall hpos
        have hfits := roomFor_fits p packetSize payload
        generalize roomFor p packetSize payload = added at hle hadd hfits
        have hext : Writes packetSize (data.take added) m (m₁.extendLast p stData added data) :=
          hrcv.trans (writes_extendLast hcwp hget hunsent (by omega) hfits)
        split
        · rename_i hdone
          obtain rfl : added = payload := by omega
          exact hext
        · have hrest := ih (payload - added) (data.drop added)
            (m₁.extendLast p stData added data) (by omega) (by rw [List.length_drop]; omega)
            (by omega) hroom₁
          -- the bytes split where the last packet is full
          have hsplit : data.take payload
              = data.take added ++ (data.drop added).take (payload - added) := by
            rw [← List.take_add]
            congr 1
            omega
          rw [hsplit]
          exact hext.trans hrest
      · exact hrcv.trans (writes_pushPacket hroom₁ hlen hsize)

/-- The loop makes at most one new packet. -/
theorem writeLoop_creates (packetSize : Nat) (flags : UInt8) :
    ∀ (fuel payload : Nat) (data : Bytes) (m : Detached),
      m.sock.curWindowPackets
          ≤ (writeLoop packetSize flags fuel payload data m).1.sock.curWindowPackets
        ∧ (writeLoop packetSize flags fuel payload data m).1.sock.curWindowPackets
          ≤ m.sock.curWindowPackets + 1 := by
  intro fuel
  induction fuel with
  | zero => intro payload data m; exact ⟨Nat.le_refl _, Nat.le_succ _⟩
  | succ fuel ih =>
      intro payload data m
      have hround : ((m.check (m.sock.curWindowPackets < outgoingBufferMaxSize)).updateRcvWin
        ).sock.curWindowPackets = m.sock.curWindowPackets := rfl
      rw [writeLoop]
      dsimp only
      generalize (m.check (m.sock.curWindowPackets < outgoingBufferMaxSize)).updateRcvWin = m₁
        at hround ⊢
      split
      · rename_i p hp
        have hext : (m₁.extendLast p flags (roomFor p packetSize payload) data
          ).sock.curWindowPackets = m.sock.curWindowPackets := hround
        generalize m₁.extendLast p flags (roomFor p packetSize payload) data = m₂ at hext ⊢
        -- all data fitted into the last packet, or the loop goes round
        split
        · exact ⟨Nat.le_of_eq hext.symm, by rw [hext]; exact Nat.le_succ _⟩
        · have hrest := ih (payload - roomFor p packetSize payload)
            (data.drop (roomFor p packetSize payload)) m₂
          rw [hext] at hrest
          exact hrest
      · have hpush : (m₁.pushPacket flags payload data).sock.curWindowPackets
            = m.sock.curWindowPackets + 1 := congrArg (· + 1) hround
        rw [hpush]
        exact ⟨Nat.le_succ _, Nat.le_refl _⟩

/-- The loop comes to its end within `payload + 1` rounds. -/
theorem writeLoop_ends (packetSize : Nat) (flags : UInt8) :
    ∀ (fuel fuel' payload : Nat) (data : Bytes) (m : Detached), payload < fuel → payload < fuel' →
      writeLoop packetSize flags fuel payload data m
        = writeLoop packetSize flags fuel' payload data m := by
  intro fuel
  induction fuel with
  | zero => intro fuel' payload data m h; omega
  | succ fuel ih =>
      intro fuel' payload data m hfuel hfuel'
      obtain ⟨fuel', rfl⟩ : ∃ k, fuel' = k + 1 := ⟨fuel' - 1, by omega⟩
      rw [writeLoop, writeLoop]
      dsimp only
      split
      · rename_i p hp
        obtain ⟨hpos, -, -, -, hsmall⟩ := extensible_spec hp
        have hadd := roomFor_pos hsmall hpos
        split
        · rfl
        · exact ih fuel' _ _ _ (by omega) (by omega)
      · rfl

/-! ## A whole write -/

/-- Flushing leaves the packet size and the number of packets. -/
theorem last_flushLoop (packetSize : Nat) :
    ∀ (n : Nat) (i : UInt16) (m : Detached),
      (flushLoop packetSize n i m).1.sock.mtu.last = m.sock.mtu.last
        ∧ (flushLoop packetSize n i m).1.sock.curWindowPackets = m.sock.curWindowPackets := by
  intro n
  induction n with
  | zero => intro i m; exact ⟨rfl, rfl⟩
  | succ n ih =>
      intro i m
      rcases round packetSize n i m with
        ⟨-, hloop, -⟩ | ⟨_, -, -, hloop, -⟩ | ⟨_, -, -, -, hloop, -⟩ | ⟨_, -, -, -, hloop, -⟩
      · rw [hloop]
        exact ih (i + 1) m
      · rw [hloop]
        unfold isFull
        split <;> exact ⟨rfl, rfl⟩
      · have hsteady := steady_sendPacketAt m i
        rw [hloop, (ih (i + 1) _).1, (ih (i + 1) _).2]
        exact ⟨hsteady.last, hsteady.cwp⟩
      · rw [hloop]
        exact ih (i + 1) m

/-- Queueing leaves the packet size. -/
theorem mtu_writeLoop (packetSize : Nat) (flags : UInt8) :
    ∀ (fuel payload : Nat) (data : Bytes) (m : Detached),
      (writeLoop packetSize flags fuel payload data m).1.sock.mtu = m.sock.mtu := by
  intro fuel
  induction fuel with
  | zero => intro payload data m; rfl
  | succ fuel ih =>
      intro payload data m
      have hround : ((m.check (m.sock.curWindowPackets < outgoingBufferMaxSize)).updateRcvWin
        ).sock.mtu = m.sock.mtu := rfl
      rw [writeLoop]
      dsimp only
      generalize (m.check (m.sock.curWindowPackets < outgoingBufferMaxSize)).updateRcvWin = m₁
        at hround ⊢
      split
      · rename_i p hp
        have hext : (m₁.extendLast p flags (roomFor p packetSize payload) data).sock.mtu
            = m.sock.mtu := hround
        generalize m₁.extendLast p flags (roomFor p packetSize payload) data = m₂ at hext ⊢
        split
        · exact hext
        · rw [ih]
          exact hext
      · exact hround

theorem armTimer_mtu (m : Detached) : m.armTimer.sock.mtu = m.sock.mtu := by
  unfold armTimer
  split <;> rfl

theorem last_writeOutgoingPacket (m : Detached) (payload : Nat) (flags : UInt8) (data : Bytes) :
    (m.writeOutgoingPacket payload flags data).1.sock.mtu.last = m.sock.mtu.last := by
  unfold writeOutgoingPacket flushPackets
  dsimp only
  rw [(last_flushLoop _ _ _ _).1, mtu_writeLoop, armTimer_mtu]

/-- One call queues one packet at most. -/
theorem writeOutgoingPacket_creates (m : Detached) (payload : Nat) (flags : UInt8) (data : Bytes) :
    m.sock.curWindowPackets
        ≤ (m.writeOutgoingPacket payload flags data).1.sock.curWindowPackets
      ∧ (m.writeOutgoingPacket payload flags data).1.sock.curWindowPackets
        ≤ m.sock.curWindowPackets + 1 := by
  unfold writeOutgoingPacket flushPackets
  dsimp only
  rw [(last_flushLoop _ _ _ _).2, ← (armTimer_sock m).2]
  exact writeLoop_creates _ flags _ payload data m.armTimer

/-- Arming the timer writes nothing. -/
theorem writes_armTimer (size : Nat) (m : Detached) : Writes size [] m m.armTimer := by
  intro lo f hq
  refine Writes.of_view ?_ lo f hq
  unfold armTimer
  split
  · rename_i hcwp
    have hzero : m.sock.curWindow = 0 := by
      rw [hq.bytes, hcwp, Nat.add_zero, Finset.Ico_self, Finset.sum_empty]
    rw [decide_eq_true hzero, check_true]
    rfl
  · rfl

/-- One call writes the bytes it was told to take. -/
theorem writes_writeOutgoingPacket {m : Detached} {payload : Nat} {data : Bytes}
    (hlen : payload ≤ data.length) (hsize : payload ≤ m.sock.getPacketSize)
    (hroom : m.sock.curWindowPackets < outgoingBufferMaxSize - 1) :
    Writes m.sock.getPacketSize (data.take payload) m
      (m.writeOutgoingPacket payload stData data).1 := by
  have hpacket : m.armTimer.sock.getPacketSize = m.sock.getPacketSize := by
    unfold UtpSock.getPacketSize
    rw [armTimer_mtu]
  have hloop := writes_writeLoop m.sock.getPacketSize (payload + 1) payload data m.armTimer
    (Nat.lt_succ_self _) hlen hsize (by rw [(armTimer_sock m).2]; exact hroom)
  unfold writeOutgoingPacket
  dsimp only
  rw [hpacket]
  exact ((writes_armTimer _ m).trans hloop).silent (writes_flushLoop _ _ _ _ _)

/-- Every round of `write_engine` appends what it takes from the slice. -/
theorem writes_writeEngineLoop (packetSize : Nat) :
    ∀ (fuel : Nat) (remaining : Bytes) (sent : Nat) (m : Detached),
      m.sock.state = .connected → m.sock.finSent = false → m.sock.getPacketSize = packetSize →
      m.sock.mtu.last ≠ 0 →
      ∃ k ≤ remaining.length,
        (writeEngineLoop packetSize fuel remaining sent m).2.1 = sent + k
        ∧ Writes packetSize (remaining.take k) m
          (writeEngineLoop packetSize fuel remaining sent m).1 := by
  intro fuel
  induction fuel with
  | zero =>
      intro remaining sent m _ _ _ _
      exact ⟨0, Nat.zero_le _, rfl, .of_view rfl⟩
  | succ fuel ih =>
      intro remaining sent m hst hfin hsize hlast
      rw [writeEngineLoop]
      generalize hnum : min remaining.length packetSize = num
      have hle : num ≤ remaining.length := by omega
      dsimp only
      rw [isFull_snd]
      cases hfull : m.sock.fullFor (some num) with
      | true =>
          -- no room: the rest of the data stays with the caller
          exact ⟨0, Nat.zero_le _, rfl, writes_isFull packetSize m _⟩
      | false =>
          rw [if_neg Bool.false_ne_true]
          have hroom := room_of_not_full hfull
          obtain ⟨-, hrest, hkept⟩ := @path_writeOutgoingPacket none m num remaining hle hst hfin hroom
          have hmade := writes_writeOutgoingPacket (m := m) hle (by omega) hroom
          rw [hsize] at hmade
          have hlast' := last_writeOutgoingPacket m num stData remaining
          -- the data is used up, or more follows
          split
          · exact ⟨num, hle, rfl, hmade⟩
          · obtain ⟨k, hk, hsent, hmade'⟩ := ih
              (m.writeOutgoingPacket num stData remaining).2 (sent + num)
              (m.writeOutgoingPacket num stData remaining).1 (hkept.state.trans hst)
              (hkept.finSent.trans hfin) ((packetSize_of_last hlast' hlast).trans hsize)
              (by rw [hlast']; exact hlast)
            rw [hrest, List.length_drop] at hk
            refine ⟨num + k, by omega, by rw [hsent]; omega, ?_⟩
            rw [List.take_add]
            rw [hrest] at hmade' ⊢
            exact hmade.trans hmade'

/-- A slice is used up, or refused, within as many rounds as it has bytes. -/
theorem writeEngineLoop_ends (packetSize : Nat) (hpos : 0 < packetSize) :
    ∀ (fuel fuel' : Nat) (remaining : Bytes) (sent : Nat) (m : Detached),
      m.sock.state = .connected → m.sock.finSent = false →
      remaining.length < fuel → remaining.length < fuel' →
      writeEngineLoop packetSize fuel remaining sent m
        = writeEngineLoop packetSize fuel' remaining sent m := by
  intro fuel
  induction fuel with
  | zero => intro fuel' remaining sent m _ _ h; omega
  | succ fuel ih =>
      intro fuel' remaining sent m hst hfin hfuel hfuel'
      obtain ⟨fuel', rfl⟩ : ∃ k, fuel' = k + 1 := ⟨fuel' - 1, by omega⟩
      rw [writeEngineLoop, writeEngineLoop]
      generalize hnum : min remaining.length packetSize = num
      have hle : num ≤ remaining.length := by omega
      dsimp only
      rw [isFull_snd]
      cases hfull : m.sock.fullFor (some num) with
      -- no room ends both runs
      | true => rfl
      | false =>
          rw [if_neg Bool.false_ne_true, if_neg Bool.false_ne_true]
          obtain ⟨-, hrest, hkept⟩ := @path_writeOutgoingPacket none m num remaining hle hst hfin
            (room_of_not_full hfull)
          -- each round takes at least one byte, so either amount of fuel is enough
          split
          · rfl
          · rename_i hmore
            rw [hrest, List.length_drop] at hmore
            exact ih fuel' _ _ _ (hkept.state.trans hst) (hkept.finSent.trans hfin)
              (by rw [hrest, List.length_drop]; omega) (by rw [hrest, List.length_drop]; omega)

/-- **A WRITE CONSERVES THE STREAM**: it appends the bytes it reports. -/
theorem writes_writeEngine {m : Detached} (hst : m.sock.state = .connected)
    (hlast : m.sock.mtu.last ≠ 0) (buf : Bytes) :
    (m.writeEngine buf).2 ≤ buf.length
      ∧ Writes m.sock.getPacketSize (buf.take (m.writeEngine buf).2) m (m.writeEngine buf).1 := by
  unfold writeEngine
  rw [if_neg (not_not.mpr hst)]
  cases hfin : m.sock.finSent with
  | true => exact ⟨Nat.zero_le _, .of_view rfl⟩
  | false =>
      rw [if_neg Bool.false_ne_true]
      obtain ⟨k, hk, hsent, hmade⟩ := writes_writeEngineLoop m.sock.getPacketSize (buf.length + 1)
        buf 0 m.readClock hst hfin rfl hlast
      rw [Nat.zero_add] at hsent
      have hclock : Writes m.sock.getPacketSize [] m m.readClock := .of_view rfl
      have hall := hclock.trans hmade
      have hsize : m.readClock.sock.getPacketSize = m.sock.getPacketSize := rfl
      dsimp only
      rw [hsize]
      generalize writeEngineLoop m.sock.getPacketSize (buf.length + 1) buf 0 m.readClock = r
        at hsent hall ⊢
      split
      · rw [hsent]
        exact ⟨hk, hall⟩
      · have hchk := hall.silent (writes_isFull m.sock.getPacketSize r.1 none)
        -- the check at the end changes nothing that is queued
        rw [hsent]
        split
        · exact ⟨hk, hchk.silent (.of_view rfl)⟩
        · exact ⟨hk, hchk⟩

/-! ## Packets that have been sent -/

/-- What is left of the queue below number `e`: an acked packet does not come
    back, and a packet that has been sent stays as it is until it is acked. -/
structure Frozen (e : Nat) (f f' : Nat → Option OutgoingPacket) : Prop where
  acked : ∀ n, n < e → f n = none → f' n = none
  sent : ∀ n p, f n = some p → 0 < p.transmissions →
    f' n = none ∨ ∃ p', f' n = some p' ∧ 0 < p'.transmissions ∧ content p' = content p

/-- Every queue that `s` may represent has a successor that `s'` represents. -/
def Evolves (ok : Nat → OutgoingPacket → Prop) (s s' : UtpSock) : Prop :=
  ∀ lo f, Queue ok s lo f →
    ∃ lo' f', Queue ok s' lo' f' ∧ lo ≤ lo'
      ∧ lo + s.curWindowPackets ≤ lo' + s'.curWindowPackets
      ∧ Frozen (lo + s.curWindowPackets) f f'

/-- Packets that nothing happened to. -/
theorem frozen_refl (e : Nat) (f : Nat → Option OutgoingPacket) : Frozen e f f :=
  ⟨fun _ _ h => h, fun _ p hp hsent => .inr ⟨p, hp, hsent, rfl⟩⟩

/-- A packet that was touched keeps what it carries. -/
theorem frozen_touched {e : Nat} {f f' : Nat → Option OutgoingPacket}
    {g : OutgoingPacket → OutgoingPacket} (h : Touched g f f')
    (hg : ∀ n p, f n = some p → p.transmissions ≤ (g p).transmissions ∧ content (g p) = content p) :
    Frozen e f f' := by
  refine ⟨fun n _ hnone => ?_, fun n p hp hsent => ?_⟩
  · rcases h n with heq | ⟨p, hp, -⟩
    · rw [heq]
      exact hnone
    · rw [hnone] at hp
      exact nomatch hp
  · rcases h n with heq | ⟨q, hq, hq'⟩
    · exact .inr ⟨p, by rw [heq]; exact hp, hsent, rfl⟩
    · obtain rfl : p = q := Option.some.inj (hp.symm.trans hq)
      obtain ⟨hle, hcontent⟩ := hg n p hp
      exact .inr ⟨g p, hq', by omega, hcontent⟩

/-- Acks take packets away and change none. -/
theorem frozen_thinned {e : Nat} {f f' : Nat → Option OutgoingPacket}
    (h : ∀ n, f' n = f n ∨ f' n = none) : Frozen e f f' := by
  refine ⟨fun n _ hnone => ?_, fun n p hp hsent => ?_⟩
  · rcases h n with heq | hgone
    · rw [heq]
      exact hnone
    · exact hgone
  · rcases h n with heq | hgone
    · exact .inr ⟨p, by rw [heq]; exact hp, hsent, rfl⟩
    · exact .inl hgone

/-- The place of a packet that has not been sent is written to. -/
theorem frozen_update {e n : Nat} {f : Nat → Option OutgoingPacket} {q : OutgoingPacket}
    (h : ∀ p, f n = some p → p.transmissions = 0) (hnew : f n = none → e ≤ n) :
    Frozen e f (Function.update f n (some q)) := by
  refine ⟨fun k hk hnone => ?_, fun k p hp hsent => ?_⟩
  · have hne : k ≠ n := by
      rintro rfl
      have := hnew hnone
      omega
    rw [Function.update_of_ne hne]
    exact hnone
  · have hne : k ≠ n := by
      rintro rfl
      have := h p hp
      omega
    exact .inr ⟨p, by rw [Function.update_of_ne hne]; exact hp, hsent, rfl⟩

section Evolution

variable {ok : Nat → OutgoingPacket → Prop}

/-- A step that leaves the queue. -/
theorem Evolves.of_view {s s' : UtpSock} (h : txView s' = txView s) : Evolves ok s s' := by
  intro lo f hq
  have hcwp : s'.curWindowPackets = s.curWindowPackets := congrArg TxView.curWindowPackets h
  exact ⟨lo, f, hq.of_view h, Nat.le_refl _, by rw [hcwp], frozen_refl _ f⟩

theorem Evolves.refl (s : UtpSock) : Evolves ok s s := .of_view rfl

/-- A place that was there before both changes. -/
theorem Frozen.trans {e e' : Nat} {f f' f'' : Nat → Option OutgoingPacket} (h : Frozen e f f')
    (h' : Frozen e' f' f'') (hle : e ≤ e') (hlive : ∀ n p, f n = some p → n < e) :
    Frozen e f f'' := by
  refine ⟨fun n hn hnone => h'.acked n (by omega) (h.acked n hn hnone), fun n p hp hsent => ?_⟩
  have hn := hlive n p hp
  rcases h.sent n p hp hsent with hgone | ⟨p₂, hp₂, hsent₂, hcontent⟩
  · exact .inl (h'.acked n (by omega) hgone)
  · rcases h'.sent n p₂ hp₂ hsent₂ with hgone | ⟨p₃, hp₃, hsent₃, hcontent'⟩
    · exact .inl hgone
    · exact .inr ⟨p₃, hp₃, hsent₃, hcontent'.trans hcontent⟩

theorem Evolves.trans (s₁ s₂ s₃ : UtpSock) (h : Evolves ok s₁ s₂) (h' : Evolves ok s₂ s₃) :
    Evolves ok s₁ s₃ := by
  intro lo f hq
  obtain ⟨lo₂, f₂, hq₂, hlo, hle, hfrozen⟩ := h lo f hq
  obtain ⟨lo₃, f₃, hq₃, hlo', hle', hfrozen'⟩ := h' lo₂ f₂ hq₂
  exact ⟨lo₃, f₃, hq₃, hlo.trans hlo', hle.trans hle', hfrozen.trans hfrozen' hle hq.live⟩

/-- How far one act moves the old end `lo` of a queue that ends before `e`: only
    an ack does, and then the datagram acks a number of the queue. -/
def Advance (inp : Option Bytes) (lo e lo' : Nat) : Prop :=
  lo' = lo ∨ ∃ buf n, inp = some buf ∧ UInt16.ofNat n = ackNr buf + 1 ∧ lo < n ∧ n ≤ e ∧ lo' ≤ e

/-- The same as `Evolves`, for one act. -/
def Advances (ok : Nat → OutgoingPacket → Prop) (inp : Option Bytes) (s s' : UtpSock) : Prop :=
  ∀ lo f, Queue ok s lo f →
    ∃ lo' f', Queue ok s' lo' f' ∧ lo ≤ lo'
      ∧ lo + s.curWindowPackets ≤ lo' + s'.curWindowPackets
      ∧ Frozen (lo + s.curWindowPackets) f f' ∧ Advance inp lo (lo + s.curWindowPackets) lo'

/-- A step that takes packets off in front and adds them behind is an evolution.
    -/
theorem Advances.evolves {inp : Option Bytes} {s s' : UtpSock} (h : Advances ok inp s s') :
    Evolves ok s s' := by
  intro lo f hq
  obtain ⟨lo', f', hq', hle, hend, hfrozen, -⟩ := h lo f hq
  exact ⟨lo', f', hq', hle, hend, hfrozen⟩

/-- A step that leaves the queue takes none off. -/
theorem Advances.of_view {inp : Option Bytes} {s s' : UtpSock} (h : txView s' = txView s) :
    Advances ok inp s s' := by
  intro lo f hq
  have hcwp : s'.curWindowPackets = s.curWindowPackets := congrArg TxView.curWindowPackets h
  exact ⟨lo, f, hq.of_view h, Nat.le_refl _, by rw [hcwp], frozen_refl _ f, .inl rfl⟩

/-- An ack of nothing leaves the queue as long as it is. -/
theorem ackCumulative_zero {m : Detached} {lo : Nat} {f : Nat → Option OutgoingPacket}
    (h : Queue ok m.sock lo f) :
    (ackCumulative 0 m).sock.curWindowPackets = m.sock.curWindowPackets := by
  have hstop : ∀ n, shrinkLoop n m = m := by
    intro n
    cases n with
    | zero => rfl
    | succ n =>
        rw [shrinkLoop, if_neg]
        rintro ⟨hpos, hnone⟩
        rw [h.oldest_eq, h.get_number (Nat.le_refl _) (by omega)] at hnone
        have hsome := h.oldest hpos
        rw [← Option.not_isNone, hnone] at hsome
        exact Bool.false_ne_true hsome
  unfold ackCumulative
  dsimp only
  rw [ackLoop, hstop]
  rfl

/-- The cumulative ack of a datagram. -/
theorem advance_ackCumulative {m : Detached} {lo lo' acks : Nat}
    {f : Nat → Option OutgoingPacket} (h : Queue ok m.sock lo f) {buf : Bytes}
    (hacks : AcksUpTo m.sock (ackNr buf) acks)
    (hend : lo' + (ackCumulative acks m).sock.curWindowPackets = lo + m.sock.curWindowPackets) :
    Advance (some buf) lo (lo + m.sock.curWindowPackets) lo' := by
  obtain ⟨hle, hnumber⟩ := hacks
  by_cases hzero : acks = 0
  · subst hzero
    rw [ackCumulative_zero h] at hend
    exact .inl (by omega)
  · refine .inr ⟨buf, lo + acks, rfl, ?_, by omega, by omega, by omega⟩
    have hack : UInt16.ofNat acks = ackNr buf - (m.sock.oldest - 1) := by
      rw [hnumber hzero, UInt16.ofNat_toNat]
    rw [UInt16.ofNat_add, hack, h.oldest_eq]
    grind

variable (hok : ∀ m, Closed ok m)

include hok

/-- What one act of the send side does to the queue, act by act. -/
theorem advances_txAct {inp : Option Bytes} {l : Bytes} {m m' : Detached} (h : TxAct inp l m m') :
    Advances ok inp m.sock m'.sock := by
  intro lo f hq
  have hc := hok m
  -- the slot behind the last packet is free
  have hfree : f (lo + m.sock.curWindowPackets) = none := by
    cases hf : f (lo + m.sock.curWindowPackets) with
    | none => rfl
    | some p => exact absurd (hq.live _ p hf) (Nat.lt_irrefl _)
  cases h with
  | checkIdle _ hcwp =>
      -- an idle socket has no byte in flight, so the check passes
      have hzero : m.sock.curWindow = 0 := by
        rw [hq.bytes, hcwp, Nat.add_zero, Finset.Ico_self, Finset.sum_empty]
      rw [decide_eq_true hzero, check_true]
      exact ⟨lo, f, hq, Nat.le_refl _, Nat.le_refl _, frozen_refl _ f, .inl rfl⟩
  | sendPacket _ seq =>
      obtain ⟨f', hq', htouched⟩ := hq.sendPacketAt seq
        (fun n p hp hp' => hc.sent n p (hq.good n p hp).1 hp')
      refine ⟨lo, f', hq', Nat.le_refl _, by rw [(steady_sendPacketAt m seq).cwp],
        frozen_touched htouched ?_, .inl rfl⟩
      -- a transmission more, the content stays
      exact fun n p hp => ⟨Nat.le_succ _, content_sentPacket m (hq.good n p hp).1⟩
  | push _ n data hst hfin hroom hn harm hwin =>
      refine ⟨lo, _, hq.pushPacket (by decide) hn (.inl hroom) (hc.made hwin _ n data), Nat.le_refl _,
        ?_, frozen_update ?_ ?_, .inl rfl⟩
      · show _ ≤ lo + (m.sock.curWindowPackets + 1)
        omega
      · intro p hp
        rw [hfree] at hp
        exact nomatch hp
      · exact fun _ => Nat.le_refl _
  | extend _ p n data hst hfin hcwp hp hunsent hn hwin =>
      -- only a packet that was never sent grows
      have hseq : m.sock.seqNr - 1 = UInt16.ofNat (lo + m.sock.curWindowPackets - 1) := by
        rw [hq.seq, SeqNum.ofNat_sub_one (by omega)]
      have hfn : f (lo + m.sock.curWindowPackets - 1) = some p := by
        rw [← hq.get_number (by omega) (by omega), ← hseq, hp]
      obtain ⟨hpk, hokp⟩ := hq.good _ p hfn
      refine ⟨lo, _, (hq.extendLast hcwp hp hunsent (by decide) hn
        (hc.extended hwin _ p n data hpk hokp)).2, Nat.le_refl _, Nat.le_refl _, frozen_update ?_ ?_,
        .inl rfl⟩
      · intro q hq₁
        obtain rfl := Option.some.inj (hfn.symm.trans hq₁)
        exact hunsent
      · intro hnone
        rw [hfn] at hnone
        exact nomatch hnone
  | ackCum _ buf acks hinp hacks =>
      -- the cumulative ack moves the low end
      obtain ⟨lo', f', hq', hlo, hend, hthin⟩ := hq.ackCumulative hacks.1
      subst hinp
      exact ⟨lo', f', hq', hlo, Nat.le_of_eq hend.symm,
        frozen_thinned (fun n => (hthin n).imp id And.left), advance_ackCumulative hq hacks hend⟩
  | ackSel _ buf sel bits hinp exts w hwalk hsel hwin hbit =>
      -- a selective ack empties slots and leaves the ends
      obtain ⟨n, f', -, -, -, hq', hcwp, hthin⟩ := hq.ackSelective hwin
      exact ⟨lo, f', hq', Nat.le_refl _, by rw [hcwp],
        frozen_thinned (fun n => (hthin n).imp id And.left), .inl rfl⟩
  | lose _ seq =>
      -- a lost packet is marked, its content stays
      obtain ⟨f', hq', htouched⟩ := hq.markLost seq (fun n p _ hp => hc.lost n p hp)
      refine ⟨lo, f', hq', Nat.le_refl _, ?_, frozen_touched htouched ?_, .inl rfl⟩
      · unfold markLost
        split
        · exact Nat.le_refl _
        · split <;> exact Nat.le_refl _
      · exact fun n p _ => ⟨Nat.le_refl _, rfl⟩
  | _ => exact ⟨lo, f, hq.of_view rfl, Nat.le_refl _, Nat.le_refl _, frozen_refl _ f, .inl rfl⟩

/-- **NO ACT CHANGES A PACKET THAT HAS BEEN SENT.** -/
theorem advances_act {occ : Occasion} {l : Bytes} {m m' : Detached} (h : Act occ l m m') :
    Advances ok occ.datagram m.sock m'.sock := by
  cases h with
  | tx h => exact advances_txAct hok h
  | fin _ hst hfin harm hwin =>
      intro lo f hq
      refine ⟨lo, _, hq.queueFin hfin ((hok m).fin hwin _), Nat.le_refl _, ?_,
        frozen_update (fun p hp => ?_) (fun _ => Nat.le_refl _), .inl rfl⟩
      · show _ ≤ lo + (m.sock.curWindowPackets + 1)
        omega
      · exact absurd (hq.live _ p hp) (Nat.lt_irrefl _)
  | inOrder _ _ _ _ _ _ _ hdrain => exact .of_view (txView_drain hdrain)
  | ack => exact .of_view (txView_sendAck m _)
  | schedule => exact .of_view (by unfold scheduleAck; split <;> rfl)
  | keepAlive => exact .of_view (txView_sendAck _ _)
  | _ => exact .of_view rfl

/-- What any act does to the queue. -/
theorem evolves_act {occ : Occasion} {l : Bytes} {m m' : Detached} (h : Act occ l m m') :
    Evolves ok m.sock m'.sock :=
  (advances_act hok h).evolves

theorem evolves_path {occ : Occasion} {l : Bytes} {m m' : Detached} (h : ActPath occ l m m') :
    Evolves ok m.sock m'.sock :=
  Steps.lift (S := fun a b : Detached => Evolves ok a.sock b.sock) (fun m => Evolves.refl m.sock)
    (fun _ _ _ => Evolves.trans _ _ _) (fun _ _ _ ha => evolves_act hok ha) h

end Evolution

/-! ## Operation after operation

    Counted from the old end at `lo`, the queue of a socket grows by less than
    its sequence numbers can tell apart within one operation: an operation takes
    in one datagram, and its ack takes the old end past one number at most. -/

/-- The queue of a socket during an operation that found it as `f` from `lo` to
    before `e`. -/
structure Within (inp : Option Bytes) (lo e : Nat) (f : Nat → Option OutgoingPacket)
    (s' : UtpSock) (lo' : Nat) (f' : Nat → Option OutgoingPacket) : Prop where
  queue : Queue AnyPacket s' lo' f'
  low : lo ≤ lo'
  high : e ≤ lo' + s'.curWindowPackets
  frozen : Frozen e f f'
  moved : lo' = lo ∨ ∃ buf n, inp = some buf ∧ UInt16.ofNat n = ackNr buf + 1
    ∧ lo < n ∧ n ≤ lo + 1024 ∧ (n ≤ lo' → lo' ≤ lo + 2048)

/-- A packet that is followed is still in the queue or was taken off. -/
theorem Within.next {inp : Option Bytes} {lo e lo' : Nat} {f f' : Nat → Option OutgoingPacket}
    {s₁ s₂ : UtpSock} (h : Within inp lo e f s₁ lo' f') (hlive : ∀ n p, f n = some p → n < e)
    (ha : Advances AnyPacket inp s₁ s₂) : ∃ lo'' f'', Within inp lo e f s₂ lo'' f'' := by
  have hcwp := h.queue.cwp_le
  have hlow := h.low
  have hhigh := h.high
  obtain ⟨lo'', f'', hq, hle, hend, hfrozen, hadv⟩ := ha lo' f' h.queue
  refine ⟨lo'', f'', hq, by omega, by omega, h.frozen.trans hfrozen hhigh hlive, ?_⟩
  rcases hadv with rfl | ⟨buf, n', hinp, hn', hlt', hle', hend'⟩
  · exact h.moved
  · rcases h.moved with rfl | ⟨buf₀, n, hinp₀, hn, hlt, hle₀, hpast⟩
    · exact .inr ⟨buf, n', hinp, hn', hlt', by omega, fun _ => by omega⟩
    · -- the same datagram acks the same number again
      obtain rfl := Option.some.inj (hinp₀.symm.trans hinp)
      have hsame : n' = n := by
        have heq := hn'.trans hn.symm
        rcases Nat.lt_or_ge lo' n with hbefore | hafter
        · exact SeqNum.eq_of_ofNat_eq heq (by omega) (by omega)
        · exact SeqNum.eq_of_ofNat_eq heq (by omega) (by have := hpast hafter; omega)
      subst hsame
      exact .inr ⟨buf₀, n', hinp₀, hn, hlt, hle₀, fun _ => by omega⟩

/-- **ONE OPERATION**: the queue of a socket goes on by as many packets as its
    next sequence number. -/
theorem queue_step {ctx ctx' : Context} {op : Op} (hreach : Reachable ctx)
    (hstep : ctx.step op = some ctx') {key : Key} {s s' : UtpSock}
    (hs : ctx.sockets.lookup key = some s) (hs' : ctx'.sockets.lookup key = some s')
    (huser : s'.user = s.user) {lo : Nat} {f : Nat → Option OutgoingPacket}
    (hq : Queue AnyPacket s lo f) :
    ∃ lo' f', Queue AnyPacket s' lo' f' ∧ lo ≤ lo'
      ∧ lo' + s'.curWindowPackets = lo + s.curWindowPackets + (s'.seqNr - s.seqNr).toNat
      ∧ Frozen (lo + s.curWindowPackets) f f' := by
  -- all acts of one step share one reading of the numbers
  have htraces := EnginePath.traces
    (R := fun a b : UtpSock =>
      (∃ lo' f', Within (Op.occasion op).datagram lo (lo + s.curWindowPackets) f a lo' f') →
        ∃ lo' f', Within (Op.occasion op).datagram lo (lo + s.curWindowPackets) f b lo' f')
    (fun _ => id) (fun _ _ _ hab hbc ha => hbc (hab ha))
    (fun _ _ _ ha ⟨_, _, hw⟩ => hw.next hq.live (advances_act closed_anyPacket ha))
    (path_step hstep)
  obtain ⟨lo', f', hw⟩ := Traces.same htraces hreach hs hs' huser
    ⟨lo, f, hq, Nat.le_refl _, Nat.le_refl _, frozen_refl _ f, .inl rfl⟩
  have hlow := hw.low
  have hhigh := hw.high
  have hcwp := hw.queue.cwp_le
  -- an ack moves the low end by less than a turn of the numbers
  have hnear : lo' ≤ lo + 2048 := by
    rcases hw.moved with rfl | ⟨_, n, -, -, -, hle, hpast⟩
    · omega
    · rcases Nat.lt_or_ge lo' n with hbefore | hafter
      · omega
      · exact hpast hafter
  refine ⟨lo', f', hw.queue, hlow, ?_, hw.frozen⟩
  rw [hw.queue.seq, hq.seq, SeqNum.toNat_ofNat_sub hhigh]
  omega

/-- Any operations one after another. -/
abbrev Run : Context → Context → Prop := RunAvoiding (fun _ _ => False)

/-- Cells are allocated and never given back. -/
theorem run_nextUser {ctx ctx' : Context} (h : Run ctx ctx') : ctx.nextUser ≤ ctx'.nextUser := by
  induction h with
  | refl => exact Nat.le_refl _
  | step op _ _ hstep ih => exact Nat.le_trans ih (step_nextUser hstep)

/-- The socket `s` under `key` in `ctx` has become `s'` in `ctx'`, and `q`
    packets have been queued in it since. -/
inductive Followed (key : Key) (ctx : Context) (s : UtpSock) : Nat → Context → UtpSock → Prop where
  | refl : Followed key ctx s 0 ctx s
  | step {q : Nat} {ctx₁ ctx₂ : Context} {s₁ s₂ : UtpSock} (op : Op)
      (h : Followed key ctx s q ctx₁ s₁) (hstep : ctx₁.step op = some ctx₂)
      (hs : ctx₂.sockets.lookup key = some s₂) (huser : s₂.user = s₁.user) :
      Followed key ctx s (q + (s₂.seqNr - s₁.seqNr).toNat) ctx₂ s₂

/-- What is left of the queue of `s` after `q` more packets have been queued:
    place `j` is now place `j'`, unless the old end of the queue has passed it.
    An acked packet does not come back, and a packet that has been sent stays as
    it is until it is acked. -/
structure Lasting (q : Nat) (s s' : UtpSock) : Prop where
  count : s'.curWindowPackets ≤ s.curWindowPackets + q
  acked : ∀ j j', j < s.curWindowPackets →
    j + s'.curWindowPackets = j' + (s.curWindowPackets + q) →
    windowPacket s j = none → windowPacket s' j' = none
  sent : ∀ j j' p, j < s.curWindowPackets →
    j + s'.curWindowPackets = j' + (s.curWindowPackets + q) →
    windowPacket s j = some p → 0 < p.transmissions →
      windowPacket s' j' = none
        ∨ ∃ p', windowPacket s' j' = some p' ∧ 0 < p'.transmissions ∧ content p' = content p

/-- **ALL LATER OPERATIONS**, by induction on the run. -/
theorem Followed.queue {key : Key} {ctx ctx' : Context} {s s' : UtpSock} {q lo : Nat}
    {f : Nat → Option OutgoingPacket} (hreach : Reachable ctx)
    (hs : ctx.sockets.lookup key = some s) (hq : Queue AnyPacket s lo f)
    (h : Followed key ctx s q ctx' s') :
    Reachable ctx' ∧ ctx'.sockets.lookup key = some s'
      ∧ ∃ lo' f', Queue AnyPacket s' lo' f' ∧ lo ≤ lo'
        ∧ lo' + s'.curWindowPackets = lo + s.curWindowPackets + q
        ∧ Frozen (lo + s.curWindowPackets) f f' := by
  induction h with
  | refl => exact ⟨hreach, hs, lo, f, hq, Nat.le_refl _, rfl, frozen_refl _ f⟩
  | step op _ hstep hs₂ huser ih =>
      obtain ⟨hreach₁, hs₁, lo₁, f₁, hq₁, hle, hend, hfrozen⟩ := ih
      obtain ⟨lo₂, f₂, hq₂, hle₂, hend₂, hfrozen₂⟩ := queue_step hreach₁ hstep hs₁ hs₂ huser hq₁
      exact ⟨hreach₁.step op hstep, hs₂, lo₂, f₂, hq₂, by omega, by omega,
        hfrozen.trans hfrozen₂ (by omega) hq.live⟩

/-- Every later state of a socket is one that it can be followed to. -/
theorem followed_of_run {key : Key} {ctx ctx' : Context} {s s' : UtpSock}
    (hreach : Reachable ctx) (hs : ctx.sockets.lookup key = some s) (hrun : Run ctx ctx')
    (hs' : ctx'.sockets.lookup key = some s') (huser : s'.user = s.user) :
    ∃ q, Followed key ctx s q ctx' s' := by
  have hold := reachable_users hreach key s hs
  induction hrun generalizing s' with
  | refl =>
      obtain rfl := Option.some.inj (hs.symm.trans hs')
      exact ⟨0, .refl⟩
  | @step ctx₁ ctx₂ op hrun₁ hgood hstep ih =>
      have htraces := EnginePath.traces (R := fun _ _ : UtpSock => True) (fun _ => trivial)
        (fun _ _ _ _ _ => trivial) (fun _ _ _ _ => trivial) (path_step hstep)
      have hmore : ctx.nextUser ≤ ctx₁.nextUser := run_nextUser hrun₁
      rcases htraces.2 key s' hs' with ⟨hnew, -⟩ | ⟨s₁, hs₁, huser₁, -⟩
      · rw [huser] at hnew
        exact absurd (Nat.lt_of_lt_of_le hold hmore) (Nat.not_lt.mpr hnew)
      · obtain ⟨q, hfollowed⟩ := ih hs₁ (huser₁.trans huser)
        exact ⟨_, hfollowed.step op hstep hs' huser₁.symm⟩

/-! ## The result -/

/-- A call of `write_engine` with `buf`. -/
structure WriteOk (m : Detached) (buf : Bytes) : Prop where
  count : (m.writeEngine buf).2 ≤ buf.length
  stream : queueBytes (m.writeEngine buf).1.sock
    = queueBytes m.sock ++ buf.take (m.writeEngine buf).2
  oldest : (m.writeEngine buf).1.sock.oldest = m.sock.oldest
  old : ∀ j, j < m.sock.curWindowPackets →
    Later m.sock.getPacketSize (j + 1 = m.sock.curWindowPackets) (windowPacket m.sock j)
      (windowPacket (m.writeEngine buf).1.sock j)
  new : ∀ j p, m.sock.curWindowPackets ≤ j → j < (m.writeEngine buf).1.sock.curWindowPackets →
    windowPacket (m.writeEngine buf).1.sock j = some p → p.payload ≤ m.sock.getPacketSize
  /-- the loop ends by itself: more rounds would change nothing -/
  ends : m.sock.finSent = false → ∀ fuel, buf.length < fuel →
    writeEngineLoop m.sock.getPacketSize fuel buf 0 m.readClock
      = writeEngineLoop m.sock.getPacketSize (buf.length + 1) buf 0 m.readClock

/-- A call of `write_outgoing_packet`, of whatever kind. -/
structure OnePacket (m : Detached) (payload : Nat) (flags : UInt8) (data : Bytes) : Prop where
  creates : (m.writeOutgoingPacket payload flags data).1.sock.curWindowPackets
    ≤ m.sock.curWindowPackets + 1
  ends : ∀ fuel, payload < fuel →
    writeLoop m.armTimer.sock.getPacketSize flags fuel payload data m.armTimer
      = writeLoop m.armTimer.sock.getPacketSize flags (payload + 1) payload data m.armTimer

/-- The packets in the window, read from the ring. -/
theorem windowPacket_eq {ok : Nat → OutgoingPacket → Prop} {s : UtpSock} {lo : Nat}
    {f : Nat → Option OutgoingPacket} (h : Queue ok s lo f) {j : Nat}
    (hj : j < s.curWindowPackets) : windowPacket s j = f (lo + j) := by
  unfold windowPacket
  rw [h.oldest_eq, ← UInt16.ofNat_add]
  exact h.get_number (Nat.le_add_right _ _) (Nat.add_lt_add_left hj lo)

theorem queueBytes_eq {ok : Nat → OutgoingPacket → Prop} {s : UtpSock} {lo : Nat}
    {f : Nat → Option OutgoingPacket} (h : Queue ok s lo f) :
    queueBytes s = bytesFrom f lo s.curWindowPackets := by
  unfold queueBytes bytesFrom
  refine List.flatMap_congr (fun j hj => ?_)
  rw [windowPacket_eq h (List.mem_range.mp hj)]

/-- A write to a connected socket with a well-formed queue. -/
theorem writeOk_of_queue {m : Detached} {lo : Nat} {f : Nat → Option OutgoingPacket}
    (hq : Queue AnyPacket m.sock lo f) (hs : Searched m.sock) (hst : m.sock.state = .connected)
    (buf : Bytes) : WriteOk m buf := by
  have hrange := hs.inRange
  obtain ⟨hcount, hwrites⟩ := writes_writeEngine hst hrange.last_ne_zero buf
  obtain ⟨f', hq', hgrown⟩ := hwrites lo f hq
  have hle := hgrown.le
  refine ⟨hcount, ?_, ?_, fun j hj => ?_, fun j p hj hlt hp => ?_, fun hfin fuel hfuel => ?_⟩
  · rw [queueBytes_eq hq', queueBytes_eq hq]
    exact hgrown.bytes
  · rw [hq'.oldest_eq, hq.oldest_eq]
  · rw [windowPacket_eq hq hj, windowPacket_eq hq' (by omega)]
    exact hgrown.old j hj
  · rw [windowPacket_eq hq' hlt] at hp
    exact hgrown.new j p hj hp
  · have hsize := (packetSize_range hrange).1
    exact writeEngineLoop_ends _ (by omega) _ _ buf 0 m.readClock hst hfin hfuel
      (Nat.lt_succ_self _)

/-- One call of `write_outgoing_packet`. -/
theorem onePacket (m : Detached) (payload : Nat) (flags : UInt8) (data : Bytes) :
    OnePacket m payload flags data :=
  ⟨(writeOutgoingPacket_creates m payload flags data).2,
    fun fuel hfuel => writeLoop_ends _ flags fuel _ payload data _ hfuel (Nat.lt_succ_self _)⟩

/-- **WHAT WAS SENT STAYS AS IT WAS**, as long as the socket lives. -/
theorem Followed.lasting {key : Key} {ctx ctx' : Context} {s s' : UtpSock} {q : Nat}
    (hreach : Reachable ctx) (hs : ctx.sockets.lookup key = some s)
    (h : Followed key ctx s q ctx' s') : Lasting q s s' := by
  obtain ⟨lo, f, hq⟩ := reachable_queue hreach key s hs
  obtain ⟨-, -, lo', f', hq', hle, hend, hfrozen⟩ := h.queue hreach hs hq
  -- place `j` of the old queue has number `lo + j`, and so has place `j'` of the new one
  have hplace : ∀ {j j'}, j < s.curWindowPackets →
      j + s'.curWindowPackets = j' + (s.curWindowPackets + q) →
      windowPacket s j = f (lo + j) ∧ windowPacket s' j' = f' (lo + j) := by
    intro j j' hj hjj'
    refine ⟨windowPacket_eq hq hj, ?_⟩
    rw [windowPacket_eq hq' (by omega)]
    congr 1
    omega
  refine ⟨by omega, fun j j' hj hjj' hnone => ?_, fun j j' p hj hjj' hp hsent => ?_⟩
  · obtain ⟨hold, hnew⟩ := hplace hj hjj'
    rw [hold] at hnone
    rw [hnew]
    exact hfrozen.acked _ (by omega) hnone
  · obtain ⟨hold, hnew⟩ := hplace hj hjj'
    rw [hold] at hp
    rw [hnew]
    exact hfrozen.sent _ p hp hsent

/-- **A WRITE CONSERVES THE STREAM**: in every state a connected socket can be
    in, `write_engine` appends a prefix of its buffer to the stream in the
    queue, cut into packets of at most the packet size; each round creates at
    most one of them; and what has been sent stays as it is over all later
    operations, until it is acked. -/
theorem write_conserves {ctx : Context} (hreach : Reachable ctx) {key : Key} {s : UtpSock}
    (hs : ctx.sockets.lookup key = some s) :
    (∀ (occ : Occasion) (l : Bytes) (m : Detached), ActPath occ l (ctx.detach key s) m →
      (m.sock.state = .connected → ∀ buf, WriteOk m buf)
        ∧ ∀ payload flags data, OnePacket m payload flags data)
      ∧ (∀ q ctx' s', Followed key ctx s q ctx' s' → Lasting q s s')
      ∧ ∀ ctx' s', Run ctx ctx' → ctx'.sockets.lookup key = some s' → s'.user = s.user →
        ∃ q, Followed key ctx s q ctx' s' := by
  refine ⟨fun occ l m hpath => ⟨fun hst buf => ?_, onePacket m⟩,
    fun _ _ _ h => h.lasting hreach hs,
    fun ctx' s' hrun hs' huser => followed_of_run hreach hs hrun hs' huser⟩
  obtain ⟨lo, f, hq⟩ := queue_actPath hpath (reachable_queue hreach key s hs)
  have hsearched := searched_path hpath (reachable_searched hreach key s hs)
  exact writeOk_of_queue hq hsearched hst buf

/-- An accepted connection with one byte in flight. -/
def inFlightOps : List Op :=
  [arrives (datagram stSyn 1000 1 0 []),
    arrives (setWindowSize (datagram stData 1001 2 52654 [7]) 65535),
    .write acceptedKey [1]]

/-- A second byte waits in a packet of its own, which the next write tops up; the
    packet in flight stays as it is. -/
theorem write_conserves_topUp :
    ∃ ctx s ctx' s', Reachable ctx ∧ ctx.sockets.lookup acceptedKey = some s
      ∧ Followed acceptedKey ctx s 1 ctx' s'
      ∧ (∃ p p', windowPacket s 0 = some p ∧ windowPacket s' 0 = some p' ∧ content p' = content p)
      ∧ queueBytes s' = [1, 2]
      ∧ queueBytes ((ctx'.detach acceptedKey s').writeEngine [3, 4, 5]).1.sock
        = [1, 2, 3, 4, 5] := by
  -- the packet in flight, and the one written behind it
  have heval : ((freshEngine 0).run inFlightOps).bind (fun ctx =>
      (ctx.sockets.lookup acceptedKey).bind (fun s =>
        (ctx.step (.write acceptedKey [2])).bind (fun ctx' =>
          (ctx'.sockets.lookup acceptedKey).map (fun s' =>
            decide (s'.user = s.user ∧ (s'.seqNr - s.seqNr).toNat = 1
              ∧ s.curWindowPackets = 1 ∧ s'.curWindowPackets = 2
              ∧ ((windowPacket s 0).map (·.transmissions)) = some 1
              ∧ (windowPacket s' 0).isSome = true
              ∧ queueBytes s' = [1, 2] ∧ s'.state = .connected
              ∧ ((ctx'.detach acceptedKey s').writeEngine [3, 4, 5]).2 = 3))))) = some true := by
    decide +kernel
  obtain ⟨ctx, hrun, heval⟩ := Option.bind_eq_some_iff.mp heval
  obtain ⟨s, hs, heval⟩ := Option.bind_eq_some_iff.mp heval
  obtain ⟨ctx', hstep, heval⟩ := Option.bind_eq_some_iff.mp heval
  obtain ⟨s', hs', heval⟩ := Option.map_eq_some_iff.mp heval
  obtain ⟨huser, hq, hcwp, hcwp', hsent, hthere, hbytes, hst, hcount⟩ := of_decide_eq_true heval
  have hreach : Reachable ctx := reachable_run inFlightOps (.new _ _ _ _ _) hrun
  have hfollowed : Followed acceptedKey ctx s 1 ctx' s' := by
    have hone := Followed.refl.step (.write acceptedKey [2]) hstep hs' huser
    rw [hq] at hone
    exact hone
  have hlasting := (write_conserves hreach hs).2.1 1 ctx' s' hfollowed
  have hkept : ∃ p p', windowPacket s 0 = some p ∧ windowPacket s' 0 = some p'
      ∧ content p' = content p := by
    obtain ⟨p, hp, hone⟩ := Option.map_eq_some_iff.mp hsent
    rcases hlasting.sent 0 0 p (by omega) (by omega) hp (by omega) with
      hgone | ⟨p', hp', -, hcontent⟩
    · rw [hgone] at hthere
      exact nomatch hthere
    · exact ⟨p, p', hp, hp', hcontent⟩
  have hstart : ActPath (anyOccasion none) [] (ctx'.detach acceptedKey s')
      (ctx'.detach acceptedKey s') := Steps.refl _
  have hwrites := (write_conserves (hreach.step _ hstep) hs').1 _ _ _ hstart
  have hstream := (hwrites.1 hst [3, 4, 5]).stream
  rw [hcount, show queueBytes (ctx'.detach acceptedKey s').sock = [1, 2] from hbytes] at hstream
  exact ⟨ctx, s, ctx', s', hreach, hs, hfollowed, hkept, hbytes, hstream⟩

end UtpSegments
