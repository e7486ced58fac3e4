import RustUtp.Sends
import RustUtp.Connection

/-! # The receiving end of a connection

    A socket represents the receiving end of a transfer when its reorder buffer
    holds what the transfer says has arrived ahead of order, and its stream is
    what has been taken in order, up to where reading was shut down: `Takes`.
    The packets of the transfer that come in are operations of the transfer's
    receiver. -/

namespace UtpTakes

open UtpCircular UtpPacket UtpUtil UtpConnShared UtpEngine UtpEngine.Detached UtpActs
  UtpRecvQueue UtpReceive UtpEof UtpSends UtpConnection LabelledPath SlidingWindow Reassembly

/-! ## Sockets that receive a transfer -/

structure TakesBody (t : Transfer UInt8) (s : UtpSock) (st : Stream)
    (g : Nat → Option Bytes) : Prop extends RecvBody (fun n p => p = t.content n) s t.ack g where
  buffered : ∀ n, n ∈ t.held ↔ (g n).isSome = true
  /-- what the application got, up to where it shut reading down -/
  delivered : ∃ e, t.first ≤ e ∧ e ≤ t.ack ∧ st.bytes = segment t.content t.first e
    ∧ (s.readShutdown = false → e = t.ack)
  fin : s.gotFin = true → ∃ n, t.last = some n ∧ s.eofPkt = UInt16.ofNat n
  reached : s.gotFinReached = true → t.last = some t.ack
  told : st.eofs = if s.gotFinReached then 1 else 0

/-- The socket represents the receiving end of `t`. -/
def Takes (t : Transfer UInt8) (s : UtpSock) (st : Stream) : Prop :=
  ∃ g, TakesBody t s st g ∧ g (t.ack + 1) = none

variable {t t' : Transfer UInt8} {s s' : UtpSock} {st : Stream} {g : Nat → Option Bytes}
  {n : Nat} {buf data : Bytes}

/-- The fields of a socket that its receiving end is about. -/
structure TakeView where
  inbuf : CircularBuffer Bytes
  ackNr : UInt16
  reorderCount : Nat
  readShutdown : Bool
  gotFin : Bool
  eofPkt : UInt16
  gotFinReached : Bool

def takeView (s : UtpSock) : TakeView :=
  ⟨s.inbuf, s.ackNr, s.reorderCount, s.readShutdown, s.gotFin, s.eofPkt, s.gotFinReached⟩

/-- A step that leaves the receive side and what was handed over. -/
theorem TakesBody.of_view {st' : Stream} (h : TakesBody t s st g) (hv : takeView s' = takeView s)
    (hbytes : st'.bytes = st.bytes) (heofs : st'.eofs = st.eofs) : TakesBody t s' st' g := by
  obtain ⟨h1, h2, h3, h4, h5, h6, h7⟩ := TakeView.mk.inj hv
  refine ⟨h.toRecvBody.of_same h1 h2 h3, h.buffered, ?_, ?_, ?_, ?_⟩
  · rw [h4, hbytes]
    exact h.delivered
  · rw [h5, h6]
    exact h.fin
  · rw [h7]
    exact h.reached
  · rw [h7, heofs]
    exact h.told

theorem Takes.of_view {st' : Stream} (h : Takes t s st) (hv : takeView s' = takeView s)
    (hbytes : st'.bytes = st.bytes) (heofs : st'.eofs = st.eofs) : Takes t s' st' := by
  obtain ⟨g, hbody, hnext⟩ := h
  exact ⟨g, hbody.of_view hv hbytes heofs, hnext⟩

theorem takeView_of_rxView {m m' : Detached} (h : rxView m' = rxView m) :
    takeView m'.sock = takeView m.sock :=
  congrArg (fun v : RxView => TakeView.mk v.inbuf v.ackNr v.reorderCount v.readShutdown v.gotFin
    v.eofPkt v.gotFinReached) h

/-- A socket that has received nothing. -/
theorem Takes.fresh (hack : t.ack = t.first) (hheld : t.held = ∅)
    (hv : takeView s = ⟨CircularBuffer.new, UInt16.ofNat t.ack, 0, false, false, 0, false⟩)
    (hbytes : st.bytes = []) (heofs : st.eofs = 0) : Takes t s st := by
  obtain ⟨h1, h2, h3, h4, h5, h6, h7⟩ := TakeView.mk.inj hv
  refine ⟨fun _ => none, ⟨⟨?_, ?_, h2, fun n p hn => (nomatch hn), fun n p hn => (nomatch hn), ?_⟩,
    fun n => ?_, ⟨t.first, Nat.le_refl _, Nat.le_of_eq hack.symm, ?_, fun _ => hack.symm⟩,
    fun hfin => ?_, fun hr => ?_, ?_⟩, rfl⟩
  · rw [h1]
    exact Represents.new _
  · rw [h1, CircularBuffer.size_new]
    decide
  · have hempty : held (fun _ : Nat => (none : Option Bytes)) = ∅ :=
      Set.eq_empty_of_forall_notMem (fun n hn => Bool.false_ne_true hn)
    rw [h3, hempty, Set.ncard_empty]
  · rw [hheld]
    exact ⟨fun h => h.elim, fun h => nomatch h⟩
  · rw [hbytes, segment_self]
  · exact nomatch h5.symm.trans hfin
  · exact nomatch h7.symm.trans hr
  · rw [heofs, h7]
    rfl

/-- The sender's progress. -/
theorem Takes.sender (h : Takes t s st) (hsound : Sound 1024 t) (hgrow : SenderGrows t t') :
    Takes t' s st := by
  obtain ⟨g, hbody, hnext⟩ := h
  have hsame : ∀ e, e ≤ t.ack →
      segment t'.content t.first e = segment t.content t.first e := fun e he =>
    segment_congr (fun n hlo hhi => hgrow.content n (hsound.taken n hlo (hhi.trans he)))
  refine ⟨g, ⟨?_, fun n => ?_, ?_, fun hfin => ?_, fun hr => ?_, hbody.told⟩, ?_⟩
  · rw [hgrow.ack]
    refine ⟨hbody.ring, hbody.small, hbody.ack, hbody.window, fun n p hp => ?_, hbody.count⟩
    have hheld : n ∈ t.held := by
      rw [hbody.buffered, hp]
      rfl
    exact (hbody.good n p hp).trans (hgrow.content n (hsound.ahead n hheld).2.2).symm
  · rw [hgrow.held]
    exact hbody.buffered n
  · obtain ⟨e, hlo, hhi, hbytes, hopen⟩ := hbody.delivered
    rw [hgrow.first, hgrow.ack]
    exact ⟨e, hlo, hhi, hbytes.trans (hsame e hhi).symm, hopen⟩
  · obtain ⟨n, hlast, heof⟩ := hbody.fin hfin
    exact ⟨n, hgrow.last n hlast, heof⟩
  · rw [hgrow.ack]
    exact hgrow.last _ (hbody.reached hr)
  · rw [hgrow.ack]
    exact hnext

/-- Reading is shut down. -/
theorem Takes.shut (h : Takes t s st)
    (hv : takeView s' = { takeView s with readShutdown := true }) : Takes t s' st := by
  obtain ⟨g, hbody, hnext⟩ := h
  obtain ⟨h1, h2, h3, h4, h5, h6, h7⟩ := TakeView.mk.inj hv
  obtain ⟨e, hlo, hhi, hbytes, -⟩ := hbody.delivered
  refine ⟨g, ⟨hbody.toRecvBody.of_same h1 h2 h3, hbody.buffered,
    ⟨e, hlo, hhi, hbytes, fun hno => nomatch h4.symm.trans hno⟩, ?_, ?_, ?_⟩, hnext⟩
  · rw [h5, h6]
    exact hbody.fin
  · rw [h7]
    exact hbody.reached
  · rw [h7]
    exact hbody.told

/-! ## The packet that comes in -/

/-- The datagram is packet `n` of the transfer, and is not much older than the
    newest. -/
structure Arrives (t : Transfer UInt8) (n : Nat) (buf : Bytes) : Prop where
  ships : Ships t n buf
  fresh : t.next ≤ n + 40000

/-- A datagram bears what it bore, while the receiver goes on. -/
theorem Bears.same (h : Bears t n buf) (hgrow : ReceiverGrows t t') : Bears t' n buf :=
  h.of_same hgrow.first (by rw [hgrow.content]) (by rw [hgrow.last])

/-- A datagram that arrives may arrive later. -/
theorem Arrives.receiver (h : Arrives t n buf) (hgrow : ReceiverGrows t t') :
    Arrives t' n buf :=
  ⟨⟨by rw [hgrow.sent]; exact h.ships.sent, h.ships.seq, h.ships.length,
    Bears.same h.ships.bears hgrow⟩, by rw [hgrow.next]; exact h.fresh⟩

/-- What the code takes the payload of the datagram to be. -/
theorem Arrives.payload (h : Arrives t n buf) {occ : Occasion} (hacc : Accepted occ buf data) :
    data = t.content n := by
  obtain ⟨exts, w, hwalk, hdata⟩ := hacc.body
  unfold skipExtensions at hwalk
  rw [if_pos h.ships.bears.ext] at hwalk
  obtain rfl := Option.some.inj hwalk
  exact hdata.trans h.ships.bears.body

/-- How far past the expected packet the code takes it to be. -/
theorem TakesBody.number (h : TakesBody t s st g) (hsound : Sound 1024 t) (harr : Arrives t n buf)
    (hoff : seqOffset s (seqNr buf) < reorderBufferMaxSize) :
    n = t.ack + 1 + seqOffset s (seqNr buf) := by
  have hnum := h.toRecvBody.number (seqNr buf)
  rw [harr.ships.seq] at hnum ⊢
  rw [harr.ships.seq] at hoff
  have hbehind := hsound.behind
  have hnear := hsound.near
  have hfresh := harr.fresh
  have hlt := (hsound.inside n harr.ships.sent).2
  unfold reorderBufferMaxSize at hoff
  exact SeqNum.eq_of_ofNat_eq hnum (by omega) (by omega)

/-- A FIN arrives under the last number. -/
theorem Arrives.last (h : Arrives t n buf) (hty : packetType buf = stFin) : t.last = some n := by
  by_contra hne
  have hkind := h.ships.bears.kind
  rw [hty, if_neg hne] at hkind
  exact absurd hkind (by decide)

/-- The packet is the FIN. -/
theorem Takes.noteFin (h : Takes t s st) (hlast : t.last = some n) {seq : UInt16}
    (hseq : seq = UInt16.ofNat n) : Takes t { s with gotFin := true, eofPkt := seq } st := by
  obtain ⟨g, hbody, hnext⟩ := h
  exact ⟨g, ⟨hbody.toRecvBody.of_same rfl rfl rfl, hbody.buffered, hbody.delivered,
    fun _ => ⟨n, hlast, hseq⟩, hbody.reached, hbody.told⟩, hnext⟩

/-! ## Handing over -/

/-- What is handed over, unless reading is shut down. -/
theorem stream_bytes_deliver (m : Detached) (data : Bytes) :
    (stream (m.deliver data)).bytes
        = (if m.sock.readShutdown then (stream m).bytes else (stream m).bytes ++ data)
      ∧ (stream (m.deliver data)).eofs = (stream m).eofs := by
  rw [stream_deliver]
  split <;> exact ⟨rfl, rfl⟩

/-- One more packet is taken. -/
theorem TakesBody.grown (h : TakesBody t s st g) {b b' : Bytes} (hb : b = st.bytes)
    (hb' : b' = if s.readShutdown then b else b ++ t.content (t.ack + 1)) :
    ∃ e, t.first ≤ e ∧ e ≤ t.ack + 1 ∧ b' = segment t.content t.first e
      ∧ (s.readShutdown = false → e = t.ack + 1) := by
  obtain ⟨e, hlo, hhi, hbytes, hopen⟩ := h.delivered
  cases hshut : s.readShutdown with
  | true =>
      rw [hshut, if_pos rfl] at hb'
      exact ⟨e, hlo, Nat.le_succ_of_le hhi, hb'.trans (hb.trans hbytes), fun h => nomatch h⟩
  | false =>
      obtain rfl := hopen hshut
      refine ⟨t.ack + 1, Nat.le_succ_of_le hlo, Nat.le_refl _, ?_, fun _ => rfl⟩
      rw [hshut, if_neg Bool.false_ne_true] at hb'
      rw [hb', hb, hbytes, segment_succ _ hlo]

/-- The end of the stream has not been reached while packets are missing. -/
theorem TakesBody.not_reached (h : TakesBody t s st g) (hsound : Sound 1024 t)
    (hsent : t.ack + 1 ∈ t.sent) : s.gotFinReached = false := by
  refine Bool.eq_false_iff.mpr (fun hr => ?_)
  have := (hsound.le_last (h.reached hr)).1 _ hsent
  omega

/-- Accepting the next packet, in the socket and in the transfer. -/
theorem Takes.acceptNext {m : Detached} (h : Takes t m.sock (stream m)) (hsound : Sound 1024 t)
    (hsent : t.ack + 1 ∈ t.sent) (hdata : data = t.content (t.ack + 1)) :
    ∃ g, TakesBody t.take (m.acceptNext data).sock (stream (m.acceptNext data)) g := by
  obtain ⟨g, hbody, hnext⟩ := h
  have hqueue : RecvQueue (fun n p => p = t.content n) m.sock t.ack g := ⟨hbody.toRecvBody, hnext⟩
  have hsock := acceptNext_sock m data
  have hno := hbody.not_reached hsound hsent
  obtain ⟨hbytes, heofs⟩ := stream_bytes_deliver m data
  refine ⟨g, hqueue.acceptNext data, fun n => ?_, ?_, ?_, ?_, ?_⟩
  · show n ∈ t.held \ {t.ack + 1} ↔ _
    rw [Set.mem_sdiff, hbody.buffered n, Set.mem_singleton_iff]
    constructor
    · exact fun h => h.1
    · intro hsome
      refine ⟨hsome, ?_⟩
      rintro rfl
      rw [hnext] at hsome
      exact nomatch hsome
  · rw [hsock, stream_acceptNext]
    rw [hdata] at hbytes ⊢
    exact hbody.grown rfl hbytes
  · rw [hsock]
    exact hbody.fin
  · rw [hsock]
    exact fun hr => nomatch hno.symm.trans hr
  · rw [hsock, stream_acceptNext, heofs]
    exact hbody.told

/-- One packet more, in the socket and in the transfer. -/
theorem TakesBody.drainNext {m : Detached} (h : TakesBody t m.sock (stream m) g)
    (hsound : Sound 1024 t) {p : Bytes} (hget : g (t.ack + 1) = some p) :
    Sound 1024 t.take ∧ TakesBody t.take (m.drainNext p).sock (stream (m.drainNext p))
      (Function.update g (t.ack + 1) none) := by
  have hheld : t.ack + 1 ∈ t.held := by
    rw [h.buffered, hget]
    rfl
  have hsent := (hsound.ahead _ hheld).2.2
  have hp : p = t.content (t.ack + 1) := h.good _ _ hget
  have hno := h.not_reached hsound hsent
  have hsock := drainNext_sock m p
  obtain ⟨hbytes, heofs⟩ := stream_bytes_deliver m p
  refine ⟨hsound.take hsent, h.toRecvBody.drainNext hget, fun n => ?_, ?_, ?_, ?_, ?_⟩
  · show n ∈ t.held \ {t.ack + 1} ↔ _
    rw [Set.mem_sdiff, h.buffered n, Set.mem_singleton_iff]
    by_cases hn : n = t.ack + 1
    · subst hn
      rw [Function.update_self]
      exact ⟨fun h => absurd rfl h.2, fun h => nomatch h⟩
    · rw [Function.update_of_ne hn]
      exact ⟨fun h => h.1, fun h => ⟨h, hn⟩⟩
  · rw [hsock, stream_drainNext]
    rw [hp] at hbytes ⊢
    exact h.grown rfl hbytes
  · rw [hsock]
    exact h.fin
  · rw [hsock]
    exact fun hr => nomatch hno.symm.trans hr
  · rw [hsock, stream_drainNext, heofs]
    exact h.told

/-- One act of the drain loop takes a packet, or leaves the transfer alone. -/
theorem TakesBody.drainAct {l : Bytes} {m m' : Detached}
    (h : TakesBody t m.sock (stream m) g) (hsound : Sound 1024 t)
    (hact : DrainAct l m m') :
    ∃ t' g', ReceiverGrows t t' ∧ Sound 1024 t'
      ∧ TakesBody t' m'.sock (stream m') g' := by
  cases hact with
  | drain _ p hst hcount hget =>
      rw [h.toRecvBody.next_slot] at hget
      obtain ⟨hsound', hbody⟩ := h.drainNext hsound hget
      exact ⟨t.take, _, ReceiverGrows.take t, hsound', hbody⟩
  | reach _ hst hnew hfin heof =>
      have hstream := stream_reach m
      obtain ⟨n, hlast, hnum⟩ := h.fin hfin
      have hn : n = t.ack := by
        have hle := (hsound.le_last hlast).2
        have hnext := (hsound.closing n hlast).2.1
        have hnear := hsound.near
        refine SeqNum.eq_of_ofNat_eq ?_ (by omega) (by omega)
        rw [← hnum, heof, h.ack]
      refine ⟨t, g, ReceiverGrows.refl t, hsound, h.toRecvBody.of_same rfl rfl rfl, h.buffered,
        ?_, h.fin, fun _ => ?_, ?_⟩
      · rw [hstream]
        exact h.delivered
      · rw [hlast, hn]
      · have htold := h.told
        rw [hnew, if_neg Bool.false_ne_true] at htold
        rw [hstream]
        show (stream m).eofs + 1 = _
        rw [htold]
        rfl
  | ackFin =>
      have hview := rxView_sendAck m false
      have hstream := stream_of_rxView hview
      exact ⟨t, g, ReceiverGrows.refl t, hsound,
        h.of_view (takeView_of_rxView hview) (by rw [hstream]) (by rw [hstream])⟩
  | dropStragglers _ hreached heof =>
      -- past the end nothing is sent, so nothing is held
      have hle := (hsound.le_last (h.reached hreached)).1
      have hempty : held g = ∅ := by
        refine Set.eq_empty_of_forall_notMem (fun n hn => ?_)
        have hahead := hsound.ahead n ((h.buffered n).mpr hn)
        have := hle n hahead.2.2
        omega
      refine ⟨t, g, ReceiverGrows.refl t, hsound, ⟨h.ring, h.small, h.ack, h.window, h.good, ?_⟩,
        h.buffered, h.delivered, h.fin, h.reached, h.told⟩
      show 0 = _
      rw [hempty, Set.ncard_empty]

/-! ## Packets ahead of order -/

/-- Growing the ring takes nothing. -/
theorem Takes.growIn {m : Detached} (h : Takes t m.sock (stream m)) {v : UInt16}
    (hoff : seqOffset m.sock v < reorderBufferMaxSize) :
    Takes t (m.growInbuf v (seqOffset m.sock v)).sock
      (stream (m.growInbuf v (seqOffset m.sock v))) := by
  obtain ⟨g, hbody, hnext⟩ := h
  have hqueue : RecvQueue (fun n p => p = t.content n) m.sock t.ack g := ⟨hbody.toRecvBody, hnext⟩
  exact ⟨g, ⟨(hqueue.growInbuf hoff).toRecvBody, hbody.buffered, hbody.delivered, hbody.fin,
    hbody.reached, hbody.told⟩, hnext⟩

/-- Keeping a packet ahead of order, in the socket and in the transfer. -/
theorem Takes.storePacket {m : Detached} (h : Takes t m.sock (stream m)) (hsound : Sound 1024 t)
    (harr : Arrives t n buf) (hdata : data = t.content n)
    (hpos : 0 < seqOffset m.sock (seqNr buf))
    (hoff : seqOffset m.sock (seqNr buf) < reorderBufferMaxSize)
    (hfits : seqOffset m.sock (seqNr buf) + 1 < m.sock.inbuf.size)
    (hfree : m.sock.inbuf.get (seqNr buf).toNat = none) :
    Takes (t.store n) (m.storePacket (seqNr buf) data).sock
        (stream (m.storePacket (seqNr buf) data))
      ∧ Sound 1024 (t.store n) := by
  obtain ⟨g, hbody, hnext⟩ := h
  have hn := hbody.number hsound harr hoff
  have hqueue : RecvQueue (fun n p => p = t.content n) m.sock t.ack g := ⟨hbody.toRecvBody, hnext⟩
  have hstored := hqueue.storePacket hpos hoff hfits hfree
    (show data = t.content _ by rw [← hn]; exact hdata)
  rw [← hn] at hstored
  refine ⟨⟨_, ⟨hstored.toRecvBody, fun k => ?_, hbody.delivered, hbody.fin, hbody.reached,
    hbody.told⟩, hstored.drained⟩, ?_⟩
  · show k ∈ insert n t.held ↔ _
    rw [Set.mem_insert_iff, hbody.buffered]
    by_cases hk : k = n
    · rw [hk, Function.update_self]
      simp
    · rw [Function.update_of_ne hk]
      simp [hk]
  · refine hsound.store ?_ ?_ harr.ships.sent
    · omega
    · unfold reorderBufferMaxSize at hoff
      omega

end UtpTakes
