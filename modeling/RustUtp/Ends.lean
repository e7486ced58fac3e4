import RustUtp.Takes

/-! # One end of a connection, both ways

    A connection is two transfers, one each way; a socket is the sending end of
    one and the receiving end of the other.  `Since` follows a socket from a
    moment on: whatever it does moves both transfers on, and every datagram it
    sends tells the truth about them.  That much is so as long as the datagrams
    that come in tell the truth. -/

namespace UtpEnds

open UtpCircular UtpPacket UtpUtil UtpConnShared UtpEngine UtpEngine.Detached UtpActs
  UtpDatagrams UtpEmissions UtpSendQueue UtpRecvQueue UtpReceive UtpEof UtpDecoding UtpSends
  UtpTakes UtpConnection UtpLifecycle LabelledPath SlidingWindow

/-! ## Datagrams that tell the truth -/

/-- The datagram acks what has arrived of `tin` and carries a packet of `tout`,
    if any, and neither is much older than the numbers `next` and `ack`. -/
structure Truthful (tout tin : Transfer UInt8) (next ack : Nat) (d : Bytes) : Prop where
  acks : ∃ k, ackNr d = UInt16.ofNat k ∧ k ≤ tin.ack ∧ ack ≤ k + 1 ∧ TrueMask tin k d
  carries : packetType d ≠ stState → ∃ n, Ships tout n d ∧ next ≤ n + 1024

/-- A datagram of a socket: its SYN, which no socket listens to, or a true one. -/
def Honest (tout tin : Transfer UInt8) (next ack : Nat) (d : Bytes) : Prop :=
  packetType d = stSyn ∨ Truthful tout tin next ack d

variable {tout tin tout' tin' t t' : Transfer UInt8} {next ack : Nat} {d : Bytes}

/-- A packet that has been sent stays what it is. -/
theorem Ships.sender {n : Nat} (h : Ships t n d) (hsound : Sound 1024 t)
    (hgrow : SenderGrows t t') : Ships t' n d := by
  refine ⟨hgrow.sent h.sent, h.seq, h.length, h.bears.of_same hgrow.first
    (hgrow.content n h.sent) ⟨fun hl => ?_, hgrow.last n⟩⟩
  exact hgrow.lastNew n hl (hsound.inside n h.sent).2

/-- What the sender ships does not depend on the receiver. -/
theorem Ships.receiver {n : Nat} (h : Ships t n d) (hgrow : ReceiverGrows t t') :
    Ships t' n d :=
  ⟨by rw [hgrow.sent]; exact h.sent, h.seq, h.length, Bears.same h.bears hgrow⟩

/-- A datagram stays true while its sender goes on. -/
theorem Truthful.own (h : Truthful tout tin next ack d) (hsound : Sound 1024 tout)
    (hout : SenderGrows tout tout') (hin : ReceiverGrows tin tin') :
    Truthful tout' tin' next ack d := by
  obtain ⟨k, hnum, hle, hnear, hmask⟩ := h.acks
  refine ⟨⟨k, hnum, hle.trans hin.ack, hnear, hmask.mono hin.received⟩, fun hty => ?_⟩
  obtain ⟨n, hships, hclose⟩ := h.carries hty
  exact ⟨n, Ships.sender hships hsound hout, hclose⟩

/-- The other end moves the transfers on. -/
theorem Truthful.peer (h : Truthful tout tin next ack d) (hout : ReceiverGrows tout tout')
    (hin : SenderGrows tin tin') : Truthful tout' tin' next ack d := by
  obtain ⟨k, hnum, hle, hnear, hmask⟩ := h.acks
  refine ⟨⟨k, hnum, by rw [hin.ack]; exact hle, hnear,
    hmask.mono (fun _ => hin.received.mpr)⟩, fun hty => ?_⟩
  obtain ⟨n, hships, hclose⟩ := h.carries hty
  exact ⟨n, Ships.receiver hships hout, hclose⟩

theorem Honest.own (h : Honest tout tin next ack d) (hsound : Sound 1024 tout)
    (hout : SenderGrows tout tout') (hin : ReceiverGrows tin tin') :
    Honest tout' tin' next ack d := h.imp id (fun ht => ht.own hsound hout hin)

theorem Honest.peer (h : Honest tout tin next ack d) (hout : ReceiverGrows tout tout')
    (hin : SenderGrows tin tin') : Honest tout' tin' next ack d :=
  h.imp id (fun ht => ht.peer hout hin)

/-! ## Acks tell the truth -/

/-- What a bit of the mask says about the reorder buffer; the ack number may lag
    one behind, as in a keep-alive. -/
theorem mask_arrived {ok : Nat → Bytes → Prop} {s r : UtpSock} {a k i : Nat}
    {g : Nat → Option Bytes} (h : RecvQueue ok r a g) (hin : s.inbuf = r.inbuf)
    (hack : s.ackNr = UInt16.ofNat k) (hk : k = a ∨ k + 1 = a)
    (hbit : s.ackMask.testBit i = true) : i < 30 ∧ (g (k + 2 + i)).isSome = true := by
  rw [testBit_ackMask, hin, Bool.and_eq_true, decide_eq_true_eq] at hbit
  obtain ⟨hi, hsome⟩ := hbit
  have hslot : (s.ackNr.toNat + i + 2) % r.inbuf.size = (k + 2 + i) % r.inbuf.size := by
    rw [hack, show (UInt16.ofNat k).toNat + i + 2 = (UInt16.ofNat k).toNat + (2 + i) by omega,
      Nat.add_mod, wrap_mod_size _ h.small, ← Nat.add_mod, Nat.add_assoc]
  rw [r.inbuf.get_congr hslot] at hsome
  refine ⟨by omega, ?_⟩
  by_cases hlast : k + 2 + i = a + 1 + r.inbuf.size
  · -- one past the ring: its slot is the one of the expected packet, which is empty
    rw [hlast, r.inbuf.get_congr (Nat.add_mod_right _ _), h.ring.get_eq _ (Nat.le_refl _)
      (Nat.lt_add_of_pos_right r.inbuf.size_pos), h.drained] at hsome
    exact nomatch hsome
  · rw [h.ring.get_eq _ (by omega) (by omega)] at hsome
    exact hsome

variable {m m' : Detached} {g : Nat → Option Bytes}

/-- An ack for number `k` is true if its mask, where it has one, is. -/
theorem truthful_state {k : Nat} (hnum : m.sock.ackNr = UInt16.ofNat k) (hle : k ≤ tin.ack)
    (hnear : ack ≤ k + 1)
    (hmask : carriesMask m.sock = true → ∀ i, m.sock.ackMask.testBit i = true →
      i < 32 ∧ tin.Received (k + 2 + i)) :
    Truthful tout tin next ack (m.stampTimes m.ackDatagram) := by
  obtain ⟨hreads, hbits⟩ := reads_ack m
  have hty : packetType (m.stampTimes m.ackDatagram) = stState :=
    congrArg Hdr.packetType hreads.header
  refine ⟨⟨k, (congrArg Hdr.ackNr hreads.header).trans hnum, hle, hnear, ?_⟩,
    fun hne => absurd hty hne⟩
  intro exts w sel bits hwalk hsel hbit
  obtain ⟨start, hskip, -⟩ := hreads.walk
  rw [hskip] at hwalk
  obtain rfl := Option.some.inj hwalk
  change selackOf m.sock = some sel at hsel
  unfold selackOf at hsel
  split at hsel
  · rename_i hcarries
    obtain rfl := Option.some.inj hsel
    rw [hbits hcarries] at hbit
    have hrange : 0 ≤ bits ∧ bits < 32 := by
      unfold bitSet at hbit
      split at hbit
      · rename_i hin
        exact hin
      · exact nomatch hbit
    obtain ⟨i, rfl⟩ := Int.eq_ofNat_of_zero_le hrange.1
    rw [bitSet_leBytes32 _ (by omega)] at hbit
    exact ⟨hrange.1, hrange.2, (hmask hcarries i hbit).2⟩
  · exact nomatch hsel

/-- **AN ACK TELLS THE TRUTH**: it acks what was received in order, and its mask
    what was received besides. -/
theorem truthful_ack (h : TakesBody tin m.sock (stream m) g)
    (hdone : m.sock.gotFinReached = false → g (tin.ack + 1) = none) (hack : ack ≤ tin.ack) :
    Truthful tout tin next ack (Source.ack.bytes m) := by
  refine truthful_state h.ack (Nat.le_refl _) (Nat.le_succ_of_le hack) (fun hcarries i hbit => ?_)
  unfold carriesMask at hcarries
  rw [Bool.and_eq_true, Bool.not_eq_true'] at hcarries
  obtain ⟨hi, hsome⟩ := mask_arrived ⟨h.toRecvBody, hdone hcarries.2⟩ rfl h.ack (.inl rfl) hbit
  exact ⟨by omega, .inr ((h.buffered _).mpr hsome)⟩

theorem truthful_keepAlive (h : Takes tin m.sock (stream m)) (hpos : 0 < tin.ack)
    (hack : ack ≤ tin.ack) : Truthful tout tin next ack (Source.keepAlive.bytes m) := by
  obtain ⟨g, hbody, hdone⟩ := h
  have hnum : (backOne m).sock.ackNr = UInt16.ofNat (tin.ack - 1) := by
    show m.sock.ackNr - 1 = _
    rw [hbody.ack, SeqNum.ofNat_sub_one hpos]
  refine truthful_state (m := backOne m) hnum (Nat.sub_le _ _) (by omega) (fun _ i hbit => ?_)
  obtain ⟨hi, hsome⟩ := mask_arrived (s := (backOne m).sock) ⟨hbody.toRecvBody, hdone⟩ rfl hnum
    (.inr (Nat.sub_add_cancel hpos)) hbit
  exact ⟨by omega, .inr ((hbody.buffered _).mpr hsome)⟩

/-! ## Following a socket -/

/-- The socket of `v` is the sending end of `tout`, which has been given `acc`
    altogether, and the receiving end of `tin`; `T` says how it represents what
    it receives. -/
structure Stands (T : Transfer UInt8 → UtpSock → Stream → Prop) (tout tin : Transfer UInt8)
    (acc : Bytes) (v : Local) : Prop where
  soundOut : Sound 1024 tout
  soundIn : Sound 1024 tin
  positive : 0 < tin.first
  sends : Sends tout v.sock
  takes : T tin v.sock v.stream
  said : tout.said = acc
  opening : v.sock.state = .synSent → tin.ack = tin.first

/-- The moment that a connection is followed from. -/
structure Origin where
  tout : Transfer UInt8
  tin : Transfer UInt8
  log : List Bytes

/-- The connection has come to `v`, and has told the truth ever since. -/
structure Progress (T : Transfer UInt8 → UtpSock → Stream → Prop) (o : Origin)
    (tout tin : Transfer UInt8) (acc : Bytes) (v : Local) : Prop
    extends Stands T tout tin acc v where
  out : SenderGrows o.tout tout
  inn : ReceiverGrows o.tin tin
  log : ∃ new, v.log = o.log ++ new ∧ ∀ d ∈ new, Honest tout tin o.tout.next o.tin.ack d

/-- An honest datagram was honest in older bounds. -/
theorem Honest.older {next' ack' : Nat} (h : Honest tout tin next ack d) (hnext : next' ≤ next)
    (hack : ack' ≤ ack) : Honest tout tin next' ack' d := by
  refine h.imp id (fun ht => ?_)
  obtain ⟨k, hnum, hle, hnear, hmask⟩ := ht.acks
  refine ⟨⟨k, hnum, hle, hack.trans hnear, hmask⟩, fun hty => ?_⟩
  obtain ⟨n, hships, hclose⟩ := ht.carries hty
  exact ⟨n, hships, hnext.trans hclose⟩

/-- Nothing is sent, or one honest datagram. -/
inductive Speaks (tout tin : Transfer UInt8) (next ack : Nat) (m m' : Detached) : Prop where
  | silent (h : m'.ctx.wire = m.ctx.wire)
  | utters (d : Bytes) (addr : SocketAddr) (note : Option Note)
      (h : m'.ctx.wire = m.ctx.wire ++ [⟨some m.sock.user, addr, d, note⟩])
      (hd : Honest tout tin next ack d)

variable {T T' : Transfer UInt8 → UtpSock → Stream → Prop} {o : Origin} {acc acc' : Bytes}

/-- A step of the connection. -/
theorem Progress.move (h : Progress T o tout tin acc (localOf m)) (hout : SenderGrows tout tout')
    (hin : ReceiverGrows tin tin') (hsout : Sound 1024 tout') (hsin : Sound 1024 tin')
    (hsends : Sends tout' m'.sock) (htakes : T' tin' m'.sock (stream m'))
    (hsaid : tout'.said = acc') (hopening : m'.sock.state = .synSent → tin'.ack = tin'.first)
    (huser : m'.sock.user = m.sock.user) (hlog : Speaks tout' tin' tout.next tin.ack m m') :
    Progress T' o tout' tin' acc' (localOf m') := by
  refine ⟨⟨hsout, hsin, by rw [hin.first]; exact h.positive, hsends, htakes, hsaid, hopening⟩,
    h.out.trans hout, h.inn.trans hin, ?_⟩
  obtain ⟨new, hnew, hhonest⟩ := h.log
  have hold : ∀ d ∈ new, Honest tout' tin' o.tout.next o.tin.ack d := fun d hd =>
    (hhonest d hd).own h.soundOut hout hin
  change sentBy m.sock.user m.ctx = _ at hnew
  show ∃ new', sentBy m'.sock.user m'.ctx = _ ∧ _
  rw [huser]
  cases hlog with
  | silent hwire => exact ⟨new, (sentBy_same hwire).trans hnew, hold⟩
  | utters d addr _ hwire hd =>
      refine ⟨new ++ [d], ?_, fun b hb => ?_⟩
      · rw [sentBy_append hwire, if_pos rfl, hnew, List.append_assoc]
      · rcases List.mem_append.mp hb with hb | hb
        · exact hold b hb
        · rw [List.mem_singleton.mp hb]
          exact hd.older h.out.next h.inn.ack

/-- An act that leaves both transfers alone. -/
theorem Progress.still (h : Progress Takes o tout tin acc (localOf m))
    (hsends : Sends tout m'.sock) (hview : rxView m' = rxView m)
    (hback : m'.sock.state = .synSent → m.sock.state = .synSent)
    (hlog : Speaks tout tin tout.next tin.ack m m') :
    Progress Takes o tout tin acc (localOf m') := by
  have hstream := stream_of_rxView hview
  exact h.move (SenderGrows.refl _) (ReceiverGrows.refl _) h.soundOut h.soundIn hsends
    (h.takes.of_view (takeView_of_rxView hview) (congrArg Stream.bytes hstream)
      (congrArg Stream.eofs hstream))
    h.said (fun hst => h.opening (hback hst)) (congrArg RxView.user hview) hlog

/-- The ack number that every datagram carries. -/
theorem Progress.ackNr_eq (h : Progress Takes o tout tin acc (localOf m)) :
    m.sock.ackNr = UInt16.ofNat tin.ack := by
  obtain ⟨g, hbody, -⟩ := h.takes
  exact hbody.ack

/-- The transfer goes on when a packet goes out. -/
theorem Progress.sendPacketAt (h : Progress Takes o tout tin acc (localOf m)) (seq : UInt16) :
    ∃ tout', Progress Takes o tout' tin acc (localOf (m.sendPacketAt seq)) := by
  have hview := rxView_sendPacketAt m seq
  have hstream := stream_of_rxView hview
  have hstate := state_sendPacketAt m seq
  cases sends_sendPacketAt h.sends seq with
  | nothing heq =>
      rw [heq]
      exact ⟨tout, h⟩
  | syn d _ hsends hwire hty _ =>
      exact ⟨tout, h.still hsends hview (fun hst => hstate.symm.trans hst)
        (.utters d _ _ hwire (.inl hty))⟩
  | packet n d _ hlo hhi hnear hsends hwire hships hack =>
      refine ⟨tout.send n, h.move (SenderGrows.send tout n) (ReceiverGrows.refl tin)
        (h.soundOut.send hlo hhi) h.soundIn hsends
        (h.takes.of_view (takeView_of_rxView hview) (congrArg Stream.bytes hstream)
          (congrArg Stream.eofs hstream)) h.said
        (fun hst => h.opening (hstate.symm.trans hst)) (congrArg RxView.user hview)
        (.utters d _ _ hwire (.inr ⟨⟨tin.ack, hack.trans h.ackNr_eq, Nat.le_refl _, Nat.le_succ _, ?_⟩,
          fun _ => ⟨n, hships, hnear⟩⟩))⟩
      -- a packet of the queue has no extension, so it has no mask
      intro exts w sel bits hwalk hsel
      unfold skipExtensions at hwalk
      rw [if_pos hships.bears.ext] at hwalk
      obtain rfl := Option.some.inj hwalk
      exact nomatch hsel

/-- The datagram that comes in tells the truth about both transfers. -/
structure Delivered (tout tin : Transfer UInt8) (buf : Bytes) : Prop where
  acks : ∃ k, Acked tout k buf
  carries : packetType buf ≠ stState → ∃ n, Arrives tin n buf

/-- A datagram that may be delivered may be delivered later. -/
theorem Delivered.grow {buf : Bytes} (h : Delivered tout tin buf) (hout : SenderGrows tout tout')
    (hin : ReceiverGrows tin tin') : Delivered tout' tin' buf := by
  obtain ⟨k, hack⟩ := h.acks
  refine ⟨⟨k, hack.sender hout⟩, fun hty => ?_⟩
  obtain ⟨n, harr⟩ := h.carries hty
  exact ⟨n, harr.receiver hin⟩

/-- Sending acts move the outgoing transfer. -/
theorem Progress.tx {inp : Option Bytes} {l : Bytes}
    (h : Progress Takes o tout tin acc (localOf m)) (ha : TxAct inp l m m')
    (hinp : ∀ buf, inp = some buf → Delivered tout tin buf)
    (hback : m'.sock.state = .synSent → m.sock.state = .synSent) :
    ∃ tout', Progress Takes o tout' tin (acc ++ l) (localOf m') := by
  have hview := ha.rxView_eq
  have hstream := stream_of_rxView hview
  have htakes : Takes tin m'.sock (stream m') :=
    h.takes.of_view (takeView_of_rxView hview) (congrArg Stream.bytes hstream)
      (congrArg Stream.eofs hstream)
  have hopening : m'.sock.state = .synSent → tin.ack = tin.first :=
    fun hst => h.opening (hback hst)
  have huser : m'.sock.user = m.sock.user := congrArg RxView.user hview
  have hquiet : Sends tout m'.sock → m'.ctx.wire = m.ctx.wire →
      ∃ tout', Progress Takes o tout' tin (acc ++ []) (localOf m') := by
    intro hsends hwire
    rw [List.append_nil]
    exact ⟨tout, h.still hsends hview hback (.silent hwire)⟩
  cases ha with
  | sendPacket _ seq =>
      rw [List.append_nil]
      exact h.sendPacketAt seq
  | push _ k data hst hfin hroom hk harm =>
      obtain ⟨hsends, hsound⟩ := sends_push h.sends h.soundOut hfin hroom hk
      exact ⟨_, h.move (SenderGrows.push h.soundOut _) (ReceiverGrows.refl _) hsound h.soundIn
        hsends htakes ((SlidingWindow.said_push h.soundOut _).trans (by rw [h.said])) hopening
        huser (.silent rfl)⟩
  | extend _ p k data hst hfin hcwp hp hunsent hk =>
      obtain ⟨hsends, hsound, hout, hlong⟩ :=
        sends_extend h.sends h.soundOut hfin hcwp hp hunsent hk
      exact ⟨_, h.move (SenderGrows.extend _ hout) (ReceiverGrows.refl _) hsound h.soundIn
        hsends htakes ((SlidingWindow.said_extend hlong _).trans (by rw [h.said])) hopening
        huser (.silent rfl)⟩
  | ackCum _ buf acks hbuf hacks =>
      obtain ⟨k, hack⟩ := (hinp buf hbuf).acks
      exact hquiet (sends_ackCumulative h.sends h.soundOut hack hacks)
        (congrArg Context.wire (ctx_ackCumulative acks m))
  | ackSel _ buf sel bits hbuf exts w hwalk hsel hwin hbit =>
      obtain ⟨k, hack⟩ := (hinp buf hbuf).acks
      exact hquiet (sends_ackSelective h.sends h.soundOut hack hwalk hsel hwin hbit)
        (congrArg Context.wire (ctx_ackPacket m _))
  | lose _ seq =>
      exact hquiet (sends_markLost h.sends seq) (congrArg Context.wire (ctx_markLost m seq))
  | checkIdle _ hcwp =>
      rw [sends_checkIdle h.sends hcwp, List.append_nil]
      exact ⟨tout, h⟩
  | _ => exact hquiet (h.sends.of_view rfl) rfl

/-! ## Receiving acts -/

/-- The socket drains its reorder buffer, so it is past its handshake. -/
def Drains (t : Transfer UInt8) (s : UtpSock) (st : Stream) : Prop :=
  s.state ≠ .synSent ∧ ∃ g, TakesBody t s st g

/-- A drain leaves the sending side. -/
theorem txView_drainAct {l : Bytes} (h : DrainAct l m m') :
    txView m'.sock = txView m.sock ∧ m'.sock.state = m.sock.state := by
  cases h with
  | drain => rw [drainNext_sock]; exact ⟨rfl, rfl⟩
  | reach => exact ⟨rfl, rfl⟩
  | ackFin => exact ⟨txView_sendAck m false, state_sendAck m false⟩
  | dropStragglers => exact ⟨rfl, rfl⟩

/-- The transfer goes on when a packet is drained. -/
theorem Progress.drainAct {l : Bytes} (h : Progress Drains o tout tin acc (localOf m))
    (ha : DrainAct l m m') : ∃ tin', Progress Drains o tout tin' acc (localOf m') := by
  obtain ⟨hst, g, hbody⟩ := h.takes
  obtain ⟨tin', g', hgrow, hsound, hbody'⟩ := TakesBody.drainAct hbody h.soundIn ha
  obtain ⟨hview, hstate⟩ := txView_drainAct ha
  have hst' : m'.sock.state ≠ .synSent := by
    rw [hstate]
    exact hst
  refine ⟨tin', h.move (SenderGrows.refl _) hgrow h.soundOut hsound (h.sends.of_view hview)
    ⟨hst', g', hbody'⟩ h.said (fun hs => absurd hs hst') (congrArg Ident.user ha.ident_eq) ?_⟩
  cases ha with
  | drain _ p => exact .silent (silent_deliver _ p).1
  | reach => exact .silent rfl
  | dropStragglers => exact .silent rfl
  | ackFin _ hreached =>
      refine .utters _ _ _ (wire_sendAck m false) (.inr (Truthful.own ?_ h.soundOut
        (SenderGrows.refl _) hgrow))
      exact truthful_ack hbody (fun hno => nomatch hreached.symm.trans hno) (Nat.le_refl _)

/-- And when one after the other is. The induction is on the drain. -/
theorem Progress.drainPath {l : Bytes} (hpath : DrainPath l m m') :
    ∀ tin, Progress Drains o tout tin acc (localOf m) →
      ∃ tin', Progress Drains o tout tin' acc (localOf m') := by
  induction hpath with
  | refl _ => exact fun tin h => ⟨tin, h⟩
  | tail _ hact ih =>
      intro tin h
      obtain ⟨tin', h'⟩ := ih tin h
      exact h'.drainAct hact

/-- A packet that is taken in order, and the run it completes. -/
theorem Progress.inOrder (h : Progress Takes o tout tin acc (localOf m)) {occ : Occasion}
    {buf data : Bytes} {n : Nat} (harr : Arrives tin n buf) (hacc : Accepted occ buf data)
    (hst : m.sock.state.isConnected = true) (hoff : seqOffset m.sock (seqNr buf) = 0)
    (hdrain : DrainPath [] (m.acceptNext data) m') (hdone : Drained m'.sock) :
    ∃ tin', Progress Takes o tout tin' acc (localOf m') := by
  -- the packet in order is the next number of the stream
  have hn : n = tin.ack + 1 := by
    obtain ⟨g, hbody, -⟩ := h.takes
    have hlt : seqOffset m.sock (seqNr buf) < reorderBufferMaxSize := by
      rw [hoff]
      decide
    exact (hbody.number h.soundIn harr hlt).trans (congrArg (tin.ack + 1 + ·) hoff)
  subst hn
  have hsock := acceptNext_sock m data
  have hlate : (m.acceptNext data).sock.state ≠ .synSent := by
    rw [hsock]
    exact UtpReassembler.not_synSent hst
  -- taking it is the start of the drain
  have hbody := Takes.acceptNext h.takes h.soundIn harr.ships.sent (harr.payload hacc)
  have hstart : Progress Drains o tout tin.take acc (localOf (m.acceptNext data)) :=
    h.move (SenderGrows.refl _) (ReceiverGrows.take tin) h.soundOut
      (h.soundIn.take harr.ships.sent) (h.sends.of_view (by rw [hsock]; rfl)) ⟨hlate, hbody⟩
      h.said (fun hs => absurd hs hlate) (by rw [hsock]) (.silent (silent_deliver m data).1)
  obtain ⟨tin', h'⟩ := Progress.drainPath hdrain _ hstart
  -- the drain ends where the next number is missing
  obtain ⟨hlate', g, hbody'⟩ := h'.takes
  exact ⟨tin', { h' with takes := ⟨g, hbody', (hbody'.toRecvBody.queue hdone).drained⟩ }⟩

/-! ## Every act -/

/-- The connection has come to `v`, with `acc` given to it altogether. -/
def Since (o : Origin) (acc : Bytes) (v : Local) : Prop :=
  ∃ tout tin, Progress Takes o tout tin acc v

/-- What comes in is true, and answers the SYN while that is out. -/
structure Welcome (o : Origin) (st : ConnState) (buf : Bytes) : Prop where
  delivered : Delivered o.tout o.tin buf
  answer : st = .synSent → seqNr buf = UInt16.ofNat (o.tin.first + 1)

/-- A notification that hands over nothing leaves the stream. -/
theorem stream_silent {f : ConnCell → ConnCell} (hf : ∀ c, (f c).stream = c.stream)
    (s : UtpSock) (hu : s.user = m.sock.user) :
    stream (Detached.notify ⟨m.ctx, s⟩ f) = stream m := by
  rw [stream_notify, hf]
  show (m.ctx.users s.user).stream = _
  rw [hu]
  rfl

/-- An act that changes neither end of a transfer, nor sends. -/
theorem Progress.quiet (h : Progress Takes o tout tin acc (localOf m))
    (htx : txView m'.sock = txView m.sock) (hrx : takeView m'.sock = takeView m.sock)
    (hstream : stream m' = stream m)
    (hback : m'.sock.state = .synSent → m.sock.state = .synSent)
    (huser : m'.sock.user = m.sock.user) (hwire : m'.ctx.wire = m.ctx.wire) :
    Since o (acc ++ []) (localOf m') := by
  rw [List.append_nil]
  exact ⟨tout, tin, h.move (SenderGrows.refl _) (ReceiverGrows.refl _) h.soundOut h.soundIn
    (h.sends.of_view htx)
    (h.takes.of_view hrx (congrArg Stream.bytes hstream) (congrArg Stream.eofs hstream)) h.said
    (fun hst => h.opening (hback hst)) huser (.silent hwire)⟩

/-- The transfer stays when reading is shut down. -/
theorem Progress.shut (h : Progress Takes o tout tin acc (localOf m)) (s : UtpSock)
    (htx : txView s = txView m.sock)
    (hrx : takeView s = { takeView m.sock with readShutdown := true })
    (hstate : s.state = m.sock.state) (huser : s.user = m.sock.user) :
    Since o (acc ++ []) (localOf { m with sock := s }) := by
  have hstream : stream { m with sock := s } = stream m := by
    show (m.ctx.users s.user).stream = _
    rw [huser]
    rfl
  rw [List.append_nil]
  refine ⟨tout, tin, h.move (SenderGrows.refl _) (ReceiverGrows.refl _) h.soundOut h.soundIn
    (h.sends.of_view htx) ?_ h.said (fun hst => h.opening (hstate.symm.trans hst)) huser
    (.silent rfl)⟩
  rw [hstream]
  exact h.takes.shut hrx

/-- **WHATEVER THE SOCKET DOES** moves the connection on, and whatever it sends
    is true, as long as what comes in is. -/
theorem since_act {occ : Occasion} {l : Bytes} (h : Since o acc (localOf m))
    (ha : Act occ l m m')
    (hin : ∀ buf, occ.datagram = some buf → Welcome o m.sock.state buf) :
    Since o (acc ++ l) (localOf m') := by
  obtain ⟨tout, tin, h⟩ := h
  have hback : m'.sock.state = .synSent → m.sock.state = .synSent := Move.synSent (moves_act ha)
  have huser : m'.sock.user = m.sock.user := congrArg Ident.user ha.ident_eq
  have htrue : ∀ buf, occ.datagram = some buf → Delivered tout tin buf := fun buf hbuf =>
    (hin buf hbuf).delivered.grow h.out h.inn
  have harrives : ∀ {buf data : Bytes}, Accepted occ buf data → ∃ n, Arrives tin n buf :=
    fun hacc => (htrue _ hacc.datagram).carries hacc.carries
  cases ha with
  | tx ha =>
      obtain ⟨tout', h'⟩ := h.tx ha htrue hback
      exact ⟨tout', tin, h'⟩
  | closing => exact h.shut _ rfl rfl rfl rfl
  | fin _ hst hfin harm =>
      obtain ⟨hsends, hsound, hopen⟩ := sends_queueFin h.sends h.soundOut hfin
      rw [List.append_nil]
      exact ⟨tout.finish, tin, h.move (SenderGrows.finish h.soundOut hopen)
        (ReceiverGrows.refl _) hsound h.soundIn hsends (h.takes.of_view rfl rfl rfl)
        ((SlidingWindow.said_finish h.soundOut).trans h.said)
        (fun hs => h.opening (hback hs)) huser (.silent rfl)⟩
  | giveUp _ st _ =>
      exact h.quiet rfl rfl (stream_silent (fun c => stream_onError c _) _ rfl) hback huser rfl
  | reset _ buf hdat hty =>
      exact h.quiet rfl rfl (stream_silent (fun c => stream_onError c _) _ rfl) hback huser rfl
  | noteSyn _ buf hdat hst hlen hrange =>
      -- the ack number is what it was
      have hsame : seqNr buf - 1 = m.sock.ackNr := by
        rw [(hin buf hdat).answer hst, SeqNum.ofNat_sub_one (Nat.succ_pos _), h.ackNr_eq,
          h.opening hst, h.inn.first]
        rfl
      refine h.quiet rfl ?_ rfl hback huser rfl
      show TakeView.mk m.sock.inbuf (seqNr buf - 1) _ _ _ _ _ = _
      rw [hsame]
      rfl
  | noteFin _ buf data hacc hst hty hnew hoff =>
      obtain ⟨n, harr⟩ := harrives hacc
      rw [List.append_nil]
      exact ⟨tout, tin, h.move (SenderGrows.refl _) (ReceiverGrows.refl _) h.soundOut h.soundIn
        (h.sends.of_view rfl) (h.takes.noteFin (harr.last hty) harr.ships.seq) h.said
        (fun hs => absurd (hback hs) (UtpReassembler.not_synSent hst)) huser (.silent rfl)⟩
  | inOrder _ _ buf data hacc hst hoff hdrain hdone =>
      obtain ⟨n, harr⟩ := harrives hacc
      obtain ⟨tin', h'⟩ := h.inOrder harr hacc hst hoff hdrain hdone
      rw [List.append_nil]
      exact ⟨tout, tin', h'⟩
  | growIn _ buf data hacc hst hpos hoff =>
      rw [List.append_nil]
      exact ⟨tout, tin, h.move (SenderGrows.refl _) (ReceiverGrows.refl _) h.soundOut h.soundIn
        (h.sends.of_view rfl) (h.takes.growIn hoff) h.said
        (fun hs => absurd (hback hs) (UtpReassembler.not_synSent hst)) huser (.silent rfl)⟩
  | store _ buf data hacc hst hpos hoff hfits hfree =>
      obtain ⟨n, harr⟩ := harrives hacc
      obtain ⟨htakes, hsound⟩ := h.takes.storePacket h.soundIn harr (harr.payload hacc) hpos hoff
        hfits hfree
      rw [List.append_nil]
      exact ⟨tout, tin.store n, h.move (SenderGrows.refl _) (ReceiverGrows.store _ _) h.soundOut
        hsound (h.sends.of_view rfl) htakes h.said
        (fun hs => absurd (hback hs) (UtpReassembler.not_synSent hst)) huser (.silent rfl)⟩
  | ack _ synack hcause =>
      obtain ⟨g, hbody, hnext⟩ := h.takes
      rw [List.append_nil]
      exact ⟨tout, tin, h.still (h.sends.of_view (txView_sendAck m synack))
        (rxView_sendAck m synack) hback (.utters _ _ _ (wire_sendAck m synack)
          (.inr (truthful_ack hbody (fun _ => hnext) (Nat.le_refl _))))⟩
  | keepAlive _ hst hfin =>
      have hpos : 0 < tin.ack := Nat.lt_of_lt_of_le (h.inn.first ▸ h.positive) h.soundIn.begun
      rw [List.append_nil]
      exact ⟨tout, tin, h.still (h.sends.of_view (txView_sendAck (backOne m) false))
        (rxView_sendKeepAlive m) hback (.utters _ _ _ (wire_sendAck (backOne m) false)
          (.inr (truthful_keepAlive h.takes hpos (Nat.le_refl _))))⟩
  | schedule _ hcause =>
      have hview := (scheduleAck_same m).1
      have htx : txView m.scheduleAck.sock = txView m.sock := by
        unfold scheduleAck
        split <;> rfl
      exact h.quiet htx (takeView_of_rxView hview) (stream_of_rxView hview) hback huser
        (wire_scheduleAck m)
  | _ => exact h.quiet rfl rfl rfl hback huser rfl

/-! ## Operations -/

/-- The acts of an operation, with the bytes they accept. -/
theorem since_path {occ : Occasion} {l : Bytes} (hpath : ActPath occ l m m')
    (hin : ∀ buf, occ.datagram = some buf → Welcome o m.sock.state buf) :
    ∀ acc, Since o acc (localOf m) → Since o (acc ++ l) (localOf m') := by
  induction hpath with
  | refl _ =>
      intro acc h
      rwa [List.append_nil]
  | tail hprev hact ih =>
      intro acc h
      rw [← List.append_assoc]
      have hback := Steps.lift (S := fun a b : Detached => b.sock.state = .synSent →
        a.sock.state = .synSent) (fun _ => id) (fun _ _ _ hab hbc hc => hab (hbc hc))
        (fun _ _ _ ha => Move.synSent (moves_act ha)) hprev
      refine since_act (ih hin acc h) hact (fun buf hbuf => ?_)
      exact ⟨(hin buf hbuf).delivered, fun hst => (hin buf hbuf).answer (hback hst)⟩

/-- A connection that is past its handshake, if it ever was in one. -/
def Open (o : Origin) (acc : Bytes) (v : Local) : Prop := Since o acc v ∧ v.sock.state ≠ .synSent

/-- A reset leads to a state of its own. -/
theorem state_resetSock (m : Detached) : (Context.resetSock m).sock.state ≠ .synSent := by
  show (if m.sock.closeRequested then ConnState.destroy else .reset) ≠ .synSent
  split <;> exact nofun

/-- A reset ends the transfer where it is. -/
theorem open_reset (h : Open o acc (localOf m)) : Open o acc (localOf (Context.resetSock m)) := by
  obtain ⟨⟨tout, tin, h⟩, -⟩ := h
  have hnew : Since o (acc ++ []) (localOf (Context.resetSock m)) :=
    h.quiet rfl rfl (stream_silent (fun c => stream_onError c _) _ rfl)
      (fun hs => absurd hs (state_resetSock m)) rfl rfl
  rw [List.append_nil] at hnew
  exact ⟨hnew, state_resetSock m⟩

/-- A read takes from what has arrived. -/
theorem open_read {v : Local} (h : Open o acc v) (n : Nat) : Open o acc (v.read n) := by
  obtain ⟨⟨tout, tin, h⟩, hst⟩ := h
  exact ⟨⟨tout, tin, { h with takes := h.takes.of_view rfl rfl rfl }⟩, hst⟩

/-- What the acts of a socket do to its end of the transfer. -/
theorem open_acts (o : Origin) (u : UserId) : OwnActs u Calm (Open o) where
  act := fun _ _ _ _ _ hcalm ha _ h =>
    ⟨since_act h.1 ha (fun _ hbuf => nomatch hcalm.symm.trans hbuf),
      fun hst => h.2 (Move.synSent (moves_act ha) hst)⟩
  reset := fun _ _ _ h => open_reset h
  read := fun _ _ n h => open_read h n

/-- A datagram that may be delivered. -/
theorem open_processIncoming {buf : Bytes} (h : Open o acc (localOf m))
    (hdel : Delivered o.tout o.tin buf) : Open o acc (localOf (m.processIncoming buf false).1) := by
  have hpath : ActPath ⟨some buf, false, false⟩ [] m (m.processIncoming buf false).1 :=
    path_processIncoming m buf false rfl
  have hin : ∀ b, (⟨some buf, false, false⟩ : Occasion).datagram = some b →
      Welcome o m.sock.state b := by
    intro b hb
    obtain rfl := Option.some.inj hb
    exact ⟨hdel, fun hst => absurd hst h.2⟩
  have hnew := since_path hpath hin acc h.1
  rw [List.append_nil] at hnew
  refine ⟨hnew, ?_⟩
  exact Steps.invariant (P := fun m : Detached => m.sock.state ≠ .synSent)
    (fun _ _ _ ha hs hs' => hs (Move.synSent (moves_act ha) hs')) hpath h.2

variable {key : Key} {u : UserId} {ctx ctx' : Context} {op : Op}

/-- A datagram that the operation hands the socket of cell `u` tells the truth. -/
def Truthfully (u : UserId) (tout tin : Transfer UInt8) (ctx : Context) (op : Op) : Prop :=
  Hands u ctx op → ∀ buf addr firewall, op = .processUdp buf addr firewall →
    Delivered tout tin buf

/-- **ONE OPERATION** of an open end. -/
theorem open_step (h : Follows key u (Open o acc) ctx) (hstep : ctx.step op = some ctx')
    (htrue : Truthfully u o.tout o.tin ctx op) :
    Follows key u (Open o (acc ++ saidBy u ctx op)) ctx' := by
  by_cases hhands : Hands u ctx op
  · cases op with
    | processUdp buf addr firewall =>
        obtain rfl := Option.some.inj hstep
        show Follows key u (Open o (acc ++ [])) _
        rw [List.append_nil]
        exact follows_processUdp h (fun _ => id) (fun _ _ _ hm => open_reset hm) (fun _ _ _ hm =>
          open_processIncoming hm (htrue hhands buf addr firewall rfl))
    | _ => exact hhands.elim
  · exact follows_step h (open_acts o u) id hstep hhands

/-- A connection at rest, between two operations. -/
def Stood (tout tin : Transfer UInt8) (acc : Bytes) (v : Local) : Prop :=
  Stands Takes tout tin acc v ∧ v.sock.state ≠ .synSent

/-- What an operation makes of the two transfers of a connection. -/
structure Advances (key : Key) (u : UserId) (tout tin tout' tin' : Transfer UInt8) (acc' : Bytes)
    (ctx ctx' : Context) : Prop where
  out : SenderGrows tout tout'
  inn : ReceiverGrows tin tin'
  follows : Follows key u (Stood tout' tin' acc') ctx'
  log : ∃ new, sentBy u ctx' = sentBy u ctx ++ new
    ∧ ∀ d ∈ new, Honest tout' tin' tout.next tin.ack d

/-- **EVERY OPERATION** moves the two transfers of a connection on, as its
    sender and its receiver, and sends the truth about them. -/
theorem stood_step (h : Follows key u (Stood tout tin acc) ctx) (hstep : ctx.step op = some ctx')
    (htrue : Truthfully u tout tin ctx op) :
    ∃ tout' tin', Advances key u tout tin tout' tin' (acc ++ saidBy u ctx op) ctx ctx' := by
  have hopen : Follows key u (Open ⟨tout, tin, sentBy u ctx⟩ acc) ctx := by
    obtain ⟨s, hfound, hstands, hst⟩ := h.found
    refine ⟨h.allocated, s, hfound, ⟨tout, tin, hstands, SenderGrows.refl _, ReceiverGrows.refl _,
      [], (List.append_nil _).symm, fun _ hd => (List.not_mem_nil hd).elim⟩, hst⟩
  have hnew := open_step hopen hstep htrue
  obtain ⟨s, hfound, ⟨tout', tin', hprog⟩, hst⟩ := hnew.found
  exact ⟨tout', tin', hprog.out, hprog.inn,
    ⟨hnew.allocated, s, hfound, hprog.toStands, hst⟩, hprog.log⟩

end UtpEnds
