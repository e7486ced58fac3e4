import RustUtp.Ends
import RustUtp.Handshake

/-! # Opening a connection

    Until the syn-ack arrives the two ends of a connection know little of each
    other.  The dialled socket has its SYN in the queue and has received
    nothing (`Calls`); the accepted one acks the SYN and has nothing to send
    (`Waits`).  Both can be followed from the start, and the answer to the SYN
    makes the dialled socket stand like the other. -/

namespace UtpCalling

open UtpCircular UtpPacket UtpUtil UtpConnShared UtpEngine UtpEngine.Detached UtpActs
  UtpDatagrams UtpEmissions UtpSendQueue UtpRecvQueue UtpReceive UtpEof UtpDecoding UtpSends
  UtpTakes UtpConnection UtpLifecycle UtpEnds UtpAckList UtpHandshake LabelledPath SlidingWindow

/-! ## Numbers far from zero -/

/-- A number that stands for a 16-bit one, far enough from zero to step back. -/
def numberOf (v : UInt16) : Nat := v.toNat + 65536

/-- The lifted number has the same 16 bits. -/
theorem ofNat_numberOf (v : UInt16) : UInt16.ofNat (numberOf v) = v := by
  rw [← UInt16.toNat_inj, UInt16.toNat_ofNat']
  have := v.toNat_lt
  unfold numberOf
  omega

variable {ok ok' : Nat → OutgoingPacket → Prop} {s : UtpSock} {lo : Nat}
  {f : Nat → Option OutgoingPacket}

/-- The map of a queue under higher numbers. -/
def lifted (f : Nat → Option OutgoingPacket) (n : Nat) : Option OutgoingPacket :=
  if n < 65536 then none else f (n - 65536)

/-- What stands in the lifted queue. -/
theorem lifted_some {n : Nat} {p : OutgoingPacket} (h : lifted f n = some p) :
    65536 ≤ n ∧ f (n - 65536) = some p := by
  unfold lifted at h
  split at h
  · exact nomatch h
  · exact ⟨by omega, h⟩

theorem lifted_add (n : Nat) : lifted f (n + 65536) = f n := by
  unfold lifted
  rw [if_neg (by omega), Nat.add_sub_cancel]

/-- The code knows the last 16 bits of a number only. -/
theorem Queue.lift (h : Queue ok s lo f) (hok : ∀ n p, ok n p → ok' (n + 65536) p) :
    Queue ok' s (lo + 65536) (lifted f) := by
  have hdvd : s.outbuf.size ∣ 65536 := s.outbuf.size_dvd (K := 16) (by have := h.small; omega)
  refine ⟨⟨⟨fun n hlo hhi => ?_, fun n p hn => ?_⟩, h.small, ?_, h.cap, h.fits, fun n p hn => ?_,
    fun n p hn => ?_, ?_, h.sound⟩, fun hpos => ?_⟩
  · obtain ⟨k, rfl⟩ : ∃ k, n = k + 65536 := ⟨n - 65536, by omega⟩
    -- 65536 is a multiple of the size, so the slots stay
    have hslot : (k + 65536) % s.outbuf.size = k % s.outbuf.size := by
      rw [Nat.add_mod, Nat.mod_eq_zero_of_dvd hdvd, Nat.add_zero, Nat.mod_mod]
    rw [lifted_add, s.outbuf.get_congr hslot]
    exact h.ring.get_eq k (by omega) (by omega)
  · obtain ⟨hle, hf⟩ := lifted_some hn
    have := h.ring.support _ p hf
    omega
  · rw [h.seq, ← UInt16.toNat_inj, UInt16.toNat_ofNat', UInt16.toNat_ofNat']
    omega
  · obtain ⟨hle, hf⟩ := lifted_some hn
    have := h.live _ p hf
    omega
  · obtain ⟨hle, hf⟩ := lifted_some hn
    obtain ⟨hpk, hokp⟩ := h.good _ p hf
    refine ⟨⟨?_, hpk.length, hpk.fresh⟩, ?_⟩
    · rw [hpk.seq, ← UInt16.toNat_inj, UInt16.toNat_ofNat', UInt16.toNat_ofNat']
      omega
    · have := hok _ p hokp
      rwa [Nat.sub_add_cancel hle] at this
  · rw [h.bytes, Nat.add_right_comm, ← Finset.sum_Ico_add']
    exact Finset.sum_congr rfl (fun n _ => by rw [lifted_add])
  · rw [lifted_add]
    exact h.oldest hpos

/-! ## Datagrams that change next to nothing -/

/-- Only the cached clock reading, the timers and the extensions change. -/
def Glances (m m' : Detached) : Prop :=
  ∃ t timers exts, m' = ⟨{ m.ctx with currentMs := t },
    { m.sock with timers := timers, extensions := exts }⟩

variable {m m' : Detached} {buf : Bytes}

/-- The receipt of a header is no more than a glance. -/
theorem glances_admitted (hst : m.sock.state ≠ .synSent) : Glances m (admitted m buf) := by
  unfold admitted noteReceipt
  dsimp only
  rw [if_neg hst]
  exact ⟨_, _, _, rfl⟩

/-- A datagram is ignored, or gets as far as the sequence check. -/
theorem glances_or_admitted (m : Detached) (buf : Bytes) (syn : Bool) :
    Glances m (m.processIncoming buf syn).1
      ∨ ∃ w, (skipExtensions buf m.sock.extensions).2 = some w
        ∧ (m.processIncoming buf syn).1
          = if syn then admitted m buf else ((admitted m buf).processChecked buf w).1 := by
  unfold processIncoming
  dsimp only
  split
  · exact .inl ⟨_, _, _, rfl⟩
  · split
    · exact .inl ⟨_, _, _, rfl⟩
    · split
      · exact .inl ⟨_, _, _, rfl⟩
      · split
        · exact .inl ⟨_, _, _, rfl⟩
        · rename_i w hwalk
          refine .inr ⟨w, hwalk, ?_⟩
          split <;> rfl

theorem glances_syn (hst : m.sock.state ≠ .synSent) : Glances m (m.processIncoming buf true).1 := by
  rcases glances_or_admitted m buf true with h | ⟨w, -, heq⟩
  · exact h
  · rw [heq, if_pos rfl]
    exact glances_admitted hst

/-! ## The accepted end -/

/-- A cell that has not been handed out yet has sent nothing. -/
def Unsent (ctx : Context) : Prop := ∀ u, ctx.nextUser ≤ u → sentBy u ctx = []

/-- One act of the engine keeps unused cells unsent. -/
theorem unsent_engineAct {occ : Occasion} {l : Bytes} {ctx ctx' : Context}
    (ha : EngineAct occ l ctx ctx') (hcell : CellInv ctx) (h : Unsent ctx) : Unsent ctx' := by
  intro u hu
  cases ha with
  | @sock k _ m m' hout hstep =>
      have helse := elsewhere_act hstep u
      have hnext : m'.ctx.nextUser = m.ctx.nextUser :=
        congrArg Surroundings.nextUser helse.around
      have hle : m.ctx.nextUser ≤ u := hnext ▸ hu
      have hlt := ((cellInv_attach hout).mp hcell).1
      exact (helse.log (Nat.ne_of_gt (Nat.lt_of_lt_of_le hlt hle))).trans (h u hle)
  | dial => exact h u (Nat.le_of_succ_le hu)
  | accept => exact h u (Nat.le_of_succ_le hu)
  | remove k m _ hout =>
      rw [destroySock_nextUser] at hu
      exact (sentBy_same (wire_ackListRemove _)).trans (h u hu)
  | reject _ buf addr =>
      rw [rejectUnknown_nextUser] at hu
      exact (sentBy_rejectUnknown ..).trans (h u hu)
  | _ => exact h u hu

/-- No datagram was sent for a cell that is still free. -/
theorem reachable_unsent {ctx : Context} (h : Reachable ctx) : Unsent ctx := by
  induction h with
  | new => exact fun _ _ => rfl
  | step op hreach hstep ih =>
      exact (Steps.invariant (P := fun ctx => CellInv ctx ∧ Unsent ctx)
        (fun _ _ _ ha h => ⟨cellInv_engineAct ha h.1, unsent_engineAct ha h.1 h.2⟩)
        (path_step hstep) ⟨reachable_cellInv hreach, ih⟩).2

/-- An accepted socket that has not heard from its peer since: it acks the SYN,
    and has nothing else to send. -/
structure Waits (x : UInt16) (v : Local) : Prop where
  state : v.sock.state.isConnected = false
  number : v.sock.seqNr = x
  empty : ∀ i, v.sock.outbuf.get i = none
  log : ∀ d ∈ v.log, packetType d = stState ∧ seqNr d = x

variable {x : UInt16} {occ : Occasion} {l : Bytes}

/-- An act that changes none of it, or acks. -/
theorem Waits.same (h : Waits x (localOf m)) (hst : m'.sock.state.isConnected = false)
    (hseq : m'.sock.seqNr = m.sock.seqNr) (hout : m'.sock.outbuf = m.sock.outbuf)
    (huser : m'.sock.user = m.sock.user)
    (hwire : m'.ctx.wire = m.ctx.wire ∨ m'.ctx.wire = m.ctx.wire ++ [Source.ack.sent m]) :
    Waits x (localOf m') := by
  refine ⟨hst, hseq.trans h.number, fun i => (congrArg (·.get i) hout).trans (h.empty i), ?_⟩
  show ∀ d ∈ sentBy m'.sock.user m'.ctx, _
  rw [huser]
  rcases hwire with hwire | hwire
  · rw [sentBy_same hwire]
    exact h.log
  · have hown : (Source.ack.sent m).src = some m.sock.user := rfl
    rw [sentBy_append hwire, if_pos hown]
    intro d hd
    rcases List.mem_append.mp hd with hd | hd
    · exact h.log d hd
    · rw [List.mem_singleton.mp hd]
      have hhdr := (reads_ack m).1.header
      exact ⟨congrArg Hdr.packetType hhdr, (congrArg Hdr.seqNr hhdr).trans h.number⟩

/-- A half-open connection says nothing of its own accord. -/
theorem waits_tx (h : Waits x (localOf m)) (ha : TxAct none l m m') :
    l = [] ∧ Waits x (localOf m') := by
  -- a waiting socket is not connected, which rules the writing acts out
  have hno : ∀ {st : ConnState}, m.sock.state = st → st.isConnected = true → False :=
    fun hst hconn => nomatch (hst ▸ h.state).symm.trans hconn
  cases ha with
  | sendPacket _ seq =>
      -- nothing is queued, so nothing can be resent
      have hnone : m.sock.outbuf.get seq.toNat = none := h.empty _
      have hsame : m.sendPacketAt seq = m := by
        unfold sendPacketAt
        rw [hnone]
      rw [hsame]
      exact ⟨rfl, h⟩
  | lose _ seq =>
      have hnone : m.sock.outbuf.get seq.toNat = none := h.empty _
      have hsame : m.markLost seq = m := by
        unfold markLost
        rw [hnone]
      rw [hsame]
      exact ⟨rfl, h⟩
  | push _ _ _ hst => exact (hno hst rfl).elim
  | extend _ _ _ _ hst => exact (hno hst rfl).elim
  | becomeFull _ hst => exact (hno hst rfl).elim
  | becomeWritable _ hst => exact (hno hst rfl).elim
  -- acks come with a datagram, and there is none
  | ackCum _ _ _ hinp => exact nomatch hinp
  | ackSel _ _ _ _ hinp => exact nomatch hinp
  | established _ _ hinp => exact nomatch hinp
  | dialed _ _ hinp => exact nomatch hinp
  | finAcked _ _ _ hinp => exact nomatch hinp
  | _ => exact ⟨rfl, h.same h.state rfl rfl rfl (.inl rfl)⟩

theorem waits_act (h : Waits x (localOf m)) (ha : Act occ l m m') (hcalm : Calm occ) :
    l = [] ∧ Waits x (localOf m') := by
  have hno : m.sock.state.isConnected = true → False := fun hst => nomatch h.state.symm.trans hst
  have hnone : ∀ {b : Bytes}, occ.datagram = some b → False :=
    fun hdat => nomatch hcalm.symm.trans hdat
  cases ha with
  | tx ha =>
      rw [hcalm] at ha
      exact waits_tx h ha
  | closing _ hst => exact (hno hst).elim
  | fin _ hst => exact (hno hst).elim
  | closeAcked _ hst => exact (hno hst).elim
  | abandon => exact ⟨rfl, h.same rfl rfl rfl rfl (.inl rfl)⟩
  | giveUp _ st hst =>
      refine ⟨rfl, h.same ?_ rfl rfl rfl (.inl rfl)⟩
      -- giving up leads to a state that is not connected
      show st.isConnected = false
      rcases hst with ⟨-, rfl⟩ | ⟨-, rfl⟩
      · rfl
      · split <;> rfl
  | noteSyn _ _ hdat => exact (hnone hdat).elim
  | noteFin _ _ _ hacc => exact (hnone hacc.datagram).elim
  | inOrder _ _ _ _ hacc => exact (hnone hacc.datagram).elim
  | growIn _ _ _ hacc => exact (hnone hacc.datagram).elim
  | store _ _ _ hacc => exact (hnone hacc.datagram).elim
  | ack _ synack =>
      have hview := txView_sendAck m synack
      exact ⟨rfl, h.same ((congrArg (·.isConnected) (state_sendAck m synack)).trans h.state)
        (congrArg TxView.seqNr hview) (congrArg TxView.outbuf hview)
        (congrArg RxView.user (rxView_sendAck m synack)) (.inr (wire_sendAck m synack))⟩
  | unlist => exact ⟨rfl, h.same h.state rfl rfl rfl (.inl rfl)⟩
  | schedule =>
      obtain ⟨hview, hst⟩ := scheduleAck_same m
      have htx := sendView_scheduleAck m
      exact ⟨rfl, h.same ((congrArg (·.isConnected) hst).trans h.state)
        (congrArg SendView.seqNr htx) (congrArg SendView.outbuf htx) (congrArg RxView.user hview)
        (.inl (wire_scheduleAck m))⟩
  | keepAlive _ hst => exact (hno hst).elim
  | reset _ _ hdat => exact (hnone hdat).elim

/-- What the acts of a half-open connection do. -/
theorem waits_acts (x : UInt16) (u : UserId) :
    OwnActs u Calm (fun acc v => acc = [] ∧ Waits x v) where
  act := fun _ _ _ _ _ hcalm ha _ h => by
    obtain ⟨hl, hnew⟩ := waits_act h.2 ha hcalm
    exact ⟨by rw [h.1, hl]; rfl, hnew⟩
  reset := fun _ m _ h => ⟨h.1, h.2.same (by
    show (if m.sock.closeRequested then ConnState.destroy else .reset).isConnected = false
    split <;> rfl) rfl rfl rfl (.inl rfl)⟩
  read := fun _ _ _ h => ⟨h.1, h.2.state, h.2.number, h.2.empty, h.2.log⟩

/-- The connection stands before anything has come in. -/
theorem Progress.begin {tout tin : Transfer UInt8} {acc : Bytes} {v : Local}
    (h : Stands Takes tout tin acc v) : Progress Takes ⟨tout, tin, v.log⟩ tout tin acc v :=
  ⟨h, SenderGrows.refl _, ReceiverGrows.refl _, [], (List.append_nil _).symm,
    fun _ hd => (List.not_mem_nil hd).elim⟩

/-- A glance leaves an end that stands. -/
theorem Stands.glances {tout tin : Transfer UInt8} {acc : Bytes}
    (h : Stands Takes tout tin acc (localOf m)) (hg : Glances m m') :
    Stands Takes tout tin acc (localOf m') := by
  obtain ⟨t, timers, exts, rfl⟩ := hg
  exact ⟨h.soundOut, h.soundIn, h.positive, h.sends.of_view rfl, h.takes.of_view rfl rfl rfl,
    h.said, h.opening⟩

theorem Waits.glances (h : Waits x (localOf m)) (hg : Glances m m') : Waits x (localOf m') := by
  obtain ⟨t, timers, exts, rfl⟩ := hg
  exact h.same h.state rfl rfl rfl (.inl rfl)

/-- The transfer of a socket whose next packet has number `x`. -/
def startAt (x : UInt16) : Transfer UInt8 := Transfer.start (x.toNat + 65535)

/-- The transfer that the SYN with number `y` opens. -/
def startAfter (y : UInt16) : Transfer UInt8 := Transfer.start (numberOf y)

/-- An accepted end starts with an empty queue. -/
theorem sends_accepting (hv : txView s = ⟨CircularBuffer.new, x, 0, 0, false, false⟩) :
    Sends (startAt x) s := by
  have hempty : Queue (fun _ _ => False) s x.toNat (fun _ => none) := queue_empty hv
  have hq : Queue (Fits (startAt x)) s (x.toNat + 65536) (lifted fun _ => none) :=
    Queue.lift hempty (fun _ _ h => h.elim)
  refine ⟨_, _, hq, ?_, fun n hlo hhi => ?_, fun _ => rfl⟩
  · rw [show s.curWindowPackets = 0 from congrArg TxView.curWindowPackets hv]
    rfl
  · exact absurd hlo (Nat.not_lt.mpr (Nat.le_of_lt_succ hhi))

/-- **AN ACCEPTED SOCKET STANDS**, as the SYN and its own number say. -/
theorem accepted_stands {ctx : Context} (hunsent : Unsent ctx) (buf : Bytes) (addr : SocketAddr) :
    ∃ x, Progress Takes ⟨startAt x, startAfter (seqNr buf), []⟩ (startAt x)
        (startAfter (seqNr buf)) [] (localOf (ctx.acceptSyn buf addr))
      ∧ Waits x (localOf (ctx.acceptSyn buf addr))
      ∧ (ctx.acceptSyn buf addr).sock.state ≠ .synSent := by
  obtain ⟨x, htx⟩ := txView_accepting ctx buf addr
  have hst : (ctx.accepting buf addr).sock.state = .synRecv := rfl
  have hrx : takeView (ctx.accepting buf addr).sock
      = ⟨CircularBuffer.new, seqNr buf, 0, false, false, 0, false⟩ := rfl
  have hlog : (localOf (ctx.accepting buf addr)).log = [] :=
    hunsent ctx.nextUser (Nat.le_refl _)
  -- the cell of the new user is fresh
  have hstream : stream (ctx.accepting buf addr) = (ConnCell.new addr).stream := by
    unfold stream
    rw [(accepting_fresh ctx buf addr).2]
    exact congrArg ConnCell.stream (Function.update_self ..)
  unfold Context.acceptSyn
  generalize ctx.accepting buf addr = m at htx hst hrx hlog hstream ⊢
  -- `process_incoming` on the SYN only glances at the header
  have hne : m.sock.state ≠ .synSent := by
    rw [hst]
    exact nofun
  have hbegin : Stands Takes (startAt x) (startAfter (seqNr buf)) [] (localOf m) := by
    refine ⟨Sound.start .., Sound.start .., Nat.succ_pos _, sends_accepting htx,
      Takes.fresh rfl rfl ?_ ?_ ?_, said_start _, fun _ => rfl⟩
    · exact hrx.trans (by rw [show (startAfter (seqNr buf)).ack = numberOf (seqNr buf) from rfl,
        ofNat_numberOf])
    · exact congrArg Stream.bytes hstream
    · exact congrArg Stream.eofs hstream
  have hwaits : Waits x (localOf m) := by
    refine ⟨(congrArg (·.isConnected) hst).trans rfl, congrArg TxView.seqNr htx, fun i => ?_,
      fun d hd => ?_⟩
    · exact (congrArg (fun v : TxView => v.outbuf.get i) htx).trans (CircularBuffer.get_new i)
    · rw [hlog] at hd
      exact (List.not_mem_nil hd).elim
  have hg : Glances m (m.processIncoming buf true).1 := glances_syn hne
  have hst₁ : (m.processIncoming buf true).1.sock.state ≠ .synSent := by
    obtain ⟨t, timers, exts, heq⟩ := hg
    rw [heq]
    exact hne
  have hlog₁ : (localOf (m.processIncoming buf true).1).log = [] := by
    obtain ⟨t, timers, exts, heq⟩ := hg
    rw [heq]
    exact hlog
  have hstands := Stands.glances hbegin hg
  have hwaits₁ := hwaits.glances hg
  generalize (m.processIncoming buf true).1 = m₁ at hst₁ hlog₁ hstands hwaits₁ ⊢
  have hprog := Progress.begin hstands
  rw [hlog₁] at hprog
  -- the SYN-ACK is an ack: it sends nothing of the stream
  have hst₂ : (m₁.sendAck true).sock.state ≠ .synSent := by
    rw [state_sendAck]
    exact hst₁
  obtain ⟨g, hbody, hnext⟩ := hprog.takes
  refine ⟨x, hprog.still (hprog.sends.of_view (txView_sendAck m₁ true)) (rxView_sendAck m₁ true)
    (fun hs => absurd hs hst₂) (.utters _ _ _ (wire_sendAck m₁ true)
      (.inr (truthful_ack hbody (fun _ => hnext) (Nat.le_refl _)))), ?_, hst₂⟩
  have hack : Act ⟨none, true, false⟩ [] m₁ (m₁.sendAck true) := .ack m₁ true (.due rfl)
  exact (waits_act hwaits₁ hack rfl).2

/-! ## The dialled end -/

/-- A dialled socket that has not been answered: it has sent its SYN and nothing
    else, and has received nothing. -/
structure Calls (tout : Transfer UInt8) (v : Local) : Prop where
  state : v.sock.state.isConnected = false ∧ v.sock.state ≠ .synRecv
  sends : Sends tout v.sock
  fresh : takeView v.sock = ⟨CircularBuffer.new, 0, 0, false, false, 0, false⟩
  nothing : v.stream.readBuf = [] ∧ v.stream.bytes = [] ∧ v.stream.eofs = 0
  window : v.sock.lastRcvWin = v.sock.optRcvbuf
  unlisted : v.sock.inAckList = false
  log : ∀ d ∈ v.log, packetType d = stSyn ∧ seqNr d = UInt16.ofNat tout.first

variable {tout : Transfer UInt8}

/-- The fields that decide about window updates. -/
def windowFields (s : UtpSock) : Nat × Bool := (s.lastRcvWin, s.inAckList)

/-- A dial after a step that leaves all but its queue. -/
theorem Calls.next (h : Calls tout (localOf m)) (hsends : Sends tout m'.sock)
    (hview : rxView m' = rxView m)
    (hst : m'.sock.state.isConnected = false ∧ m'.sock.state ≠ .synRecv)
    (hwin : m'.sock.lastRcvWin = m'.sock.optRcvbuf) (hflag : m'.sock.inAckList = false)
    (hlog : m'.ctx.wire = m.ctx.wire ∨ ∃ addr d note, (packetType d = stSyn
      ∧ seqNr d = UInt16.ofNat tout.first)
      ∧ m'.ctx.wire = m.ctx.wire ++ [⟨some m.sock.user, addr, d, note⟩]) :
    Calls tout (localOf m') := by
  refine ⟨hst, hsends, (takeView_of_rxView hview).trans h.fresh, ?_, hwin, hflag, ?_⟩
  · have hstream : (localOf m').stream = (localOf m).stream := stream_of_rxView hview
    rw [hstream]
    exact h.nothing
  · show ∀ d ∈ sentBy m'.sock.user m'.ctx, _
    rw [show m'.sock.user = m.sock.user from congrArg RxView.user hview]
    rcases hlog with hwire | ⟨addr, d, note, hty, hwire⟩
    · rw [sentBy_same hwire]
      exact h.log
    · rw [sentBy_append hwire, if_pos rfl]
      intro b hb
      rcases List.mem_append.mp hb with hb | hb
      · exact h.log b hb
      · rw [List.mem_singleton.mp hb]
        exact hty

/-- An act that leaves the receive side and the window alone, and is silent. -/
theorem Calls.same (h : Calls tout (localOf m)) (hsends : Sends tout m'.sock)
    (hview : rxView m' = rxView m)
    (hst : m'.sock.state.isConnected = false ∧ m'.sock.state ≠ .synRecv)
    (hwin : windowFields m'.sock = windowFields m.sock) (hwire : m'.ctx.wire = m.ctx.wire) :
    Calls tout (localOf m') := by
  obtain ⟨hlast, hflag⟩ := Prod.mk.inj hwin
  refine h.next hsends hview hst ?_ (hflag.trans h.unlisted) (.inl hwire)
  exact (hlast.trans h.window).trans (congrArg RxView.optRcvbuf hview).symm

/-- The receive window is as open as it can be. -/
theorem Calls.rcvWindow (h : Calls tout (localOf m)) : m.getRcvWindow = m.sock.lastRcvWin := by
  have hread : m.cell.readBuf = [] := h.nothing.1
  unfold getRcvWindow
  rw [hread]
  exact h.window.symm

/-- Taking a packet leaves the fields of the receive window. -/
theorem windowFields_ackPacket (m : Detached) (seq : UInt16) :
    windowFields (m.ackPacket seq).1.sock = windowFields m.sock := by
  unfold ackPacket
  split
  · rfl
  · split <;> rfl

theorem windowFields_ackCumulative (acks : Nat) (m : Detached) :
    windowFields (ackCumulative acks m).sock = windowFields m.sock :=
  ackCumulative_keeps windowFields windowFields_ackPacket (fun _ _ => rfl) (fun _ _ => rfl) acks m

theorem windowFields_markLost (m : Detached) (seq : UInt16) :
    windowFields (m.markLost seq).sock = windowFields m.sock := by
  unfold markLost
  split
  · rfl
  · split <;> rfl

/-- What a dialled socket may be handed before its answer: an ack, and only once
    it has given up. -/
def Harmless (tout : Transfer UInt8) (st : ConnState) (buf : Bytes) : Prop :=
  st ≠ .synSent ∧ packetType buf = stState ∧ ∃ k, Acked tout k buf

/-- Transmitting a packet leaves the window and pays the ack. -/
theorem windowFields_sendPacketAt {m : Detached} {seq : UInt16} {p : OutgoingPacket}
    (hp : m.sock.outbuf.get seq.toNat = some p) :
    windowFields (m.sendPacketAt seq).sock = (m.sock.lastRcvWin, false) := by
  rw [sendPacketAt_sock hp]
  rfl

/-- The SYN goes out again. -/
theorem Calls.resend (h : Calls tout (localOf m)) (hone : tout.next = tout.first + 1)
    (seq : UInt16) : Calls tout (localOf (m.sendPacketAt seq)) := by
  have hview := rxView_sendPacketAt m seq
  have hst : (m.sendPacketAt seq).sock.state.isConnected = false
      ∧ (m.sendPacketAt seq).sock.state ≠ .synRecv := by
    rw [state_sendPacketAt]
    exact h.state
  cases hp : m.sock.outbuf.get seq.toNat with
  | none =>
      have hsame : m.sendPacketAt seq = m := by
        unfold sendPacketAt
        rw [hp]
      rw [hsame]
      exact h
  | some p =>
      obtain ⟨hwin, hflag⟩ := Prod.mk.inj (windowFields_sendPacketAt hp)
      have hopt : (m.sendPacketAt seq).sock.optRcvbuf = m.sock.optRcvbuf :=
        congrArg RxView.optRcvbuf hview
      -- only the SYN is queued, so it is what goes out
      cases sends_sendPacketAt h.sends seq with
      | nothing heq =>
          rw [heq]
          exact h
      | syn d _ hsends hwire hty hseq =>
          exact h.next hsends hview hst (hwin.trans (h.window.trans hopt.symm)) hflag
            (.inr ⟨_, d, _, ⟨hty, hseq⟩, hwire⟩)
      | packet n d _ hlo hhi => omega

/-- A dial goes on under the acts of the send side. -/
theorem calls_tx {inp : Option Bytes} (h : Calls tout (localOf m)) (ha : TxAct inp l m m')
    (hsound : Sound 1024 tout) (hone : tout.next = tout.first + 1)
    (hin : ∀ buf, inp = some buf → Harmless tout m.sock.state buf) :
    l = [] ∧ Calls tout (localOf m') := by
  -- neither connected nor accepted: the acts of those states cannot occur
  have hno : ∀ {st : ConnState}, m.sock.state = st → st.isConnected = true → False :=
    fun hst hconn => nomatch (hst ▸ h.state.1).symm.trans hconn
  have hsame : rxView m' = rxView m → Sends tout m'.sock → m'.sock.state = m.sock.state →
      windowFields m'.sock = windowFields m.sock → m'.ctx.wire = m.ctx.wire →
      Calls tout (localOf m') := fun hview hsends hst hwin hwire =>
    h.same hsends hview (by rw [hst]; exact h.state) hwin hwire
  have hview := ha.rxView_eq
  cases ha with
  | quiet => exact ⟨rfl, hsame hview (h.sends.of_view rfl) rfl rfl rfl⟩
  | noteRcvWin =>
      exact ⟨rfl, h.next (h.sends.of_view rfl) hview h.state (h.rcvWindow.trans h.window)
        h.unlisted (.inl rfl)⟩
  | checkIdle _ hcwp =>
      -- with an empty window the check passes
      rw [sends_checkIdle h.sends hcwp]
      exact ⟨rfl, h⟩
  | sendPacket _ seq => exact ⟨rfl, h.resend hone seq⟩
  | push _ _ _ hst => exact (hno hst rfl).elim
  | extend _ _ _ _ hst => exact (hno hst rfl).elim
  | becomeFull _ hst => exact (hno hst rfl).elim
  | becomeWritable _ hst => exact (hno hst rfl).elim
  | ackCum _ buf acks hbuf hacks =>
      obtain ⟨-, -, k, hack⟩ := hin buf hbuf
      exact ⟨rfl, hsame hview (sends_ackCumulative h.sends hsound hack hacks)
        (state_ackCumulative acks m) (windowFields_ackCumulative acks m)
        (congrArg Context.wire (ctx_ackCumulative acks m))⟩
  | ackSel _ buf sel bits hbuf exts w hwalk hsel hwin hbit =>
      obtain ⟨-, -, k, hack⟩ := hin buf hbuf
      exact ⟨rfl, hsame hview (sends_ackSelective h.sends hsound hack hwalk hsel hwin hbit)
        (state_ackPacket m _) (windowFields_ackPacket m _)
        (congrArg Context.wire (ctx_ackPacket m _))⟩
  | lose _ seq =>
      exact ⟨rfl, hsame hview (sends_markLost h.sends seq) (state_markLost m seq)
        (windowFields_markLost m seq) (congrArg Context.wire (ctx_markLost m seq))⟩
  -- the datagrams let in are neither data nor an answer to the SYN
  | established _ _ _ _ hst => exact absurd hst h.state.2
  | dialed _ buf hbuf _ hst => exact absurd hst (hin buf hbuf).1
  | finAcked _ buf acks =>
      refine ⟨rfl, h.same (h.sends.of_view rfl) hview ?_ rfl rfl⟩
      dsimp only
      split
      · exact ⟨rfl, nofun⟩
      · exact h.state

theorem calls_act (h : Calls tout (localOf m)) (ha : Act occ l m m') (hsound : Sound 1024 tout)
    (hone : tout.next = tout.first + 1) (hissue : occ.issuing = false)
    (hin : ∀ buf, occ.datagram = some buf → Harmless tout m.sock.state buf) :
    l = [] ∧ Calls tout (localOf m') := by
  have hno : m.sock.state.isConnected = true → False :=
    fun hst => nomatch h.state.1.symm.trans hst
  -- the window was announced as it stands, so it never grows
  have hwindow : ¬ m.getRcvWindow > m.sock.lastRcvWin := by
    rw [h.rcvWindow]
    exact Nat.lt_irrefl _
  cases ha with
  | tx ha => exact calls_tx h ha hsound hone hin
  | closing _ hst => exact (hno hst).elim
  | fin _ hst => exact (hno hst).elim
  | closeAcked _ hst => exact (hno hst).elim
  | abandon => exact ⟨rfl, h.same (h.sends.of_view rfl) rfl ⟨rfl, nofun⟩ rfl rfl⟩
  | giveUp _ st hst =>
      refine ⟨rfl, h.same (h.sends.of_view rfl) (rxView_notify _ (fun c => stream_onError c _)) ?_
        rfl rfl⟩
      show st.isConnected = false ∧ st ≠ .synRecv
      rcases hst with ⟨-, rfl⟩ | ⟨-, rfl⟩
      · exact ⟨rfl, nofun⟩
      · exact ended_state _
  | noteSyn _ buf hdat hst => exact absurd hst (hin buf hdat).1
  | noteFin _ _ _ _ hst => exact (hno hst).elim
  | inOrder _ _ _ _ _ hst => exact (hno hst).elim
  | growIn _ _ _ _ hst => exact (hno hst).elim
  | store _ _ _ _ hst => exact (hno hst).elim
  | keepAlive _ hst => exact (hno hst).elim
  | ack _ synack hcause =>
      -- none of the causes of an ack applies
      cases hcause with
      | windowGrew hgrew => exact (hwindow hgrew).elim
      | synack buf hdat hty => exact absurd (hty.symm.trans (hin buf hdat).2.1) (by decide)
      | due hdue => exact nomatch hissue.symm.trans hdue
  | unlist _ hdue => exact nomatch hissue.symm.trans hdue
  | schedule _ hcause =>
      cases hcause with
      | answers buf hdat hty => exact absurd (hin buf hdat).2.1 hty
      | windowGrew hgrew => exact (hwindow hgrew).elim
  | reset _ buf =>
      exact ⟨rfl, h.same (h.sends.of_view rfl) (rxView_notify _ (fun c => stream_onError c _))
        (ended_state _) rfl rfl⟩

/-- A connection that waits for its answer, to which nothing has been given. -/
def Called (tout : Transfer UInt8) (acc : Bytes) (v : Local) : Prop := acc = [] ∧ Calls tout v

/-- An occasion without a datagram and without acks that are due. -/
def Still (occ : Occasion) : Prop := Calm occ ∧ occ.issuing = false

/-- Reading from a dial reads nothing. -/
theorem called_read {acc : Bytes} {v : Local} (h : Called tout acc v) (n : Nat) :
    Called tout acc (v.read n) := by
  obtain ⟨hacc, hcalls⟩ := h
  obtain ⟨hread, hrest⟩ := hcalls.nothing
  exact ⟨hacc, hcalls.state, hcalls.sends, hcalls.fresh, ⟨by
    show v.stream.readBuf.drop n = []
    rw [hread, List.drop_nil], hrest⟩, hcalls.window, hcalls.unlisted, hcalls.log⟩

/-- A reset ends a dial. -/
theorem called_reset {acc : Bytes} (h : Called tout acc (localOf m)) :
    Called tout acc (localOf (Context.resetSock m)) :=
  ⟨h.1, h.2.same (h.2.sends.of_view rfl) (rxView_notify _ (fun c => stream_onError c _))
    (ended_state _) rfl rfl⟩

/-- What the acts of a dial do. -/
theorem called_acts (hsound : Sound 1024 tout) (hone : tout.next = tout.first + 1) (u : UserId) :
    OwnActs u Still (Called tout) where
  act := fun _ _ _ _ _ hstill ha _ h => by
    obtain ⟨hl, hnew⟩ := calls_act h.2 ha hsound hone hstill.2
      (fun _ hbuf => nomatch hstill.1.symm.trans hbuf)
    exact ⟨by rw [h.1, hl]; rfl, hnew⟩
  reset := fun _ _ _ h => called_reset h
  read := fun _ _ n h => called_read h n

variable {key : Key} {u : UserId} {ctx ctx' : Context} {op : Op} {acc : Bytes}

/-- A dialled socket goes on calling, whatever the engine does, until it is
    handed a datagram. -/
theorem called_step (hreach : Reachable ctx) (h : Follows key u (Called tout acc) ctx)
    (hsound : Sound 1024 tout) (hone : tout.next = tout.first + 1)
    (hstep : ctx.step op = some ctx') (hfree : ¬ Hands u ctx op) :
    Follows key u (Called tout (acc ++ saidBy u ctx op)) ctx' := by
  have hown := called_acts hsound hone u
  have hflag : ∀ {c : Context}, Follows key u (Called tout acc) c → Listed c →
      Follows key u (Called tout acc) c.issueDeferredAcks :=
    fun hc hlisted => hc.sweep hlisted (fun _ hv => hv.2.unlisted)
  have hlisted := reachable_listed hreach
  cases op with
  | issueDeferredAcks =>
      obtain rfl := Option.some.inj hstep
      show Follows key u (Called tout (acc ++ [])) _
      rw [List.append_nil]
      exact hflag h hlisted
  | recv k user len =>
      obtain rfl := Option.some.inj hstep
      show Follows key u (Called tout (acc ++ [])) _
      rw [List.append_nil]
      have hstill : Still ⟨none, false, false⟩ := ⟨rfl, rfl⟩
      have hquiet : ∀ {c : Context}, EnginePath ⟨none, false, false⟩ [] ctx c →
          Follows key u (Called tout acc) c := fun hpath =>
        h.path hpath (fun _ _ ha hu => hown.silent hstill acc ha hu) (hown.read acc) rfl
      rcases recv_cases ctx k user len with he | he | he
      · rw [he]
        exact h
      · rw [he]
        exact hquiet (Steps.single (.consume ctx user len))
      · rw [he]
        have hread : EnginePath ⟨none, false, false⟩ [] ctx ((ctx.consume user len).readDrained k) :=
          path_recvRead ctx k user len
        exact hflag (hquiet hread) (listed_path rfl hread hlisted)
  | _ => exact follows_step h hown (fun hcalm => ⟨hcalm, rfl⟩) hstep hfree

/-! ## The answer -/

/-- What the accepted end sends while it waits: acks of the SYN. -/
structure Answers (tout tin : Transfer UInt8) (buf : Bytes) : Prop where
  kind : packetType buf = stState
  seq : seqNr buf = UInt16.ofNat (tin.first + 1)
  acks : ∃ k, Acked tout k buf

/-- The connection has been answered, and nothing has come in since. -/
def Heard (tout tin : Transfer UInt8) (log : List Bytes) (v : Local) : Prop :=
  Open ⟨tout, tin, log⟩ [] v ∧ v.sock.ackNr = UInt16.ofNat tin.first

variable {tin : Transfer UInt8}

/-- Nothing has been taken of the transfer. -/
structure Untouched (t : Transfer UInt8) : Prop where
  sound : Sound 1024 t
  positive : 0 < t.first
  ack : t.ack = t.first
  held : t.held = ∅

/-- The answer to a dial starts the receiving side at its number. -/
theorem stands_admitted (h : Calls tout (localOf m)) (hst : m.sock.state = .synSent)
    (hsound : Sound 1024 tout) (hone : tout.next = tout.first + 1) (htin : Untouched tin)
    (hseq : seqNr buf = UInt16.ofNat (tin.first + 1)) :
    Stands Takes tout tin [] (localOf (admitted m buf)) := by
  have hnum : (admitted m buf).sock.ackNr = UInt16.ofNat tin.ack := by
    show (if m.sock.state = .synSent then seqNr buf - 1 else m.sock.ackNr) = _
    rw [if_pos hst, hseq, SeqNum.ofNat_sub_one (Nat.succ_pos _), htin.ack]
    rfl
  have hview : takeView (admitted m buf).sock
      = { takeView m.sock with ackNr := UInt16.ofNat tin.ack } := by
    rw [← hnum]
    rfl
  refine ⟨hsound, htin.sound, htin.positive, h.sends.of_view rfl,
    Takes.fresh htin.ack htin.held ?_ h.nothing.2.1 h.nothing.2.2, ?_, fun _ => htin.ack⟩
  · exact hview.trans (congrArg (fun v : TakeView => { v with ackNr := UInt16.ofNat tin.ack })
      h.fresh)
  · unfold Transfer.said
    rw [hone, Nat.add_sub_cancel]
    exact Reassembly.segment_self _ _

/-- **THE ANSWER MAKES THE CONNECTION STAND**, unless it is ignored. -/
theorem calls_hear (h : Calls tout (localOf m)) (hsound : Sound 1024 tout)
    (hone : tout.next = tout.first + 1) (htin : Untouched tin) (hans : Answers tout tin buf) :
    Calls tout (localOf (m.processIncoming buf false).1)
      ∨ m.sock.state = .synSent
        ∧ Heard tout tin (localOf m).log (localOf (m.processIncoming buf false).1) := by
  by_cases hst : m.sock.state = .synSent
  · rcases glances_or_admitted m buf false with ⟨t, timers, exts, heq⟩ | ⟨w, hwalk, heq⟩
    · rw [heq]
      exact .inl (h.same (h.sends.of_view rfl) rfl h.state rfl rfl)
    · rw [if_neg Bool.false_ne_true] at heq
      have hstands := stands_admitted h hst hsound hone htin hans.seq
      have hst₁ : (admitted m buf).sock.state = .synSent := hst
      have hlog : (localOf (admitted m buf)).log = (localOf m).log := rfl
      rw [heq]
      generalize admitted m buf = m₁ at hstands hst₁ hlog ⊢
      have hoff : seqOffset m₁.sock (seqNr buf) = 0 := by
        obtain ⟨g, hbody, -⟩ := hstands.takes
        have hack : m₁.sock.ackNr = UInt16.ofNat tin.first := hbody.ack.trans (by rw [htin.ack])
        unfold seqOffset
        rw [hack, hans.seq, ← SeqNum.ofNat_add_one]
        have hzero : UInt16.ofNat tin.first + 1 - UInt16.ofNat tin.first - 1 = 0 := by grind
        rw [hzero]
        rfl
      obtain ⟨hview, hchecked⟩ := processChecked_inside hwalk
        (show seqOffset m₁.sock (seqNr buf) < reorderBufferMaxSize by rw [hoff]; decide)
      rw [if_pos (.inl hans.kind)] at hchecked
      have hpath : ActPath ⟨some buf, false, false⟩ [] m₁ (m₁.processChecked buf w).1 :=
        path_processChecked m₁ buf w _ rfl hwalk
      have hnew := since_path hpath (fun b hb => ?_) [] ⟨tout, tin, Progress.begin hstands⟩
      · rw [hlog] at hnew
        refine .inr ⟨hst, ⟨hnew, ?_⟩, ?_⟩
        · show (m₁.processChecked buf w).1.sock.state ≠ _
          rw [hchecked]
          exact processAck_opens hwalk hans.kind hst₁
        · show (m₁.processChecked buf w).1.sock.ackNr = _
          rw [hchecked, show (m₁.processAck buf w.selack).sock.ackNr = m₁.sock.ackNr from
            congrArg RxView.ackNr hview]
          obtain ⟨g, hbody, -⟩ := hstands.takes
          exact hbody.ack.trans (by rw [htin.ack])
      · obtain rfl := Option.some.inj hb
        exact ⟨⟨hans.acks, fun hty => absurd hans.kind hty⟩, fun _ => hans.seq⟩
  · left
    have hpath : ActPath ⟨some buf, false, false⟩ [] m (m.processIncoming buf false).1 :=
      path_processIncoming m buf false rfl
    refine (Steps.invariant (P := fun m : Detached => Calls tout (localOf m)
      ∧ m.sock.state ≠ .synSent) (fun l a b ha hP => ⟨?_, ?_⟩) hpath ⟨h, hst⟩).1
    · refine (calls_act hP.1 ha hsound hone rfl (fun b hb => ?_)).2
      obtain rfl := Option.some.inj hb
      exact ⟨hP.2, hans.kind, hans.acks⟩
    · exact fun hs => hP.2 (Move.synSent (moves_act ha) hs)

/-! ## The dial -/

/-- The queue of a dialled socket once its SYN is sent. -/
theorem sends_dialled {t : UtpSock}
    (hv : txView m.sock = ⟨CircularBuffer.new.put t.seqNr.toNat (some (Context.synPacket t)),
      t.seqNr + 1, 1, 0, false, false⟩) :
    Sends (startAfter t.seqNr) (m.sendPacketAt (m.sock.seqNr - 1)).sock := by
  obtain ⟨⟨lo, f, hsent⟩, hcwp, -, -⟩ := sent_syn hv
  have hsyn : Queue (fun _ p => packetType p.data = stSyn) m.sock t.seqNr.toNat _ :=
    queue_syn (congrArg Hdr.packetType (hdr_synPacket t)) hv
  obtain ⟨f', hq, -⟩ := hsyn.sendPacketAt (m.sock.seqNr - 1)
    (fun n p hn hty => (kind_sentPacket m (hsyn.good n p hn).1).trans hty)
  have honly : Queue (fun n p => n = t.seqNr.toNat ∧ packetType p.data = stSyn
      ∧ 0 < p.transmissions) (m.sendPacketAt (m.sock.seqNr - 1)).sock t.seqNr.toNat f' := by
    refine hq.weaken (fun n p hn hty => ?_)
    have hlo := (hq.ring.support n p hn).1
    have hlive := hq.live n p hn
    have hget := (hq.get_number hlo hlive).trans hn
    obtain ⟨k, -, -, -, hk⟩ := hsent.ring.slot hget
    exact ⟨by omega, hty, (hsent.good k p hk).2⟩
  refine ⟨_, _, Queue.lift honly (fun n p h => .inl ⟨by rw [h.1]; rfl, h.2⟩), ?_,
    fun n hlo hhi => ?_, fun _ => rfl⟩
  · rw [hcwp]
    rfl
  · exact absurd hlo (Nat.not_lt.mpr (Nat.le_of_lt_succ hhi))

/-- A socket that has just been dialled and sends its SYN. -/
theorem calls_sent {t : UtpSock} {st : Stream}
    (htx : txView m.sock = ⟨CircularBuffer.new.put t.seqNr.toNat (some (Context.synPacket t)),
      t.seqNr + 1, 1, 0, false, false⟩)
    (hrx : takeView m.sock = ⟨CircularBuffer.new, 0, 0, false, false, 0, false⟩)
    (hst : m.sock.state = .synSent) (hlog : (localOf m).log = []) (hstream : stream m = st)
    (hnothing : st.readBuf = [] ∧ st.bytes = [] ∧ st.eofs = 0)
    (hwin : m.sock.lastRcvWin = m.sock.optRcvbuf) :
    Calls (startAfter t.seqNr) (localOf (m.sendPacketAt (m.sock.seqNr - 1))) := by
  have hsends := sends_dialled htx
  obtain ⟨hring, hseq, -⟩ := TxView.mk.inj htx
  have hnum : m.sock.seqNr - 1 = t.seqNr := by
    rw [hseq]
    grind
  have hget : m.sock.outbuf.get (m.sock.seqNr - 1).toNat = some (Context.synPacket t) := by
    rw [hnum, hring, CircularBuffer.get_put_self]
  generalize m.sock.seqNr - 1 = seq at hget hsends ⊢
  have hty : packetType (Context.synPacket t).data = stSyn :=
    congrArg Hdr.packetType (hdr_synPacket t)
  have hno := (synPacket_ok t).seq
  have hlen := PacketOk.length_le (synPacket_ok t)
  rw [UInt16.ofNat_toNat] at hno
  generalize Context.synPacket t = p at hget hty hno hlen
  obtain ⟨hsame, -, hseq', -⟩ := outgoing_same m hlen m.sock.ackNr
  have hwire := wire_sendPacketAt hget
  obtain ⟨hlast, hflag⟩ := Prod.mk.inj (windowFields_sendPacketAt hget)
  have hview := rxView_sendPacketAt m seq
  have hopt : (m.sendPacketAt seq).sock.optRcvbuf = m.sock.optRcvbuf :=
    congrArg RxView.optRcvbuf hview
  have huser : (m.sendPacketAt seq).sock.user = m.sock.user := congrArg RxView.user hview
  refine ⟨?_, hsends, (takeView_of_rxView hview).trans hrx, ?_, hlast.trans (hwin.trans hopt.symm),
    hflag, ?_⟩
  · show (m.sendPacketAt seq).sock.state.isConnected = false ∧ (m.sendPacketAt seq).sock.state ≠ _
    rw [state_sendPacketAt, hst]
    exact ⟨rfl, nofun⟩
  · have hstill : (localOf (m.sendPacketAt seq)).stream = st :=
      (stream_of_rxView hview).trans hstream
    rw [hstill]
    exact hnothing
  · show ∀ d ∈ sentBy (m.sendPacketAt seq).sock.user _, _
    rw [huser, sentBy_append hwire, if_pos rfl, show sentBy m.sock.user m.ctx = [] from hlog]
    intro d hd
    rw [List.mem_singleton.mp hd]
    exact ⟨hsame.trans hty, (hseq'.trans hno).trans (ofNat_numberOf t.seqNr).symm⟩

/-- **A DIALLED SOCKET CALLS**, with the number of its SYN. -/
theorem dialled_calls {ctx : Context} (hunsent : Unsent ctx) (addr : SocketAddr) (seed : UInt32)
    (rng : Rng) : ∃ y, Calls (startAfter y) (localOf (Context.dialledSent ctx addr seed rng)) := by
  obtain ⟨t, -, htx⟩ := txView_dialled ctx addr seed rng
  have hstream : stream (ctx.dialled addr seed rng) = (ConnCell.new addr).stream := by
    unfold stream
    rw [(dialled_fresh ctx addr seed rng).2]
    exact congrArg ConnCell.stream (Function.update_self ..)
  have hwin : (ctx.dialled addr seed rng).sock.lastRcvWin
      = (ctx.dialled addr seed rng).sock.optRcvbuf := by
    show _ - (ConnCell.readBuf (Function.update ctx.users ctx.nextUser (ConnCell.new addr)
      ctx.nextUser)).length = _
    rw [Function.update_self]
    rfl
  exact ⟨t.seqNr, calls_sent htx rfl rfl (hunsent ctx.nextUser (Nat.le_refl _)) hstream
    ⟨rfl, rfl, rfl⟩ hwin⟩

end UtpCalling
