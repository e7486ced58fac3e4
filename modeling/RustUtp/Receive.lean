import RustUtp.RecvQueue
import RustUtp.Lifecycle
import RustUtp.Lib.SlidingWindow

/-! # What a datagram does to the receive side

    `process_incoming` from the point of view of the receiver: a datagram is
    either ignored or reaches `receive` with the receive side as it was.  The
    drain loop of an in-order packet hands over the run of consecutive numbers
    that the buffer holds, as long as no FIN has been seen. -/

namespace UtpReceive

open UtpCircular UtpPacket UtpUtil UtpConnShared UtpEngine UtpEngine.Detached UtpActs
  UtpRecvQueue LabelledPath Reassembly

/-! ## From `process_incoming` to `receive` -/

/-- The sending side of a socket. -/
structure SendView where
  state : ConnState
  finSent : Bool
  seqNr : UInt16
  curWindowPackets : Nat
  curWindow : Nat
  outbuf : CircularBuffer OutgoingPacket
  cwnd : Cwnd
  resend : Resend
  mtu : Mtu

def sendView (s : UtpSock) : SendView where
  state := s.state
  finSent := s.finSent
  seqNr := s.seqNr
  curWindowPackets := s.curWindowPackets
  curWindow := s.curWindow
  outbuf := s.outbuf
  cwnd := s.cwnd
  resend := s.resend
  mtu := s.mtu

/-- An ack that is due changes nothing for the sending side. -/
theorem sendView_scheduleAck (m : Detached) :
    sendView m.scheduleAck.sock = sendView m.sock := by
  unfold scheduleAck
  split <;> rfl

/-- The bookkeeping on the way to the sequence check. -/
def admitted (m : Detached) (buf : Bytes) : Detached :=
  ({ m.readClock with
      sock :=
        { m.sock with extensions := (skipExtensions buf m.sock.extensions).1 } }).noteReceipt
    (seqNr buf)

theorem sendView_admitted (m : Detached) (buf : Bytes) :
    sendView (admitted m buf).sock = sendView m.sock := rfl

/-- A header that is received late changes nothing for the receive side. -/
theorem rxView_admitted {m : Detached} (buf : Bytes) (hst : m.sock.state ≠ .synSent) :
    rxView (admitted m buf) = rxView m ∧ (admitted m buf).sock.state = m.sock.state := by
  unfold admitted noteReceipt
  dsimp only
  rw [if_neg hst]
  exact ⟨rfl, rfl⟩

/-- A datagram that passes all checks comes to `process_checked`. -/
theorem processIncoming_eq {m : Detached} {buf : Bytes} {w : ExtWalk}
    (hty : packetType buf < stNumStates)
    (hrange : ¬ ((packetType buf ≠ stSyn ∨ m.sock.state ≠ .synRecv)
      ∧ m.sock.ackOutOfRange (ackNr buf) = true))
    (hlen : headerSize ≤ buf.length)
    (hwalk : (skipExtensions buf m.sock.extensions).2 = some w) :
    m.processIncoming buf false = (admitted m buf).processChecked buf w := by
  unfold processIncoming
  rw [if_neg (UInt8.not_le.mpr hty)]
  have hrange' : ¬ ((packetType buf ≠ stSyn ∨ m.readClock.sock.state ≠ .synRecv)
      ∧ m.readClock.sock.ackOutOfRange (ackNr buf) = true) := hrange
  have hwalk' : (skipExtensions buf m.readClock.sock.extensions).2 = some w := hwalk
  rw [if_neg hrange', if_neg (Nat.not_lt.mpr hlen)]
  dsimp only
  rw [hwalk']
  rfl

/-- A datagram that is not admitted changes bookkeeping only. -/
theorem processIncoming_cases {m : Detached} (buf : Bytes) :
    (rxView (m.processIncoming buf false).1 = rxView m
      ∧ sendView (m.processIncoming buf false).1.sock = sendView m.sock)
    ∨ ∃ w, packetType buf < stNumStates
      ∧ ¬ ((packetType buf ≠ stSyn ∨ m.sock.state ≠ .synRecv)
        ∧ m.sock.ackOutOfRange (ackNr buf) = true)
      ∧ headerSize ≤ buf.length
      ∧ (skipExtensions buf m.sock.extensions).2 = some w
      ∧ m.processIncoming buf false = (admitted m buf).processChecked buf w := by
  by_cases hty : packetType buf < stNumStates
  · by_cases hrange : (packetType buf ≠ stSyn ∨ m.sock.state ≠ .synRecv)
        ∧ m.sock.ackOutOfRange (ackNr buf) = true
    · -- outside the range of `ack_nr`
      left
      unfold processIncoming
      have hrange' : (packetType buf ≠ stSyn ∨ m.readClock.sock.state ≠ .synRecv)
          ∧ m.readClock.sock.ackOutOfRange (ackNr buf) = true := hrange
      rw [if_neg (UInt8.not_le.mpr hty), if_pos hrange']
      exact ⟨rfl, rfl⟩
    · by_cases hlen : headerSize ≤ buf.length
      · cases hwalk : (skipExtensions buf m.sock.extensions).2 with
        | some w =>
            exact .inr ⟨w, hty, hrange, hlen, rfl, processIncoming_eq hty hrange hlen hwalk⟩
        | none =>
            -- the chain of extensions leaves the datagram
            left
            unfold processIncoming
            have hrange' : ¬ ((packetType buf ≠ stSyn ∨ m.readClock.sock.state ≠ .synRecv)
                ∧ m.readClock.sock.ackOutOfRange (ackNr buf) = true) := hrange
            have hwalk' : (skipExtensions buf m.readClock.sock.extensions).2 = none := hwalk
            rw [if_neg (UInt8.not_le.mpr hty), if_neg hrange', if_neg (Nat.not_lt.mpr hlen)]
            dsimp only
            rw [hwalk']
            exact ⟨rfl, rfl⟩
      · -- too short for a header
        left
        unfold processIncoming
        have hrange' : ¬ ((packetType buf ≠ stSyn ∨ m.readClock.sock.state ≠ .synRecv)
            ∧ m.readClock.sock.ackOutOfRange (ackNr buf) = true) := hrange
        rw [if_neg (UInt8.not_le.mpr hty), if_neg hrange', if_pos (Nat.not_le.mp hlen)]
        exact ⟨rfl, rfl⟩
  · -- an unknown type
    left
    unfold processIncoming
    rw [if_pos (UInt8.not_lt.mp hty)]
    exact ⟨rfl, rfl⟩

/-- Scheduling an ack leaves the receive side and the state. -/
theorem scheduleAck_same (m : Detached) :
    rxView m.scheduleAck = rxView m ∧ m.scheduleAck.sock.state = m.sock.state := by
  unfold scheduleAck
  split <;> exact ⟨rfl, rfl⟩

/-- A number outside the window changes nothing but the ack list. -/
theorem processChecked_outside {m : Detached} {buf : Bytes} (w : ExtWalk)
    (hoff : reorderBufferMaxSize ≤ seqOffset m.sock (seqNr buf)) :
    rxView (m.processChecked buf w).1 = rxView m
      ∧ sendView (m.processChecked buf w).1.sock = sendView m.sock := by
  unfold processChecked
  dsimp only
  rw [if_pos hoff]
  split
  · exact ⟨(scheduleAck_same m).1, sendView_scheduleAck m⟩
  · exact ⟨rfl, rfl⟩

/-- A number in the window reaches `receive`, unless the packet carries nothing
    or the socket is not connected. -/
theorem processChecked_inside {m : Detached} {buf exts : Bytes} {w : ExtWalk}
    (hwalk : (skipExtensions buf exts).2 = some w)
    (hoff : seqOffset m.sock (seqNr buf) < reorderBufferMaxSize) :
    rxView (m.processAck buf w.selack) = rxView m ∧
      (m.processChecked buf w).1 =
        if packetType buf = stState ∨ (m.processAck buf w.selack).sock.state.isConnected = false
        then m.processAck buf w.selack
        else ((m.processAck buf w.selack).receive buf w.dataStart
          (seqOffset m.sock (seqNr buf))).1 := by
  refine ⟨(path_processAck m buf exts w hwalk).rxView_eq, ?_⟩
  unfold processChecked
  dsimp only
  rw [if_neg (Nat.not_le.mpr hoff)]
  by_cases hty : packetType buf = stState
  · rw [if_pos hty, if_pos (.inl hty)]
  · rw [if_neg hty]
    by_cases hst : (m.processAck buf w.selack).sock.state.isConnected = false
    · rw [if_pos hst, if_pos (.inr hst)]
    · rw [if_neg hst, if_neg (not_or.mpr ⟨hty, hst⟩)]

/-! ## The receive side leaves the sending side alone -/

/-- Sending an ack leaves the sending side. -/
theorem sendView_sendAck (m : Detached) (synack : Bool) :
    sendView (m.sendAck synack).sock = sendView m.sock := by
  unfold sendAck
  rw [ackListRemove_sock, sendData_sock]
  rfl

theorem sendView_sendKeepAlive (m : Detached) :
    sendView m.sendKeepAlive.sock = sendView m.sock :=
  sendView_sendAck ({ m with sock := { m.sock with ackNr := m.sock.ackNr - 1 } }) false

theorem sendView_reachFin (m : Detached) : sendView m.reachFin.sock = sendView m.sock := by
  unfold reachFin
  split
  · exact sendView_sendAck m.markFinReached false
  · rfl

theorem sendView_drainLoop (fuel : Nat) :
    ∀ m : Detached, sendView (drainLoop fuel m).sock = sendView m.sock := by
  induction fuel with
  | zero => intro m; rfl
  | succ fuel ih =>
      intro m
      have hreach := sendView_reachFin m
      rw [drainLoop]
      generalize m.reachFin = m₁ at hreach ⊢
      split
      · exact hreach
      · split
        · exact hreach
        · rw [ih, drainNext_sock]
          exact hreach

/-- The rounds of the drain loop, as acts. -/
theorem sendView_drainPath {m m' : Detached} {data : Bytes}
    (h : DrainPath [] (m.acceptNext data) m') : sendView m'.sock = sendView m.sock := by
  refine DrainPath.lift (S := fun a b : Detached => sendView b.sock = sendView a.sock)
    (fun _ => rfl) (fun _ _ _ hab hbc => hbc.trans hab) (fun _ a b hstep => ?_)
    (by rw [acceptNext_sock]; rfl) h
  cases hstep with
  | drain => rw [drainNext_sock]; rfl
  | reach => rfl
  | ackFin => exact sendView_sendAck a false
  | dropStragglers => rfl

/-- An in-order packet leaves the sending side. -/
theorem sendView_receiveInOrder (m : Detached) (data : Bytes) :
    sendView (m.receiveInOrder data).sock = sendView m.sock := by
  unfold receiveInOrder
  dsimp only
  rw [sendView_scheduleAck, sendView_drainLoop, acceptNext_sock]
  rfl

/-- A packet ahead of the expected one leaves it, too. -/
theorem sendView_receiveOutOfOrder (m : Detached) (pkSeqNr : UInt16) (seqnr : Nat)
    (data : Bytes) :
    sendView (m.receiveOutOfOrder pkSeqNr seqnr data).1.sock = sendView m.sock := by
  unfold receiveOutOfOrder
  split
  · rfl
  · split
    · rfl
    · dsimp only
      split
      · rfl
      · rw [sendView_scheduleAck]
        rfl

/-- **WHAT IS RECEIVED** leaves the sending side alone. -/
theorem sendView_receive (m : Detached) (buf : Bytes) (dataStart seqnr : Nat) :
    sendView (m.receive buf dataStart seqnr).1.sock = sendView m.sock := by
  have hfin : sendView (m.noteFin (packetType buf) (seqNr buf)).sock = sendView m.sock := by
    unfold noteFin
    split <;> rfl
  unfold receive
  dsimp only
  split
  · rw [sendView_receiveInOrder]
    exact hfin
  · rw [sendView_receiveOutOfOrder]
    exact hfin

/-- What a datagram in the window leaves of the sending side is what its acks
    leave. -/
theorem sendView_processChecked {m : Detached} {buf exts : Bytes} {w : ExtWalk}
    (hwalk : (skipExtensions buf exts).2 = some w)
    (hoff : seqOffset m.sock (seqNr buf) < reorderBufferMaxSize) :
    sendView (m.processChecked buf w).1.sock = sendView (m.processAck buf w.selack).sock := by
  rw [(processChecked_inside hwalk hoff).2]
  split
  · rfl
  · exact sendView_receive _ _ _ _

/-! ## An established connection stays established -/

/-- No act of the send side ends an established connection that its owner keeps.
    -/
theorem connected_tx {inp : Option Bytes} {l : Bytes} {m m' : Detached} (h : TxAct inp l m m')
    (hst : m.sock.state.isConnected = true) (hreq : m.sock.closeRequested = false) :
    m'.sock.state.isConnected = true := by
  cases h with
  | sendPacket => rw [UtpLifecycle.state_sendPacketAt]; exact hst
  | ackCum => rw [UtpLifecycle.state_ackCumulative]; exact hst
  | ackSel => rw [UtpLifecycle.state_ackPacket]; exact hst
  | lose => rw [UtpLifecycle.state_markLost]; exact hst
  | established => rfl
  | dialed => rfl
  | finAcked =>
      dsimp only
      rw [hreq]
      exact hst
  | becomeFull => rfl
  | becomeWritable => rfl
  | _ => exact hst

theorem connected_txPath {inp : Option Bytes} {l : Bytes} {m m' : Detached}
    (h : TxPath inp l m m') (hst : m.sock.state.isConnected = true)
    (hreq : m.sock.closeRequested = false) : m'.sock.state.isConnected = true := by
  refine (Steps.invariant (P := fun m : Detached => m.sock.state.isConnected = true
    ∧ m.sock.closeRequested = false) (fun _ a b hab hP => ⟨connected_tx hab hP.1 hP.2, ?_⟩)
    h ⟨hst, hreq⟩).1
  exact (congrArg RxView.closeRequested hab.rxView_eq).trans hP.2

/-! ## Delivery -/

/-- The stream of the socket's own cell. -/
def stream (m : Detached) : Stream := (m.ctx.users m.sock.user).stream

/-- The stream is part of what the receive side shows. -/
theorem stream_of_rxView {m m' : Detached} (h : rxView m' = rxView m) : stream m' = stream m := by
  have hs : (fun u => (m'.ctx.users u).stream) = fun u => (m.ctx.users u).stream :=
    congrArg RxView.streams h
  have hu : m'.sock.user = m.sock.user := congrArg RxView.user h
  unfold stream
  rw [hu]
  exact congrFun hs _

/-- A notification reaches the own cell. -/
theorem users_notify (m : Detached) (f : ConnCell → ConnCell) :
    (m.notify f).ctx.users m.sock.user = f (m.ctx.users m.sock.user) := by
  show Function.update m.ctx.users m.sock.user (f (m.ctx.users m.sock.user)) m.sock.user = _
  rw [Function.update_self]

theorem stream_notify (m : Detached) (f : ConnCell → ConnCell) :
    stream (m.notify f) = (f (m.ctx.users m.sock.user)).stream :=
  congrArg ConnCell.stream (users_notify m f)

/-- What reaches the application: the payload, unless reading is shut down. -/
theorem stream_deliver (m : Detached) (data : Bytes) :
    stream (m.deliver data) =
      if m.sock.readShutdown then stream m
      else
        { stream m with
          readBuf := (stream m).readBuf ++ data
          bytes := (stream m).bytes ++ data } := by
  unfold deliver
  cases hshut : m.sock.readShutdown with
  | true => simp
  | false =>
      by_cases hdata : data = []
      · simp [hdata]
      · rw [if_pos ⟨hdata, rfl⟩, stream_notify, stream_onRead]
        rfl

/-- Accepting a packet hands over its bytes. -/
theorem stream_acceptNext (m : Detached) (data : Bytes) :
    stream (m.acceptNext data) = stream (m.deliver data) := rfl

theorem stream_drainNext (m : Detached) (p : Bytes) :
    stream (m.drainNext p) = stream (m.deliver p) := by
  unfold drainNext acceptNext deliver
  dsimp only
  split <;> rfl

/-! ## The drain loop -/

/-- A map without the numbers up to `a`. -/
def cut (a : Nat) (g : Nat → Option Bytes) : Nat → Option Bytes :=
  fun n => if n ≤ a then none else g n

/-- Nothing is cut off where all packets lie ahead. -/
theorem cut_self {a : Nat} {g : Nat → Option Bytes} (h : ∀ n p, g n = some p → a < n) :
    cut a g = g := by
  funext n
  unfold cut
  split
  · rename_i hle
    cases hg : g n with
    | none => rfl
    | some p =>
        have := h n p hg
        omega
  · rfl

/-- Cutting off one number more empties one slot more. -/
theorem cut_succ (a : Nat) (g : Nat → Option Bytes) :
    Function.update (cut a g) (a + 1) none = cut (a + 1) g := by
  funext n
  unfold cut
  by_cases hn : n = a + 1
  · subst hn
    simp
  · rw [Function.update_of_ne hn]
    by_cases hle : n ≤ a
    · rw [if_pos hle, if_pos (by omega)]
    · rw [if_neg hle, if_neg (by omega)]

/-- What receiving leaves alone: the state, the flags and who the connection
    is. -/
structure Flags where
  state : ConnState
  gotFin : Bool
  eofPkt : UInt16
  readShutdown : Bool
  closeRequested : Bool
  ident : Ident

def flags (s : UtpSock) : Flags :=
  ⟨s.state, s.gotFin, s.eofPkt, s.readShutdown, s.closeRequested, ident s⟩

/-- The FIN, if it has been seen, has number `F`, and nothing past it is held. -/
structure EndsAt (s : UtpSock) (a : Nat) (g : Nat → Option Bytes) (F : Nat) : Prop where
  eof : s.eofPkt = UInt16.ofNat F
  le : a ≤ F
  near : F ≤ a + 1024
  last : ∀ n p, g n = some p → n ≤ F

/-- The FIN has not been seen, or nothing past it is held. -/
def Ends (s : UtpSock) (a : Nat) (g : Nat → Option Bytes) (F : Nat) : Prop :=
  s.gotFin = false ∧ s.gotFinReached = false ∨ EndsAt s a g F

/-- The drain loop has moved from `a` to `a'`, handing over what lay between. -/
structure DrainedTo (ok : Nat → Bytes → Prop) (g : Nat → Option Bytes) (a a' F : Nat)
    (m m' : Detached) : Prop where
  le : a ≤ a'
  body : RecvBody ok m'.sock a' (cut a' g)
  run : ∀ n, a < n → n ≤ a' → (g n).isSome = true
  flags_eq : flags m'.sock = flags m.sock
  ends : Ends m'.sock a' (cut a' g) F
  bytes : (stream m').bytes = (stream m).bytes
    ++ if m.sock.readShutdown then [] else segment (fun n => (g n).getD []) a a'

variable {ok : Nat → Bytes → Prop} {g : Nat → Option Bytes} {a a' F : Nat} {m m' m'' : Detached}

theorem DrainedTo.refl (hbody : RecvBody ok m.sock a g) (hends : Ends m.sock a g F) :
    DrainedTo ok g a a F m m := by
  have hcut := cut_self (fun n p => hbody.above (n := n) (p := p))
  refine ⟨Nat.le_refl a, ?_, fun n _ _ => by omega, rfl, ?_, ?_⟩
  · rw [hcut]
    exact hbody
  · rw [hcut]
    exact hends
  · rw [segment_self, ite_self, List.append_nil]

/-- An ack leaves the flags of the receive side. -/
theorem flags_sendAck (m : Detached) (synack : Bool) :
    flags (m.sendAck synack).sock = flags m.sock := by
  have hview := rxView_sendAck m synack
  have hstate := state_sendAck m synack
  unfold flags
  rw [hstate, ident_sendAck]
  show Flags.mk _ (rxView (m.sendAck synack)).gotFin (rxView (m.sendAck synack)).eofPkt
    (rxView (m.sendAck synack)).readShutdown (rxView (m.sendAck synack)).closeRequested _ = _
  rw [hview]
  rfl

/-- Reaching the FIN ends the stream. -/
theorem stream_reach (m : Detached) :
    stream m.markFinReached
      = { stream m with gotEof := true, eofs := (stream m).eofs + 1 } := by
  show stream (Detached.notify _ _) = _
  rw [stream_notify, stream_onEof]
  rfl

/-- Where the stream ends does not depend on what has been handed over. -/
theorem Ends.drainNext (h : Ends m.sock a (cut a g) F) {p : Bytes}
    (hget : cut a g (a + 1) = some p) : Ends (m.drainNext p).sock (a + 1) (cut (a + 1) g) F := by
  rw [drainNext_sock]
  rcases h with hno | hend
  · exact .inl hno
  · right
    refine ⟨hend.eof, hend.last (a + 1) p hget, Nat.le_succ_of_le hend.near, fun n q hq => ?_⟩
    refine hend.last n q ?_
    rw [← hq]
    unfold cut at hq ⊢
    split at hq
    · exact nomatch hq
    · rename_i hn
      rw [if_neg hn, if_neg (by omega)]

/-- At the FIN nothing is held. -/
theorem EndsAt.held_empty {s : UtpSock} (h : EndsAt s a g F) (hbody : RecvBody ok s a g)
    (heof : s.eofPkt = s.ackNr) : held g = ∅ := by
  have haF : a = F := by
    refine SeqNum.eq_of_ofNat_eq ?_ (by have := h.le; omega) (by have := h.near; omega)
    rw [← hbody.ack, ← h.eof, heof]
  refine Set.eq_empty_of_forall_notMem (fun n hn => ?_)
  obtain ⟨p, hp⟩ := Option.isSome_iff_exists.mp hn
  have h₁ := h.last n p hp
  have h₂ := hbody.above hp
  omega

/-- One more packet is handed over. -/
theorem DrainedTo.drainNext (h : DrainedTo ok g a a' F m m') {p : Bytes}
    (hget : cut a' g (a' + 1) = some p) : DrainedTo ok g a (a' + 1) F m (m'.drainNext p) := by
  have hshut : m'.sock.readShutdown = m.sock.readShutdown :=
    congrArg Flags.readShutdown h.flags_eq
  have hg : g (a' + 1) = some p := by
    unfold cut at hget
    rwa [if_neg (by omega)] at hget
  have hbody := h.body.drainNext hget
  rw [cut_succ] at hbody
  refine ⟨Nat.le_succ_of_le h.le, hbody, fun n hn hle => ?_, ?_, h.ends.drainNext hget, ?_⟩
  · rcases Nat.lt_or_ge a' n with hlt | hge
    · obtain rfl : n = a' + 1 := by omega
      rw [hg]
      rfl
    · exact h.run n hn hge
  · rw [← h.flags_eq, drainNext_sock]
    rfl
  · have hb := h.bytes
    rw [stream_drainNext, stream_deliver, hshut]
    cases hs : m.sock.readShutdown with
    | true =>
        rw [hs] at hb
        exact hb
    | false =>
        rw [hs] at hb
        rw [if_neg Bool.false_ne_true] at hb ⊢
        show (stream m').bytes ++ p = _
        rw [hb, if_neg Bool.false_ne_true, segment_succ _ h.le, hg, List.append_assoc]
        rfl

/-- One more round. -/
theorem DrainedTo.step (h : DrainedTo ok g a a' F m m') {l : Bytes} (hact : DrainAct l m' m'') :
    ∃ b, DrainedTo ok g a b F m m'' := by
  cases hact with
  | drain _ p hst hcount hget =>
      rw [h.body.next_slot] at hget
      exact ⟨a' + 1, h.drainNext hget⟩
  | reach _ hst hnew hfin heof =>
      refine ⟨a', h.le, h.body.of_same rfl rfl rfl, h.run, h.flags_eq, ?_, ?_⟩
      · rcases h.ends with hno | hend
        · exact absurd hfin (by rw [hno.1]; exact Bool.false_ne_true)
        · exact .inr ⟨hend.eof, hend.le, hend.near, hend.last⟩
      · rw [stream_reach]
        exact h.bytes
  | ackFin _ hreached heof =>
      have hview := rxView_sendAck m' false
      refine ⟨a', h.le, h.body.of_same (congrArg RxView.inbuf hview)
        (congrArg RxView.ackNr hview) (congrArg RxView.reorderCount hview), h.run,
        (flags_sendAck m' false).trans h.flags_eq, ?_, ?_⟩
      · rcases h.ends with hno | hend
        · exact absurd hreached (by rw [hno.2]; exact Bool.false_ne_true)
        · exact .inr ⟨(congrArg RxView.eofPkt hview).trans hend.eof, hend.le, hend.near,
            hend.last⟩
      · rw [stream_of_rxView hview]
        exact h.bytes
  | dropStragglers _ hreached heof =>
      rcases h.ends with hno | hend
      · exact absurd hreached (by rw [hno.2]; exact Bool.false_ne_true)
      · have hempty := hend.held_empty h.body heof
        refine ⟨a', h.le, ⟨h.body.ring, h.body.small, h.body.ack, h.body.window, h.body.good,
          ?_⟩, h.run, h.flags_eq, .inr ⟨hend.eof, hend.le, hend.near, hend.last⟩, h.bytes⟩
        show 0 = _
        rw [hempty, Set.ncard_empty]

/-- **THE DRAIN LOOP HANDS OVER A RUN**: it stops somewhere, and everything up
    to there was held. -/
theorem drainedTo_path {l : Bytes} (hpath : DrainPath l m m')
    (hbody : RecvBody ok m.sock a g) (hends : Ends m.sock a g F) :
    ∃ b, DrainedTo ok g a b F m m' := by
  induction hpath with
  | refl => exact ⟨a, DrainedTo.refl hbody hends⟩
  | tail _ hact ih =>
      obtain ⟨b, hb⟩ := ih hbody hends
      exact hb.step hact

end UtpReceive
