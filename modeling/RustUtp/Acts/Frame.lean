import RustUtp.Acts.Ack

/-! # Frames — what a kind of act leaves alone

    A sending act leaves the receive side alone: its numbers, its buffer, the
    flags of both closes, the identity of the connection, and what any
    application has been told of its stream. -/

namespace UtpActs

open UtpCircular UtpPacket UtpUtil UtpConnShared UtpEngine UtpEngine.Detached LabelledPath

/-- The receive side of a socket and the streams of all cells. -/
structure RxView where
  key : Key
  user : UserId
  connIdRecv : UInt32
  connIdSend : UInt32
  reorderCount : Nat
  optRcvbuf : Nat
  gotFin : Bool
  gotFinReached : Bool
  finSent : Bool
  readShutdown : Bool
  closeRequested : Bool
  eofPkt : UInt16
  ackNr : UInt16
  inbuf : CircularBuffer Bytes
  streams : UserId → Stream

def rxView (m : Detached) : RxView where
  key := m.sock.key
  user := m.sock.user
  connIdRecv := m.sock.connIdRecv
  connIdSend := m.sock.connIdSend
  reorderCount := m.sock.reorderCount
  optRcvbuf := m.sock.optRcvbuf
  gotFin := m.sock.gotFin
  gotFinReached := m.sock.gotFinReached
  finSent := m.sock.finSent
  readShutdown := m.sock.readShutdown
  closeRequested := m.sock.closeRequested
  eofPkt := m.sock.eofPkt
  ackNr := m.sock.ackNr
  inbuf := m.sock.inbuf
  streams := fun u => (m.ctx.users u).stream

/-- A callback that says nothing about the stream. -/
theorem rxView_notify (m : Detached) {f : ConnCell → ConnCell}
    (hf : ∀ c, (f c).stream = c.stream) : rxView (m.notify f) = rxView m := by
  have h : (fun u => ((m.notify f).ctx.users u).stream) = fun u => (m.ctx.users u).stream := by
    funext u
    show (Function.update m.ctx.users m.sock.user (f m.cell) u).stream = _
    by_cases hu : u = m.sock.user
    · subst hu
      rw [Function.update_self]
      exact hf _
    · rw [Function.update_of_ne hu]
  unfold rxView
  rw [h]
  rfl

/-- Leaving the ack list changes nothing of the receive side. -/
@[simp] theorem rxView_ackListRemove (m : Detached) : rxView m.ackListRemove = rxView m := by
  unfold ackListRemove
  split <;> rfl

/-- Passing a datagram to the transport changes nothing of the receive side,
    whether it fails or not. -/
@[simp] theorem rxView_sendData (m : Detached) (written : Nat) (buf : Bytes) :
    rxView (m.sendData written buf) = rxView m := by
  unfold sendData
  dsimp only
  rw [rxView_ackListRemove]
  split
  · rw [rxView_notify _ (fun c => stream_onError c _)]
    rfl
  · rw [rxView_notify _ (fun c => stream_onError c _)]
    rfl
  · rfl

/-- Sending an ack changes nothing of the receive side: only the flag of the ack
    list. -/
@[simp] theorem rxView_sendAck (m : Detached) (synack : Bool) :
    rxView (m.sendAck synack) = rxView m := by
  unfold sendAck
  rw [rxView_ackListRemove, rxView_sendData]
  rfl

/-- A keep-alive acks one number less, and then goes on as before. -/
theorem rxView_sendKeepAlive (m : Detached) : rxView m.sendKeepAlive = rxView m := by
  have hview := rxView_sendAck
    ({ m with sock := { m.sock with ackNr := m.sock.ackNr - 1 } }) false
  have hack : m.sock.ackNr - 1 + 1 = m.sock.ackNr := by grind
  calc rxView m.sendKeepAlive
      = { rxView (Detached.sendAck
            ({ m with sock := { m.sock with ackNr := m.sock.ackNr - 1 } }) false) with
          ackNr := (rxView (Detached.sendAck
            ({ m with sock := { m.sock with ackNr := m.sock.ackNr - 1 } }) false)).ackNr + 1 } :=
        rfl
    _ = rxView m := by
        rw [hview]
        show { rxView m with ackNr := m.sock.ackNr - 1 + 1 } = rxView m
        rw [hack]
        rfl

/-- The send queue is no part of the receive side. -/
theorem rxView_putOut (m : Detached) (seq : UInt16) (pkt : Option OutgoingPacket) :
    rxView (m.putOut seq pkt) = rxView m := rfl

/-- A failed assertion is noted outside the receive side. -/
theorem rxView_check (m : Detached) (ok : Bool) : rxView (m.check ok) = rxView m := rfl

/-- Transmitting a queued packet changes nothing of the receive side. -/
theorem rxView_sendPacketAt (m : Detached) (seq : UInt16) :
    rxView (m.sendPacketAt seq) = rxView m := by
  unfold sendPacketAt
  split
  · rfl
  · rw [rxView_putOut, rxView_sendData]
    rfl

/-- Taking an acked packet changes nothing of the receive side. -/
theorem rxView_ackPacket (m : Detached) (seq : UInt16) :
    rxView (m.ackPacket seq).1 = rxView m := by
  unfold ackPacket
  split
  · rfl
  · split <;> rfl

theorem rxView_ackLoop (n : Nat) : ∀ m : Detached, rxView (ackLoop n m) = rxView m := by
  induction n with
  | zero => intro m; rfl
  | succ n ih =>
      intro m
      rw [ackLoop]
      split
      · exact rxView_ackPacket m _
      · rw [ih]
        exact rxView_ackPacket m _

theorem rxView_shrinkLoop (n : Nat) : ∀ m : Detached, rxView (shrinkLoop n m) = rxView m := by
  induction n with
  | zero => intro m; rfl
  | succ n ih =>
      intro m
      rw [shrinkLoop]
      split
      · rw [ih]
        rfl
      · rfl

/-- A cumulative ack leaves the receive side alone. -/
theorem rxView_ackCumulative (acks : Nat) (m : Detached) :
    rxView (ackCumulative acks m) = rxView m := by
  unfold ackCumulative
  rw [rxView_check, rxView_shrinkLoop, rxView_ackLoop]

/-- Marking a packet lost leaves the receive side alone. -/
theorem rxView_markLost (m : Detached) (seq : UInt16) : rxView (m.markLost seq) = rxView m := by
  unfold markLost
  split
  · rfl
  · split <;> rfl

/-- **THE SENDING SIDE LEAVES THE RECEIVING SIDE ALONE.** -/
theorem TxAct.rxView_eq {inp : Option Bytes} {l : Bytes} {m m' : Detached}
    (h : TxAct inp l m m') : rxView m' = rxView m := by
  cases h with
  | quiet => rfl
  | noteRcvWin => rfl
  | checkIdle => rfl
  | sendPacket => exact rxView_sendPacketAt m _
  | push => rfl
  | extend => rfl
  | ackCum => exact rxView_ackCumulative _ m
  | ackSel => exact rxView_ackPacket m _
  | lose => exact rxView_markLost m _
  | established => exact rxView_notify _ stream_onWritable
  | dialed => exact rxView_notify _ stream_onConnect
  | finAcked => rfl
  | becomeFull => rfl
  | becomeWritable => exact rxView_notify _ stream_onWritable

/-- **NO ACT OF THE SEND SIDE** changes what the receive side has. -/
theorem TxPath.rxView_eq {inp : Option Bytes} {l : Bytes} {m m' : Detached}
    (h : TxPath inp l m m') : rxView m' = rxView m :=
  Steps.lift (S := fun a b => rxView b = rxView a) (fun _ => rfl)
    (fun _ _ _ hab hbc => hbc.trans hab) (fun _ _ _ hstep => hstep.rxView_eq) h

/-! ## The surroundings

    Running code on a detached socket touches the ack list, the cells, the wire
    and the cached clock reading, and nothing else of the context. -/

/-- What no socket operation touches. -/
structure Surroundings where
  sockets : Finmap (fun _ : Key => UtpSock)
  rstInfo : List RstInfo
  clock : Clock
  rng : Rng
  transport : Nat → Option ErrorKind
  nextUser : UserId

def surroundings (ctx : Context) : Surroundings :=
  ⟨ctx.sockets, ctx.rstInfo, ctx.clock, ctx.rng, ctx.transport, ctx.nextUser⟩

/-- The ack list is no part of the surroundings. -/
theorem surroundings_ackListRemove (m : Detached) :
    surroundings m.ackListRemove.ctx = surroundings m.ctx := by
  unfold ackListRemove
  split <;> rfl

/-- A datagram goes to the wire; clock, settings and tables stay. -/
theorem surroundings_sendData (m : Detached) (written : Nat) (buf : Bytes) :
    surroundings (m.sendData written buf).ctx = surroundings m.ctx := by
  unfold sendData
  dsimp only
  rw [surroundings_ackListRemove]
  split <;> rfl

theorem surroundings_sendAck (m : Detached) (synack : Bool) :
    surroundings (m.sendAck synack).ctx = surroundings m.ctx := by
  unfold sendAck
  rw [surroundings_ackListRemove, surroundings_sendData]
  rfl

theorem surroundings_sendPacketAt (m : Detached) (seq : UInt16) :
    surroundings (m.sendPacketAt seq).ctx = surroundings m.ctx := by
  unfold sendPacketAt
  split
  · rfl
  · exact surroundings_sendData _ _ _

/-- Taking an acked packet is a matter of the socket alone. -/
theorem ctx_ackPacket (m : Detached) (seq : UInt16) : (m.ackPacket seq).1.ctx = m.ctx := by
  unfold ackPacket
  split
  · rfl
  · split <;> rfl

theorem ctx_ackLoop (n : Nat) : ∀ m : Detached, (ackLoop n m).ctx = m.ctx := by
  induction n with
  | zero => intro m; rfl
  | succ n ih =>
      intro m
      rw [ackLoop]
      split
      · exact ctx_ackPacket m _
      · rw [ih]
        exact ctx_ackPacket m _

theorem ctx_shrinkLoop (n : Nat) : ∀ m : Detached, (shrinkLoop n m).ctx = m.ctx := by
  induction n with
  | zero => intro m; rfl
  | succ n ih =>
      intro m
      rw [shrinkLoop]
      split
      · rw [ih]
      · rfl

/-- A cumulative ack does not touch the engine. -/
theorem ctx_ackCumulative (acks : Nat) (m : Detached) : (ackCumulative acks m).ctx = m.ctx := by
  unfold ackCumulative
  show (shrinkLoop _ _).ctx = m.ctx
  rw [ctx_shrinkLoop, ctx_ackLoop]

/-- Marking a packet lost does not touch the engine. -/
theorem ctx_markLost (m : Detached) (seq : UInt16) : (m.markLost seq).ctx = m.ctx := by
  unfold markLost
  split
  · rfl
  · split <;> rfl

/-- One act of the send side leaves the surroundings of the socket. -/
theorem TxAct.surroundings_eq {inp : Option Bytes} {l : Bytes} {m m' : Detached}
    (h : TxAct inp l m m') : surroundings m'.ctx = surroundings m.ctx := by
  cases h with
  | sendPacket => exact surroundings_sendPacketAt m _
  | ackCum => rw [ctx_ackCumulative]
  | ackSel => rw [ctx_ackPacket]
  | lose => rw [ctx_markLost]
  | _ => rfl

end UtpActs
