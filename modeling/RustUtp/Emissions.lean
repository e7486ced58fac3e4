import RustUtp.Acts.Engine

/-! # Emissions — what reaches the wire, and at which moment

    A socket sends acks, keep-alives and packets of its queue, and nothing
    else.  Each act of a socket sends at most one of them, so every datagram on
    the wire belongs to a moment of the run: the socket as it was right before,
    with exactly the earlier datagrams on the wire. -/

namespace UtpEmissions

open UtpCircular UtpPacket UtpUtil UtpConnShared UtpEngine UtpEngine.Detached UtpActs
  LabelledPath

/-! ## The three kinds of datagrams a socket sends -/

inductive Source where
  | ack
  | keepAlive
  | queued (seq : UInt16) (pkt : OutgoingPacket)

/-- The socket as a keep-alive shows it: one number behind. -/
def backOne (m : Detached) : Detached :=
  { m with sock := { m.sock with ackNr := m.sock.ackNr - 1 } }

namespace Source

def bytes (m : Detached) : Source → Bytes
  | ack => m.stampTimes m.ackDatagram
  | keepAlive => (backOne m).stampTimes (backOne m).ackDatagram
  | queued _ pkt => m.stampTimes (setAckNr pkt.data m.sock.ackNr)

/-- Can `m` send it? -/
def Ready (m : Detached) : Source → Prop
  | ack => True
  | keepAlive => m.sock.state.isConnected = true
  | queued seq pkt => m.sock.outbuf.get seq.toNat = some pkt

/-- What holds of the sender meanwhile. -/
def note (m : Detached) : Source → Note
  | ack => m.note m.cell.readBuf.length
  | keepAlive => (backOne m).note m.cell.readBuf.length
  | queued _ pkt => m.note pkt.unread

/-- The datagram as it is passed to `send_to`. -/
def sent (m : Detached) (src : Source) : Sent :=
  ⟨some m.sock.user, m.sock.key.addr, src.bytes m, some (src.note m)⟩

end Source

/-- Leaving the ack list sends nothing. -/
theorem wire_ackListRemove (m : Detached) : m.ackListRemove.ctx.wire = m.ctx.wire := by
  unfold ackListRemove
  split <;> rfl

/-- Every datagram leaves with its times stamped and a note of its sender, even
    if the transport refuses it. -/
theorem wire_sendData (m : Detached) (written : Nat) (buf : Bytes) :
    (m.sendData written buf).ctx.wire
      = m.ctx.wire
        ++ [⟨some m.sock.user, m.sock.key.addr, m.stampTimes buf, some (m.note written)⟩] := by
  unfold sendData
  dsimp only
  rw [wire_ackListRemove]
  split <;> rfl

/-- What sending leaves of the ack list: the sender is off it. -/
def unlisted (m : Detached) : List Key :=
  if m.sock.inAckList then m.ctx.ackList.filter (· ≠ m.sock.key) else m.ctx.ackList

/-- The ack list loses the key of the socket. -/
theorem ackList_ackListRemove (m : Detached) : m.ackListRemove.ctx.ackList = unlisted m := by
  unfold ackListRemove unlisted
  split <;> rfl

/-- Sending data loses the key too: the ack number goes along. -/
theorem ackList_sendData (m : Detached) (written : Nat) (buf : Bytes) :
    (m.sendData written buf).ctx.ackList = unlisted m := by
  unfold sendData
  dsimp only
  rw [ackList_ackListRemove]
  split <;> rfl

/-- An ack is one datagram. -/
theorem wire_sendAck (m : Detached) (synack : Bool) :
    (m.sendAck synack).ctx.wire = m.ctx.wire ++ [Source.ack.sent m] := by
  unfold sendAck
  rw [wire_ackListRemove, wire_sendData]
  rfl

/-- After an ack none is owed. -/
theorem flag_sendAck (m : Detached) (synack : Bool) :
    (m.sendAck synack).sock.inAckList = false := by
  unfold sendAck
  rw [ackListRemove_sock]

/-- An ack takes the socket off the list. -/
theorem ackList_sendAck (m : Detached) (synack : Bool) :
    (m.sendAck synack).ctx.ackList = unlisted m := by
  unfold sendAck
  rw [ackList_ackListRemove]
  have hflag : (m.updateRcvWin.sendData m.cell.readBuf.length m.ackDatagram).sock.inAckList = false := by
    rw [sendData_sock]
  unfold unlisted
  rw [hflag, if_neg Bool.false_ne_true, ackList_sendData]
  rfl

/-! ## What an act does to the wire and the ack list -/

inductive Effect (occ : Occasion) (m m' : Detached) : Prop where
  | silent (hwire : m'.ctx.wire = m.ctx.wire) (hlist : m'.ctx.ackList = m.ctx.ackList)
      (hflag : m'.sock.inAckList = m.sock.inAckList)
  | sends (src : Source) (hready : src.Ready m)
      (hwire : m'.ctx.wire = m.ctx.wire ++ [src.sent m])
      (hlist : m'.ctx.ackList = unlisted m) (hflag : m'.sock.inAckList = false)
  | defers (heq : m' = m.scheduleAck)
  | unlists (hdue : occ.issuing = true) (hwire : m'.ctx.wire = m.ctx.wire)
      (hlist : m'.ctx.ackList = m.ctx.ackList) (hflag : m'.sock.inAckList = false)

variable {occ : Occasion}

/-- An ack is a datagram of its own kind. -/
theorem effect_sendAck (m : Detached) (synack : Bool) : Effect occ m (m.sendAck synack) :=
  .sends .ack trivial (wire_sendAck m synack) (ackList_sendAck m synack) (flag_sendAck m synack)

/-- A keep-alive is an ack sent with the number set back for the time of the
    transmission. -/
theorem effect_sendKeepAlive (m : Detached) (hst : m.sock.state.isConnected = true) :
    Effect occ m m.sendKeepAlive :=
  .sends .keepAlive hst (wire_sendAck (backOne m) false) (ackList_sendAck (backOne m) false)
    (flag_sendAck (backOne m) false)

/-- Transmitting a number sends the packet queued under it, if there is one. -/
theorem effect_sendPacketAt (m : Detached) (seq : UInt16) :
    Effect occ m (m.sendPacketAt seq) := by
  unfold sendPacketAt
  split
  · exact .silent rfl rfl rfl
  · rename_i pkt hpkt
    refine .sends (.queued seq pkt) hpkt (wire_sendData (m.countSend pkt) _ _)
      (ackList_sendData (m.countSend pkt) _ _) ?_
    show ((m.countSend pkt).sendData _ _).sock.inAckList = false
    rw [sendData_sock]

/-- The flag that a socket is on the ack list. -/
theorem flag_ackPacket (m : Detached) (seq : UInt16) :
    (m.ackPacket seq).1.sock.inAckList = m.sock.inAckList := by
  unfold ackPacket
  split
  · rfl
  · split <;> rfl

/-- Taking acked packets pays no ack. -/
theorem flag_ackLoop (n : Nat) :
    ∀ m : Detached, (ackLoop n m).sock.inAckList = m.sock.inAckList := by
  induction n with
  | zero => intro m; rfl
  | succ n ih =>
      intro m
      rw [ackLoop]
      split
      · exact flag_ackPacket m _
      · rw [ih]
        exact flag_ackPacket m _

theorem flag_shrinkLoop (n : Nat) :
    ∀ m : Detached, (shrinkLoop n m).sock.inAckList = m.sock.inAckList := by
  induction n with
  | zero => intro m; rfl
  | succ n ih =>
      intro m
      rw [shrinkLoop]
      split
      · rw [ih]
      · rfl

theorem flag_ackCumulative (acks : Nat) (m : Detached) :
    (ackCumulative acks m).sock.inAckList = m.sock.inAckList := by
  unfold ackCumulative
  show (shrinkLoop _ _).sock.inAckList = _
  rw [flag_shrinkLoop, flag_ackLoop]

theorem flag_markLost (m : Detached) (seq : UInt16) :
    (m.markLost seq).sock.inAckList = m.sock.inAckList := by
  unfold markLost
  split
  · rfl
  · split <;> rfl

/-- An act that leaves the whole context alone. -/
theorem Effect.of_ctx {m m' : Detached} (hctx : m'.ctx = m.ctx)
    (hflag : m'.sock.inAckList = m.sock.inAckList) : Effect occ m m' :=
  .silent (by rw [hctx]) (by rw [hctx]) hflag

/-- **EVERY ACT OF THE SEND SIDE** sends at most one datagram. -/
theorem TxAct.effect {l : Bytes} {m m' : Detached} (h : TxAct occ.datagram l m m') :
    Effect occ m m' := by
  cases h with
  | sendPacket _ seq => exact effect_sendPacketAt m seq
  | ackCum => exact .of_ctx (ctx_ackCumulative _ m) (flag_ackCumulative _ m)
  | ackSel => exact .of_ctx (ctx_ackPacket m _) (flag_ackPacket m _)
  | lose => exact .of_ctx (ctx_markLost m _) (flag_markLost m _)
  | _ => exact .silent rfl rfl rfl

/-- Handing over bytes sends nothing. -/
theorem silent_deliver (m : Detached) (data : Bytes) :
    (m.deliver data).ctx.wire = m.ctx.wire ∧ (m.deliver data).ctx.ackList = m.ctx.ackList := by
  unfold deliver
  split <;> exact ⟨rfl, rfl⟩

theorem effect_acceptNext (m : Detached) (data : Bytes) : Effect occ m (m.acceptNext data) := by
  refine .silent (silent_deliver m data).1 (silent_deliver m data).2 ?_
  rw [acceptNext_sock]

/-- A drain sends only the ack for a FIN it reaches. -/
theorem DrainAct.effect {l : Bytes} {m m' : Detached} (h : DrainAct l m m') :
    Effect occ m m' := by
  cases h with
  | drain _ p =>
      refine .silent (silent_deliver _ p).1 (silent_deliver _ p).2 ?_
      rw [drainNext_sock]
  | reach => exact .silent rfl rfl rfl
  | ackFin => exact effect_sendAck m false
  | dropStragglers => exact .silent rfl rfl rfl

/-- **EVERY ACT HAS AN EFFECT**, or is a packet taken in order, which is a path
    of such acts. -/
theorem Act.effect {l : Bytes} {m m' : Detached} (h : Act occ l m m') :
    Effect occ m m' ∨ ∃ data, m.sock.state.isConnected = true
      ∧ DrainPath [] (m.acceptNext data) m' := by
  cases h with
  | tx h => exact .inl (TxAct.effect h)
  | inOrder _ _ buf data hacc hst hoff hdrain hdone => exact .inr ⟨data, hst, hdrain⟩
  | ack _ synack => exact .inl (effect_sendAck m synack)
  | keepAlive _ hst => exact .inl (effect_sendKeepAlive m hst)
  | schedule => exact .inl (.defers rfl)
  | unlist _ hdue => exact .inl (.unlists hdue rfl rfl rfl)
  | _ => exact .inl (.silent rfl rfl rfl)

/-- An ack that is due later is no datagram yet. -/
theorem wire_scheduleAck (m : Detached) : m.scheduleAck.ctx.wire = m.ctx.wire := by
  unfold scheduleAck
  split <;> rfl

/-- An act sends nothing, or one datagram that was ready. -/
theorem Effect.wire {m m' : Detached} (h : Effect occ m m') :
    m'.ctx.wire = m.ctx.wire
      ∨ ∃ src, Source.Ready m src ∧ m'.ctx.wire = m.ctx.wire ++ [src.sent m] := by
  cases h with
  | silent hwire => exact .inl hwire
  | sends src hready hwire => exact .inr ⟨src, hready, hwire⟩
  | defers heq =>
      rw [heq]
      exact .inl (wire_scheduleAck m)
  | unlists _ hwire => exact .inl hwire

/-! ## Moments -/

/-- On its way from `ctx` an operation reaches `m`, where it can send `src`:
    between two acts, or, once the FIN has been reached, while it drains the
    reorder buffer. -/
inductive Moment (occ : Occasion) (ctx : Context) : Detached → Source → Prop where
  | between {l : Bytes} {key : Key} {m : Detached} {src : Source}
      (hpath : EnginePath occ l ctx (Context.attach key m)) (hready : src.Ready m) :
      Moment occ ctx m src
  | draining {l : Bytes} {key : Key} {m m' : Detached} {data : Bytes}
      (hpath : EnginePath occ l ctx (Context.attach key m))
      (hst : m.sock.state.isConnected = true) (hdrain : DrainPath [] (m.acceptNext data) m')
      (hreached : m'.sock.gotFinReached = true) : Moment occ ctx m' .ack

/-- Datagram `d`, sent after the datagrams `pre`, comes from a socket at a moment
    of the operation, or is an RST for an unknown connection. -/
inductive Accounted (occ : Occasion) (ctx : Context) (pre : List Sent) (d : Sent) : Prop where
  | socket (m : Detached) (src : Source) (hmoment : Moment occ ctx m src)
      (hpre : m.ctx.wire = pre) (hd : d = src.sent m)
  | rst (addr : SocketAddr) (id : UInt16) (ackNr seqNr : UInt16)
      (hd : d = ⟨none, addr, Context.rstDatagram id.toUInt32 ackNr seqNr, none⟩)

/-- A wire that grew out of the one of `ctx` by accounted datagrams only. -/
structure Explained (occ : Occasion) (ctx : Context) (wire : List Sent) : Prop where
  grows : ctx.wire <+: wire
  each : ∀ pre d post, wire = pre ++ d :: post → ctx.wire.length ≤ pre.length →
    Accounted occ ctx pre d

theorem Explained.refl (ctx : Context) : Explained occ ctx ctx.wire := by
  refine ⟨List.prefix_refl _, fun pre d post hw hle => ?_⟩
  have hlen := congrArg List.length hw
  rw [List.length_append, List.length_cons] at hlen
  omega

/-- One more datagram. -/
theorem Explained.snoc {ctx : Context} {wire : List Sent} (h : Explained occ ctx wire)
    {d : Sent} (hd : Accounted occ ctx wire d) : Explained occ ctx (wire ++ [d]) := by
  refine ⟨h.grows.trans (List.prefix_append _ _), fun pre d' post hw hle => ?_⟩
  rcases List.eq_nil_or_concat post with hnil | ⟨post', last, hpost⟩
  · rw [hnil] at hw
    obtain ⟨hpre, hlast⟩ := List.append_inj' hw rfl
    rw [← hpre, ← (List.cons.inj hlast).1]
    exact hd
  · rw [hpost, List.concat_eq_append, ← List.cons_append, ← List.append_assoc] at hw
    exact h.each pre d' post' (List.append_inj' hw rfl).1 hle

/-! ## Every datagram has its moment -/

/-- The datagrams of a drain have their moments inside it. -/
theorem explained_drain {ctx : Context} {l : Bytes} {key : Key} {m m' : Detached} {data : Bytes}
    (hpath : EnginePath occ l ctx (Context.attach key m))
    (hst : m.sock.state.isConnected = true) (hdrain : DrainPath [] (m.acceptNext data) m')
    (h : Explained occ ctx (m.acceptNext data).ctx.wire) : Explained occ ctx m'.ctx.wire := by
  -- along the drain path, with the way back to its start
  have hgen : ∀ {l₁ : Bytes} {m₀ m₁ : Detached}, DrainPath l₁ m₀ m₁ →
      m₀ = m.acceptNext data → l₁ = [] ∧ Explained occ ctx m₁.ctx.wire := by
    intro l₁ m₀ m₁ h₁
    induction h₁ with
    | refl m₀ =>
        rintro rfl
        exact ⟨rfl, h⟩
    | tail hprev hact ih =>
        intro hstart
        obtain ⟨rfl, hexp⟩ := ih hstart
        rw [hstart] at hprev
        cases hact with
        | drain _ p =>
            refine ⟨rfl, ?_⟩
            rw [show (Detached.drainNext _ p).ctx.wire = _ from (silent_deliver _ p).1]
            exact hexp
        | reach => exact ⟨rfl, hexp⟩
        | ackFin _ hreached heof =>
            refine ⟨rfl, ?_⟩
            rw [wire_sendAck]
            exact hexp.snoc (.socket _ .ack (.draining hpath hst hprev hreached) rfl rfl)
        | dropStragglers => exact ⟨rfl, hexp⟩
  exact (hgen hdrain rfl).2

/-- The datagrams of one act have their moments before it. -/
theorem explained_act {ctx : Context} {l l' : Bytes} {key : Key} {m m' : Detached}
    (hpath : EnginePath occ l ctx (Context.attach key m)) (hact : Act occ l' m m')
    (h : Explained occ ctx m.ctx.wire) : Explained occ ctx m'.ctx.wire := by
  rcases Act.effect hact with heff | ⟨data, hst, hdrain⟩
  · rcases heff.wire with hsame | ⟨src, hready, hgrown⟩
    · rw [hsame]
      exact h
    · rw [hgrown]
      exact h.snoc (.socket m src (.between hpath hready) rfl rfl)
  · refine explained_drain hpath hst hdrain ?_
    rw [show (m.acceptNext data).ctx.wire = _ from (silent_deliver m data).1]
    exact h

/-- An RST for an unknown connection explains itself. -/
theorem explained_reject {ctx c : Context} (addr : SocketAddr) (id : UInt16) (seq : UInt16)
    (h : Explained occ ctx c.wire) :
    Explained occ ctx (c.rejectUnknown addr id.toUInt32 seq).wire := by
  unfold Context.rejectUnknown
  dsimp only
  split
  · exact h
  · split
    · exact h
    · exact h.snoc (.rst addr id _ _ rfl)

/-- **EVERY DATAGRAM HAS ITS MOMENT**: what an operation puts on the wire it
    sends from a socket that it reaches with the earlier datagrams on the wire,
    or as an RST. -/
theorem explained_path {ctx ctx' : Context} {l : Bytes} (h : EnginePath occ l ctx ctx') :
    Explained occ ctx ctx'.wire := by
  induction h with
  | refl ctx => exact Explained.refl ctx
  | tail hpath hact ih =>
      cases hact with
      | sock key hout hact => exact explained_act hpath hact ih
      | reject _ buf addr => exact explained_reject addr (connId buf) _ ih
      | remove key m htear hout =>
          rw [show (Context.destroySock m).wire = m.ctx.wire from wire_ackListRemove _]
          exact ih
      | _ => exact ih

/-- **EVERY DATAGRAM OF A STEP HAS ITS MOMENT.** -/
theorem explained_step {ctx ctx' : Context} {op : Op} (h : ctx.step op = some ctx') :
    Explained (Op.occasion op) ctx ctx'.wire := explained_path (path_step h)

/-! ## Invariants at a moment -/

/-- What every act keeps and every new socket has, every socket has at every
    moment between two acts; while the reorder buffer is drained it has what
    the drain loop keeps of it. -/
theorem Moment.invariant {P Q : UtpSock → Prop}
    (hact : ∀ occ l m m', Act occ l m m' → P m.sock → P m'.sock)
    (hdial : ∀ ctx addr seed rng, P (Context.dialled ctx addr seed rng).sock)
    (haccept : ∀ ctx buf addr, P (Context.accepting ctx buf addr).sock)
    (hnext : ∀ (m : Detached) (data : Bytes), P m.sock → Q (m.acceptNext data).sock)
    (hdrain : ∀ l m m', DrainAct l m m' → Q m.sock → Q m'.sock)
    {ctx : Context} {m : Detached} {src : Source} (h : Moment occ ctx m src)
    (hP : EverySock P ctx) : P m.sock ∨ src = .ack ∧ m.sock.gotFinReached = true ∧ Q m.sock := by
  have hevery : ∀ {l : Bytes} {c : Context}, EnginePath occ l ctx c → EverySock P c :=
    fun hpath => Steps.invariant (P := EverySock P)
      (fun _ _ _ ha => EngineAct.everySock hact hdial haccept ha) hpath hP
  cases h with
  | between hpath _ => exact .inl (everySock_attach.mp (hevery hpath)).1
  | draining hpath hst hpath' hreached =>
      refine .inr ⟨rfl, hreached, ?_⟩
      exact Steps.invariant (P := fun d : Detached => Q d.sock) hdrain hpath'
        (hnext _ _ (everySock_attach.mp (hevery hpath)).1)

end UtpEmissions
