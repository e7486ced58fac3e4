import RustUtp.Acts.Engine

/-! # The retransmission timer — armed when something is awaited

    The timer of a socket counts from `rtoTimeout`, and a zero there makes
    `check_timeouts` ignore it.  It is started when a dial sends its SYN and
    whenever a packet enters an empty send queue, and restarted by every ack
    and every timeout, so a socket with packets outstanding always has a
    deadline.  An incoming connection that has only been offered a syn-ack has
    nothing in its queue, and none of these places ever runs for it. -/

namespace UtpRtoTimer

open UtpCircular UtpPacket UtpUtil UtpConnShared UtpEngine UtpEngine.Detached UtpActs
open LabelledPath

/-! ## What the timer depends on -/

structure TimerView where
  state : ConnState
  curWindowPackets : Nat
  rto : Nat
  rtoTimeout : Nat
  retransmitTimeout : Nat

def timerView (s : UtpSock) : TimerView where
  state := s.state
  curWindowPackets := s.curWindowPackets
  rto := s.timers.rto
  rtoTimeout := s.timers.rtoTimeout
  retransmitTimeout := s.timers.retransmitTimeout

/-- Sending is no matter of the timer. -/
theorem timerView_sendData (m : Detached) (written : Nat) (buf : Bytes) :
    timerView (m.sendData written buf).sock = timerView m.sock := by
  rw [sendData_sock]
  rfl

theorem timerView_sendPacketAt (m : Detached) (seq : UInt16) :
    timerView (m.sendPacketAt seq).sock = timerView m.sock := by
  unfold sendPacketAt
  split
  · rfl
  · exact timerView_sendData (m.countSend _) _ _

theorem timerView_sendAck (m : Detached) (synack : Bool) :
    timerView (m.sendAck synack).sock = timerView m.sock := by
  unfold sendAck
  rw [ackListRemove_sock]
  exact timerView_sendData _ _ _

theorem timerView_markLost (m : Detached) (seq : UInt16) :
    timerView (m.markLost seq).sock = timerView m.sock := by
  unfold markLost
  split
  · rfl
  · split <;> rfl

theorem timerView_setMtu (s : UtpSock) (mtu : Mtu) :
    timerView { s with mtu := mtu } = timerView s := rfl

/-! ## The invariant -/

/-- A timer is set while a dial or a packet of the queue waits for an answer,
    and never on a half-open incoming connection. -/
structure TimerInv (v : TimerView) : Prop where
  rto : 0 < v.rto
  armed : v.state = .synSent ∨ 0 < v.curWindowPackets →
    0 < v.rtoTimeout ∧ 0 < v.retransmitTimeout
  halfOpen : v.state = .synRecv → v.rtoTimeout = 0 ∧ v.curWindowPackets = 0

/-- A half-open connection has nothing to wait for. -/
theorem TimerInv.not_synRecv {v : TimerView} (h : TimerInv v) (hbusy : 0 < v.curWindowPackets) :
    v.state ≠ .synRecv := by
  intro hst
  rw [(h.halfOpen hst).2] at hbusy
  exact absurd hbusy (Nat.lt_irrefl 0)

/-- A socket whose timer has been set may be in any state but the half-open. -/
theorem TimerInv.of_set {v : TimerView} (hrto : 0 < v.rto) (htimeout : 0 < v.rtoTimeout)
    (hretransmit : 0 < v.retransmitTimeout) (hst : v.state ≠ .synRecv) : TimerInv v :=
  ⟨hrto, fun _ => ⟨htimeout, hretransmit⟩, fun h => absurd h hst⟩

/-- A change of state that is not the start of a handshake. -/
theorem TimerInv.setState {v : TimerView} (h : TimerInv v) {st : ConnState}
    (hsent : st = .synSent → v.state = .synSent) (hrecv : st ≠ .synRecv) :
    TimerInv { v with state := st } := by
  refine ⟨h.rto, fun hawaits => h.armed ?_, fun hst => absurd hst hrecv⟩
  rcases hawaits with hst | hbusy
  · exact .inl (hsent hst)
  · exact .inr hbusy

/-- A smaller queue. -/
theorem TimerInv.shrink {v : TimerView} (h : TimerInv v) {n : Nat}
    (hle : n ≤ v.curWindowPackets) : TimerInv { v with curWindowPackets := n } := by
  refine ⟨h.rto, fun hawaits => h.armed ?_, fun hst => ?_⟩
  · rcases hawaits with hst | hbusy
    · exact .inl hst
    · exact .inr (Nat.lt_of_lt_of_le hbusy hle)
  · obtain ⟨htimeout, hcwp⟩ := h.halfOpen hst
    rw [hcwp] at hle
    exact ⟨htimeout, Nat.le_zero.mp hle⟩

/-- One more packet, in a queue whose timer was started if it was empty. -/
theorem TimerInv.grow {v : TimerView} (h : TimerInv v) (hst : v.state ≠ .synRecv)
    (harm : v.curWindowPackets = 0 → v.retransmitTimeout = v.rto ∧ v.rto ≤ v.rtoTimeout) :
    TimerInv { v with curWindowPackets := v.curWindowPackets + 1 } := by
  have hset : 0 < v.rtoTimeout ∧ 0 < v.retransmitTimeout := by
    rcases Nat.eq_zero_or_pos v.curWindowPackets with hzero | hpos
    · obtain ⟨hretransmit, hle⟩ := harm hzero
      rw [hretransmit]
      exact ⟨Nat.lt_of_lt_of_le h.rto hle, h.rto⟩
    · exact h.armed (.inr hpos)
  exact TimerInv.of_set h.rto hset.1 hset.2 hst

/-! ## Acks -/

/-- The timeout stays positive when a round trip is measured. -/
theorem rto_pos_onAck {t : Timers} (h : 0 < t.rto) (pkt : OutgoingPacket) (micros ms : Nat) :
    0 < (t.onAck pkt micros ms).rto := by
  unfold Timers.onAck
  dsimp only
  split
  · exact Nat.lt_of_lt_of_le (by decide) (Nat.le_max_right _ 1000)
  · exact h

/-- An acked packet restarts the timer. -/
theorem timerInv_ackPacket {m : Detached} (h : TimerInv (timerView m.sock))
    (hst : m.sock.state ≠ .synRecv) (seq : UInt16) :
    TimerInv (timerView (m.ackPacket seq).1.sock) := by
  unfold ackPacket
  split
  · exact h
  · rename_i pkt _
    split
    · exact h
    · have hrto := rto_pos_onAck h.rto pkt m.ctx.clock.micros m.ctx.currentMs
      exact TimerInv.of_set hrto (Nat.lt_of_lt_of_le hrto (Nat.le_add_left _ _)) hrto hst

/-- Taking a packet leaves the number of packets to its caller. -/
theorem cwp_ackPacket (m : Detached) (seq : UInt16) :
    (m.ackPacket seq).1.sock.curWindowPackets = m.sock.curWindowPackets := by
  unfold ackPacket
  split
  · rfl
  · split <;> rfl

/-- Taking packets one after the other keeps the timer armed. -/
theorem timerInv_ackLoop (n : Nat) :
    ∀ m : Detached, n ≤ m.sock.curWindowPackets → TimerInv (timerView m.sock) →
      TimerInv (timerView (ackLoop n m).sock) := by
  induction n with
  | zero => intro m _ h; exact h
  | succ n ih =>
      intro m hn h
      have hacked := timerInv_ackPacket h
        (h.not_synRecv (Nat.lt_of_lt_of_le (Nat.succ_pos n) hn)) m.sock.oldest
      have hcwp := cwp_ackPacket m m.sock.oldest
      rw [ackLoop]
      generalize m.ackPacket m.sock.oldest = r at hacked hcwp ⊢
      split
      · exact hacked
      · refine ih _ ?_ (hacked.shrink (Nat.sub_le _ _))
        show n ≤ r.1.sock.curWindowPackets - 1
        rw [hcwp]
        exact Nat.le_sub_one_of_lt hn

theorem timerInv_shrinkLoop (n : Nat) :
    ∀ m : Detached, TimerInv (timerView m.sock) → TimerInv (timerView (shrinkLoop n m).sock) := by
  induction n with
  | zero => intro m h; exact h
  | succ n ih =>
      intro m h
      rw [shrinkLoop]
      split
      · exact ih _ (h.shrink (Nat.sub_le _ _))
      · exact h

/-- A cumulative ack keeps the timer armed. -/
theorem timerInv_ackCumulative {m : Detached} {acks : Nat} (h : TimerInv (timerView m.sock))
    (hacks : acks ≤ m.sock.curWindowPackets) :
    TimerInv (timerView (ackCumulative acks m).sock) :=
  timerInv_shrinkLoop _ _ (timerInv_ackLoop acks m hacks h)

/-! ## Every act -/

variable {inp : Option Bytes} {occ : Occasion}

/-- Every bookkeeping keeps the invariant. -/
theorem timerInv_bookkeeping {m m' : Detached} (h : Bookkeeping inp m m')
    (hinv : TimerInv (timerView m.sock)) : TimerInv (timerView m'.sock) := by
  cases h with
  | arm hst _ =>
      refine TimerInv.of_set hinv.rto ?_ hinv.rto ?_
      · exact Nat.lt_of_lt_of_le hinv.rto (Nat.le_add_left _ _)
      · intro hrecv
        rw [show m.sock.state = .synRecv from hrecv] at hst
        exact nomatch hst
  | measure buf selack _ =>
      obtain ⟨_, _, _, hshape, -⟩ := measure_shape m buf selack (m.sock.acksOf (ackNr buf))
      rw [hshape]
      exact hinv
  | noteWindow buf _ =>
      obtain ⟨_, _, -, hshape⟩ := noteWindow_shape m buf
      rw [hshape]
      exact hinv
  | updateFastResend buf _ =>
      unfold updateFastResend
      split <;> exact hinv
  | reopenWindow =>
      unfold reopenWindow
      split <;> exact hinv
  | mtuTimeout =>
      show TimerInv (timerView { m.sock with mtu := mtuOnTimeout m.sock m.ctx.clock.millis })
      rw [timerView_setMtu]
      exact hinv
  | backOff timeout _ hst hlonger =>
      refine ⟨hinv.rto, fun hawaits => ?_, fun h => absurd h hst⟩
      have hpos : 0 < timeout := Nat.lt_of_lt_of_le (hinv.armed hawaits).2 hlonger
      exact ⟨Nat.lt_of_lt_of_le hpos (Nat.le_add_left _ _), hpos⟩
  | linger _ hst =>
      have hset := hinv.armed (.inl hst)
      have hpos : 0 < min (m.sock.timers.rto * 2) 60 :=
        Nat.lt_min.mpr ⟨Nat.mul_pos hinv.rto Nat.two_pos, by decide⟩
      refine TimerInv.of_set hinv.rto (Nat.lt_of_lt_of_le hpos (Nat.le_add_left _ _)) hset.2 ?_
      show m.sock.state ≠ .synRecv
      rw [hst]
      exact nofun
  | _ => exact hinv

/-- The timer that was set for an empty queue, as the view has it. -/
theorem timerSet_view {m : Detached} (h : m.sock.curWindowPackets = 0 → TimerSet m)
    (hidle : (timerView m.sock).curWindowPackets = 0) :
    (timerView m.sock).retransmitTimeout = (timerView m.sock).rto
      ∧ (timerView m.sock).rto ≤ (timerView m.sock).rtoTimeout := by
  obtain ⟨hretransmit, htimeout⟩ := h hidle
  exact ⟨hretransmit, Nat.le_trans (Nat.le_add_left _ _) (Nat.le_of_eq htimeout.symm)⟩

/-- **EVERY ACT OF THE SEND SIDE** keeps the timer armed. -/
theorem timerInv_txAct {l : Bytes} {m m' : Detached} (h : TxAct inp l m m')
    (hinv : TimerInv (timerView m.sock)) : TimerInv (timerView m'.sock) := by
  cases h with
  | quiet _ _ _ _ _ _ _ _ hbook => exact timerInv_bookkeeping hbook hinv
  | sendPacket _ seq => rw [timerView_sendPacketAt]; exact hinv
  | push _ n data hst _ _ _ harm =>
      exact hinv.grow (fun h => nomatch h.symm.trans hst) (timerSet_view harm)
  | ackCum _ buf acks _ hacks => exact timerInv_ackCumulative hinv hacks.1
  | ackSel _ buf sel bits _ _ _ _ _ hwin _ =>
      refine timerInv_ackPacket hinv (hinv.not_synRecv ?_) _
      show 0 < m.sock.curWindowPackets
      have hlt := of_decide_eq_true hwin
      omega
  | lose _ seq => rw [timerView_markLost]; exact hinv
  | established => exact hinv.setState nofun nofun
  | dialed => exact hinv.setState nofun nofun
  | finAcked _ buf acks _ _ _ _ =>
      show TimerInv { timerView m.sock with
        state := if m.sock.closeRequested then .destroy else m.sock.state }
      split
      · exact hinv.setState nofun nofun
      · exact hinv
  | becomeFull => exact hinv.setState nofun nofun
  | becomeWritable => exact hinv.setState nofun nofun
  | _ => exact hinv

/-- A drain sets a timer of its own, and no earlier one. -/
theorem timerInv_drainAct {l : Bytes} {m m' : Detached} (h : DrainAct l m m')
    (hinv : TimerInv (timerView m.sock)) : TimerInv (timerView m'.sock) := by
  cases h with
  | drain _ p => rw [drainNext_sock]; exact hinv
  | reach _ hst =>
      have hpos : 0 < min (m.sock.timers.rto * 3) 60 :=
        Nat.lt_min.mpr ⟨Nat.mul_pos hinv.rto (by decide), by decide⟩
      refine ⟨hinv.rto, fun hawaits => ⟨?_, (hinv.armed hawaits).2⟩, fun hrecv => ?_⟩
      · exact Nat.lt_of_lt_of_le hpos (Nat.le_add_left _ _)
      · rw [show m.sock.state = .synRecv from hrecv] at hst
        exact nomatch hst
  | ackFin => rw [timerView_sendAck]; exact hinv
  | dropStragglers => exact hinv

/-- **NO ACT BREAKS THE TIMER.** -/
theorem timerInv_act {l : Bytes} {m m' : Detached} (h : Act occ l m m')
    (hinv : TimerInv (timerView m.sock)) : TimerInv (timerView m'.sock) := by
  cases h with
  | tx h => exact timerInv_txAct h hinv
  | fin _ hst _ harm =>
      refine hinv.grow (fun hrecv => ?_) (timerSet_view harm)
      rw [show m.sock.state = .synRecv from hrecv] at hst
      exact nomatch hst
  | closeAcked => exact hinv.setState nofun nofun
  | abandon => exact hinv.setState nofun nofun
  | giveUp _ st hst =>
      -- a connection that is given up ends, in one way or the other
      have hend : st = .destroy ∨ st = .reset := by
        rcases hst with ⟨-, rfl⟩ | ⟨-, rfl⟩
        · exact .inl rfl
        · cases m.sock.closeRequested
          · exact .inr rfl
          · exact .inl rfl
      rcases hend with rfl | rfl <;> exact hinv.setState nofun nofun
  | inOrder _ _ buf data _ _ _ hdrain =>
      refine Steps.invariant (P := fun a : Detached => TimerInv (timerView a.sock))
        (fun _ _ _ h => timerInv_drainAct h) hdrain ?_
      rw [acceptNext_sock]
      exact hinv
  | ack _ synack => rw [timerView_sendAck]; exact hinv
  | schedule =>
      unfold scheduleAck
      split <;> exact hinv
  | keepAlive =>
      show TimerInv (timerView (Detached.sendAck
        ({ m with sock := { m.sock with ackNr := m.sock.ackNr - 1 } }) false).sock)
      rw [timerView_sendAck]
      exact hinv
  | reset _ buf _ _ =>
      show TimerInv { timerView m.sock with
        state := if m.sock.closeRequested then .destroy else .reset }
      split <;> exact hinv.setState nofun nofun
  | _ => exact hinv

/-- The timers of a dial: three seconds. -/
theorem dialled_timers (ctx : Context) (addr : SocketAddr) (seed : UInt32) (rng : Rng) :
    ∃ t, timerView (ctx.dialled addr seed rng).sock = ⟨.synSent, 1, 3000, t + 3000, 3000⟩ :=
  ⟨_, rfl⟩

/-- The timers of an accepted socket: none is armed. -/
theorem accepting_timers (ctx : Context) (buf : Bytes) (addr : SocketAddr) :
    timerView (ctx.accepting buf addr).sock = ⟨.synRecv, 0, 3000, 0, 0⟩ := rfl

/-- **EVERY TIMER** of a reachable state is armed where something is awaited. -/
theorem reachable_timerInv {ctx : Context} (h : Reachable ctx) :
    EverySock (fun s => TimerInv (timerView s)) ctx := by
  refine Reachable.everySock (fun _ _ _ _ hact => timerInv_act hact)
    (fun ctx addr seed rng => ?_) (fun ctx buf addr => ?_) h
  · obtain ⟨t, hview⟩ := dialled_timers ctx addr seed rng
    rw [hview]
    exact TimerInv.of_set (Nat.succ_pos 2999) (Nat.add_pos_right t (Nat.succ_pos 2999))
      (Nat.succ_pos 2999) nofun
  · rw [accepting_timers]
    refine ⟨by decide, fun hawaits => ?_, fun _ => ⟨rfl, rfl⟩⟩
    rcases hawaits with h | h
    · exact nomatch h
    · exact absurd h (Nat.lt_irrefl 0)

/-! ## The result -/

/-- The socket waits for an answer of its peer. -/
def Awaits (s : UtpSock) : Prop :=
  s.state = .synSent ∨ s.state = .synRecv
    ∨ 0 < s.curWindowPackets ∧ s.state ≠ .reset ∧ s.state ≠ .destroy

/-- **A SOCKET THAT AWAITS SOMETHING HAS A DEADLINE EXACTLY WHEN IT IS NOT A
    HALF-OPEN INCOMING CONNECTION.** -/
theorem awaiting_armed_iff {ctx : Context} (h : Reachable ctx) {key : Key} {s : UtpSock}
    (hs : ctx.sockets.lookup key = some s) (hawaits : Awaits s) :
    0 < s.timers.rtoTimeout ↔ s.state ≠ .synRecv := by
  have hinv : TimerInv (timerView s) := reachable_timerInv h key s hs
  constructor
  · intro hpos hst
    have hzero : s.timers.rtoTimeout = 0 := (hinv.halfOpen hst).1
    rw [hzero] at hpos
    exact absurd hpos (Nat.lt_irrefl 0)
  · intro hst
    rcases hawaits with hsent | hrecv | ⟨hbusy, -⟩
    · exact (hinv.armed (.inl hsent)).1
    · exact absurd hrecv hst
    · exact (hinv.armed (.inr hbusy)).1

/-- A dial waits with its timer set. -/
theorem awaiting_armed_iff_dialled :
    ∃ ctx s, Reachable ctx ∧ ctx.sockets.lookup firstKey = some s ∧ Awaits s
      ∧ (0 < s.timers.rtoTimeout ↔ s.state ≠ .synRecv) := by
  obtain ⟨ctx, s, hreach, hs, hst⟩ := detachedAfter_of 0 [.connect peerAddr 1] firstKey
    (Q := fun m => m.sock.state = .synSent) (by decide +kernel)
  exact ⟨ctx, s, hreach, hs, .inl hst, awaiting_armed_iff hreach hs (.inl hst)⟩

/-- A SYN that is never followed up leaves a socket without a deadline. -/
theorem half_open_unarmed :
    ¬ ∀ (ctx : Context) (key : Key) (s : UtpSock), Reachable ctx →
      ctx.sockets.lookup key = some s → Awaits s → 0 < s.timers.rtoTimeout := by
  intro hall
  obtain ⟨ctx, s, hreach, hs, hst, hzero⟩ := detachedAfter_of 0
    [arrives (datagram stSyn 1000 1 0 [])] acceptedKey
    (Q := fun m => m.sock.state = .synRecv ∧ m.sock.timers.rtoTimeout = 0) (by decide +kernel)
  have hpos := hall ctx acceptedKey s hreach hs (.inr (.inl hst))
  rw [show s.timers.rtoTimeout = 0 from hzero] at hpos
  exact absurd hpos (Nat.lt_irrefl 0)

end UtpRtoTimer
