import RustUtp.Acts.Boundary
import RustUtp.Receive
import RustUtp.MtuSearch

/-! # Writers — when a write is refused, and who wakes the writer

    A writer that gets nothing through sleeps on the condition variable of its
    connection.  The flag `ConnectedFull` records that the window had no room;
    the window itself changes in many places, the flag in three.  Between
    operations the flag is never set without reason, and no operation clears it
    without a callback, so a sleeping writer misses nothing. -/

namespace UtpWakeup

open UtpCircular UtpPacket UtpUtil UtpConnShared UtpEngine UtpEngine.Detached UtpActs
open UtpReceive LabelledPath

/-! ## The flag and the window -/

/-- A socket that is marked full has no room for another packet. -/
def FullOk (s : UtpSock) : Prop := s.state = .connectedFull → s.fullFor none = true

/-- The condition is about sockets that wait for room only. -/
theorem FullOk.of_state {s : UtpSock} (h : s.state ≠ .connectedFull) : FullOk s :=
  fun hst => absurd hst h

/-- The packet size is part of what the sending side shows. -/
theorem packetSize_of_view {s s' : UtpSock} (h : sendView s' = sendView s) :
    s'.getPacketSize = s.getPacketSize := by
  have hmtu : s'.mtu = s.mtu := congrArg SendView.mtu h
  unfold UtpSock.getPacketSize
  rw [hmtu]

theorem fullFor_of_view {s s' : UtpSock} (h : sendView s' = sendView s) (bytes : Option Nat) :
    s'.fullFor bytes = s.fullFor bytes := by
  have hmtu : s'.mtu = s.mtu := congrArg SendView.mtu h
  have hcwnd : s'.cwnd = s.cwnd := congrArg SendView.cwnd h
  have hbytes : s'.curWindow = s.curWindow := congrArg SendView.curWindow h
  have hcwp : s'.curWindowPackets = s.curWindowPackets := congrArg SendView.curWindowPackets h
  unfold UtpSock.fullFor UtpSock.getPacketSize
  rw [hmtu, hcwnd, hbytes, hcwp]

theorem FullOk.of_view {s s' : UtpSock} (hv : sendView s' = sendView s) (h : FullOk s) :
    FullOk s' := by
  intro hst
  rw [fullFor_of_view hv]
  exact h ((congrArg SendView.state hv).symm.trans hst)

/-- The check itself leaves the window as it is. -/
theorem fullFor_isFull (m : Detached) (bytes bytes' : Option Nat) :
    (m.isFull bytes).1.sock.fullFor bytes' = m.sock.fullFor bytes' := by
  unfold isFull
  split <;> rfl

/-- The flag that `is_full` returns is the pure predicate. -/
theorem isFull_flag (m : Detached) (bytes : Option Nat) :
    (m.isFull bytes).2 = m.sock.fullFor bytes := by
  unfold isFull
  split
  · rename_i h
    exact h.symm
  · rename_i h
    exact (Bool.eq_false_iff.mpr h).symm

/-- `mark_writable` leaves the flag in order, whatever it was before. -/
theorem fullOk_markWritable (m : Detached) : FullOk m.markWritable.sock := by
  unfold markWritable
  split
  · dsimp only
    split
    · rename_i hfull
      intro _
      rw [fullFor_isFull, ← isFull_flag]
      exact hfull
    · exact FullOk.of_state (fun h : ConnState.connected = .connectedFull => nomatch h)
  · rename_i hst
    exact FullOk.of_state hst

/-- A datagram keeps the condition: what it opens, it announces. -/
theorem fullOk_processIncoming (m : Detached) (buf : Bytes) (h : FullOk m.sock) :
    FullOk (m.processIncoming buf false).1.sock := by
  rcases processIncoming_cases (m := m) buf with ⟨-, hview⟩ | ⟨w, -, -, -, hwalk, heq⟩
  · exact h.of_view hview
  · rw [heq]
    by_cases hoff : seqOffset (admitted m buf).sock (seqNr buf) < reorderBufferMaxSize
    · exact FullOk.of_view (sendView_processChecked hwalk hoff) (fullOk_markWritable _)
    · have hview := (processChecked_outside w (Nat.not_lt.mp hoff)).2
      exact h.of_view (hview.trans (sendView_admitted m buf))

/-- A write keeps it: it waits only where there is no room. -/
theorem fullOk_writeEngine (m : Detached) (buf : Bytes) (h : FullOk m.sock) :
    FullOk (m.writeEngine buf).1.sock := by
  unfold writeEngine
  split
  · exact h
  · rename_i hst
    split
    · exact h
    · rename_i hfin
      -- the loop leaves the socket Connected
      obtain ⟨k, -, -, -, hkept⟩ := @path_writeEngineLoop none
        m.readClock.sock.getPacketSize (buf.length + 1) buf 0 m.readClock (not_not.mp hst)
        (Bool.eq_false_iff.mpr hfin)
      dsimp only
      generalize writeEngineLoop m.readClock.sock.getPacketSize (buf.length + 1) buf 0
        m.readClock = r at hkept ⊢
      have hst' : r.1.sock.state = .connected := hkept.state.trans (not_not.mp hst)
      split
      · exact FullOk.of_state (by rw [hst']; decide)
      · split
        · -- the flag is set just when the buffer is full
          rename_i hfull
          intro _
          show (r.1.isFull none).1.sock.fullFor none = true
          rw [fullFor_isFull, ← isFull_flag]
          exact hfull
        · refine FullOk.of_state ?_
          rw [(kept_isFull r.1 none).state, hst']
          decide

/-- A read keeps it: at most it sends an ack. -/
theorem fullOk_readDrained (m : Detached) (h : FullOk m.sock) : FullOk m.readDrained.sock := by
  unfold readDrained
  split
  · split
    · exact h.of_view (sendView_sendAck m false)
    · exact h.of_view (sendView_scheduleAck m.readClock)
  · exact h

/-! ## Closing a full socket

    The FIN is queued behind what waits already, and nothing can be sent. -/

/-- A full window sends nothing. -/
theorem flushLoop_full (packetSize : Nat) (n : Nat) :
    ∀ (i : UInt16) (m : Detached), m.sock.fullFor none = true →
      (flushLoop packetSize n i m).1.sock.fullFor none = true := by
  induction n with
  | zero => exact fun i m h => h
  | succ n ih =>
      intro i m h
      rw [flushLoop]
      split
      · exact ih (i + 1) m h
      · rw [if_pos ((isFull_flag m none).trans h)]
        exact (fullFor_isFull m none none).trans h

/-- A packet more in the queue leaves a full window full. -/
theorem fullFor_more {s s' : UtpSock} (h : s.fullFor none = true) (hmtu : s'.mtu = s.mtu)
    (hcwnd : s'.cwnd = s.cwnd) (hbytes : s'.curWindow = s.curWindow)
    (hcwp : s.curWindowPackets ≤ s'.curWindowPackets) : s'.fullFor none = true := by
  unfold UtpSock.fullFor at h ⊢
  unfold UtpSock.getPacketSize at h ⊢
  rw [hmtu, hcwnd, hbytes]
  simp only [Bool.or_eq_true, decide_eq_true_eq] at h ⊢
  rcases h with h | h
  · exact .inl (Nat.le_trans h hcwp)
  · exact .inr h

/-- The FIN takes one round of the write loop. -/
theorem writeLoop_fin (packetSize : Nat) (m : Detached) :
    (writeLoop packetSize stFin 1 0 [] m).1
      = (m.check (m.sock.curWindowPackets < outgoingBufferMaxSize)).updateRcvWin.pushPacket
        stFin 0 [] := by
  rw [writeLoop]
  have hnone : ∀ s, extensible s packetSize 0 = none := fun s => by
    unfold extensible
    rw [if_neg (fun h => Nat.lt_irrefl 0 h.1)]
  simp only [hnone]

/-- Queueing the FIN keeps it. -/
theorem fullOk_writeFin (m : Detached) (h : FullOk m.sock) :
    FullOk (m.writeOutgoingPacket 0 stFin []).1.sock := by
  have harm : FullOk m.armTimer.sock := by
    unfold armTimer
    split <;> exact h
  unfold writeOutgoingPacket
  dsimp only
  generalize m.armTimer = m₁ at harm ⊢
  rw [writeLoop_fin]
  have hpush : ∀ m₂ : Detached, FullOk m₂.sock → FullOk (m₂.pushPacket stFin 0 []).sock :=
    fun m₂ hm₂ hst => fullFor_more (hm₂ hst) rfl rfl rfl (Nat.le_succ _)
  have hqueued := hpush
    (m₁.check (m₁.sock.curWindowPackets < outgoingBufferMaxSize)).updateRcvWin harm
  generalize Detached.pushPacket _ stFin 0 [] = m₂ at hqueued ⊢
  intro hst
  have hst₂ : m₂.sock.state = .connectedFull := by
    rw [← hst]
    exact (kept_flushLoop _ _ _ m₂).state.symm
  exact flushLoop_full _ _ _ m₂ (hqueued hst₂)

/-- A close keeps it: the socket waits no longer. -/
theorem fullOk_closeEngine (m : Detached) (h : FullOk m.sock) : FullOk m.closeEngine.sock := by
  have hconn : FullOk m.closeConnected.sock := by
    unfold closeConnected
    dsimp only
    split
    · exact fullOk_writeFin _ h
    · split
      · exact FullOk.of_state (by simp)
      · exact h
  unfold closeEngine
  split
  · exact hconn
  · exact hconn
  · exact FullOk.of_state (by simp)
  · exact FullOk.of_state (by simp)

/-! ## Timers -/

/-- A connection that is given up waits no longer. -/
theorem rtoExpired_killed (m : Detached) (h : m.rtoExpired.2 = true) :
    m.rtoExpired.1.sock.state ≠ .connectedFull := by
  unfold rtoExpired at h ⊢
  dsimp only at h ⊢
  split
  · show ConnState.destroy ≠ .connectedFull
    decide
  · rename_i hrecv
    split
    · show (if m.sock.closeRequested = true then ConnState.destroy else .reset) ≠ _
      split <;> decide
    · rename_i hgive
      rw [if_neg hrecv, if_neg hgive] at h
      exact nomatch h

/-- After a visit of the timers it holds, whatever was before. -/
theorem fullOk_tick (m : Detached) : FullOk m.tick.sock := by
  have halive : ∀ m : Detached, FullOk m.sock → FullOk m.keepAliveIfIdle.sock := by
    intro m h
    unfold keepAliveIfIdle
    split
    · exact h.of_view (sendView_sendKeepAlive m)
    · exact h
  unfold tick
  dsimp only
  split
  · split
    · rename_i hkilled
      exact FullOk.of_state (rtoExpired_killed _ hkilled)
    · exact halive _ (fullOk_markWritable _)
  · exact halive _ (fullOk_markWritable _)

theorem fullOk_checkTimeouts (m : Detached) : FullOk m.checkTimeouts.sock := by
  unfold checkTimeouts
  dsimp only
  split
  · exact fullOk_tick _
  · exact fullOk_tick _
  · exact fullOk_tick _
  · exact fullOk_tick _
  · rename_i hfull _
    exact FullOk.of_state hfull

/-- Taking in a SYN leaves the state to its caller. -/
theorem state_processSyn (m : Detached) (buf : Bytes) :
    (m.processIncoming buf true).1.sock.state = m.sock.state := by
  unfold processIncoming
  dsimp only
  split
  · rfl
  · split
    · rfl
    · split
      · rfl
      · split <;> rfl

/-- An accepted socket starts in `SynRecv`. -/
theorem acceptSyn_state (ctx : Context) (buf : Bytes) (addr : SocketAddr) :
    (ctx.acceptSyn buf addr).sock.state = .synRecv := by
  have hnew : (ctx.accepting buf addr).sock.state = .synRecv := rfl
  unfold Context.acceptSyn
  rw [state_sendAck, state_processSyn, hnew]

/-- Every operation on a socket keeps the condition. -/
theorem keptOn_fullOk : KeptOn FullOk where
  incoming := fullOk_processIncoming
  reset := fun m _ => FullOk.of_state (by
    show (if m.sock.closeRequested = true then ConnState.destroy else .reset) ≠ _
    split <;> decide)
  write := fullOk_writeEngine
  drained := fullOk_readDrained
  close := fullOk_closeEngine
  timers := fun m _ => fullOk_checkTimeouts m
  ack := fun m h => FullOk.of_view (sendView_sendAck _ false) h

/-- A new socket does not wait. -/
theorem bornWith_fullOk (ctx : Context) : BornWith FullOk ctx where
  dialled := fun addr seed rng => FullOk.of_state (by
    unfold Context.dialledSent
    rw [(kept_sendPacketAt _ _).state]
    exact (by decide : ConnState.synSent ≠ .connectedFull))
  accepted := fun buf addr => FullOk.of_state (by
    rw [acceptSyn_state]
    decide)

/-- **THE FLAG IS NEVER SET WITHOUT REASON** between operations. -/
theorem reachable_fullOk {ctx : Context} (h : Reachable ctx) : EverySock FullOk ctx :=
  Reachable.keptOn keptOn_fullOk bornWith_fullOk h

/-! ## What a writer hears

    Every callback notifies the condition variable, so the writer of a cell is
    woken exactly when the trace of its cell grows. -/

/-- Every callback the cell of `u` has received. -/
def trace (ctx : Context) (u : UserId) : List Callback := (ctx.users u).calls

/-- What happens to one cell is in its own trace. -/
theorem trace_onUser (ctx : Context) (u v : UserId) (f : ConnCell → ConnCell) :
    trace (ctx.onUser u f) v = if v = u then (f (ctx.users u)).calls else trace ctx v := by
  show (Function.update ctx.users u (f (ctx.users u)) v).calls = _
  by_cases hv : v = u
  · rw [if_pos hv, hv, Function.update_self]
  · rw [if_neg hv, Function.update_of_ne hv]
    rfl

/-- The trace of the own cell grows by `new`, the others stay. -/
structure Tells (m m' : Detached) (new : List Callback) : Prop where
  user : m'.sock.user = m.sock.user
  others : ∀ u, u ≠ m.sock.user → trace m'.ctx u = trace m.ctx u
  own : trace m'.ctx m.sock.user = trace m.ctx m.sock.user ++ new

/-- A step that calls nothing back. -/
theorem Tells.silent {m m' : Detached} (hu : m'.sock.user = m.sock.user)
    (h : trace m'.ctx = trace m.ctx) : Tells m m' [] :=
  ⟨hu, fun u _ => congrFun h u, by rw [h, List.append_nil]⟩

theorem Tells.trans {m₁ m₂ m₃ : Detached} {new new' : List Callback} (h : Tells m₁ m₂ new)
    (h' : Tells m₂ m₃ new') : Tells m₁ m₃ (new ++ new') := by
  refine ⟨h'.user.trans h.user, fun u hu => ?_, ?_⟩
  · rw [h'.others u (by rw [h.user]; exact hu), h.others u hu]
  · rw [← h.user, h'.own, h.user, h.own, List.append_assoc]

/-- A notification is one call to the own cell. -/
theorem Tells.notify (m : Detached) {f : ConnCell → ConnCell} {c : Callback}
    (hf : ∀ cell, (f cell).calls = cell.calls ++ [c]) : Tells m (m.notify f) [c] := by
  refine ⟨rfl, fun u hu => ?_, ?_⟩
  · exact (trace_onUser m.ctx m.sock.user u f).trans (if_neg hu)
  · exact (trace_onUser m.ctx m.sock.user m.sock.user f).trans ((if_pos rfl).trans (hf _))

/-- Leaving the ack list is silent. -/
theorem tells_ackListRemove (m : Detached) : Tells m m.ackListRemove [] := by
  unfold ackListRemove
  split <;> exact Tells.silent rfl rfl

/-- Sending tells at most that the transport failed. -/
theorem tells_sendData (m : Detached) (written : Nat) (buf : Bytes) :
    ∃ new, Tells m (m.sendData written buf) new := by
  unfold sendData
  dsimp only
  generalize hsent : ({ ctx := (m.ctx.sendToAddr (some m.sock.user)
      (some (m.note written)) (m.stampTimes buf) m.sock.key.addr).1, sock := { m.sock with timers := _ } } : Detached) = m₁
  have hm₁ : Tells m m₁ [] := by
    rw [← hsent]
    exact Tells.silent rfl rfl
  split
  · exact ⟨_, (hm₁.trans (Tells.notify m₁ (fun _ => rfl))).trans (tells_ackListRemove _)⟩
  · exact ⟨_, (hm₁.trans (Tells.notify m₁ (fun _ => rfl))).trans (tells_ackListRemove _)⟩
  · exact ⟨_, hm₁.trans (tells_ackListRemove _)⟩

theorem tells_sendAck (m : Detached) (synack : Bool) : ∃ new, Tells m (m.sendAck synack) new := by
  obtain ⟨new, h⟩ := tells_sendData m.updateRcvWin m.cell.readBuf.length m.ackDatagram
  have hrcv : Tells m m.updateRcvWin [] := Tells.silent rfl rfl
  exact ⟨_, (hrcv.trans h).trans (tells_ackListRemove _)⟩

theorem tells_sendPacketAt (m : Detached) (seq : UInt16) :
    ∃ new, Tells m (m.sendPacketAt seq) new := by
  unfold sendPacketAt
  split
  · exact ⟨[], Tells.silent rfl rfl⟩
  · rename_i pkt _
    obtain ⟨new, h⟩ := tells_sendData (m.countSend pkt) pkt.unread (setAckNr pkt.data m.sock.ackNr)
    have hcount : Tells m (m.countSend pkt) [] := Tells.silent rfl rfl
    exact ⟨_, (hcount.trans h).trans (Tells.silent rfl rfl)⟩

theorem tells_deliver (m : Detached) (data : Bytes) : ∃ new, Tells m (m.deliver data) new := by
  unfold deliver
  split
  · exact ⟨_, Tells.notify m (fun _ => rfl)⟩
  · exact ⟨[], Tells.silent rfl rfl⟩

/-- A socket that enters `Connected` tells its cell. -/
def Heard (m m' : Detached) : Prop :=
  (m.sock.finSent = true → m'.sock.finSent = true)
    ∧ ∃ new, Tells m m' new
      ∧ (m'.sock.state = .connected → m.sock.state = .connected ∨ new ≠ [])

theorem Heard.refl (m : Detached) : Heard m m :=
  ⟨id, [], Tells.silent rfl rfl, .inl⟩

theorem Heard.trans (m₁ m₂ m₃ : Detached) (h : Heard m₁ m₂) (h' : Heard m₂ m₃) : Heard m₁ m₃ := by
  obtain ⟨hfin, new, htell, hwake⟩ := h
  obtain ⟨hfin', new', htell', hwake'⟩ := h'
  refine ⟨fun hf => hfin' (hfin hf), _, htell.trans htell', fun hst => ?_⟩
  rcases hwake' hst with hst₂ | hne
  · exact (hwake hst₂).imp id (fun hne h => hne (List.append_eq_nil_iff.mp h).1)
  · exact .inr (fun h => hne (List.append_eq_nil_iff.mp h).2)

/-- An act that does not enter `Connected`. -/
theorem Heard.of_state {m m' : Detached} (hfin : m'.sock.finSent = m.sock.finSent)
    (htell : ∃ new, Tells m m' new)
    (hst : m'.sock.state = .connected → m.sock.state = .connected) : Heard m m' := by
  obtain ⟨new, h⟩ := htell
  exact ⟨fun hf => hfin.trans hf, new, h, fun h => .inl (hst h)⟩

/-- A step that does not make the socket writable need not be heard. -/
theorem Heard.of_same {m m' : Detached} (hu : m'.sock.user = m.sock.user)
    (hfin : m'.sock.finSent = m.sock.finSent) (htrace : trace m'.ctx = trace m.ctx)
    (hst : m'.sock.state = .connected → m.sock.state = .connected) : Heard m m' :=
  .of_state hfin ⟨[], Tells.silent hu htrace⟩ hst

/-- A change of the state that the cell is told of. -/
theorem Heard.of_notify (m : Detached) (st : ConnState) {f : ConnCell → ConnCell} {c : Callback}
    (hf : ∀ cell, (f cell).calls = cell.calls ++ [c]) :
    Heard m (({ m with sock := { m.sock with state := st } } : Detached).notify f) := by
  have htell := Tells.notify ({ m with sock := { m.sock with state := st } }) hf
  exact ⟨id, [c], ⟨htell.user, htell.others, htell.own⟩, fun _ => .inr (List.cons_ne_nil _ _)⟩

/-- **A SOCKET THAT BECOMES WRITABLE SAYS SO**, on its send side. -/
theorem heard_tx {inp : Option Bytes} {l : Bytes} {m m' : Detached} (h : TxAct inp l m m') :
    Heard m m' := by
  have hu : m'.sock.user = m.sock.user := congrArg RxView.user h.rxView_eq
  have hfin : m'.sock.finSent = m.sock.finSent := congrArg RxView.finSent h.rxView_eq
  cases h with
  | sendPacket _ seq =>
      exact .of_state hfin (tells_sendPacketAt m seq)
        (fun h => (UtpLifecycle.state_sendPacketAt m seq).symm.trans h)
  | ackCum _ buf acks =>
      exact .of_same hu hfin (by rw [ctx_ackCumulative])
        (fun h => (UtpLifecycle.state_ackCumulative acks m).symm.trans h)
  | ackSel =>
      exact .of_same hu hfin (by rw [ctx_ackPacket])
        (fun h => (UtpLifecycle.state_ackPacket m _).symm.trans h)
  | lose _ seq =>
      exact .of_same hu hfin (by rw [ctx_markLost])
        (fun h => (UtpLifecycle.state_markLost m seq).symm.trans h)
  | established => exact .of_notify m .connected (fun _ => rfl)
  | dialed => exact .of_notify m .connected (fun _ => rfl)
  | becomeWritable => exact .of_notify m .connected (fun _ => rfl)
  | finAcked =>
      -- the ack of the FIN ends the connection, or it was not asked for
      refine .of_same hu hfin rfl (fun h => ?_)
      dsimp only at h
      split at h
      · exact nomatch h
      · exact h
  | becomeFull => exact .of_same hu hfin rfl (fun h => nomatch h)
  | _ => exact .of_same hu hfin rfl id

/-- Handing over bytes makes no socket writable. -/
theorem heard_acceptNext (m : Detached) (data : Bytes) : Heard m (m.acceptNext data) := by
  obtain ⟨new, h⟩ := tells_deliver m data
  have hsock := deliver_sock m data
  refine .of_state (by rw [acceptNext_sock])
    ⟨_, h.trans (Tells.silent (m := m.deliver data) rfl rfl)⟩ (fun hst => ?_)
  rw [acceptNext_sock] at hst
  exact hst

theorem heard_sendAck (m : Detached) (synack : Bool) : Heard m (m.sendAck synack) :=
  .of_state (congrArg RxView.finSent (rxView_sendAck m synack)) (tells_sendAck m synack)
    (fun h => (state_sendAck m synack).symm.trans h)

theorem heard_drain {l : Bytes} {m m' : Detached} (h : DrainAct l m m') : Heard m m' := by
  cases h with
  | drain _ p =>
      refine Heard.trans m ({ m with
        sock := { m.sock with inbuf := m.sock.inbuf.put (m.sock.ackNr.toNat + 1) none } }) _
        (.of_same rfl rfl rfl id) ?_
      exact Heard.trans _ _ _ (heard_acceptNext _ p) (.of_same rfl rfl rfl id)
  | reach =>
      have htell := Tells.notify (m := { m with
        sock :=
          { m.sock with
            gotFinReached := true
            timers :=
              { m.sock.timers with
                rtoTimeout := m.ctx.currentMs + min (m.sock.timers.rto * 3) 60 } } })
        (f := (·.onEof)) (c := .onEof) (fun _ => rfl)
      exact .of_state rfl ⟨_, htell.user, htell.others, htell.own⟩ id
  | ackFin => exact heard_sendAck m false
  | dropStragglers => exact .of_same rfl rfl rfl id

/-- **EVERY ACT** that makes a socket writable is heard. -/
theorem heard_act {occ : Occasion} {l : Bytes} {m m' : Detached} (h : Act occ l m m') :
    Heard m m' := by
  cases h with
  | tx h => exact heard_tx h
  | fin => exact ⟨fun _ => rfl, [], Tells.silent rfl rfl, .inl⟩
  | closeAcked => exact .of_same rfl rfl rfl (fun h => nomatch h)
  | abandon => exact .of_same rfl rfl rfl (fun h => nomatch h)
  | giveUp _ st => exact .of_notify m st (fun _ => rfl)
  | inOrder _ _ _ _ _ _ _ hdrain =>
      exact DrainPath.lift Heard.refl Heard.trans (fun _ _ _ h => heard_drain h)
        (heard_acceptNext m _) hdrain
  | ack _ synack => exact heard_sendAck m synack
  | schedule => unfold scheduleAck; split <;> exact .of_same rfl rfl rfl id
  | keepAlive =>
      refine Heard.trans m ({ m with sock := { m.sock with ackNr := m.sock.ackNr - 1 } }) _
        (.of_same rfl rfl rfl id) ?_
      exact Heard.trans _ _ _ (heard_sendAck _ false) (.of_same rfl rfl rfl id)
  | reset => exact .of_notify m _ (fun _ => rfl)
  | _ => exact .of_same rfl rfl rfl id

/-! ## Over the table -/

/-- No cell forgets a callback, and a socket of before that is in `Connected`
    now was there before, or its cell has heard something since. -/
structure Woken (ctx ctx' : Context) : Prop where
  users : ctx.nextUser ≤ ctx'.nextUser
  grows : ∀ u, u < ctx.nextUser → trace ctx u <+: trace ctx' u
  sockets : ∀ key s', ctx'.sockets.lookup key = some s' → s'.user < ctx.nextUser →
    ∃ s, ctx.sockets.lookup key = some s ∧ s.user = s'.user
      ∧ (s.finSent = true → s'.finSent = true)
      ∧ (s'.state = .connected → s.state = .connected ∨ trace ctx' s.user ≠ trace ctx s.user)

theorem Woken.refl (ctx : Context) : Woken ctx ctx :=
  ⟨Nat.le_refl _, fun _ _ => List.prefix_rfl, fun _ s' hs _ => ⟨s', hs, rfl, id, .inl⟩⟩

/-- A history that has grown once is no longer what it was. -/
theorem ne_of_grown {a b c : List Callback} (h : a <+: b) (h' : b <+: c)
    (hne : b ≠ a ∨ c ≠ b) : c ≠ a := by
  intro hca
  rw [hca] at h'
  have hba : b = a := h'.eq_of_length_le h.length_le
  rcases hne with hne | hne
  · exact hne hba
  · exact hne (hca.trans hba.symm)

theorem Woken.trans {ctx₁ ctx₂ ctx₃ : Context} (h : Woken ctx₁ ctx₂) (h' : Woken ctx₂ ctx₃) :
    Woken ctx₁ ctx₃ := by
  refine ⟨h.users.trans h'.users, fun u hu => ?_, fun key s₃ hs₃ hu₃ => ?_⟩
  · exact (h.grows u hu).trans (h'.grows u (Nat.lt_of_lt_of_le hu h.users))
  · obtain ⟨s₂, hs₂, hu₂, hf₂, hw₂⟩ := h'.sockets key s₃ hs₃ (Nat.lt_of_lt_of_le hu₃ h.users)
    rw [← hu₂] at hu₃
    obtain ⟨s₁, hs₁, hu₁, hf₁, hw₁⟩ := h.sockets key s₂ hs₂ hu₃
    refine ⟨s₁, hs₁, hu₁.trans hu₂, fun hf => hf₂ (hf₁ hf), fun hst => ?_⟩
    rw [← hu₁] at hu₃
    have hgrow := h.grows s₁.user hu₃
    have hgrow' := h'.grows s₁.user (Nat.lt_of_lt_of_le hu₃ h.users)
    rcases hw₂ hst with hst₂ | hne
    · exact (hw₁ hst₂).imp id (fun hne => ne_of_grown hgrow hgrow' (.inl hne))
    · rw [← hu₁] at hne
      exact .inr (ne_of_grown hgrow hgrow' (.inr hne))

/-- An act of the table that leaves the old sockets and traces alone. -/
theorem Woken.of_same {ctx ctx' : Context} (hnext : ctx.nextUser ≤ ctx'.nextUser)
    (htrace : ∀ u, u < ctx.nextUser → trace ctx' u = trace ctx u)
    (hsockets : ∀ key s', ctx'.sockets.lookup key = some s' → s'.user < ctx.nextUser →
      ctx.sockets.lookup key = some s') : Woken ctx ctx' :=
  ⟨hnext, fun u hu => by rw [htrace u hu],
    fun key s' hs' hu => ⟨s', hsockets key s' hs' hu, rfl, id, .inl⟩⟩

/-- A new socket wakes nobody. -/
theorem Woken.born {ctx : Context} {key : Key} {m : Detached}
    (hsocks : m.ctx.sockets = ctx.sockets) (huser : m.sock.user = ctx.nextUser)
    (hnext : m.ctx.nextUser = ctx.nextUser + 1)
    (hcells : ∀ u, u ≠ ctx.nextUser → trace m.ctx u = trace ctx u) :
    Woken ctx (Context.attach key m) := by
  refine .of_same ((Nat.le_succ _).trans (Nat.le_of_eq hnext.symm))
    (fun u hu => hcells u (Nat.ne_of_lt hu)) (fun k s' hs' hu => ?_)
  rw [lookup_attach] at hs'
  split at hs'
  · obtain rfl := Option.some.inj hs'
    rw [huser] at hu
    exact absurd hu (Nat.lt_irrefl _)
  · rw [hsocks] at hs'
    exact hs'

/-- What one socket says is heard by its own writer. -/
theorem Woken.own {key : Key} {m m' : Detached} (hsame : surroundings m'.ctx = surroundings m.ctx)
    (h : Heard m m') : Woken (Context.attach key m) (Context.attach key m') := by
  obtain ⟨hfin, new, htell, hwake⟩ := h
  have hsocks : m'.ctx.sockets = m.ctx.sockets := congrArg Surroundings.sockets hsame
  have hnext : m'.ctx.nextUser = m.ctx.nextUser := congrArg Surroundings.nextUser hsame
  refine ⟨Nat.le_of_eq hnext.symm, fun u _ => ?_, fun k s' hs' _ => ?_⟩
  · show trace m.ctx u <+: trace m'.ctx u
    -- the user of this socket hears something, no one else does
    by_cases hu : u = m.sock.user
    · rw [hu, htell.own]
      exact List.prefix_append _ _
    · rw [htell.others u hu]
  · rw [lookup_attach] at hs'
    split at hs'
    · rename_i hk
      obtain rfl := Option.some.inj hs'
      -- a socket that stopped being full has told its user
      refine ⟨m.sock, by rw [lookup_attach, if_pos hk], htell.user.symm, hfin, fun hst => ?_⟩
      refine (hwake hst).imp id (fun hne => ?_)
      show trace m'.ctx m.sock.user ≠ trace m.ctx m.sock.user
      rw [htell.own]
      exact fun heq => hne (List.append_right_eq_self.mp heq)
    · rename_i hk
      rw [hsocks] at hs'
      exact ⟨s', by rw [lookup_attach, if_neg hk]; exact hs', rfl, id, .inl⟩

/-- A destroyed socket tells its writer. -/
theorem woken_destroySock {key : Key} {m : Detached} (hout : m.ctx.sockets.lookup key = none) :
    Woken (Context.attach key m) (Context.destroySock m) := by
  have htell : Tells m (m.notify (·.onDestroying)).ackListRemove _ :=
    (Tells.notify m (c := .onDestroying) (fun _ => rfl)).trans (tells_ackListRemove _)
  refine ⟨Nat.le_of_eq (destroySock_nextUser m).symm, fun u _ => ?_, fun k s' hs' _ => ?_⟩
  · show trace m.ctx u <+: trace (m.notify (·.onDestroying)).ackListRemove.ctx u
    by_cases hu : u = m.sock.user
    · rw [hu, htell.own]
      exact List.prefix_append _ _
    · rw [htell.others u hu]
  · rw [destroySock_sockets] at hs'
    refine ⟨s', ?_, rfl, id, .inl⟩
    rw [lookup_attach, if_neg (fun hk => by rw [hk, hout] at hs'; exact nomatch hs')]
    exact hs'

/-- A fresh cell leaves the traces of the others. -/
theorem trace_fresh {ctx ctx' : Context} {addr : SocketAddr}
    (h : ctx'.users = Function.update ctx.users ctx.nextUser (ConnCell.new addr)) {u : UserId}
    (hu : u ≠ ctx.nextUser) : trace ctx' u = trace ctx u := by
  show (ctx'.users u).calls = (ctx.users u).calls
  rw [h, Function.update_of_ne hu]

/-- Answering an unknown connection tells nobody. -/
theorem trace_rejectUnknown (ctx : Context) (addr : SocketAddr) (id : UInt32)
    (seqNr : UInt16) (u : UserId) :
    trace (ctx.rejectUnknown addr id seqNr) u = trace ctx u := by
  unfold Context.rejectUnknown
  dsimp only
  split
  · rfl
  · split <;> rfl

theorem trace_silent (ctx : Context) (u v : UserId) {f : ConnCell → ConnCell}
    (hf : ∀ c, (f c).calls = c.calls) : trace (ctx.onUser u f) v = trace ctx v := by
  rw [trace_onUser]
  split
  · rename_i hv
    rw [hf, hv]
    rfl
  · rfl

/-- One act of the engine. -/
theorem woken_engineAct {occ : Occasion} {l : Bytes} {ctx ctx' : Context}
    (h : EngineAct occ l ctx ctx') : Woken ctx ctx' := by
  cases h with
  | sock key hout hstep => exact .own hstep.surroundings_eq (heard_act hstep)
  | dial _ addr seed rng _ _ =>
      obtain ⟨huser, hnext⟩ := dialled_user ctx addr seed rng
      exact .born (dialled_sockets ctx addr seed rng) huser hnext
        (fun u hu => trace_fresh (dialled_users ctx addr seed rng) hu)
  | accept _ buf addr _ _ _ =>
      obtain ⟨huser, hnext⟩ := accepting_user ctx buf addr
      exact .born (accepting_sockets ctx buf addr) huser hnext
        (fun u hu => trace_fresh (accepting_users ctx buf addr) hu)
  | remove key m _ hout => exact woken_destroySock hout
  | reject =>
      exact .of_same (Nat.le_of_eq (rejectUnknown_nextUser ..).symm)
        (fun u _ => trace_rejectUnknown ..)
        (fun k s' hs' _ => by rw [rejectUnknown_sockets] at hs'; exact hs')
  | settings => exact .of_same (Nat.le_refl _) (fun _ _ => rfl) (fun _ _ hs _ => hs)
  | takeAcks => exact .of_same (Nat.le_refl _) (fun _ _ => rfl) (fun _ _ hs _ => hs)
  | consume _ user len =>
      exact .of_same (Nat.le_refl _) (fun u _ => trace_silent ctx user u (fun _ => rfl))
        (fun _ _ hs _ => hs)
  | markClosed _ user =>
      exact .of_same (Nat.le_refl _) (fun u _ => trace_silent ctx user u (fun _ => rfl))
        (fun _ _ hs _ => hs)

/-- **ONE OPERATION** wakes the writers of the sockets that become writable. -/
theorem woken_step {ctx ctx' : Context} {op : Op} (h : ctx.step op = some ctx') :
    Woken ctx ctx' :=
  Steps.lift (S := Woken) Woken.refl (fun _ _ _ => Woken.trans)
    (fun _ _ _ ha => woken_engineAct ha) (path_step h)

theorem woken_run (ops : List Op) :
    ∀ {ctx ctx' : Context}, ctx.run ops = some ctx' → Woken ctx ctx' := by
  induction ops with
  | nil =>
      intro ctx ctx' h
      obtain rfl := Option.some.inj h
      exact Woken.refl ctx
  | cons op rest ih =>
      intro ctx ctx' h
      obtain ⟨ctx₁, hstep, hrest⟩ := Option.bind_eq_some_iff.mp h
      exact (woken_step hstep).trans (ih hrest)

/-! ## A refused write -/

/-- Where some bytes find no room, a whole packet finds none either. -/
theorem fullFor_none {s : UtpSock} {n : Nat} (h : s.fullFor (some n) = true) :
    s.fullFor none = true := by
  unfold UtpSock.fullFor at h ⊢
  simp only [Bool.or_eq_true, decide_eq_true_eq] at h ⊢
  have hmin : min n s.getPacketSize ≤ s.getPacketSize := Nat.min_le_right _ _
  rcases h with h | h
  · exact .inl h
  · exact .inr (by omega)

/-- A write that gets nothing through was refused in its first round. -/
theorem writeEngineLoop_refused {m : Detached} {packetSize fuel : Nat} {buf : Bytes}
    (hpos : 0 < min buf.length packetSize) (hst : m.sock.state = .connected)
    (hfin : m.sock.finSent = false)
    (hzero : (writeEngineLoop packetSize (fuel + 1) buf 0 m).2.1 = 0) :
    writeEngineLoop packetSize (fuel + 1) buf 0 m
      = ((m.isFull (some (min buf.length packetSize))).1, 0, false)
      ∧ m.sock.fullFor (some (min buf.length packetSize)) = true := by
  rw [writeEngineLoop] at hzero ⊢
  dsimp only at hzero ⊢
  have hle : min buf.length packetSize ≤ buf.length := Nat.min_le_left _ _
  generalize min buf.length packetSize = num at hpos hle hzero ⊢
  cases hfull : m.sock.fullFor (some num) with
  | true => exact ⟨if_pos ((isFull_flag m _).trans hfull), rfl⟩
  | false =>
      -- a first packet went out, so something was taken
      have hflag := (isFull_flag m (some num)).trans hfull
      rw [if_neg (by rw [hflag]; exact Bool.false_ne_true)] at hzero
      obtain ⟨-, -, hkept⟩ := @path_writeOutgoingPacket none m num buf hle hst hfin
        (room_of_not_full hfull)
      split at hzero
      · have hnum : 0 + num = 0 := hzero
        omega
      · obtain ⟨k, -, hsent, -⟩ := @path_writeEngineLoop none packetSize fuel
          (m.writeOutgoingPacket num stData buf).2 (0 + num)
          (m.writeOutgoingPacket num stData buf).1 (hkept.state.trans hst)
          (hkept.finSent.trans hfin)
        rw [hsent] at hzero
        omega

/-- A write that is refused for want of room leaves the socket marked full, and
    there was no room for a packet. -/
theorem refused_full {m : Detached} {buf : Bytes} (hsize : 0 < m.sock.getPacketSize)
    (hbuf : buf ≠ []) (hst : m.sock.state = .connected) (hfin : m.sock.finSent = false)
    (hzero : (m.writeEngine buf).2 = 0) :
    (m.writeEngine buf).1.sock.state = .connectedFull ∧ m.sock.fullFor none = true := by
  have hpos : 0 < min buf.length m.readClock.sock.getPacketSize :=
    Nat.lt_min.mpr ⟨List.length_pos_iff.mpr hbuf, hsize⟩
  have hst' : m.readClock.sock.state = .connected := hst
  have hfin' : m.readClock.sock.finSent = false := hfin
  have hsame : m.readClock.sock.fullFor none = m.sock.fullFor none := rfl
  unfold writeEngine at hzero ⊢
  rw [if_neg (not_not.mpr hst), if_neg (by rw [hfin]; exact Bool.false_ne_true)] at hzero ⊢
  dsimp only at hzero ⊢
  generalize m.readClock = m₁ at hpos hst' hfin' hsame hzero ⊢
  -- nothing taken means that the loop ended at its first test
  have hloop : (writeEngineLoop m₁.sock.getPacketSize (buf.length + 1) buf 0 m₁).2.1 = 0 := by
    split at hzero
    · exact hzero
    · split at hzero <;> exact hzero
  obtain ⟨heq, hfull⟩ := writeEngineLoop_refused hpos hst' hfin' hloop
  rw [heq]
  dsimp only
  have hnone : ((m₁.isFull (some (min buf.length m₁.sock.getPacketSize))).1.isFull none).2
      = true := by
    rw [isFull_flag, fullFor_isFull]
    exact fullFor_none hfull
  rw [if_neg Bool.false_ne_true, if_pos hnone]
  exact ⟨rfl, hsame.symm.trans (fullFor_none hfull)⟩

/-- When `write_engine` takes no data. -/
def Refuses (s : UtpSock) : Prop := s.state ≠ .connected ∨ s.finSent = true

/-- A socket that refuses takes nothing. -/
theorem writeEngine_refuses {m : Detached} (h : Refuses m.sock) (buf : Bytes) :
    (m.writeEngine buf).2 = 0 := by
  unfold writeEngine
  split
  · rfl
  · rename_i hst
    rw [if_pos (h.resolve_left (fun hne => hst hne))]

/-- A socket that has taken nothing refuses from now on. -/
theorem refuses_of_zero {m : Detached} {buf : Bytes} (hsize : 0 < m.sock.getPacketSize)
    (hbuf : buf ≠ []) (hzero : (m.writeEngine buf).2 = 0) :
    Refuses (m.writeEngine buf).1.sock := by
  by_cases hst : m.sock.state = .connected
  · cases hfin : m.sock.finSent with
    | true =>
        refine .inr ?_
        exact (congrArg RxView.finSent (@path_writeEngine none m buf).2.1.rxView_eq).trans
          hfin
    | false =>
        refine .inl ?_
        rw [(refused_full hsize hbuf hst hfin hzero).1]
        decide
  · refine .inl ?_
    unfold writeEngine
    rw [if_pos hst]
    exact hst

/-- A write goes to the socket under the key. -/
theorem write_of_lookup {ctx : Context} {key : Key} {s : UtpSock}
    (hs : ctx.sockets.lookup key = some s) (buf : Bytes) :
    ctx.write key buf = (Context.attach key ((ctx.detach key s).writeEngine buf).1,
      some ((ctx.detach key s).writeEngine buf).2) := by
  unfold Context.write
  rw [hs]

/-- **NO LOST WAKE-UP.**  A write on an open connection that gets nothing through
    leaves it marked full; a socket that is marked full has no room; an operation
    that takes a socket to `Connected` tells its cell; so a writer that was
    refused is refused again as long as its cell has heard nothing. -/
theorem writer_not_lost {ctx : Context} (h : Reachable ctx) {key : Key} {s : UtpSock}
    (hs : ctx.sockets.lookup key = some s) :
    (∀ buf, buf ≠ [] → s.state = .connected → s.finSent = false →
        (ctx.write key buf).2 = some 0 →
        ∃ s', (ctx.write key buf).1.sockets.lookup key = some s' ∧ s'.state = .connectedFull)
      ∧ (s.state = .connectedFull → s.fullFor none = true)
      ∧ (∀ op ctx' s', ctx.step op = some ctx' → ctx'.sockets.lookup key = some s' →
        s'.user = s.user →
        (s.state = .synSent ∨ s.state = .synRecv ∨ s.state = .connectedFull) →
        s'.state = .connected → ∃ c new, trace ctx' s.user = trace ctx s.user ++ c :: new)
      ∧ ∀ buf ops ctx' s', buf ≠ [] → (ctx.write key buf).2 = some 0 →
        (ctx.write key buf).1.run ops = some ctx' → ctx'.sockets.lookup key = some s' →
        s'.user = s.user → trace ctx' s.user = trace (ctx.write key buf).1 s.user →
        ∀ buf', (ctx'.write key buf').2 = some 0 := by
  have hsize : 0 < s.getPacketSize := Nat.lt_of_lt_of_le (by decide)
    (UtpMtuSearch.packetSize_range (UtpMtuSearch.reachable_searched h key s hs).inRange).1
  have huser := reachable_users h key s hs
  refine ⟨fun buf hbuf hst hfin hzero => ?_, reachable_fullOk h key s hs,
    fun op ctx' s' hstep hs' hu hst hst' => ?_, fun buf ops ctx' s' hbuf hzero hrun hs' hu hquiet
    buf' => ?_⟩
  · rw [write_of_lookup hs] at hzero ⊢
    refine ⟨((ctx.detach key s).writeEngine buf).1.sock, by rw [lookup_attach, if_pos rfl], ?_⟩
    exact (refused_full (m := ctx.detach key s) hsize hbuf hst hfin (Option.some.inj hzero)).1
  · have hwoken := woken_step hstep
    rw [← hu] at huser
    obtain ⟨s₀, hs₀, -, -, hwake⟩ := hwoken.sockets key s' hs' huser
    obtain rfl := Option.some.inj (hs₀.symm.trans hs)
    have hne : s₀.state ≠ .connected := by
      rcases hst with hst | hst | hst <;> rw [hst] <;> decide
    have hnew := (hwake hst').resolve_left hne
    rw [hu] at huser
    obtain ⟨new, hgrow⟩ := hwoken.grows s₀.user huser
    cases new with
    | nil => exact absurd (hgrow.symm.trans (List.append_nil _)) hnew
    | cons c new => exact ⟨c, new, hgrow.symm⟩
  · -- the socket as the write left it
    rw [write_of_lookup hs] at hzero hrun hquiet
    have hrefuses := refuses_of_zero (m := ctx.detach key s) hsize hbuf (Option.some.inj hzero)
    have hpath := (@path_writeEngine none (ctx.detach key s) buf).2.1
    have hu₁ : ((ctx.detach key s).writeEngine buf).1.sock.user = s.user :=
      congrArg RxView.user hpath.rxView_eq
    have hnext : ((ctx.detach key s).writeEngine buf).1.ctx.nextUser = ctx.nextUser :=
      congrArg Surroundings.nextUser (Steps.lift
        (S := fun a b : Detached => surroundings b.ctx = surroundings a.ctx) (fun _ => rfl)
        (fun _ _ _ hab hbc => hbc.trans hab) (fun _ _ _ h => TxAct.surroundings_eq h) hpath)
    generalize ((ctx.detach key s).writeEngine buf).1 = m₁ at hrefuses hu₁ hnext hrun hquiet
    have hwoken := woken_run ops hrun
    have hlt : s'.user < (Context.attach key m₁).nextUser := by
      show s'.user < m₁.ctx.nextUser
      rw [hnext, hu]
      exact huser
    obtain ⟨s₁, hs₁, -, hfin, hwake⟩ := hwoken.sockets key s' hs' hlt
    rw [lookup_attach, if_pos rfl] at hs₁
    obtain rfl := Option.some.inj hs₁
    rw [write_of_lookup hs']
    refine congrArg some (writeEngine_refuses (m := ctx'.detach key s') ?_ buf')
    show Refuses s'
    by_cases hst' : s'.state = .connected
    · have hst := (hwake hst').resolve_right (fun hne => hne (by rw [hu₁]; exact hquiet))
      exact .inr (hfin (hrefuses.resolve_left (fun hne => hne hst)))
    · exact .inl hst'

/-- A write to a peer that has closed its window is refused, and the socket has
    no room. -/
theorem writer_not_lost_full :
    ∃ ctx s, Reachable ctx ∧ ctx.sockets.lookup acceptedKey = some s
      ∧ s.state = .connectedFull ∧ s.fullFor none = true := by
  obtain ⟨ctx, s, hreach, hs, hst⟩ := detachedAfter_of 0
    (acceptOps ++ [.write acceptedKey [1]]) acceptedKey
    (Q := fun m => m.sock.state = .connectedFull) (by decide +kernel)
  exact ⟨ctx, s, hreach, hs, hst, (writer_not_lost hreach hs).2.1 hst⟩

end UtpWakeup
