import RustUtp.Segments
import RustUtp.FastResend

/-! # The handshake — when a dialled connection is established

    A dialled socket holds its SYN in the send queue until it is acked, and is
    connected by the first STATE packet whose ack number passes the range
    check.  That check lets a few older numbers through, which do not ack the
    SYN.  As long as no such packet arrives, every established connection has
    got its SYN acked: its number has left the window, and no SYN is left in
    the queue. -/

namespace UtpHandshake

open UtpCircular UtpPacket UtpUtil UtpConnShared UtpEngine UtpEngine.Detached UtpActs
open UtpSendQueue UtpDatagrams UtpSegments UtpFlush UtpMtuSearch UtpLifecycle UtpReceive
open UtpFastResend LabelledPath

/-! ## Packets that are no SYN -/

def NotSyn (_ : Nat) (p : OutgoingPacket) : Prop := packetType p.data ≠ stSyn

/-- The only SYN of a queue has sequence number `v`. -/
def SynAt (v : UInt16) (_ : Nat) (p : OutgoingPacket) : Prop :=
  packetType p.data = stSyn → seqNr p.data = v

def NoSyn (s : UtpSock) : Prop :=
  ∀ i p, s.outbuf.get i = some p → packetType p.data ≠ stSyn

/-- A packet has the type it was filled in with. -/
theorem kind_fillHeader (m : Detached) {flags : UInt8} (hflags : flags < stNumStates)
    (seq : Option UInt16) {b : Bytes} (hb : headerSize ≤ b.length) :
    packetType (m.fillHeader flags seq b) = flags :=
  congrArg Hdr.packetType (hdr_fillHeader m hflags seq hb)

/-- A transmission keeps the type of a packet. -/
theorem kind_sentPacket (m : Detached) {n : Nat} {p : OutgoingPacket} (h : PacketOk n p) :
    packetType (m.sentPacket p).data = packetType p.data :=
  congrArg Content.kind (content_sentPacket m h)

/-- A packet that a write or a close makes is no SYN. -/
theorem notSyn_newPacket (m : Detached) {flags : UInt8} (hflags : flags < stNumStates)
    (hne : flags ≠ stSyn) (n k : Nat) (data : Bytes) : NotSyn n (m.newPacket flags k data) := by
  have hkind : packetType (m.newPacket flags k data).data = flags :=
    kind_fillHeader m hflags (some m.sock.seqNr) (by simp)
  unfold NotSyn
  rw [hkind]
  exact hne

theorem notSyn_extendedPacket (m : Detached) {n : Nat} {p : OutgoingPacket} (h : PacketOk n p)
    (k : Nat) (data : Bytes) : NotSyn n (m.extendedPacket p stData k data) := by
  have hlen : headerSize ≤ (p.data ++ data.take k).length := by
    rw [List.length_append, h.length]
    omega
  have hkind : packetType (m.extendedPacket p stData k data).data = stData :=
    kind_fillHeader m (by decide) none hlen
  unfold NotSyn
  rw [hkind]
  decide

/-- Nothing that happens to the queue makes a SYN. -/
theorem closed_notSyn (m : Detached) : Closed NotSyn m where
  sent := fun n p hpk h => by
    unfold NotSyn
    rw [kind_sentPacket m hpk]
    exact h
  lost := fun _ _ h => h
  made := fun _ n k data => notSyn_newPacket m (by decide) (by decide) n k data
  extended := fun _ n p k data hpk _ => notSyn_extendedPacket m hpk k data
  fin := fun _ n => notSyn_newPacket m (by decide) (by decide) n 0 []

/-- Nothing makes a SYN under another number. -/
theorem closed_synAt (v : UInt16) (m : Detached) : Closed (SynAt v) m where
  sent := fun n p hpk h => by
    obtain ⟨hkind, hseq, -⟩ := Content.mk.inj (content_sentPacket m hpk)
    unfold SynAt
    rw [hkind, hseq]
    exact h
  lost := fun _ _ h => h
  made := fun _ n k data hsyn =>
    absurd hsyn (notSyn_newPacket m (by decide) (by decide) n k data)
  extended := fun _ n p k data hpk _ hsyn => absurd hsyn (notSyn_extendedPacket m hpk k data)
  fin := fun _ n hsyn => absurd hsyn (notSyn_newPacket m (by decide) (by decide) n 0 [])

/-- A queue without a SYN, read slot by slot. -/
theorem noSyn_of_queue {s : UtpSock} {lo : Nat} {f : Nat → Option OutgoingPacket}
    (h : Queue NotSyn s lo f) : NoSyn s := by
  intro i p hp
  obtain ⟨n, -, -, -, hn⟩ := h.ring.slot hp
  exact (h.good n p hn).2

/-- A queue that begins past the number of its only SYN has none. -/
theorem notSyn_of_past {s : UtpSock} {lo n₀ lo₁ : Nat} {f f₁ : Nat → Option OutgoingPacket}
    (h : Queue AnyPacket s lo f) (hsyn : Queue (SynAt (UInt16.ofNat n₀)) s lo₁ f₁)
    (hlt : n₀ < lo) (hnear : lo ≤ n₀ + 1024) : Queue NotSyn s lo f := by
  refine h.weaken (fun n p hp _ hty => ?_)
  have hlo := (h.ring.support n p hp).1
  have hlive := h.live n p hp
  have hget := h.get_number hlo hlive
  rw [hp] at hget
  obtain ⟨k, -, -, -, hk⟩ := hsyn.ring.slot hget
  have hnum := (hsyn.good k p hk).2 hty
  rw [(h.good n p hp).1.seq] at hnum
  have hcwp := h.cwp_le
  have heq := SeqNum.eq_of_ofNat_eq hnum (by omega) (by omega)
  omega

/-! ## What an operation can do to a dial -/

/-- Past the handshake of its own side. -/
def Open (st : ConnState) : Prop := st.isConnected = true ∨ st = .synRecv

/-- A packet that has been sent. -/
def Sent (_ : Nat) (p : OutgoingPacket) : Prop := 0 < p.transmissions

/-- The queue only loses packets at its old end. -/
def Drains (s s' : UtpSock) : Prop :=
  ∀ lo f, Queue Sent s lo f → ∃ lo' f', Queue Sent s' lo' f' ∧ lo ≤ lo'
    ∧ lo' + s'.curWindowPackets = lo + s.curWindowPackets

/-- A step that leaves the sending side leaves the dial. -/
theorem Drains.of_view {s s' : UtpSock} (h : txView s' = txView s) : Drains s s' := by
  intro lo f hq
  have hcwp : s'.curWindowPackets = s.curWindowPackets := congrArg TxView.curWindowPackets h
  exact ⟨lo, f, hq.of_view h, Nat.le_refl _, by rw [hcwp]⟩

theorem Drains.trans {s₁ s₂ s₃ : UtpSock} (h : Drains s₁ s₂) (h' : Drains s₂ s₃) :
    Drains s₁ s₃ := by
  intro lo f hq
  obtain ⟨lo₂, f₂, hq₂, hle₂, hend₂⟩ := h lo f hq
  obtain ⟨lo₃, f₃, hq₃, hle₃, hend₃⟩ := h' lo₂ f₂ hq₂
  exact ⟨lo₃, f₃, hq₃, hle₂.trans hle₃, hend₃.trans hend₂⟩

/-- What anything but the answer to a dial does: it opens no socket, leaves the
    queue of a dialling one to its acks and queues no SYN. -/
structure Rides (s s' : UtpSock) : Prop where
  opened : Open s'.state → Open s.state
  dialling : s'.state = .synSent → s.state = .synSent ∧ Drains s s'
  queue : Evolves NotSyn s s'

theorem Rides.trans {s₁ s₂ s₃ : UtpSock} (h : Rides s₁ s₂) (h' : Rides s₂ s₃) : Rides s₁ s₃ where
  opened := fun hopen => h.opened (h'.opened hopen)
  dialling := fun hst =>
    have h₂ := h'.dialling hst
    have h₁ := h.dialling h₂.1
    ⟨h₁.1, h₁.2.trans h₂.2⟩
  queue := Evolves.trans _ _ _ h.queue h'.queue

/-- The states that giving up or a reset leads to. -/
theorem ended_state (r : Bool) :
    (if r then ConnState.destroy else .reset).isConnected = false
      ∧ (if r then ConnState.destroy else .reset) ≠ .synRecv := by
  cases r <;> exact ⟨rfl, nofun⟩

theorem not_open_ended (r : Bool) : ¬ Open (if r then .destroy else .reset) := by
  obtain ⟨hconn, hrecv⟩ := ended_state r
  rintro (h | h)
  · exact nomatch hconn.symm.trans h
  · exact hrecv h

/-- Only a STATE packet opens a dialling socket. -/
theorem open_before {occ : Occasion} {l : Bytes} {m m' : Detached} (h : Act occ l m m')
    (hno : ∀ buf, occ.datagram = some buf → packetType buf = stState → m.sock.state ≠ .synSent)
    (hopen : Open m'.sock.state) : Open m.sock.state := by
  cases h with
  | tx h =>
      cases h with
      | sendPacket => rw [state_sendPacketAt] at hopen; exact hopen
      | ackCum => rw [state_ackCumulative] at hopen; exact hopen
      | ackSel => rw [state_ackPacket] at hopen; exact hopen
      | lose => rw [state_markLost] at hopen; exact hopen
      -- an open socket was open before, except through the handshake
      | established _ _ _ _ hst => exact .inr hst
      | dialed _ buf hinp hty hst => exact absurd hst (hno buf hinp hty)
      | finAcked =>
          -- acking the FIN can only close
          dsimp only at hopen
          cases hreq : m.sock.closeRequested with
          | true =>
              rw [hreq] at hopen
              exact hopen.elim (fun h => nomatch h) (fun h => nomatch h)
          | false => rw [hreq] at hopen; exact hopen
      | becomeFull _ hst => exact .inl (by rw [hst]; rfl)
      | becomeWritable _ hst => exact .inl (by rw [hst]; rfl)
      | _ => exact hopen
  | closing => exact hopen
  | fin => exact hopen
  | closeAcked => exact hopen.elim (fun h => nomatch h) (fun h => nomatch h)
  | abandon => exact hopen.elim (fun h => nomatch h) (fun h => nomatch h)
  | giveUp _ st hst =>
      -- giving up closes, whatever the socket was
      rcases hst with ⟨hst, rfl⟩ | ⟨-, rfl⟩
      · exact .inr hst
      · exact absurd hopen (not_open_ended m.sock.closeRequested)
  | inOrder _ _ _ _ _ _ _ hdrain => rw [(same_drain hdrain).1] at hopen; exact hopen
  | ack => rw [state_sendAck] at hopen; exact hopen
  | schedule =>
      unfold scheduleAck at hopen
      split at hopen <;> exact hopen
  | keepAlive =>
      exact (congrArg Open (state_sendAck ({ m with
        sock := { m.sock with ackNr := m.sock.ackNr - 1 } }) false)).mp hopen
  | reset => exact absurd hopen (not_open_ended m.sock.closeRequested)
  | _ => exact hopen

/-- What one act of the send side does to a dial. -/
theorem drains_txAct {inp : Option Bytes} {l : Bytes} {m m' : Detached} (h : TxAct inp l m m')
    (hst : m.sock.state = .synSent) : Drains m.sock m'.sock := by
  intro lo f hq
  cases h with
  | checkIdle _ hcwp =>
      have hzero : m.sock.curWindow = 0 := by
        rw [hq.bytes, hcwp, Nat.add_zero, Finset.Ico_self, Finset.sum_empty]
      rw [decide_eq_true hzero, check_true]
      exact ⟨lo, f, hq, Nat.le_refl _, rfl⟩
  | sendPacket _ seq =>
      obtain ⟨f', hq', -⟩ := hq.sendPacketAt seq (fun _ _ _ _ => Nat.succ_pos _)
      exact ⟨lo, f', hq', Nat.le_refl _, by rw [(steady_sendPacketAt m seq).cwp]⟩
  -- a dialling socket queues no data
  | push _ _ _ hconn => exact nomatch hconn.symm.trans hst
  | extend _ _ _ _ hconn => exact nomatch hconn.symm.trans hst
  | ackCum _ buf acks hinp hacks =>
      -- only the cumulative ack moves the low end
      obtain ⟨lo', f', hq', hlo, hend, -⟩ := hq.ackCumulative hacks.1
      exact ⟨lo', f', hq', hlo, hend⟩
  | ackSel _ buf sel bits hinp exts w hwalk hsel hwin hbit =>
      obtain ⟨n, f', -, -, -, hq', hcwp, -⟩ := hq.ackSelective hwin
      exact ⟨lo, f', hq', Nat.le_refl _, by rw [hcwp]⟩
  | lose _ seq =>
      obtain ⟨f', hq', -⟩ := hq.markLost seq (fun _ _ _ hp => hp)
      refine ⟨lo, f', hq', Nat.le_refl _, ?_⟩
      unfold markLost
      split
      · rfl
      · split <;> rfl
  | _ => exact ⟨lo, f, hq.of_view rfl, Nat.le_refl _, rfl⟩

/-- What any act does to a dial. -/
theorem drains_act {occ : Occasion} {l : Bytes} {m m' : Detached} (h : Act occ l m m')
    (hst : m.sock.state = .synSent) : Drains m.sock m'.sock := by
  cases h with
  | tx h => exact drains_txAct h hst
  | fin _ hconn =>
      rw [hst] at hconn
      exact nomatch hconn
  | inOrder _ _ _ _ _ _ _ hdrain => exact .of_view (txView_drain hdrain)
  | ack => exact .of_view (txView_sendAck m _)
  | schedule => exact .of_view (by unfold scheduleAck; split <;> rfl)
  | keepAlive => exact .of_view (txView_sendAck _ _)
  | _ => exact .of_view rfl

/-- **ANYTHING BUT A STATE PACKET TO A DIALLING SOCKET.** -/
theorem rides_act {occ : Occasion} {l : Bytes} {m m' : Detached} (h : Act occ l m m')
    (hno : ∀ buf, occ.datagram = some buf → packetType buf = stState → m.sock.state ≠ .synSent) :
    Rides m.sock m'.sock where
  opened := open_before h hno
  dialling := fun hst =>
    have hbefore := Move.synSent (moves_act h) hst
    ⟨hbefore, drains_act h hbefore⟩
  queue := evolves_act closed_notSyn h

/-- The state of a dialled socket whose window began at number `n₀` and now
    begins at number `n`. -/
structure Dialled (n₀ n : Nat) (s : UtpSock) : Prop where
  le : n₀ ≤ n
  opened : Open s.state → (∃ lo f, Queue NotSyn s lo f) ∧ n₀ < n
  dialling : s.state = .synSent → (∃ lo f, Queue Sent s lo f)
    ∧ (s.curWindowPackets = 0 → n₀ < n)

/-- A dial after an operation: the number of the SYN stays, whatever was acked.
    -/
theorem Dialled.rides {n₀ n : Nat} {s s' : UtpSock} (h : Dialled n₀ n s) (hdial : DialInv s)
    (hr : Rides s s') : Dialled n₀ (n + (s'.oldest - s.oldest).toNat) s' where
  le := Nat.le_add_right_of_le h.le
  opened := fun hopen => by
    obtain ⟨⟨lo, f, hq⟩, hlt⟩ := h.opened (hr.opened hopen)
    obtain ⟨lo', f', hq', -⟩ := hr.queue lo f hq
    exact ⟨⟨lo', f', hq'⟩, Nat.lt_add_right _ hlt⟩
  dialling := fun hst => by
    obtain ⟨hbefore, hdrains⟩ := hr.dialling hst
    obtain ⟨⟨lo, f, hq⟩, hzero⟩ := h.dialling hbefore
    obtain ⟨lo', f', hq', hle, hend⟩ := hdrains lo f hq
    refine ⟨⟨lo', f', hq'⟩, fun hcwp => ?_⟩
    by_cases hcwp₀ : s.curWindowPackets = 0
    · exact Nat.lt_add_right _ (hzero hcwp₀)
    · -- the one packet of a dial is gone, and the window moved past it
      have hone := (hdial hbefore).cwp
      have hlo : lo' = lo + 1 := by omega
      have hmoved : s'.oldest - s.oldest = 1 := by
        rw [hq'.oldest_eq, hq.oldest_eq, hlo, ← SeqNum.ofNat_add_one]
        grind
      have hle₀ := h.le
      rw [hmoved]
      exact Nat.lt_succ_of_le hle₀

/-! ## What follows the cumulative ack leaves the window in place -/

structure WindowView where
  seqNr : UInt16
  curWindowPackets : Nat

def windowView (s : UtpSock) : WindowView := ⟨s.seqNr, s.curWindowPackets⟩

/-- Transmitting a packet leaves the window in place. -/
theorem windowView_sendPacketAt (m : Detached) (seq : UInt16) :
    windowView (m.sendPacketAt seq).sock = windowView m.sock := by
  have hsteady := steady_sendPacketAt m seq
  unfold windowView
  rw [hsteady.seqNr, hsteady.cwp]

theorem windowView_flushNagle (m : Detached) :
    windowView m.flushNagle.sock = windowView m.sock := by
  unfold flushNagle
  split
  · split
    · split
      · exact windowView_sendPacketAt m _
      · rfl
    · rfl
  · rfl

theorem windowView_fastTimeoutRetry (m : Detached) :
    windowView m.fastTimeoutRetry.sock = windowView m.sock := by
  unfold fastTimeoutRetry
  split
  · split
    · rfl
    · split
      · exact windowView_sendPacketAt _ _
      · rfl
  · rfl

/-- Taking a packet out of the middle leaves the window in place. -/
theorem windowView_ackPacket (m : Detached) (seq : UInt16) :
    windowView (m.ackPacket seq).1.sock = windowView m.sock := by
  unfold ackPacket
  split
  · rfl
  · split <;> rfl

theorem windowView_sackScan (base : UInt16) (mask : Bytes) (l : List Int) :
    ∀ st : SackScan, windowView (l.foldl (sackStep base mask) st).m.sock
      = windowView st.m.sock := by
  induction l with
  | nil => exact fun _ => rfl
  | cons bits rest ih =>
      intro st
      rw [List.foldl_cons, ih]
      unfold sackStep
      dsimp only
      split
      · split
        · split
          · exact windowView_ackPacket st.m _
          · split <;> rfl
        · rfl
      · rfl

theorem windowView_resendLoop (stack : List UInt16) :
    ∀ (quota : Nat) (m : Detached) (backOff : Bool),
      windowView (resendLoop quota stack m backOff).1.sock = windowView m.sock := by
  induction stack with
  | nil => intro quota m backOff; cases quota <;> rfl
  | cons v rest ih =>
      intro quota m backOff
      cases quota with
      | zero => rfl
      | succ quota =>
          rw [resendLoop]
          split
          · exact ih (quota + 1) m backOff
          · rw [ih]
            exact windowView_sendPacketAt m v

/-- A selective ack leaves the window in place. -/
theorem windowView_selectiveAck (m : Detached) (base : UInt16) (mask : Bytes) :
    windowView (m.selectiveAck base mask).sock = windowView m.sock := by
  unfold selectiveAck
  split
  · rfl
  · exact (windowView_resendLoop _ _ _ _).trans (windowView_sackScan base mask _ _)

theorem windowView_markWritable (m : Detached) :
    windowView m.markWritable.sock = windowView m.sock := by
  unfold markWritable
  split
  · dsimp only
    split
    · unfold isFull
      split <;> rfl
    · rfl
  · rfl

/-- The oldest number is part of the window. -/
theorem oldest_of_windowView {s s' : UtpSock} (h : windowView s' = windowView s) :
    s'.oldest = s.oldest := by
  obtain ⟨hseq, hcwp⟩ := WindowView.mk.inj h
  unfold UtpSock.oldest
  rw [hseq, hcwp]

/-- The part of `process_incoming` between the cumulative ack and the receive
    side. -/
def afterAck (m : Detached) (buf : Bytes) (selack : Option (Nat × Nat)) : Detached :=
  (match selack with
    | some sel => m.flushNagle.fastTimeoutRetry.selectiveAck (ackNr buf + 2) (maskOf buf sel)
    | none => m.flushNagle.fastTimeoutRetry).markWritable

/-- After the cumulative ack the oldest number stays. -/
theorem oldest_afterAck (m : Detached) (buf : Bytes) (selack : Option (Nat × Nat)) :
    (afterAck m buf selack).sock.oldest = m.sock.oldest := by
  refine oldest_of_windowView ?_
  have hretry : windowView m.flushNagle.fastTimeoutRetry.sock = windowView m.sock :=
    (windowView_fastTimeoutRetry _).trans (windowView_flushNagle m)
  unfold afterAck
  rw [windowView_markWritable]
  split
  · exact (windowView_selectiveAck _ _ _).trans hretry
  · exact hretry

/-- What follows the cumulative ack is a path of its own. -/
theorem path_afterAck (m : Detached) {buf exts : Bytes} {w : ExtWalk}
    (hwalk : (skipExtensions buf exts).2 = some w) :
    TxPath (some buf) [] m (afterAck m buf w.selack) := by
  have hretry : TxPath (some buf) [] m m.flushNagle.fastTimeoutRetry :=
    (path_flushNagle m).silent (path_fastTimeoutRetry _ buf)
  unfold afterAck
  refine Steps.silent ?_ (path_markWritable _)
  split
  · rename_i sel hsel
    exact hretry.silent (path_selectiveAck _ buf sel exts w hwalk hsel)
  · exact hretry

/-! ## The answer to a dial -/

/-- What a path of the send side does to the queue. -/
theorem evolves_txPath {ok : Nat → OutgoingPacket → Prop} (hok : ∀ m, Closed ok m)
    {buf : Bytes} {l : Bytes} {m m' : Detached} (h : TxPath (some buf) l m m') :
    Evolves ok m.sock m'.sock :=
  evolves_path hok (@ActPath.ofTx (anyOccasion (some buf)) _ _ _ h)

/-- A socket that is past its dial stays so. -/
theorem past_dial_path {inp : Option Bytes} {l : Bytes} {m m' : Detached} (h : TxPath inp l m m')
    (hst : m.sock.state ≠ .synSent) : m'.sock.state ≠ .synSent :=
  Steps.invariant (P := fun m : Detached => m.sock.state ≠ .synSent)
    (fun _ _ _ ha hm hm' => hm (Move.synSent (@moves_act (anyOccasion inp) _ _ _ (.tx ha)) hm'))
    h hst

/-- The answer to a dial makes the socket writable and connected. -/
theorem advanceState_answered {m : Detached} {buf : Bytes} (acks : Nat)
    (hty : packetType buf = stState) (hst : m.sock.state = .synSent) :
    ∃ m₁ : Detached, m₁.sock = { m.sock with state := .connected }
      ∧ m.advanceState (packetType buf) acks = (m₁.writeEngine []).1 := by
  have hdata : ¬ (packetType buf = stData ∧ m.sock.state = .synRecv) := by
    rintro ⟨-, hrecv⟩
    exact nomatch hst.symm.trans hrecv
  unfold advanceState
  dsimp only
  rw [if_neg hdata, if_pos ⟨hty, hst⟩]
  exact ⟨_, rfl, rfl⟩

theorem advanceState_opens {m : Detached} {buf : Bytes} (acks : Nat)
    (hty : packetType buf = stState) (hst : m.sock.state = .synSent) :
    (m.advanceState (packetType buf) acks).sock.state ≠ .synSent := by
  obtain ⟨m₁, hsock, heq⟩ := advanceState_answered acks hty hst
  rw [heq]
  have hpath : TxPath none _ m₁ (m₁.writeEngine []).1 := (path_writeEngine m₁ []).2.1
  refine past_dial_path hpath ?_
  rw [hsock]
  exact fun h => nomatch h

/-- The state packet that completes a dial queues an empty packet behind what
    is there. -/
theorem advanceState_dial {m : Detached} {buf : Bytes} (acks : Nat) {lo : Nat}
    {f : Nat → Option OutgoingPacket} (hty : packetType buf = stState)
    (hst : m.sock.state = .synSent) (hlast : m.sock.mtu.last ≠ 0)
    (hq : Queue AnyPacket m.sock lo f) :
    ∃ f', Queue AnyPacket (m.advanceState (packetType buf) acks).sock lo f'
      ∧ Grown m.sock.getPacketSize lo m.sock.curWindowPackets
        (m.advanceState (packetType buf) acks).sock.curWindowPackets f f' [] := by
  obtain ⟨m₁, hsock, heq⟩ := advanceState_answered acks hty hst
  have hq₁ : Queue AnyPacket m₁.sock lo f := hq.of_view (by rw [hsock]; rfl)
  obtain ⟨f', hqw, hgrown⟩ := (writes_writeEngine (m := m₁) (by rw [hsock])
    (by rw [hsock]; exact hlast) []).2 lo f hq₁
  rw [List.take_nil, show m₁.sock.getPacketSize = m.sock.getPacketSize by rw [hsock]; rfl,
    show m₁.sock.curWindowPackets = m.sock.curWindowPackets by rw [hsock]] at hgrown
  rw [heq]
  exact ⟨f', hqw, hgrown⟩

/-- The acks of a datagram, up to the cumulative one and from there on. -/
theorem processAck_eq {m m₄ : Detached} {buf : Bytes} {selack : Option (Nat × Nat)}
    (h : (m.measure buf selack (m.sock.acksOf (ackNr buf))).applyAcks buf
      (m.sock.acksOf (ackNr buf)) = m₄.flushNagle.fastTimeoutRetry) :
    m.processAck buf selack = afterAck m₄ buf selack := by
  cases selack with
  | none => exact congrArg markWritable h
  | some sel =>
      exact congrArg
        (fun m => (m.selectiveAck (ackNr buf + 2) (maskOf buf sel)).markWritable) h

/-- The answer to a dial ends it. -/
theorem processAck_opens {m : Detached} {buf exts : Bytes} {w : ExtWalk}
    (hwalk : (skipExtensions buf exts).2 = some w) (hty : packetType buf = stState)
    (hst : m.sock.state = .synSent) : (m.processAck buf w.selack).sock.state ≠ .synSent := by
  obtain ⟨m₁, hquiet, -, -, happly⟩ := applyAcks_eq m buf w.selack
  rw [processAck_eq happly]
  refine past_dial_path (path_afterAck _ hwalk) ?_
  have hst₁ : m₁.sock.state = .synSent := by
    obtain ⟨_, _, _, _, _, rfl⟩ := hquiet
    exact hst
  have hopens := advanceState_opens (m.sock.acksOf (ackNr buf)) hty hst₁
  rw [state_ackCumulative]
  obtain ⟨_, _, _, _, _, heq⟩ := quiet_updateFastResend
    (m₁.advanceState (packetType buf) (m.sock.acksOf (ackNr buf))) (ackNr buf)
  rw [heq]
  exact hopens

/-- An ack of the last number acks the one packet there is. -/
theorem acksOf_syn {s : UtpSock} {a : UInt16} (hone : s.curWindowPackets = 1)
    (hack : a = s.seqNr - 1) : s.acksOf a = 1 := by
  unfold UtpSock.acksOf
  dsimp only
  have hdist : a - (s.seqNr - 1 - UInt16.ofNat s.curWindowPackets) = 1 := by
    rw [hack, hone]
    have : UInt16.ofNat 1 = 1 := rfl
    grind
  rw [hdist, hone]
  decide

/-- A packet that has been sent can be acked. -/
theorem acked_one {f : Nat → Option OutgoingPacket} {lo k : Nat} (h : AckedUpTo f lo 1 k)
    {p : OutgoingPacket} (hp : f lo = some p) (hsent : 0 < p.transmissions) : k = 1 := by
  have hle := h.le
  rcases h.stop with hk | ⟨q, hq, hunsent⟩
  · exact hk
  · by_contra hne
    have hzero : k = 0 := by omega
    subst hzero
    rw [Nat.add_zero, hp] at hq
    obtain rfl := Option.some.inj hq
    omega

/-- **AN ACK OF THE SYN** takes it out of the queue before the dial counts as
    answered. -/
theorem answered {m : Detached} {buf exts : Bytes} {w : ExtWalk} {lo : Nat}
    {f : Nat → Option OutgoingPacket} (hwalk : (skipExtensions buf exts).2 = some w)
    (hty : packetType buf = stState) (hst : m.sock.state = .synSent)
    (hsearched : Searched m.sock) (hq : Queue Sent m.sock lo f)
    (hone : m.sock.curWindowPackets = 1) (hack : ackNr buf = m.sock.seqNr - 1) :
    (∃ lo' f', Queue NotSyn (m.processAck buf w.selack).sock lo' f')
      ∧ 0 < ((m.processAck buf w.selack).sock.oldest - m.sock.oldest).toNat := by
  have hacks : m.sock.acksOf (ackNr buf) = 1 := acksOf_syn hone hack
  obtain ⟨p, hp⟩ := Option.isSome_iff_exists.mp (hq.oldest (by omega))
  have hsent : 0 < p.transmissions := (hq.good lo p hp).2
  have hany : Queue AnyPacket m.sock lo f := hq.weaken (fun _ _ _ _ => trivial)
  have hsyn : Queue (SynAt (UInt16.ofNat lo)) m.sock lo f := by
    refine hq.weaken (fun n q hqn _ _ => ?_)
    have hlo := (hq.ring.support n q hqn).1
    have hlive := hq.live n q hqn
    rw [(hq.good n q hqn).1.seq, show n = lo by omega]
  obtain ⟨m₁, hquiet, hpath₁, -, happly⟩ := applyAcks_eq m buf w.selack
  rw [processAck_eq happly]
  have hsearched₁ : Searched m₁.sock :=
    searched_path (@ActPath.ofTx (anyOccasion (some buf)) _ _ _ hpath₁) hsearched
  have hacks₁ := (acksOf_spec m.sock (ackNr buf)).quiet hquiet
  obtain ⟨hpath₂, hacks₂⟩ := path_advanceState m₁ buf _ hacks₁
  obtain ⟨hst₁, hq₁, hcwp₁⟩ : m₁.sock.state = .synSent ∧ Queue AnyPacket m₁.sock lo f
      ∧ m₁.sock.curWindowPackets = 1 := by
    obtain ⟨_, _, _, _, _, rfl⟩ := hquiet
    exact ⟨hst, hany.of_view rfl, hone⟩
  obtain ⟨f₂, hq₂, hgrown⟩ := advanceState_dial (m.sock.acksOf (ackNr buf)) hty hst₁
    hsearched₁.inRange.last_ne_zero hq₁
  rw [hcwp₁] at hgrown
  rw [hacks] at hpath₂ hacks₂ hq₂ hgrown ⊢
  have hpath := hpath₁.silent hpath₂
  generalize m₁.advanceState (packetType buf) 1 = m₂ at hpath hacks₂ hq₂ hgrown ⊢
  -- the empty packet has been queued behind the SYN, which the ack now removes
  have hsent₂ : ∃ p₂, f₂ lo = some p₂ ∧ 0 < p₂.transmissions := by
    have hlater : Later _ _ (f lo) (f₂ lo) := hgrown.old 0 Nat.one_pos
    rw [hp] at hlater
    generalize f₂ lo = o at hlater
    cases hlater with
    | same _ p₂ hle _ => exact ⟨p₂, rfl, by omega⟩
    | extended _ p₂ _ hunsent => omega
  have hfast := quiet_updateFastResend m₂ (ackNr buf)
  have hpath₃ : TxPath (some buf) [] m (m₂.updateFastResend (ackNr buf)) :=
    hpath.silent (hfast.path (.updateFastResend m₂ buf rfl))
  have hacks₃ := hacks₂.quiet hfast
  have hq₃ : Queue AnyPacket (m₂.updateFastResend (ackNr buf)).sock lo f₂ := by
    obtain ⟨_, _, _, _, _, heq⟩ := hfast
    rw [heq]
    exact hq₂.of_view rfl
  generalize m₂.updateFastResend (ackNr buf) = m₃ at hpath₃ hacks₃ hq₃ ⊢
  obtain ⟨k, lo₄, hacked, hq₄, hle₄, hend₄⟩ := hq₃.ackExactly hacks₃.1
  obtain ⟨p₂, hp₂, hpos⟩ := hsent₂
  have hk : k = 1 := acked_one hacked hp₂ hpos
  have hcwp₃ := hq₃.cwp_le
  have hpath₄ : TxPath (some buf) [] m (ackCumulative 1 m₃) :=
    hpath₃.silent (Steps.single (TxAct.ackCum m₃ buf 1 rfl hacks₃))
  obtain ⟨lo₅, f₅, hsyn₄, -⟩ := evolves_txPath (closed_synAt _) hpath₄ lo f hsyn
  have hnot := notSyn_of_past hq₄ hsyn₄ (by omega) (by omega)
  generalize ackCumulative 1 m₃ = m₄ at hq₄ hend₄ hnot ⊢
  obtain ⟨lo', f', hq', -⟩ := evolves_txPath closed_notSyn (path_afterAck m₄ hwalk) _ _ hnot
  refine ⟨⟨lo', f', hq'⟩, ?_⟩
  rw [oldest_afterAck, hnot.oldest_eq, hq.oldest_eq, SeqNum.toNat_ofNat_sub (by omega)]
  omega

/-! ## Over an operation -/

theorem Rides.refl (s : UtpSock) : Rides s s :=
  ⟨id, fun hst => ⟨hst, .of_view rfl⟩, Evolves.refl s⟩

/-- A datagram that is neither an RST nor a SYN changes at most the socket that
    it is addressed to. -/
theorem lookup_processUdp {ctx : Context} {buf : Bytes} {addr : SocketAddr}
    {firewall : SocketAddr → Bool} {key : Key} {s s' : UtpSock} (hrst : packetType buf ≠ stReset)
    (hsyn : packetType buf ≠ stSyn) (hs : ctx.sockets.lookup key = some s)
    (hs' : (ctx.processUdp buf addr firewall).1.sockets.lookup key = some s') :
    s' = s ∨ key = { addr := addr, recvId := (connId buf).toUInt32 }
      ∧ s' = ((ctx.detach key s).processIncoming buf false).1.sock := by
  have hsame : ctx.sockets.lookup key = some s' → s' = s :=
    fun h => (Option.some.inj (hs.symm.trans h)).symm
  unfold Context.processUdp at hs'
  dsimp only at hs'
  split at hs'
  · exact .inl (hsame hs')
  · split at hs'
    · exact .inl (hsame hs')
    · split at hs'
      · exact .inl (hsame hs')
      · split at hs'
        · -- the connection the datagram is for, if it is known
          unfold Context.withSock at hs'
          split at hs'
          · exact .inl (hsame hs')
          · rename_i sock hsock
            have hsocks := sockets_of_path (@path_processIncoming (anyOccasion (some buf))
              (ctx.detach ⟨addr, (connId buf).toUInt32⟩ sock) buf false rfl)
            rw [lookup_attach] at hs'
            split at hs'
            · -- it is this one, or another
              rename_i hkey
              subst hkey
              obtain rfl := Option.some.inj (hs.symm.trans hsock)
              exact .inr ⟨rfl, (Option.some.inj hs').symm⟩
            · rename_i hkey
              rw [hsocks] at hs'
              exact .inl (hsame (lookup_of_detach hs'))
        · rw [rejectUnknown_sockets] at hs'
          exact .inl (hsame hs')

/-- The operation is a STATE packet that completes the dial of `key` although
    its SYN is outstanding and not acked by it. -/
def Unanswered (key : Key) (ctx : Context) (op : Op) : Prop :=
  ∃ buf addr firewall s, op = .processUdp buf addr firewall
    ∧ key = { addr := addr, recvId := (connId buf).toUInt32 }
    ∧ ctx.sockets.lookup key = some s ∧ FullyProcessed (ctx.detach key s) buf
    ∧ packetType buf = stState ∧ s.state = .synSent
    ∧ 0 < s.curWindowPackets ∧ ackNr buf ≠ s.seqNr - 1

/-- The queue is part of the sending side. -/
theorem queue_of_sendView {ok : Nat → OutgoingPacket → Prop} {s s' : UtpSock} {lo : Nat}
    {f : Nat → Option OutgoingPacket} (hv : sendView s' = sendView s)
    (hsound : s'.windowFault = false) (hq : Queue ok s lo f) : Queue ok s' lo f := by
  obtain ⟨-, hfin, hseq, hcwp, hbytes, hring, -⟩ := SendView.mk.inj hv
  refine hq.of_view ?_
  unfold txView
  rw [hring, hseq, hcwp, hbytes, hfin, hsound, hq.sound]

/-- A datagram that does not get as far as the send queue. -/
theorem Dialled.of_view {n₀ n : Nat} {s s' : UtpSock} (h : Dialled n₀ n s)
    (hv : sendView s' = sendView s) (hsound : s'.windowFault = false) :
    Dialled n₀ (n + (s'.oldest - s.oldest).toNat) s' := by
  obtain ⟨hst, -, hseq, hcwp, -⟩ := SendView.mk.inj hv
  have hsame : s'.oldest - s.oldest = 0 := by
    rw [oldest_of_windowView (show windowView s' = windowView s by
      unfold windowView; rw [hseq, hcwp])]
    exact UInt16.sub_self _
  rw [hsame]
  refine ⟨h.le, fun hopen => ?_, fun hsyn => ?_⟩
  · obtain ⟨⟨lo, f, hq⟩, hlt⟩ := h.opened (hst ▸ hopen)
    exact ⟨⟨lo, f, queue_of_sendView hv hsound hq⟩, hlt⟩
  · obtain ⟨⟨lo, f, hq⟩, hzero⟩ := h.dialling (hst.symm.trans hsyn)
    exact ⟨⟨lo, f, queue_of_sendView hv hsound hq⟩, fun hempty => hzero (hcwp.symm.trans hempty)⟩

/-- A STATE packet for a dialling socket. -/
theorem dialled_state {m : Detached} {buf : Bytes} {n₀ n : Nat} (hdial : DialInv m.sock)
    (hsearched : Searched m.sock) (hst : m.sock.state = .synSent) (hty : packetType buf = stState)
    (hgood : FullyProcessed m buf → 0 < m.sock.curWindowPackets → ackNr buf = m.sock.seqNr - 1)
    (h : Dialled n₀ n m.sock) :
    Dialled n₀ (n + ((m.processIncoming buf false).1.sock.oldest - m.sock.oldest).toNat)
      (m.processIncoming buf false).1.sock := by
  obtain ⟨⟨lo, f, hq⟩, hzero⟩ := h.dialling hst
  have hpath := @path_processIncoming (anyOccasion (some buf)) m buf false rfl
  have hsound : (m.processIncoming buf false).1.sock.windowFault = false := by
    obtain ⟨_, _, hany, -⟩ := evolves_path closed_anyPacket hpath lo f
      (hq.weaken (fun _ _ _ _ => trivial))
    exact hany.sound
  rcases processIncoming_cases (m := m) buf with ⟨-, hview⟩ | ⟨w, hkind, hrange, hlen, hwalk, heq⟩
  · exact h.of_view hview hsound
  · by_cases hoff : seqOffset (admitted m buf).sock (seqNr buf) < reorderBufferMaxSize
    · have hview := sendView_processChecked hwalk hoff
      rw [← heq] at hview
      have hst' : (m.processIncoming buf false).1.sock.state ≠ .synSent := by
        rw [show (m.processIncoming buf false).1.sock.state = _ from congrArg SendView.state hview]
        exact processAck_opens hwalk hty hst
      by_cases hcwp : m.sock.curWindowPackets = 0
      · -- the SYN has been acked before
        refine ⟨Nat.le_add_right_of_le h.le, fun _ => ⟨?_, Nat.lt_add_right _ (hzero hcwp)⟩,
          fun hsyn => absurd hsyn hst'⟩
        have hnot : Queue NotSyn m.sock lo f := by
          refine hq.weaken (fun n p hp _ => ?_)
          have hlo := (hq.ring.support n p hp).1
          have hlive := hq.live n p hp
          omega
        obtain ⟨lo', f', hq', -⟩ := evolves_path closed_notSyn hpath lo f hnot
        exact ⟨lo', f', hq'⟩
      · have hone := (hdial hst).cwp
        have hproc : FullyProcessed m buf := by
          refine ⟨hkind, ?_, hlen, by rw [hwalk]; rfl, hoff⟩
          refine Bool.eq_false_iff.mpr (fun hout => hrange ⟨.inr ?_, hout⟩)
          rw [hst]
          exact fun h => nomatch h
        obtain ⟨⟨lo', f', hnot⟩, hmoved⟩ := @answered (admitted m buf) buf _ w lo f hwalk hty hst
          hsearched (hq.of_view rfl) (show m.sock.curWindowPackets = 1 by omega)
          (hgood hproc (by omega))
        have hold : (m.processIncoming buf false).1.sock.oldest
            = ((admitted m buf).processAck buf w.selack).sock.oldest := by
          obtain ⟨-, -, hseq, hcwp, -⟩ := SendView.mk.inj hview
          exact oldest_of_windowView (by unfold windowView; rw [hseq, hcwp])
        have hlt : 0 < ((m.processIncoming buf false).1.sock.oldest - m.sock.oldest).toNat := by
          rw [hold]
          exact hmoved
        have hle := h.le
        exact ⟨by omega, fun _ => ⟨⟨lo', f', queue_of_sendView hview hsound hnot⟩, by omega⟩,
          fun hsyn => absurd hsyn hst'⟩
    · have hview := (processChecked_outside w (Nat.not_lt.mp hoff)).2
      rw [← heq] at hview
      exact h.of_view (hview.trans (sendView_admitted m buf)) hsound

/-- **ONE OPERATION KEEPS A DIAL WHOLE** unless it brings an answer that acks
    nothing. -/
theorem dialled_step {ctx ctx' : Context} {op : Op} {key : Key} {s s' : UtpSock} {n₀ n : Nat}
    (hreach : Reachable ctx) (hgood : ¬ Unanswered key ctx op) (hstep : ctx.step op = some ctx')
    (hs : ctx.sockets.lookup key = some s) (hs' : ctx'.sockets.lookup key = some s')
    (huser : s'.user = s.user) (h : Dialled n₀ n s) :
    Dialled n₀ (n + (s'.oldest - s.oldest).toNat) s' := by
  have hdial := reachable_dialInv hreach key s hs
  by_cases hanswer : ∃ buf, (Op.occasion op).datagram = some buf ∧ packetType buf = stState
      ∧ s.state = .synSent
  · obtain ⟨buf, hdat, hty, hst⟩ := hanswer
    cases op with
    | processUdp buf' addr firewall =>
        obtain rfl : buf' = buf := Option.some.inj hdat
        obtain rfl := Option.some.inj hstep
        rcases lookup_processUdp (by rw [hty]; decide) (by rw [hty]; decide) hs hs' with
          rfl | ⟨hkey, rfl⟩
        · exact h.rides hdial (Rides.refl _)
        · refine dialled_state (m := ctx.detach key s) hdial
            (reachable_searched hreach key s hs) hst hty (fun hproc hcwp => ?_) h
          by_contra hack
          exact hgood ⟨buf', addr, firewall, s, rfl, hkey, hs, hproc, hty, hst, hcwp, hack⟩
    | _ => exact nomatch hdat
  · -- nothing answers the dial here, and what an act does is all there is
    have hno : ∀ buf, (Op.occasion op).datagram = some buf → packetType buf = stState →
        s.state ≠ .synSent := fun buf hdat hty hst => hanswer ⟨buf, hdat, hty, hst⟩
    have htraces : Traces (fun s s' => (∀ buf, (Op.occasion op).datagram = some buf →
        packetType buf = stState → s.state ≠ .synSent) → Rides s s') ctx ctx' := by
      refine EnginePath.traces (fun s _ => Rides.refl s) (fun s₁ s₂ s₃ h₁₂ h₂₃ hno => ?_)
        (fun _ _ _ ha => rides_act ha) (path_step hstep)
      have hfirst := h₁₂ hno
      exact hfirst.trans (h₂₃ (fun buf hdat hty hst => hno buf hdat hty (hfirst.dialling hst).1))
    exact h.rides hdial (Traces.same htraces hreach hs hs' huser hno)

/-! ## The result -/

/-- Operations over which the socket of `key` stays the same, none of them bad,
    and the number its window begins with, counted on without wrapping. -/
inductive OldEnd (bad : Context → Op → Prop) (key : Key) :
    Context → Nat → Context → Nat → Prop where
  | refl (ctx : Context) (n : Nat) : OldEnd bad key ctx n ctx n
  | step {ctx₀ ctx ctx' : Context} {n₀ n : Nat} {s s' : UtpSock} (op : Op)
      (h : OldEnd bad key ctx₀ n₀ ctx n) (hgood : ¬ bad ctx op) (hstep : ctx.step op = some ctx')
      (hs : ctx.sockets.lookup key = some s) (hs' : ctx'.sockets.lookup key = some s')
      (huser : s'.user = s.user) :
      OldEnd bad key ctx₀ n₀ ctx' (n + (s'.oldest - s.oldest).toNat)

/-- The SYN of a dial, once it is sent. -/
theorem sent_syn {m : Detached} {t : UtpSock}
    (hv : txView m.sock = ⟨CircularBuffer.new.put t.seqNr.toNat (some (Context.synPacket t)),
      t.seqNr + 1, 1, 0, false, false⟩) :
    (∃ lo f, Queue Sent (m.sendPacketAt (m.sock.seqNr - 1)).sock lo f)
      ∧ (m.sendPacketAt (m.sock.seqNr - 1)).sock.curWindowPackets = 1
      ∧ (m.sendPacketAt (m.sock.seqNr - 1)).sock.oldest = t.seqNr
      ∧ (m.sendPacketAt (m.sock.seqNr - 1)).sock.outbuf.get t.seqNr.toNat
        = some (m.sentPacket (Context.synPacket t)) := by
  obtain ⟨hring, hseq, hcwp, -⟩ := TxView.mk.inj hv
  have hnum : m.sock.seqNr - 1 = t.seqNr := by
    rw [hseq]
    grind
  have hget : m.sock.outbuf.get t.seqNr.toNat = some (Context.synPacket t) := by
    rw [hring, CircularBuffer.get_put_self]
  -- sending the SYN changes its slot and nothing of the window
  have hsteady := steady_sendPacketAt m t.seqNr
  rw [hnum]
  have hout : (m.sendPacketAt t.seqNr).sock.outbuf
      = m.sock.outbuf.put t.seqNr.toNat (some (m.sentPacket (Context.synPacket t))) := by
    rw [sendPacketAt_sock hget]
  have hsyn : Queue AnyPacket m.sock t.seqNr.toNat
      (Function.update (fun _ => none) t.seqNr.toNat (some (Context.synPacket t))) :=
    queue_syn trivial hv
  obtain ⟨f', hq, -⟩ := hsyn.sendPacketAt t.seqNr (fun _ _ _ _ => trivial)
  refine ⟨⟨_, f', hq.weaken (fun n p hp _ => ?_)⟩, hsteady.cwp.trans hcwp, ?_, ?_⟩
  · -- the only packet is the SYN, and it has been sent once
    have hslot := hq.get_number (hq.ring.support n p hp).1 (hq.live n p hp)
    rw [hp, hout, hring, CircularBuffer.get_put, CircularBuffer.get_put, CircularBuffer.size_put]
      at hslot
    split at hslot
    · obtain rfl := Option.some.inj hslot
      exact Nat.succ_pos _
    · rw [CircularBuffer.get_new] at hslot
      exact nomatch hslot
  · unfold UtpSock.oldest
    rw [hsteady.seqNr, hsteady.cwp, hcwp, ← hnum]
    rfl
  · rw [hout, CircularBuffer.get_put_self]

/-- A dial leaves a window of one packet, its SYN, which has been sent. -/
theorem connect_dialled {ctx ctx₁ : Context} {addr : SocketAddr} {fuel : Nat} {key : Key}
    {user : UserId} (h : ctx.connect addr fuel = some (ctx₁, key, user)) (n : Nat) :
    ∃ s p, ctx₁.sockets.lookup key = some s ∧ s.user = user ∧ s.curWindowPackets = 1
      ∧ s.outbuf.get s.oldest.toNat = some p ∧ packetType p.data = stSyn ∧ Dialled n n s := by
  unfold Context.connect at h
  split at h
  · exact nomatch h
  · rename_i seed rng hseed
    obtain ⟨t, -, hv⟩ := txView_dialled ctx addr seed rng
    have hstate : (ctx.dialled addr seed rng).sock.state = .synSent := rfl
    dsimp only at h
    generalize ctx.dialled addr seed rng = m at hv hstate h
    obtain ⟨hctx, hrest⟩ := Prod.mk.inj (Option.some.inj h)
    obtain ⟨hkey, huser⟩ := Prod.mk.inj hrest
    obtain ⟨⟨lo, f, hq⟩, hcwp, hold, hget⟩ := sent_syn hv
    have hst := (state_sendPacketAt m (m.sock.seqNr - 1)).trans hstate
    -- what the table gets is the socket after the SYN went out
    generalize m.sendPacketAt (m.sock.seqNr - 1) = m₁ at hctx hkey huser hq hcwp hold hget hst
    refine ⟨m₁.sock, m.sentPacket (Context.synPacket t), ?_, huser, hcwp, ?_, ?_,
      Nat.le_refl n, fun hopen => ?_, fun _ => ⟨⟨lo, f, hq⟩, fun hzero => ?_⟩⟩
    · rw [← hctx, hkey, lookup_attach, if_pos rfl]
    · rw [hold]
      exact hget
    · rw [kind_sentPacket m (synPacket_ok t)]
      exact congrArg Hdr.packetType (hdr_synPacket t)
    · rw [hst] at hopen
      exact hopen.elim (fun h => nomatch h) (fun h => nomatch h)
    · omega

theorem OldEnd.dialled {key : Key} {ctx₀ ctx : Context} {n₀ n : Nat}
    (h : OldEnd (Unanswered key) key ctx₀ n₀ ctx n) (hreach : Reachable ctx₀)
    (hbegin : ∀ s, ctx₀.sockets.lookup key = some s → Dialled n₀ n₀ s) :
    Reachable ctx ∧ ∀ s, ctx.sockets.lookup key = some s → Dialled n₀ n s := by
  induction h with
  | refl => exact ⟨hreach, hbegin⟩
  | step op _ hgood hstep hs hs' huser ih =>
      obtain ⟨hr, hdialled⟩ := ih hbegin
      refine ⟨hr.step op hstep, fun s hlook => ?_⟩
      obtain rfl := Option.some.inj (hs'.symm.trans hlook)
      exact dialled_step hr hgood hstep hs hs' huser (hdialled _ hs)

/-- **AN ESTABLISHED DIAL HAS GOT ITS SYN ACKED**, in every run in which no
    STATE packet completes the dial without acking the SYN: the window has moved
    past the number it began with, which was the SYN's, and no SYN is left in
    the queue. -/
theorem established_acked {ctx₀ ctx₁ ctx : Context} {addr : SocketAddr} {fuel : Nat} {key : Key}
    {user : UserId} (hreach : Reachable ctx₀)
    (hdial : ctx₀.connect addr fuel = some (ctx₁, key, user)) {n₀ n : Nat}
    (hrun : OldEnd (Unanswered key) key ctx₁ n₀ ctx n) :
    (∃ s₁ p, ctx₁.sockets.lookup key = some s₁ ∧ s₁.user = user ∧ s₁.curWindowPackets = 1
      ∧ s₁.outbuf.get s₁.oldest.toNat = some p ∧ packetType p.data = stSyn)
    ∧ ∀ s, ctx.sockets.lookup key = some s → s.state.isConnected = true → NoSyn s ∧ n₀ < n := by
  obtain ⟨s₁, p, hs₁, huser, hcwp, hget, hty, hbegin⟩ := connect_dialled hdial n₀
  refine ⟨⟨s₁, p, hs₁, huser, hcwp, hget, hty⟩, fun s hs hconn => ?_⟩
  have hreach₁ : Reachable ctx₁ :=
    hreach.step (.connect addr fuel) (Option.map_eq_some_iff.mpr ⟨_, hdial, rfl⟩)
  obtain ⟨-, hdialled⟩ := hrun.dialled hreach₁ (fun s hs => by
    obtain rfl := Option.some.inj (hs₁.symm.trans hs)
    exact hbegin)
  obtain ⟨⟨lo, f, hq⟩, hlt⟩ := (hdialled s hs).opened (.inl hconn)
  exact ⟨noSyn_of_queue hq, hlt⟩

/-- A dial of the first engine, and the operation `op` after it. -/
def dialThen (op : Op) : Option (Key × UtpSock × UtpSock) :=
  ((freshEngine 0).connect peerAddr 1).bind (fun r =>
    (r.1.sockets.lookup firstKey).bind (fun s =>
      (r.1.step op).bind (fun ctx =>
        (ctx.sockets.lookup firstKey).map (fun s' => (r.2.1, s, s')))))

/-- What an evaluated dial says about its socket. -/
theorem dialThen_spec {op : Op} {Q : UtpSock → UtpSock → Prop} [∀ s s', Decidable (Q s s')]
    (h : (dialThen op).map (fun r => decide (r.1 = firstKey ∧ r.2.2.user = r.2.1.user
      ∧ Q r.2.1 r.2.2)) = some true) :
    ∃ ctx₁ user s ctx s', (freshEngine 0).connect peerAddr 1 = some (ctx₁, firstKey, user)
      ∧ ctx₁.sockets.lookup firstKey = some s ∧ ctx₁.step op = some ctx
      ∧ ctx.sockets.lookup firstKey = some s' ∧ s'.user = s.user ∧ Q s s' := by
  obtain ⟨r, hr, hdec⟩ := Option.map_eq_some_iff.mp h
  obtain ⟨hkey, huser, hQ⟩ := of_decide_eq_true hdec
  obtain ⟨⟨ctx₁, key, user⟩, hconn, hr⟩ := Option.bind_eq_some_iff.mp hr
  obtain ⟨s, hs, hr⟩ := Option.bind_eq_some_iff.mp hr
  obtain ⟨ctx, hstep, hr⟩ := Option.bind_eq_some_iff.mp hr
  obtain ⟨s', hs', rfl⟩ := Option.map_eq_some_iff.mp hr
  obtain rfl : key = firstKey := hkey
  exact ⟨ctx₁, user, s, ctx, s', hconn, hs, hstep, hs', huser, hQ⟩

/-- A dial that is answered with an ack of its SYN. -/
theorem established_acked_answer :
    ∃ ctx₁ user ctx s n, (freshEngine 0).connect peerAddr 1 = some (ctx₁, firstKey, user)
      ∧ OldEnd (Unanswered firstKey) firstKey ctx₁ 26100 ctx n
      ∧ ctx.sockets.lookup firstKey = some s ∧ s.state.isConnected = true
      ∧ NoSyn s ∧ 26100 < n := by
  obtain ⟨ctx₁, user, s₁, ctx, s, hconn, hs₁, hstep, hs, huser, hseq, hstate⟩ :=
    @dialThen_spec (arrives (synAck 0xcdaf 26100))
      (fun s s' => s.seqNr - 1 = 26100 ∧ s'.state.isConnected = true) _ (by decide +kernel)
  have hgood : ¬ Unanswered firstKey ctx₁ (arrives (synAck 0xcdaf 26100)) := by
    rintro ⟨buf, addr, firewall, s, hop, -, hlook, -, -, -, -, hack⟩
    obtain ⟨rfl, -, -⟩ := Op.processUdp.inj hop
    obtain rfl := Option.some.inj (hs₁.symm.trans hlook)
    exact hack (by rw [hseq]; decide +kernel)
  have hrun : OldEnd (Unanswered firstKey) firstKey ctx₁ 26100 ctx _ :=
    (OldEnd.refl ctx₁ 26100).step _ hgood hstep hs₁ hs huser
  obtain ⟨hnosyn, hlt⟩ := (established_acked (.new _ _ _ _ _) hconn hrun).2 s hs hstate
  exact ⟨ctx₁, user, ctx, s, _, hconn, hrun, hs, hstate, hnosyn, hlt⟩

/-- A STATE packet that acks the number before the SYN's establishes the
    connection, with the SYN still in the queue. -/
theorem established_unacked :
    ¬ ∀ (ctx₀ ctx₁ ctx : Context) (addr : SocketAddr) (fuel : Nat) (key : Key) (user : UserId)
      (n₀ n : Nat) (s : UtpSock), Reachable ctx₀ →
      ctx₀.connect addr fuel = some (ctx₁, key, user) →
      OldEnd (fun _ _ => False) key ctx₁ n₀ ctx n → ctx.sockets.lookup key = some s →
      s.state.isConnected = true → NoSyn s ∧ n₀ < n := by
  intro hall
  obtain ⟨ctx₁, user, s₁, ctx, s, hconn, hs₁, hstep, hs, huser, hstate, hsyn⟩ :=
    @dialThen_spec (arrives (synAck 0xcdaf 26099))
      (fun _ s' => s'.state.isConnected = true
        ∧ (s'.outbuf.get 26100).map (fun p => packetType p.data) = some stSyn) _
      (by decide +kernel)
  obtain ⟨p, hp, hty⟩ := Option.map_eq_some_iff.mp hsyn
  exact (hall _ ctx₁ ctx _ _ _ user 26100 _ s (.new _ _ _ _ _) hconn
    ((OldEnd.refl ctx₁ 26100).step _ id hstep hs₁ hs huser) hs hstate).1 26100 p hp hty

end UtpHandshake
