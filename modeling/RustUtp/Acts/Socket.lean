import RustUtp.Acts.Frame

/-! # What a socket can do

    `Act` adds to the sending acts everything else an operation of the engine
    does to the socket it runs on: closing, giving up, the handshake's ack
    number, receiving, and acks.  Each operation is a path of acts. -/

namespace UtpActs

open UtpCircular UtpPacket UtpUtil UtpConnShared UtpEngine UtpEngine.Detached LabelledPath

/-- What an operation runs on: the datagram being processed, if any, whether it
    issues deferred acks, and whether it may tear sockets down. -/
structure Occasion where
  datagram : Option Bytes
  issuing : Bool
  tearing : Bool

/-- The occasion of no operation in particular: every act of it may happen. -/
def anyOccasion (datagram : Option Bytes) : Occasion := ⟨datagram, true, true⟩

/-- The FIN in the queue; from here on nothing else is queued. -/
def queueFin (m : Detached) : Detached :=
  (({ m with sock := { m.sock with finSent := true } } : Detached).check
    (m.sock.curWindowPackets < outgoingBufferMaxSize)).pushPacket stFin 0 []

/-- A datagram that passed the header checks and is not just a state packet,
    with its payload. -/
structure Accepted (occ : Occasion) (buf data : Bytes) : Prop where
  datagram : occ.datagram = some buf
  carries : packetType buf ≠ stState
  body : ∃ exts w, (skipExtensions buf exts).2 = some w ∧ data = buf.drop w.dataStart

/-- Why a socket acks right now. -/
inductive AckCause (occ : Occasion) (m : Detached) : Prop where
  | windowGrew (h : m.getRcvWindow > m.sock.lastRcvWin)
  | synack (buf : Bytes) (h : occ.datagram = some buf) (hty : packetType buf = stSyn)
  | due (h : occ.issuing = true)

/-- Why a socket defers an ack. -/
inductive DeferCause (occ : Occasion) (m : Detached) : Prop where
  | answers (buf : Bytes) (h : occ.datagram = some buf) (hty : packetType buf ≠ stState)
  | windowGrew (h : m.getRcvWindow > m.sock.lastRcvWin)

/-- One act of the loop that drains the reorder buffer. -/
inductive DrainAct : Bytes → Detached → Detached → Prop where
  | drain (m : Detached) (p : Bytes) (hst : m.sock.state.isConnected = true)
      (hcount : m.sock.reorderCount ≠ 0)
      (hget : m.sock.inbuf.get (m.sock.ackNr.toNat + 1) = some p) :
      DrainAct [] m (m.drainNext p)
  | reach (m : Detached) (hst : m.sock.state.isConnected = true)
      (hnew : m.sock.gotFinReached = false) (hfin : m.sock.gotFin = true)
      (heof : m.sock.eofPkt = m.sock.ackNr) : DrainAct [] m m.markFinReached
  | ackFin (m : Detached) (hfin : m.sock.gotFinReached = true)
      (heof : m.sock.eofPkt = m.sock.ackNr) : DrainAct [] m (m.sendAck false)
  | dropStragglers (m : Detached) (hfin : m.sock.gotFinReached = true)
      (heof : m.sock.eofPkt = m.sock.ackNr) :
      DrainAct [] m { m with sock := { m.sock with reorderCount := 0 } }

/-- A path of such acts. -/
abbrev DrainPath : Bytes → Detached → Detached → Prop := Steps DrainAct

/-- The reorder buffer has nothing to hand over. -/
def Drained (s : UtpSock) : Prop :=
  s.reorderCount = 0 ∨ s.inbuf.get (s.ackNr.toNat + 1) = none

/-- One act of a socket. -/
inductive Act (occ : Occasion) : Bytes → Detached → Detached → Prop where
  | tx {l : Bytes} {m m' : Detached} (h : TxAct occ.datagram l m m') : Act occ l m m'
  | closing (m : Detached) (hst : m.sock.state.isConnected = true) :
      Act occ [] m
        { m with sock := { m.sock with readShutdown := true, closeRequested := true } }
  | fin (m : Detached) (hst : m.sock.state.isConnected = true)
      (hfin : m.sock.finSent = false) (harm : m.sock.curWindowPackets = 0 → TimerSet m)
      (hwin : m.sock.lastRcvWin = m.getRcvWindow) :
      Act occ [] m (queueFin m)
  | closeAcked (m : Detached) (hst : m.sock.state.isConnected = true)
      (hreq : m.sock.closeRequested = true) (hack : m.sock.finSentAcked = true) :
      Act occ [] m { m with sock := { m.sock with state := .destroy } }
  | abandon (m : Detached) (hst : m.sock.state.isConnected = false) :
      Act occ [] m { m with sock := { m.sock with state := .destroy } }
  | giveUp (m : Detached) (st : ConnState)
      (hst : m.sock.state = .synRecv ∧ st = .destroy
        ∨ (m.sock.state = .synSent ∨ m.sock.state.isConnected = true)
          ∧ st = if m.sock.closeRequested then .destroy else .reset) :
      Act occ [] m
        (({ m with sock := { m.sock with state := st } }).notify (·.onError .timedOut))
  | noteSyn (m : Detached) (buf : Bytes) (hdat : occ.datagram = some buf)
      (hst : m.sock.state = .synSent) (hlen : headerSize ≤ buf.length)
      (hrange : m.sock.ackOutOfRange (ackNr buf) = false) :
      Act occ [] m { m with sock := { m.sock with ackNr := seqNr buf - 1 } }
  | noteFin (m : Detached) (buf data : Bytes) (hacc : Accepted occ buf data)
      (hst : m.sock.state.isConnected = true) (hty : packetType buf = stFin)
      (hnew : m.sock.gotFin = false)
      (hoff : seqOffset m.sock (seqNr buf) < reorderBufferMaxSize) :
      Act occ [] m { m with sock := { m.sock with gotFin := true, eofPkt := seqNr buf } }
  | inOrder (m m' : Detached) (buf data : Bytes) (hacc : Accepted occ buf data)
      (hst : m.sock.state.isConnected = true)
      (hoff : seqOffset m.sock (seqNr buf) = 0)
      (hdrain : DrainPath [] (m.acceptNext data) m') (hdone : Drained m'.sock) :
      Act occ [] m m'
  | growIn (m : Detached) (buf data : Bytes) (hacc : Accepted occ buf data)
      (hst : m.sock.state.isConnected = true)
      (hpos : 0 < seqOffset m.sock (seqNr buf))
      (hoff : seqOffset m.sock (seqNr buf) < reorderBufferMaxSize) :
      Act occ [] m (m.growInbuf (seqNr buf) (seqOffset m.sock (seqNr buf)))
  | store (m : Detached) (buf data : Bytes) (hacc : Accepted occ buf data)
      (hst : m.sock.state.isConnected = true)
      (hpos : 0 < seqOffset m.sock (seqNr buf))
      (hoff : seqOffset m.sock (seqNr buf) < reorderBufferMaxSize)
      (hfits : seqOffset m.sock (seqNr buf) + 1 < m.sock.inbuf.size)
      (hfree : m.sock.inbuf.get (seqNr buf).toNat = none) :
      Act occ [] m (m.storePacket (seqNr buf) data)
  | ack (m : Detached) (synack : Bool) (hcause : AckCause occ m) :
      Act occ [] m (m.sendAck synack)
  | unlist (m : Detached) (hdue : occ.issuing = true) :
      Act occ [] m { m with sock := { m.sock with inAckList := false } }
  | schedule (m : Detached) (hcause : DeferCause occ m) : Act occ [] m m.scheduleAck
  | keepAlive (m : Detached) (hst : m.sock.state.isConnected = true)
      (hfin : m.sock.finSent = false) : Act occ [] m m.sendKeepAlive
  | reset (m : Detached) (buf : Bytes) (hdat : occ.datagram = some buf)
      (hty : packetType buf = stReset) : Act occ [] m (Context.resetSock m)

/-- A path of acts. -/
abbrev ActPath (occ : Occasion) : Bytes → Detached → Detached → Prop := Steps (Act occ)

variable {occ : Occasion}

/-- Sending acts are acts. -/
theorem ActPath.ofTx {l : Bytes} {m m' : Detached} (h : TxPath occ.datagram l m m') :
    ActPath occ l m m' := Steps.mono (fun _ _ _ => .tx) h

/-- Handing over bytes is a matter of the cell. -/
theorem deliver_sock (m : Detached) (data : Bytes) : (m.deliver data).sock = m.sock := by
  unfold deliver
  split <;> rfl

/-- Accepting the packet that was expected moves the ack number by one. -/
theorem acceptNext_sock (m : Detached) (data : Bytes) :
    (m.acceptNext data).sock = { m.sock with ackNr := m.sock.ackNr + 1 } := by
  unfold acceptNext
  dsimp only
  rw [deliver_sock]

/-- Draining a packet empties its slot and moves the ack number by one. -/
theorem drainNext_sock (m : Detached) (p : Bytes) :
    (m.drainNext p).sock =
      { m.sock with
        inbuf := m.sock.inbuf.put (m.sock.ackNr.toNat + 1) none
        ackNr := m.sock.ackNr + 1
        reorderCount := m.sock.reorderCount - 1 } := by
  unfold drainNext
  dsimp only
  rw [acceptNext_sock]

/-- Who a connection is, and the receive buffer it was created with. -/
structure Ident where
  key : Key
  user : UserId
  connIdRecv : UInt32
  connIdSend : UInt32
  optRcvbuf : Nat

def ident (s : UtpSock) : Ident := ⟨s.key, s.user, s.connIdRecv, s.connIdSend, s.optRcvbuf⟩

/-- An ack leaves the identity. -/
theorem ident_sendAck (m : Detached) (synack : Bool) :
    ident (m.sendAck synack).sock = ident m.sock := by
  unfold sendAck
  rw [ackListRemove_sock, sendData_sock]
  rfl

/-- No act of the send side changes whose socket this is. -/
theorem TxAct.ident_eq {inp : Option Bytes} {l : Bytes} {m m' : Detached}
    (h : TxAct inp l m m') : ident m'.sock = ident m.sock :=
  congrArg (fun v : RxView => Ident.mk v.key v.user v.connIdRecv v.connIdSend v.optRcvbuf)
    h.rxView_eq

theorem ident_acceptNext (m : Detached) (data : Bytes) :
    ident (m.acceptNext data).sock = ident m.sock := by
  rw [acceptNext_sock]
  rfl

/-- No act of a drain does. -/
theorem DrainAct.ident_eq {l : Bytes} {m m' : Detached} (h : DrainAct l m m') :
    ident m'.sock = ident m.sock := by
  cases h with
  | drain => rw [drainNext_sock]; rfl
  | reach => rfl
  | ackFin => exact ident_sendAck m _
  | dropStragglers => rfl

/-- A relation that the in-order packet and every round of the drain loop
    respect. -/
theorem DrainPath.lift {S : Detached → Detached → Prop} (hrefl : ∀ m, S m m)
    (htrans : ∀ a b c, S a b → S b c → S a c)
    (hstep : ∀ l a b, DrainAct l a b → S a b) {m m' : Detached} {data : Bytes}
    (hnext : S m (m.acceptNext data)) (h : DrainPath [] (m.acceptNext data) m') : S m m' :=
  htrans _ _ _ hnext (Steps.lift hrefl htrans hstep h)

/-- **A CONNECTION KEEPS ITS IDENTITY.** -/
theorem Act.ident_eq {l : Bytes} {m m' : Detached} (h : Act occ l m m') :
    ident m'.sock = ident m.sock := by
  cases h with
  | tx h => exact h.ident_eq
  | inOrder _ _ _ _ _ _ _ hdrain =>
      exact DrainPath.lift (S := fun a b : Detached => ident b.sock = ident a.sock)
        (fun _ => rfl) (fun _ _ _ hab hbc => hbc.trans hab) (fun _ _ _ h => h.ident_eq)
        (ident_acceptNext m _) hdrain
  | ack => exact ident_sendAck m _
  | schedule => unfold scheduleAck; split <;> rfl
  | keepAlive => exact ident_sendAck _ _
  | _ => rfl

/-- **THE IDENTITY OF A SOCKET** is the same after any acts. -/
theorem ActPath.ident_eq {l : Bytes} {m m' : Detached} (h : ActPath occ l m m') :
    ident m'.sock = ident m.sock :=
  Steps.lift (S := fun a b : Detached => ident b.sock = ident a.sock) (fun _ => rfl)
    (fun _ _ _ hab hbc => hbc.trans hab) (fun _ _ _ hstep => hstep.ident_eq) h

/-- Handing over bytes leaves all but the own cell. -/
theorem surroundings_deliver (m : Detached) (data : Bytes) :
    surroundings (m.deliver data).ctx = surroundings m.ctx := by
  unfold deliver
  split <;> rfl

/-- A drain leaves the surroundings. -/
theorem DrainAct.surroundings_eq {l : Bytes} {m m' : Detached} (h : DrainAct l m m') :
    surroundings m'.ctx = surroundings m.ctx := by
  cases h with
  | drain => exact surroundings_deliver _ _
  | reach => rfl
  | ackFin => exact surroundings_sendAck m _
  | dropStragglers => rfl

/-- **EVERY ACT** leaves the surroundings of the socket. -/
theorem Act.surroundings_eq {l : Bytes} {m m' : Detached} (h : Act occ l m m') :
    surroundings m'.ctx = surroundings m.ctx := by
  cases h with
  | tx h => exact h.surroundings_eq
  | inOrder _ _ _ _ _ _ _ hdrain =>
      exact DrainPath.lift (S := fun a b : Detached => surroundings b.ctx = surroundings a.ctx)
        (fun _ => rfl) (fun _ _ _ hab hbc => hbc.trans hab) (fun _ _ _ h => h.surroundings_eq)
        (surroundings_deliver m _) hdrain
  | ack => exact surroundings_sendAck m _
  | schedule => unfold scheduleAck; split <;> rfl
  | keepAlive => exact surroundings_sendAck _ _
  | _ => rfl

/-! ## The receive side -/

/-- An ack leaves the state. -/
theorem state_sendAck (m : Detached) (synack : Bool) :
    (m.sendAck synack).sock.state = m.sock.state := by
  unfold sendAck
  rw [ackListRemove_sock, sendData_sock]
  rfl

/-- Reaching the FIN marks it, acks it and drops the stragglers. -/
theorem path_reachFin (m : Detached) (hst : m.sock.state.isConnected = true) :
    DrainPath [] m m.reachFin ∧ m.reachFin.sock.state = m.sock.state
      ∧ m.reachFin.sock.reorderCount ≤ m.sock.reorderCount := by
  unfold reachFin
  split
  · rename_i h
    have hview := rxView_sendAck m.markFinReached false
    have hreach := Steps.single (DrainAct.reach m hst h.1 h.2.1 h.2.2)
    have hack := Steps.single (DrainAct.ackFin m.markFinReached rfl h.2.2)
    refine ⟨(hreach.silent hack).silent (Steps.single (.dropStragglers _ ?_ ?_)), ?_,
      Nat.zero_le _⟩
    · exact congrArg RxView.gotFinReached hview
    · exact (congrArg RxView.eofPkt hview).trans
        (h.2.2.trans (congrArg RxView.ackNr hview).symm)
    · exact state_sendAck m.markFinReached false
  · exact ⟨Steps.refl m, rfl, Nat.le_refl _⟩

/-- The drain loop is a path of its acts, and its rounds are enough. -/
theorem path_drainLoop (fuel : Nat) :
    ∀ m : Detached, m.sock.state.isConnected = true → m.sock.reorderCount < fuel →
      DrainPath [] m (drainLoop fuel m) ∧ Drained (drainLoop fuel m).sock := by
  induction fuel with
  | zero => intro m _ h; omega
  | succ fuel ih =>
      intro m hst hfuel
      rw [drainLoop]
      obtain ⟨hreach, hstate, hcount⟩ := path_reachFin m hst
      rw [← hstate] at hst
      generalize m.reachFin = m₁ at hreach hst hcount ⊢
      split
      · rename_i hzero
        exact ⟨hreach, .inl hzero⟩
      · rename_i hne
        split
        · rename_i hnone
          exact ⟨hreach, .inr hnone⟩
        · rename_i p hp
          obtain ⟨hpath, hdone⟩ := ih (m₁.drainNext p) (by rw [drainNext_sock]; exact hst)
            (by rw [drainNext_sock]; show m₁.sock.reorderCount - 1 < fuel; omega)
          exact ⟨hreach.silent ((Steps.single (.drain m₁ p hst hne hp)).silent hpath), hdone⟩

/-- The receive side's share of a datagram is one act, after the FIN has been
    noted. -/
theorem path_receive (m : Detached) (buf : Bytes) (w : ExtWalk) (exts : Bytes)
    (hdat : occ.datagram = some buf) (hty : packetType buf ≠ stState)
    (hwalk : (skipExtensions buf exts).2 = some w)
    (hst : m.sock.state.isConnected = true)
    (hoff : seqOffset m.sock (seqNr buf) < reorderBufferMaxSize) :
    ActPath occ [] m (m.receive buf w.dataStart (seqOffset m.sock (seqNr buf))).1 := by
  have hacc : Accepted occ buf (buf.drop w.dataStart) := ⟨hdat, hty, exts, w, hwalk, rfl⟩
  have hfin : ActPath occ [] m (m.noteFin (packetType buf) (seqNr buf))
      ∧ (m.noteFin (packetType buf) (seqNr buf)).sock.state.isConnected = true
      ∧ seqOffset (m.noteFin (packetType buf) (seqNr buf)).sock (seqNr buf)
        = seqOffset m.sock (seqNr buf) := by
    unfold noteFin
    split
    · rename_i h
      exact ⟨Steps.single (.noteFin m buf _ hacc hst h.1 h.2 hoff), hst, rfl⟩
    · exact ⟨Steps.refl m, hst, rfl⟩
  unfold receive
  obtain ⟨hpath, hst₁, hoff₁⟩ := hfin
  generalize m.noteFin (packetType buf) (seqNr buf) = m₁ at hpath hst₁ hoff₁ ⊢
  rw [← hoff₁] at hoff ⊢
  dsimp only
  have hdefer : ∀ m' : Detached, DeferCause occ m' := fun m' => .answers buf hdat hty
  split
  · rename_i hzero
    have hst₂ : (m₁.acceptNext (buf.drop w.dataStart)).sock.state.isConnected = true := by
      rw [acceptNext_sock]
      exact hst₁
    obtain ⟨hdrain, hdone⟩ := path_drainLoop _ _ hst₂ (Nat.lt_succ_self _)
    exact (hpath.silent (Steps.single (.inOrder m₁ _ buf _ hacc hst₁ hzero hdrain
      hdone))).silent (Steps.single (.schedule _ (hdefer _)))
  · rename_i hne
    have hpos := Nat.pos_of_ne_zero hne
    unfold receiveOutOfOrder
    dsimp only
    split
    · exact hpath
    · split
      · exact hpath
      · have hgrow := hpath.silent (Steps.single (.growIn m₁ buf _ hacc hst₁ hpos hoff))
        split
        · exact hgrow
        · rename_i hfree
          have hfits := m₁.sock.inbuf.index_lt_size_ensureSize ((seqNr buf).toNat + 1)
            (seqOffset m₁.sock (seqNr buf) + 1)
          exact (hgrow.silent (Steps.single (.store _ buf _ hacc hst₁ hpos hoff hfits
            (Option.not_isSome_iff_eq_none.mp hfree)))).silent
            (Steps.single (.schedule _ (hdefer _)))

/-- A datagram whose header passed all checks: first its acks, then its payload.
    -/
theorem path_processChecked (m : Detached) (buf : Bytes) (w : ExtWalk) (exts : Bytes)
    (hdat : occ.datagram = some buf) (hwalk : (skipExtensions buf exts).2 = some w) :
    ActPath occ [] m (m.processChecked buf w).1 := by
  unfold processChecked
  dsimp only
  split
  · split
    · rename_i hstale
      exact Steps.single (.schedule m (.answers buf hdat hstale.2))
    · exact Steps.refl m
  · rename_i hoff
    have htx := path_processAck m buf exts w hwalk
    rw [← hdat] at htx
    have hack : (m.processAck buf w.selack).sock.ackNr = m.sock.ackNr :=
      congrArg RxView.ackNr htx.rxView_eq
    have hpath := ActPath.ofTx htx
    split
    · exact hpath
    · rename_i hty
      split
      · exact hpath
      · rename_i hst
        have hsame : seqOffset m.sock (seqNr buf)
            = seqOffset (m.processAck buf w.selack).sock (seqNr buf) := by
          unfold seqOffset
          rw [hack]
        rw [hsame] at hoff ⊢
        exact hpath.silent (path_receive _ buf w exts hdat hty hwalk
          (by simpa using hst) (Nat.not_le.mp hoff))

/-- Noting the receipt starts the ack numbers of a socket that dials. -/
theorem path_noteReceipt (m : Detached) (buf : Bytes) (hdat : occ.datagram = some buf)
    (hlen : headerSize ≤ buf.length)
    (hrange : packetType buf ≠ stSyn ∨ m.sock.state ≠ .synRecv →
      m.sock.ackOutOfRange (ackNr buf) = false) :
    ActPath occ [] m (m.noteReceipt (seqNr buf)) := by
  have hquiet : ∀ m' : Detached, ActPath occ [] m'
      { m' with
        sock :=
          { m'.sock with
            timers := { m'.sock.timers with lastGotPacket := m'.ctx.currentMs } } } :=
    fun m' => ActPath.ofTx (Quiet.path ⟨_, _, _, _, _, rfl⟩ (.gotPacket m'))
  unfold noteReceipt
  by_cases hst : m.sock.state = .synSent
  · rw [if_pos hst]
    have hrange' := hrange (.inr (by rw [hst]; decide))
    exact (Steps.single (.noteSyn m buf hdat hst hlen hrange')).silent (hquiet _)
  · rw [if_neg hst]
    exact hquiet m

/-- The extension bits of the peer are noted. -/
theorem path_setExtensions (m : Detached) (exts : Bytes) :
    ActPath occ [] m { m with sock := { m.sock with extensions := exts } } :=
  Steps.single (.tx (.quiet m m.sock.cwnd m.sock.timers m.sock.delay m.sock.resend m.sock.mtu
    exts m.ctx.currentMs (.noteExtensions m exts)))

/-- **PROCESSING A DATAGRAM IS A PATH OF ACTS.** -/
theorem path_processIncoming (m : Detached) (buf : Bytes) (syn : Bool)
    (hdat : occ.datagram = some buf) :
    ActPath occ [] m (m.processIncoming buf syn).1 := by
  have hclock : ActPath occ [] m m.readClock := ActPath.ofTx (path_readClock m)
  unfold processIncoming
  dsimp only
  split
  · exact hclock
  · split
    · exact hclock
    · rename_i hrange
      split
      · exact hclock
      · rename_i hlen
        generalize m.readClock = m₁ at hclock hrange ⊢
        have hexts := hclock.silent
          (path_setExtensions m₁ (skipExtensions buf m₁.sock.extensions).1)
        split
        · exact hexts
        · rename_i w hwalk
          have hnote := path_noteReceipt
            { m₁ with
              sock := { m₁.sock with extensions := (skipExtensions buf m₁.sock.extensions).1 } }
            buf hdat (Nat.not_lt.mp hlen)
            (fun h => by
              rw [not_and] at hrange
              exact Bool.eq_false_iff.mpr (hrange h))
          split
          · exact hexts.silent hnote
          · exact (hexts.silent hnote).silent
              (path_processChecked _ buf w m₁.sock.extensions hdat hwalk)

/-! ## Timers -/

/-- A timeout marks the packets in flight one by one. -/
theorem path_markAllLost {inp : Option Bytes} (n : Nat) :
    ∀ m : Detached, TxPath inp [] m (markAllLost n m) := by
  induction n with
  | zero => intro m; exact Steps.refl m
  | succ n ih => intro m; exact (ih m).silent (Steps.single (.lose _ _))

/-- The oldest of them is sent again at once. -/
theorem path_retransmitAll {inp : Option Bytes} (m : Detached) :
    TxPath inp [] m m.retransmitAll := by
  unfold retransmitAll
  dsimp only
  have hlost : TxPath inp [] m _ := path_markAllLost m.sock.curWindowPackets m
  generalize markAllLost m.sock.curWindowPackets m = m₁ at hlost ⊢
  split
  · rename_i hbusy
    exact (hlost.silent (Quiet.path ⟨m₁.sock.cwnd, _, m₁.sock.delay, _, m₁.sock.mtu, rfl⟩
      (.retransmit m₁ hbusy))).silent (Steps.single (.sendPacket _ _))
  · exact hlost

/-- The states in which a socket has timers. -/
def ConnState.ticks : ConnState → Bool
  | .synSent | .synRecv | .connectedFull | .connected => true
  | _ => false

/-- An expired timer gives the connection up, or backs off and retransmits. -/
theorem path_rtoExpired (m : Detached) (hnone : occ.datagram = none)
    (hst : ConnState.ticks m.sock.state = true) : ActPath occ [] m m.rtoExpired.1 := by
  unfold rtoExpired
  dsimp only
  have hmtu : ActPath occ [] m
      { m with sock := { m.sock with mtu := mtuOnTimeout m.sock m.ctx.clock.millis } } :=
    ActPath.ofTx (Quiet.path ⟨m.sock.cwnd, m.sock.timers, m.sock.delay, m.sock.resend, _, rfl⟩
      (.mtuTimeout m))
  split
  · rename_i hrecv
    exact hmtu.silent (Steps.single (.giveUp _ .destroy (.inl ⟨hrecv, rfl⟩)))
  · rename_i hrecv
    split
    · refine hmtu.silent (Steps.single (.giveUp _ _ (.inr ⟨?_, rfl⟩)))
      show m.sock.state = .synSent ∨ m.sock.state.isConnected = true
      revert hst hrecv
      show ConnState.ticks m.sock.state = true → m.sock.state ≠ .synRecv → _
      cases m.sock.state <;> simp [ConnState.ticks, ConnState.isConnected]
    · -- the timer runs at least as long again, twice as long unless a probe was lost
      have hback : ∀ (m₁ : Detached) (t : Nat), m₁.sock.state ≠ .synRecv →
          m₁.sock.timers.retransmitTimeout ≤ t → ActPath occ [] m₁
            (setTimers m₁ (fun r =>
              { r with retransmitTimeout := t, rtoTimeout := m₁.ctx.currentMs + t })) :=
        fun m₁ t hne ht => ActPath.ofTx (Quiet.path ⟨m₁.sock.cwnd, _, m₁.sock.delay,
          m₁.sock.resend, m₁.sock.mtu, rfl⟩ (.backOff m₁ t hnone hne ht))
      split
      · exact (hmtu.silent (hback _ _ hrecv (Nat.le_refl _))).silent
          (ActPath.ofTx (path_retransmitAll _))
      · have hwindow : ∀ m₁ : Detached, ActPath occ [] m₁
            { m₁ with sock := windowOnTimeout m₁.sock } := fun m₁ =>
          ActPath.ofTx (Quiet.path ⟨_, m₁.sock.timers, m₁.sock.delay, _, m₁.sock.mtu, rfl⟩
            (.windowOnTimeout m₁))
        exact ((hmtu.silent (hback _ _ hrecv (Nat.le_mul_of_pos_right _ Nat.two_pos))).silent
          (hwindow _)).silent (ActPath.ofTx (path_retransmitAll _))

/-- Opening a closed window leaves the queue. -/
theorem quiet_reopenWindow (m : Detached) : Quiet m m.reopenWindow := by
  unfold reopenWindow
  split
  · exact ⟨_, m.sock.timers, m.sock.delay, m.sock.resend, m.sock.mtu, rfl⟩
  · exact Quiet.refl m

theorem path_reopenWindow {inp : Option Bytes} (m : Detached) :
    TxPath inp [] m m.reopenWindow :=
  (quiet_reopenWindow m).path (.reopenWindow m)

/-- A connection that was silent for long sends a keep-alive. -/
theorem path_keepAliveIfIdle (m : Detached) : ActPath occ [] m m.keepAliveIfIdle := by
  unfold keepAliveIfIdle
  split
  · rename_i h
    exact Steps.single (.keepAlive m h.1 h.2.1)
  · exact Steps.refl m

/-- Opening a closed window leaves the state. -/
theorem state_reopenWindow (m : Detached) : m.reopenWindow.sock.state = m.sock.state := by
  unfold reopenWindow
  split <;> rfl

/-- One visit of the timers, for a socket that still has any. -/
theorem path_tick (m : Detached) (hnone : occ.datagram = none)
    (hst : ConnState.ticks m.sock.state = true) : ActPath occ [] m m.tick := by
  unfold tick
  dsimp only
  have hopen : ActPath occ [] m m.reopenWindow := ActPath.ofTx (path_reopenWindow m)
  rw [← state_reopenWindow m] at hst
  generalize m.reopenWindow = m₁ at hopen hst ⊢
  split
  · split
    · exact hopen.silent (path_rtoExpired m₁ hnone hst)
    · exact ((hopen.silent (path_rtoExpired m₁ hnone hst)).silent
        (ActPath.ofTx (path_markWritable _))).silent (path_keepAliveIfIdle _)
  · exact (hopen.silent (ActPath.ofTx (path_markWritable _))).silent (path_keepAliveIfIdle _)

/-- **A TIMER TICK IS A PATH OF ACTS.** -/
theorem path_checkTimeouts (m : Detached) (hnone : occ.datagram = none) :
    ActPath occ [] m m.checkTimeouts := by
  unfold checkTimeouts
  dsimp only
  have hflush : ActPath occ [] m (if m.sock.state ≠ .destroy then m.flushPackets.1 else m) := by
    split
    · exact ActPath.ofTx (path_flushPackets m)
    · exact Steps.refl m
  generalize (if m.sock.state ≠ .destroy then m.flushPackets.1 else m) = m₁ at hflush ⊢
  split
  · rename_i h
    exact hflush.silent (path_tick m₁ hnone (by rw [h]; rfl))
  · rename_i h
    exact hflush.silent (path_tick m₁ hnone (by rw [h]; rfl))
  · rename_i h
    exact hflush.silent (path_tick m₁ hnone (by rw [h]; rfl))
  · rename_i h
    exact hflush.silent (path_tick m₁ hnone (by rw [h]; rfl))
  · exact hflush

/-! ## Reads and closes -/

/-- A window that opens again after a read is told to the peer. -/
theorem path_readDrained (m : Detached) : ActPath occ [] m m.readDrained := by
  unfold readDrained
  split
  · rename_i hgrew
    split
    · exact Steps.single (.ack m false (.windowGrew hgrew))
    · exact (ActPath.ofTx (path_readClock m)).silent
        (Steps.single (.schedule m.readClock (.windowGrew hgrew)))
  · exact Steps.refl m

/-- The FIN goes through the loop of `write_outgoing_packet` in one round. -/
theorem path_writeFin (m : Detached) (hst : m.sock.state.isConnected = true)
    (hfin : m.sock.finSent = false) :
    ActPath occ [] m
      (({ m with sock := { m.sock with finSent := true } } : Detached).writeOutgoingPacket 0
        stFin []).1 := by
  have harm : ActPath occ [] m m.armTimer := ActPath.ofTx (path_armTimer m hst)
  have hrcv : ActPath occ [] m.armTimer m.armTimer.updateRcvWin :=
    Steps.single (.tx (.noteRcvWin _))
  have hkept := (armTimer_sock m).1
  have hqueue : ActPath occ [] _ _ := Steps.single (.fin m.armTimer.updateRcvWin
    (by show m.armTimer.sock.state.isConnected = true; rw [hkept.state]; exact hst)
    (by show m.armTimer.sock.finSent = false; rw [hkept.finSent]; exact hfin)
    (armTimer_set m) rfl)
  -- setting the flag first or last makes no difference to the timer
  have hswap : ({ m with sock := { m.sock with finSent := true } } : Detached).armTimer
      = { m.armTimer with sock := { m.armTimer.sock with finSent := true } } := by
    unfold armTimer
    dsimp only
    split <;> rfl
  unfold writeOutgoingPacket
  dsimp only
  rw [hswap]
  exact ((harm.silent hrcv).silent hqueue).silent (ActPath.ofTx (path_flushPackets _))

/-- Closing a connection queues the FIN. -/
theorem path_closeConnected (m : Detached) (hst : m.sock.state.isConnected = true) :
    ActPath occ [] m m.closeConnected := by
  unfold closeConnected
  dsimp only
  have hclosing : ActPath occ [] m _ := Steps.single (.closing m hst)
  split
  · rename_i hfin
    exact hclosing.silent (path_writeFin _ hst hfin)
  · split
    · rename_i hacked
      exact hclosing.silent (Steps.single (.closeAcked _ hst rfl hacked))
    · exact hclosing

/-- Closing a socket, whatever its state. -/
theorem path_closeEngine (m : Detached) (hnone : occ.datagram = none) :
    ActPath occ [] m m.closeEngine := by
  unfold closeEngine
  split
  · rename_i hst
    exact path_closeConnected m (by rw [hst]; rfl)
  · rename_i hst
    exact path_closeConnected m (by rw [hst]; rfl)
  · rename_i hst
    have hquiet : ActPath occ [] m
        { m with
          sock :=
            { m.sock with
              timers :=
                { m.sock.timers with
                  rtoTimeout := m.ctx.clock.millis + min (m.sock.timers.rto * 2) 60 } } } :=
      ActPath.ofTx (Quiet.path ⟨m.sock.cwnd, _, m.sock.delay, m.sock.resend, m.sock.mtu, rfl⟩
        (.linger m hnone hst))
    exact hquiet.silent (Steps.single (.abandon _ (by
      show m.sock.state.isConnected = false
      rw [hst]
      rfl)))
  · rename_i h₁ h₂ _
    refine Steps.single (.abandon m ?_)
    revert h₁ h₂
    cases m.sock.state <;> simp [ConnState.isConnected]

end UtpActs
