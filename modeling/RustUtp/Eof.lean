import RustUtp.Reassembler

/-! # End of file — when the end of a stream is final

    The application learns of the end of a stream through `on_eof`, once the
    FIN and everything before it have arrived.  From then on the receive side
    has nothing left to hand over, but it goes on accepting the packet after
    the FIN: a peer that sends one makes the stream grow again. -/

namespace UtpEof

open UtpCircular UtpPacket UtpUtil UtpConnShared UtpEngine UtpEngine.Detached UtpActs
  UtpRecvQueue UtpReceive UtpReassembler UtpLifecycle LabelledPath

/-! ## Cells and sockets -/

/-- The streams of all cells. -/
def streams (ctx : Context) : UserId → Stream := fun u => (ctx.users u).stream

/-- The streams are part of what the receive side shows. -/
theorem streams_of_rxView {m m' : Detached} (h : rxView m' = rxView m) :
    streams m'.ctx = streams m.ctx := congrArg RxView.streams h

/-- What happens to one cell is in its own stream. -/
theorem streams_onUser (ctx : Context) (u : UserId) (f : ConnCell → ConnCell) (v : UserId) :
    streams (ctx.onUser u f) v = if v = u then (f (ctx.users u)).stream else streams ctx v := by
  show (Function.update ctx.users u (f (ctx.users u)) v).stream = _
  by_cases hv : v = u
  · rw [hv, Function.update_self, if_pos rfl]
  · rw [Function.update_of_ne hv, if_neg hv]
    rfl

/-- A callback that says nothing about the stream. -/
theorem streams_silent (ctx : Context) (u : UserId) {f : ConnCell → ConnCell}
    (hf : ∀ c, (f c).stream = c.stream) : streams (ctx.onUser u f) = streams ctx := by
  funext v
  rw [streams_onUser]
  split
  · rename_i hv
    rw [hf, hv]
    rfl
  · rfl

/-- Bytes are handed to the own cell. -/
theorem streams_deliver_other (m : Detached) (data : Bytes) {u : UserId}
    (hu : u ≠ m.sock.user) : streams (m.deliver data).ctx u = streams m.ctx u := by
  unfold deliver
  split
  · exact (streams_onUser m.ctx m.sock.user (·.onRead data) u).trans (if_neg hu)
  · rfl

/-- Closing a cell leaves all streams. -/
theorem streams_markClosed (ctx : Context) (u : UserId) :
    streams (ctx.onUser u (fun c => { c with closed := true })) = streams ctx :=
  streams_silent ctx u (fun _ => rfl)

/-- What a socket does to the cells: its own may change, the others do not, and
    its own cell knows of the end of the stream when the socket does. -/
structure OwnCell (m m' : Detached) : Prop where
  user : m'.sock.user = m.sock.user
  others : ∀ u, u ≠ m.sock.user → streams m'.ctx u = streams m.ctx u
  eof : (stream m).gotEof = m.sock.gotFinReached → (stream m').gotEof = m'.sock.gotFinReached
  counted : (stream m).gotEof = decide (0 < (stream m).eofs) →
    (stream m').gotEof = decide (0 < (stream m').eofs)

namespace OwnCell

theorem refl (m : Detached) : OwnCell m m := ⟨rfl, fun _ _ => rfl, id, id⟩

theorem trans (m₁ m₂ m₃ : Detached) (h : OwnCell m₁ m₂) (h' : OwnCell m₂ m₃) :
    OwnCell m₁ m₃ := by
  refine ⟨h'.user.trans h.user, fun u hu => ?_, fun he => h'.eof (h.eof he),
    fun hc => h'.counted (h.counted hc)⟩
  rw [h'.others u (by rw [h.user]; exact hu), h.others u hu]

/-- A step that leaves the receive side. -/
theorem of_rxView {m m' : Detached} (h : rxView m' = rxView m) : OwnCell m m' := by
  have hs := stream_of_rxView h
  refine ⟨congrArg RxView.user h, fun u _ => congrFun (streams_of_rxView h) u, fun he => ?_,
    fun hc => ?_⟩
  · rw [hs, he]
    exact (congrArg RxView.gotFinReached h).symm
  · rw [hs]
    exact hc

/-- An act that leaves the cells and the flag alone. -/
theorem of_same {m m' : Detached} (hu : m'.sock.user = m.sock.user)
    (hs : streams m'.ctx = streams m.ctx)
    (hr : m'.sock.gotFinReached = m.sock.gotFinReached) : OwnCell m m' := by
  have hown : stream m' = stream m := by
    show streams m'.ctx m'.sock.user = streams m.ctx m.sock.user
    rw [hu, hs]
  refine ⟨hu, fun u _ => congrFun hs u, fun he => ?_, fun hc => ?_⟩
  · rw [hown, he, hr]
  · rw [hown]
    exact hc

end OwnCell

/-- Handing over bytes touches the own cell. -/
theorem ownCell_deliver (m : Detached) (data : Bytes) : OwnCell m (m.deliver data) := by
  have hstream := stream_deliver m data
  have heof : (stream (m.deliver data)).gotEof = (stream m).gotEof
      ∧ (stream (m.deliver data)).eofs = (stream m).eofs := by
    rw [hstream]
    split <;> exact ⟨rfl, rfl⟩
  refine ⟨by rw [deliver_sock], fun u hu => streams_deliver_other m data hu, fun he => ?_,
    fun hc => ?_⟩
  · rw [heof.1, deliver_sock]
    exact he
  · rw [heof.1, heof.2]
    exact hc

theorem ownCell_acceptNext (m : Detached) (data : Bytes) : OwnCell m (m.acceptNext data) :=
  OwnCell.trans _ _ _ (ownCell_deliver m data) (.of_same rfl rfl rfl)

theorem ownCell_drain {l : Bytes} {m m' : Detached} (h : DrainAct l m m') : OwnCell m m' := by
  cases h with
  | drain _ p _ _ _ =>
      refine OwnCell.trans m ({ m with
        sock := { m.sock with inbuf := m.sock.inbuf.put (m.sock.ackNr.toNat + 1) none } }) _
        (.of_same rfl rfl rfl) ?_
      exact OwnCell.trans _ _ _ (ownCell_acceptNext _ p) (.of_same rfl rfl rfl)
  | reach =>
      have hstream := stream_reach m
      refine ⟨rfl, fun u hu => (streams_onUser m.ctx m.sock.user (·.onEof) u).trans (if_neg hu),
        fun _ => ?_, fun _ => ?_⟩
      · rw [hstream]
        rfl
      · rw [hstream]
        exact (decide_eq_true (Nat.succ_pos _)).symm
  | ackFin => exact .of_rxView (rxView_sendAck m false)
  | dropStragglers => exact .of_same rfl rfl rfl

/-- **EVERY ACT** touches the stream of the own cell only. -/
theorem ownCell_act {occ : Occasion} {l : Bytes} {m m' : Detached} (h : Act occ l m m') :
    OwnCell m m' := by
  cases h with
  | tx h => exact .of_rxView h.rxView_eq
  | inOrder _ _ _ _ _ _ _ hdrain =>
      exact DrainPath.lift OwnCell.refl OwnCell.trans (fun _ _ _ h => ownCell_drain h)
        (ownCell_acceptNext m _) hdrain
  | giveUp => exact .of_same rfl (streams_silent _ _ (fun c => stream_onError c _)) rfl
  | reset => exact .of_same rfl (streams_silent _ _ (fun c => stream_onError c _)) rfl
  | ack => exact .of_rxView (rxView_sendAck m _)
  | keepAlive => exact .of_rxView (rxView_sendKeepAlive m)
  | schedule => exact .of_rxView (scheduleAck_same m).1
  | _ => exact .of_same rfl rfl rfl

/-- Every socket has a cell of its own, which knows of the end of the stream when
    the socket does; a cell has been told of the end when its flag is set. -/
structure CellInv (ctx : Context) : Prop where
  unique : ∀ k₁ k₂ s₁ s₂, ctx.sockets.lookup k₁ = some s₁ → ctx.sockets.lookup k₂ = some s₂ →
    s₁.user = s₂.user → k₁ = k₂
  allocated : ∀ k s, ctx.sockets.lookup k = some s → s.user < ctx.nextUser
  eof : ∀ k s, ctx.sockets.lookup k = some s →
    (streams ctx s.user).gotEof = s.gotFinReached
  counted : ∀ u, u < ctx.nextUser →
    (streams ctx u).gotEof = decide (0 < (streams ctx u).eofs)

/-- The table of an attached socket: that socket, and the others. -/
theorem cellInv_attach {key : Key} {m : Detached} (hout : m.ctx.sockets.lookup key = none) :
    CellInv (Context.attach key m) ↔
      m.sock.user < m.ctx.nextUser ∧ (stream m).gotEof = m.sock.gotFinReached
      ∧ (∀ k s, m.ctx.sockets.lookup k = some s → s.user ≠ m.sock.user)
      ∧ CellInv m.ctx := by
  -- no other socket stands under the key the attached one takes
  have hother : ∀ k s, m.ctx.sockets.lookup k = some s → k ≠ key := by
    rintro k s hs rfl
    exact nomatch hout.symm.trans hs
  have hself : (Context.attach key m).sockets.lookup key = some m.sock := by
    rw [lookup_attach, if_pos rfl]
  have hkeep : ∀ k s, m.ctx.sockets.lookup k = some s →
      (Context.attach key m).sockets.lookup k = some s := by
    intro k s hs
    rw [lookup_attach, if_neg (hother k s hs), hs]
  constructor
  · -- the attached socket is one of the sockets, so its part can be read off
    intro h
    refine ⟨h.allocated key _ hself, h.eof key _ hself, fun k s hs huser => ?_, ?_⟩
    · exact hother k s hs (h.unique k key s _ (hkeep k s hs) hself huser)
    · exact ⟨fun k₁ k₂ s₁ s₂ h₁ h₂ => h.unique k₁ k₂ s₁ s₂ (hkeep _ _ h₁) (hkeep _ _ h₂),
        fun k s hs => h.allocated k s (hkeep k s hs), fun k s hs => h.eof k s (hkeep k s hs),
        h.counted⟩
  · rintro ⟨hlt, heof, hne, h⟩
    refine ⟨fun k₁ k₂ s₁ s₂ h₁ h₂ huser => ?_, fun k s hs => ?_, fun k s hs => ?_, h.counted⟩
    · rw [lookup_attach] at h₁ h₂
      split at h₁ <;> split at h₂
      · -- both keys are the one attached
        rename_i hk₁ hk₂
        rw [hk₁, hk₂]
      · obtain rfl := Option.some.inj h₁
        -- the attached socket against another, in both orders
        exact absurd huser.symm (hne k₂ s₂ h₂)
      · obtain rfl := Option.some.inj h₂
        exact absurd huser (hne k₁ s₁ h₁)
      · exact h.unique k₁ k₂ s₁ s₂ h₁ h₂ huser
    · rw [lookup_attach] at hs
      split at hs
      · obtain rfl := Option.some.inj hs
        exact hlt
      · exact h.allocated k s hs
    · rw [lookup_attach] at hs
      split at hs
      · obtain rfl := Option.some.inj hs
        exact heof
      · exact h.eof k s hs

/-- Only the table, the cells and the number of cells matter. -/
theorem CellInv.of_same {ctx ctx' : Context} (h : CellInv ctx)
    (hsocks : ctx'.sockets = ctx.sockets) (hnext : ctx'.nextUser = ctx.nextUser)
    (hflags : ∀ u, (streams ctx' u).gotEof = (streams ctx u).gotEof
      ∧ (streams ctx' u).eofs = (streams ctx u).eofs) : CellInv ctx' := by
  refine ⟨?_, ?_, fun k s hs => ?_, fun u hu => ?_⟩
  · rw [hsocks]
    exact h.unique
  · rw [hsocks, hnext]
    exact h.allocated
  · rw [(hflags s.user).1]
    exact h.eof k s (hsocks ▸ hs)
  · rw [(hflags u).1, (hflags u).2]
    exact h.counted u (hnext ▸ hu)

/-- A socket acts. -/
theorem CellInv.own {key : Key} {m m' : Detached} (hout : m.ctx.sockets.lookup key = none)
    (h : CellInv (Context.attach key m)) (hown : OwnCell m m')
    (hsur : surroundings m'.ctx = surroundings m.ctx) : CellInv (Context.attach key m') := by
  have hsocks : m'.ctx.sockets = m.ctx.sockets := congrArg Surroundings.sockets hsur
  have hnext : m'.ctx.nextUser = m.ctx.nextUser := congrArg Surroundings.nextUser hsur
  obtain ⟨hlt, heof, hne, hctx⟩ := (cellInv_attach hout).mp h
  -- only the one cell moved, and the socket kept its user
  refine (cellInv_attach (by rw [hsocks]; exact hout)).mpr ⟨?_, hown.eof heof, ?_, ?_⟩
  · rw [hown.user, hnext]
    exact hlt
  · rw [hsocks, hown.user]
    exact hne
  · refine ⟨?_, ?_, fun k s hs => ?_, fun u hu => ?_⟩
    · rw [hsocks]
      exact hctx.unique
    · rw [hsocks, hnext]
      exact hctx.allocated
    · rw [hsocks] at hs
      rw [hown.others _ (hne k s hs)]
      exact hctx.eof k s hs
    · rw [hnext] at hu
      -- its own cell counts on, every other one is as it was
      by_cases hu' : u = m.sock.user
      · subst hu'
        have hcount := hown.counted (hctx.counted _ hu)
        unfold stream at hcount
        rw [hown.user] at hcount
        exact hcount
      · rw [hown.others u hu']
        exact hctx.counted u hu

/-- A socket that is new in the table, with a new cell. -/
theorem CellInv.born {ctx : Context} {key : Key} {m : Detached} (h : CellInv ctx)
    (hfree : ctx.sockets.lookup key = none) (hsocks : m.ctx.sockets = ctx.sockets)
    (huser : m.sock.user = ctx.nextUser) (hnext : m.ctx.nextUser = ctx.nextUser + 1)
    (hreached : m.sock.gotFinReached = false) (haddr : ∃ addr, m.ctx.users
      = Function.update ctx.users ctx.nextUser (ConnCell.new addr)) :
    CellInv (Context.attach key m) := by
  obtain ⟨addr, husers⟩ := haddr
  -- the old users are below the fresh one, so their streams are untouched
  have hold : ∀ u, u ≠ ctx.nextUser → streams m.ctx u = streams ctx u := by
    intro u hu
    unfold streams
    rw [husers, Function.update_of_ne hu]
  have hnew : streams m.ctx ctx.nextUser = (ConnCell.new addr).stream := by
    unfold streams
    rw [husers, Function.update_self]
  refine (cellInv_attach (by rw [hsocks]; exact hfree)).mpr ⟨?_, ?_, fun k s hs => ?_, ?_⟩
  · rw [huser, hnext]
    exact Nat.lt_succ_self _
  · unfold stream
    rw [huser]
    rw [hreached]
    exact congrArg Stream.gotEof hnew
  · rw [hsocks] at hs
    rw [huser]
    exact Nat.ne_of_lt (h.allocated k s hs)
  · refine ⟨?_, fun k s hs => ?_, fun k s hs => ?_, fun u hu => ?_⟩
    · rw [hsocks]
      exact h.unique
    · rw [hsocks] at hs
      rw [hnext]
      exact Nat.lt_succ_of_lt (h.allocated k s hs)
    · rw [hsocks] at hs
      rw [hold _ (Nat.ne_of_lt (h.allocated k s hs))]
      exact h.eof k s hs
    · -- a user is old, or the one just made
      rw [hnext] at hu
      rcases Nat.lt_or_eq_of_le (Nat.le_of_lt_succ hu) with hlt | heq
      · rw [hold u (Nat.ne_of_lt hlt)]
        exact h.counted u hlt
      · rw [heq, hnew]
        rfl

/-- Destroying a socket leaves all streams. -/
theorem streams_destroySock (m : Detached) : streams (Context.destroySock m) = streams m.ctx := by
  have hview := rxView_ackListRemove (m.notify (·.onDestroying))
  exact (streams_of_rxView hview).trans (streams_silent _ _ (fun c => stream_onDestroying c))

theorem streams_rejectUnknown (ctx : Context) (addr : SocketAddr) (id : UInt32)
    (seqNr : UInt16) : streams (ctx.rejectUnknown addr id seqNr) = streams ctx := by
  unfold Context.rejectUnknown
  dsimp only
  split
  · rfl
  · split <;> rfl

/-- A dial starts before the end of its stream, with a fresh cell. -/
theorem dialled_fresh (ctx : Context) (addr : SocketAddr) (seed : UInt32) (rng : Rng) :
    (ctx.dialled addr seed rng).sock.gotFinReached = false
      ∧ (ctx.dialled addr seed rng).ctx.users
        = Function.update ctx.users ctx.nextUser (ConnCell.new addr) := ⟨rfl, rfl⟩

theorem accepting_fresh (ctx : Context) (buf : Bytes) (addr : SocketAddr) :
    (ctx.accepting buf addr).sock.gotFinReached = false
      ∧ (ctx.accepting buf addr).ctx.users
        = Function.update ctx.users ctx.nextUser (ConnCell.new addr) := ⟨rfl, rfl⟩

/-- One act of the engine keeps cells and sockets in step. -/
theorem cellInv_engineAct {occ : Occasion} {l : Bytes} {ctx ctx' : Context}
    (hact : EngineAct occ l ctx ctx') (h : CellInv ctx) : CellInv ctx' := by
  cases hact with
  | sock key hout hstep => exact h.own hout (ownCell_act hstep) hstep.surroundings_eq
  | dial _ addr seed rng _ hfree =>
      -- a fresh connection owns a fresh cell
      obtain ⟨huser, hnext⟩ := dialled_user ctx addr seed rng
      obtain ⟨hreached, husers⟩ := dialled_fresh ctx addr seed rng
      exact h.born hfree (dialled_sockets ctx addr seed rng) huser hnext hreached ⟨addr, husers⟩
  | accept _ buf addr _ _ hfree =>
      obtain ⟨huser, hnext⟩ := accepting_user ctx buf addr
      obtain ⟨hreached, husers⟩ := accepting_fresh ctx buf addr
      exact h.born hfree (accepting_sockets ctx buf addr) huser hnext hreached ⟨addr, husers⟩
  | remove key m _ hout =>
      -- with the socket gone what is said of the others remains
      have hctx := ((cellInv_attach hout).mp h).2.2.2
      refine hctx.of_same (destroySock_sockets m) (destroySock_nextUser m) (fun u => ?_)
      rw [streams_destroySock]
      exact ⟨rfl, rfl⟩
  | reject =>
      refine h.of_same (rejectUnknown_sockets ..) (rejectUnknown_nextUser ..) (fun u => ?_)
      rw [streams_rejectUnknown]
      exact ⟨rfl, rfl⟩
  | settings => exact h.of_same rfl rfl (fun _ => ⟨rfl, rfl⟩)
  | takeAcks => exact h.of_same rfl rfl (fun _ => ⟨rfl, rfl⟩)
  | consume _ user len =>
      refine h.of_same rfl rfl (fun u => ?_)
      show (streams (ctx.onUser user _) u).gotEof = _ ∧ (streams (ctx.onUser user _) u).eofs = _
      rw [streams_onUser]
      split
      · rename_i hu
        rw [hu]
        exact ⟨rfl, rfl⟩
      · exact ⟨rfl, rfl⟩
  | markClosed _ user =>
      refine h.of_same rfl rfl (fun u => ?_)
      rw [streams_markClosed]
      exact ⟨rfl, rfl⟩

/-- **CELLS AND SOCKETS ARE IN STEP** in every reachable state. -/
theorem reachable_cellInv {ctx : Context} (h : Reachable ctx) : CellInv ctx := by
  induction h with
  | new clock rng transport fpu users =>
      have hnone : ∀ k s, (Context.new clock rng transport fpu users).sockets.lookup k ≠ some s :=
        fun k s hs => nomatch (Finmap.lookup_empty k).symm.trans hs
      exact ⟨fun k₁ _ s₁ _ h₁ => absurd h₁ (hnone k₁ s₁), fun k s hs => absurd hs (hnone k s),
        fun k s hs => absurd hs (hnone k s), fun u hu => absurd hu (Nat.not_lt_zero u)⟩
  | step op _ hstep ih =>
      exact Steps.invariant (P := CellInv) (fun _ _ _ ha hinv => cellInv_engineAct ha hinv)
        (path_step hstep) ih

/-! ## The end of the stream comes after the handshake -/

/-- The handshake is over. -/
def late (st : ConnState) : Prop := st ≠ .idle ∧ st ≠ .synSent ∧ st ≠ .synRecv

/-- A connected socket is past its handshake. -/
theorem late_of_connected {st : ConnState} (h : st.isConnected = true) : late st := by
  refine ⟨?_, ?_, ?_⟩ <;> rintro rfl <;> exact Bool.false_ne_true h

/-- No move leads back into the handshake. -/
theorem move_late {occ : Occasion} {st st' : ConnState} {r r' : Bool}
    (h : Move occ st r st' r') (hlate : late st) : late st' := by
  cases h with
  | stay => exact hlate
  | record => exact hlate
  | giveUp r _ => cases r <;> exact ⟨nofun, nofun, nofun⟩
  | reset _ r _ => cases r <;> exact ⟨nofun, nofun, nofun⟩
  | _ => exact ⟨nofun, nofun, nofun⟩

/-- From there a socket that is connected was connected. -/
theorem move_connected {occ : Occasion} {st st' : ConnState} {r r' : Bool}
    (h : Move occ st r st' r') (hlate : late st) (hst : st'.isConnected = true) :
    st.isConnected = true := by
  cases h with
  | stay => exact hst
  | record _ h => exact h
  | accepted => exact absurd rfl hlate.2.2
  | dialed => exact absurd rfl hlate.2.1
  | full => rfl
  | writable => rfl
  | finish => exact absurd hst Bool.false_ne_true
  | abandon => exact absurd hst Bool.false_ne_true
  | giveUp r _ => cases r <;> exact absurd hst Bool.false_ne_true
  | reset _ r _ => cases r <;> exact absurd hst Bool.false_ne_true

/-- A socket past its handshake that is connected was connected before. -/
theorem connected_before {inp : Option Bytes} {l : Bytes} {m m' : Detached}
    (h : TxPath inp l m m') (hlate : late m.sock.state)
    (hst : m'.sock.state.isConnected = true) : m.sock.state.isConnected = true := by
  induction h with
  | refl => exact hst
  | tail hpath hact ih =>
      have hmoves : ∀ l a b, TxAct inp l a b → Moves ⟨inp, false, false⟩ a.sock b.sock :=
        fun _ _ _ hab => moves_tx hab
      have hmove := hmoves _ _ _ hact
      have hlate' := Steps.invariant (P := fun m : Detached => late m.sock.state)
        (fun _ a b hab hl => move_late (hmoves _ _ _ hab) hl) hpath hlate
      exact ih hlate (move_connected hmove hlate' hst)

/-- A socket that has seen a FIN is past its handshake. -/
def FinLate (s : UtpSock) : Prop := s.gotFin = true → late s.state

/-- Only a connected socket takes note of a FIN. -/
theorem finLate_act {occ : Occasion} {l : Bytes} {m m' : Detached} (h : Act occ l m m')
    (hinv : FinLate m.sock) : FinLate m'.sock := by
  have hmove := moves_act h
  intro hfin
  by_cases hflag : m'.sock.gotFin = m.sock.gotFin
  · exact move_late hmove (hinv (hflag ▸ hfin))
  · cases h with
    | tx h => exact absurd (congrArg RxView.gotFin h.rxView_eq) hflag
    | noteFin _ _ _ _ hst => exact move_late hmove (late_of_connected hst)
    | inOrder _ _ _ _ _ _ _ hdrain =>
        exact absurd (congrArg Flags.gotFin (flags_drain hdrain)) hflag
    | ack => exact absurd (congrArg RxView.gotFin (rxView_sendAck m _)) hflag
    | keepAlive => exact absurd (congrArg RxView.gotFin (rxView_sendKeepAlive m)) hflag
    | schedule => exact absurd (congrArg RxView.gotFin (scheduleAck_same m).1) hflag
    | _ => exact absurd rfl hflag

theorem reachable_finLate {ctx : Context} (h : Reachable ctx) : EverySock FinLate ctx :=
  Reachable.everySock (fun _ _ _ _ hact hinv => finLate_act hact hinv)
    (fun _ _ _ _ hfin => absurd hfin Bool.false_ne_true)
    (fun _ _ _ hfin => absurd hfin Bool.false_ne_true) h

/-! ## A packet past the end -/

/-- Of the packets that wait behind number `v`, at most `count`, one that is next
    in turn has something to hand over. -/
def HandsOver : Nat → CircularBuffer Bytes → UInt16 → Prop
  | 0, _, _ => False
  | count + 1, inbuf, v =>
      match inbuf.get (v.toNat + 1) with
      | none => False
      | some p => p ≠ [] ∨ HandsOver count (inbuf.put (v.toNat + 1) none) (v + 1)

/-- A packet that passes all checks, is the next in order for a socket that has
    reached the end of its stream, and has something to hand over or is followed
    by buffered packets that do. -/
structure PastEof (m : Detached) (buf : Bytes) : Prop where
  reached : m.sock.gotFinReached = true
  reading : m.sock.readShutdown = false
  connected : m.sock.state.isConnected = true
  kind : packetType buf < stNumStates ∧ packetType buf ≠ stState
  acks : m.sock.ackOutOfRange (ackNr buf) = false
  length : headerSize ≤ buf.length
  next : seqOffset m.sock (seqNr buf) = 0
  body : ∃ w, (skipExtensions buf m.sock.extensions).2 = some w
    ∧ (buf.drop w.dataStart ≠ []
      ∨ HandsOver m.sock.reorderCount m.sock.inbuf (m.sock.ackNr + 1))

/-- The stream has ended and nothing is added to it. -/
structure Sealed (t t' : Stream) : Prop where
  eof : t'.gotEof = true
  bytes : t'.bytes = t.bytes
  rest : t'.readBuf <:+ t.readBuf

theorem Sealed.refl {t : Stream} (h : t.gotEof = true) : Sealed t t := ⟨h, rfl, List.suffix_rfl⟩

theorem Sealed.trans {t₁ t₂ t₃ : Stream} (h : Sealed t₁ t₂) (h' : Sealed t₂ t₃) :
    Sealed t₁ t₃ :=
  ⟨h'.eof, h'.bytes.trans h.bytes, h'.rest.trans h.rest⟩

/-- Nothing was delivered. -/
theorem stream_deliver_nil (m : Detached) : stream (m.deliver []) = stream m := by
  rw [stream_deliver]
  split
  · rfl
  · rw [List.append_nil, List.append_nil]

/-- Past the end there is no FIN left to reach. -/
theorem reachFin_late {m : Detached} (hreached : m.sock.gotFinReached = true) :
    m.reachFin = m := by
  unfold reachFin
  exact if_neg (fun h => absurd (h.1.symm.trans hreached) Bool.false_ne_true)

/-- Past the end the drain hands nothing over if no packet it takes has anything
    to hand over.  The induction is on the fuel. -/
theorem stream_drainLoop_silent (fuel : Nat) : ∀ m : Detached, m.sock.gotFinReached = true →
    ¬ HandsOver m.sock.reorderCount m.sock.inbuf m.sock.ackNr →
    stream (drainLoop fuel m) = stream m := by
  induction fuel with
  | zero => intro m _ _; rfl
  | succ fuel ih =>
      intro m hreached hsilent
      rw [drainLoop, reachFin_late hreached]
      -- nothing held: the drain ends at once
      cases hcount : m.sock.reorderCount with
      | zero => exact congrArg stream (if_pos rfl)
      | succ count =>
          rw [if_neg (Nat.succ_ne_zero count)]
          rw [hcount] at hsilent
          cases hnext : m.sock.inbuf.get (m.sock.ackNr.toNat + 1) with
          | none => rfl
          | some p =>
              -- an empty packet hands nothing to the user; the rest of the drain is silent too
              unfold HandsOver at hsilent
              rw [hnext] at hsilent
              obtain ⟨hempty, hrest⟩ := not_or.mp hsilent
              obtain rfl : p = [] := Decidable.of_not_not hempty
              have hstep := ih (m.drainNext [])
              rw [drainNext_sock, hcount] at hstep
              refine (hstep hreached hrest).trans ?_
              rw [stream_drainNext]
              exact stream_deliver_nil m

/-- An in-order packet without payload, with nothing behind it to hand over. -/
theorem stream_inOrder_empty {m : Detached} (hreached : m.sock.gotFinReached = true)
    (hsilent : ¬ HandsOver m.sock.reorderCount m.sock.inbuf (m.sock.ackNr + 1)) :
    stream (m.receiveInOrder []) = stream m := by
  have hsock := acceptNext_sock m []
  unfold receiveInOrder
  dsimp only
  rw [stream_of_rxView (scheduleAck_same _).1,
    stream_drainLoop_silent _ _ (by rw [hsock]; exact hreached) (by rw [hsock]; exact hsilent),
    stream_acceptNext]
  exact stream_deliver_nil m

/-- A closed socket hands nothing over. -/
theorem stream_drain_shut {l : Bytes} {m m' : Detached} (h : DrainPath l m m')
    (hshut : m.sock.readShutdown = true) (hreached : m.sock.gotFinReached = true) :
    stream m' = stream m := by
  refine (Steps.invariant (P := fun m₁ : Detached => m₁.sock.readShutdown = true
    ∧ m₁.sock.gotFinReached = true ∧ stream m₁ = stream m) (fun _ a b hab hP => ?_) h
    ⟨hshut, hreached, rfl⟩).2.2
  obtain ⟨hs, hr, heq⟩ := hP
  cases hab with
  | drain _ p _ _ _ =>
      rw [stream_drainNext, stream_deliver, hs, if_pos rfl, drainNext_sock]
      exact ⟨hs, hr, heq⟩
  | reach _ _ hnew _ _ => exact absurd (hnew.symm.trans hr) Bool.false_ne_true
  | ackFin =>
      have hview := rxView_sendAck a false
      rw [stream_of_rxView hview]
      exact ⟨(congrArg RxView.readShutdown hview).trans hs,
        (congrArg RxView.gotFinReached hview).trans hr, heq⟩
  | dropStragglers => exact ⟨hs, hr, heq⟩

/-- Packets ahead of the expected one are kept or dropped, never handed over. -/
theorem stream_outOfOrder (m : Detached) (v : UInt16) (k : Nat) (data : Bytes) :
    stream (m.receiveOutOfOrder v k data).1 = stream m := by
  unfold receiveOutOfOrder
  dsimp only
  split
  · rfl
  · split
    · rfl
    · split
      · rfl
      · exact (stream_of_rxView
          (scheduleAck_same ((m.growInbuf v k).storePacket v data)).1).trans rfl

/-- The FIN is noted once. -/
theorem noteFin_late {m : Detached} (h : m.sock.gotFin = true) (ty : UInt8) (v : UInt16) :
    m.noteFin ty v = m := by
  unfold noteFin
  exact if_neg (fun hbad => absurd (hbad.2.symm.trans h) Bool.false_ne_true)

/-- A socket that is shut for reading hands nothing over. -/
theorem stream_inOrder_shut {m : Detached} (hst : m.sock.state.isConnected = true)
    (hshut : m.sock.readShutdown = true) (hreached : m.sock.gotFinReached = true)
    (data : Bytes) : stream (m.receiveInOrder data) = stream m := by
  have hsock := acceptNext_sock m data
  have hst' : (m.acceptNext data).sock.state.isConnected = true := by
    rw [hsock]
    exact hst
  obtain ⟨hdrain, -⟩ := path_drainLoop ((m.acceptNext data).sock.reorderCount + 1) _ hst'
    (Nat.lt_succ_self _)
  have hsame := stream_drain_shut hdrain (by rw [hsock]; exact hshut)
    (by rw [hsock]; exact hreached)
  unfold receiveInOrder
  dsimp only
  rw [stream_of_rxView (scheduleAck_same _).1, hsame, stream_acceptNext, stream_deliver, hshut]
  rfl

/-- The receive side's share of a packet past the end. -/
theorem stream_receive {m : Detached} {buf : Bytes} {dataStart k : Nat}
    (hst : m.sock.state.isConnected = true) (hreached : m.sock.gotFinReached = true)
    (hfin : m.sock.gotFin = true)
    (hquiet : k = 0 → m.sock.readShutdown = false → buf.drop dataStart = []
      ∧ ¬ HandsOver m.sock.reorderCount m.sock.inbuf (m.sock.ackNr + 1)) :
    stream (m.receive buf dataStart k).1 = stream m := by
  unfold receive
  rw [noteFin_late hfin]
  dsimp only
  split
  · rename_i hk
    cases hshut : m.sock.readShutdown with
    | true => exact stream_inOrder_shut hst hshut hreached _
    | false =>
        obtain ⟨hdata, hsilent⟩ := hquiet hk hshut
        rw [hdata]
        exact stream_inOrder_empty hreached hsilent
  · exact stream_outOfOrder m _ _ _

/-- **PAST THE END NOTHING IS HANDED OVER**, but for the packets of `PastEof`. -/
theorem processIncoming_sealed {m : Detached} {buf : Bytes}
    (hreached : m.sock.gotFinReached = true) (hfin : m.sock.gotFin = true)
    (hlate : late m.sock.state) (hpast : ¬ PastEof m buf) :
    stream (m.processIncoming buf false).1 = stream m := by
  rcases processIncoming_cases (m := m) buf with ⟨hview, -⟩ | ⟨w, hty, hrange, hlen, hwalk, heq⟩
  · exact stream_of_rxView hview
  · rw [heq]
    obtain ⟨hview, hstate⟩ := rxView_admitted buf hlate.2.1
    rw [← stream_of_rxView hview]
    have hoff : seqOffset (admitted m buf).sock (seqNr buf) = seqOffset m.sock (seqNr buf) := by
      have hack : (admitted m buf).sock.ackNr = m.sock.ackNr := congrArg RxView.ackNr hview
      unfold seqOffset
      rw [hack]
    generalize admitted m buf = m₁ at hview hstate hoff ⊢
    rcases Nat.lt_or_ge (seqOffset m₁.sock (seqNr buf)) reorderBufferMaxSize with hlt | hge
    · obtain ⟨hackView, hchecked⟩ := processChecked_inside hwalk hlt
      have hback : (m₁.processAck buf w.selack).sock.state.isConnected = true →
          m₁.sock.state.isConnected = true :=
        connected_before (path_processAck m₁ buf _ w hwalk) (by rw [hstate]; exact hlate)
      rw [hchecked]
      generalize m₁.processAck buf w.selack = m₂ at hackView hback ⊢
      rw [← stream_of_rxView hackView]
      have hview₂ := hackView.trans hview
      split
      · rfl
      · rename_i hopen
        rw [not_or] at hopen
        have hst₂ : m₂.sock.state.isConnected = true := by
          cases hs : m₂.sock.state.isConnected with
          | true => rfl
          | false => exact absurd hs hopen.2
        refine stream_receive hst₂ ((congrArg RxView.gotFinReached hview₂).trans hreached)
          ((congrArg RxView.gotFin hview₂).trans hfin) (fun hk hshut => ?_)
        -- otherwise this is a packet past the end
        by_contra hbad
        refine hpast ⟨hreached, (congrArg RxView.readShutdown hview₂).symm.trans hshut, ?_,
          ⟨hty, hopen.1⟩, ?_, hlen, hoff.symm.trans hk, w, hwalk, ?_⟩
        · rw [← hstate]
          exact hback hst₂
        · cases hr : m.sock.ackOutOfRange (ackNr buf) with
          | false => rfl
          | true => exact absurd ⟨.inr hlate.2.2, hr⟩ hrange
        · have hcount : m₂.sock.reorderCount = m.sock.reorderCount :=
            congrArg RxView.reorderCount hview₂
          have hinbuf : m₂.sock.inbuf = m.sock.inbuf := congrArg RxView.inbuf hview₂
          have hack : m₂.sock.ackNr = m.sock.ackNr := congrArg RxView.ackNr hview₂
          rw [hcount, hinbuf, hack] at hbad
          by_contra hnone
          obtain ⟨hdata, hsilent⟩ := not_or.mp hnone
          exact hbad ⟨Decidable.of_not_not hdata, hsilent⟩
    · exact stream_of_rxView (processChecked_outside w hge).1

/-! ## Runs -/

/-- The operation hands a socket a packet past the end of its stream. -/
def Reopens (ctx : Context) : Op → Prop
  | .processUdp buf addr _ =>
      addr.port ≠ 0 ∧ wireVersion buf = 1 ∧ packetType buf ≠ stReset ∧ packetType buf ≠ stSyn
        ∧ ∃ s, ctx.sockets.lookup { addr := addr, recvId := (connId buf).toUInt32 } = some s
          ∧ PastEof (ctx.detach { addr := addr, recvId := (connId buf).toUInt32 } s) buf
  | _ => False

/-- A sealed cell among those in use. -/
structure StaysSealed (u : UserId) (ctx ctx' : Context) : Prop where
  allocated : u < ctx'.nextUser
  stream : Sealed (streams ctx u) (streams ctx' u)

/-- A new socket gets a new cell. -/
theorem StaysSealed.born {ctx : Context} {u : UserId} {m : Detached} {key : Key}
    (hu : u < ctx.nextUser) (heof : (streams ctx u).gotEof = true)
    (hnext : m.ctx.nextUser = ctx.nextUser + 1) {addr : SocketAddr}
    (husers : m.ctx.users = Function.update ctx.users ctx.nextUser (ConnCell.new addr)) :
    StaysSealed u ctx (Context.attach key m) := by
  have hsame : streams (Context.attach key m) u = streams ctx u := by
    show (m.ctx.users u).stream = _
    rw [husers, Function.update_of_ne (Nat.ne_of_lt hu)]
    rfl
  refine ⟨?_, ?_⟩
  · show u < m.ctx.nextUser
    rw [hnext]
    exact Nat.lt_succ_of_lt hu
  · rw [hsame]
    exact Sealed.refl heof

/-- An act without a datagram hands nothing over. -/
theorem streams_quiet {occ : Occasion} {l : Bytes} {m m' : Detached}
    (hno : occ.datagram = none) (h : Act occ l m m') : streams m'.ctx = streams m.ctx := by
  cases h with
  | tx h => exact streams_of_rxView h.rxView_eq
  | inOrder _ _ _ _ hacc => exact nomatch hno.symm.trans hacc.datagram
  | giveUp => exact streams_silent _ _ (fun c => stream_onError c _)
  | reset => exact streams_silent _ _ (fun c => stream_onError c _)
  | ack => exact streams_of_rxView (rxView_sendAck m _)
  | keepAlive => exact streams_of_rxView (rxView_sendKeepAlive m)
  | schedule => exact streams_of_rxView (scheduleAck_same m).1
  | _ => rfl

/-- Without a datagram nothing is handed over; reading only takes away. -/
theorem sealed_engineAct {occ : Occasion} {l : Bytes} {ctx ctx' : Context} {u : UserId}
    (hno : occ.datagram = none) (hact : EngineAct occ l ctx ctx') (hu : u < ctx.nextUser)
    (heof : (streams ctx u).gotEof = true) : StaysSealed u ctx ctx' := by
  -- most acts leave the streams and can only add users
  have hsame : ∀ ctx₁ : Context, ctx.nextUser ≤ ctx₁.nextUser →
      streams ctx₁ u = streams ctx u → StaysSealed u ctx ctx₁ := by
    intro ctx₁ hnext hs
    refine ⟨Nat.lt_of_lt_of_le hu hnext, ?_⟩
    rw [hs]
    exact Sealed.refl heof
  cases hact with
  | sock key hout hstep =>
      exact hsame _ (Nat.le_of_eq (congrArg Surroundings.nextUser hstep.surroundings_eq).symm)
        (congrFun (streams_quiet hno hstep) u)
  | dial _ addr seed rng _ _ =>
      exact .born hu heof (dialled_user ctx addr seed rng).2 (dialled_fresh ctx addr seed rng).2
  | accept _ _ _ hdat => exact nomatch hno.symm.trans hdat
  | remove key m _ hout =>
      exact hsame _ (Nat.le_of_eq (destroySock_nextUser m).symm)
        (congrFun (streams_destroySock m) u)
  | reject _ _ _ hdat => exact nomatch hno.symm.trans hdat
  | settings => exact hsame _ (Nat.le_refl _) rfl
  | takeAcks => exact hsame _ (Nat.le_refl _) rfl
  | consume _ user len =>
      refine ⟨hu, ?_⟩
      show Sealed _ (streams (ctx.onUser user _) u)
      rw [streams_onUser]
      split
      · -- consuming shortens what waits to be read, nothing else
        rename_i huser
        rw [huser] at heof ⊢
        exact ⟨heof, rfl, List.drop_suffix len _⟩
      · exact Sealed.refl heof
  | markClosed _ user =>
      exact hsame _ (Nat.le_refl _) (congrFun (streams_markClosed ctx user) u)

theorem sealed_path {occ : Occasion} {l : Bytes} {ctx ctx' : Context} {u : UserId}
    (hno : occ.datagram = none) (hpath : EnginePath occ l ctx ctx') (hu : u < ctx.nextUser)
    (heof : (streams ctx u).gotEof = true) : StaysSealed u ctx ctx' := by
  refine Steps.invariant (P := StaysSealed u ctx) (fun _ a b hab h => ?_) hpath
    ⟨hu, Sealed.refl heof⟩
  have hstep := sealed_engineAct hno hab h.allocated h.stream.eof
  exact ⟨hstep.allocated, h.stream.trans hstep.stream⟩

/-- A path touches the stream of the own cell only. -/
theorem ownCell_path {occ : Occasion} {l : Bytes} {m m' : Detached} (h : ActPath occ l m m') :
    OwnCell m m' :=
  Steps.lift OwnCell.refl OwnCell.trans (fun _ _ _ ha => ownCell_act ha) h

/-- The datagram of a known connection. -/
theorem sealed_withSock {ctx : Context} (h : Reachable ctx) {key : Key} {buf : Bytes}
    {u : UserId} (heof : (streams ctx u).gotEof = true)
    (hpast : ∀ s, ctx.sockets.lookup key = some s → ¬ PastEof (ctx.detach key s) buf) :
    streams (ctx.withSock key (fun m => (m.processIncoming buf false).1)) u
      = streams ctx u := by
  unfold Context.withSock
  split
  · rfl
  · rename_i s hs
    have hpath : ActPath ⟨some buf, false, false⟩ [] (ctx.detach key s)
        ((ctx.detach key s).processIncoming buf false).1 :=
      path_processIncoming (ctx.detach key s) buf false rfl
    have hown := ownCell_path hpath
    -- the user of the socket that takes the datagram, or a bystander
    by_cases hu : u = s.user
    · have hreached : s.gotFinReached = true := by
        rw [← (reachable_cellInv h).eof key s hs, ← hu]
        exact heof
      have hfin : s.gotFin = true := (reachable_recvInv h key s hs).reached hreached
      have hsame := processIncoming_sealed (m := ctx.detach key s) hreached hfin
        (reachable_finLate h key s hs hfin) (hpast s hs)
      unfold stream at hsame
      rw [hown.user] at hsame
      rw [hu]
      exact hsame
    · exact hown.others u hu

/-- The answer to a SYN hands nothing over. -/
theorem streams_acceptSyn (ctx : Context) (buf : Bytes) (addr : SocketAddr) {u : UserId}
    (hu : u < ctx.nextUser) : streams (ctx.acceptSyn buf addr).ctx u = streams ctx u := by
  have hsyn : ∀ m : Detached, streams (m.processIncoming buf true).1.ctx = streams m.ctx := by
    intro m
    unfold processIncoming
    dsimp only
    split
    · rfl
    · split
      · rfl
      · split
        · rfl
        · split
          · rfl
          · rfl
  unfold Context.acceptSyn
  rw [streams_of_rxView (rxView_sendAck _ true), hsyn]
  show ((ctx.accepting buf addr).ctx.users u).stream = _
  rw [(accepting_fresh ctx buf addr).2, Function.update_of_ne (Nat.ne_of_lt hu)]
  rfl

/-- A datagram leaves a stream sealed, unless it reopens it. -/
theorem sealed_processUdp {ctx : Context} (h : Reachable ctx) {buf : Bytes} {addr : SocketAddr}
    {firewall : SocketAddr → Bool} (hgood : ¬ Reopens ctx (.processUdp buf addr firewall))
    {u : UserId} (hu : u < ctx.nextUser) (heof : (streams ctx u).gotEof = true) :
    streams (ctx.processUdp buf addr firewall).1 u = streams ctx u := by
  unfold Context.processUdp
  dsimp only
  split
  · rfl
  · split
    · rfl
    · rename_i hport
      split
      · rfl
      · rename_i hver
        split
        · split
          · -- an RST reports an error, which is no byte
            unfold Context.withSock
            split
            · rfl
            · exact congrFun (streams_silent _ _ (fun c => stream_onError c _)) u
          · rfl
        · rename_i hrst
          split
          · rename_i hknown
            -- a known connection takes the datagram: here the condition is used
            refine sealed_withSock h heof (fun s hs hpast => hgood ?_)
            exact ⟨hport, not_not.mp hver, hrst, hknown.1, s, hs, hpast⟩
          · split
            · exact congrFun (streams_rejectUnknown ..) u
            · split
              · rfl
              · split
                · rfl
                · split
                  · rfl
                  · -- the new connection has a user of its own
                    exact streams_acceptSyn ctx buf addr hu

/-- **ONE OPERATION** leaves a stream sealed. -/
theorem sealed_step {ctx ctx' : Context} {op : Op} (h : Reachable ctx)
    (hstep : ctx.step op = some ctx') (hgood : ¬ Reopens ctx op) {u : UserId}
    (hu : u < ctx.nextUser) (heof : (streams ctx u).gotEof = true) : StaysSealed u ctx ctx' := by
  by_cases hno : (Op.occasion op).datagram = none
  · exact sealed_path hno (path_step hstep) hu heof
  · refine ⟨Nat.lt_of_lt_of_le hu (step_nextUser hstep), ?_⟩
    cases op with
    | processUdp buf addr firewall =>
        obtain rfl := Option.some.inj hstep
        rw [sealed_processUdp h hgood hu heof]
        exact Sealed.refl heof
    | _ => exact absurd rfl hno

theorem sealed_run {ctx ctx' : Context} (h : Reachable ctx) (hrun : RunAvoiding Reopens ctx ctx')
    {u : UserId} (hu : u < ctx.nextUser) (heof : (streams ctx u).gotEof = true) :
    StaysSealed u ctx ctx' := by
  induction hrun with
  | refl => exact ⟨hu, Sealed.refl heof⟩
  | step op hprev hgood hstep ih =>
      have hstep' := sealed_step (RunAvoiding.reachable hprev h) hstep hgood ih.allocated ih.stream.eof
      exact ⟨hstep'.allocated, ih.stream.trans hstep'.stream⟩

/-- A stream that was told to end has ended. -/
theorem eofCount_pos {calls : List Callback} (h : Callback.onEof ∈ calls) : 0 < eofCount calls := by
  induction calls with
  | nil => exact nomatch h
  | cons c rest ih =>
      rcases List.mem_cons.mp h with rfl | hrest
      · exact Nat.succ_pos _
      · have := ih hrest
        cases c <;> simp only [eofCount] <;> omega

/-- A read reports the end when nothing is left to read. -/
theorem recv_eof_iff (ctx : Context) (key : Key) (u : UserId) (len : Nat) :
    (ctx.recv key u len).2 = .eof ↔ (ctx.users u).readBuf = [] ∧ (ctx.users u).gotEof = true := by
  have hlook : (ctx.recv key u len).2 = ConnCell.look (ctx.users u) len := by
    unfold Context.recv
    dsimp only
    split
    · split <;> rfl
    · rfl
  rw [hlook]
  unfold ConnCell.look
  by_cases hbuf : (ctx.users u).readBuf = []
  · rw [if_neg (not_not.mpr hbuf)]
    cases (ctx.users u).gotEof with
    | true => simp [hbuf]
    | false =>
        cases (ctx.users u).error with
        | some kind => simp
        | none => cases (ctx.users u).destroyed <;> cases (ctx.users u).closed <;> simp
  · rw [if_pos hbuf]
    simp [hbuf]

/-- **EOF IS FINAL** in every run in which no socket is handed a packet past the
    end of its stream: once `on_eof` has been called on a connection, nothing is
    appended to its read buffer, and a reader that was told of the end is told
    so again. -/
theorem eof_final {ctx ctx' : Context} (h : Reachable ctx)
    (hrun : RunAvoiding Reopens ctx ctx') {u : UserId} (hu : u < ctx.nextUser)
    (heof : Callback.onEof ∈ (ctx.users u).calls) :
    deliveredBytes (ctx'.users u).calls = deliveredBytes (ctx.users u).calls
      ∧ (ctx'.users u).readBuf <:+ (ctx.users u).readBuf
      ∧ ∀ key len key' len', (ctx.recv key u len).2 = .eof → (ctx'.recv key' u len').2 = .eof := by
  have hgot : (streams ctx u).gotEof = true := by
    rw [(reachable_cellInv h).counted u hu]
    exact decide_eq_true (eofCount_pos heof)
  have hsealed := (sealed_run h hrun hu hgot).stream
  refine ⟨hsealed.bytes, hsealed.rest, fun key len key' len' hrecv => ?_⟩
  rw [recv_eof_iff] at hrecv ⊢
  refine ⟨?_, hsealed.eof⟩
  have hrest : (ctx'.users u).readBuf <:+ (ctx.users u).readBuf := hsealed.rest
  rw [hrecv.1] at hrest
  exact List.suffix_nil.mp hrest

/-- The accepted connection receives its FIN, and its reader reads everything. -/
def finOps : List Op :=
  acceptOps ++ [arrives (datagram stFin 1001 3 52654 []), .recv acceptedKey 0 10]

/-- An ack that arrives after the end changes nothing for the reader. -/
theorem eof_final_ack :
    ∃ ctx ctx', Reachable ctx ∧ RunAvoiding Reopens ctx ctx'
      ∧ Callback.onEof ∈ (ctx.users 0).calls
      ∧ deliveredBytes (ctx'.users 0).calls = deliveredBytes (ctx.users 0).calls
      ∧ (ctx'.recv acceptedKey 0 10).2 = .eof := by
  have hfin : ((freshEngine 0).run finOps).map (fun ctx => decide (0 < ctx.nextUser
      ∧ Callback.onEof ∈ (ctx.users 0).calls ∧ (ctx.recv acceptedKey 0 10).2 = .eof))
      = some true := by decide +kernel
  obtain ⟨ctx, hrun, hctx⟩ := Option.map_eq_some_iff.mp hfin
  obtain ⟨hu, heof, hrecv⟩ := of_decide_eq_true hctx
  have hreach : Reachable ctx := reachable_run finOps (.new _ _ _ _ _) hrun
  have hstep : RunAvoiding Reopens ctx _ :=
    (AvoidingRun.refl ctx).step (arrives (datagram stState 1001 4 52654 []))
      (fun ⟨_, _, _, _, _, _, hpast⟩ => hpast.kind.2 (by decide)) rfl
  obtain ⟨hbytes, -, hreads⟩ := eof_final hreach hstep hu heof
  exact ⟨ctx, _, hreach, hstep, heof, hbytes, hreads _ _ _ _ hrecv⟩

/-- The packet after the FIN is handed over although the reader was told of the
    end. -/
theorem eof_reopened :
    ((freshEngine 0).run finOps).map (fun ctx => (deliveredBytes (ctx.users 0).calls,
        decide (Callback.onEof ∈ (ctx.users 0).calls), (ctx.recv acceptedKey 0 10).2))
      = some ([7], true, .eof)
    ∧ ((freshEngine 0).run (finOps ++ [arrives (datagram stData 1001 4 52654 [9])])).map
        (fun ctx => (deliveredBytes (ctx.users 0).calls, (ctx.recv acceptedKey 0 10).2))
      = some ([7, 9], .data [9]) := by
  refine ⟨by decide +kernel, by decide +kernel⟩

end UtpEof
