import RustUtp.Acts.Boundary

/-! # The life of a connection — states only move forward

    The states are ranked, and every act but one moves a socket up or leaves it
    where it is.  The exception is an RST that hits a socket which is already
    waiting for its teardown without its owner's close on record: it brings the
    socket back to `Reset`, where nothing removes it any more. -/

namespace UtpLifecycle

open UtpCircular UtpPacket UtpUtil UtpConnShared UtpEngine UtpEngine.Detached UtpActs
  LabelledPath

/-- `Idle < SynSent, SynRecv < Connected, ConnectedFull < Reset < Destroy` -/
def rank : ConnState → Nat
  | .idle => 0
  | .synSent => 1
  | .synRecv => 1
  | .connected => 2
  | .connectedFull => 2
  | .reset => 3
  | .destroy => 4

/-- No state comes after `Destroy`. -/
theorem rank_le_destroy (st : ConnState) : rank st ≤ rank .destroy := by
  cases st <;> decide

/-- `Destroy` is the only state of its rank. -/
theorem eq_destroy_of_rank {st : ConnState} (h : rank .destroy ≤ rank st) : st = .destroy := by
  cases st <;> first | rfl | exact absurd h (by decide)

/-! ## What an act can do to the state

    `Move occ st r st' r'` lists the changes of the state and of the record of
    the owner's close. -/

/-- Is the datagram of an occasion an RST? -/
def Occasion.isReset (occ : Occasion) : Prop :=
  ∃ buf, occ.datagram = some buf ∧ packetType buf = stReset

inductive Move (occ : Occasion) : ConnState → Bool → ConnState → Bool → Prop where
  | stay (st : ConnState) (r : Bool) : Move occ st r st r
  | accepted (r : Bool) : Move occ .synRecv r .connected r
  | dialed (r : Bool) : Move occ .synSent r .connected r
  | full (r : Bool) : Move occ .connected r .connectedFull r
  | writable (r : Bool) : Move occ .connectedFull r .connected r
  | record {st : ConnState} (r : Bool) (h : st.isConnected = true) : Move occ st r st true
  /-- a close that is on record is completed -/
  | finish (st : ConnState) : Move occ st true .destroy true
  | abandon {st : ConnState} (r : Bool) (h : st.isConnected = false) :
      Move occ st r .destroy r
  | giveUp {st : ConnState} (r : Bool) (h : st = .synSent ∨ st.isConnected = true) :
      Move occ st r (if r then .destroy else .reset) r
  | reset (st : ConnState) (r : Bool) (h : Occasion.isReset occ) :
      Move occ st r (if r then .destroy else .reset) r

/-- The move from one socket state to another. -/
abbrev Moves (occ : Occasion) (s s' : UtpSock) : Prop :=
  Move occ s.state s.closeRequested s'.state s'.closeRequested

/-- An act that leaves both the state and the request. -/
theorem moves_of_same {occ : Occasion} {s s' : UtpSock} (hst : s'.state = s.state)
    (hreq : s'.closeRequested = s.closeRequested) : Moves occ s s' := by
  unfold Moves
  rw [hst, hreq]
  exact .stay _ _

/-- Transmitting a packet leaves the state. -/
theorem state_sendPacketAt (m : Detached) (seq : UInt16) :
    (m.sendPacketAt seq).sock.state = m.sock.state := (kept_sendPacketAt m seq).state

/-- Taking an acked packet leaves the state. -/
theorem state_ackPacket (m : Detached) (seq : UInt16) :
    (m.ackPacket seq).1.sock.state = m.sock.state := by
  unfold ackPacket
  split
  · rfl
  · split <;> rfl

/-- Taking one after the other does, too. -/
theorem state_ackLoop (n : Nat) : ∀ m : Detached, (ackLoop n m).sock.state = m.sock.state := by
  induction n with
  | zero => intro m; rfl
  | succ n ih =>
      intro m
      rw [ackLoop]
      split
      · exact state_ackPacket m _
      · rw [ih]
        exact state_ackPacket m _

theorem state_shrinkLoop (n : Nat) :
    ∀ m : Detached, (shrinkLoop n m).sock.state = m.sock.state := by
  induction n with
  | zero => intro m; rfl
  | succ n ih =>
      intro m
      rw [shrinkLoop]
      split
      · rw [ih]
      · rfl

/-- A cumulative ack leaves the state; what follows from it comes later. -/
theorem state_ackCumulative (acks : Nat) (m : Detached) :
    (ackCumulative acks m).sock.state = m.sock.state := by
  unfold ackCumulative
  show (shrinkLoop _ _).sock.state = m.sock.state
  rw [state_shrinkLoop, state_ackLoop]

/-- Marking a packet lost leaves the state. -/
theorem state_markLost (m : Detached) (seq : UInt16) :
    (m.markLost seq).sock.state = m.sock.state := by
  unfold markLost
  split
  · rfl
  · split <;> rfl

/-- **WHAT THE SEND SIDE DOES TO THE STATE**, act by act. -/
theorem moves_tx {occ : Occasion} {l : Bytes} {m m' : Detached}
    (h : TxAct occ.datagram l m m') : Moves occ m.sock m'.sock := by
  have hreq : m'.sock.closeRequested = m.sock.closeRequested :=
    congrArg RxView.closeRequested h.rxView_eq
  unfold Moves
  rw [hreq]
  cases h with
  | sendPacket => rw [state_sendPacketAt]; exact .stay _ _
  | ackCum => rw [state_ackCumulative]; exact .stay _ _
  | ackSel => rw [state_ackPacket]; exact .stay _ _
  | lose => rw [state_markLost]; exact .stay _ _
  | established _ _ _ _ hst => rw [hst]; exact .accepted _
  | dialed _ _ _ _ hst => rw [hst]; exact .dialed _
  | finAcked =>
      -- the ack of the FIN ends a connection that was asked to close
      dsimp only
      cases m.sock.closeRequested with
      | true => exact .finish _
      | false => exact .stay _ _
  | becomeFull _ hst => rw [hst]; exact .full _
  | becomeWritable _ hst => rw [hst]; exact .writable _
  | _ => exact .stay _ _

/-- Draining the buffer leaves the state, even if it reaches the FIN. -/
theorem same_drain {m m' : Detached} {data : Bytes}
    (h : DrainPath [] (m.acceptNext data) m') :
    m'.sock.state = m.sock.state ∧ m'.sock.closeRequested = m.sock.closeRequested := by
  refine DrainPath.lift (S := fun a b : Detached =>
    b.sock.state = a.sock.state ∧ b.sock.closeRequested = a.sock.closeRequested)
    (fun _ => ⟨rfl, rfl⟩) (fun _ _ _ hab hbc => ⟨hbc.1.trans hab.1, hbc.2.trans hab.2⟩)
    (fun _ a b hab => ?_) (by rw [acceptNext_sock]; exact ⟨rfl, rfl⟩) h
  cases hab with
  | drain => rw [drainNext_sock]; exact ⟨rfl, rfl⟩
  | reach => exact ⟨rfl, rfl⟩
  | ackFin =>
      exact ⟨state_sendAck a _, congrArg RxView.closeRequested (rxView_sendAck a _)⟩
  | dropStragglers => exact ⟨rfl, rfl⟩

/-- **WHAT ANY ACT DOES TO THE STATE.** -/
theorem moves_act {occ : Occasion} {l : Bytes} {m m' : Detached} (h : Act occ l m m') :
    Moves occ m.sock m'.sock := by
  cases h with
  | tx h => exact moves_tx h
  | closing _ hst => exact .record _ hst
  | closeAcked _ _ hreq _ =>
      unfold Moves
      dsimp only
      rw [hreq]
      exact .finish _
  | abandon _ hst => exact .abandon _ hst
  | giveUp _ st hst =>
      -- a half-open socket is abandoned, any other gives up
      rcases hst with ⟨hst, rfl⟩ | ⟨hst, rfl⟩
      · exact .abandon _ (by rw [hst]; rfl)
      · exact .giveUp _ hst
  | inOrder _ _ _ _ _ _ _ hdrain =>
      -- handing packets on leaves the state
      obtain ⟨hst, hreq⟩ := same_drain hdrain
      exact moves_of_same hst hreq
  | ack =>
      exact moves_of_same (state_sendAck m _)
        (congrArg RxView.closeRequested (rxView_sendAck m _))
  | schedule => unfold scheduleAck; split <;> exact .stay _ _
  | keepAlive =>
      exact moves_of_same (state_sendAck _ _)
        (congrArg RxView.closeRequested (rxView_sendAck _ _))
  | reset _ buf hdat hty => exact .reset _ _ ⟨buf, hdat, hty⟩
  | _ => exact .stay _ _

/-- No move leads back to `SynSent`. -/
theorem Move.synSent {occ : Occasion} {st st' : ConnState} {r r' : Bool}
    (h : Move occ st r st' r') (hst : st' = .synSent) : st = .synSent := by
  cases h with
  | stay => exact hst
  | record => exact hst
  | giveUp r _ => cases r <;> exact nomatch hst
  | reset _ r _ => cases r <;> exact nomatch hst
  | _ => exact nomatch hst

/-! ## Every act but a reset moves forward -/

/-- The owner has closed the socket: either the close is on record, or the
    close took the socket straight to `Destroy`. -/
def OwnerClosed (s : UtpSock) : Prop := s.closeRequested = true ∨ s.state = .destroy

/-- From `s` to a later state of the same socket. -/
structure Forward (s s' : UtpSock) : Prop where
  rank_le : rank s.state ≤ rank s'.state
  requested : s.closeRequested = true → s'.closeRequested = true

namespace Forward

theorem refl (s : UtpSock) : Forward s s := ⟨Nat.le_refl _, id⟩

theorem trans (s₁ s₂ s₃ : UtpSock) (h : Forward s₁ s₂) (h' : Forward s₂ s₃) :
    Forward s₁ s₃ :=
  ⟨h.rank_le.trans h'.rank_le, h'.requested ∘ h.requested⟩

/-- `Destroy` is final on the way forward. -/
theorem destroyed {s s' : UtpSock} (h : Forward s s') (hs : s.state = .destroy) :
    s'.state = .destroy := by
  have := h.rank_le
  rw [hs] at this
  exact eq_destroy_of_rank this

/-- A close of the owner is not taken back on the way forward. -/
theorem closed {s s' : UtpSock} (h : Forward s s') (hs : OwnerClosed s) : OwnerClosed s' :=
  hs.imp h.requested h.destroyed

end Forward

/-- Both connected states have the same rank. -/
theorem rank_of_isConnected {st : ConnState} (h : st.isConnected = true) : rank st = 2 := by
  cases st <;> first | rfl | exact nomatch h

/-- A move that is no reset goes forward. -/
theorem Move.forward {occ : Occasion} {st st' : ConnState} {r r' : Bool}
    (h : Move occ st r st' r') (hocc : ¬ Occasion.isReset occ) :
    rank st ≤ rank st' ∧ (r = true → r' = true) := by
  cases h with
  | stay => exact ⟨Nat.le_refl _, id⟩
  | accepted => exact ⟨by decide, id⟩
  | dialed => exact ⟨by decide, id⟩
  | full => exact ⟨by decide, id⟩
  | writable => exact ⟨by decide, id⟩
  | record _ _ => exact ⟨Nat.le_refl _, fun _ => rfl⟩
  | finish => exact ⟨rank_le_destroy _, id⟩
  | abandon => exact ⟨rank_le_destroy _, id⟩
  | giveUp _ hst =>
      have hlow : rank st ≤ 2 := by
        rcases hst with rfl | hst
        · decide
        · exact Nat.le_of_eq (rank_of_isConnected hst)
      refine ⟨hlow.trans ?_, id⟩
      cases r <;> decide
  | reset _ _ h => exact absurd h hocc

/-- An act that is no reset goes forward. -/
theorem forward_act {occ : Occasion} (hocc : ¬ Occasion.isReset occ) (l : Bytes)
    (m m' : Detached) (h : Act occ l m m') : Forward m.sock m'.sock :=
  ⟨((moves_act h).forward hocc).1, ((moves_act h).forward hocc).2⟩

/-! ## A recorded close excludes `Reset` -/

/-- A close is recorded on an established connection only. -/
def CloseOk (st : ConnState) (r : Bool) : Prop :=
  r = true → st.isConnected = true ∨ st = .destroy

/-- No move leads to `Reset` once a close is recorded. -/
theorem Move.closeOk {occ : Occasion} {st st' : ConnState} {r r' : Bool}
    (h : Move occ st r st' r') (hok : CloseOk st r) : CloseOk st' r' := by
  cases h with
  | stay => exact hok
  | accepted => exact fun _ => .inl rfl
  | dialed => exact fun _ => .inl rfl
  | full => exact fun _ => .inl rfl
  | writable => exact fun _ => .inl rfl
  | record _ hst => exact fun _ => .inl hst
  | finish => exact fun _ => .inr rfl
  | abandon => exact fun _ => .inr rfl
  | giveUp => exact fun hr => .inr (if_pos hr)
  | reset => exact fun hr => .inr (if_pos hr)

/-- In every reachable state a recorded close excludes `Reset`. -/
theorem reachable_closeOk {ctx : Context} (h : Reachable ctx) :
    EverySock (fun s => CloseOk s.state s.closeRequested) ctx :=
  Reachable.everySock (fun _ _ _ _ ha hok => (moves_act ha).closeOk hok)
    (fun _ _ _ _ hr => nomatch hr) (fun _ _ _ hr => nomatch hr) h

/-! ## The one step that moves back -/

/-- The socket an incoming RST takes effect on. -/
def rstHits (ctx : Context) (buf : Bytes) (addr : SocketAddr) : Option UtpSock :=
  if buf.length < headerSize ∨ addr.port = 0 ∨ wireVersion buf ≠ 1 ∨ packetType buf ≠ stReset then
    none
  else (ctx.rstTarget addr (connId buf).toUInt32).bind (fun key => ctx.sockets.lookup key)

/-- The operation is an RST for a socket that waits in `Destroy` without a
    recorded close. -/
def Revives (ctx : Context) : Op → Prop
  | .processUdp buf addr _ =>
      ∃ s, rstHits ctx buf addr = some s ∧ s.state = .destroy ∧ s.closeRequested = false
  | _ => False

/-- An operation on one socket follows all sockets if it follows this one. -/
theorem traces_withSock {R : UtpSock → UtpSock → Prop} (hR : ∀ s, R s s) {ctx : Context}
    {key : Key} {f : Detached → Detached}
    (hf : ∀ s, ctx.sockets.lookup key = some s →
      surroundings (f (ctx.detach key s)).ctx = surroundings (ctx.detach key s).ctx
        ∧ (f (ctx.detach key s)).sock.user = s.user ∧ R s (f (ctx.detach key s)).sock) :
    Traces R ctx (ctx.withSock key f) := by
  unfold Context.withSock
  split
  · exact Traces.refl hR ctx
  · rename_i sock hsock
    obtain ⟨hsame, huser, hrel⟩ := hf sock hsock
    refine ⟨Nat.le_of_eq (congrArg Surroundings.nextUser hsame).symm, fun k s' hs' => .inr ?_⟩
    rw [lookup_attach] at hs'
    split at hs'
    · -- the socket worked on, or one that was left alone
      rename_i hk
      obtain rfl := Option.some.inj hs'
      exact ⟨sock, hk ▸ hsock, huser.symm, hrel⟩
    · rename_i hk
      rw [show (f (ctx.detach key sock)).ctx.sockets = (ctx.detach key sock).ctx.sockets from
        congrArg Surroundings.sockets hsame] at hs'
      refine ⟨s', ?_, rfl, hR s'⟩
      rw [← hs']
      exact (Finmap.lookup_erase_ne hk).symm

/-- An RST moves its target forward unless it revives it. -/
theorem forward_reset {m : Detached}
    (h : ¬ (m.sock.state = .destroy ∧ m.sock.closeRequested = false)) :
    Forward m.sock (Context.resetSock m).sock := by
  refine ⟨?_, id⟩
  show rank m.sock.state ≤ rank (if m.sock.closeRequested then .destroy else .reset)
  cases hreq : m.sock.closeRequested with
  | true => exact rank_le_destroy _
  | false =>
      have hne : m.sock.state ≠ .destroy := fun hst => h ⟨hst, hreq⟩
      revert hne
      cases m.sock.state <;> decide

/-- An RST moves forward, but for the sockets it revives. -/
theorem traces_reset {ctx : Context} {buf : Bytes} {addr : SocketAddr}
    {firewall : SocketAddr → Bool} (hty : packetType buf = stReset)
    (h : ¬ Revives ctx (.processUdp buf addr firewall)) :
    Traces Forward ctx (ctx.processUdp buf addr firewall).1 := by
  unfold Context.processUdp
  dsimp only
  split
  · exact Traces.refl Forward.refl ctx
  · rename_i hlen
    split
    · exact Traces.refl Forward.refl ctx
    · rename_i hport
      split
      · exact Traces.refl Forward.refl ctx
      · rename_i hver
        split
        · -- the socket the RST is for: here the condition is used
          rename_i key htarget
          refine traces_withSock Forward.refl (fun s hs => ⟨rfl, rfl,
            forward_reset (m := ctx.detach key s) (fun hbad => ?_)⟩)
          refine h ⟨s, ?_, hbad.1, hbad.2⟩
          unfold rstHits
          rw [if_neg (by simp only [not_or]; exact ⟨hlen, hport, hver, not_not.mpr hty⟩), htarget]
          exact hs
        · exact Traces.refl Forward.refl ctx

/-- **ONE OPERATION MOVES FORWARD** unless it revives a socket. -/
theorem traces_step {ctx ctx' : Context} {op : Op} (hstep : ctx.step op = some ctx')
    (h : ¬ Revives ctx op) : Traces Forward ctx ctx' := by
  by_cases hocc : Occasion.isReset (Op.occasion op)
  · obtain ⟨buf, hdat, hty⟩ := hocc
    cases op with
    | processUdp buf' addr firewall =>
        obtain rfl : buf' = buf := Option.some.inj hdat
        obtain rfl := Option.some.inj hstep
        exact traces_reset hty h
    | _ => exact nomatch hdat
  · exact EnginePath.traces Forward.refl Forward.trans (forward_act hocc) (path_step hstep)

/-- Operations one after another, none of which revives a socket. -/
abbrev GoodRun : Context → Context → Prop := RunAvoiding Revives

theorem GoodRun.traces {ctx ctx' : Context} (h : GoodRun ctx ctx') : Traces Forward ctx ctx' := by
  induction h with
  | refl => exact Traces.refl Forward.refl _
  | step op _ hgood hstep ih => exact Traces.trans Forward.trans ih (traces_step hstep hgood)

/-- A socket that is still there has only moved forward. -/
theorem Traces.same {R : UtpSock → UtpSock → Prop} {ctx ctx' : Context} (h : Traces R ctx ctx')
    (hreach : Reachable ctx) {key : Key} {s s' : UtpSock}
    (hs : ctx.sockets.lookup key = some s) (hs' : ctx'.sockets.lookup key = some s')
    (huser : s'.user = s.user) : R s s' := by
  rcases h.2 key s' hs' with hnew | ⟨s₀, hs₀, -, hR⟩
  · have hlt := reachable_users hreach key s hs
    rw [huser] at hnew
    exact absurd hnew.1 (Nat.not_le.mpr hlt)
  · rw [hs] at hs₀
    obtain rfl := Option.some.inj hs₀
    exact hR

/-! ## Teardown -/

/-- The operation is a `check_timeouts` that is not rate-limited. -/
def Sweeps (ctx : Context) : Op → Prop
  | .checkTimeouts _ => ctx.rateLimited = false
  | _ => False

/-- A destroyed socket has no timers left. -/
theorem checkTimeouts_destroy {m : Detached} (h : m.sock.state = .destroy) :
    m.checkTimeouts = m := by
  unfold checkTimeouts
  simp only [h, ne_eq, not_true_eq_false, if_false]

/-- The sweep removes a destroyed socket when it comes by. -/
theorem checkSock_destroy {ctx : Context} {key : Key} {s : UtpSock}
    (hs : ctx.sockets.lookup key = some s) (hst : s.state = .destroy) :
    (ctx.checkSock key).sockets.lookup key = none := by
  unfold Context.checkSock
  rw [hs]
  have hst' : (ctx.detach key s).sock.state = .destroy := hst
  dsimp only
  rw [checkTimeouts_destroy hst', if_pos hst', destroySock_sockets]
  exact Finmap.lookup_erase key ctx.sockets

/-- A sweep that comes by a destroyed socket leaves it removed. The induction is
    on the keys still to visit. -/
theorem sweep_destroy {key : Key} (order : List Key) :
    ∀ ctx : Context, (∃ s, ctx.sockets.lookup key = some s ∧ s.state = .destroy)
        ∧ key ∈ order ∨ ctx.sockets.lookup key = none →
      (order.foldl Context.checkSock ctx).sockets.lookup key = none := by
  induction order with
  | nil =>
      intro ctx h
      rcases h with ⟨-, hmem⟩ | hnone
      · exact nomatch hmem
      · exact hnone
  | cons k rest ih =>
      intro ctx h
      rw [List.foldl_cons]
      refine ih _ ?_
      -- its own turn removes it, another's leaves it
      by_cases hk : key = k
      · subst hk
        rcases h with ⟨⟨s, hs, hst⟩, -⟩ | hnone
        · exact .inr (checkSock_destroy hs hst)
        · refine .inr ?_
          rw [Context.checkSock, hnone]
          exact hnone
      · rw [checkSock_other hk]
        exact h.imp_left (fun ⟨hs, hmem⟩ => ⟨hs, (List.mem_cons.mp hmem).resolve_left hk⟩)

/-- A sweep removes every socket in `Destroy`. -/
theorem sweep_removes {ctx ctx' : Context} {op : Op} (hstep : ctx.step op = some ctx')
    (hsweep : Sweeps ctx op) {key : Key} {s : UtpSock} (hs : ctx.sockets.lookup key = some s)
    (hst : s.state = .destroy) : ctx'.sockets.lookup key = none := by
  cases op with
  | checkTimeouts order =>
      obtain ⟨henum, hctx⟩ := Option.ite_none_right_eq_some.mp hstep
      obtain rfl := Option.some.inj hctx
      have hmem : key ∈ order := by
        rw [← List.mem_toFinset, henum.2, Finmap.mem_keys]
        exact Finmap.mem_of_lookup_eq_some hs
      unfold Context.checkTimeouts
      rw [show ctx.rateLimited = false from hsweep]
      exact sweep_destroy order _ (.inl ⟨⟨s, hs, hst⟩, hmem⟩)
  | _ => exact hsweep.elim

/-- Nothing else removes a socket, short of tearing the engine down. -/
theorem no_sweep_keeps {ctx ctx' : Context} {op : Op} (hstep : ctx.step op = some ctx')
    (hsweep : ¬ Sweeps ctx op) (hop : ∀ order, op ≠ .destroyAll order) : Keeps ctx ctx' := by
  cases op with
  | checkTimeouts order =>
      obtain ⟨-, hctx⟩ := Option.ite_none_right_eq_some.mp hstep
      obtain rfl := Option.some.inj hctx
      have hlim : ctx.rateLimited = true := by
        rw [← Bool.not_eq_false]
        exact hsweep
      unfold Context.checkTimeouts
      rw [hlim]
      exact fun key s hs => ⟨s, hs, rfl⟩
  | destroyAll order => exact absurd rfl (hop order)
  | _ => exact EnginePath.keeps rfl (path_step hstep)

/-! ## Closing -/

/-- After a close the owner has closed. -/
theorem closeEngine_closed (m : Detached) : OwnerClosed m.closeEngine.sock := by
  have hconn : ∀ m : Detached, m.sock.state.isConnected = true →
      OwnerClosed m.closeConnected.sock := by
    intro m hst
    unfold closeConnected
    dsimp only
    split
    · -- a FIN can be written: the request is recorded
      rename_i hfin
      have hpath : ActPath ⟨none, false, false⟩ [] _ _ := path_writeFin
        ({ m with sock := { m.sock with readShutdown := true, closeRequested := true } })
        hst hfin
      refine .inl ((Steps.lift (S := fun a b : Detached => Forward a.sock b.sock)
        (fun _ => Forward.refl _) (fun _ _ _ => Forward.trans _ _ _)
        (forward_act (fun ⟨_, hdat, _⟩ => nomatch hdat)) hpath).requested rfl)
    · split
      · exact .inr rfl
      · exact .inl rfl
  -- connected, or not: then the socket is destroyed
  unfold closeEngine
  split
  · rename_i hst
    exact hconn m (by rw [hst]; rfl)
  · rename_i hst
    exact hconn m (by rw [hst]; rfl)
  · exact .inr rfl
  · exact .inr rfl

theorem close_closed (ctx : Context) (key : Key) {s : UtpSock}
    (hs : (ctx.close key).sockets.lookup key = some s) : OwnerClosed s := by
  unfold Context.close Context.withSock at hs
  split at hs
  · rename_i hnone
    rw [hnone] at hs
    exact nomatch hs
  · rw [lookup_attach, if_pos rfl] at hs
    obtain rfl := Option.some.inj hs
    exact closeEngine_closed _

/-! ## Main results -/

/-- **STATES ONLY MOVE FORWARD** along every run in which no RST hits a socket
    that waits in `Destroy` without a recorded close: ranks never fall,
    `Destroy` is absorbing, a closed socket never ends up in `Reset`, and a
    socket in `Destroy` stays in the table until the next `check_timeouts` that
    is not rate-limited removes it. -/
theorem states_move_forward {ctx ctx' : Context} (hreach : Reachable ctx)
    (hrun : GoodRun ctx ctx') :
    (∀ key s s', ctx.sockets.lookup key = some s → ctx'.sockets.lookup key = some s' →
      s'.user = s.user →
        rank s.state ≤ rank s'.state ∧ (s.state = .destroy → s'.state = .destroy)
          ∧ (OwnerClosed s → s'.state ≠ .reset))
    ∧ (∀ op ctx'', ctx'.step op = some ctx'' → (∀ order, op ≠ .destroyAll order) →
      ∀ key s, ctx'.sockets.lookup key = some s → s.state = .destroy →
        (Sweeps ctx' op → ctx''.sockets.lookup key = none)
          ∧ (¬ Sweeps ctx' op → ∃ s', ctx''.sockets.lookup key = some s' ∧ s'.user = s.user))
    ∧ ∀ key s, (ctx'.close key).sockets.lookup key = some s → OwnerClosed s := by
  refine ⟨fun key s s' hs hs' huser => ?_, fun op ctx'' hstep hop key s hs hst => ?_,
    fun key s hs => close_closed ctx' key hs⟩
  · have hforward := Traces.same hrun.traces hreach hs hs' huser
    refine ⟨hforward.rank_le, hforward.destroyed, fun hclosed hreset => ?_⟩
    -- asked to close and connected, or destroyed; neither is Reset
    rcases hforward.closed hclosed with hreq | hdes
    · rcases reachable_closeOk (hrun.reachable hreach) key s' hs' hreq with hconn | hdes
      · rw [hreset] at hconn
        exact nomatch hconn
      · rw [hreset] at hdes
        exact nomatch hdes
    · rw [hreset] at hdes
      exact nomatch hdes
  · exact ⟨fun hsweep => sweep_removes hstep hsweep hs hst,
      fun hsweep => no_sweep_keeps hstep hsweep hop key s hs⟩

/-- A dialled connection that is closed before the handshake completes. -/
theorem states_move_forward_closed :
    ∃ ctx ctx' s s', Reachable ctx ∧ GoodRun ctx ctx'
      ∧ ctx.sockets.lookup firstKey = some s ∧ ctx'.sockets.lookup firstKey = some s'
      ∧ s.state = .synSent ∧ s'.state = .destroy ∧ rank s.state ≤ rank s'.state := by
  have hdial : (sockAfter 0 [.connect peerAddr 1] firstKey).map (fun s => (s.user, s.state))
      = some (0, .synSent) := by decide +kernel
  have hclose : (sockAfter 0 [.connect peerAddr 1, .close firstKey] firstKey).map
      (fun s => (s.user, s.state)) = some (0, .destroy) := by decide +kernel
  obtain ⟨s, hs, heq⟩ := Option.map_eq_some_iff.mp hdial
  obtain ⟨s', hs', heq'⟩ := Option.map_eq_some_iff.mp hclose
  obtain ⟨ctx, hrun, hreach, hlook⟩ := sockAfter_spec hs
  obtain ⟨ctx', hrun', -, hlook'⟩ := sockAfter_spec hs'
  obtain ⟨ctx₁, hstep₁, hrest₁⟩ := Option.bind_eq_some_iff.mp hrun
  obtain rfl := Option.some.inj hrest₁
  obtain ⟨ctx₂, hstep₂, hrest₂⟩ := Option.bind_eq_some_iff.mp hrun'
  obtain rfl := Option.some.inj (hstep₁.symm.trans hstep₂)
  obtain ⟨ctx₃, hstep₃, hrest₃⟩ := Option.bind_eq_some_iff.mp hrest₂
  obtain rfl := Option.some.inj hrest₃
  have hgood : GoodRun ctx₁ ctx₃ := (AvoidingRun.refl ctx₁).step (.close firstKey) id hstep₃
  obtain ⟨hu, hst⟩ := Prod.mk.inj heq
  obtain ⟨hu', hst'⟩ := Prod.mk.inj heq'
  exact ⟨ctx₁, ctx₃, s, s', hreach, hgood, hlook, hlook', hst, hst',
    ((states_move_forward hreach hgood).1 firstKey s s' hlook hlook' (hu'.trans hu.symm)).1⟩

/-- Dial, close before the handshake completes, then receive an RST. -/
def dialCloseRst : List Op :=
  [.connect peerAddr 1, .close firstKey,
    .processUdp (Context.rstDatagram 0xcdaf 0 0) peerAddr (fun _ => false)]

/-- The closed connection comes back from `Destroy` to `Reset`. -/
theorem rst_revives_closed :
    (sockAfter 0 (dialCloseRst.take 2) firstKey).map (fun s => (s.user, s.state))
        = some (0, .destroy)
      ∧ (sockAfter 0 dialCloseRst firstKey).map (fun s => (s.user, s.state)) = some (0, .reset)
      ∧ ¬ rank .destroy ≤ rank .reset := by
  refine ⟨by decide +kernel, by decide +kernel, by decide⟩

end UtpLifecycle
