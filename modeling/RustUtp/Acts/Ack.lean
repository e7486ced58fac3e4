import RustUtp.Acts.Send

/-! # What an acknowledgement can do

    The sending side's share of `process_incoming` as a path of acts: the
    measurements are bookkeeping, the cumulative ack and every bit of a
    selective ack are acts of their own, and the embedded empty write of a
    completed dial is a write like any other. -/

namespace UtpActs

open UtpCircular UtpPacket UtpUtil UtpConnShared UtpEngine UtpEngine.Detached LabelledPath

variable {inp : Option Bytes}

/-- A change of timers, estimates and limits only. -/
def Quiet (m m' : Detached) : Prop :=
  ∃ cwnd timers delay resend mtu, m' =
    { m with
      sock :=
        { m.sock with
          cwnd := cwnd
          timers := timers
          delay := delay
          resend := resend
          mtu := mtu } }

namespace Quiet

theorem refl (m : Detached) : Quiet m m :=
  ⟨m.sock.cwnd, m.sock.timers, m.sock.delay, m.sock.resend, m.sock.mtu, rfl⟩

theorem trans {m₁ m₂ m₃ : Detached} (h : Quiet m₁ m₂) (h' : Quiet m₂ m₃) : Quiet m₁ m₃ := by
  obtain ⟨_, _, _, _, _, rfl⟩ := h
  obtain ⟨cwnd, timers, delay, resend, mtu, rfl⟩ := h'
  exact ⟨cwnd, timers, delay, resend, mtu, rfl⟩

/-- A quiet step is a single act of bookkeeping. -/
theorem path {m m' : Detached} (h : Quiet m m') (hbook : Bookkeeping inp m m') :
    TxPath inp [] m m' := by
  obtain ⟨cwnd, timers, delay, resend, mtu, rfl⟩ := h
  exact Steps.single (.quiet m cwnd timers delay resend mtu m.sock.extensions m.ctx.currentMs
    hbook)

/-- A quiet step leaves which packets an ack number covers. -/
theorem acksOf {m m' : Detached} (h : Quiet m m') (pkAckNr : UInt16) :
    m'.sock.acksOf pkAckNr = m.sock.acksOf pkAckNr := by
  obtain ⟨_, _, _, _, _, rfl⟩ := h
  rfl

end Quiet

/-! ## Measurements -/

/-- The MTU search after the acks of a packet have been counted. -/
def measuredMtu (m : Detached) (buf : Bytes) (acks : Nat) : Mtu :=
  ((m.sock.countDuplicate m.ctx.clock.millis (ackNr buf) (packetType buf)).countAcked
    m.ctx.clock.micros m.ctx.clock.millis acks).mtu

/-- Counting a duplicate ack writes the counter and, if a probe is given up, the
    record of the MTU search. -/
theorem countDuplicate_shape (s : UtpSock) (nowMs : Nat) (pkAckNr : UInt16) (pkFlags : UInt8) :
    ∃ dup mtu, s.countDuplicate nowMs pkAckNr pkFlags
      = { s with resend := { s.resend with duplicateAck := dup }, mtu := mtu } := by
  unfold UtpSock.countDuplicate
  split
  · split
    · exact ⟨_, _, rfl⟩
    · exact ⟨0, s.mtu, rfl⟩
  · exact ⟨s.resend.duplicateAck, s.mtu, rfl⟩

/-- The two limits that the congestion controller does not set. -/
def limits (w : Cwnd) : Nat × Nat := (w.optSndbuf, w.maxWindowUser)

/-- Both branches of a choice agree under `f`. -/
theorem eq_of_ite {α β : Type} (f : α → β) {c : Prop} [Decidable c] {x y : α} {v : β}
    (hx : f x = v) (hy : f y = v) : f (if c then x else y) = v := by
  split
  · exact hx
  · exact hy

/-- The controller writes the window and nothing else. -/
theorem applyCcontrol_shape (m : Detached) (bytesAcked : Nat) (minRtt : Int) :
    ∃ cwnd, m.applyCcontrol bytesAcked minRtt = { m with sock := { m.sock with cwnd := cwnd } }
      ∧ limits cwnd = limits m.sock.cwnd :=
  -- in slow start: past the threshold, near the target, or neither
  ⟨_, rfl, eq_of_ite limits (eq_of_ite limits rfl (eq_of_ite limits rfl rfl)) rfl⟩

/-- What measuring leaves behind: the congestion window, the delays, the
    duplicate-ack counter and the MTU search. -/
theorem measure_shape (m : Detached) (buf : Bytes) (selack : Option (Nat × Nat)) (acks : Nat) :
    ∃ cwnd delay dup, m.measure buf selack acks
      = { m with
          sock :=
            { m.sock with
              cwnd := cwnd
              delay := delay
              resend := { m.sock.resend with duplicateAck := dup }
              mtu := measuredMtu m buf acks } }
      ∧ limits cwnd = limits m.sock.cwnd := by
  obtain ⟨dup, mtu, hdup⟩ :=
    countDuplicate_shape m.sock m.ctx.clock.millis (ackNr buf) (packetType buf)
  unfold measuredMtu Detached.measure
  dsimp only
  rw [hdup]
  split
  · obtain ⟨cwnd, happly, hlimits⟩ := applyCcontrol_shape _ _ _
    exact ⟨cwnd, _, dup, happly, hlimits⟩
  · exact ⟨m.sock.cwnd, _, dup, rfl, rfl⟩

/-- Measuring times and delays leaves the queue of packets. -/
theorem quiet_measure (m : Detached) (buf : Bytes) (selack : Option (Nat × Nat))
    (acks : Nat) : Quiet m (m.measure buf selack acks) := by
  obtain ⟨_, _, _, hshape, -⟩ := measure_shape m buf selack acks
  exact ⟨_, m.sock.timers, _, _, _, hshape⟩

/-- The window of the peer is taken over as it stands in the header. -/
theorem noteWindow_shape (m : Detached) (buf : Bytes) :
    ∃ wnd t, wnd = (windowSize buf).toNat ∧ m.noteWindow buf
      = { m with
          sock :=
            { m.sock with
              cwnd := { m.sock.cwnd with maxWindowUser := wnd }
              timers := { m.sock.timers with zerowindowTime := t } } } :=
  ⟨_, _, rfl, rfl⟩

/-- Taking over the window of the peer leaves the queue of packets. -/
theorem quiet_noteWindow (m : Detached) (buf : Bytes) : Quiet m (m.noteWindow buf) :=
  ⟨_, _, m.sock.delay, m.sock.resend, m.sock.mtu, rfl⟩

/-- Moving the cursor of fast resends leaves the queue of packets. -/
theorem quiet_updateFastResend (m : Detached) (pkAckNr : UInt16) :
    Quiet m (m.updateFastResend pkAckNr) := by
  unfold updateFastResend
  split
  · exact ⟨m.sock.cwnd, m.sock.timers, m.sock.delay, _, m.sock.mtu, rfl⟩
  · exact Quiet.refl m

/-! ## Which packets an ack number covers -/

/-- The count that `process_incoming` computes from an ack number meets its
    specification. -/
theorem acksOf_spec (s : UtpSock) (pkAckNr : UInt16) : AcksUpTo s pkAckNr (s.acksOf pkAckNr) := by
  unfold AcksUpTo UtpSock.acksOf
  dsimp only
  split
  · exact ⟨Nat.zero_le _, fun h => absurd rfl h⟩
  · rename_i hle
    refine ⟨Nat.not_lt.mp hle, fun _ => ?_⟩
    congr 2
    unfold UtpSock.oldest
    grind

/-- An ack number covers the same packets after more have been queued. -/
theorem AcksUpTo.mono {s s' : UtpSock} {pkAckNr : UInt16} {acks : Nat}
    (h : AcksUpTo s pkAckNr acks) (hold : s'.oldest = s.oldest)
    (hcwp : s.curWindowPackets ≤ s'.curWindowPackets) : AcksUpTo s' pkAckNr acks :=
  ⟨h.1.trans hcwp, fun hne => by rw [hold]; exact h.2 hne⟩

/-- What an ack number covers is the same after a quiet step. -/
theorem AcksUpTo.quiet {m m' : Detached} {pkAckNr : UInt16} {acks : Nat} (hq : Quiet m m')
    (h : AcksUpTo m.sock pkAckNr acks) : AcksUpTo m'.sock pkAckNr acks := by
  obtain ⟨_, _, _, _, _, rfl⟩ := hq
  exact h

/-! ## Applying acks -/

/-- The first half of `advanceState`: incoming connection completion. -/
theorem path_advanceState (m : Detached) (buf : Bytes) (acks : Nat)
    (hacks : AcksUpTo m.sock (ackNr buf) acks) :
    TxPath (some buf) [] m (m.advanceState (packetType buf) acks)
      ∧ AcksUpTo (m.advanceState (packetType buf) acks).sock (ackNr buf) acks := by
  unfold advanceState
  dsimp only
  split
  · -- a data packet completes an accepted connection, and only that
    rename_i hdata
    rw [if_neg (fun h => by rw [hdata.1] at h; exact absurd h.1 (by decide))]
    have hpath : TxPath (some buf) [] m _ :=
      Steps.single (.established m buf rfl hdata.1 hdata.2)
    have hacks' : AcksUpTo (({ m with sock := { m.sock with state := .connected } } :
      Detached).notify (·.onWritable)).sock (ackNr buf) acks := hacks
    generalize ({ m with sock := { m.sock with state := .connected } } : Detached).notify
      (·.onWritable) = m₁ at hpath hacks' ⊢
    split
    · rename_i hfin
      exact ⟨hpath.tail (.finAcked m₁ buf acks rfl hacks' hfin.1 hfin.2), hacks'⟩
    · exact ⟨hpath, hacks'⟩
  · split
    · rename_i hstate
      have hpath : TxPath (some buf) [] m _ :=
        Steps.single (.dialed m buf rfl hstate.1 hstate.2)
      have hacks' : AcksUpTo (({ m with sock := { m.sock with state := .connected } } :
        Detached).notify (·.onConnect)).sock (ackNr buf) acks := hacks
      generalize ({ m with sock := { m.sock with state := .connected } } : Detached).notify
        (·.onConnect) = m₁ at hpath hacks' ⊢
      obtain ⟨-, hwrite, hold, hcwp⟩ := path_writeEngine m₁ []
      rw [List.take_nil] at hwrite
      exact ⟨hpath.silent hwrite, hacks'.mono hold hcwp⟩
    · split
      · rename_i hfin
        exact ⟨Steps.single (.finAcked m buf acks rfl hacks hfin.1 hfin.2), hacks⟩
      · exact ⟨Steps.refl m, hacks⟩

/-- A lone packet that was held back goes out by way of the queue. -/
theorem path_flushNagle (m : Detached) : TxPath inp [] m m.flushNagle := by
  unfold flushNagle
  split
  · split
    · split
      · exact Steps.single (.sendPacket m _)
      · exact Steps.refl m
    · exact Steps.refl m
  · exact Steps.refl m

/-- The fast timeout resends the oldest packet at most. -/
theorem path_fastTimeoutRetry (m : Detached) (buf : Bytes) :
    TxPath (some buf) [] m m.fastTimeoutRetry := by
  unfold fastTimeoutRetry
  split
  · split
    · exact Quiet.path ⟨m.sock.cwnd, m.sock.timers, m.sock.delay, _, m.sock.mtu, rfl⟩
        (.endFastTimeout m)
    · split
      · exact (Quiet.path ⟨m.sock.cwnd, m.sock.timers, m.sock.delay, _, m.sock.mtu, rfl⟩
          (.cursor m m.sock.resend.fastResendSeqNr buf rfl)).silent (Steps.single (.sendPacket _ _))
      · exact Steps.refl m
  · exact Steps.refl m

/-- Applying a cumulative ack takes the packets it covers, then lets the others
    out. -/
theorem path_applyAcks (m : Detached) (buf : Bytes) (acks : Nat)
    (hacks : AcksUpTo m.sock (ackNr buf) acks) :
    TxPath (some buf) [] m (m.applyAcks buf acks) := by
  unfold applyAcks
  rw [if_pos hacks.1]
  dsimp only
  have hnote := quiet_noteWindow m buf
  obtain ⟨hadv, hacks'⟩ := path_advanceState (m.noteWindow buf) buf acks (hacks.quiet hnote)
  generalize (m.noteWindow buf).advanceState (packetType buf) acks = m₁ at hadv hacks' ⊢
  have hfast := quiet_updateFastResend m₁ (ackNr buf)
  have hcum := TxAct.ackCum (m₁.updateFastResend (ackNr buf)) buf acks rfl (hacks'.quiet hfast)
  exact (((((hnote.path (.noteWindow m buf rfl)).silent hadv).silent
    (hfast.path (.updateFastResend m₁ buf rfl))).silent (Steps.single hcum)).silent
    (path_flushNagle _)).silent (path_fastTimeoutRetry _ buf)

/-! ## The selective-ack mask -/

/-- Scanning a mask takes the packets it acks. The induction is on the bits. -/
theorem path_sackScan (buf : Bytes) (sel : Nat × Nat) (exts : Bytes) (w : ExtWalk)
    (hwalk : (skipExtensions buf exts).2 = some w) (hsel : w.selack = some sel)
    (l : List Int) :
    ∀ st : SackScan, TxPath (some buf) [] st.m
      (l.foldl (sackStep (ackNr buf + 2) (maskOf buf sel)) st).m := by
  induction l with
  | nil => intro st; exact Steps.refl _
  | cons bits rest ih =>
      intro st
      rw [List.foldl_cons]
      refine Steps.silent ?_ (ih _)
      unfold sackStep
      dsimp only
      split
      · rename_i hwin
        split
        · split
          · rename_i hbit
            exact Steps.single (.ackSel st.m buf sel bits rfl exts w hwalk hsel hwin hbit)
          · split <;> exact Steps.refl _
        · exact Steps.refl _
      · exact Steps.refl _

/-- Resending what a mask reports missing transmits queued packets, up to the
    quota. -/
theorem path_resendLoop (buf : Bytes) (stack : List UInt16) :
    ∀ (quota : Nat) (m : Detached) (backOff : Bool),
      TxPath (some buf) [] m (resendLoop quota stack m backOff).1 := by
  induction stack with
  | nil => intro quota m backOff; cases quota <;> exact Steps.refl m
  | cons v rest ih =>
      intro quota m backOff
      cases quota with
      | zero => exact Steps.refl m
      | succ quota =>
          rw [resendLoop]
          split
          · exact ih (quota + 1) m backOff
          · refine (Steps.single (.sendPacket m v)).silent (Steps.silent ?_ (ih quota _ true))
            exact Quiet.path ⟨_, _, _, _, _, rfl⟩ (.cursor _ v buf rfl)

/-- A selective ack takes packets and resends others. -/
theorem path_selectiveAck (m : Detached) (buf : Bytes) (sel : Nat × Nat) (exts : Bytes)
    (w : ExtWalk) (hwalk : (skipExtensions buf exts).2 = some w)
    (hsel : w.selack = some sel) :
    TxPath (some buf) [] m (m.selectiveAck (ackNr buf + 2) (maskOf buf sel)) := by
  unfold selectiveAck
  split
  · exact Steps.refl m
  · dsimp only
    have hscan := path_sackScan buf sel exts w hwalk hsel
      (bitsDown ((maskOf buf sel).length * 8)) ⟨m, 0, []⟩
    generalize (bitsDown ((maskOf buf sel).length * 8)).foldl
      (sackStep (ackNr buf + 2) (maskOf buf sel)) ⟨m, 0, []⟩ = st at hscan ⊢
    generalize List.reverse _ = stack
    have hresend : TxPath (some buf) [] st.m _ := path_resendLoop buf stack 4 st.m false
    generalize resendLoop 4 stack st.m false = r at hresend ⊢
    exact (hscan.silent hresend).silent (Quiet.path ⟨_, r.1.sock.timers, r.1.sock.delay, _,
      r.1.sock.mtu, rfl⟩ (.sackDone r.1 r.2 st.count))

/-- Becoming writable is one act. -/
theorem path_markWritable (m : Detached) : TxPath inp [] m m.markWritable := by
  unfold markWritable
  split
  · rename_i hst
    dsimp only
    split
    · exact path_isFull m none
    · exact Steps.single (.becomeWritable m hst)
  · exact Steps.refl m

/-- **AN ACK IS A PATH OF SENDING ACTS**, and each of them that removes a packet
    does so on the word of the datagram. -/
theorem path_processAck (m : Detached) (buf : Bytes) (exts : Bytes) (w : ExtWalk)
    (hwalk : (skipExtensions buf exts).2 = some w) :
    TxPath (some buf) [] m (m.processAck buf w.selack) := by
  unfold processAck
  dsimp only
  have hmeas := quiet_measure m buf w.selack (m.sock.acksOf (ackNr buf))
  have happly := path_applyAcks (m.measure buf w.selack (m.sock.acksOf (ackNr buf))) buf
    (m.sock.acksOf (ackNr buf)) ((acksOf_spec m.sock (ackNr buf)).quiet hmeas)
  refine ((hmeas.path (.measure m buf w.selack rfl)).silent happly).silent
    (Steps.silent ?_ (path_markWritable _))
  split
  · rename_i sel hsel
    exact path_selectiveAck _ buf sel exts w hwalk hsel
  · exact Steps.refl _

end UtpActs
