import RustUtp.Handshake

/-! # The fast-resend cursor over whole runs

    One datagram moves the cursor into the stream if it finds it within half the
    number space before it.  Between two datagrams the cursor stays and the
    stream goes on by what is queued, at most the window: a cursor that has been
    inside is never too far behind again.  An accepted socket starts inside; a
    dialling one starts with its cursor at 1, which its answer can move into the
    stream if the numbers start in the lower half (or at the last number). -/

namespace UtpCursor

open UtpCircular UtpPacket UtpUtil UtpConnShared UtpEngine UtpEngine.Detached UtpActs
open UtpReceive UtpSendQueue UtpLifecycle UtpFastResend UtpHandshake UtpFlush LabelledPath

/-! ## The invariant -/

/-- The stream goes on at most the window and the reach of one ack past the
    cursor. -/
def Near (s : UtpSock) : Prop :=
  (s.seqNr - s.resend.fastResendSeqNr).toNat ≤ s.curWindowPackets + 1028

/-- A dial whose next number is `seqNr` drew its first number from the lower
    half, or it drew the last one. -/
def LowDial (seqNr : UInt16) : Prop := (seqNr - 1).toNat < 32768 ∨ (seqNr - 1).toNat = 65535

instance (seqNr : UInt16) : Decidable (LowDial seqNr) :=
  inferInstanceAs (Decidable (_ ∨ _))

/-- The cursor of a socket is near, or that of a dial whose answer will bring it
    near. -/
structure CursorOk (s : UtpSock) : Prop where
  opened : Open s.state → Near s
  dialling : s.state = .synSent → Near s ∨ s.resend.fastResendSeqNr = 1 ∧ LowDial s.seqNr

/-- A step that leaves queue and state leaves the condition. -/
theorem CursorOk.of_view {s s' : UtpSock} (h : CursorOk s) (hv : sendView s' = sendView s) :
    CursorOk s' := by
  have hstate : s'.state = s.state := congrArg SendView.state hv
  have hseq : s'.seqNr = s.seqNr := congrArg SendView.seqNr hv
  have hcwp : s'.curWindowPackets = s.curWindowPackets := congrArg SendView.curWindowPackets hv
  have hresend : s'.resend = s.resend := congrArg SendView.resend hv
  refine ⟨fun hopen => ?_, fun hst => ?_⟩
  · unfold Near
    rw [hseq, hcwp, hresend]
    exact h.opened (hstate ▸ hopen)
  · unfold Near
    rw [hseq, hcwp, hresend]
    exact h.dialling (hstate ▸ hst)

/-- A cursor inside the stream is near, wherever the window is. -/
theorem near_of_inside {s : UtpSock} {a : UInt16} (h : CursorInside s a)
    (hseq : past a s.seqNr ≤ 1028) : Near s := by
  unfold CursorInside at h
  unfold past at hseq
  unfold Near
  omega

/-! ## Between two datagrams -/

/-- The cursor stays, and the stream goes on with the window. -/
structure Grows (s s' : UtpSock) : Prop where
  cursor : s'.resend.fastResendSeqNr = s.resend.fastResendSeqNr
  stream : s'.seqNr = s.seqNr ∧ s'.curWindowPackets = s.curWindowPackets
    ∨ s'.seqNr = s.seqNr + 1 ∧ s'.curWindowPackets = s.curWindowPackets + 1 ∧ Open s.state

/-- A step that leaves the queue. -/
theorem Grows.of_view {s s' : UtpSock} (h : sendView s' = sendView s) : Grows s s' :=
  ⟨congrArg (fun v => v.resend.fastResendSeqNr) h,
    .inl ⟨congrArg SendView.seqNr h, congrArg SendView.curWindowPackets h⟩⟩

/-- Bookkeeping without a datagram leaves the cursor. -/
theorem cursor_bookkeeping {m m' : Detached} (h : Bookkeeping none m m') :
    m'.sock.resend.fastResendSeqNr = m.sock.resend.fastResendSeqNr := by
  cases h with
  | measure _ _ hinp => exact nomatch hinp
  | noteWindow _ hinp => exact nomatch hinp
  | updateFastResend _ hinp => exact nomatch hinp
  | cursor _ _ hinp => exact nomatch hinp
  | reopenWindow => unfold reopenWindow; split <;> rfl
  | _ => rfl

/-- Without a datagram the send side queues packets and leaves the cursor. -/
theorem grows_txAct {l : Bytes} {m m' : Detached} (h : TxAct none l m m') :
    Grows m.sock m'.sock := by
  cases h with
  | quiet _ _ _ _ _ _ _ _ hbook =>
      exact ⟨(cursor_bookkeeping hbook), .inl ⟨rfl, rfl⟩⟩
  | sendPacket _ seq =>
      have hview := cursorView_sendPacketAt m seq
      exact ⟨congrArg CursorView.cursor hview, .inl ⟨congrArg CursorView.seqNr hview,
        (steady_sendPacketAt m seq).cwp⟩⟩
  | push _ n data hst => exact ⟨rfl, .inr ⟨rfl, rfl, .inl (by rw [hst]; rfl)⟩⟩
  | ackCum _ _ _ hinp => exact nomatch hinp
  | ackSel _ _ _ _ hinp => exact nomatch hinp
  | lose _ seq =>
      unfold markLost
      split
      · exact .of_view rfl
      · split <;> exact ⟨rfl, .inl ⟨rfl, rfl⟩⟩
  | established _ _ hinp => exact nomatch hinp
  | dialed _ _ hinp => exact nomatch hinp
  | finAcked _ _ _ hinp => exact nomatch hinp
  | _ => exact ⟨rfl, .inl ⟨rfl, rfl⟩⟩

theorem grows_act {occ : Occasion} (hnone : occ.datagram = none) {l : Bytes} {m m' : Detached}
    (h : Act occ l m m') : Grows m.sock m'.sock := by
  cases h with
  | tx h =>
      rw [hnone] at h
      exact grows_txAct h
  | fin _ hst => exact ⟨rfl, .inr ⟨rfl, rfl, .inl hst⟩⟩
  | noteSyn _ _ hdat => exact nomatch hnone.symm.trans hdat
  | noteFin _ _ _ hacc => exact nomatch hnone.symm.trans hacc.datagram
  | inOrder _ _ _ _ hacc => exact nomatch hnone.symm.trans hacc.datagram
  | growIn _ _ _ hacc => exact nomatch hnone.symm.trans hacc.datagram
  | store _ _ _ hacc => exact nomatch hnone.symm.trans hacc.datagram
  | ack => exact .of_view (sendView_sendAck m _)
  | schedule => exact .of_view (sendView_scheduleAck m)
  | keepAlive => exact .of_view (sendView_sendKeepAlive m)
  | reset _ _ hdat => exact nomatch hnone.symm.trans hdat
  | _ => exact ⟨rfl, .inl ⟨rfl, rfl⟩⟩

/-- A cursor that is near stays so while packets are queued. -/
theorem Near.grows {s s' : UtpSock} (h : Near s) (hg : Grows s s') : Near s' := by
  unfold Near at h ⊢
  rw [hg.cursor]
  rcases hg.stream with ⟨hseq, hcwp⟩ | ⟨hseq, hcwp, -⟩
  · rw [hseq, hcwp]
    exact h
  · have hone : (1 : UInt16).toNat = 1 := rfl
    have hsplit : s.seqNr + 1 - s.resend.fastResendSeqNr
        = (s.seqNr - s.resend.fastResendSeqNr) + 1 := by grind
    rw [hseq, hcwp, hsplit, UInt16.toNat_add, hone]
    omega

/-- **BETWEEN TWO DATAGRAMS** the condition is kept. -/
theorem cursorOk_act {occ : Occasion} (hnone : occ.datagram = none) {l : Bytes}
    {m m' : Detached} (h : Act occ l m m') (hok : CursorOk m.sock) : CursorOk m'.sock := by
  have hg := grows_act hnone h
  refine ⟨fun hopen => ?_, fun hst => ?_⟩
  · have hbefore := open_before h (fun _ hdat => nomatch hnone.symm.trans hdat) hopen
    exact (hok.opened hbefore).grows hg
  · have hbefore := Move.synSent (moves_act h) hst
    rcases hok.dialling hbefore with hnear | ⟨hcursor, hlow⟩
    · exact .inl (hnear.grows hg)
    · -- a dialling socket queues nothing
      rcases hg.stream with ⟨hseq, -⟩ | ⟨-, -, hopen⟩
      · exact .inr ⟨hg.cursor.trans hcursor, by rw [hseq]; exact hlow⟩
      · rw [hbefore] at hopen
        exact (hopen.elim (fun h => nomatch h) (fun h => nomatch h))

/-- Act by act. -/
theorem cursorOk_path {occ : Occasion} (hnone : occ.datagram = none) {l : Bytes}
    {m m' : Detached} (h : ActPath occ l m m') (hok : CursorOk m.sock) : CursorOk m'.sock :=
  Steps.invariant (P := fun m : Detached => CursorOk m.sock)
    (fun _ _ _ ha => cursorOk_act hnone ha) h hok

/-! ## One datagram -/

/-- A cursor that is near is brought inside. -/
theorem near_follows {s : UtpSock} {a seq' : UInt16} (h : Near s) (hcwp : s.curWindowPackets ≤ 1024)
    (hseq : past a s.seqNr ≤ 1027) (hle : past a s.seqNr ≤ past a seq') :
    32768 < past a s.resend.fastResendSeqNr ∨ past a s.resend.fastResendSeqNr ≤ past a seq' := by
  unfold Near at h
  rw [toNat_sub_past a] at h
  have hlt := past_lt a s.resend.fastResendSeqNr
  omega

/-- So is that of a low dial by its answer; without it, only the cursor of a dial
    that drew the last number stays outside. -/
theorem low_follows {seq a : UInt16} (h : LowDial seq) (hseq : past a seq ≤ 1027) :
    (32768 < past a 1 ∨ past a 1 ≤ past a (seq + 1))
      ∧ (32768 < past a 1 ∨ past a 1 ≤ past a seq ∨ seq = 0) := by
  have hnext := past_add a seq 1
  have hone : (1 : UInt16).toNat = 1 := rfl
  rw [hone] at hnext
  have hdist := toNat_sub_past a seq 1
  have hlt := past_lt a 1
  rcases h with hlow | hlast
  · omega
  · have hzero : seq = 0 := by
      have hseq' : seq - 1 = 65535 := UInt16.toNat_inj.mp hlast
      grind
    exact ⟨by omega, .inr (.inr hzero)⟩

/-- The answer to a dial acks the SYN; the stream goes on behind it. -/
theorem first_answer (seq : UInt16) :
    (32768 < past (seq - 1) 1 ∨ past (seq - 1) 1 ≤ past (seq - 1) (seq + 1)) ↔ LowDial seq := by
  have hone : past (seq - 1) (seq + 1) = 1 := by
    unfold past
    rw [show seq + 1 - (seq - 1) - 1 = 1 by grind]
    rfl
  have hcursor : past (seq - 1) 1 = (65536 - (seq - 1).toNat) % 65536 := by
    unfold past
    rw [show 1 - (seq - 1) - 1 = 0 - (seq - 1) by grind, toNat_sub_eq]
    rfl
  have hlt := (seq - 1).toNat_lt
  unfold LowDial
  rw [hone, hcursor]
  omega

/-- A datagram that fails a check leaves the sending side. -/
theorem sendView_unprocessed {m : Detached} {buf : Bytes} (hty : packetType buf ≠ stSyn)
    (h : ¬ FullyProcessed m buf) :
    sendView (m.processIncoming buf false).1.sock = sendView m.sock := by
  unfold processIncoming
  dsimp only
  split
  · rfl
  · rename_i hkind
    split
    · rfl
    · rename_i hrange
      split
      · rfl
      · rename_i hlen
        split
        · rfl
        · -- every check passed, so the acks were processed
          rename_i w hwalk
          rw [if_neg Bool.false_ne_true]
          unfold processChecked
          dsimp only
          split
          · split
            · exact sendView_scheduleAck _
            · rfl
          · -- within the window the datagram is fully processed, against `h`
            rename_i hoff
            refine absurd ⟨UInt8.not_le.mp hkind, ?_, Nat.not_lt.mp hlen, ?_, Nat.not_le.mp hoff⟩ h
            · cases hacks : m.sock.ackOutOfRange (ackNr buf) with
              | false => rfl
              | true => exact absurd ⟨.inl hty, hacks⟩ hrange
            · exact Option.isSome_iff_exists.mpr ⟨w, hwalk⟩

/-- A datagram that is not the answer to a dial opens no socket. -/
theorem open_unanswered {m : Detached} {buf : Bytes}
    (h : ¬ (packetType buf = stState ∧ m.sock.state = .synSent))
    (hopen : Open (m.processIncoming buf false).1.sock.state) : Open m.sock.state := by
  have hpath : ActPath (anyOccasion (some buf)) [] m (m.processIncoming buf false).1 :=
    path_processIncoming m buf false rfl
  have hall := Steps.lift
    (S := fun a b : Detached => ¬ (packetType buf = stState ∧ a.sock.state = .synSent) →
      ¬ (packetType buf = stState ∧ b.sock.state = .synSent)
        ∧ (Open b.sock.state → Open a.sock.state))
    (fun _ ha => ⟨ha, id⟩)
    (fun _ _ _ hab hbc ha => ⟨(hbc (hab ha).1).1, (hab ha).2 ∘ (hbc (hab ha).1).2⟩)
    (fun _ a b hact ha => ⟨fun hb => ha ⟨hb.1, Move.synSent (moves_act hact) hb.2⟩,
      open_before hact (fun buf' hdat hty hst => by
        obtain rfl := Option.some.inj hdat
        exact ha ⟨hty, hst⟩)⟩) hpath
  exact (hall h).2 hopen

/-- No datagram starts a dial. -/
theorem synSent_before {m : Detached} {buf : Bytes}
    (hst : (m.processIncoming buf false).1.sock.state = .synSent) : m.sock.state = .synSent := by
  have hpath : ActPath (anyOccasion (some buf)) [] m (m.processIncoming buf false).1 :=
    path_processIncoming m buf false rfl
  exact Steps.lift (S := fun a b : Detached => b.sock.state = .synSent → a.sock.state = .synSent)
    (fun _ => id) (fun _ _ _ hab hbc h => hab (hbc h))
    (fun _ _ _ ha => Move.synSent (moves_act ha)) hpath hst

/-- The numbers that a datagram with an acceptable ack finds. -/
theorem past_seqAfter {m : Detached} (hsane : Sane m.sock) {buf : Bytes}
    (hproc : FullyProcessed m buf) :
    m.sock.curWindowPackets ≤ 1024 ∧ past (ackNr buf) m.sock.seqNr ≤ 1027
      ∧ past (ackNr buf) m.sock.seqNr ≤ past (ackNr buf) (seqAfter m.sock buf)
      ∧ past (ackNr buf) (seqAfter m.sock buf) ≤ 1028 := by
  obtain ⟨lo, f, hq⟩ := hsane.queue
  have hcwp := hq.cwp_le
  have hseq := past_seq_of_inRange hcwp hproc.acks
  have hnext := past_add (ackNr buf) m.sock.seqNr 1
  have hone : (1 : UInt16).toNat = 1 := rfl
  rw [hone] at hnext
  refine ⟨hcwp, hseq, ?_⟩
  unfold seqAfter
  split
  · rw [hnext]
    omega
  · omega

/-- **ONE DATAGRAM**: it leaves the cursor of every open socket inside the
    stream, and that of a dialling one where its answer still can. -/
theorem processed_inside {m : Detached} (hsane : Sane m.sock) (hok : CursorOk m.sock) {buf : Bytes}
    (hproc : FullyProcessed m buf) :
    (Open (m.processIncoming buf false).1.sock.state →
        CursorInside (m.processIncoming buf false).1.sock (ackNr buf))
      ∧ CursorOk (m.processIncoming buf false).1.sock := by
  obtain ⟨hcwp, hseq, hle, hnear'⟩ := past_seqAfter hsane hproc
  obtain ⟨hafter, hinside, hstays⟩ := cursor_processed hsane hproc
  have hnear : Near m.sock → CursorInside (m.processIncoming buf false).1.sock (ackNr buf) :=
    fun h => hinside.mpr (near_follows h hcwp hseq hle)
  have hstill : CursorInside (m.processIncoming buf false).1.sock (ackNr buf) →
      Near (m.processIncoming buf false).1.sock :=
    fun h => near_of_inside h (by rw [hafter]; exact hnear')
  -- the answer to a dial takes a number, so that 1 follows the last one
  have hanswer : packetType buf = stState → m.sock.state = .synSent →
      CursorInside (m.processIncoming buf false).1.sock (ackNr buf) := by
    intro hty hst
    rcases hok.dialling hst with h | ⟨hcursor, hlow⟩
    · exact hnear h
    · refine hinside.mpr ?_
      unfold seqAfter
      rw [hcursor, if_pos ⟨hty, hst⟩]
      exact (low_follows hlow hseq).1
  have hopened : Open (m.processIncoming buf false).1.sock.state →
      CursorInside (m.processIncoming buf false).1.sock (ackNr buf) := by
    intro hopen
    by_cases hstate : packetType buf = stState ∧ m.sock.state = .synSent
    · exact hanswer hstate.1 hstate.2
    · exact hnear (hok.opened (open_unanswered hstate hopen))
  refine ⟨hopened, fun hopen => hstill (hopened hopen), fun hst => ?_⟩
  have hbefore := synSent_before hst
  by_cases hin : CursorInside (m.processIncoming buf false).1.sock (ackNr buf)
  · exact .inl (hstill hin)
  · rcases hok.dialling hbefore with h | ⟨hcursor, hlow⟩
    · exact absurd (hnear h) hin
    · have hty : packetType buf ≠ stState := fun hty => hin (hanswer hty hbefore)
      have hsame : seqAfter m.sock buf = m.sock.seqNr := if_neg (fun h => hty h.1)
      exact .inr ⟨(hstays hin).trans hcursor, by rw [hafter, hsame]; exact hlow⟩

/-! ## Whole runs -/

/-- The ids of a socket that a SYN has created. -/
def Accepted (s : UtpSock) : Prop := s.connIdRecv = s.connIdSend + 1

/-- The operation dials, for the socket with cell `u`, from a first number in the
    upper half of the number space that is not the last. -/
def HighDial (u : UserId) (ctx : Context) (op : Op) : Prop :=
  ctx.nextUser = u ∧ ∃ addr fuel seed rng, op = .connect addr fuel
    ∧ ctx.drawSeed addr fuel ctx.rng = some (seed, rng)
    ∧ ¬ LowDial (ctx.dialled addr seed rng).sock.seqNr

/-- The sockets that `G` picks by their identity have a good cursor. -/
def Guarded (G : Ident → Prop) (s : UtpSock) : Prop := G (ident s) → CursorOk s

variable {G : Ident → Prop}

/-- A path without a datagram keeps the condition. -/
theorem guarded_path {occ : Occasion} (hnone : occ.datagram = none) {l : Bytes}
    {m m' : Detached} (h : ActPath occ l m m') (hok : Guarded G m.sock) : Guarded G m'.sock := by
  intro hG
  rw [h.ident_eq] at hG
  exact cursorOk_path hnone h (hok hG)

theorem keptQuiet_guarded : KeptQuiet (Guarded G) where
  reset := fun m _ _ => by
    -- a reset leaves a socket that is neither open nor dialling
    refine ⟨fun hopen => absurd hopen (not_open_ended m.sock.closeRequested), fun hst => ?_⟩
    have hended : (if m.sock.closeRequested then ConnState.destroy else .reset) = .synSent := hst
    split at hended <;> exact nomatch hended
  write := fun m buf => guarded_path rfl
    (@ActPath.ofTx (anyOccasion none) _ _ _ (path_writeEngine m buf).2.1)
  drained := fun m => guarded_path rfl (@path_readDrained (anyOccasion none) m)
  close := fun m => guarded_path rfl (@path_closeEngine (anyOccasion none) m rfl)
  timers := fun m => guarded_path rfl (@path_checkTimeouts (anyOccasion none) m rfl)
  ack := fun m => guarded_path rfl ((Steps.single (@Act.unlist (anyOccasion none) m rfl)).silent
    (Steps.single (.ack _ false (.due rfl))))

/-- Creating a socket is all that a SYN does to its queue and its cursor. -/
theorem sendView_syn (m : Detached) (buf : Bytes) :
    sendView (m.processIncoming buf true).1.sock = sendView m.sock := by
  unfold processIncoming
  dsimp only
  split
  · rfl
  · split
    · rfl
    · split
      · rfl
      · split <;> rfl

/-- An accepted socket starts with its cursor at its first number: the accept
    path sets it. -/
theorem accepting_start (ctx : Context) (buf : Bytes) (addr : SocketAddr) :
    (ctx.accepting buf addr).sock.state = .synRecv
      ∧ (ctx.accepting buf addr).sock.resend.fastResendSeqNr
        = (ctx.accepting buf addr).sock.seqNr := by
  unfold Context.accepting
  exact ⟨rfl, rfl⟩

/-- An accepted socket starts with its cursor at its first number. -/
theorem cursorOk_acceptSyn (ctx : Context) (buf : Bytes) (addr : SocketAddr) :
    CursorOk (ctx.acceptSyn buf addr).sock := by
  have hview : sendView (ctx.acceptSyn buf addr).sock = sendView (ctx.accepting buf addr).sock :=
    (sendView_sendAck _ true).trans (sendView_syn _ buf)
  obtain ⟨hst, hcursor⟩ := accepting_start ctx buf addr
  refine CursorOk.of_view ⟨fun _ => ?_, fun hsyn => nomatch hst.symm.trans hsyn⟩ hview
  unfold Near
  rw [hcursor, UInt16.sub_self]
  exact Nat.zero_le _

/-- A dialling socket leaves its cursor at 1. -/
theorem dialled_start (ctx : Context) (addr : SocketAddr) (seed : UInt32) (rng : Rng) :
    (ctx.dialled addr seed rng).sock.state = .synSent
      ∧ (ctx.dialled addr seed rng).sock.resend.fastResendSeqNr = 1
      ∧ (ctx.dialled addr seed rng).sock.connIdRecv = 0 + seed
      ∧ (ctx.dialled addr seed rng).sock.connIdSend = 1 + seed := by
  unfold Context.dialled Context.dialSocket
  exact ⟨rfl, rfl, rfl, rfl⟩

/-- Sending the SYN leaves the identity. -/
theorem ident_dialledSent (ctx : Context) (addr : SocketAddr) (seed : UInt32) (rng : Rng) :
    ident (Context.dialledSent ctx addr seed rng).sock
      = ident (ctx.dialled addr seed rng).sock := by
  have hsend : ActPath (anyOccasion none) [] (ctx.dialled addr seed rng)
      (Context.dialledSent ctx addr seed rng) := Steps.single (.tx (.sendPacket _ _))
  exact hsend.ident_eq

/-- Sending a packet changes nothing of a start. -/
theorem sendPacketAt_start (m : Detached) (seq : UInt16) (hst : m.sock.state = .synSent)
    (hcursor : m.sock.resend.fastResendSeqNr = 1) :
    (m.sendPacketAt seq).sock.state = .synSent
      ∧ (m.sendPacketAt seq).sock.resend.fastResendSeqNr = 1
      ∧ (m.sendPacketAt seq).sock.seqNr = m.sock.seqNr := by
  have hview := cursorView_sendPacketAt m seq
  have hstate := state_sendPacketAt m seq
  generalize m.sendPacketAt seq = m' at hview hstate ⊢
  exact ⟨hstate.trans hst, (congrArg CursorView.cursor hview).trans hcursor,
    congrArg CursorView.seqNr hview⟩

/-- So a dial starts with its cursor at 1, whatever number it drew. -/
theorem dialledSent_start (ctx : Context) (addr : SocketAddr) (seed : UInt32) (rng : Rng) :
    (Context.dialledSent ctx addr seed rng).sock.state = .synSent
      ∧ (Context.dialledSent ctx addr seed rng).sock.resend.fastResendSeqNr = 1
      ∧ (Context.dialledSent ctx addr seed rng).sock.seqNr
        = (ctx.dialled addr seed rng).sock.seqNr := by
  obtain ⟨hst, hcursor, -, -⟩ := dialled_start ctx addr seed rng
  unfold Context.dialledSent
  exact sendPacketAt_start (ctx.dialled addr seed rng) _ hst hcursor

/-- A low dial starts well. -/
theorem cursorOk_dialledSent {ctx : Context} {addr : SocketAddr} {seed : UInt32} {rng : Rng}
    (h : LowDial (ctx.dialled addr seed rng).sock.seqNr) :
    CursorOk (Context.dialledSent ctx addr seed rng).sock := by
  obtain ⟨hst, hcursor, hseq⟩ := dialledSent_start ctx addr seed rng
  refine ⟨fun hopen => ?_, fun _ => .inr ⟨hcursor, ?_⟩⟩
  · rw [hst] at hopen
    exact hopen.elim (fun h => nomatch h) (fun h => nomatch h)
  · rw [hseq]
    exact h

/-- **ONE OPERATION** keeps the cursors of the sockets that `G` picks, if those
    it dials are low. -/
theorem guarded_step {ctx ctx' : Context} {op : Op} (hreach : Reachable ctx)
    (hdial : ∀ addr fuel seed rng, op = .connect addr fuel →
      ctx.drawSeed addr fuel ctx.rng = some (seed, rng) →
      G (ident (Context.dialledSent ctx addr seed rng).sock) →
      LowDial (ctx.dialled addr seed rng).sock.seqNr)
    (hstep : ctx.step op = some ctx') (h : EverySock (Guarded G) ctx) :
    EverySock (Guarded G) ctx' := by
  refine keptQuiet_guarded.step (fun buf addr _ => cursorOk_acceptSyn ctx buf addr)
    (fun addr fuel seed rng hop hdraw hG =>
      cursorOk_dialledSent (hdial addr fuel seed rng hop hdraw hG)) ?_ hstep h
  intro buf addr _ _ hty sock hsock hok hG
  have hpath : ActPath (anyOccasion (some buf)) []
      (ctx.detach ⟨addr, (connId buf).toUInt32⟩ sock) _ :=
    path_processIncoming (ctx.detach ⟨addr, (connId buf).toUInt32⟩ sock) buf false rfl
  rw [hpath.ident_eq] at hG
  by_cases hproc : FullyProcessed (ctx.detach ⟨addr, (connId buf).toUInt32⟩ sock) buf
  · exact (processed_inside (reachable_sane hreach _ _ hsock) (hok hG) hproc).2
  · exact (hok hG).of_view (sendView_unprocessed hty hproc)

/-- An accepted socket. -/
theorem accepted_cursor {ctx : Context} (h : Reachable ctx) :
    EverySock (Guarded (fun i => i.connIdRecv = i.connIdSend + 1)) ctx := by
  induction h with
  | new clock rng transport fpu users =>
      intro k s hs
      exact nomatch (Finmap.lookup_empty k).symm.trans hs
  | @step ctx' _ op hreach hstep ih =>
      refine guarded_step hreach (fun addr fuel seed rng _ _ hG => ?_) hstep ih
      rw [ident_dialledSent] at hG
      obtain ⟨-, -, hrecv, hsend⟩ := dialled_start ctx' addr seed rng
      have hids : 0 + seed = (1 + seed) + 1 := hrecv.symm.trans (hG.trans (congrArg (· + 1) hsend))
      grind

/-- A socket whose own dial was low. -/
theorem low_cursor {ctx₀ ctx : Context} {u : UserId} (hreach : Reachable ctx₀)
    (hrun : RunAvoiding (HighDial u) ctx₀ ctx)
    (h : EverySock (Guarded (fun i => i.user = u)) ctx₀) :
    EverySock (Guarded (fun i => i.user = u)) ctx := by
  induction hrun with
  | refl => exact h
  | step op hrun hgood hstep ih =>
      refine guarded_step (RunAvoiding.reachable hrun hreach) (fun addr fuel seed rng hop hdraw hG => ?_)
        hstep ih
      rw [ident_dialledSent] at hG
      by_contra hhigh
      exact hgood ⟨hG, addr, fuel, seed, rng, hop, hdraw, hhigh⟩

/-! ## The result -/

/-- The socket with cell `u` has been dialled, if at all, from a low number. -/
def DialledLow (u : UserId) (ctx : Context) : Prop :=
  ∃ clock rng transport fpu users, RunAvoiding (HighDial u)
    (Context.new clock rng transport fpu users) ctx

/-- **THE CURSOR OF AN ACCEPTED SOCKET, AND OF ONE DIALLED FROM A LOW NUMBER, IS
    INSIDE THE STREAM AFTER EVERY DATAGRAM** in every state of every run; and the
    answer to a dial leaves it inside exactly if the number was low. -/
theorem cursor_inside {ctx : Context} (h : Reachable ctx) :
    (∀ key s buf, ctx.sockets.lookup key = some s → Accepted s ∨ DialledLow s.user ctx →
        FullyProcessed (ctx.detach key s) buf →
        ((ctx.detach key s).processIncoming buf false).1.sock.state.isConnected = true →
        CursorInside ((ctx.detach key s).processIncoming buf false).1.sock (ackNr buf))
      ∧ ∀ addr fuel ctx' key u s buf, ctx.connect addr fuel = some (ctx', key, u) →
        ctx'.sockets.lookup key = some s → packetType buf = stState →
        ackNr buf = s.seqNr - 1 → FullyProcessed (ctx'.detach key s) buf →
        (CursorInside ((ctx'.detach key s).processIncoming buf false).1.sock (ackNr buf)
          ↔ LowDial s.seqNr) := by
  constructor
  · intro key s buf hs horigin hproc hconn
    -- the cursor starts inside for accepted connections, and for dialed ones by their number
    have hok : CursorOk s := by
      rcases horigin with hacc | ⟨clock, rng, transport, fpu, users, hrun⟩
      · exact accepted_cursor h key s hs hacc
      · exact low_cursor (.new clock rng transport fpu users) hrun
          (fun k s hs => nomatch (Finmap.lookup_empty k).symm.trans hs) key s hs rfl
    exact (processed_inside (reachable_sane h key s hs) hok hproc).1 (.inl hconn)
  · intro addr fuel ctx' key u s buf hconn hs hty hack hproc
    have hstep : ctx.step (.connect addr fuel) = some ctx' := by
      show (ctx.connect addr fuel).map _ = _
      rw [hconn]
      rfl
    have hsane := reachable_sane (h.step (.connect addr fuel) hstep) key s hs
    -- a connection just dialed has its cursor at 1
    have hstart : s.state = .synSent ∧ s.resend.fastResendSeqNr = 1 := by
      obtain ⟨seed, rng, -, -, -, rfl⟩ := connect_result hconn
      rw [lookup_attach, if_pos rfl] at hs
      obtain rfl := Option.some.inj hs
      obtain ⟨hst, hcursor, -⟩ := dialledSent_start ctx addr seed rng
      exact ⟨hst, hcursor⟩
    obtain ⟨-, hinside, -⟩ := cursor_processed (m := ctx'.detach key s) hsane hproc
    refine hinside.trans ?_
    -- the answer takes the SYN's number, so one lies behind it
    have hafter : seqAfter s buf = s.seqNr + 1 := if_pos ⟨hty, hstart.1⟩
    show 32768 < past (ackNr buf) s.resend.fastResendSeqNr
      ∨ past (ackNr buf) s.resend.fastResendSeqNr ≤ past (ackNr buf) (seqAfter s buf) ↔ _
    rw [hstart.2, hafter, hack]
    exact first_answer s.seqNr

/-- Passes every operation but a high dial. -/
def dialsLow (ctx : Context) : Op → Bool
  | .connect addr fuel =>
      match ctx.drawSeed addr fuel ctx.rng with
      | some (seed, rng) => decide (LowDial (ctx.dialled addr seed rng).sock.seqNr)
      | none => true
  | _ => true

/-- What the check lets pass is no high dial. -/
theorem not_highDial (u : UserId) (ctx : Context) (op : Op) (h : dialsLow ctx op = true) :
    ¬ HighDial u ctx op := by
  rintro ⟨-, addr, fuel, seed, rng, rfl, hdraw, hhigh⟩
  simp only [dialsLow, hdraw] at h
  exact hhigh (of_decide_eq_true h)

/-- The ack of one byte that an accepted connection has written. -/
def byteAck : Bytes := setWindowSize (datagram stState 1001 3 52655 []) 65535

/-- The cursor after an ack on an accepted connection whose numbers start in the
    upper half, after the answer to a dial whose numbers start in the lower half,
    and after the answer to a dial whose numbers do not. -/
theorem cursor_inside_answers :
    (∃ ctx s, Reachable ctx ∧ ctx.sockets.lookup acceptedKey = some s ∧ Accepted s
        ∧ s.seqNr = 52656 ∧ s.curWindowPackets = 1
        ∧ CursorInside ((ctx.detach acceptedKey s).processIncoming byteAck false).1.sock
          (ackNr byteAck))
      ∧ (∃ ctx s, Reachable ctx ∧ ctx.sockets.lookup firstKey = some s ∧ DialledLow s.user ctx
        ∧ s.seqNr = 26101
        ∧ CursorInside
          ((ctx.detach firstKey s).processIncoming (synAck 0xcdaf 26100) false).1.sock
          (ackNr (synAck 0xcdaf 26100)))
      ∧ ∃ ctx key u s, (freshEngine 1).connect peerAddr 1 = some (ctx, key, u)
        ∧ ctx.sockets.lookup key = some s ∧ s.seqNr = 60520
        ∧ ¬ CursorInside ((ctx.detach key s).processIncoming (synAck 23745 60519) false).1.sock
          (ackNr (synAck 23745 60519)) := by
  refine ⟨?_, ?_, ?_⟩
  · -- accepted, one byte queued and acked
    obtain ⟨ctx, s, hreach, hs, hacc, hseq, hcwp, hacks, hnear, hconn⟩ :=
      detachedAfter_of 0 [arrives (datagram stSyn 1000 1 0 []),
        arrives (setWindowSize (datagram stData 1001 2 52654 [7]) 65535), .write acceptedKey [1]]
        acceptedKey
        (Q := fun m => m.sock.connIdRecv = m.sock.connIdSend + 1 ∧ m.sock.seqNr = 52656
          ∧ m.sock.curWindowPackets = 1 ∧ m.sock.ackOutOfRange (ackNr byteAck) = false
          ∧ seqOffset (admitted m byteAck).sock (seqNr byteAck) < 1024
          ∧ (m.processIncoming byteAck false).1.sock.state.isConnected = true)
        (by decide +kernel)
    exact ⟨ctx, s, hreach, hs, hacc, hseq, hcwp, (cursor_inside hreach).1 acceptedKey s byteAck hs
      (.inl hacc) ⟨by decide, hacks, by decide, rfl, hnear⟩ hconn⟩
  · -- dialed with a low number
    obtain ⟨ctx, s, hrun, hs, huser, hseq, hacks, hnear, hconn⟩ :=
      checkedAfter_of (not_highDial 0) 0 [.connect peerAddr 1] firstKey
        (Q := fun m => m.sock.user = 0 ∧ m.sock.seqNr = 26101
          ∧ m.sock.ackOutOfRange (ackNr (synAck 0xcdaf 26100)) = false
          ∧ seqOffset (admitted m (synAck 0xcdaf 26100)).sock (seqNr (synAck 0xcdaf 26100)) < 1024
          ∧ (m.processIncoming (synAck 0xcdaf 26100) false).1.sock.state.isConnected = true)
        (by decide +kernel)
    have hreach : Reachable ctx := RunAvoiding.reachable hrun (.new _ _ _ _ _)
    have hlow : DialledLow s.user ctx := by
      rw [show s.user = 0 from huser]
      exact ⟨_, _, _, _, _, hrun⟩
    exact ⟨ctx, s, hreach, hs, hlow, hseq, (cursor_inside hreach).1 firstKey s _ hs (.inr hlow)
      ⟨by decide, hacks, by decide, rfl, hnear⟩ hconn⟩
  · -- dialed with a high number: the cursor is outside after the answer
    have heval : ((freshEngine 1).connect peerAddr 1).map (fun r =>
        (r.1.sockets.lookup r.2.1).map (fun s => decide (s.seqNr = 60520 ∧ ¬ LowDial s.seqNr
          ∧ s.ackOutOfRange (ackNr (synAck 23745 60519)) = false
          ∧ seqOffset (admitted (r.1.detach r.2.1 s) (synAck 23745 60519)).sock
            (seqNr (synAck 23745 60519)) < 1024))) = some (some true) := by decide +kernel
    obtain ⟨⟨ctx, key, u⟩, hconn, hsock⟩ := Option.map_eq_some_iff.mp heval
    obtain ⟨s, hs, hfacts⟩ := Option.map_eq_some_iff.mp hsock
    obtain ⟨hseq, hhigh, hacks, hnear⟩ := of_decide_eq_true hfacts
    have hiff := (cursor_inside (.new ⟨0⟩ ⟨1⟩ (fun _ => none) idleFpu
      (fun _ => ConnCell.new (.v4 0 0)))).2 peerAddr 1 ctx key u s (synAck 23745 60519) hconn hs
      (by decide) (by rw [hseq]; decide) ⟨by decide, hacks, by decide, rfl, hnear⟩
    exact ⟨ctx, key, u, s, hconn, hs, hseq, fun hin => hhigh (hiff.mp hin)⟩

end UtpCursor
