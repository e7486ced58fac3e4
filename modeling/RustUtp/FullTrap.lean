import RustUtp.Wakeup
import RustUtp.SendQueue

/-! # Out of `ConnectedFull` — when an idle connection becomes writable again

    A socket that is marked full with nothing in flight gets no ack that could
    free its window; only the timers can.  They do so exactly when a whole
    packet fits under the limits that a timeout does not raise: the send buffer
    and the window of the peer. -/

namespace UtpFullTrap

open UtpCircular UtpPacket UtpUtil UtpConnShared UtpEngine UtpEngine.Detached UtpActs
open UtpReceive UtpWakeup UtpSendQueue LabelledPath

/-- The peer's window as a timer tick at time `now` sees it. -/
def peerWindow (s : UtpSock) (now : Nat) : Nat :=
  if msElapsed now s.timers.zerowindowTime = true ∧ s.cwnd.maxWindowUser = 0 then
    packetSizeDefault
  else s.cwnd.maxWindowUser

/-- The retransmission timer goes off at time `now`. -/
def RtoFires (s : UtpSock) (now : Nat) : Prop :=
  msElapsed now s.timers.rtoTimeout = true ∧ s.timers.rtoTimeout > 0

instance (s : UtpSock) (now : Nat) : Decidable (RtoFires s now) :=
  inferInstanceAs (Decidable (_ ∧ _))

/-- A whole packet fits under every limit that a timeout leaves as it is, and
    under the congestion window, which a timeout opens for one packet. -/
structure Escapes (s : UtpSock) (now : Nat) : Prop where
  sndbuf : s.getPacketSize ≤ s.cwnd.optSndbuf
  peer : s.getPacketSize ≤ peerWindow s now
  window : ¬ RtoFires s now → s.getPacketSize ≤ s.cwnd.maxWindow
  alive : RtoFires s now → givesUp s = false

variable {m : Detached}

/-! ## One tick -/

/-- Opening a closed window touches the window of the peer only. -/
theorem reopenWindow_eq (m : Detached) :
    m.reopenWindow.ctx = m.ctx
      ∧ m.reopenWindow.sock = { m.sock with
        cwnd := { m.sock.cwnd with maxWindowUser := peerWindow m.sock m.ctx.currentMs } } := by
  unfold reopenWindow peerWindow
  split <;> exact ⟨rfl, rfl⟩

/-- The timers of a socket, with the retransmission timer first. -/
theorem tick_eq (m : Detached) :
    m.tick =
      if RtoFires m.sock m.ctx.currentMs then
        if m.reopenWindow.rtoExpired.2 then m.reopenWindow.rtoExpired.1
        else m.reopenWindow.rtoExpired.1.markWritable.keepAliveIfIdle
      else m.reopenWindow.markWritable.keepAliveIfIdle := by
  obtain ⟨hctx, hsock⟩ := reopenWindow_eq m
  have htimers : m.reopenWindow.sock.timers = m.sock.timers := by rw [hsock]
  unfold tick
  dsimp only
  rw [hctx, htimers]
  by_cases hfires : RtoFires m.sock m.ctx.currentMs
  · have hcond : msElapsed m.ctx.currentMs m.sock.timers.rtoTimeout = true
        ∧ m.sock.timers.rtoTimeout > 0 := hfires
    rw [if_pos hfires, if_pos hcond]
  · have hcond : ¬ (msElapsed m.ctx.currentMs m.sock.timers.rtoTimeout = true
        ∧ m.sock.timers.rtoTimeout > 0) := hfires
    rw [if_neg hfires, if_neg hcond]
    rfl

/-- An empty window has room for a packet when all limits have. -/
theorem fullFor_empty {s : UtpSock} (hcwp : s.curWindowPackets = 0) (hbytes : s.curWindow = 0) :
    s.fullFor none = false ↔ s.getPacketSize ≤ s.cwnd.maxWindow
      ∧ s.getPacketSize ≤ s.cwnd.optSndbuf ∧ s.getPacketSize ≤ s.cwnd.maxWindowUser := by
  unfold UtpSock.fullFor Cwnd.maxSend
  dsimp only
  rw [hcwp, hbytes, Bool.or_eq_false_iff, decide_eq_false_iff_not, decide_eq_false_iff_not]
  unfold outgoingBufferMaxSize
  omega

/-- The idle window of a socket after a timeout has room for one packet. -/
theorem windowOnTimeout_fits (s : UtpSock) :
    s.getPacketSize ≤ (windowOnTimeout s).cwnd.maxWindow
      ∧ limits (windowOnTimeout s).cwnd = limits s.cwnd := by
  unfold windowOnTimeout
  dsimp only
  split
  · exact ⟨Nat.le_max_right _ _, rfl⟩
  · exact ⟨Nat.le_refl _, rfl⟩

/-- What the timers leave of an idle socket that is marked full. -/
structure Idle (s s' : UtpSock) : Prop where
  state : s'.state = .connectedFull
  cwp : s'.curWindowPackets = 0
  bytes : s'.curWindow = 0
  finSent : s'.finSent = s.finSent
  size : s'.getPacketSize = s.getPacketSize

/-- An idle socket has no probe. -/
theorem probeTimedOut_idle {s : UtpSock} (hcwp : s.curWindowPackets = 0) :
    probeTimedOut s = false := by
  unfold probeTimedOut
  rw [hcwp]
  rfl

theorem retransmitAll_idle (hcwp : m.sock.curWindowPackets = 0) : m.retransmitAll = m := by
  unfold retransmitAll
  rw [hcwp]
  simp [markAllLost, hcwp]

/-- The timeout of an established connection that is not given up, when no probe
    is to blame. -/
theorem rtoExpired_shape (hst : m.sock.state ≠ .synRecv) (hprobe : probeTimedOut m.sock = false)
    (halive : givesUp m.sock = false) :
    ∃ timers, m.rtoExpired
      = (Detached.retransmitAll { m with
          sock := windowOnTimeout { m.sock with
            mtu := mtuOnTimeout m.sock m.ctx.clock.millis
            timers := timers } }, false) := by
  unfold rtoExpired
  dsimp only
  have halive' : ∀ mtu, givesUp ({ m.sock with mtu := mtu } : UtpSock) = false := fun _ => halive
  rw [if_neg hst, if_neg (by rw [halive']; exact Bool.false_ne_true), hprobe]
  exact ⟨_, rfl⟩

/-- The timer of an idle socket opens the window by one packet. -/
theorem rtoExpired_idle (hst : m.sock.state = .connectedFull) (hcwp : m.sock.curWindowPackets = 0)
    (hbytes : m.sock.curWindow = 0) (halive : givesUp m.sock = false) :
    m.rtoExpired.2 = false ∧ Idle m.sock m.rtoExpired.1.sock
      ∧ m.sock.getPacketSize ≤ m.rtoExpired.1.sock.cwnd.maxWindow
      ∧ limits m.rtoExpired.1.sock.cwnd = limits m.sock.cwnd := by
  have hprobe := probeTimedOut_idle hcwp
  -- nothing is out, so no probe can time out
  have hmtu : (mtuOnTimeout m.sock m.ctx.clock.millis).last = m.sock.mtu.last
      ∧ (mtuOnTimeout m.sock m.ctx.clock.millis).ceiling = m.sock.mtu.ceiling := by
    unfold mtuOnTimeout
    rw [hprobe]
    exact ⟨rfl, rfl⟩
  obtain ⟨timers, hshape⟩ := rtoExpired_shape (by rw [hst]; decide) hprobe halive
  rw [hshape]
  generalize mtuOnTimeout m.sock m.ctx.clock.millis = mtu at hmtu ⊢
  have hsize : ({ m.sock with mtu := mtu, timers := timers } : UtpSock).getPacketSize
      = m.sock.getPacketSize := by
    unfold UtpSock.getPacketSize
    dsimp only
    rw [hmtu.1, hmtu.2]
  -- the timeout opens the window for one packet
  obtain ⟨hfits, hlimits⟩ := windowOnTimeout_fits { m.sock with mtu := mtu, timers := timers }
  rw [retransmitAll_idle (m := { m with
    sock := windowOnTimeout { m.sock with mtu := mtu, timers := timers } }) hcwp]
  refine ⟨rfl, ⟨hst, hcwp, hbytes, rfl, hsize⟩, ?_, hlimits⟩
  rw [← hsize]
  exact hfits

/-- The timers of an idle socket that is marked full, up to the last check. -/
theorem tick_idle (hst : m.sock.state = .connectedFull) (hcwp : m.sock.curWindowPackets = 0)
    (hbytes : m.sock.curWindow = 0)
    (halive : RtoFires m.sock m.ctx.currentMs → givesUp m.sock = false) :
    ∃ m₁ : Detached, m.tick = m₁.markWritable.keepAliveIfIdle ∧ Idle m.sock m₁.sock
      ∧ m₁.sock.cwnd.optSndbuf = m.sock.cwnd.optSndbuf
      ∧ m₁.sock.cwnd.maxWindowUser = peerWindow m.sock m.ctx.currentMs
      ∧ (m.sock.getPacketSize ≤ m₁.sock.cwnd.maxWindow
        ↔ RtoFires m.sock m.ctx.currentMs ∨ m.sock.getPacketSize ≤ m.sock.cwnd.maxWindow) := by
  obtain ⟨-, hsock⟩ := reopenWindow_eq m
  have hopen : Idle m.sock m.reopenWindow.sock := by
    rw [hsock]
    exact ⟨hst, hcwp, hbytes, rfl, rfl⟩
  have hcwnd : m.reopenWindow.sock.cwnd
      = { m.sock.cwnd with maxWindowUser := peerWindow m.sock m.ctx.currentMs } := by rw [hsock]
  have halive' : RtoFires m.sock m.ctx.currentMs → givesUp m.reopenWindow.sock = false := by
    rw [hsock]
    exact halive
  rw [tick_eq]
  generalize m.reopenWindow = m₁ at hopen hcwnd halive' ⊢
  -- the timer fires, or it does not
  by_cases hfires : RtoFires m.sock m.ctx.currentMs
  · rw [if_pos hfires]
    obtain ⟨hgoes, hidle, hfits, hlimits⟩ :=
      rtoExpired_idle hopen.state hopen.cwp hopen.bytes (halive' hfires)
    obtain ⟨hsnd, huser⟩ := Prod.mk.inj hlimits
    rw [hgoes, if_neg Bool.false_ne_true]
    rw [hcwnd] at hsnd huser
    rw [hopen.size] at hfits
    refine ⟨_, rfl, ⟨hidle.state, hidle.cwp, hidle.bytes, hidle.finSent.trans hopen.finSent,
      hidle.size.trans hopen.size⟩, hsnd, huser, fun _ => .inl hfires, fun _ => hfits⟩
  · rw [if_neg hfires]
    refine ⟨m₁, rfl, hopen, by rw [hcwnd], by rw [hcwnd], ?_⟩
    rw [hcwnd]
    exact ⟨.inr, fun h => h.resolve_left hfires⟩

/-- A socket that is given up is no longer connected. -/
theorem tick_givenUp (hst : m.sock.state = .connectedFull)
    (hfires : RtoFires m.sock m.ctx.currentMs) (hgive : givesUp m.sock = true) :
    m.tick.sock.state ≠ .connected := by
  obtain ⟨-, hsock⟩ := reopenWindow_eq m
  have hst' : m.reopenWindow.sock.state = .connectedFull := by rw [hsock]; exact hst
  have hgive' : givesUp m.reopenWindow.sock = true := by rw [hsock]; exact hgive
  rw [tick_eq, if_pos hfires]
  generalize m.reopenWindow = m₁ at hst' hgive' ⊢
  have hdead : m₁.rtoExpired.2 = true ∧ m₁.rtoExpired.1.sock.state ≠ .connected := by
    unfold rtoExpired
    dsimp only
    have hgive'' : ∀ mtu, givesUp ({ m₁.sock with mtu := mtu } : UtpSock) = true :=
      fun _ => hgive'
    rw [if_neg (by rw [hst']; decide), if_pos (hgive'' _)]
    refine ⟨rfl, ?_⟩
    show (if m₁.sock.closeRequested = true then ConnState.destroy else .reset) ≠ _
    split <;> decide
  rw [if_pos hdead.1]
  exact hdead.2

/-- A keep-alive leaves the sending side. -/
theorem sendView_keepAliveIfIdle (m : Detached) :
    sendView m.keepAliveIfIdle.sock = sendView m.sock := by
  unfold keepAliveIfIdle
  split
  · exact sendView_sendKeepAlive m
  · rfl

/-- Without room the socket stays full. -/
theorem markWritable_full (hst : m.sock.state = .connectedFull) (hfull : m.sock.fullFor none = true) :
    m.markWritable.sock.state = .connectedFull := by
  unfold markWritable
  rw [if_pos hst]
  dsimp only
  rw [if_pos ((isFull_flag m none).trans hfull)]
  exact (kept_isFull m none).state.trans hst

/-- With room it is connected again. -/
theorem markWritable_room (hst : m.sock.state = .connectedFull)
    (hroom : m.sock.fullFor none = false) :
    m.markWritable.sock = { m.sock with state := .connected } := by
  unfold markWritable
  rw [if_pos hst]
  dsimp only
  rw [if_neg (by rw [isFull_flag, hroom]; exact Bool.false_ne_true)]
  rfl

/-- **WHEN THE TIMERS FREE AN IDLE SOCKET.** -/
theorem tick_connected_iff (hst : m.sock.state = .connectedFull)
    (hcwp : m.sock.curWindowPackets = 0) (hbytes : m.sock.curWindow = 0) :
    m.tick.sock.state = .connected ↔ Escapes m.sock m.ctx.currentMs := by
  -- given up, or alive
  by_cases hdead : RtoFires m.sock m.ctx.currentMs ∧ givesUp m.sock = true
  · refine ⟨fun h => absurd h (tick_givenUp hst hdead.1 hdead.2), fun h => ?_⟩
    exact absurd (hdead.2.symm.trans (h.alive hdead.1)) (by decide)
  · rw [not_and, Bool.not_eq_true] at hdead
    obtain ⟨m₁, htick, hidle, hsnd, huser, hwin⟩ := tick_idle hst hcwp hbytes hdead
    have hroom := fullFor_empty hidle.cwp hidle.bytes
    rw [hidle.size, hsnd, huser, hwin] at hroom
    have hstate : m.tick.sock.state = m₁.markWritable.sock.state := by
      rw [htick]
      exact congrArg SendView.state (sendView_keepAliveIfIdle _)
    rw [hstate]
    constructor
    · intro hconn
      -- still full, it stays ConnectedFull
      cases hfull : m₁.sock.fullFor none with
      | true =>
          rw [markWritable_full hidle.state hfull] at hconn
          exact nomatch hconn
      | false =>
          obtain ⟨hw, hs, hp⟩ := hroom.mp hfull
          exact ⟨hs, hp, fun hn => hw.resolve_left hn, hdead⟩
    · intro hesc
      have hfits := hroom.mpr ⟨(Decidable.em (RtoFires m.sock m.ctx.currentMs)).imp id
        hesc.window, hesc.sndbuf, hesc.peer⟩
      rw [markWritable_room hidle.state hfits]

/-- A socket that the timers have freed takes data, unless it has been closed. -/
theorem tick_writable (hst : m.sock.state = .connectedFull) (hcwp : m.sock.curWindowPackets = 0)
    (hbytes : m.sock.curWindow = 0) (hesc : Escapes m.sock m.ctx.currentMs) :
    m.tick.sock.state = .connected ∧ m.tick.sock.fullFor none = false
      ∧ m.tick.sock.finSent = m.sock.finSent ∧ m.tick.sock.getPacketSize = m.sock.getPacketSize := by
  refine ⟨(tick_connected_iff hst hcwp hbytes).mpr hesc, ?_⟩
  obtain ⟨m₁, htick, hidle, hsnd, huser, hwin⟩ := tick_idle hst hcwp hbytes hesc.alive
  have hroom := fullFor_empty hidle.cwp hidle.bytes
  rw [hidle.size, hsnd, huser, hwin] at hroom
  have hfits := hroom.mpr ⟨(Decidable.em (RtoFires m.sock m.ctx.currentMs)).imp id
    hesc.window, hesc.sndbuf, hesc.peer⟩
  have hsock := markWritable_room hidle.state hfits
  have hview := sendView_keepAliveIfIdle m₁.markWritable
  rw [← htick] at hview
  refine ⟨?_, ?_, ?_⟩
  · rw [fullFor_of_view hview, hsock]
    exact hfits
  · refine (congrArg SendView.finSent hview).trans ?_
    show m₁.markWritable.sock.finSent = _
    rw [hsock]
    exact hidle.finSent
  · rw [packetSize_of_view hview, hsock]
    exact hidle.size

/-- Without packets there is nothing to flush. -/
theorem checkTimeouts_idle (hst : m.sock.state = .connectedFull)
    (hcwp : m.sock.curWindowPackets = 0) : m.checkTimeouts = m.tick := by
  have hflush : m.flushPackets.1 = m := by
    unfold flushPackets
    rw [hcwp]
    have hzero : (m.sock.seqNr - (m.sock.seqNr - UInt16.ofNat 0)).toNat = 0 := by
      have : m.sock.seqNr - (m.sock.seqNr - UInt16.ofNat 0) = 0 := by grind
      rw [this]
      rfl
    dsimp only
    rw [hzero]
    rfl
  unfold checkTimeouts
  rw [if_pos (by rw [hst]; decide), hflush]
  dsimp only
  rw [hst]

/-- A write that finds room is not refused. -/
theorem write_accepted {buf : Bytes} (hsize : 0 < m.sock.getPacketSize) (hbuf : buf ≠ [])
    (hst : m.sock.state = .connected) (hfin : m.sock.finSent = false)
    (hroom : m.sock.fullFor none = false) : 0 < (m.writeEngine buf).2 := by
  refine Nat.pos_of_ne_zero (fun hzero => ?_)
  have hfull := (refused_full hsize hbuf hst hfin hzero).2
  rw [hroom] at hfull
  exact nomatch hfull

/-! ## The engine -/

/-- The socket under `key` in a sweep that is not rate-limited. -/
theorem sweep_socket {ctx : Context} {key : Key} {s : UtpSock} {order : List Key}
    (hs : ctx.sockets.lookup key = some s) (horder : ctx.Enumerates order)
    (hdue : ctx.rateLimited = false) :
    ∃ m : Detached, m.sock = s ∧ m.ctx.currentMs = ctx.clock.millis
      ∧ (ctx.checkTimeouts order).sockets.lookup key
        = if m.checkTimeouts.sock.state = .destroy then none else some m.checkTimeouts.sock := by
  have hmem : key ∈ order := by
    rw [← List.mem_toFinset, horder.2, Finmap.mem_keys]
    exact Finmap.mem_of_lookup_eq_some hs
  unfold Context.checkTimeouts
  rw [hdue]
  dsimp only
  rw [if_neg Bool.false_ne_true]
  obtain ⟨ctx₁, -, hms, hs₁, heq⟩ := sweep_lookup order
    { ctx with
      currentMs := ctx.clock.millis
      lastCheck := ctx.clock.millis
      rstInfo := Context.purgeRst ctx.clock.millis ctx.rstInfo.length 0 ctx.rstInfo }
    horder.1 hmem hs rfl
  refine ⟨ctx₁.detach key s, rfl, hms, heq.trans ?_⟩
  unfold Context.checkSock
  rw [hs₁]
  dsimp only
  split
  · rw [destroySock_sockets, sockets_of_path
      (@path_checkTimeouts (anyOccasion none) (ctx₁.detach key s) rfl)]
    exact Finmap.lookup_erase key ctx₁.sockets
  · rw [lookup_attach, if_pos rfl]

/-- **WHEN `CONNECTEDFULL` IS NOT A TRAP**: a `check_timeouts` brings an idle
    socket that is marked full back to `Connected`, ready for data, exactly when
    its owner has not closed it and a whole packet fits under its limits. -/
theorem full_escapes_iff {ctx : Context} (h : Reachable ctx) {key : Key} {s : UtpSock}
    {order : List Key} (hs : ctx.sockets.lookup key = some s) (hst : s.state = .connectedFull)
    (hcwp : s.curWindowPackets = 0) (horder : ctx.Enumerates order)
    (hdue : ctx.rateLimited = false) :
    (∃ s', (ctx.checkTimeouts order).sockets.lookup key = some s' ∧ s'.state = .connected
        ∧ ∀ buf, buf ≠ [] → ∃ n, 0 < n ∧ ((ctx.checkTimeouts order).write key buf).2 = some n)
      ↔ s.finSent = false ∧ Escapes s ctx.clock.millis := by
  obtain ⟨lo, f, hq⟩ := reachable_queue h key s hs
  have hbytes : s.curWindow = 0 := by
    rw [hq.bytes, hcwp, Nat.add_zero, Finset.Ico_self, Finset.sum_empty]
  have hsize : 0 < s.getPacketSize := Nat.lt_of_lt_of_le (by decide)
    (UtpMtuSearch.packetSize_range (UtpMtuSearch.reachable_searched h key s hs).inRange).1
  obtain ⟨m, rfl, hms, hlookup⟩ := sweep_socket hs horder hdue
  rw [checkTimeouts_idle hst hcwp] at hlookup
  rw [← hms]
  constructor
  · rintro ⟨s', hs', hst', hwrite⟩
    rw [hlookup] at hs'
    split at hs'
    · exact nomatch hs'
    · obtain rfl := Option.some.inj hs'
      have hesc := (tick_connected_iff hst hcwp hbytes).mp hst'
      refine ⟨?_, hesc⟩
      rw [← (tick_writable hst hcwp hbytes hesc).2.2.1, ← Bool.not_eq_true]
      intro hfin
      obtain ⟨n, hpos, hn⟩ := hwrite [0] (by simp)
      rw [write_of_lookup (hlookup.trans (if_neg (by rw [hst']; decide)))] at hn
      have hzero := writeEngine_refuses
        (m := (ctx.checkTimeouts order).detach key m.tick.sock) (.inr hfin) [0]
      rw [hzero] at hn
      exact absurd (Option.some.inj hn) (Nat.ne_of_lt hpos)
  · rintro ⟨hfin, hesc⟩
    obtain ⟨hst', hroom, hfin', hsize'⟩ := tick_writable hst hcwp hbytes hesc
    have hs' := hlookup.trans (if_neg (by rw [hst']; decide))
    refine ⟨m.tick.sock, hs', hst', fun buf hbuf => ?_⟩
    rw [write_of_lookup hs']
    exact ⟨_, write_accepted (m := (ctx.checkTimeouts order).detach key m.tick.sock)
      (by rw [← hsize'] at hsize; exact hsize) hbuf hst' (hfin'.trans hfin) hroom, rfl⟩

/-- The datagram, from a peer that has room for 100 bytes. -/
def narrow (buf : Bytes) : Bytes := setWindowSize buf 100

/-- A connection to a peer that never has room for more than 100 bytes: a write
    of 50 bytes goes through and is acked, a write of 200 bytes is refused. -/
def trapOps : List Op :=
  [arrives (datagram stSyn 1000 1 0 []), arrives (narrow (datagram stData 1001 2 52654 [7])),
    .write acceptedKey (List.replicate 50 1), arrives (narrow (datagram stState 1001 3 52655 [])),
    arrives (narrow (datagram stState 1001 3 52655 [])),
    .write acceptedKey (List.replicate 200 1), .elapse ⟨10000000⟩]

/-- The timer has been armed and goes off, and the socket stays where it is. -/
theorem full_trapped :
    ∃ ctx s order, Reachable ctx ∧ ctx.sockets.lookup acceptedKey = some s
      ∧ s.state = .connectedFull ∧ s.curWindowPackets = 0 ∧ s.finSent = false
      ∧ 1 ≤ s.cwnd.optSndbuf ∧ 1 ≤ s.cwnd.maxWindowUser ∧ ctx.Enumerates order
      ∧ ctx.rateLimited = false ∧ 0 < s.timers.rtoTimeout
      ∧ s.timers.rtoTimeout ≤ ctx.clock.millis
      ∧ ¬ ∃ s', (ctx.checkTimeouts order).sockets.lookup acceptedKey = some s'
        ∧ s'.state = .connected := by
  obtain ⟨ctx, s, hreach, hs, hq⟩ := detachedAfter_of 0 trapOps acceptedKey
    (Q := fun m => (m.sock.state = .connectedFull ∧ m.sock.curWindowPackets = 0
        ∧ m.sock.finSent = false ∧ 1 ≤ m.sock.cwnd.optSndbuf ∧ 1 ≤ m.sock.cwnd.maxWindowUser)
      ∧ (Context.attach acceptedKey m).Enumerates [acceptedKey]
      ∧ (Context.attach acceptedKey m).rateLimited = false ∧ 0 < m.sock.timers.rtoTimeout
      ∧ m.sock.timers.rtoTimeout ≤ (Context.attach acceptedKey m).clock.millis
      ∧ (((Context.attach acceptedKey m).checkTimeouts [acceptedKey]).sockets.lookup
          acceptedKey).map (·.state) = some .connectedFull) (by decide +kernel)
  rw [attach_detach hs] at hq
  obtain ⟨⟨h1, h2, h3, h4, h5⟩, h6, h7, h8, h9, hst⟩ := hq
  refine ⟨ctx, s, [acceptedKey], hreach, hs, h1, h2, h3, h4, h5, h6, h7, h8, h9, ?_⟩
  rintro ⟨s', hs', hst'⟩
  rw [hs', Option.map_some, hst'] at hst
  exact nomatch Option.some.inj hst

/-- The same connection with a peer that has room: it does escape. -/
theorem full_escapes_iff_room :
    ∃ ctx s order s', Reachable ctx ∧ ctx.sockets.lookup acceptedKey = some s
      ∧ s.state = .connectedFull
      ∧ (ctx.checkTimeouts order).sockets.lookup acceptedKey = some s'
      ∧ s'.state = .connected := by
  obtain ⟨ctx, s, hreach, hs, hq⟩ := detachedAfter_of 0
    (acceptOps ++ [.write acceptedKey [1], .elapse ⟨20000000⟩]) acceptedKey
    (Q := fun m => (m.sock.state = .connectedFull ∧ m.sock.curWindowPackets = 0
        ∧ m.sock.finSent = false)
      ∧ (Context.attach acceptedKey m).Enumerates [acceptedKey]
      ∧ (Context.attach acceptedKey m).rateLimited = false
      ∧ m.sock.getPacketSize ≤ m.sock.cwnd.optSndbuf
      ∧ m.sock.getPacketSize ≤ peerWindow m.sock (Context.attach acceptedKey m).clock.millis
      ∧ m.sock.getPacketSize ≤ m.sock.cwnd.maxWindow ∧ givesUp m.sock = false)
    (by decide +kernel)
  rw [attach_detach hs] at hq
  obtain ⟨⟨hst, hcwp, hfin⟩, horder, hdue, hsnd, hpeer, hwin, halive⟩ := hq
  obtain ⟨s', hs', hst', -⟩ := (full_escapes_iff hreach hs hst hcwp horder hdue).mpr
    ⟨hfin, hsnd, hpeer, fun _ => hwin, fun _ => halive⟩
  exact ⟨ctx, s, _, s', hreach, hs, hst, hs', hst'⟩

end UtpFullTrap
