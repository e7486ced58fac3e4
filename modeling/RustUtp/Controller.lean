import RustUtp.Receive
import RustUtp.MtuSearch

/-! # Calls of the congestion controller

    `process_incoming` calls the controller with what it has measured: the bytes
    a packet acks and the smallest round trip among them.  `Controls` lists
    these calls with the state they run in.  The window keeps its range, and the
    drift estimate, which feeds a penalty on the measured delay, is bounded by
    the clamp on its samples. -/

namespace UtpController

open UtpCircular UtpPacket UtpUtil UtpConnShared UtpDelayHist UtpEngine UtpEngine.Detached UtpActs
open UtpReceive UtpMtuSearch LabelledPath

/-! ## The calls -/

/-- What `process_incoming` has measured of a packet when it decides whether to
    call the controller: the socket, the bytes acked and the minimum rtt. -/
structure Measured where
  m : Detached
  bytes : Nat
  minRtt : Int

def measured (m : Detached) (buf : Bytes) (selack : Option (Nat × Nat)) (acks : Nat) :
    Measured :=
  let time := m.ctx.clock.micros
  let nowMs := m.ctx.clock.millis
  let m := { m with sock := m.sock.countDuplicate nowMs (ackNr buf) (packetType buf) }
  let counted := m.sock.countAcked time nowMs acks
  let total := m.totalAcked buf selack counted
  { m :=
      { m with
        sock :=
          { m.sock with
            mtu := counted.mtu
            delay := m.sock.delay.onPacket time m.ctx.currentMs (tvUsec buf) (actualDelay buf)
              total.2 } }
    bytes := total.1
    minRtt := total.2 }

/-- Only acks that carry a delay sample reach the controller. -/
theorem measure_eq (m : Detached) (buf : Bytes) (selack : Option (Nat × Nat)) (acks : Nat) :
    m.measure buf selack acks =
      if actualDelay buf ≠ 0 ∧ (measured m buf selack acks).bytes ≥ 1 then
        (measured m buf selack acks).m.applyCcontrol (measured m buf selack acks).bytes
          (measured m buf selack acks).minRtt
      else (measured m buf selack acks).m := rfl

/-- `process_incoming` of `buf` on the socket `m` calls the controller, in the
    situation `c`. -/
structure Controls (m : Detached) (buf : Bytes) (c : Measured) : Prop where
  kind : packetType buf < stNumStates
  range : ¬ ((packetType buf ≠ stSyn ∨ m.sock.state ≠ .synRecv)
    ∧ m.sock.ackOutOfRange (ackNr buf) = true)
  length : headerSize ≤ buf.length
  near : seqOffset (admitted m buf).sock (seqNr buf) < reorderBufferMaxSize
  sample : actualDelay buf ≠ 0
  call : ∃ w, (skipExtensions buf m.sock.extensions).2 = some w
    ∧ c = measured (admitted m buf) buf w.selack ((admitted m buf).sock.acksOf (ackNr buf))
  acks : 1 ≤ c.bytes

/-- Measuring leaves the window, and takes the delay in. -/
theorem measured_sock (m : Detached) (buf : Bytes) (selack : Option (Nat × Nat)) (acks : Nat) :
    (measured m buf selack acks).m.sock.cwnd = m.sock.cwnd
      ∧ (measured m buf selack acks).m.sock.delay
        = m.sock.delay.onPacket m.ctx.clock.micros m.ctx.currentMs (tvUsec buf) (actualDelay buf)
          (measured m buf selack acks).minRtt := by
  obtain ⟨dup, mtu, hdup⟩ :=
    countDuplicate_shape m.sock m.ctx.clock.millis (ackNr buf) (packetType buf)
  unfold measured
  dsimp only
  rw [hdup]
  exact ⟨rfl, rfl⟩

/-! ## The range of the window -/

/-- The window of a socket is never below the smallest one, and never above
    what its buffer and one packet allow. -/
def WindowOk (s : UtpSock) : Prop :=
  minWindowSize ≤ s.cwnd.maxWindow
    ∧ s.cwnd.maxWindow ≤ max s.cwnd.optSndbuf (s.getUdpMtu - headerSize)

/-- The range only depends on the window, the buffer and the address. -/
theorem WindowOk.of_same {s s' : UtpSock} (h : WindowOk s) (hkey : s'.key = s.key)
    (hwin : s'.cwnd.maxWindow = s.cwnd.maxWindow) (hsnd : s'.cwnd.optSndbuf = s.cwnd.optSndbuf) :
    WindowOk s' := by
  unfold WindowOk UtpSock.getUdpMtu at h ⊢
  rw [hkey, hwin, hsnd]
  exact h

/-- A whole packet is larger than the smallest window. -/
theorem udpMtu_room (s : UtpSock) : minWindowSize ≤ s.getUdpMtu - headerSize := by
  unfold UtpSock.getUdpMtu
  split <;> decide

/-- What the controller leaves lies between its bounds, whatever it computes. -/
theorem applyCcontrol_window (m : Detached) (bytes : Nat) (minRtt : Int) :
    ∃ w, (m.applyCcontrol bytes minRtt).sock.cwnd.maxWindow
        = max minWindowSize (min w m.sock.cwnd.optSndbuf)
      ∧ (m.applyCcontrol bytes minRtt).sock.cwnd.optSndbuf = m.sock.cwnd.optSndbuf
      ∧ (m.applyCcontrol bytes minRtt).sock.key = m.sock.key := by
  obtain ⟨cwnd, hshape, hlimits⟩ := applyCcontrol_shape m bytes minRtt
  have hclamp : ∃ w : Cwnd, (m.applyCcontrol bytes minRtt).sock.cwnd
      = { w with maxWindow := max minWindowSize (min w.maxWindow w.optSndbuf) } := ⟨_, rfl⟩
  obtain ⟨w, hw⟩ := hclamp
  have hcwnd : (m.applyCcontrol bytes minRtt).sock.cwnd = cwnd := by rw [hshape]
  have hsnd : (m.applyCcontrol bytes minRtt).sock.cwnd.optSndbuf = m.sock.cwnd.optSndbuf := by
    rw [hcwnd]
    exact (Prod.mk.inj hlimits).1
  refine ⟨w.maxWindow, ?_, hsnd, by rw [hshape]⟩
  rw [← hsnd, hw]

/-- The controller clamps what it computes. -/
theorem windowOk_measure {m : Detached} (h : WindowOk m.sock) (buf : Bytes)
    (selack : Option (Nat × Nat)) (acks : Nat) : WindowOk (m.measure buf selack acks).sock := by
  have hkey : (measured m buf selack acks).m.sock.key = m.sock.key := by
    obtain ⟨dup, mtu, hdup⟩ :=
      countDuplicate_shape m.sock m.ctx.clock.millis (ackNr buf) (packetType buf)
    unfold measured
    dsimp only
    rw [hdup]
  have hcwnd := (measured_sock m buf selack acks).1
  rw [measure_eq]
  generalize measured m buf selack acks = c at hkey hcwnd ⊢
  have hsame : WindowOk c.m.sock := h.of_same hkey (by rw [hcwnd]) (by rw [hcwnd])
  split
  · obtain ⟨w, hwin, hsnd, hkey'⟩ := applyCcontrol_window c.m c.bytes c.minRtt
    have hroom := udpMtu_room c.m.sock
    unfold WindowOk UtpSock.getUdpMtu
    rw [hwin, hsnd, hkey']
    unfold UtpSock.getUdpMtu at hroom
    omega
  · exact hsame

/-- The decay halves, down to the smallest window. -/
theorem windowOk_decay {s : UtpSock} (h : WindowOk s) (now : Nat) :
    WindowOk { s with cwnd := s.cwnd.maybeDecayWin now } := by
  unfold WindowOk at h ⊢
  have hudp := udpMtu_room s
  unfold Cwnd.maybeDecayWin
  split
  · show minWindowSize ≤ max (s.cwnd.maxWindow / 2) minWindowSize
      ∧ max (s.cwnd.maxWindow / 2) minWindowSize
        ≤ max s.cwnd.optSndbuf (s.getUdpMtu - headerSize)
    omega
  · exact h

/-- After a timeout one packet fits, and no more than before. -/
theorem windowOnTimeout_window (s : UtpSock) :
    s.getPacketSize ≤ (windowOnTimeout s).cwnd.maxWindow
      ∧ (windowOnTimeout s).cwnd.maxWindow ≤ max s.cwnd.maxWindow s.getPacketSize
      ∧ (windowOnTimeout s).cwnd.optSndbuf = s.cwnd.optSndbuf := by
  unfold windowOnTimeout
  dsimp only
  generalize s.getPacketSize = size
  split
  · refine ⟨Nat.le_max_right _ _, ?_, rfl⟩
    dsimp only
    omega
  · exact ⟨Nat.le_refl _, Nat.le_max_right _ _, rfl⟩

theorem windowOk_timeout {s : UtpSock} (h : WindowOk s) (hs : Searched s) :
    WindowOk (windowOnTimeout s) := by
  obtain ⟨hlow, hhigh⟩ := packetSize_range hs.inRange
  obtain ⟨hfits, hle, hsnd⟩ := windowOnTimeout_window s
  have hudp : (windowOnTimeout s).getUdpMtu = s.getUdpMtu := rfl
  unfold WindowOk at h ⊢
  rw [hudp, hsnd]
  have hmin : minWindowSize ≤ 556 := by decide
  generalize (windowOnTimeout s).cwnd.maxWindow = w at hfits hle ⊢
  omega

/-- Every bookkeeping keeps the range. -/
theorem windowOk_bookkeeping {inp : Option Bytes} {m m' : Detached} (h : Bookkeeping inp m m')
    (hw : WindowOk m.sock) (hs : Searched m.sock) : WindowOk m'.sock := by
  cases h with
  | measure buf selack => exact windowOk_measure hw buf selack _
  | noteWindow buf =>
      obtain ⟨wnd, t, -, hshape⟩ := noteWindow_shape m buf
      rw [hshape]
      exact hw.of_same rfl rfl rfl
  | updateFastResend buf =>
      unfold updateFastResend
      split
      · exact hw.of_same rfl rfl rfl
      · exact hw
  | sackDone backOff count =>
      cases backOff with
      | true => exact (windowOk_decay hw m.ctx.currentMs).of_same rfl rfl rfl
      | false => exact hw.of_same rfl rfl rfl
  | reopenWindow =>
      unfold reopenWindow
      split
      · exact hw.of_same rfl rfl rfl
      · exact hw
  | windowOnTimeout => exact windowOk_timeout hw hs
  | _ => exact hw.of_same rfl rfl rfl

/-- The part of a socket that the range is about. -/
def windowView (s : UtpSock) : Key × Nat × Nat := (s.key, s.cwnd.maxWindow, s.cwnd.optSndbuf)

/-- The range is part of what the window shows. -/
theorem WindowOk.of_view {s s' : UtpSock} (hv : windowView s' = windowView s) (h : WindowOk s) :
    WindowOk s' := by
  obtain ⟨hkey, hrest⟩ := Prod.mk.inj hv
  exact h.of_same hkey (Prod.mk.inj hrest).1 (Prod.mk.inj hrest).2

/-- Transmitting a packet leaves the window. -/
theorem windowView_sendPacketAt (m : Detached) (seq : UInt16) :
    windowView (m.sendPacketAt seq).sock = windowView m.sock := by
  cases hp : m.sock.outbuf.get seq.toNat with
  | none => unfold sendPacketAt; rw [hp]
  | some pkt => rw [sendPacketAt_sock hp]; rfl

theorem windowView_ackPacket (m : Detached) (seq : UInt16) :
    windowView (m.ackPacket seq).1.sock = windowView m.sock := by
  unfold ackPacket
  split
  · rfl
  · split <;> rfl

theorem windowView_sendAck (m : Detached) (synack : Bool) :
    windowView (m.sendAck synack).sock = windowView m.sock := by
  unfold sendAck
  rw [ackListRemove_sock, sendData_sock]
  rfl

/-- **EVERY ACT OF THE SEND SIDE** keeps the range. -/
theorem windowOk_tx {inp : Option Bytes} {l : Bytes} {m m' : Detached} (h : TxAct inp l m m')
    (hw : WindowOk m.sock) (hs : Searched m.sock) : WindowOk m'.sock := by
  cases h with
  | quiet _ _ _ _ _ _ _ _ hbook => exact windowOk_bookkeeping hbook hw hs
  | sendPacket => exact hw.of_view (windowView_sendPacketAt m _)
  | ackCum =>
      exact hw.of_view (ackCumulative_keeps windowView windowView_ackPacket (fun _ _ => rfl)
        (fun _ _ => rfl) _ m)
  | ackSel => exact hw.of_view (windowView_ackPacket m _)
  | lose =>
      unfold markLost
      split
      · exact hw
      · split <;> exact hw
  | _ => exact hw

theorem windowOk_act {occ : Occasion} {l : Bytes} {m m' : Detached} (h : Act occ l m m')
    (hw : WindowOk m.sock) (hs : Searched m.sock) : WindowOk m'.sock := by
  cases h with
  | tx h => exact windowOk_tx h hw hs
  | inOrder _ _ _ _ _ _ _ hdrain =>
      have hv := sendView_drainPath hdrain
      exact hw.of_same (congrArg Ident.key (@Act.ident_eq occ _ _ _
        (.inOrder m _ _ _ ‹_› ‹_› ‹_› hdrain ‹_›)))
        (congrArg (fun v : SendView => v.cwnd.maxWindow) hv)
        (congrArg (fun v : SendView => v.cwnd.optSndbuf) hv)
  | ack => exact hw.of_view (windowView_sendAck m _)
  | schedule => unfold scheduleAck; split <;> exact hw
  | keepAlive =>
      exact hw.of_view ((windowView_sendAck ({ m with
        sock := { m.sock with ackNr := m.sock.ackNr - 1 } }) false).trans rfl)
  | _ => exact hw

/-! ## The send buffer of a socket -/

/-- Bookkeeping leaves the size of the send buffer. -/
theorem sndbuf_bookkeeping {inp : Option Bytes} {m m' : Detached} (h : Bookkeeping inp m m') :
    m'.sock.cwnd.optSndbuf = m.sock.cwnd.optSndbuf := by
  cases h with
  | measure buf selack =>
      obtain ⟨cwnd, _, _, hshape, hlimits⟩ := measure_shape m buf selack (m.sock.acksOf (ackNr buf))
      rw [hshape]
      exact (Prod.mk.inj hlimits).1
  | noteWindow buf =>
      obtain ⟨wnd, t, -, hshape⟩ := noteWindow_shape m buf
      rw [hshape]
  | updateFastResend buf => unfold updateFastResend; split <;> rfl
  | sackDone backOff count =>
      cases backOff with
      | true =>
          show (m.sock.cwnd.maybeDecayWin m.ctx.currentMs).optSndbuf = _
          unfold Cwnd.maybeDecayWin
          split <;> rfl
      | false => rfl
  | reopenWindow => unfold reopenWindow; split <;> rfl
  | windowOnTimeout => exact (windowOnTimeout_window m.sock).2.2
  | _ => rfl

/-- A socket keeps the send buffer it was born with. -/
theorem sndbuf_act {occ : Occasion} {l : Bytes} {m m' : Detached} (h : Act occ l m m') :
    m'.sock.cwnd.optSndbuf = m.sock.cwnd.optSndbuf := by
  have hview : ∀ {s s' : UtpSock}, windowView s' = windowView s →
      s'.cwnd.optSndbuf = s.cwnd.optSndbuf := fun h => (Prod.mk.inj (Prod.mk.inj h).2).2
  cases h with
  | tx h =>
      cases h with
      | quiet _ _ _ _ _ _ _ _ hbook => exact sndbuf_bookkeeping hbook
      | sendPacket => exact hview (windowView_sendPacketAt m _)
      | ackCum =>
          exact hview (ackCumulative_keeps windowView windowView_ackPacket (fun _ _ => rfl)
            (fun _ _ => rfl) _ m)
      | ackSel => exact hview (windowView_ackPacket m _)
      | lose =>
          unfold markLost
          split
          · rfl
          · split <;> rfl
      | _ => rfl
  | inOrder _ _ _ _ _ _ _ hdrain =>
      exact congrArg (fun v : SendView => v.cwnd.optSndbuf) (sendView_drainPath hdrain)
  | ack => exact hview (windowView_sendAck m _)
  | schedule => unfold scheduleAck; split <;> rfl
  | keepAlive =>
      exact hview (windowView_sendAck ({ m with
        sock := { m.sock with ackNr := m.sock.ackNr - 1 } }) false)
  | _ => rfl

/-- The operation creates a socket while the send buffer of the engine is set
    below the smallest window. -/
def Shrinks (ctx : Context) (op : Op) : Prop :=
  ctx.optSndbuf < minWindowSize ∧ ∃ ctx', ctx.step op = some ctx' ∧ ctx.nextUser < ctx'.nextUser

/-- A socket that is born with room has it. -/
theorem bornWith_roomy {ctx : Context} (h : minWindowSize ≤ ctx.optSndbuf) :
    BornWith (fun s => minWindowSize ≤ s.cwnd.optSndbuf) ctx where
  dialled := fun addr seed rng => by
    have hnew : (ctx.dialled addr seed rng).sock.cwnd.optSndbuf = ctx.optSndbuf := rfl
    unfold Context.dialledSent
    generalize ctx.dialled addr seed rng = m at hnew ⊢
    have hsent := windowView_sendPacketAt m (m.sock.seqNr - 1)
    rw [(Prod.mk.inj (Prod.mk.inj hsent).2).2, hnew]
    exact h
  accepted := fun buf addr => by
    have hnew : (ctx.accepting buf addr).sock.cwnd.optSndbuf = ctx.optSndbuf := rfl
    unfold Context.acceptSyn
    generalize ctx.accepting buf addr = m at hnew ⊢
    have hpath : ActPath (anyOccasion (some buf)) [] m (m.processIncoming buf true).1 :=
      path_processIncoming m buf true rfl
    have hsame := Steps.lift
      (S := fun a b : Detached => b.sock.cwnd.optSndbuf = a.sock.cwnd.optSndbuf) (fun _ => rfl)
      (fun _ _ _ hab hbc => hbc.trans hab) (fun _ _ _ ha => sndbuf_act ha) hpath
    have hack := windowView_sendAck (m.processIncoming buf true).1 true
    rw [(Prod.mk.inj (Prod.mk.inj hack).2).2, hsame, hnew]
    exact h

/-- The sockets there keep their buffers, and a new one has that of the engine. -/
theorem roomy_step {ctx ctx' : Context} {op : Op} (hgood : ¬ Shrinks ctx op)
    (hstep : ctx.step op = some ctx') (h : EverySock (fun s => minWindowSize ≤ s.cwnd.optSndbuf) ctx) :
    EverySock (fun s => minWindowSize ≤ s.cwnd.optSndbuf) ctx' := by
  by_cases hroom : minWindowSize ≤ ctx.optSndbuf
  · have hkept : KeptOn (fun s => minWindowSize ≤ s.cwnd.optSndbuf) :=
      KeptOn.of_act (fun _ _ _ _ ha hs => by rw [sndbuf_act ha]; exact hs)
    exact hkept.step (bornWith_roomy hroom) hstep h
  · intro key s' hs'
    have htraces := EnginePath.traces
      (R := fun s s' : UtpSock => s'.cwnd.optSndbuf = s.cwnd.optSndbuf) (fun _ => rfl)
      (fun _ _ _ hab hbc => hbc.trans hab) (fun _ _ _ ha => sndbuf_act ha) (path_step hstep)
    rcases htraces.2 key s' hs' with ⟨hnew, hlt⟩ | ⟨s, hs, -, hsame⟩
    · exact absurd ⟨Nat.not_le.mp hroom, ctx', hstep, Nat.lt_of_le_of_lt hnew hlt⟩ hgood
    · rw [hsame]
      exact h key s hs

theorem roomy_run {ctx₀ ctx : Context} (hrun : RunAvoiding Shrinks ctx₀ ctx)
    (h : EverySock (fun s => minWindowSize ≤ s.cwnd.optSndbuf) ctx₀) :
    EverySock (fun s => minWindowSize ≤ s.cwnd.optSndbuf) ctx :=
  AvoidingRun.invariant (fun _ _ _ hgood hstep => roomy_step hgood hstep) hrun h

/-- A new socket has room for one packet, and its first packet size is that of
    the interface. -/
theorem windowOk_new {s : UtpSock}
    (h : s.cwnd.maxWindow
      = (if s.getUdpMtu ≠ 0 then s.getUdpMtu else s.getUdpMtu) - headerSize) : WindowOk s := by
  unfold WindowOk
  rw [h, ite_self]
  exact ⟨udpMtu_room s, Nat.le_max_right _ _⟩

/-- **EVERY WINDOW** of a reachable state is in range. -/
theorem reachable_windowOk {ctx : Context} (h : Reachable ctx) :
    EverySock (fun s => Searched s ∧ WindowOk s) ctx := by
  refine Reachable.everySock (fun _ _ _ _ ha hs => ?_) (fun ctx addr seed rng => ?_)
    (fun ctx buf addr => ?_) h
  · exact ⟨hs.1.next (searches_act ha), windowOk_act ha hs.2 hs.1⟩
  · exact ⟨⟨ctx.clock.millis, .refl⟩, windowOk_new rfl⟩
  · exact ⟨⟨ctx.clock.millis, .refl⟩, windowOk_new rfl⟩

/-- **THE WINDOW KEEPS ITS RANGE**, and every call of the controller finds bounds
    it can clamp to, as long as no socket is created with a send buffer below
    the smallest window. -/
theorem window_in_range {clock : Clock} {rng : Rng} {transport : Nat → Option ErrorKind}
    {fpu : Fpu} {users : UserId → ConnCell} {ctx : Context}
    (hrun : RunAvoiding Shrinks (Context.new clock rng transport fpu users) ctx) {key : Key}
    {s : UtpSock} (hs : ctx.sockets.lookup key = some s) :
    10 ≤ s.cwnd.maxWindow ∧ s.cwnd.maxWindow ≤ max s.cwnd.optSndbuf (s.getUdpMtu - 20)
      ∧ ∀ buf c, Controls (ctx.detach key s) buf c → minWindowSize ≤ c.m.sock.cwnd.optSndbuf := by
  have hreach := hrun.reachable (.new clock rng transport fpu users)
  obtain ⟨hlow, hhigh⟩ := (reachable_windowOk hreach key s hs).2
  refine ⟨hlow, hhigh, fun buf c hc => ?_⟩
  obtain ⟨w, -, rfl⟩ := hc.call
  rw [(measured_sock _ buf w.selack _).1]
  exact roomy_run hrun (fun k s hs => nomatch (Finmap.lookup_empty k).symm.trans hs) key s hs

/-- Three bytes go out by way of the Nagle rule on a connection with a send
    buffer of five bytes. -/
def tinyOps : List Op :=
  [.setSendBufferSize 5, arrives (datagram stSyn 1000 1 0 []),
    arrives (setWindowSize (datagram stData 1001 2 52654 [7]) 65535),
    .write acceptedKey [1, 2, 3],
    arrives (setWindowSize (datagram stState 1001 3 52654 []) 65535)]

/-- The ack of these bytes, with a delay sample. -/
def tinyAck : Bytes := setReplyMicro (setWindowSize (datagram stState 1001 3 52655 []) 65535) 1000

/-- A datagram without extensions that passes the checks and acks something calls
    the controller. -/
theorem controls_plain {m : Detached} {buf : Bytes} (hkind : packetType buf < stNumStates)
    (hrange : m.sock.ackOutOfRange (ackNr buf) = false) (hlen : headerSize ≤ buf.length)
    (hnear : seqOffset (admitted m buf).sock (seqNr buf) < reorderBufferMaxSize)
    (hsample : actualDelay buf ≠ 0) (hext : ext buf = 0)
    (hbytes : 1 ≤ (measured (admitted m buf) buf none
      ((admitted m buf).sock.acksOf (ackNr buf))).bytes) :
    Controls m buf (measured (admitted m buf) buf none
      ((admitted m buf).sock.acksOf (ackNr buf))) := by
  have hwalk : (skipExtensions buf m.sock.extensions).2 = some ⟨headerSize, none⟩ := by
    unfold skipExtensions
    rw [if_pos hext]
  exact ⟨hkind, fun h => absurd (hrange.symm.trans h.2) Bool.false_ne_true, hlen, hnear, hsample,
    ⟨_, hwalk, rfl⟩, hbytes⟩

/-- A send buffer of five bytes: the controller is called, and cannot clamp. -/
theorem clamp_inverted :
    ∃ ctx s c, Reachable ctx ∧ ctx.sockets.lookup acceptedKey = some s
      ∧ 1 ≤ s.cwnd.optSndbuf ∧ Controls (ctx.detach acceptedKey s) tinyAck c
      ∧ c.m.sock.cwnd.optSndbuf < minWindowSize := by
  obtain ⟨ctx, s, hreach, hs, hq⟩ := detachedAfter_of 0 tinyOps acceptedKey
    (Q := fun m => m.sock.cwnd.optSndbuf = 5 ∧ m.sock.ackOutOfRange (ackNr tinyAck) = false
      ∧ seqOffset (admitted m tinyAck).sock (seqNr tinyAck) < reorderBufferMaxSize
      ∧ 1 ≤ (measured (admitted m tinyAck) tinyAck none
        ((admitted m tinyAck).sock.acksOf (ackNr tinyAck))).bytes) (by decide +kernel)
  obtain ⟨hsnd, hrange, hnear, hbytes⟩ := hq
  have hsnd' : s.cwnd.optSndbuf = 5 := hsnd
  refine ⟨ctx, s, _, hreach, hs, by rw [hsnd']; decide, controls_plain (by decide +kernel) hrange
    (by decide +kernel) hnear (by decide +kernel) (by decide +kernel) hbytes, ?_⟩
  rw [(measured_sock _ tinyAck none _).1]
  show s.cwnd.optSndbuf < minWindowSize
  rw [hsnd']
  decide

/-- A connection with a send buffer of 2000 bytes writes, and is made small for
    those that follow. -/
def roomyOps : List Op :=
  [.setSendBufferSize 2000, arrives (datagram stSyn 1000 1 0 []),
    arrives (setWindowSize (datagram stData 1001 2 52654 [7]) 65535), .setSendBufferSize 5,
    .write acceptedKey [1, 2, 3], .elapse ⟨5000⟩]

def keepsRoom (ctx : Context) (op : Op) : Bool :=
  decide (minWindowSize ≤ ctx.optSndbuf)
    || (ctx.step op).all (fun ctx' => decide (ctx'.nextUser = ctx.nextUser))

/-- The window of an accepted connection when an ack calls the controller. -/
theorem window_in_range_accepted :
    ∃ ctx s c, RunAvoiding Shrinks (freshEngine 0) ctx ∧ ctx.sockets.lookup acceptedKey = some s
      ∧ Controls (ctx.detach acceptedKey s) tinyAck c
      ∧ 10 ≤ s.cwnd.maxWindow ∧ s.cwnd.maxWindow ≤ max s.cwnd.optSndbuf (s.getUdpMtu - 20)
      ∧ s.cwnd.optSndbuf = 2000 ∧ minWindowSize ≤ c.m.sock.cwnd.optSndbuf := by
  have hok : ∀ ctx op, keepsRoom ctx op = true → ¬ Shrinks ctx op := by
    rintro ctx op hkeeps ⟨hsmall, ctx', hstep, hnew⟩
    unfold keepsRoom at hkeeps
    rw [hstep, Option.all_some, Bool.or_eq_true, decide_eq_true_iff, decide_eq_true_iff] at hkeeps
    rcases hkeeps with hroom | hsame
    · exact Nat.not_le.mpr hsmall hroom
    · exact Nat.ne_of_gt hnew hsame
  obtain ⟨ctx, s, hrun, hs, hq⟩ := checkedAfter_of hok 0 roomyOps acceptedKey
    (Q := fun m => m.sock.cwnd.optSndbuf = 2000 ∧ m.sock.ackOutOfRange (ackNr tinyAck) = false
      ∧ seqOffset (admitted m tinyAck).sock (seqNr tinyAck) < reorderBufferMaxSize
      ∧ 1 ≤ (measured (admitted m tinyAck) tinyAck none
        ((admitted m tinyAck).sock.acksOf (ackNr tinyAck))).bytes) (by decide +kernel)
  obtain ⟨hsnd, hrange, hnear, hbytes⟩ := hq
  have hc := controls_plain (by decide +kernel) hrange (by decide +kernel) hnear (by decide +kernel)
    (by decide +kernel) hbytes
  obtain ⟨hlow, hhigh, hclamp⟩ := window_in_range hrun hs
  exact ⟨ctx, s, _, hrun, hs, hc, hlow, hhigh, hsnd, hclamp tinyAck _ hc⟩

/-! ## The delay estimate -/

/-- The averages behind the drift estimate are bounded by the clamp on their
    samples. -/
structure DelayOk (d : Delay) : Prop where
  samples : 0 ≤ d.currentDelaySamples
  sum : d.currentDelaySum.natAbs ≤ maxAverageDelaySample * d.currentDelaySamples.natAbs
  average : d.averageDelay.natAbs ≤ maxAverageDelaySample
  drift : d.clockDrift.natAbs ≤ 2 * maxAverageDelaySample

/-- The bounds are about the average delay only. -/
theorem DelayOk.of_same {d d' : Delay} (h : DelayOk d)
    (hsamples : d'.currentDelaySamples = d.currentDelaySamples)
    (hsum : d'.currentDelaySum = d.currentDelaySum) (haverage : d'.averageDelay = d.averageDelay)
    (hdrift : d'.clockDrift = d.clockDrift) : DelayOk d' := by
  refine ⟨?_, ?_, ?_, ?_⟩
  · rw [hsamples]; exact h.samples
  · rw [hsum, hsamples]; exact h.sum
  · rw [haverage]; exact h.average
  · rw [hdrift]; exact h.drift

/-- A sample is clamped. -/
theorem natAbs_delayDistance (base sample : UInt32) :
    (delayDistance base sample).natAbs ≤ maxAverageDelaySample := by
  unfold delayDistance
  dsimp only
  split <;> omega

/-- Truncated division brings a value below its bound divided. -/
theorem natAbs_tdiv_le {a b : Int} {c : Nat} (h : a.natAbs ≤ c * b.natAbs) :
    (a.tdiv b).natAbs ≤ c := by
  rw [Int.natAbs_tdiv]
  exact Nat.div_le_of_le_mul (by rw [Nat.mul_comm]; exact h)

/-- The mean of a slot is bounded by its samples, and the drift by the
    difference of two means. -/
theorem delayOk_closeSlot {d : Delay} (h : DelayOk d) : DelayOk d.closeSlot := by
  have hnew := natAbs_tdiv_le h.sum
  have hold := h.average
  have hdrift := h.drift
  unfold Delay.closeSlot
  dsimp only
  generalize d.currentDelaySum.tdiv d.currentDelaySamples = average at hnew ⊢
  refine ⟨Int.le_refl _, Nat.zero_le _, ?_, ?_⟩
  · -- normalizing around zero brings the average closer to it
    dsimp only
    split
    · omega
    · split <;> omega
  · refine natAbs_tdiv_le ?_
    generalize (if min d.averageDelay average > 0 then -min d.averageDelay average
      else if max d.averageDelay average < 0 then -max d.averageDelay average else 0) = adjust
    show _ ≤ 2 * maxAverageDelaySample * 8
    omega

/-- One more sample keeps the bounds. -/
theorem delayOk_averageSample {d : Delay} (h : DelayOk d) (currentMs : Nat) (sample : UInt32) :
    DelayOk (d.averageSample currentMs sample) := by
  unfold Delay.averageSample
  dsimp only
  generalize (if d.averageDelayBase = 0 then sample else d.averageDelayBase) = base
  -- one sample is bounded, whatever the base
  have hdist := natAbs_delayDistance base sample
  generalize delayDistance base sample = dist at hdist ⊢
  -- the sum grows by at most one bound, as the count grows by one
  have hsum : (d.currentDelaySum + dist).natAbs
      ≤ maxAverageDelaySample * (d.currentDelaySamples + 1).natAbs := by
    have hcount : (d.currentDelaySamples + 1).natAbs = d.currentDelaySamples.natAbs + 1 := by
      have := h.samples
      omega
    have := h.sum
    rw [hcount, Nat.mul_succ]
    omega
  have hnext : DelayOk { d with
      ourHist := d.ourHist.addSample sample currentMs
      averageDelayBase := base
      currentDelaySum := d.currentDelaySum + dist
      currentDelaySamples := d.currentDelaySamples + 1 } :=
    ⟨Int.add_nonneg h.samples (by decide), hsum, h.average, h.drift⟩
  split
  · exact delayOk_closeSlot hnext
  · exact hnext

/-- The delay that the peer will be told is no part of them. -/
theorem delayOk_theirDelay {d : Delay} (h : DelayOk d) (time currentMs : Nat) (p : UInt32) :
    DelayOk (d.theirDelay time currentMs p) := by
  unfold Delay.theirDelay
  dsimp only
  generalize (if p = 0 then 0 else UInt32.ofNat time - p) = delay
  generalize (if delay ≠ 0 then d.theirHist.addSample delay currentMs else d.theirHist) = theirs
  split <;> exact h.of_same rfl rfl rfl rfl

/-- A packet keeps the bounds, whatever it reports. -/
theorem delayOk_onPacket {d : Delay} (h : DelayOk d) (time currentMs : Nat)
    (p actualDelay : UInt32) (minRtt : Int) :
    DelayOk (d.onPacket time currentMs p actualDelay minRtt) := by
  have htheirs := delayOk_theirDelay h time currentMs p
  have hcap : ∀ {d : Delay}, DelayOk d → DelayOk (d.cap minRtt) := by
    intro d hd
    unfold Delay.cap
    split
    · exact hd.of_same rfl rfl rfl rfl
    · exact hd
  unfold Delay.onPacket
  dsimp only
  split
  · exact hcap (delayOk_averageSample htheirs currentMs actualDelay)
  · exact hcap htheirs

/-- Only the measurements of a packet touch the delay estimate. -/
theorem delayOk_bookkeeping {inp : Option Bytes} {m m' : Detached} (h : Bookkeeping inp m m')
    (hd : DelayOk m.sock.delay) : DelayOk m'.sock.delay := by
  cases h with
  | measure buf selack =>
      have hdelay := (measured_sock m buf selack (m.sock.acksOf (ackNr buf))).2
      rw [measure_eq]
      generalize measured m buf selack (m.sock.acksOf (ackNr buf)) = c at hdelay ⊢
      have hc : DelayOk c.m.sock.delay := by
        rw [hdelay]
        -- the window changes, the delays do not
        exact delayOk_onPacket hd _ _ _ _ _
      split
      · obtain ⟨cwnd, hshape, -⟩ := applyCcontrol_shape c.m c.bytes c.minRtt
        rw [hshape]
        exact hc
      · exact hc
  | noteWindow buf =>
      obtain ⟨wnd, t, -, hshape⟩ := noteWindow_shape m buf
      rw [hshape]
      exact hd
  | updateFastResend buf => unfold updateFastResend; split <;> exact hd
  | reopenWindow => unfold reopenWindow; split <;> exact hd
  | _ => exact hd

/-- Sending takes no sample. -/
theorem delay_sendPacketAt (m : Detached) (seq : UInt16) :
    (m.sendPacketAt seq).sock.delay = m.sock.delay := by
  cases hp : m.sock.outbuf.get seq.toNat with
  | none => unfold sendPacketAt; rw [hp]
  | some pkt => rw [sendPacketAt_sock hp]; rfl

theorem delay_ackPacket (m : Detached) (seq : UInt16) :
    (m.ackPacket seq).1.sock.delay = m.sock.delay := by
  unfold ackPacket
  split
  · rfl
  · split <;> rfl

theorem delay_sendAck (m : Detached) (synack : Bool) :
    (m.sendAck synack).sock.delay = m.sock.delay := by
  unfold sendAck
  rw [ackListRemove_sock, sendData_sock]
  rfl

/-- Every act keeps the bounds. -/
theorem delayOk_act {occ : Occasion} {l : Bytes} {m m' : Detached} (h : Act occ l m m')
    (hd : DelayOk m.sock.delay) : DelayOk m'.sock.delay := by
  have hsame : ∀ {s : UtpSock}, s.delay = m.sock.delay → DelayOk s.delay := by
    intro s hs
    rw [hs]
    exact hd
  cases h with
  | tx h =>
      cases h with
      | quiet _ _ _ _ _ _ _ _ hbook => exact delayOk_bookkeeping hbook hd
      | sendPacket => exact hsame (delay_sendPacketAt m _)
      | ackCum =>
          -- acks, resends and losses leave the delay record
          exact hsame (ackCumulative_keeps UtpSock.delay delay_ackPacket (fun _ _ => rfl)
            (fun _ _ => rfl) _ m)
      | ackSel => exact hsame (delay_ackPacket m _)
      | lose =>
          unfold markLost
          split
          · exact hd
          · split <;> exact hd
      | _ => exact hd
  | inOrder _ _ _ _ _ _ _ hdrain =>
      refine hsame (DrainPath.lift
        (S := fun a b : Detached => b.sock.delay = a.sock.delay) (fun _ => rfl)
        (fun _ _ _ hab hbc => hbc.trans hab) (fun _ a b hab => ?_)
        (by rw [acceptNext_sock]) hdrain)
      cases hab with
      | drain => rw [drainNext_sock]
      | reach => rfl
      | ackFin => exact delay_sendAck a false
      | dropStragglers => rfl
  | ack => exact hsame (delay_sendAck m _)
  | schedule => unfold scheduleAck; split <;> exact hd
  | keepAlive => exact hsame (delay_sendAck _ _)
  | _ => exact hd

/-- **EVERY DELAY ESTIMATE** of a reachable state is bounded. -/
theorem reachable_delayOk {ctx : Context} (h : Reachable ctx) :
    EverySock (fun s => DelayOk s.delay) ctx := by
  refine Reachable.everySock (fun _ _ _ _ ha hd => delayOk_act ha hd) (fun ctx addr seed rng => ?_)
    (fun ctx buf addr => ?_) h
  · exact ⟨Int.le_refl _, Nat.zero_le _, Nat.zero_le _, Nat.zero_le _⟩
  · exact ⟨Int.le_refl _, Nat.zero_le _, Nat.zero_le _, Nat.zero_le _⟩

/-! ## The arithmetic of the delay -/

/-- The delay the controller works with: it can never be greater than the rtt. -/
def Measured.ourDelay (c : Measured) : Int :=
  asI32 (min c.m.sock.delay.ourHist.getValue.toNat (asU64 c.minRtt))

/-- Compensates for a very large clock drift. -/
def Measured.penalty (c : Measured) : Int :=
  if c.m.sock.delay.clockDrift < -200000 then (-c.m.sock.delay.clockDrift - 200000).tdiv 7 else 0

def Measured.target (c : Measured) : Int :=
  if asI32 c.m.sock.cwnd.targetDelay ≤ 0 then 100000 else asI32 c.m.sock.cwnd.targetDelay

/-- The controller steers by these values. -/
theorem applyCcontrol_eq (c : Measured) :
    c.m.applyCcontrol c.bytes c.minRtt
      = c.m.steerWindow c.bytes (c.ourDelay + c.penalty) (c.target - (c.ourDelay + c.penalty))
        c.target := by
  unfold applyCcontrol Measured.target Measured.ourDelay Measured.penalty
  by_cases hdrift : c.m.sock.delay.clockDrift < -200000
  · simp only [hdrift, if_true]
  · simp only [hdrift, if_false, Int.add_zero]

def FitsI32 (z : Int) : Prop := -2 ^ 31 ≤ z ∧ z < 2 ^ 31

/-- The casts of the controller lose nothing, and none of its operations on the
    delay overflows: it steers by the smaller of delay and round trip, with the
    penalty added. -/
structure DelayExact (c : Measured) : Prop where
  steered : c.m.applyCcontrol c.bytes c.minRtt
    = c.m.steerWindow c.bytes (c.ourDelay + c.penalty) (c.target - (c.ourDelay + c.penalty))
      c.target
  minimum : c.ourDelay = min (c.m.sock.delay.ourHist.getValue.toNat : Int) c.minRtt
  nonneg : 0 ≤ c.ourDelay
  negated : FitsI32 (-c.m.sock.delay.clockDrift)
  excess : FitsI32 (-c.m.sock.delay.clockDrift - 200000)
  penalized : FitsI32 (c.ourDelay + c.penalty)
  offTarget : FitsI32 (c.target - (c.ourDelay + c.penalty))

/-- The smaller of the measured delay and the round trip is below 2^31, and so
    far below it as a seventh of the drift beyond 200 ms demands. -/
def DelaySmall (c : Measured) : Prop :=
  0 ≤ c.minRtt
    ∧ min (c.m.sock.delay.ourHist.getValue.toNat : Int) c.minRtt < 2 ^ 31
    ∧ 7 * min (c.m.sock.delay.ourHist.getValue.toNat : Int) c.minRtt - c.m.sock.delay.clockDrift
      < 7 * 2 ^ 31 + 200000

instance (c : Measured) : Decidable (DelaySmall c) :=
  inferInstanceAs (Decidable (_ ∧ _ ∧ _))

/-- A cast gives a number that fits. -/
theorem fitsI32_asI32 (n : Nat) : FitsI32 (asI32 n) := by
  unfold FitsI32 asI32
  split <;> omega

/-- A cast of a number that fits loses nothing. -/
theorem asI32_small {n : Nat} (h : n < 2 ^ 31) : asI32 n = n := by
  unfold asI32
  have hmod : n % 2 ^ 32 = n := Nat.mod_eq_of_lt (by omega)
  rw [hmod, if_pos h]

theorem asU64_nonneg {z : Int} (h : 0 ≤ z) (hle : z ≤ 2 ^ 63 - 1) : asU64 z = z.toNat := by
  unfold asU64
  rw [Int.emod_eq_of_lt h (by omega)]

/-- The target is at least one microsecond, and fits. -/
theorem target_range (c : Measured) : 1 ≤ c.target ∧ c.target < 2 ^ 31 := by
  obtain ⟨-, hhigh⟩ := fitsI32_asI32 c.m.sock.cwnd.targetDelay
  unfold Measured.target
  split <;> omega

/-- The penalty only adds. -/
theorem penalty_nonneg (c : Measured) : 0 ≤ c.penalty := by
  unfold Measured.penalty
  split
  · exact Int.tdiv_nonneg (by omega) (by decide)
  · exact Int.le_refl _

/-- Room for the penalty, without the division by 7. -/
theorem penalty_fits (c : Measured) (z : Int) :
    z + c.penalty < 2 ^ 31
      ↔ z < 2 ^ 31 ∧ 7 * z - c.m.sock.delay.clockDrift < 7 * 2 ^ 31 + 200000 := by
  unfold Measured.penalty
  split
  · rw [Int.tdiv_eq_ediv_of_nonneg (by omega)]
    omega
  · omega

/-- With a bounded drift only the delay itself can be too large. -/
theorem delayExact_iff {c : Measured} (hd : DelayOk c.m.sock.delay)
    (hrtt : c.minRtt ≤ 2 ^ 63 - 1) : DelayExact c ↔ DelaySmall c := by
  have hpenalty := penalty_nonneg c
  unfold DelaySmall
  rw [← penalty_fits]
  constructor
  · intro h
    have hmin := h.minimum
    have hnonneg := h.nonneg
    obtain ⟨-, hfits⟩ := h.penalized
    rw [hmin] at hfits hnonneg
    -- both conditions follow from the two fields
    exact ⟨by omega, hfits⟩
  · rintro ⟨hpos, hsmall⟩
    have hexact : c.ourDelay = min (c.m.sock.delay.ourHist.getValue.toNat : Int) c.minRtt := by
      unfold Measured.ourDelay
      rw [asU64_nonneg hpos hrtt, asI32_small (by omega)]
      omega
    -- the drift is bounded in every reachable state, so the penalty cannot reach the limits
    have hdrift := hd.drift
    have hmax : 2 * maxAverageDelaySample ≤ 2 ^ 30 := by decide
    obtain ⟨htarget, htarget'⟩ := target_range c
    refine ⟨applyCcontrol_eq c, hexact, ?_, ?_, ?_, ?_, ?_⟩
    · rw [hexact]
      omega
    · unfold FitsI32
      omega
    · unfold FitsI32
      omega
    · rw [hexact]
      unfold FitsI32
      omega
    · rw [hexact]
      unfold FitsI32
      omega

/-- Every acked packet can only lower the minimum rtt. -/
theorem minRtt_countAcked (s : UtpSock) (now nowMs acks : Nat) :
    (s.countAcked now nowMs acks).minRtt ≤ 2 ^ 63 - 1 := by
  unfold UtpSock.countAcked
  refine List.foldlRecOn (motive := fun c : AckCount => c.minRtt ≤ 2 ^ 63 - 1) _ _
    (Int.le_refl _) (fun c hc i _ => ?_)
  unfold AckCount.add
  dsimp only
  split
  · split
    · exact Int.le_trans (Int.min_le_left _ _) hc
    · exact hc
  · exact hc

/-- A mask can only lower the round trip. -/
theorem minRtt_selectiveAckBytes (m : Detached) (base : UInt16) (mask : Bytes) (minRtt : Int) :
    (m.selectiveAckBytes base mask minRtt).2 ≤ minRtt := by
  unfold selectiveAckBytes
  split
  · exact Int.le_refl _
  · refine List.foldlRecOn (motive := fun acc : Nat × Int => acc.2 ≤ minRtt) _ _
      (Int.le_refl _) (fun acc hacc bits _ => ?_)
    unfold sackBytesStep
    dsimp only
    split
    · split
      · split
        · exact Int.le_trans (Int.min_le_left _ _) hacc
        · exact hacc
      · exact hacc
    · exact hacc

/-- The round trip fits its type. -/
theorem minRtt_measured (m : Detached) (buf : Bytes) (selack : Option (Nat × Nat)) (acks : Nat) :
    (measured m buf selack acks).minRtt ≤ 2 ^ 63 - 1 := by
  unfold measured totalAcked
  dsimp only
  generalize m.sock.countDuplicate m.ctx.clock.millis (ackNr buf) (packetType buf) = s
  have hcounted := minRtt_countAcked s m.ctx.clock.micros m.ctx.clock.millis acks
  cases selack with
  | none => exact hcounted
  | some sel => exact Int.le_trans (minRtt_selectiveAckBytes _ _ _ _) hcounted

/-- **THE CONTROLLER'S DELAY IS EXACT** in every call that finds a delay or a
    round trip short enough for the penalty, and in no other. -/
theorem delay_exact_iff {ctx : Context} (hreach : Reachable ctx) {key : Key} {s : UtpSock}
    (hs : ctx.sockets.lookup key = some s) {buf : Bytes} {c : Measured}
    (hc : Controls (ctx.detach key s) buf c) : DelayExact c ↔ DelaySmall c := by
  obtain ⟨w, -, rfl⟩ := hc.call
  refine delayExact_iff ?_ (minRtt_measured _ _ _ _)
  rw [(measured_sock _ buf w.selack _).2]
  exact delayOk_onPacket (reachable_delayOk hreach key s hs) _ _ _ _ _

/-- A packet of a peer that reports `sample` as our delay. -/
def reporting (sample : UInt32) (buf : Bytes) : Bytes :=
  setReplyMicro (setWindowSize buf 65535) sample

/-- One byte is acked half the range of the timestamps later, with delays that
    the peer chose to be half that range above the first one. -/
def lateOps : List Op :=
  [arrives (datagram stSyn 1000 1 0 []), arrives (reporting 1 (datagram stData 1001 2 52654 [7])),
    .write acceptedKey [1],
    arrives (reporting 0x80000001 (datagram stState 1001 3 52654 [])),
    arrives (reporting 0x80000001 (datagram stState 1001 3 52654 [])), .elapse ⟨0x80000000⟩]

def lateAck : Bytes := reporting 0x80000001 (datagram stState 1001 3 52655 [])

/-- The call of the controller that a datagram without extensions leads to. -/
def plainCall (m : Detached) (buf : Bytes) : Measured :=
  measured (admitted m buf) buf none ((admitted m buf).sock.acksOf (ackNr buf))

/-- The delay of a late ack does not fit: the controller steers by a negative
    one. -/
theorem delay_wraps :
    ∃ ctx s c, Reachable ctx ∧ ctx.sockets.lookup acceptedKey = some s
      ∧ Controls (ctx.detach acceptedKey s) lateAck c
      ∧ c.m.applyCcontrol c.bytes c.minRtt
        = c.m.steerWindow c.bytes (-2 ^ 31 + 7161663) (100000 - (-2 ^ 31 + 7161663)) 100000
      ∧ ¬ DelayExact c := by
  obtain ⟨ctx, s, hreach, hs, hrange, hnear, hbytes, hdelay, hpenalty, htarget⟩ :=
    detachedAfter_of 0 lateOps acceptedKey
      (Q := fun m => m.sock.ackOutOfRange (ackNr lateAck) = false
        ∧ seqOffset (admitted m lateAck).sock (seqNr lateAck) < reorderBufferMaxSize
        ∧ 1 ≤ (plainCall m lateAck).bytes ∧ (plainCall m lateAck).ourDelay = -2 ^ 31
        ∧ (plainCall m lateAck).penalty = 7161663 ∧ (plainCall m lateAck).target = 100000)
      (by decide +kernel)
  refine ⟨ctx, s, plainCall (ctx.detach acceptedKey s) lateAck, hreach, hs,
    controls_plain (by decide +kernel) hrange (by decide +kernel) hnear (by decide +kernel)
      (by decide +kernel) hbytes, ?_, fun h => ?_⟩
  · -- `our_delay` has wrapped below zero
    rw [applyCcontrol_eq, hdelay, hpenalty, htarget]
  · have hnonneg := h.nonneg
    rw [hdelay] at hnonneg
    exact absurd hnonneg (by decide)

/-- A prompt ack of the same byte. -/
def promptOps : List Op :=
  [arrives (datagram stSyn 1000 1 0 []), arrives (reporting 1 (datagram stData 1001 2 52654 [7])),
    .write acceptedKey [1], .elapse ⟨5000⟩]

def promptAck : Bytes := reporting 3000 (datagram stState 1001 3 52655 [])

/-- A prompt ack is small, and its delay exact. -/
theorem delay_exact_iff_prompt :
    ∃ ctx s c, Reachable ctx ∧ ctx.sockets.lookup acceptedKey = some s
      ∧ Controls (ctx.detach acceptedKey s) promptAck c ∧ DelaySmall c ∧ DelayExact c := by
  obtain ⟨ctx, s, hreach, hs, hrange, hnear, hbytes, hsmall⟩ :=
    detachedAfter_of 0 promptOps acceptedKey
      (Q := fun m => m.sock.ackOutOfRange (ackNr promptAck) = false
        ∧ seqOffset (admitted m promptAck).sock (seqNr promptAck) < reorderBufferMaxSize
        ∧ 1 ≤ (plainCall m promptAck).bytes ∧ DelaySmall (plainCall m promptAck))
      (by decide +kernel)
  have hc : Controls (ctx.detach acceptedKey s) promptAck
      (plainCall (ctx.detach acceptedKey s) promptAck) :=
    controls_plain (by decide +kernel) hrange (by decide +kernel) hnear (by decide +kernel)
      (by decide +kernel) hbytes
  exact ⟨ctx, s, _, hreach, hs, hc, hsmall, (delay_exact_iff hreach hs hc).mpr hsmall⟩

end UtpController
