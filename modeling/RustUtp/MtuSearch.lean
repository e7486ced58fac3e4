import RustUtp.Acts.Engine
import Mathlib.Logic.Relation

/-! # The MTU search — its range, and why it ends

    A socket searches for its packet size between `floor` and `ceiling`.  One
    packet at a time is a probe: acked, it raises the floor, lost, it lowers
    the ceiling, and every 30 minutes the search starts over, probe or no
    probe.  `MtuMove` lists these changes, and no sequence of them leaves the
    range.  So every call of the search update, whether duplicate acks, acks or
    a timeout lead to it, meets a range in order and makes it smaller. -/

namespace UtpMtuSearch

open UtpCircular UtpPacket UtpUtil UtpConnShared UtpEngine UtpEngine.Detached UtpActs
open LabelledPath Relation

/-! ## The moves of a search -/

/-- What the verdict on a probe makes of the range, before it is searched. -/
structure Verdict (m range : Mtu) : Prop where
  probing : m.probeSeq ≠ 0
  bound : range = { m with floor := m.probeSize } ∨ range = { m with ceiling := m.probeSize - 1 }

/-- One change of the search. -/
inductive MtuMove (udpMtu : Nat) : Mtu → Mtu → Prop where
  | verdict (m range : Mtu) (now : Nat) (h : Verdict m range) :
      MtuMove udpMtu m (range.searchUpdate now)
  | forget (m : Mtu) : MtuMove udpMtu m { m with probeSeq := 0, probeSize := 0 }
  | restart (m : Mtu) (now : Nat) (hdue : m.discoverTime < now) :
      MtuMove udpMtu m (m.reset udpMtu now)
  | probe (m : Mtu) (seq : UInt32) (size : Nat) (hfree : m.probeSeq = 0) (hseq : seq ≠ 0)
      (habove : m.floor < size) (hbelow : size ≤ m.ceiling) :
      MtuMove udpMtu m { m with probeSeq := seq, probeSize := size }

/-- The search of a new socket. -/
def freshMtu (udpMtu now : Nat) : Mtu where
  discoverTime := now + 30 * 60 * 1000
  ceiling := udpMtu
  floor := if mtuFloorMin > udpMtu then udpMtu else mtuFloorMin
  last := udpMtu
  probeSeq := 0
  probeSize := 0

/-- The range is ordered and lies between the bounds, and an outstanding probe
    lies in it, above the floor. -/
structure InRange (udpMtu : Nat) (m : Mtu) : Prop where
  floor : mtuFloorMin ≤ m.floor
  order : m.floor ≤ m.ceiling
  ceiling : m.ceiling ≤ udpMtu
  last : mtuFloorMin ≤ m.last ∧ m.last ≤ udpMtu
  probe : m.probeSeq ≠ 0 → m.floor < m.probeSize ∧ m.probeSize ≤ m.ceiling

/-- How much there is left to search. -/
def width (m : Mtu) : Nat := m.ceiling - m.floor

/-- A range that is in order needs no repair. -/
theorem repair_of_le {m : Mtu} (h : m.floor ≤ m.ceiling) : m.repair = m := by
  unfold Mtu.repair
  rw [if_neg (Nat.not_lt.mpr h)]

/-- A search update of an ordered range stays inside of it and forgets the
    probe. -/
theorem searchUpdate_spec {m : Mtu} (h : m.floor ≤ m.ceiling) (now : Nat) :
    (m.searchUpdate now).floor = m.floor
      ∧ m.floor ≤ (m.searchUpdate now).ceiling ∧ (m.searchUpdate now).ceiling ≤ m.ceiling
      ∧ m.floor ≤ (m.searchUpdate now).last ∧ (m.searchUpdate now).last ≤ m.ceiling
      ∧ (m.searchUpdate now).probeSeq = 0 := by
  unfold Mtu.searchUpdate
  rw [repair_of_le h]
  dsimp only
  split
  · exact ⟨rfl, Nat.le_refl _, h, Nat.le_refl _, h, rfl⟩
  · refine ⟨rfl, h, Nat.le_refl _, ?_, ?_, rfl⟩
    · show m.floor ≤ (m.floor + m.ceiling) / 2
      omega
    · show (m.floor + m.ceiling) / 2 ≤ m.ceiling
      omega

variable {udpMtu : Nat} {m m' range : Mtu}

/-- An update of ordered bounds is in range; this is where the repair branch is
    not taken. -/
theorem inRange_searchUpdate (hfloor : mtuFloorMin ≤ m.floor) (horder : m.floor ≤ m.ceiling)
    (hceiling : m.ceiling ≤ udpMtu) (now : Nat) : InRange udpMtu (m.searchUpdate now) := by
  obtain ⟨hf, hlow, hhigh, hlast, hlast', hprobe⟩ := searchUpdate_spec horder now
  refine ⟨?_, ?_, hhigh.trans hceiling, ⟨hfloor.trans hlast, hlast'.trans hceiling⟩, ?_⟩
  · rw [hf]
    exact hfloor
  · rw [hf]
    exact hlow
  · exact fun hne => absurd hprobe hne

/-- **A VERDICT LEAVES AN ORDERED RANGE THAT IS SMALLER THAN BEFORE.** -/
theorem verdict_range (h : InRange udpMtu m) (hv : Verdict m range) :
    mtuFloorMin ≤ range.floor ∧ range.floor ≤ range.ceiling ∧ range.ceiling ≤ udpMtu
      ∧ width range < width m := by
  obtain ⟨habove, hbelow⟩ := h.probe hv.probing
  have hfloor := h.floor
  have hceiling := h.ceiling
  unfold width
  rcases hv.bound with rfl | rfl
  · show mtuFloorMin ≤ m.probeSize ∧ m.probeSize ≤ m.ceiling ∧ m.ceiling ≤ udpMtu
      ∧ m.ceiling - m.probeSize < m.ceiling - m.floor
    omega
  · show mtuFloorMin ≤ m.floor ∧ m.floor ≤ m.probeSize - 1 ∧ m.probeSize - 1 ≤ udpMtu
      ∧ m.probeSize - 1 - m.floor < m.ceiling - m.floor
    omega

/-- A call of the search update on `range`, after a verdict on the probe of `m`:
    `r` is its result, there is nothing to repair, and less is left to search. -/
structure Narrows (udpMtu : Nat) (m range r : Mtu) (now : Nat) : Prop where
  probing : m.probeSeq ≠ 0 ∧ 0 < m.probeSize
  call : r = range.searchUpdate now
  bounds : mtuFloorMin ≤ range.floor ∧ range.floor ≤ range.ceiling ∧ range.ceiling ≤ udpMtu
  unrepaired : range.repair = range
  smaller : width r < width m

/-- **EVERY SEARCH UPDATE NARROWS THE RANGE.** -/
theorem verdict_narrows (h : InRange udpMtu m) (hv : Verdict m range) (now : Nat) :
    Narrows udpMtu m range (range.searchUpdate now) now := by
  obtain ⟨hfloor, horder, hceiling, hsmaller⟩ := verdict_range h hv
  refine ⟨⟨hv.probing, Nat.lt_of_le_of_lt (Nat.zero_le _) (h.probe hv.probing).1⟩, rfl,
    ⟨hfloor, horder, hceiling⟩, repair_of_le horder, Nat.lt_of_le_of_lt ?_ hsmaller⟩
  obtain ⟨hf, -, hhigh, -⟩ := searchUpdate_spec horder now
  unfold width
  rw [hf]
  exact Nat.sub_le_sub_right hhigh _

/-- **EVERY MOVE STAYS IN THE RANGE.** -/
theorem inRange_move (hudp : mtuFloorMin ≤ udpMtu) (h : InRange udpMtu m)
    (hmove : MtuMove udpMtu m m') : InRange udpMtu m' := by
  cases hmove with
  | verdict range now hv =>
      obtain ⟨hfloor, horder, hceiling, -⟩ := verdict_range h hv
      exact inRange_searchUpdate hfloor horder hceiling now
  | forget => exact ⟨h.floor, h.order, h.ceiling, h.last, fun hne => absurd rfl hne⟩
  | restart now _ =>
      have hkeep : ¬ mtuFloorMin > udpMtu := Nat.not_lt.mpr hudp
      unfold Mtu.reset
      rw [if_neg hkeep]
      -- an outstanding probe was above the old floor, so it is above the lowest
      refine ⟨Nat.le_refl _, hudp, Nat.le_refl _, h.last, fun hne => ?_⟩
      obtain ⟨habove, hbelow⟩ := h.probe hne
      exact ⟨Nat.lt_of_le_of_lt h.floor habove, hbelow.trans h.ceiling⟩
  | probe seq size _ _ habove hbelow =>
      exact ⟨h.floor, h.order, h.ceiling, h.last, fun _ => ⟨habove, hbelow⟩⟩

/-- A search that starts over is in range. -/
theorem inRange_freshMtu (hudp : mtuFloorMin ≤ udpMtu) (now : Nat) :
    InRange udpMtu (freshMtu udpMtu now) := by
  unfold freshMtu
  rw [if_neg (Nat.not_lt.mpr hudp)]
  exact ⟨Nat.le_refl _, hudp, Nat.le_refl _, ⟨hudp, Nat.le_refl _⟩, fun hne => absurd rfl hne⟩

theorem inRange_moves (hudp : mtuFloorMin ≤ udpMtu) (h : InRange udpMtu m)
    (hpath : ReflTransGen (MtuMove udpMtu) m m') : InRange udpMtu m' := by
  induction hpath with
  | refl => exact h
  | tail _ hmove ih => exact inRange_move hudp ih hmove

/-! ## What the code does to the search -/

/-- Some moves lead from one search to the other. -/
abbrev Moves (udpMtu : Nat) : Mtu → Mtu → Prop := ReflTransGen (MtuMove udpMtu)

/-- A verdict and its update are one move. -/
theorem moves_verdict (h : Verdict m range) (now : Nat) :
    Moves udpMtu m (range.searchUpdate now) :=
  .single (.verdict m range now h)

/-- Sending: the periodic restart, then perhaps a new probe. -/
theorem moves_mtuOnSend (s : UtpSock) (now : Nat) (pkt : OutgoingPacket) :
    Moves s.getUdpMtu s.mtu (mtuOnSend s now pkt) := by
  unfold mtuOnSend
  have hrestart : Moves s.getUdpMtu s.mtu
      (if s.mtu.discoverTime < now then s.mtu.reset s.getUdpMtu now else s.mtu) := by
    split
    · rename_i hdue
      exact .single (.restart s.mtu now hdue)
    · exact .refl
  dsimp only
  generalize (if s.mtu.discoverTime < now then s.mtu.reset s.getUdpMtu now else s.mtu) = mtu
    at hrestart ⊢
  split
  · rename_i h
    obtain ⟨-, habove, hbelow, hfree, hseq, -⟩ := h
    refine hrestart.tail (.probe mtu _ _ hfree (fun hzero => hseq ?_) habove hbelow)
    have hnat : (s.seqNr - 1).toNat = 0 := by
      rw [← UInt16.toNat_toUInt32, hzero]
      rfl
    have hzero' : s.seqNr - 1 = 0 := UInt16.toNat_inj.mp hnat
    grind
  · exact hrestart

/-- Duplicate acks: the probe before them was lost, or nothing is known. -/
theorem moves_countDuplicate (s : UtpSock) (nowMs : Nat) (pkAckNr : UInt16) (pkFlags : UInt8) :
    Moves udpMtu s.mtu (s.countDuplicate nowMs pkAckNr pkFlags).mtu := by
  unfold UtpSock.countDuplicate
  split
  · split
    · dsimp only
      split
      · rename_i hprobe
        split
        · exact moves_verdict ⟨hprobe.2, .inr rfl⟩ nowMs
        · exact .single (.forget s.mtu)
      · exact .refl
    · exact .refl
  · exact .refl

/-- Counting an acked packet moves the search if it was the probe. -/
theorem moves_add (c : AckCount) (now nowMs : Nat) (seq : UInt16)
    (pkt : Option OutgoingPacket) : Moves udpMtu c.mtu (c.add now nowMs seq pkt).mtu := by
  unfold AckCount.add
  split
  · split
    · dsimp only
      split
      · rename_i hprobe
        exact moves_verdict ⟨hprobe.1, .inl rfl⟩ nowMs
      · exact .refl
    · exact .refl
  · exact .refl

/-- The acked packets, oldest first: the probe among them went through. -/
theorem moves_countAcked (s : UtpSock) (now nowMs acks : Nat) :
    Moves udpMtu s.mtu (s.countAcked now nowMs acks).mtu := by
  unfold UtpSock.countAcked
  have hfold : ∀ (l : List Nat) (c : AckCount), Moves udpMtu c.mtu
      (l.foldl (fun c i => c.add now nowMs (s.oldest + UInt16.ofNat i)
        (s.outbuf.get (s.oldest + UInt16.ofNat i).toNat)) c).mtu := by
    intro l
    induction l with
    | nil => intro c; exact .refl
    | cons i rest ih => intro c; exact (moves_add c now nowMs _ _).trans (ih _)
  exact hfold (List.range acks) { mtu := s.mtu, bytes := 0, minRtt := _ }

theorem moves_measuredMtu (m : Detached) (buf : Bytes) (acks : Nat) :
    Moves udpMtu m.sock.mtu (measuredMtu m buf acks) :=
  (moves_countDuplicate m.sock _ _ _).trans (moves_countAcked _ _ _ _)

/-- A timeout: a lone probe was lost, and a new one is allowed. -/
theorem moves_mtuOnTimeout (s : UtpSock) (nowMs : Nat) :
    Moves udpMtu s.mtu (mtuOnTimeout s nowMs) := by
  unfold mtuOnTimeout
  dsimp only
  refine ReflTransGen.tail ?_ (.forget _)
  split
  · rename_i h
    unfold probeTimedOut at h
    simp only [Bool.and_eq_true, decide_eq_true_eq] at h
    exact moves_verdict ⟨h.2, .inr rfl⟩ nowMs
  · exact .refl

/-! ## Every act -/

/-- The search of a socket leads to that of another with the same peer. -/
def Searches (s s' : UtpSock) : Prop :=
  s'.key = s.key ∧ Moves s.getUdpMtu s.mtu s'.mtu

theorem Searches.refl (s : UtpSock) : Searches s s := ⟨rfl, .refl⟩

theorem Searches.trans {s₁ s₂ s₃ : UtpSock} (h : Searches s₁ s₂) (h' : Searches s₂ s₃) :
    Searches s₁ s₃ := by
  have hudp : s₂.getUdpMtu = s₁.getUdpMtu := by
    unfold UtpSock.getUdpMtu
    rw [h.1]
  have hmoves := h'.2
  rw [hudp] at hmoves
  exact ⟨h'.1.trans h.1, h.2.trans hmoves⟩

/-- Whatever leaves the search and the peer alone. -/
theorem Searches.of_eq {s s' : UtpSock} (hkey : s'.key = s.key) (hmtu : s'.mtu = s.mtu) :
    Searches s s' :=
  ⟨hkey, by rw [hmtu]⟩

/-- Sending a datagram leaves the search. -/
theorem searches_sendData (m : Detached) (written : Nat) (buf : Bytes) :
    Searches m.sock (m.sendData written buf).sock := by
  rw [sendData_sock]
  exact Searches.of_eq rfl rfl

theorem searches_sendAck (m : Detached) (synack : Bool) :
    Searches m.sock (m.sendAck synack).sock := by
  unfold sendAck
  rw [ackListRemove_sock]
  exact (searches_sendData m.updateRcvWin _ _).trans (Searches.of_eq rfl rfl)

/-- Transmitting a packet may start a search over, or make the packet its probe.
    -/
theorem searches_sendPacketAt (m : Detached) (seq : UInt16) :
    Searches m.sock (m.sendPacketAt seq).sock := by
  unfold sendPacketAt
  split
  · exact Searches.refl _
  · rename_i pkt _
    have hcount : Searches m.sock (m.countSend pkt).sock :=
      ⟨rfl, moves_mtuOnSend m.sock m.ctx.clock.millis pkt⟩
    exact hcount.trans (searches_sendData _ _ _)

/-- Taking an acked packet leaves the search; its verdict came before. -/
theorem searches_ackPacket (m : Detached) (seq : UInt16) :
    Searches m.sock (m.ackPacket seq).1.sock := by
  unfold ackPacket
  split
  · exact Searches.refl _
  · split
    · exact Searches.refl _
    · exact Searches.of_eq rfl rfl

theorem searches_ackCumulative (acks : Nat) (m : Detached) :
    Searches m.sock (ackCumulative acks m).sock := by
  have hack : ∀ (n : Nat) (m : Detached), Searches m.sock (ackLoop n m).sock := by
    intro n
    induction n with
    | zero => intro m; exact Searches.refl _
    | succ n ih =>
        intro m
        rw [ackLoop]
        split
        · exact searches_ackPacket m _
        · exact ((searches_ackPacket m m.sock.oldest).trans (Searches.of_eq rfl rfl)).trans (ih _)
  have hshrink : ∀ (n : Nat) (m : Detached), Searches m.sock (shrinkLoop n m).sock := by
    intro n
    induction n with
    | zero => intro m; exact Searches.refl _
    | succ n ih =>
        intro m
        rw [shrinkLoop]
        split
        · exact (Searches.of_eq rfl rfl).trans (ih _)
        · exact Searches.refl _
  exact ((hack acks m).trans (hshrink _ _)).trans (Searches.of_eq rfl rfl)

theorem searches_markLost (m : Detached) (seq : UInt16) :
    Searches m.sock (m.markLost seq).sock := by
  unfold markLost
  split
  · exact Searches.refl _
  · split
    · exact Searches.refl _
    · exact Searches.of_eq rfl rfl

variable {inp : Option Bytes} {occ : Occasion}

/-- Bookkeeping moves the search where it gives a verdict. -/
theorem searches_bookkeeping {m m' : Detached} (h : Bookkeeping inp m m') :
    Searches m.sock m'.sock := by
  cases h with
  | measure buf selack _ =>
      obtain ⟨_, _, _, hshape, -⟩ := measure_shape m buf selack (m.sock.acksOf (ackNr buf))
      rw [hshape]
      exact ⟨rfl, moves_measuredMtu m buf _⟩
  | noteWindow buf _ =>
      obtain ⟨_, _, -, hshape⟩ := noteWindow_shape m buf
      rw [hshape]
      exact Searches.of_eq rfl rfl
  | updateFastResend buf _ =>
      unfold updateFastResend
      split <;> exact Searches.of_eq rfl rfl
  | reopenWindow =>
      unfold reopenWindow
      split <;> exact Searches.of_eq rfl rfl
  | mtuTimeout => exact ⟨rfl, moves_mtuOnTimeout m.sock m.ctx.clock.millis⟩
  | _ => exact Searches.of_eq rfl rfl

/-- **EVERY ACT OF THE SEND SIDE** moves the search, if at all. -/
theorem searches_txAct {l : Bytes} {m m' : Detached} (h : TxAct inp l m m') :
    Searches m.sock m'.sock := by
  cases h with
  | quiet _ _ _ _ _ _ _ _ hbook => exact searches_bookkeeping hbook
  | sendPacket _ seq => exact searches_sendPacketAt m seq
  | ackCum _ _ acks => exact searches_ackCumulative acks m
  | ackSel => exact searches_ackPacket m _
  | lose _ seq => exact searches_markLost m seq
  | _ => exact Searches.of_eq rfl rfl

theorem searches_drainAct {l : Bytes} {m m' : Detached} (h : DrainAct l m m') :
    Searches m.sock m'.sock := by
  cases h with
  | drain _ p => rw [drainNext_sock]; exact Searches.of_eq rfl rfl
  | reach => exact Searches.of_eq rfl rfl
  | ackFin => exact searches_sendAck m false
  | dropStragglers => exact Searches.of_eq rfl rfl

theorem searches_act {l : Bytes} {m m' : Detached} (h : Act occ l m m') :
    Searches m.sock m'.sock := by
  cases h with
  | tx h => exact searches_txAct h
  | inOrder _ _ buf data _ _ _ hdrain =>
      refine DrainPath.lift (S := fun a b : Detached => Searches a.sock b.sock)
        (fun _ => Searches.refl _) (fun _ _ _ => Searches.trans)
        (fun _ _ _ h => searches_drainAct h) ?_ hdrain
      rw [acceptNext_sock]
      exact Searches.of_eq rfl rfl
  | ack _ synack => exact searches_sendAck m synack
  | schedule => unfold scheduleAck; split <;> exact Searches.of_eq rfl rfl
  | keepAlive =>
      exact (searches_sendAck ({ m with sock := { m.sock with ackNr := m.sock.ackNr - 1 } })
        false).trans (Searches.of_eq rfl rfl)
  | _ => exact Searches.of_eq rfl rfl

/-! ## The result -/

/-- The search of a socket started fresh, and went on move by move. -/
def Searched (s : UtpSock) : Prop :=
  ∃ now, Moves s.getUdpMtu (freshMtu s.getUdpMtu now) s.mtu

/-- A search that has come this way goes on. -/
theorem Searched.next {s s' : UtpSock} (h : Searched s) (hs : Searches s s') : Searched s' := by
  obtain ⟨now, hmoves⟩ := h
  have hudp : s'.getUdpMtu = s.getUdpMtu := by
    unfold UtpSock.getUdpMtu
    rw [hs.1]
  exact ⟨now, by rw [hudp]; exact hmoves.trans hs.2⟩

theorem searched_path {occ : Occasion} {l : Bytes} {m m' : Detached} (h : ActPath occ l m m')
    (hs : Searched m.sock) : Searched m'.sock :=
  Steps.invariant (P := fun m : Detached => Searched m.sock)
    (fun _ _ _ ha hm => hm.next (searches_act ha)) h hs

/-- **EVERY SEARCH** in a reachable state has come from its start by moves. -/
theorem reachable_searched {ctx : Context} (h : Reachable ctx) : EverySock Searched ctx := by
  refine Reachable.everySock (fun _ _ _ _ hact hs => hs.next (searches_act hact))
    (fun ctx addr seed rng => ⟨ctx.clock.millis, ?_⟩)
    (fun ctx buf addr => ⟨ctx.clock.millis, ?_⟩) h
  · exact .refl
  · exact .refl

/-- Both kinds of addresses have room for a search. -/
theorem floor_le_udpMtu (s : UtpSock) : mtuFloorMin ≤ s.getUdpMtu := by
  unfold UtpSock.getUdpMtu
  split <;> decide

theorem Searched.inRange {s : UtpSock} (h : Searched s) : InRange s.getUdpMtu s.mtu := by
  obtain ⟨now, hmoves⟩ := h
  have hudp := floor_le_udpMtu s
  exact inRange_moves hudp (inRange_freshMtu hudp now) hmoves

/-- There is always a last packet size. -/
theorem InRange.last_ne_zero {udpMtu : Nat} {m : Mtu} (h : InRange udpMtu m) : m.last ≠ 0 := by
  intro hzero
  have hlow := h.last.1
  rw [hzero] at hlow
  exact absurd hlow (by decide)

theorem packetSize_range {s : UtpSock} (h : InRange s.getUdpMtu s.mtu) :
    556 ≤ s.getPacketSize ∧ s.getPacketSize + headerSize ≤ s.getUdpMtu := by
  obtain ⟨hlow, hhigh⟩ := h.last
  have hlow' : 576 ≤ s.mtu.last := hlow
  have hsize : s.getPacketSize = s.mtu.last - 20 := by
    unfold UtpSock.getPacketSize
    rw [if_pos (by omega)]
    rfl
  rw [hsize]
  show 556 ≤ s.mtu.last - 20 ∧ s.mtu.last - 20 + 20 ≤ s.getUdpMtu
  omega

/-- The third duplicate ack says that the probe was lost, likely due to its
    size. -/
def Rejected (s : UtpSock) (pkAckNr : UInt16) (pkFlags : UInt8) : Prop :=
  s.curWindowPackets > 0 ∧ pkAckNr = s.oldest - 1 ∧ pkFlags = stState
    ∧ (s.resend.duplicateAck + 1).toNat = duplicateAcksBeforeResend ∧ s.mtu.probeSeq ≠ 0
    ∧ pkAckNr.toUInt32 = (s.mtu.probeSeq - 1) &&& ackNrMask

instance (s : UtpSock) (pkAckNr : UInt16) (pkFlags : UInt8) :
    Decidable (Rejected s pkAckNr pkFlags) :=
  inferInstanceAs (Decidable (_ ∧ _ ∧ _ ∧ _ ∧ _ ∧ _))

/-- An acked packet, still in the queue, is the probe. -/
def Delivered (mtu : Mtu) (seq : UInt16) (pkt : Option OutgoingPacket) : Prop :=
  (∃ p, pkt = some p ∧ p.transmissions > 0) ∧ mtu.probeSeq ≠ 0 ∧ seq.toUInt32 = mtu.probeSeq

/-- The code that changes the search, run on `m`: the duplicate acks and the acks
    of `process_incoming`, packet by packet, the timeout, and the sending of a
    packet.  Each verdict is followed by an update that narrows the range, and
    nothing else moves its ends but the restart every 30 minutes. -/
structure SearchCalls (m : Detached) : Prop where
  rejected : ∀ ack kind, Rejected m.sock ack kind →
    Narrows m.sock.getUdpMtu m.sock.mtu { m.sock.mtu with ceiling := m.sock.mtu.probeSize - 1 }
      (m.sock.countDuplicate m.ctx.clock.millis ack kind).mtu m.ctx.clock.millis
  notRejected : ∀ ack kind, ¬ Rejected m.sock ack kind →
    (m.sock.countDuplicate m.ctx.clock.millis ack kind).mtu = m.sock.mtu
      ∨ (m.sock.countDuplicate m.ctx.clock.millis ack kind).mtu
        = { m.sock.mtu with probeSeq := 0, probeSize := 0 }
  acked : ∀ ack kind (n : Nat),
    let s := m.sock.countDuplicate m.ctx.clock.millis ack kind
    let counted := s.countAcked m.ctx.clock.micros m.ctx.clock.millis
    let seq := s.oldest + UInt16.ofNat n
    (counted 0).mtu = s.mtu
      ∧ (Delivered (counted n).mtu seq (s.outbuf.get seq.toNat) →
        Narrows m.sock.getUdpMtu (counted n).mtu
          { (counted n).mtu with floor := (counted n).mtu.probeSize } (counted (n + 1)).mtu
          m.ctx.clock.millis)
      ∧ (¬ Delivered (counted n).mtu seq (s.outbuf.get seq.toNat) →
        (counted (n + 1)).mtu = (counted n).mtu)
  measured : ∀ buf selack acks, (m.measure buf selack acks).sock.mtu
    = ((m.sock.countDuplicate m.ctx.clock.millis (ackNr buf) (packetType buf)).countAcked
      m.ctx.clock.micros m.ctx.clock.millis acks).mtu
  timedOut : probeTimedOut m.sock = true →
    Narrows m.sock.getUdpMtu m.sock.mtu { m.sock.mtu with ceiling := m.sock.mtu.probeSize - 1 }
      (mtuOnTimeout m.sock m.ctx.clock.millis) m.ctx.clock.millis
  notTimedOut : probeTimedOut m.sock = false →
    mtuOnTimeout m.sock m.ctx.clock.millis = { m.sock.mtu with probeSeq := 0, probeSize := 0 }
  expired : m.rtoExpired.1.sock.mtu = mtuOnTimeout m.sock m.ctx.clock.millis
    ∨ ∃ s pkt, s.mtu = mtuOnTimeout m.sock m.ctx.clock.millis
      ∧ m.rtoExpired.1.sock.mtu = mtuOnSend s m.ctx.clock.millis pkt
  sent : ∀ seq pkt, m.sock.outbuf.get seq.toNat = some pkt →
    (m.sendPacketAt seq).sock.mtu = mtuOnSend m.sock m.ctx.clock.millis pkt
  onSend : ∀ pkt,
    ((mtuOnSend m.sock m.ctx.clock.millis pkt).floor,
        (mtuOnSend m.sock m.ctx.clock.millis pkt).ceiling)
      = if m.sock.mtu.discoverTime < m.ctx.clock.millis then (mtuFloorMin, m.sock.getUdpMtu)
        else (m.sock.mtu.floor, m.sock.mtu.ceiling)

/-- Counting goes packet by packet. -/
theorem countAcked_succ (s : UtpSock) (now nowMs n : Nat) :
    s.countAcked now nowMs (n + 1)
      = (s.countAcked now nowMs n).add now nowMs (s.oldest + UInt16.ofNat n)
        (s.outbuf.get (s.oldest + UInt16.ofNat n).toNat) := by
  unfold UtpSock.countAcked
  rw [List.range_succ, List.foldl_append]
  rfl

/-- The third duplicate ack of the packet before the probe lowers the ceiling
    below it, and the code updates. -/
theorem countDuplicate_rejected {s : UtpSock} {ack : UInt16} {kind : UInt8}
    (h : Rejected s ack kind) (nowMs : Nat) :
    (s.countDuplicate nowMs ack kind).mtu
      = { s.mtu with ceiling := s.mtu.probeSize - 1 }.searchUpdate nowMs := by
  obtain ⟨hpos, hack, hkind, hthird, hprobe, hseq⟩ := h
  unfold UtpSock.countDuplicate
  rw [if_pos hpos, if_pos ⟨hack, hkind⟩]
  dsimp only
  rw [if_pos ⟨hthird, hprobe⟩, if_pos hseq]

/-- Any other datagram leaves the bounds. -/
theorem countDuplicate_notRejected {s : UtpSock} {ack : UInt16} {kind : UInt8}
    (h : ¬ Rejected s ack kind) (nowMs : Nat) :
    (s.countDuplicate nowMs ack kind).mtu = s.mtu
      ∨ (s.countDuplicate nowMs ack kind).mtu
        = { s.mtu with probeSeq := 0, probeSize := 0 } := by
  unfold UtpSock.countDuplicate
  split
  · rename_i hpos
    split
    · rename_i hdup
      dsimp only
      split
      · rename_i hthird
        split
        · rename_i hseq
          exact absurd ⟨hpos, hdup.1, hdup.2, hthird.1, hthird.2, hseq⟩ h
        · exact .inr rfl
      · exact .inl rfl
    · exact .inl rfl
  · exact .inl rfl

/-- The ack of the probe raises the floor to its size, and the code updates. -/
theorem add_delivered {c : AckCount} {seq : UInt16} {pkt : Option OutgoingPacket}
    (h : Delivered c.mtu seq pkt) (now nowMs : Nat) :
    (c.add now nowMs seq pkt).mtu = { c.mtu with floor := c.mtu.probeSize }.searchUpdate nowMs := by
  obtain ⟨⟨p, rfl, hsent⟩, hprobe⟩ := h
  unfold AckCount.add
  dsimp only
  rw [if_pos hsent]
  exact if_pos hprobe

/-- The ack of any other packet leaves the search. -/
theorem add_notDelivered {c : AckCount} {seq : UInt16} {pkt : Option OutgoingPacket}
    (h : ¬ Delivered c.mtu seq pkt) (now nowMs : Nat) : (c.add now nowMs seq pkt).mtu = c.mtu := by
  unfold AckCount.add
  split
  · rename_i p
    split
    · rename_i hsent
      exact if_neg (fun hprobe => h ⟨⟨p, rfl, hsent⟩, hprobe⟩)
    · rfl
  · rfl

/-- Marking packets lost is no verdict. -/
theorem mtu_markAllLost (n : Nat) (m : Detached) : (markAllLost n m).sock.mtu = m.sock.mtu := by
  have hone : ∀ (m : Detached) (seq : UInt16), (m.markLost seq).sock.mtu = m.sock.mtu := by
    intro m seq
    unfold markLost
    split
    · rfl
    · split <;> rfl
  induction n with
  | zero => rfl
  | succ n ih =>
      unfold markAllLost
      exact (hone _ _).trans ih

theorem clock_markAllLost (n : Nat) (m : Detached) : (markAllLost n m).ctx = m.ctx := by
  have hone : ∀ (m : Detached) (seq : UInt16), (m.markLost seq).ctx = m.ctx := by
    intro m seq
    unfold markLost
    split
    · rfl
    · split <;> rfl
  induction n with
  | zero => rfl
  | succ n ih =>
      unfold markAllLost
      exact (hone _ _).trans ih

/-- What the transmission of a packet does to the search. -/
theorem mtu_sendPacketAt {m : Detached} {seq : UInt16} {pkt : OutgoingPacket}
    (h : m.sock.outbuf.get seq.toNat = some pkt) :
    (m.sendPacketAt seq).sock.mtu = mtuOnSend m.sock m.ctx.clock.millis pkt := by
  rw [sendPacketAt_sock h]
  rfl

/-- The same where the queue may have no such packet. -/
theorem mtu_resend (m : Detached) (seq : UInt16) :
    (m.sendPacketAt seq).sock.mtu = m.sock.mtu
      ∨ ∃ pkt, (m.sendPacketAt seq).sock.mtu = mtuOnSend m.sock m.ctx.clock.millis pkt := by
  cases hp : m.sock.outbuf.get seq.toNat with
  | none =>
      left
      unfold sendPacketAt
      rw [hp]
  | some pkt => exact .inr ⟨pkt, mtu_sendPacketAt hp⟩

/-- What is left of a timeout once the search is updated sends at most one
    packet. -/
theorem mtu_retransmitAll (m : Detached) :
    m.retransmitAll.sock.mtu = m.sock.mtu
      ∨ ∃ s pkt, s.mtu = m.sock.mtu
        ∧ m.retransmitAll.sock.mtu = mtuOnSend s m.ctx.clock.millis pkt := by
  unfold retransmitAll
  dsimp only
  have hmtu := mtu_markAllLost m.sock.curWindowPackets m
  have hctx := clock_markAllLost m.sock.curWindowPackets m
  generalize markAllLost m.sock.curWindowPackets m = lost at hmtu hctx ⊢
  split
  · -- the oldest packet goes out again, if its slot is taken
    rw [← hmtu, ← hctx]
    exact (mtu_resend _ _).imp id (fun ⟨pkt, hsent⟩ => ⟨_, pkt, rfl, hsent⟩)
  · exact .inl hmtu

/-- A timeout gives its verdict first; the retransmission that follows may start
    over. -/
theorem mtu_rtoExpired (m : Detached) :
    m.rtoExpired.1.sock.mtu = mtuOnTimeout m.sock m.ctx.clock.millis
      ∨ ∃ s pkt, s.mtu = mtuOnTimeout m.sock m.ctx.clock.millis
        ∧ m.rtoExpired.1.sock.mtu = mtuOnSend s m.ctx.clock.millis pkt := by
  unfold rtoExpired
  dsimp only
  split
  · exact .inl rfl
  · split
    · exact .inl rfl
    · split
      · exact mtu_retransmitAll _
      · exact mtu_retransmitAll _

/-- A transmission starts the range over when its time has come, or leaves it.
    -/
theorem range_mtuOnSend (s : UtpSock) (now : Nat) (pkt : OutgoingPacket) :
    ((mtuOnSend s now pkt).floor, (mtuOnSend s now pkt).ceiling)
      = if s.mtu.discoverTime < now then (mtuFloorMin, s.getUdpMtu)
        else (s.mtu.floor, s.mtu.ceiling) := by
  have hreset : ((if s.mtu.discoverTime < now then s.mtu.reset s.getUdpMtu now else s.mtu).floor,
      (if s.mtu.discoverTime < now then s.mtu.reset s.getUdpMtu now else s.mtu).ceiling)
        = if s.mtu.discoverTime < now then (mtuFloorMin, s.getUdpMtu)
          else (s.mtu.floor, s.mtu.ceiling) := by
    split
    · unfold Mtu.reset
      rw [if_neg (Nat.not_lt.mpr (floor_le_udpMtu s))]
    · rfl
  unfold mtuOnSend
  dsimp only
  rw [← hreset]
  generalize (if s.mtu.discoverTime < now then s.mtu.reset s.getUdpMtu now else s.mtu) = mtu
  split <;> rfl

/-- **THE CALLS OF THE SEARCH** of a socket in range. -/
theorem searchCalls {m : Detached} (h : InRange m.sock.getUdpMtu m.sock.mtu) : SearchCalls m where
  rejected := fun ack kind hr => by
    rw [countDuplicate_rejected hr]
    exact verdict_narrows h ⟨hr.2.2.2.2.1, .inr rfl⟩ _
  notRejected := fun ack kind hr => countDuplicate_notRejected hr _
  acked := fun ack kind n => by
    have hudp := floor_le_udpMtu m.sock
    have hdup : InRange m.sock.getUdpMtu
        (m.sock.countDuplicate m.ctx.clock.millis ack kind).mtu :=
      inRange_moves hudp h (moves_countDuplicate _ _ _ _)
    generalize m.sock.countDuplicate m.ctx.clock.millis ack kind = s at hdup
    dsimp only
    rw [countAcked_succ]
    refine ⟨rfl, fun hd => ?_, fun hd => add_notDelivered hd _ _⟩
    -- the ack covers the probe: the floor rises to its size
    rw [add_delivered hd]
    exact verdict_narrows (inRange_moves hudp hdup (moves_countAcked _ _ _ _)) ⟨hd.2.1, .inl rfl⟩ _
  measured := fun buf selack acks => by
    obtain ⟨_, _, _, hshape, -⟩ := measure_shape m buf selack acks
    rw [hshape]
    rfl
  timedOut := fun ht => by
    -- a timeout while a probe is out is a verdict too
    have hprobe : m.sock.mtu.probeSeq ≠ 0 := by
      unfold probeTimedOut at ht
      simp only [Bool.and_eq_true, decide_eq_true_eq] at ht
      exact ht.2
    have hupdate : mtuOnTimeout m.sock m.ctx.clock.millis
        = { m.sock.mtu with ceiling := m.sock.mtu.probeSize - 1 }.searchUpdate
          m.ctx.clock.millis := by
      unfold mtuOnTimeout Mtu.searchUpdate
      dsimp only
      rw [if_pos ht]
      split <;> rfl
    rw [hupdate]
    exact verdict_narrows h ⟨hprobe, .inr rfl⟩ _
  notTimedOut := fun ht => by
    unfold mtuOnTimeout
    dsimp only
    rw [if_neg (by rw [ht]; exact Bool.false_ne_true)]
  expired := mtu_rtoExpired m
  sent := fun _ _ hp => mtu_sendPacketAt hp
  onSend := range_mtuOnSend m.sock _

/-- **THE SEARCH NEVER LEAVES ITS RANGE**, in any state that a socket passes
    through, also in the middle of an operation; the packet size stays in range
    with it, and every search update after a verdict narrows the range and needs
    no repair. -/
theorem mtu_search_range {ctx : Context} (h : Reachable ctx) {key : Key} {s : UtpSock}
    (hs : ctx.sockets.lookup key = some s) {occ : Occasion} {l : Bytes} {m : Detached}
    (hpath : ActPath occ l (ctx.detach key s) m) :
    m.sock.getUdpMtu = (if m.sock.key.addr.isIpv6 then 1232 else 1402)
      ∧ InRange m.sock.getUdpMtu m.sock.mtu
      ∧ (556 ≤ m.sock.getPacketSize ∧ m.sock.getPacketSize + headerSize ≤ m.sock.getUdpMtu)
      ∧ SearchCalls m := by
  have hrange := (searched_path hpath (reachable_searched h key s hs)).inRange
  exact ⟨rfl, hrange, packetSize_range hrange, searchCalls hrange⟩

/-- A packet of 720 bytes is the probe of a connection; two duplicate acks say
    that it has not arrived. -/
def probeOps : List Op :=
  [arrives (datagram stSyn 1000 1 0 []),
    arrives (setWindowSize (datagram stData 1001 2 52654 [7]) 65535),
    .write acceptedKey (List.replicate 700 1),
    arrives (setWindowSize (datagram stState 1001 3 52654 []) 65535),
    arrives (setWindowSize (datagram stState 1001 3 52654 []) 65535)]

/-- The third one lowers the ceiling from 1402 to 719. -/
theorem mtu_search_range_probing :
    ∃ ctx s, Reachable ctx ∧ ctx.sockets.lookup acceptedKey = some s
      ∧ InRange s.getUdpMtu s.mtu ∧ s.mtu.ceiling = 1402 ∧ Rejected s 52654 stState
      ∧ Narrows 1402 s.mtu { s.mtu with ceiling := 719 }
        (s.countDuplicate ctx.clock.millis 52654 stState).mtu ctx.clock.millis := by
  obtain ⟨ctx, s, hreach, hs, hudp, hceiling, hsize, hrejected⟩ :=
    detachedAfter_of 0 probeOps acceptedKey
      (Q := fun m => m.sock.getUdpMtu = 1402 ∧ m.sock.mtu.ceiling = 1402
        ∧ m.sock.mtu.probeSize = 720 ∧ Rejected m.sock 52654 stState) (by decide +kernel)
  have hstart : ActPath (anyOccasion none) [] (ctx.detach acceptedKey s)
      (ctx.detach acceptedKey s) := Steps.refl _
  obtain ⟨-, hrange, -, hcalls⟩ := mtu_search_range hreach hs hstart
  refine ⟨ctx, s, hreach, hs, hrange, hceiling, hrejected, ?_⟩
  have hnarrows := hcalls.rejected 52654 stState hrejected
  rw [hudp, hsize] at hnarrows
  exact hnarrows

end UtpMtuSearch
