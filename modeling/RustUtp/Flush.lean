import RustUtp.SendQueue
import RustUtp.MtuSearch
import RustUtp.Acts.Boundary

/-! # Flushing — what the quota lets through

    `flush_packets` walks the send queue from its oldest packet and transmits
    what waits, as long as one more packet of the current size fits in the
    window.  A packet keeps the payload it was filled with, while the packet
    size shrinks when an MTU probe is lost: a waiting packet may be larger than
    the room that was checked.  `Roomy` says that none is, and is exactly the
    condition under which the flush stays within the window. -/

namespace UtpFlush

open UtpCircular UtpPacket UtpUtil UtpConnShared UtpEngine UtpEngine.Detached UtpActs
open UtpSendQueue UtpMtuSearch LabelledPath

/-! ## The transmissions of a flush -/

/-- The Nagle check: the last packet is held back while it is small and others
    are in flight. -/
def Unheld (packetSize : Nat) (s : UtpSock) (i : UInt16) (payload : Nat) : Prop :=
  i ≠ s.seqNr - 1 ∨ s.curWindowPackets = 1 ∨ payload ≥ packetSize

instance (packetSize : Nat) (s : UtpSock) (i : UInt16) (payload : Nat) :
    Decidable (Unheld packetSize s i payload) :=
  inferInstanceAs (Decidable (_ ∨ _))

/-- The packets the loop of `flush_packets` transmits, each with the socket it
    leaves. -/
def flushTrace (packetSize : Nat) : Nat → UInt16 → Detached → List (UInt16 × UtpSock)
  | 0, _, _ => []
  | n + 1, i, m =>
      match sendable m.sock i with
      | none => flushTrace packetSize n (i + 1) m
      | some payload =>
          if (m.isFull none).2 then []
          else if Unheld packetSize m.sock i payload then
            (i, (m.sendPacketAt i).sock) :: flushTrace packetSize n (i + 1) (m.sendPacketAt i)
          else flushTrace packetSize n (i + 1) m

/-- The trace of a whole flush. -/
def flushed (m : Detached) : List (UInt16 × UtpSock) :=
  flushTrace m.sock.getPacketSize m.sock.curWindowPackets m.sock.oldest m

/-- The payloads of the packets that wait to be (re)sent, oldest first. -/
def waitingFrom (packetSize : Nat) (s : UtpSock) : Nat → UInt16 → List Nat
  | 0, _ => []
  | n + 1, i =>
      match sendable s i with
      | none => waitingFrom packetSize s n (i + 1)
      | some payload =>
          if Unheld packetSize s i payload then payload :: waitingFrom packetSize s n (i + 1)
          else waitingFrom packetSize s n (i + 1)

def waiting (s : UtpSock) : List Nat :=
  waitingFrom s.getPacketSize s s.curWindowPackets s.oldest

/-- One round of the loop at number `i`. -/
inductive Round (packetSize n : Nat) (i : UInt16) (m : Detached) : Prop where
  | skip (hnone : sendable m.sock i = none)
      (hloop : flushLoop packetSize (n + 1) i m = flushLoop packetSize n (i + 1) m)
      (htrace : flushTrace packetSize (n + 1) i m = flushTrace packetSize n (i + 1) m)
  | stop (payload : Nat) (hsome : sendable m.sock i = some payload)
      (hfull : m.sock.fullFor none = true)
      (hloop : flushLoop packetSize (n + 1) i m = ((m.isFull none).1, true))
      (htrace : flushTrace packetSize (n + 1) i m = [])
  | send (payload : Nat) (hsome : sendable m.sock i = some payload)
      (hfree : m.sock.fullFor none = false) (hsend : Unheld packetSize m.sock i payload)
      (hloop : flushLoop packetSize (n + 1) i m
        = flushLoop packetSize n (i + 1) (m.sendPacketAt i))
      (htrace : flushTrace packetSize (n + 1) i m
        = (i, (m.sendPacketAt i).sock) :: flushTrace packetSize n (i + 1) (m.sendPacketAt i))
  | hold (payload : Nat) (hsome : sendable m.sock i = some payload)
      (hfree : m.sock.fullFor none = false) (hheld : ¬ Unheld packetSize m.sock i payload)
      (hloop : flushLoop packetSize (n + 1) i m = flushLoop packetSize n (i + 1) m)
      (htrace : flushTrace packetSize (n + 1) i m = flushTrace packetSize n (i + 1) m)

/-- The flag that `is_full` returns is the pure predicate. -/
theorem isFull_snd (m : Detached) (bytes : Option Nat) :
    (m.isFull bytes).2 = m.sock.fullFor bytes := by
  unfold isFull
  cases m.sock.fullFor bytes <;> rfl

/-- One round of the loop, case by case. -/
theorem round (packetSize n : Nat) (i : UInt16) (m : Detached) : Round packetSize n i m := by
  cases hs : sendable m.sock i with
  -- nothing to send under this number
  | none => exact .skip hs (by rw [flushLoop, hs]) (by rw [flushTrace, hs])
  | some payload =>
      cases hfull : m.sock.fullFor none with
      | true =>
          -- the window is full and the loop ends
          have hflag : (m.isFull none).2 = true := (isFull_snd m none).trans hfull
          exact .stop payload hs hfull (by rw [flushLoop, hs]; exact if_pos hflag)
            (by rw [flushTrace, hs]; exact if_pos hflag)
      | false =>
          have hflag : ¬ (m.isFull none).2 = true := by
            rw [isFull_snd, hfull]
            exact Bool.false_ne_true
          -- sent, or held back by Nagle
          by_cases hsend : Unheld packetSize m.sock i payload
          · refine .send payload hs hfull hsend ?_ ?_
            · rw [flushLoop, hs]
              exact (if_neg hflag).trans (if_pos hsend)
            · rw [flushTrace, hs]
              exact (if_neg hflag).trans (if_pos hsend)
          · refine .hold payload hs hfull hsend ?_ ?_
            · rw [flushLoop, hs]
              exact (if_neg hflag).trans (if_neg hsend)
            · rw [flushTrace, hs]
              exact (if_neg hflag).trans (if_neg hsend)

/-- The trace is what the flush does: the packets are sent one after the other,
    and the end notes whether the quota ran out. -/
theorem flushTrace_sends (packetSize : Nat) :
    ∀ (n : Nat) (i : UInt16) (m : Detached),
      (flushLoop packetSize n i m).1
        = (if (flushLoop packetSize n i m).2 then fun m : Detached => (m.isFull none).1 else id)
          ((flushTrace packetSize n i m).foldl (fun m e => m.sendPacketAt e.1) m) := by
  intro n
  induction n with
  | zero => intro i m; rfl
  | succ n ih =>
      intro i m
      rcases round packetSize n i m with
        ⟨-, hloop, htrace⟩ | ⟨_, -, -, hloop, htrace⟩ | ⟨_, -, -, -, hloop, htrace⟩
          | ⟨_, -, -, -, hloop, htrace⟩
      · rw [hloop, htrace]
        exact ih (i + 1) m
      · rw [hloop, htrace]
        rfl
      · rw [hloop, htrace, List.foldl_cons]
        exact ih (i + 1) _
      · rw [hloop, htrace]
        exact ih (i + 1) m

/-- Each entry of the trace holds the socket that the transmissions up to it
    leave. -/
theorem flushTrace_leaves (packetSize : Nat) :
    ∀ (n : Nat) (i : UInt16) (m : Detached) (before : List (UInt16 × UtpSock))
      (e : UInt16 × UtpSock) (after : List (UInt16 × UtpSock)),
      flushTrace packetSize n i m = before ++ e :: after →
      e.2 = ((before ++ [e]).foldl (fun m e => m.sendPacketAt e.1) m).sock := by
  intro n
  induction n with
  | zero =>
      intro i m before e after h
      exact absurd h.symm (List.append_ne_nil_of_right_ne_nil before (List.cons_ne_nil e after))
  | succ n ih =>
      intro i m before e after h
      rcases round packetSize n i m with
        ⟨-, -, htrace⟩ | ⟨_, -, -, -, htrace⟩ | ⟨_, -, -, -, -, htrace⟩ | ⟨_, -, -, -, -, htrace⟩
      · exact ih (i + 1) m before e after (htrace ▸ h)
      · rw [htrace] at h
        exact absurd h.symm (List.append_ne_nil_of_right_ne_nil before (List.cons_ne_nil e after))
      · rw [htrace] at h
        -- the round's own entry, or one of the rest of the loop
        cases before with
        | nil =>
            obtain ⟨rfl, -⟩ := List.cons.inj h
            rfl
        | cons b before =>
            obtain ⟨rfl, hrest⟩ := List.cons.inj h
            exact ih (i + 1) _ before e after hrest
      · exact ih (i + 1) m before e after (htrace ▸ h)

/-- The flush respects the window.  It is a sequence of transmissions, after
    which it notes whether the quota has run out; no transmission exceeds the
    window, the packets go out in the order of the queue, each of them was
    waiting, and the flush reports to have run out of window exactly if it has
    left a waiting packet that does not fit. -/
structure FlushOk (m : Detached) : Prop where
  sends : m.flushPackets.1
    = (if m.flushPackets.2 then fun m : Detached => (m.isFull none).1 else id)
      ((flushed m).foldl (fun m e => m.sendPacketAt e.1) m)
  leaves : ∀ before e after, flushed m = before ++ e :: after →
    e.2 = ((before ++ [e]).foldl (fun m e => m.sendPacketAt e.1) m).sock
  window : ∀ e ∈ flushed m, e.2.curWindow ≤ e.2.cwnd.maxSend
  order : (flushed m).Pairwise
    (fun a b => (a.1 - m.sock.oldest).toNat < (b.1 - m.sock.oldest).toNat)
  waited : ∀ e ∈ flushed m, InWindow m.sock e.1 ∧ (sendable m.sock e.1).isSome = true
  stopped : m.flushPackets.2 = true ↔
    m.flushPackets.1.sock.fullFor none = true
      ∧ ∃ i, InWindow m.sock i ∧ (sendable m.flushPackets.1.sock i).isSome = true

/-- No waiting packet finds room for one of the current packet size in the
    window, but not for itself. -/
def Roomy (s : UtpSock) : Prop :=
  s.curWindowPackets < outgoingBufferMaxSize - 1 →
    ∀ before payload after, waiting s = before ++ payload :: after →
      s.curWindow + before.sum + s.getPacketSize ≤ s.cwnd.maxSend →
      s.curWindow + before.sum + payload ≤ s.cwnd.maxSend

/-! ## One transmission -/

/-- What a transmission keeps of a socket. -/
structure Steady (s s' : UtpSock) : Prop where
  seqNr : s'.seqNr = s.seqNr
  cwp : s'.curWindowPackets = s.curWindowPackets
  cwnd : s'.cwnd = s.cwnd
  last : s'.mtu.last = s.mtu.last
  size : s'.outbuf.size = s.outbuf.size

/-- A transmission leaves the packet size. -/
theorem last_mtuOnSend (s : UtpSock) (now : Nat) (pkt : OutgoingPacket) :
    (mtuOnSend s now pkt).last = s.mtu.last := by
  have hreset : (if s.mtu.discoverTime < now then s.mtu.reset s.getUdpMtu now else s.mtu).last
      = s.mtu.last := by
    unfold Mtu.reset
    split
    · split <;> rfl
    · rfl
  unfold mtuOnSend
  dsimp only
  generalize (if s.mtu.discoverTime < now then s.mtu.reset s.getUdpMtu now else s.mtu) = mtu
    at hreset ⊢
  split
  · exact hreset
  · exact hreset

/-- A transmission leaves what the flush compares with. -/
theorem steady_sendPacketAt (m : Detached) (seq : UInt16) :
    Steady m.sock (m.sendPacketAt seq).sock := by
  cases hp : m.sock.outbuf.get seq.toNat with
  | none =>
      unfold sendPacketAt
      rw [hp]
      exact ⟨rfl, rfl, rfl, rfl, rfl⟩
  | some pkt =>
      rw [sendPacketAt_sock hp]
      exact ⟨rfl, rfl, rfl, last_mtuOnSend _ _ _, CircularBuffer.size_put _ _ _⟩

/-- Once the search has begun, the packet size is that of its last update. -/
theorem packetSize_of_last {s s' : UtpSock} (h : s'.mtu.last = s.mtu.last)
    (hlast : s.mtu.last ≠ 0) : s'.getPacketSize = s.getPacketSize := by
  unfold UtpSock.getPacketSize
  rw [h, if_pos hlast, if_pos hlast]

/-- A transmission of a waiting packet counts its payload. -/
theorem curWindow_sendPacketAt {m : Detached} {i : UInt16} {payload : Nat}
    (h : sendable m.sock i = some payload) :
    (m.sendPacketAt i).sock.curWindow = m.sock.curWindow + payload
      ∧ sendable (m.sendPacketAt i).sock i = none := by
  unfold sendable at h
  split at h
  · exact nomatch h
  · rename_i p hp
    split at h
    · rename_i hwaits
      obtain rfl := Option.some.inj h
      have hv := txView_sendPacketAt hp
      refine ⟨(congrArg TxView.curWindow hv).trans (if_pos hwaits), ?_⟩
      unfold sendable
      have hout : (m.sendPacketAt i).sock.outbuf
          = m.sock.outbuf.put i.toNat (some (m.sentPacket p)) := congrArg TxView.outbuf hv
      rw [hout, CircularBuffer.get_put_self]
      exact if_neg (fun h0 => h0.elim (fun h0 => nomatch h0) (fun h0 => nomatch h0))
    · exact nomatch h

/-- Two different numbers of a window lie in different slots. -/
theorem slots_ne (b : CircularBuffer OutgoingPacket) (hb : b.size ≤ 2048) {j k : Nat}
    (hlt : j < k) (hnear : k < j + b.size) :
    (UInt16.ofNat j).toNat % b.size ≠ (UInt16.ofNat k).toNat % b.size := by
  rw [wrap_mod_size b hb, wrap_mod_size b hb]
  have hne := CircularBuffer.mod_ne_of_lt (N := b.size) (i := 0) (j := k - j) j b.size_pos (by omega) (by omega)
  rw [Nat.add_zero, show j + (k - j) = k by omega] at hne
  exact hne

/-- A transmission leaves the other slots alone. -/
theorem sendable_other {m : Detached} {j k : Nat}
    (h : (UInt16.ofNat j).toNat % m.sock.outbuf.size
      ≠ (UInt16.ofNat k).toNat % m.sock.outbuf.size) :
    sendable (m.sendPacketAt (UInt16.ofNat j)).sock (UInt16.ofNat k)
      = sendable m.sock (UInt16.ofNat k) := by
  cases hp : m.sock.outbuf.get (UInt16.ofNat j).toNat with
  | none => unfold sendPacketAt; rw [hp]
  | some p =>
      have hout := congrArg TxView.outbuf (txView_sendPacketAt hp)
      unfold sendable
      rw [show (m.sendPacketAt (UInt16.ofNat j)).sock.outbuf
        = m.sock.outbuf.put (UInt16.ofNat j).toNat (some (m.sentPacket p)) from hout,
        CircularBuffer.get_put_of_ne _ _ h]

/-! ## The window -/

/-- The quota, applied to a list of payloads. -/
def Fits (inFlight size limit : Nat) (payloads : List Nat) : Prop :=
  ∀ before payload after, payloads = before ++ payload :: after →
    inFlight + before.sum + size ≤ limit → inFlight + before.sum + payload ≤ limit

/-- Nothing waits, nothing overshoots. -/
theorem fits_nil (inFlight size limit : Nat) : Fits inFlight size limit [] := by
  intro before payload after h
  exact absurd h.symm (List.append_ne_nil_of_right_ne_nil before (List.cons_ne_nil payload after))

/-- Nothing is let through a full window. -/
theorem fits_full {inFlight size limit : Nat} (h : limit < inFlight + size) (payloads : List Nat) :
    Fits inFlight size limit payloads := by
  intro before payload after _ hroom
  omega

/-- A packet that finds room for a whole one has to have it for its own payload.
    -/
theorem fits_cons {inFlight size limit : Nat} (h : inFlight + size ≤ limit) (payload : Nat)
    (rest : List Nat) :
    Fits inFlight size limit (payload :: rest)
      ↔ inFlight + payload ≤ limit ∧ Fits (inFlight + payload) size limit rest := by
  constructor
  · intro hfits
    refine ⟨hfits [] payload rest rfl h, fun before p after hrest hroom => ?_⟩
    have hall := hfits (payload :: before) p after (by rw [hrest, List.cons_append])
    rw [List.sum_cons, ← Nat.add_assoc] at hall
    exact hall hroom
  · rintro ⟨hfirst, hrest⟩ before p after heq hroom
    cases before with
    | nil =>
        obtain ⟨rfl, -⟩ := List.cons.inj heq
        exact hfirst
    | cons q before =>
        obtain ⟨rfl, htail⟩ := List.cons.inj heq
        rw [List.sum_cons, ← Nat.add_assoc] at hroom ⊢
        exact hrest before p after htail hroom

/-- With places left in the queue only the bytes decide. -/
theorem fullFor_iff {s : UtpSock} (h : s.curWindowPackets < outgoingBufferMaxSize - 1) :
    s.fullFor none = true ↔ s.cwnd.maxSend < s.curWindow + s.getPacketSize := by
  unfold UtpSock.fullFor
  rw [Bool.or_eq_true, decide_eq_true_iff, decide_eq_true_iff]
  constructor
  · rintro (hcwp | hbytes)
    · exact absurd hcwp (by omega)
    · exact hbytes
  · exact Or.inr

/-- What is waiting further on is not changed by a transmission. -/
theorem waitingFrom_send {m : Detached} (hb : m.sock.outbuf.size ≤ 2048) (packetSize : Nat)
    {j : Nat} :
    ∀ (n k : Nat), j < k → k + n ≤ j + m.sock.outbuf.size →
      waitingFrom packetSize (m.sendPacketAt (UInt16.ofNat j)).sock n (UInt16.ofNat k)
        = waitingFrom packetSize m.sock n (UInt16.ofNat k) := by
  intro n
  induction n with
  | zero => intro k _ _; rfl
  | succ n ih =>
      intro k hlt hnear
      -- sending one packet neither holds nor frees another
      have hsame := steady_sendPacketAt m (UInt16.ofNat j)
      have hunheld : ∀ payload, Unheld packetSize (m.sendPacketAt (UInt16.ofNat j)).sock
          (UInt16.ofNat k) payload = Unheld packetSize m.sock (UInt16.ofNat k) payload := by
        intro payload
        unfold Unheld
        rw [hsame.seqNr, hsame.cwp]
      -- the later numbers lie within the ring, so their slots are others
      have hrest := ih (k + 1) (by omega) (by omega)
      rw [← SeqNum.ofNat_add_one] at hrest
      rw [waitingFrom, waitingFrom, sendable_other (slots_ne _ hb hlt (by omega)), hrest]
      cases sendable m.sock (UInt16.ofNat k) with
      | none => rfl
      | some payload =>
          show (if Unheld packetSize (m.sendPacketAt (UInt16.ofNat j)).sock (UInt16.ofNat k) payload
            then _ else _) = _
          simp only [hunheld payload]

/-- **THE FLUSH STAYS WITHIN THE WINDOW** exactly if what is waiting fits. -/
theorem flushTrace_window (packetSize : Nat) :
    ∀ (n j : Nat) (m : Detached), m.sock.outbuf.size ≤ 2048 → n ≤ m.sock.outbuf.size →
      m.sock.mtu.last ≠ 0 → m.sock.curWindowPackets < outgoingBufferMaxSize - 1 →
      ((∀ e ∈ flushTrace packetSize n (UInt16.ofNat j) m, e.2.curWindow ≤ e.2.cwnd.maxSend)
        ↔ Fits m.sock.curWindow m.sock.getPacketSize m.sock.cwnd.maxSend
          (waitingFrom packetSize m.sock n (UInt16.ofNat j))) := by
  intro n
  induction n with
  | zero =>
      intro j m _ _ _ _
      exact ⟨fun _ => fits_nil _ _ _, fun _ e he => nomatch he⟩
  | succ n ih =>
      intro j m hb hn hlast hcwp
      have hnext : UInt16.ofNat j + 1 = UInt16.ofNat (j + 1) := SeqNum.ofNat_add_one j
      rcases round packetSize n (UInt16.ofNat j) m with
        ⟨hnone, -, htrace⟩ | ⟨payload, hsome, hfull, -, htrace⟩
          | ⟨payload, hsome, hfree, hsend, -, htrace⟩ | ⟨payload, hsome, hfree, hheld, -, htrace⟩
      · -- nothing here, so the next number decides
        rw [htrace, waitingFrom, hnone, hnext]
        exact ih (j + 1) m hb (by omega) hlast hcwp
      · -- stopped: nothing more is sent, and the rest does not fit
        rw [htrace]
        exact ⟨fun _ => fits_full ((fullFor_iff hcwp).mp hfull) _, fun _ e he => nomatch he⟩
      · have hsteady := steady_sendPacketAt m (UInt16.ofNat j)
        obtain ⟨hbytes, -⟩ := curWindow_sendPacketAt hsome
        -- not full, so one more packet of full size fits
        have hroom : m.sock.curWindow + m.sock.getPacketSize ≤ m.sock.cwnd.maxSend := by
          have hnot := mt (fullFor_iff hcwp).mpr (by rw [hfree]; exact Bool.false_ne_true)
          omega
        have hwait : waitingFrom packetSize m.sock (n + 1) (UInt16.ofNat j)
            = payload :: waitingFrom packetSize (m.sendPacketAt (UInt16.ofNat j)).sock n
              (UInt16.ofNat (j + 1)) := by
          rw [waitingFrom_send hb packetSize n (j + 1) (Nat.lt_succ_self j) (by omega), waitingFrom,
            hsome, hnext]
          exact if_pos hsend
        have hrest := ih (j + 1) (m.sendPacketAt (UInt16.ofNat j)) (by rw [hsteady.size]; exact hb)
          (by rw [hsteady.size]; omega) (by rw [hsteady.last]; exact hlast)
          (by rw [hsteady.cwp]; exact hcwp)
        rw [htrace, hnext, hwait, fits_cons hroom, List.forall_mem_cons, hrest, hbytes, hsteady.cwnd,
          packetSize_of_last hsteady.last hlast]
      · -- held back: it takes no room
        rw [htrace, waitingFrom, hsome, hnext]
        dsimp only
        rw [if_neg hheld]
        exact ih (j + 1) m hb (by omega) hlast hcwp

/-! ## The order and the end -/

/-- A flush of numbers from `j` on leaves the slots before it alone. -/
theorem sendable_flushLoop (packetSize : Nat) {k : Nat} :
    ∀ (n j : Nat) (m : Detached), m.sock.outbuf.size ≤ 2048 → k < j →
      j + n ≤ k + m.sock.outbuf.size →
      sendable (flushLoop packetSize n (UInt16.ofNat j) m).1.sock (UInt16.ofNat k)
        = sendable m.sock (UInt16.ofNat k) := by
  intro n
  induction n with
  | zero => intro j m _ _ _; rfl
  | succ n ih =>
      intro j m hb hlt hnear
      have hnext : UInt16.ofNat j + 1 = UInt16.ofNat (j + 1) := SeqNum.ofNat_add_one j
      rcases round packetSize n (UInt16.ofNat j) m with
        ⟨-, hloop, -⟩ | ⟨_, -, -, hloop, -⟩ | ⟨_, -, -, -, hloop, -⟩ | ⟨_, -, -, -, hloop, -⟩
      · rw [hloop, hnext]
        exact ih (j + 1) m hb (by omega) (by omega)
      · -- the loop ended, and asking whether it is full sends nothing
        rw [hloop]
        unfold isFull
        split <;> rfl
      · -- a later packet was sent, its slot is another
        have hsize := (steady_sendPacketAt m (UInt16.ofNat j)).size
        rw [hloop, hnext, ih (j + 1) _ (by rw [hsize]; exact hb) (by omega) (by rw [hsize]; omega)]
        exact sendable_other (Ne.symm (slots_ne _ hb hlt (by omega)))
      · rw [hloop, hnext]
        exact ih (j + 1) m hb (by omega) (by omega)

/-- The numbers of the trace, each waiting before the flush. -/
theorem flushTrace_waited (packetSize : Nat) :
    ∀ (n j : Nat) (m : Detached), m.sock.outbuf.size ≤ 2048 → n ≤ m.sock.outbuf.size →
      ∀ e ∈ flushTrace packetSize n (UInt16.ofNat j) m,
        ∃ k, j ≤ k ∧ k < j + n ∧ e.1 = UInt16.ofNat k ∧ (sendable m.sock e.1).isSome = true := by
  intro n
  induction n with
  | zero => intro j m _ _ e he; exact nomatch he
  | succ n ih =>
      intro j m hb hn e he
      have hnext : UInt16.ofNat j + 1 = UInt16.ofNat (j + 1) := SeqNum.ofNat_add_one j
      rcases round packetSize n (UInt16.ofNat j) m with
        ⟨-, -, htrace⟩ | ⟨_, -, -, -, htrace⟩ | ⟨payload, hsome, -, -, -, htrace⟩
          | ⟨_, -, -, -, -, htrace⟩
      · rw [htrace, hnext] at he
        obtain ⟨k, hle, hlt, hk⟩ := ih (j + 1) m hb (by omega) e he
        exact ⟨k, by omega, by omega, hk⟩
      · rw [htrace] at he
        exact nomatch he
      · rw [htrace, hnext] at he
        rcases List.mem_cons.mp he with rfl | he
        · -- the packet sent now
          exact ⟨j, Nat.le_refl j, by omega, rfl, by rw [hsome]; rfl⟩
        · -- one sent later, which waited already then
          have hsize := (steady_sendPacketAt m (UInt16.ofNat j)).size
          obtain ⟨k, hle, hlt, hk, hwait⟩ := ih (j + 1) (m.sendPacketAt (UInt16.ofNat j))
            (by rw [hsize]; exact hb) (by rw [hsize]; omega) e he
          rw [hk, sendable_other (slots_ne _ hb (by omega) (by omega)), ← hk] at hwait
          exact ⟨k, by omega, by omega, hk, hwait⟩
      · rw [htrace, hnext] at he
        obtain ⟨k, hle, hlt, hk⟩ := ih (j + 1) m hb (by omega) e he
        exact ⟨k, by omega, by omega, hk⟩

/-- The transmissions come in increasing order, counted from the oldest number.
    -/
theorem flushTrace_ordered (packetSize : Nat) {lo : Nat} :
    ∀ (n j : Nat) (m : Detached), m.sock.outbuf.size ≤ 2048 → n ≤ m.sock.outbuf.size →
      lo ≤ j → j + n < lo + 2 ^ 16 →
      (flushTrace packetSize n (UInt16.ofNat j) m).Pairwise
        (fun a b => (a.1 - UInt16.ofNat lo).toNat < (b.1 - UInt16.ofNat lo).toNat) := by
  intro n
  induction n with
  | zero => intro j m _ _ _ _; exact List.Pairwise.nil
  | succ n ih =>
      intro j m hb hn hlo hnear
      have hnext : UInt16.ofNat j + 1 = UInt16.ofNat (j + 1) := SeqNum.ofNat_add_one j
      rcases round packetSize n (UInt16.ofNat j) m with
        ⟨-, -, htrace⟩ | ⟨_, -, -, -, htrace⟩ | ⟨payload, hsome, -, -, -, htrace⟩
          | ⟨_, -, -, -, -, htrace⟩
      · rw [htrace, hnext]
        exact ih (j + 1) m hb (by omega) (by omega) (by omega)
      · rw [htrace]
        exact List.Pairwise.nil
      · have hsize := (steady_sendPacketAt m (UInt16.ofNat j)).size
        rw [htrace, hnext]
        refine List.Pairwise.cons (fun e he => ?_) (ih (j + 1) _ (by rw [hsize]; exact hb)
          (by rw [hsize]; omega) (by omega) (by omega))
        -- everything sent later has a higher number
        obtain ⟨k, hle, hlt, hk, -⟩ := flushTrace_waited packetSize n (j + 1) _
          (by rw [hsize]; exact hb) (by rw [hsize]; omega) e he
        rw [hk, SeqNum.toNat_ofNat_sub hlo, SeqNum.toNat_ofNat_sub (by omega)]
        omega
      · rw [htrace, hnext]
        exact ih (j + 1) m hb (by omega) (by omega) (by omega)

/-- A number that is not waiting in the end does not count. -/
theorem waiting_after {s : UtpSock} {j n : Nat} (h : sendable s (UInt16.ofNat j) = none) :
    (∃ k, j ≤ k ∧ k < j + (n + 1) ∧ (sendable s (UInt16.ofNat k)).isSome = true)
      ↔ ∃ k, j + 1 ≤ k ∧ k < j + 1 + n ∧ (sendable s (UInt16.ofNat k)).isSome = true := by
  constructor
  · rintro ⟨k, hle, hlt, hk⟩
    refine ⟨k, ?_, by omega, hk⟩
    rcases Nat.eq_or_lt_of_le hle with rfl | hlt'
    · rw [h] at hk
      exact nomatch hk
    · exact hlt'
  · rintro ⟨k, hle, hlt, hk⟩
    exact ⟨k, by omega, by omega, hk⟩

/-- The flag tells that a waiting packet was left because the window is full. -/
theorem flushLoop_stopped (packetSize : Nat) :
    ∀ (n j : Nat) (m : Detached), m.sock.outbuf.size ≤ 2048 → n ≤ m.sock.outbuf.size →
      m.sock.seqNr = UInt16.ofNat (j + n) →
      ((flushLoop packetSize n (UInt16.ofNat j) m).2 = true
        ↔ (flushLoop packetSize n (UInt16.ofNat j) m).1.sock.fullFor none = true
          ∧ ∃ k, j ≤ k ∧ k < j + n
            ∧ (sendable (flushLoop packetSize n (UInt16.ofNat j) m).1.sock
              (UInt16.ofNat k)).isSome = true) := by
  intro n
  induction n with
  | zero =>
      intro j m _ _ _
      exact ⟨fun h => (nomatch h), fun ⟨_, k, _, _, _⟩ => by omega⟩
  | succ n ih =>
      intro j m hb hn hseq
      have hnext : UInt16.ofNat j + 1 = UInt16.ofNat (j + 1) := SeqNum.ofNat_add_one j
      rcases round packetSize n (UInt16.ofNat j) m with
        ⟨hnone, hloop, -⟩ | ⟨payload, hsome, hfull, hloop, -⟩ | ⟨payload, hsome, -, -, hloop, -⟩
          | ⟨payload, hsome, hfree, hheld, hloop, -⟩
      · have hleft := sendable_flushLoop packetSize n (j + 1) m hb (Nat.lt_succ_self j) (by omega)
        rw [hloop, hnext, waiting_after (hleft.trans hnone)]
        exact ih (j + 1) m hb (by omega) (by rw [hseq]; congr 1; omega)
      · rw [hloop]
        refine ⟨fun _ => ⟨?_, j, Nat.le_refl j, by omega, ?_⟩, fun _ => rfl⟩
        · unfold isFull
          rw [if_pos hfull]
          exact hfull
        · unfold isFull
          rw [if_pos hfull]
          show (sendable m.sock (UInt16.ofNat j)).isSome = true
          rw [hsome]
          rfl
      · have hsteady := steady_sendPacketAt m (UInt16.ofNat j)
        have hsent := (curWindow_sendPacketAt hsome).2
        have hleft := sendable_flushLoop packetSize n (j + 1) (m.sendPacketAt (UInt16.ofNat j))
          (by rw [hsteady.size]; exact hb) (Nat.lt_succ_self j) (by rw [hsteady.size]; omega)
        rw [hloop, hnext, waiting_after (hleft.trans hsent)]
        exact ih (j + 1) _ (by rw [hsteady.size]; exact hb) (by rw [hsteady.size]; omega)
          (by rw [hsteady.seqNr, hseq]; congr 1; omega)
      · -- only the last packet of the queue is held back
        have hlast : n = 0 := by
          unfold Unheld at hheld
          rw [not_or, not_not] at hheld
          have heq := hheld.1
          rw [hseq, SeqNum.ofNat_sub_one (by omega)] at heq
          have := SeqNum.eq_of_ofNat_eq heq (by omega) (by omega)
          omega
        subst hlast
        have hend : flushLoop packetSize 0 (UInt16.ofNat j + 1) m = (m, false) := rfl
        rw [hloop, hend]
        refine ⟨fun h => (nomatch h), fun h => ?_⟩
        have hfull : m.sock.fullFor none = true := h.1
        rw [hfree] at hfull
        exact hfull

/-! ## The result -/

/-- The flush starts at the oldest packet. -/
theorem flushPackets_eq {ok : Nat → OutgoingPacket → Prop} {m : Detached} {lo : Nat}
    {f : Nat → Option OutgoingPacket} (h : Queue ok m.sock lo f) :
    m.flushPackets
      = flushLoop m.sock.getPacketSize m.sock.curWindowPackets (UInt16.ofNat lo) m := by
  have hcwp := h.cwp_le
  have hcount : (m.sock.seqNr - m.sock.oldest).toNat = m.sock.curWindowPackets := by
    rw [h.oldest_eq, h.seq, SeqNum.toNat_ofNat_sub (by omega)]
    omega
  show flushLoop m.sock.getPacketSize (m.sock.seqNr - m.sock.oldest).toNat m.sock.oldest m = _
  rw [hcount, h.oldest_eq]

/-- The flush of a socket that represents a queue. -/
theorem flushOk_iff {ok : Nat → OutgoingPacket → Prop} {m : Detached} {lo : Nat}
    {f : Nat → Option OutgoingPacket} (h : Queue ok m.sock lo f) (hlast : m.sock.mtu.last ≠ 0) :
    FlushOk m ↔ Roomy m.sock := by
  have hcwp := h.cwp_le
  have hflushed : flushed m
      = flushTrace m.sock.getPacketSize m.sock.curWindowPackets (UInt16.ofNat lo) m := by
    unfold flushed
    rw [h.oldest_eq]
  have hin : ∀ {k}, lo ≤ k → k < lo + m.sock.curWindowPackets →
      InWindow m.sock (UInt16.ofNat k) := by
    intro k hle hlt
    unfold InWindow
    rw [h.oldest_eq, SeqNum.toNat_ofNat_sub hle]
    omega
  have hwindow : (∀ e ∈ flushed m, e.2.curWindow ≤ e.2.cwnd.maxSend) ↔ Roomy m.sock := by
    unfold Roomy waiting
    rw [h.oldest_eq, hflushed]
    by_cases hplace : m.sock.curWindowPackets < outgoingBufferMaxSize - 1
    · rw [flushTrace_window _ _ lo m h.small h.fits hlast hplace]
      exact ⟨fun hfits _ => hfits, fun hfits => hfits hplace⟩
    · refine ⟨fun _ hp => absurd hp hplace, fun _ e he => ?_⟩
      -- a queue without places lets nothing through
      have hfull : m.sock.fullFor none = true := by
        unfold UtpSock.fullFor
        rw [Bool.or_eq_true, decide_eq_true_iff]
        exact .inl (by omega)
      have hnone : ∀ n i, flushTrace m.sock.getPacketSize n i m = [] := by
        intro n
        induction n with
        | zero => intro i; rfl
        | succ n ih =>
            intro i
            rcases round m.sock.getPacketSize n i m with
              ⟨-, -, htrace⟩ | ⟨_, -, -, -, htrace⟩ | ⟨_, -, hfree, -⟩ | ⟨_, -, hfree, -⟩
            · rw [htrace]
              exact ih (i + 1)
            · exact htrace
            · exact absurd (hfree.symm.trans hfull) Bool.false_ne_true
            · exact absurd (hfree.symm.trans hfull) Bool.false_ne_true
      rw [hnone] at he
      exact nomatch he
  refine ⟨fun hok => hwindow.mp hok.window,
    fun hroom => ⟨?_, flushTrace_leaves _ _ _ m, hwindow.mpr hroom, ?_, ?_, ?_⟩⟩
  · rw [flushPackets_eq h, hflushed]
    exact flushTrace_sends _ _ _ m
  · rw [hflushed, h.oldest_eq]
    exact flushTrace_ordered _ _ lo m h.small h.fits (Nat.le_refl lo) (by omega)
  · rw [hflushed]
    intro e he
    obtain ⟨k, hle, hlt, hk, hwait⟩ := flushTrace_waited _ _ lo m h.small h.fits e he
    refine ⟨?_, hwait⟩
    rw [hk]
    exact hin hle hlt
  · have hstop := flushLoop_stopped m.sock.getPacketSize m.sock.curWindowPackets lo m h.small h.fits
      h.seq
    rw [flushPackets_eq h, hstop]
    refine and_congr_right (fun _ => ⟨?_, ?_⟩)
    · rintro ⟨k, hle, hlt, hk⟩
      exact ⟨UInt16.ofNat k, hin hle hlt, hk⟩
    · rintro ⟨i, hi, hwait⟩
      unfold InWindow at hi
      refine ⟨lo + (i - m.sock.oldest).toNat, Nat.le_add_right _ _, by omega, ?_⟩
      have hi' : UInt16.ofNat (lo + (i - m.sock.oldest).toNat) = i := by
        rw [UInt16.ofNat_add, UInt16.ofNat_toNat, h.oldest_eq]
        grind
      rw [hi']
      exact hwait

/-- **A FLUSH RESPECTS THE WINDOW** if and only if no waiting packet is larger
    than what the window has left for a packet of the current size.  This holds
    in every state a socket can be in, also in the middle of an operation. -/
theorem flush_respects_iff {ctx : Context} (hreach : Reachable ctx) {key : Key} {s : UtpSock}
    (hs : ctx.sockets.lookup key = some s) {occ : Occasion} {l : Bytes} {m : Detached}
    (hpath : ActPath occ l (ctx.detach key s) m) : FlushOk m ↔ Roomy m.sock := by
  obtain ⟨lo, f, hq⟩ := queue_actPath hpath (reachable_queue hreach key s hs)
  have hsearched := searched_path hpath (reachable_searched hreach key s hs)
  exact flushOk_iff hq hsearched.inRange.last_ne_zero

/-- A packet of 700 bytes is in flight, one of 682 bytes is held back; three
    duplicate acks condemn the first as an MTU probe. -/
def shrunkOps (window : UInt32) : List Op :=
  [arrives (datagram stSyn 1000 1 0 []),
    arrives (setWindowSize (datagram stData 1001 2 52654 [7]) 65535),
    .write acceptedKey (List.replicate 700 1), .write acceptedKey (List.replicate 682 2),
    arrives (setWindowSize (datagram stState 1001 3 52654 []) window),
    arrives (setWindowSize (datagram stState 1001 3 52654 []) window),
    arrives (setWindowSize (datagram stState 1001 3 52654 []) window)]

/-- The window holds 1350 bytes, the flush puts 1382 in flight. -/
theorem flush_overshoots :
    ∃ ctx s, Reachable ctx ∧ ctx.sockets.lookup acceptedKey = some s
      ∧ (∃ e ∈ flushed (ctx.detach acceptedKey s),
        e.2.curWindow = 1382 ∧ e.2.cwnd.maxSend = 1350)
      ∧ ¬ FlushOk (ctx.detach acceptedKey s) := by
  obtain ⟨ctx, s, hreach, hs, hq⟩ := detachedAfter_of 0 (shrunkOps 1350) acceptedKey
    (Q := fun m => (flushed m).map (fun e => (e.2.curWindow, e.2.cwnd.maxSend)) = [(1382, 1350)])
    (by decide +kernel)
  have hmem : (1382, 1350) ∈ (flushed (ctx.detach acceptedKey s)).map
      (fun e => (e.2.curWindow, e.2.cwnd.maxSend)) := by
    rw [hq]
    exact List.mem_singleton_self _
  obtain ⟨e, he, heq⟩ := List.mem_map.mp hmem
  obtain ⟨hbytes, hmax⟩ := Prod.mk.inj heq
  refine ⟨ctx, s, hreach, hs, ⟨e, he, hbytes, hmax⟩, fun hok => ?_⟩
  have hle := hok.window e he
  rw [hbytes, hmax] at hle
  exact absurd hle (by decide)

/-- With a wide peer window the same packet just fits. -/
theorem flush_respects_iff_fitting :
    ∃ ctx s, Reachable ctx ∧ ctx.sockets.lookup acceptedKey = some s ∧ waiting s = [682]
      ∧ FlushOk (ctx.detach acceptedKey s) := by
  obtain ⟨ctx, s, hreach, hs, hwait, hnum⟩ := detachedAfter_of 0 (shrunkOps 65535) acceptedKey
    (Q := fun m => waiting m.sock = [682] ∧ m.sock.curWindow = 700 ∧ m.sock.getPacketSize = 627
      ∧ m.sock.cwnd.maxSend = 1382) (by decide +kernel)
  have hroomy : Roomy s := by
    obtain ⟨hcw, hsize, hmax⟩ := hnum
    have hfits : Fits 700 627 1382 [682] :=
      (fits_cons (by decide) 682 []).mpr ⟨by decide, fits_nil _ _ _⟩
    intro _
    show Fits s.curWindow s.getPacketSize s.cwnd.maxSend (waiting s)
    rw [show s.curWindow = 700 from hcw, show s.getPacketSize = 627 from hsize,
      show s.cwnd.maxSend = 1382 from hmax, show waiting s = [682] from hwait]
    exact hfits
  have hstart : ActPath (anyOccasion none) [] (ctx.detach acceptedKey s)
      (ctx.detach acceptedKey s) := Steps.refl _
  exact ⟨ctx, s, hreach, hs, hwait, (flush_respects_iff hreach hs hstart).mpr hroomy⟩

end UtpFlush
