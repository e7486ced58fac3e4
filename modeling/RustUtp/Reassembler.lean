import RustUtp.Receive

/-! # Reassembly — the receive side refines the abstract reassembler

    Until a FIN arrives, the numbers above `ack_nr` and the slots of the
    reorder buffer are two views of one set.  A data packet adds its number to
    the set when it lies in the window, and an in-order packet hands over the
    whole run that starts with it. -/

namespace UtpReassembler

open UtpCircular UtpPacket UtpUtil UtpConnShared UtpEngine UtpEngine.Detached UtpActs
  UtpRecvQueue UtpReceive UtpLifecycle LabelledPath Reassembly

/-! ## Every reachable socket without a FIN has a well-formed buffer -/

/-- Any payload will do. -/
def anyPayload : Nat → Bytes → Prop := fun _ _ => True

structure RecvInv (s : UtpSock) : Prop where
  reached : s.gotFinReached = true → s.gotFin = true
  shut : s.readShutdown = s.closeRequested
  fresh : s.state = .synSent →
    s.inbuf = CircularBuffer.new ∧ s.reorderCount = 0 ∧ s.gotFin = false
  queue : s.gotFin = false → ∃ a g, RecvQueue anyPayload s a g

/-- An empty buffer is a queue. -/
theorem recvQueue_new {s : UtpSock} (hin : s.inbuf = CircularBuffer.new)
    (hcount : s.reorderCount = 0) :
    RecvQueue anyPayload s s.ackNr.toNat (fun _ => none) := by
  refine ⟨⟨?_, ?_, (SeqNum.ofNat_toNat _).symm, fun n p h => (nomatch h),
    fun _ _ _ => trivial, ?_⟩, rfl⟩
  · rw [hin]
    exact Represents.new _
  · rw [hin, CircularBuffer.size_new]
    decide
  · have hempty : held (fun _ : Nat => (none : Option Bytes)) = ∅ :=
      Set.eq_empty_of_forall_notMem (fun n hn => Bool.false_ne_true hn)
    rw [hcount, hempty, Set.ncard_empty]

/-- An act that leaves the receive side alone. -/
theorem RecvInv.of_same {occ : Occasion} {s s' : UtpSock} (h : RecvInv s)
    (hmove : Moves occ s s') (hin : s'.inbuf = s.inbuf) (hack : s'.ackNr = s.ackNr)
    (hcount : s'.reorderCount = s.reorderCount) (hfin : s'.gotFin = s.gotFin)
    (hreached : s'.gotFinReached = s.gotFinReached)
    (hshut : s'.readShutdown = s'.closeRequested) : RecvInv s' := by
  refine ⟨?_, hshut, ?_, ?_⟩
  · rw [hfin, hreached]
    exact h.reached
  · intro hst
    rw [hin, hcount, hfin]
    exact h.fresh (Move.synSent hmove hst)
  · intro hno
    obtain ⟨a, g, hq⟩ := h.queue (hfin ▸ hno)
    exact ⟨a, g, hq.of_same hin hack hcount⟩

/-- A step that leaves the receive side. -/
theorem RecvInv.of_view {occ : Occasion} {m m' : Detached} (h : RecvInv m.sock)
    (hmove : Moves occ m.sock m'.sock) (hview : rxView m' = rxView m) : RecvInv m'.sock :=
  h.of_same hmove (congrArg RxView.inbuf hview) (congrArg RxView.ackNr hview)
    (congrArg RxView.reorderCount hview) (congrArg RxView.gotFin hview)
    (congrArg RxView.gotFinReached hview)
    ((congrArg RxView.readShutdown hview).trans
      (h.shut.trans (congrArg RxView.closeRequested hview).symm))

/-- A connected socket does not dial. -/
theorem not_synSent {st : ConnState} (h : st.isConnected = true) : st ≠ .synSent := by
  rintro rfl
  exact Bool.false_ne_true h

/-- A drain reaches the FIN only if there is one. -/
theorem reached_drain {l : Bytes} {m m' : Detached} (hpath : DrainPath l m m')
    (hreached : m.sock.gotFinReached = true → m.sock.gotFin = true) :
    m'.sock.gotFinReached = true → m'.sock.gotFin = true := by
  refine Steps.invariant (P := fun m : Detached => m.sock.gotFinReached = true →
    m.sock.gotFin = true) (fun _ a b hab hP => ?_) hpath hreached
  cases hab with
  | drain => rw [drainNext_sock]; exact hP
  | reach _ _ _ hfin _ => exact fun _ => hfin
  | ackFin _ hr _ =>
      have hview := rxView_sendAck a false
      intro _
      exact (congrArg RxView.gotFin hview).trans (hP hr)
  | dropStragglers => exact hP

/-- It leaves the other flags. -/
theorem flags_drain {m m' : Detached} {data : Bytes}
    (h : DrainPath [] (m.acceptNext data) m') : flags m'.sock = flags m.sock := by
  refine DrainPath.lift (S := fun a b : Detached => flags b.sock = flags a.sock)
    (fun _ => rfl) (fun _ _ _ hab hbc => hbc.trans hab) (fun _ a b hab => ?_)
    (by rw [acceptNext_sock]; rfl) h
  cases hab with
  | drain => rw [drainNext_sock]; rfl
  | reach => rfl
  | ackFin => exact flags_sendAck a false
  | dropStragglers => rfl

/-- **EVERY ACT** keeps what the buffer promises. -/
theorem recvInv_act {occ : Occasion} {l : Bytes} {m m' : Detached} (hact : Act occ l m m')
    (h : RecvInv m.sock) : RecvInv m'.sock := by
  have hmove := moves_act hact
  cases hact with
  | tx htx => exact h.of_view hmove htx.rxView_eq
  | closing => exact h.of_same hmove rfl rfl rfl rfl rfl rfl
  | ack => exact h.of_view hmove (rxView_sendAck m _)
  | keepAlive => exact h.of_view hmove (rxView_sendKeepAlive m)
  | schedule =>
      -- scheduling touches only the ack list
      unfold scheduleAck at hmove ⊢
      split at hmove <;> split <;> exact h.of_same hmove rfl rfl rfl rfl rfl h.shut
  | noteSyn _ buf hdat hst _ _ =>
      obtain ⟨hin, hcount, hfin⟩ := h.fresh hst
      -- the first packet fixes `ack_nr`, and an empty buffer fits every number
      exact ⟨h.reached, h.shut, fun _ => ⟨hin, hcount, hfin⟩,
        fun _ => ⟨_, _, recvQueue_new hin hcount⟩⟩
  | noteFin _ buf data hacc hst hty hnew hoff =>
      exact ⟨fun _ => rfl, h.shut, fun hs => absurd hs (not_synSent hst), fun hno => nomatch hno⟩
  | inOrder _ _ buf data hacc hst hoff hdrain hdone =>
      -- once the FIN is known nothing is promised about the queue
      have hflags := flags_drain hdrain
      have hst' : m'.sock.state = m.sock.state := congrArg Flags.state hflags
      -- no FIN flag moves; the queue is followed through the drain
      refine ⟨reached_drain hdrain (by rw [acceptNext_sock]; exact h.reached), ?_, ?_, ?_⟩
      · rw [show m'.sock.readShutdown = m.sock.readShutdown from
          congrArg Flags.readShutdown hflags, show m'.sock.closeRequested
          = m.sock.closeRequested from congrArg Flags.closeRequested hflags]
        exact h.shut
      · intro hs
        exact absurd (hst'.symm.trans hs) (not_synSent hst)
      · intro hno
        have hno₀ : m.sock.gotFin = false := (congrArg Flags.gotFin hflags).symm.trans hno
        obtain ⟨a, g, hq⟩ := h.queue hno₀
        have hends : Ends (m.acceptNext data).sock (a + 1) g 0 := by
          left
          rw [acceptNext_sock]
          refine ⟨hno₀, ?_⟩
          cases hr : m.sock.gotFinReached with
          | false => rfl
          | true => exact absurd (h.reached hr) (by rw [hno₀]; exact Bool.false_ne_true)
        obtain ⟨b, hb⟩ := drainedTo_path hdrain (hq.acceptNext data) hends
        exact ⟨b, _, hb.body.queue hdone⟩
  | growIn _ buf data hacc hst hpos hoff =>
      refine ⟨h.reached, h.shut, fun hs => absurd hs (not_synSent hst), fun hno => ?_⟩
      obtain ⟨a, g, hq⟩ := h.queue hno
      exact ⟨a, g, hq.growInbuf hoff⟩
  | store _ buf data hacc hst hpos hoff hfits hfree =>
      refine ⟨h.reached, h.shut, fun hs => absurd hs (not_synSent hst), fun hno => ?_⟩
      obtain ⟨a, g, hq⟩ := h.queue hno
      exact ⟨a, _, hq.storePacket hpos hoff hfits hfree trivial⟩
  | _ => exact h.of_same hmove rfl rfl rfl rfl rfl h.shut

/-- What a socket starts with. -/
theorem recvInv_start {s : UtpSock} (hin : s.inbuf = CircularBuffer.new)
    (hcount : s.reorderCount = 0) (hfin : s.gotFin = false) (hreached : s.gotFinReached = false)
    (hshut : s.readShutdown = false) (hreq : s.closeRequested = false) : RecvInv s := by
  refine ⟨fun hr => ?_, hshut.trans hreq.symm, fun _ => ⟨hin, hcount, hfin⟩,
    fun _ => ⟨_, _, recvQueue_new hin hcount⟩⟩
  rw [hreached] at hr
  exact absurd hr Bool.false_ne_true

theorem reachable_recvInv {ctx : Context} (h : Reachable ctx) : EverySock RecvInv ctx :=
  Reachable.everySock (fun _ _ _ _ hact hinv => recvInv_act hact hinv)
    (fun _ _ _ _ => recvInv_start rfl rfl rfl rfl rfl rfl)
    (fun _ _ _ => recvInv_start rfl rfl rfl rfl rfl rfl) h

/-! ## The choice of the epoch

    A 16-bit number stands for many unbounded ones; the buffer can be read with
    any of them as its start. -/

/-- The packets under shifted numbers. -/
theorem held_shift {g : Nat → Option Bytes} {a a' : Nat} (habove : ∀ n p, g n = some p → a < n) :
    held (fun n => if n ≤ a' then none else g (n + a - a'))
      = (fun n => n + a' - a) '' held g := by
  ext n
  constructor
  · intro hn
    change (if n ≤ a' then none else g (n + a - a')).isSome = true at hn
    split at hn
    · exact absurd hn Bool.false_ne_true
    · refine ⟨n + a - a', hn, ?_⟩
      show n + a - a' + a' - a = n
      omega
  · rintro ⟨k, hk, rfl⟩
    obtain ⟨p, hp⟩ := Option.isSome_iff_exists.mp hk
    have hlt := habove k p hp
    show (if k + a' - a ≤ a' then none else g (k + a' - a + a - a')).isSome = true
    rw [if_neg (by omega), show k + a' - a + a - a' = k by omega]
    exact hk

/-- The same buffer, read with another epoch. -/
theorem recvQueue_shift {s : UtpSock} {a a' : Nat} {g : Nat → Option Bytes}
    (h : RecvQueue anyPayload s a g) (ha : s.ackNr = UInt16.ofNat a') :
    RecvQueue anyPayload s a' (fun n => if n ≤ a' then none else g (n + a - a')) := by
  have hmod : a % 65536 = a' % 65536 := SeqNum.ofNat_eq_iff.mp (h.ack.symm.trans ha)
  have hdvd : s.inbuf.size ∣ 2 ^ 16 := s.inbuf.size_dvd (h.small.trans (by decide))
  have hslot : ∀ n, a' < n → n % s.inbuf.size = (n + a - a') % s.inbuf.size := by
    intro n hn
    have hn' : n % 2 ^ 16 = (n + a - a') % 2 ^ 16 := by omega
    rw [← Nat.mod_mod_of_dvd n hdvd, hn', Nat.mod_mod_of_dvd _ hdvd]
  refine ⟨⟨⟨fun n hle hlt => ?_, fun n p hn => ?_⟩, h.small, ha, fun n p hn => ?_,
    fun _ _ _ => trivial, ?_⟩, ?_⟩
  · -- both numbers go to one slot, for the size divides 65536
    rw [if_neg (by omega), s.inbuf.get_congr (hslot n (by omega))]
    exact h.ring.get_eq _ (by omega) (by omega)
  · split at hn
    · exact nomatch hn
    · have := h.ring.support _ p hn
      omega
  · split at hn
    · exact nomatch hn
    · have := h.window _ p hn
      omega
  · rw [h.count, held_shift (fun n p hn => h.above hn)]
    refine (Set.InjOn.ncard_image (fun n hn k hk hEq => ?_)).symm
    obtain ⟨p, hp⟩ := Option.isSome_iff_exists.mp hn
    obtain ⟨q, hq⟩ := Option.isSome_iff_exists.mp hk
    have h₁ := h.above hp
    have h₂ := h.above hq
    change n + a' - a = k + a' - a at hEq
    omega
  · rw [if_neg (by omega), show a' + 1 + a - a' = a + 1 by omega]
    exact h.drained

/-! ## The simulation -/

/-- A slot of the buffer, addressed by an unbounded number. -/
def slot (s : UtpSock) (n : Nat) : Option Bytes := s.inbuf.get (UInt16.ofNat n).toNat

/-- The numbers in the buffer of a socket whose `ack_nr` stands for `a`. -/
def buffered (s : UtpSock) (a : Nat) : Finset Nat :=
  (Finset.Ioc a (a + s.inbuf.size)).filter (fun n => (slot s n).isSome)

/-- The reassembler a socket starts as. -/
def reassembler (s : UtpSock) (a : Nat) : Reassembler := ⟨a, buffered s a⟩

/-- The receive side of `m` is the reassembler `r`, where the packet with
    number `n` carries `P n` and `before` had been delivered when `first` was the
    last number taken. -/
structure Simulates (P : Nat → Bytes) (first : Nat) (before : Bytes) (r : Reassembler)
    (m : Detached) : Prop where
  ack : m.sock.ackNr = UInt16.ofNat r.ack
  delivered : deliveredBytes (m.ctx.users m.sock.user).calls = before ++ segment P first r.ack
  slots : ∀ n, r.ack < n → n ≤ r.ack + m.sock.inbuf.size →
    slot m.sock n = if n ∈ r.received then some (P n) else none
  fits : ∀ n ∈ r.received, n ≤ r.ack + m.sock.inbuf.size
  count : m.sock.reorderCount = (r.received.filter (fun n => r.ack < n)).card
  small : m.sock.inbuf.size ≤ 2048

/-- A well-formed data packet with number `n` and payload `P n`, which arrives
    when `ack_nr` stands for `a`. -/
structure WellFormed (P : Nat → Bytes) (a : Nat) (m : Detached) (n : Nat) (buf : Bytes) :
    Prop where
  kind : packetType buf = stData
  length : headerSize ≤ buf.length
  number : seqNr buf = UInt16.ofNat n
  acks : m.sock.ackOutOfRange (ackNr buf) = false
  body : ∃ w, (skipExtensions buf m.sock.extensions).2 = some w ∧ buf.drop w.dataStart = P n
  behind : a ≤ n + 64000

instance (P : Nat → Bytes) (a : Nat) (m : Detached) (n : Nat) (buf : Bytes) :
    Decidable (WellFormed P a m n buf) :=
  decidable_of_iff
    (packetType buf = stData ∧ headerSize ≤ buf.length ∧ seqNr buf = UInt16.ofNat n
      ∧ m.sock.ackOutOfRange (ackNr buf) = false
      ∧ (skipExtensions buf m.sock.extensions).2.map (fun w => buf.drop w.dataStart) = some (P n)
      ∧ a ≤ n + 64000)
    ⟨fun ⟨h₁, h₂, h₃, h₄, h₅, h₆⟩ => ⟨h₁, h₂, h₃, h₄, Option.map_eq_some_iff.mp h₅, h₆⟩,
      fun h => ⟨h.kind, h.length, h.number, h.acks, Option.map_eq_some_iff.mpr h.body, h.behind⟩⟩

/-- A sequence of such packets, where `ahead a n` says how far a number `n` may
    lie ahead of the `ack_nr` it meets. -/
def Feeds (P : Nat → Bytes) (ahead : Nat → Nat → Prop) :
    Reassembler → Detached → List (Nat × Bytes) → Prop
  | _, _, [] => True
  | r, m, (n, buf) :: rest =>
      WellFormed P r.ack m n buf ∧ ahead r.ack n
        ∧ Feeds P ahead (r.accept 1024 n) (m.processIncoming buf false).1 rest

/-- The socket takes them one after another. -/
def receiveAll (m : Detached) (arrivals : List (Nat × Bytes)) : Detached :=
  arrivals.foldl (fun m p => (m.processIncoming p.2 false).1) m

/-- The packet with number `n` carries `P n`. -/
def carries (P : Nat → Bytes) : Nat → Bytes → Prop := fun n p => p = P n

/-- The simulation with the abstract buffer made explicit. -/
structure Sim (P : Nat → Bytes) (first : Nat) (before : Bytes) (r : Reassembler)
    (g : Nat → Option Bytes) (m : Detached) : Prop where
  queue : RecvQueue (carries P) m.sock r.ack g
  agree : ∀ n, r.ack < n → (n ∈ r.received ↔ (g n).isSome = true)
  connected : m.sock.state.isConnected = true
  noFin : m.sock.gotFin = false ∧ m.sock.gotFinReached = false
  reading : m.sock.readShutdown = false ∧ m.sock.closeRequested = false
  le : first ≤ r.ack
  bytes : (stream m).bytes = before ++ segment P first r.ack

variable {P : Nat → Bytes} {first : Nat} {before : Bytes} {r : Reassembler}
  {g : Nat → Option Bytes} {m m' : Detached}

/-- The relation says what the result asks for. -/
theorem Sim.simulates (h : Sim P first before r g m) : Simulates P first before r m := by
  -- the slot of a number ahead is the one the abstract buffer names
  refine ⟨h.queue.ack, h.bytes, fun n hlt hle => ?_, fun n hn => ?_, ?_, h.queue.small⟩
  · unfold slot
    rw [get_wrap _ h.queue.small, h.queue.ring.get_eq n hlt (by omega)]
    cases hg : g n with
    | none =>
        rw [if_neg (fun hmem => ?_)]
        rw [h.agree n hlt, hg] at hmem
        exact Bool.false_ne_true hmem
    | some p =>
        rw [if_pos ((h.agree n hlt).mpr (by rw [hg]; rfl)), h.queue.good n p hg]
  · rcases Nat.lt_or_ge r.ack n with hlt | hge
    · obtain ⟨p, hp⟩ := Option.isSome_iff_exists.mp ((h.agree n hlt).mp hn)
      -- a held number lies within the ring
      have := (h.queue.ring.support n p hp).2
      omega
    · omega
  · -- the counter counts the held numbers, and they are the filtered ones
    have hheld : held g = ((r.received.filter (fun n => r.ack < n) : Finset Nat) : Set Nat) := by
      ext n
      rw [Finset.mem_coe, Finset.mem_filter]
      constructor
      · intro hn
        obtain ⟨p, hp⟩ := Option.isSome_iff_exists.mp hn
        have hlt := h.queue.above hp
        exact ⟨(h.agree n hlt).mpr hn, hlt⟩
      · rintro ⟨hn, hlt⟩
        exact (h.agree n hlt).mp hn
    rw [h.queue.count, hheld, Set.ncard_coe_finset]

/-- The reassembler stands still when the number it waits for is not there. -/
theorem Sim.runEnd (h : Sim P first before r g m) : runEnd r.received r.ack = r.ack := by
  refine runEnd_eq (Nat.le_refl _) (fun n hlt hle => by omega) (fun hmem => ?_)
  rw [h.agree _ (Nat.lt_succ_self _), h.queue.drained] at hmem
  exact Bool.false_ne_true hmem

/-- A packet that the receive side ignores. -/
theorem Sim.ignored (h : Sim P first before r g m) (hview : rxView m' = rxView m)
    (hst : m'.sock.state.isConnected = true) : Sim P first before r g m' := by
  refine ⟨h.queue.of_same (congrArg RxView.inbuf hview) (congrArg RxView.ackNr hview)
    (congrArg RxView.reorderCount hview), h.agree, hst, ?_, ?_, h.le, ?_⟩
  · exact ⟨(congrArg RxView.gotFin hview).trans h.noFin.1,
      (congrArg RxView.gotFinReached hview).trans h.noFin.2⟩
  · exact ⟨(congrArg RxView.readShutdown hview).trans h.reading.1,
      (congrArg RxView.closeRequested hview).trans h.reading.2⟩
  · rw [stream_of_rxView hview]
    exact h.bytes

/-- A number outside the window, or received before, changes nothing. -/
theorem accept_ignored {n : Nat} (h : Sim P first before r g m)
    (hout : ¬ (r.ack < n ∧ n ≤ r.ack + 1024) ∨ n ∈ r.received) : r.accept 1024 n = r := by
  have hsame : (if r.ack < n ∧ n ≤ r.ack + 1024 then insert n r.received else r.received)
      = r.received := by
    rcases hout with hout | hmem
    · exact if_neg hout
    · rw [Finset.insert_eq_of_mem hmem, ite_self]
  unfold Reassembler.accept
  dsimp only
  rw [hsame, h.runEnd]

/-- The offset of number `n` from the expected one. -/
theorem Sim.offset (h : Sim P first before r g m) {n : Nat} {v : UInt16}
    (hv : v = UInt16.ofNat n) : seqOffset m.sock v
      = (n % 65536 + (65536 - (r.ack + 1) % 65536)) % 65536 := by
  unfold seqOffset
  rw [← SeqNum.toNat_ofNat_sub', hv, h.queue.ack, ← SeqNum.ofNat_add_one]
  congr 1
  grind

/-! ### A packet in order -/

/-- The reassembler takes as many packets as are held without a gap. -/
theorem Sim.accept_ack (h : Sim P first before r g m) {b : Nat} (hle : r.ack + 1 ≤ b)
    (hrun : ∀ n, r.ack + 1 < n → n ≤ b → (g n).isSome = true) (hgap : g (b + 1) = none) :
    (r.accept 1024 (r.ack + 1)).ack = b := by
  unfold Reassembler.accept
  dsimp only
  rw [if_pos ⟨Nat.lt_succ_self _, by omega⟩]
  refine runEnd_eq (by omega) (fun n hlt hn => ?_) (fun hmem => ?_)
  · rcases Nat.lt_or_ge (r.ack + 1) n with hafter | hfirst
    · exact Finset.mem_insert_of_mem ((h.agree n hlt).mpr (hrun n hafter hn))
    · rw [show n = r.ack + 1 by omega]
      exact Finset.mem_insert_self _ _
  · rcases Finset.mem_insert.mp hmem with heq | hmem
    · omega
    · rw [h.agree _ (by omega), hgap] at hmem
      exact Bool.false_ne_true hmem

/-- Beyond the number that came in nothing new is held. -/
theorem mem_accept_next {n : Nat} (hn : r.ack + 1 < n) :
    n ∈ (r.accept 1024 (r.ack + 1)).received ↔ n ∈ r.received := by
  unfold Reassembler.accept
  dsimp only
  rw [if_pos ⟨Nat.lt_succ_self _, by omega⟩, Finset.mem_insert]
  exact or_iff_right (by omega)

/-- The bytes of the packet that came in and of those that waited continue the
    stream. -/
theorem Sim.bytes_run (h : Sim P first before r g m) {b : Nat} (hle : r.ack + 1 ≤ b)
    (hrun : ∀ n, r.ack + 1 < n → n ≤ b → (g n).isSome = true) :
    (stream m).bytes ++ P (r.ack + 1) ++ segment (fun n => (g n).getD []) (r.ack + 1) b
      = before ++ segment P first b := by
  have hsame : segment (fun n => (g n).getD []) (r.ack + 1) b = segment P (r.ack + 1) b := by
    refine segment_congr (fun n hn hnb => ?_)
    obtain ⟨p, hp⟩ := Option.isSome_iff_exists.mp (hrun n hn hnb)
    show (g n).getD [] = P n
    rw [hp, ← h.queue.good n p hp]
    rfl
  rw [hsame, h.bytes, List.append_assoc, List.append_assoc,
    ← segment_append P h.le (c := b) (by omega), ← segment_append P (Nat.le_succ r.ack) hle,
    segment_succ P (Nat.le_refl _), segment_self, List.nil_append]

/-- The next packet in order, and all that waited for it. -/
theorem Sim.inOrder (h : Sim P first before r g m) (data : Bytes) (hdata : data = P (r.ack + 1)) :
    ∃ g', Sim P first before (r.accept 1024 (r.ack + 1)) g' (m.receiveInOrder data) := by
  have hst : (m.acceptNext data).sock.state.isConnected = true := by
    rw [acceptNext_sock]
    exact h.connected
  obtain ⟨hdrain, hdone⟩ := path_drainLoop ((m.acceptNext data).sock.reorderCount + 1) _ hst
    (Nat.lt_succ_self _)
  have hends : Ends (m.acceptNext data).sock (r.ack + 1) g 0 := by
    left
    rw [acceptNext_sock]
    exact h.noFin
  obtain ⟨b, hb⟩ := drainedTo_path hdrain (h.queue.acceptNext data) hends
  unfold receiveInOrder
  dsimp only
  generalize drainLoop ((m.acceptNext data).sock.reorderCount + 1) (m.acceptNext data) = m₁
    at hdrain hdone hb ⊢
  -- the run of the reassembler ends where the drain stops
  have hgap : g (b + 1) = none := by
    have hnone := (hb.body.queue hdone).drained
    unfold cut at hnone
    rwa [if_neg (by omega)] at hnone
  have hack : (r.accept 1024 (r.ack + 1)).ack = b := h.accept_ack hb.le hb.run hgap
  have hflags : flags m₁.sock = flags m.sock := by
    rw [hb.flags_eq, acceptNext_sock]
    rfl
  have hno : m₁.sock.gotFin = false := (congrArg Flags.gotFin hflags).trans h.noFin.1
  refine ⟨cut b g, Sim.ignored ?_ (scheduleAck_same m₁).1 ?_⟩
  · refine ⟨?_, fun n hn => ?_, ?_, ?_, ?_, ?_, ?_⟩
    · rw [hack]
      exact hb.body.queue hdone
    · rw [hack] at hn
      have hle := hb.le
      rw [mem_accept_next (by omega), h.agree n (by omega)]
      unfold cut
      rw [if_neg (by omega)]
    · exact (congrArg (fun f : Flags => f.state.isConnected) hflags).trans h.connected
    · refine ⟨hno, ?_⟩
      cases hr : m₁.sock.gotFinReached with
      | false => rfl
      | true =>
          have hstart : (m.acceptNext data).sock.gotFinReached = true →
              (m.acceptNext data).sock.gotFin = true := by
            rw [acceptNext_sock]
            intro hr
            exact absurd (h.noFin.2.symm.trans hr) Bool.false_ne_true
          have hfin := reached_drain hdrain hstart hr
          exact absurd (hno.symm.trans hfin) Bool.false_ne_true
    · exact ⟨(congrArg Flags.readShutdown hflags).trans h.reading.1,
        (congrArg Flags.closeRequested hflags).trans h.reading.2⟩
    · rw [hack]
      have := h.le
      have := hb.le
      omega
    · have hshut : (m.acceptNext data).sock.readShutdown = false := by
        rw [acceptNext_sock]
        exact h.reading.1
      rw [hack, hb.bytes, hshut, if_neg Bool.false_ne_true, stream_acceptNext,
        stream_deliver, h.reading.1, if_neg Bool.false_ne_true, hdata]
      exact h.bytes_run hb.le hb.run
  · rw [(scheduleAck_same m₁).2]
    exact (congrArg (fun f : Flags => f.state.isConnected) hflags).trans h.connected

/-! ### A packet ahead of the expected one -/

/-- A packet ahead of order is kept. -/
theorem Sim.outOfOrder (h : Sim P first before r g m) {n : Nat} {v : UInt16} {data : Bytes}
    (hv : v = UInt16.ofNat n) (hlt : r.ack + 1 < n) (hle : n ≤ r.ack + 1024)
    (hdata : data = P n) :
    ∃ g', Sim P first before (r.accept 1024 n) g'
      (m.receiveOutOfOrder v (seqOffset m.sock v) data).1 := by
  have hoff : seqOffset m.sock v = n - r.ack - 1 := by
    rw [h.offset hv]
    omega
  have hn : r.ack + 1 + seqOffset m.sock v = n := by omega
  have hin : seqOffset m.sock v < reorderBufferMaxSize := by
    rw [hoff]
    unfold reorderBufferMaxSize
    omega
  have hgrown := h.queue.growInbuf hin
  have hfits := m.sock.inbuf.index_lt_size_ensureSize (v.toNat + 1) (seqOffset m.sock v + 1)
  have hslot : (m.growInbuf v (seqOffset m.sock v)).sock.inbuf.get v.toNat = g n := by
    have hwrap := get_wrap _ hgrown.small n
    rw [← hv] at hwrap
    refine hwrap.trans (hgrown.ring.get_eq n (by omega) ?_)
    show n < r.ack + 1 + (m.sock.inbuf.ensureSize (v.toNat + 1) (seqOffset m.sock v + 1)).size
    omega
  unfold receiveOutOfOrder
  rw [if_neg (fun hfin => by rw [h.noFin.1] at hfin; exact absurd hfin.1 Bool.false_ne_true),
    if_neg (by omega)]
  dsimp only
  rw [hslot]
  by_cases hdup : (g n).isSome = true
  · rw [if_pos hdup, accept_ignored h (.inr ((h.agree n (by omega)).mpr hdup))]
    exact ⟨g, ⟨hgrown, h.agree, h.connected, h.noFin, h.reading, h.le, h.bytes⟩⟩
  · rw [if_neg hdup]
    have hstored := hgrown.storePacket (v := v) (by
      show 0 < seqOffset m.sock v
      omega) hin hfits (by rw [hslot]; exact Option.not_isSome_iff_eq_none.mp hdup) (by
      show data = P (r.ack + 1 + seqOffset m.sock v)
      rw [hn]
      exact hdata)
    have haccept : r.accept 1024 n = ⟨r.ack, insert n r.received⟩ := by
      unfold Reassembler.accept
      dsimp only
      rw [if_pos ⟨by omega, hle⟩]
      congr 1
      refine runEnd_eq (Nat.le_refl _) (fun k hk hk' => by omega) (fun hmem => ?_)
      rcases Finset.mem_insert.mp hmem with heq | hmem
      · omega
      · rw [h.agree _ (Nat.lt_succ_self _), h.queue.drained] at hmem
        exact Bool.false_ne_true hmem
    rw [haccept]
    refine ⟨_, Sim.ignored (m := (m.growInbuf v (seqOffset m.sock v)).storePacket v data)
      ⟨hstored, fun k hk => ?_, h.connected, h.noFin, h.reading, h.le, h.bytes⟩
      (scheduleAck_same _).1 ?_⟩
    · show k ∈ insert n r.received ↔ _
      rw [Finset.mem_insert]
      show k = n ∨ k ∈ r.received
        ↔ (Function.update g (r.ack + 1 + seqOffset m.sock v) (some data) k).isSome = true
      rw [hn]
      by_cases hkn : k = n
      · simp [hkn]
      · rw [Function.update_of_ne hkn, ← h.agree k hk]
        exact or_iff_right hkn
    · rw [(scheduleAck_same _).2]
      exact h.connected

/-! ### Any packet -/

/-- A data packet is no FIN. -/
theorem receive_data {buf : Bytes} (hty : packetType buf = stData) (dataStart k : Nat) :
    (m.receive buf dataStart k).1 = if k = 0 then m.receiveInOrder (buf.drop dataStart)
      else (m.receiveOutOfOrder (seqNr buf) k (buf.drop dataStart)).1 := by
  have hno : m.noteFin (packetType buf) (seqNr buf) = m := by
    unfold noteFin
    rw [if_neg (fun hfin => absurd (hty.symm.trans hfin.1) (by decide))]
  unfold receive
  rw [hno]
  dsimp only
  split <;> rfl

/-- **ONE PACKET**: the socket does what the reassembler does. -/
theorem Sim.step (h : Sim P first before r g m) {n : Nat} {buf : Bytes}
    (hwf : WellFormed P r.ack m n buf) (hahead : n ≤ r.ack + 65536) :
    ∃ g', Sim P first before (r.accept 1024 n) g' (m.processIncoming buf false).1 := by
  obtain ⟨w, hwalk, hbody⟩ := hwf.body
  have hty : packetType buf < stNumStates := by
    rw [hwf.kind]
    decide
  rw [processIncoming_eq hty (fun hrange => by
    rw [hwf.acks] at hrange; exact absurd hrange.2 Bool.false_ne_true) hwf.length hwalk]
  obtain ⟨hview, hstate⟩ := rxView_admitted buf (not_synSent h.connected)
  have h₁ : Sim P first before r g (admitted m buf) :=
    h.ignored hview (by rw [hstate]; exact h.connected)
  generalize admitted m buf = m₁ at h₁ ⊢
  have hoff := h₁.offset hwf.number
  have hbehind := hwf.behind
  by_cases hin : r.ack < n ∧ n ≤ r.ack + 1024
  · -- in the window
    have hoff' : seqOffset m₁.sock (seqNr buf) = n - r.ack - 1 := by
      rw [hoff]
      omega
    have hlt : seqOffset m₁.sock (seqNr buf) < reorderBufferMaxSize := by
      rw [hoff']
      unfold reorderBufferMaxSize
      omega
    obtain ⟨hackView, hchecked⟩ := processChecked_inside hwalk hlt
    have hst : (m₁.processAck buf w.selack).sock.state.isConnected = true :=
      connected_txPath (path_processAck m₁ buf _ w hwalk) h₁.connected h₁.reading.2
    have h₂ := h₁.ignored hackView hst
    have hsame : seqOffset m₁.sock (seqNr buf)
        = seqOffset (m₁.processAck buf w.selack).sock (seqNr buf) := by
      have hack : (m₁.processAck buf w.selack).sock.ackNr = m₁.sock.ackNr :=
        congrArg RxView.ackNr hackView
      unfold seqOffset
      rw [hack]
    rw [hchecked, if_neg (by rw [hwf.kind, hst]; decide), hsame]
    rw [hsame] at hoff'
    generalize m₁.processAck buf w.selack = m₂ at h₂ hoff' ⊢
    rw [receive_data hwf.kind]
    by_cases hnext : n = r.ack + 1
    · rw [if_pos (by omega), hnext]
      rw [hnext] at hbody
      exact h₂.inOrder _ hbody
    · rw [if_neg (by omega)]
      exact h₂.outOfOrder hwf.number (by omega) hin.2 hbody
  · -- outside of it
    have hge : reorderBufferMaxSize ≤ seqOffset m₁.sock (seqNr buf) := by
      rw [hoff]
      unfold reorderBufferMaxSize
      omega
    obtain ⟨hview', hsend⟩ := processChecked_outside w hge
    have hst' := congrArg SendView.state hsend
    rw [accept_ignored h (.inl hin)]
    exact ⟨g, h₁.ignored hview' ((congrArg ConnState.isConnected hst').trans h₁.connected)⟩

/-- **ALL ARRIVALS.** The induction is on the datagrams. -/
theorem Sim.run {arrivals : List (Nat × Bytes)} :
    ∀ {r : Reassembler} {g : Nat → Option Bytes} {m : Detached}, Sim P first before r g m →
      Feeds P (fun a n => n ≤ a + 65536) r m arrivals →
      ∃ g', Sim P first before (r.run 1024 (arrivals.map Prod.fst)) g' (receiveAll m arrivals) := by
  induction arrivals with
  | nil => intro r g m h _; exact ⟨g, h⟩
  | cons p rest ih =>
      intro r g m h hfeeds
      obtain ⟨hwf, hahead, hrest⟩ := hfeeds
      obtain ⟨g₁, h₁⟩ := h.step hwf hahead
      exact ih h₁ hrest

/-- **THE RECEIVE SIDE REFINES THE REASSEMBLER**: whatever data packets reach a
    connected socket, in whatever order, its acknowledged number, its buffer and
    what it has delivered are those of the reassembler fed with their numbers.
    Numbers travel modulo `2 ^ 16`, so one that lies more than a turn ahead
    would be taken for another. -/
theorem reassembly_refinement {ctx : Context} (h : Reachable ctx) {key : Key} {s : UtpSock}
    (hs : ctx.sockets.lookup key = some s) (hst : s.state.isConnected = true)
    (hfin : s.gotFin = false) (hclose : s.closeRequested = false) {a : Nat}
    (ha : s.ackNr = UInt16.ofNat a) {P : Nat → Bytes}
    (hP : ∀ n ∈ buffered s a, slot s n = some (P n)) {arrivals : List (Nat × Bytes)}
    (hfeeds : Feeds P (fun a n => n ≤ a + 65536) (reassembler s a) (ctx.detach key s) arrivals) :
    Simulates P a (deliveredBytes (ctx.users s.user).calls)
      ((reassembler s a).run 1024 (arrivals.map Prod.fst))
      (receiveAll (ctx.detach key s) arrivals) := by
  have hinv := reachable_recvInv h key s hs
  obtain ⟨a₀, g₀, hq₀⟩ := hinv.queue hfin
  have hq := recvQueue_shift hq₀ ha
  generalize (fun n => if n ≤ a then none else g₀ (n + a₀ - a)) = g at hq
  have hslot : ∀ n, a < n → n ≤ a + s.inbuf.size → slot s n = g n := by
    intro n hlt hle
    unfold slot
    rw [get_wrap _ hq.small]
    exact hq.ring.get_eq n hlt (by omega)
  have hmem : ∀ n, n ∈ buffered s a ↔ (g n).isSome = true := by
    intro n
    unfold buffered
    rw [Finset.mem_filter, Finset.mem_Ioc]
    constructor
    · rintro ⟨⟨hlt, hle⟩, hsome⟩
      rwa [hslot n hlt hle] at hsome
    · intro hn
      obtain ⟨p, hp⟩ := Option.isSome_iff_exists.mp hn
      have hrange := hq.ring.support n p hp
      refine ⟨⟨hrange.1, by omega⟩, ?_⟩
      rw [hslot n hrange.1 (by omega)]
      exact hn
  have hreached : s.gotFinReached = false := by
    cases hr : s.gotFinReached with
    | false => rfl
    | true => exact absurd (hfin.symm.trans (hinv.reached hr)) Bool.false_ne_true
  have hsim : Sim P a (deliveredBytes (ctx.users s.user).calls) (reassembler s a) g
      (ctx.detach key s) := by
    refine ⟨⟨⟨hq.ring, hq.small, hq.ack, hq.window, fun n p hn => ?_, hq.count⟩, hq.drained⟩,
      fun n _ => hmem n, hst, ⟨hfin, hreached⟩, ⟨hinv.shut.trans hclose, hclose⟩,
      Nat.le_refl a, ?_⟩
    · have hrange := hq.ring.support n p hn
      have hp := hP n ((hmem n).mpr (by rw [hn]; rfl))
      rw [hslot n hrange.1 (by omega), hn] at hp
      exact Option.some.inj hp
    · show _ = _ ++ segment P a a
      rw [segment_self, List.append_nil]
      rfl
  obtain ⟨g', h'⟩ := hsim.run hfeeds
  exact h'.simulates

/-- Each packet carries its number. -/
def numbered : Nat → Bytes := fun n => [UInt8.ofNat n]

/-- On an accepted connection that has taken packet 2, packet 4 overtakes packet
    3 and comes a second time after it. -/
def overtaken : List (Nat × Bytes) :=
  [(4, datagram stData 1001 4 52654 (numbered 4)), (3, datagram stData 1001 3 52654 (numbered 3)),
    (4, datagram stData 1001 4 52654 (numbered 4))]

/-- What the abstract receiver makes of it. -/
theorem run_overtaken :
    Reassembler.accept ⟨2, ∅⟩ 1024 4 = ⟨2, {4}⟩ ∧ Reassembler.accept ⟨2, {4}⟩ 1024 3 = ⟨4, {3, 4}⟩
      ∧ Reassembler.accept ⟨4, {3, 4}⟩ 1024 4 = ⟨4, {3, 4}⟩ := by
  refine ⟨?_, ?_, ?_⟩ <;> unfold Reassembler.accept <;> dsimp only
  · rw [if_pos (by decide), runEnd_eq (e := 2) (Nat.le_refl 2) (fun n _ _ => by omega) (by decide)]
    rfl
  · rw [if_pos (by decide), runEnd_eq (e := 4) (by decide) (fun n hlt hle => ?_) (by decide)]
    obtain rfl | rfl : n = 3 ∨ n = 4 := by omega
    · decide
    · decide
  · rw [if_neg (by decide), runEnd_eq (e := 4) (Nat.le_refl 4) (fun n _ _ => by omega) (by decide)]

/-- Packet 3 lets packet 4 follow, and the second copy changes nothing. -/
theorem reassembly_refinement_overtaken :
    ∃ ctx s, Reachable ctx ∧ ctx.sockets.lookup acceptedKey = some s ∧ s.ackNr = 2
      ∧ (reassembler s 2).run 1024 (overtaken.map Prod.fst) = ⟨4, {3, 4}⟩
      ∧ Simulates numbered 2 (deliveredBytes (ctx.users s.user).calls) ⟨4, {3, 4}⟩
        (receiveAll (ctx.detach acceptedKey s) overtaken) := by
  obtain ⟨ctx, s, hreach, hs, hst, hfin, hclose, hack, hempty, hwf₁, hwf₂, hwf₃⟩ :=
    detachedAfter_of 0 acceptOps acceptedKey
      (Q := fun m => m.sock.state.isConnected = true ∧ m.sock.gotFin = false
        ∧ m.sock.closeRequested = false ∧ m.sock.ackNr = UInt16.ofNat 2
        ∧ buffered m.sock 2 = ∅
        ∧ WellFormed numbered 2 m 4 (datagram stData 1001 4 52654 (numbered 4))
        ∧ WellFormed numbered 2 (receiveAll m (overtaken.take 1)) 3
          (datagram stData 1001 3 52654 (numbered 3))
        ∧ WellFormed numbered 4 (receiveAll m (overtaken.take 2)) 4
          (datagram stData 1001 4 52654 (numbered 4)))
      (by decide +kernel)
  obtain ⟨hone, htwo, hthree⟩ := run_overtaken
  have hstart : reassembler s 2 = ⟨2, ∅⟩ := by
    unfold reassembler
    rw [show buffered s 2 = ∅ from hempty]
  have hfeeds : Feeds numbered (fun a n => n ≤ a + 65536) (reassembler s 2)
      (ctx.detach acceptedKey s) overtaken := by
    rw [hstart]
    refine ⟨hwf₁, by decide, ?_⟩
    rw [hone]
    refine ⟨hwf₂, by decide, ?_⟩
    rw [htwo]
    exact ⟨hwf₃, by decide, trivial⟩
  have hrun : (reassembler s 2).run 1024 (overtaken.map Prod.fst) = ⟨4, {3, 4}⟩ := by
    rw [hstart]
    show Reassembler.accept (Reassembler.accept (Reassembler.accept _ 1024 4) 1024 3) 1024 4 = _
    rw [hone, htwo, hthree]
  have hsim := reassembly_refinement hreach hs hst hfin hclose hack (fun n hn => by
    rw [show buffered s 2 = ∅ from hempty] at hn
    exact absurd hn (Finset.notMem_empty n)) hfeeds
  rw [hrun] at hsim
  exact ⟨ctx, s, hreach, hs, hack, hrun, hsim⟩

/-- A number more than a turn ahead is mistaken for the expected one: packet
    65539 is delivered in the place of packet 3. -/
theorem reassembly_aliases :
    ¬ ∀ (ctx : Context) (key : Key) (s : UtpSock) (a : Nat) (P : Nat → Bytes)
      (arrivals : List (Nat × Bytes)), Reachable ctx → ctx.sockets.lookup key = some s →
      s.state.isConnected = true → s.gotFin = false → s.closeRequested = false →
      s.ackNr = UInt16.ofNat a → (∀ n ∈ buffered s a, slot s n = some (P n)) →
      Feeds P (fun _ _ => True) (reassembler s a) (ctx.detach key s) arrivals →
      Simulates P a (deliveredBytes (ctx.users s.user).calls)
        ((reassembler s a).run 1024 (arrivals.map Prod.fst))
        (receiveAll (ctx.detach key s) arrivals) := by
  intro hall
  obtain ⟨ctx, s, hreach, hs, hst, hfin, hclose, hack, hempty, hwf, hbad⟩ :=
    detachedAfter_of 0 acceptOps acceptedKey
      (Q := fun m => m.sock.state.isConnected = true ∧ m.sock.gotFin = false
        ∧ m.sock.closeRequested = false ∧ m.sock.ackNr = UInt16.ofNat 2
        ∧ buffered m.sock 2 = ∅
        ∧ WellFormed numbered 2 m 65539 (datagram stData 1001 3 52654 (numbered 65539))
        ∧ (m.processIncoming (datagram stData 1001 3 52654 (numbered 65539)) false).1.sock.ackNr
          = 3)
      (by decide +kernel)
  have hnone : buffered s 2 = ∅ := hempty
  have hfeeds : Feeds numbered (fun _ _ => True) (reassembler s 2)
      (ctx.detach acceptedKey s) [(65539, datagram stData 1001 3 52654 (numbered 65539))] :=
    ⟨hwf, trivial, trivial⟩
  have hsim := hall ctx acceptedKey s 2 numbered _ hreach hs hst hfin hclose hack
    (fun n hn => by rw [hnone] at hn; exact absurd hn (Finset.notMem_empty n)) hfeeds
  have hrun : ((reassembler s 2).run 1024 [65539]).ack = 2 := by
    show (Reassembler.accept (reassembler s 2) 1024 65539).ack = 2
    unfold Reassembler.accept
    rw [if_neg (by show ¬ (2 < 65539 ∧ 65539 ≤ 2 + 1024); decide)]
    show runEnd (buffered s 2) 2 = 2
    refine runEnd_eq (Nat.le_refl 2) (fun n hlt hle => by omega) ?_
    rw [hnone]
    exact Finset.notMem_empty _
  have hack' := hsim.ack
  rw [show [(65539, datagram stData 1001 3 52654 (numbered 65539))].map Prod.fst = [65539] from
    rfl, hrun] at hack'
  exact absurd (hbad.symm.trans hack') (by decide)

end UtpReassembler
