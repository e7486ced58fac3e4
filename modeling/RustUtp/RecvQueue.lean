import RustUtp.Acts.Engine
import RustUtp.RingWindow
import Mathlib.Data.Set.Card
import Mathlib.Order.Interval.Set.Nat

/-! # The reorder buffer — a window of numbered payloads past the ack

    The abstract buffer is the number `a` of the last packet received in order
    and a partial map from later numbers to payloads.  `RecvBody` says that a
    socket represents it, `RecvQueue` that nothing is left to hand over, which
    is so between datagrams but not inside the drain loop. -/

namespace UtpRecvQueue

open UtpCircular UtpPacket UtpUtil UtpConnShared UtpEngine UtpEngine.Detached UtpActs
  LabelledPath

/-- The numbers a map holds. -/
def held (g : Nat → Option Bytes) : Set Nat := { n | (g n).isSome = true }

structure RecvBody (ok : Nat → Bytes → Prop) (s : UtpSock) (a : Nat)
    (g : Nat → Option Bytes) : Prop where
  ring : Represents s.inbuf (a + 1) g
  small : s.inbuf.size ≤ 2048
  ack : s.ackNr = UInt16.ofNat a
  window : ∀ n p, g n = some p → n ≤ a + 1024
  good : ∀ n p, g n = some p → ok n p
  count : s.reorderCount = (held g).ncard

structure RecvQueue (ok : Nat → Bytes → Prop) (s : UtpSock) (a : Nat)
    (g : Nat → Option Bytes) : Prop extends RecvBody ok s a g where
  drained : g (a + 1) = none

variable {ok : Nat → Bytes → Prop} {s s' : UtpSock} {a : Nat} {g : Nat → Option Bytes}

/-! ## Acts that do not touch the buffer -/

/-- The buffer only depends on these three fields. -/
theorem RecvBody.of_same (h : RecvBody ok s a g) (hin : s'.inbuf = s.inbuf)
    (hack : s'.ackNr = s.ackNr) (hcount : s'.reorderCount = s.reorderCount) :
    RecvBody ok s' a g :=
  ⟨hin ▸ h.ring, hin ▸ h.small, hack.trans h.ack, h.window, h.good, hcount.trans h.count⟩

theorem RecvQueue.of_same (h : RecvQueue ok s a g) (hin : s'.inbuf = s.inbuf)
    (hack : s'.ackNr = s.ackNr) (hcount : s'.reorderCount = s.reorderCount) :
    RecvQueue ok s' a g :=
  ⟨h.toRecvBody.of_same hin hack hcount, h.drained⟩

/-! ## Numbers and slots -/

/-- The ring holds finitely many packets. -/
theorem RecvBody.finite (h : RecvBody ok s a g) : (held g).Finite := by
  refine (Set.finite_Iic (a + 1024)).subset (fun n hn => ?_)
  obtain ⟨p, hp⟩ := Option.isSome_iff_exists.mp hn
  exact h.window n p hp

/-- They all lie ahead of the ack number. -/
theorem RecvBody.above (h : RecvBody ok s a g) {n : Nat} {p : Bytes} (hn : g n = some p) :
    a < n := (h.ring.support n p hn).1

/-- The index that the drain reads is that of the next number: the 16-bit wrap
    does not show. -/
theorem RecvBody.next_mod (h : RecvBody ok s a g) :
    (s.ackNr.toNat + 1) % s.inbuf.size = (a + 1) % s.inbuf.size := by
  rw [h.ack, Nat.add_mod, wrap_mod_size _ h.small, ← Nat.add_mod]

/-- The slot the drain loop looks at is the one of the next number. -/
theorem RecvBody.next_slot (h : RecvBody ok s a g) :
    s.inbuf.get (s.ackNr.toNat + 1) = g (a + 1) := by
  rw [s.inbuf.get_congr h.next_mod]
  exact h.ring.get_eq _ (Nat.le_refl _) (Nat.lt_add_of_pos_right s.inbuf.size_pos)

/-- A buffer that is drained is a queue. -/
theorem RecvBody.queue (h : RecvBody ok s a g) (hdone : Drained s) : RecvQueue ok s a g := by
  refine ⟨h, ?_⟩
  rcases hdone with hzero | hnone
  · have hempty : held g = ∅ := by
      rw [← Set.ncard_eq_zero h.finite, ← h.count]
      exact hzero
    cases hg : g (a + 1) with
    | none => rfl
    | some p =>
        have hmem : a + 1 ∈ held g := by
          show (g (a + 1)).isSome = true
          rw [hg]
          rfl
        rw [hempty] at hmem
        exact hmem.elim
  · rw [← h.next_slot]
    exact hnone

/-! ## Handing over -/

/-- The next number arrives; it was not in the buffer. -/
theorem RecvQueue.acceptNext {m : Detached} (h : RecvQueue ok m.sock a g) (data : Bytes) :
    RecvBody ok (m.acceptNext data).sock (a + 1) g := by
  rw [acceptNext_sock]
  refine ⟨h.ring.slide h.drained, h.small, ?_, fun n p hn => ?_, h.good, h.count⟩
  · show m.sock.ackNr + 1 = _
    rw [h.ack, SeqNum.ofNat_add_one]
  · have := h.window n p hn
    omega

/-- Taking a packet leaves the others. -/
theorem held_erase (g : Nat → Option Bytes) (n : Nat) :
    held (Function.update g n none) = held g \ {n} := by
  ext k
  show (Function.update g n none k).isSome = true ↔ (g k).isSome = true ∧ k ≠ n
  by_cases hk : k = n
  · simp [hk]
  · simp [hk]

/-- One round of the drain loop. -/
theorem RecvBody.drainNext {m : Detached} (h : RecvBody ok m.sock a g) {p : Bytes}
    (hp : g (a + 1) = some p) :
    RecvBody ok (m.drainNext p).sock (a + 1) (Function.update g (a + 1) none) := by
  rw [drainNext_sock]
  have hput := h.ring.put none (Nat.le_refl (a + 1))
    (Nat.lt_add_of_pos_right m.sock.inbuf.size_pos) h.next_mod
  refine ⟨hput.slide (Function.update_self ..), h.small, ?_, fun n q hn => ?_,
    fun n q hn => ?_, ?_⟩
  · -- the next number, and everything still lies ahead of it
    show m.sock.ackNr + 1 = _
    rw [h.ack, SeqNum.ofNat_add_one]
  · have hne : n ≠ a + 1 := fun he => by rw [he, Function.update_self] at hn; exact nomatch hn
    rw [Function.update_of_ne hne] at hn
    have := h.window n q hn
    omega
  · have hne : n ≠ a + 1 := fun he => by rw [he, Function.update_self] at hn; exact nomatch hn
    rw [Function.update_of_ne hne] at hn
    exact h.good n q hn
  · -- one packet less is counted
    show m.sock.reorderCount - 1 = _
    have hmem : a + 1 ∈ held g := by
      show (g (a + 1)).isSome = true
      rw [hp]
      rfl
    rw [held_erase, Set.ncard_sdiff_singleton_of_mem hmem, h.count]

/-! ## Storing -/

/-- The number that an offset from the expected packet stands for. -/
theorem RecvBody.number (h : RecvBody ok s a g) (v : UInt16) :
    v = UInt16.ofNat (a + 1 + seqOffset s v) := by
  unfold seqOffset
  rw [UInt16.ofNat_add, UInt16.ofNat_toNat, h.ack, ← SeqNum.ofNat_add_one]
  grind

/-- Growing the ring keeps its packets. -/
theorem RecvQueue.growInbuf {m : Detached} (h : RecvQueue ok m.sock a g) {v : UInt16}
    (hoff : seqOffset m.sock v < reorderBufferMaxSize) :
    RecvQueue ok (m.growInbuf v (seqOffset m.sock v)).sock a g := by
  have hsize : (m.sock.inbuf.ensureSize (v.toNat + 1) (seqOffset m.sock v + 1)).size ≤ 2048 :=
    m.sock.inbuf.size_ensureSize_le _ _ 2048 h.small (by
      unfold reorderBufferMaxSize at hoff
      omega)
  refine ⟨⟨h.ring.ensureSize (v.toNat + 1) (seqOffset m.sock v + 1) ?_ ?_, hsize, h.ack,
    h.window, h.good, h.count⟩, h.drained⟩
  · unfold reorderBufferMaxSize at hoff
    omega
  · generalize hk : seqOffset m.sock v = k at hsize ⊢
    have hv : v = UInt16.ofNat (a + 1 + k) := by
      rw [← hk]
      exact h.number v
    generalize m.sock.inbuf.ensureSize (v.toNat + 1) (k + 1) = b at hsize ⊢
    rw [Nat.add_mod v.toNat 1, hv, wrap_mod_size b hsize, ← Nat.add_mod]
    rfl

/-- Storing a packet adds it to the others. -/
theorem held_insert (g : Nat → Option Bytes) (n : Nat) (p : Bytes) :
    held (Function.update g n (some p)) = insert n (held g) := by
  ext k
  show (Function.update g n (some p) k).isSome = true ↔ k = n ∨ (g k).isSome = true
  by_cases hk : k = n
  · simp [hk]
  · simp [hk]

/-- A packet ahead of the expected one is kept under its number. -/
theorem RecvQueue.storePacket {m : Detached} (h : RecvQueue ok m.sock a g) {v : UInt16}
    {data : Bytes} (hpos : 0 < seqOffset m.sock v)
    (hoff : seqOffset m.sock v < reorderBufferMaxSize)
    (hfits : seqOffset m.sock v + 1 < m.sock.inbuf.size)
    (hfree : m.sock.inbuf.get v.toNat = none)
    (hok : ok (a + 1 + seqOffset m.sock v) data) :
    RecvQueue ok (m.storePacket v data).sock a
      (Function.update g (a + 1 + seqOffset m.sock v) (some data)) := by
  have hv := h.number v
  unfold reorderBufferMaxSize at hoff
  generalize seqOffset m.sock v = k at hpos hoff hfits hok hv ⊢
  have hslot : v.toNat % m.sock.inbuf.size = (a + 1 + k) % m.sock.inbuf.size := by
    rw [hv]
    exact wrap_mod_size _ h.small _
  -- the slot is free, so the number was not held
  have hnone : g (a + 1 + k) = none := by
    rw [← h.ring.get_eq _ (Nat.le_add_right _ _) (by omega), ← m.sock.inbuf.get_congr hslot,
      hfree]
  refine ⟨⟨h.ring.put (some data) (Nat.le_add_right _ _) (by omega) hslot, h.small, h.ack,
    fun n p hn => ?_, fun n p hn => ?_, ?_⟩, ?_⟩
  · by_cases hne : n = a + 1 + k
    · omega
    · rw [Function.update_of_ne hne] at hn
      exact h.window n p hn
  · by_cases hne : n = a + 1 + k
    · rw [hne, Function.update_self] at hn
      obtain rfl := Option.some.inj hn
      rw [hne]
      exact hok
    · rw [Function.update_of_ne hne] at hn
      exact h.good n p hn
  · -- one packet more is counted
    show m.sock.reorderCount + 1 = _
    have hmem : a + 1 + k ∉ held g := by
      show ¬ (g (a + 1 + k)).isSome = true
      rw [hnone]
      exact Bool.false_ne_true
    rw [held_insert, Set.ncard_insert_of_notMem hmem h.finite, h.count]
  · rw [Function.update_of_ne (by omega)]
    exact h.drained

end UtpRecvQueue
