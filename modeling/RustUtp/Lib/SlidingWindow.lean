import Mathlib.Data.Finset.Lattice.Fold
import Mathlib.Data.Nat.Find
import Mathlib.Data.Set.Insert

/-! # Sliding windows — one direction of a connection

    The abstract receiver of a sliding-window protocol keeps the set of the
    numbers it has taken and the end `ack` of the run of consecutive numbers
    that starts the stream.  A number is taken when it lies in the window past
    `ack`, and `ack` then moves to the end of the longest run.

    Then the abstract sliding window, seen from both of its ends at once.  The
    sender numbers its packets from `first + 1` on and may still change a packet
    that it has not sent; the receiver takes the numbers up to `ack` in order
    and holds some later ones.  `Sound` is what every operation of either end
    keeps; `SenderGrows` and `ReceiverGrows` say what an operation of one end
    means to the other. -/

/-! ## Reassembly of a numbered stream -/

namespace Reassembly

variable {β : Type}

structure Reassembler where
  ack : Nat
  received : Finset Nat
  deriving DecidableEq

/-- A finite set leaves a number out. -/
theorem exists_gap (received : Finset Nat) (ack : Nat) : ∃ k, ack + 1 + k ∉ received := by
  refine ⟨received.sup id, fun hmem => ?_⟩
  have hle : ack + 1 + received.sup id ≤ received.sup id := Finset.le_sup (f := id) hmem
  omega

/-- The end of the longest run of numbers of `received` right after `ack`. -/
def runEnd (received : Finset Nat) (ack : Nat) : Nat := ack + Nat.find (exists_gap received ack)

/-- The end of the run is the number before the first gap. -/
theorem runEnd_eq {received : Finset Nat} {ack e : Nat} (hle : ack ≤ e)
    (hrun : ∀ n, ack < n → n ≤ e → n ∈ received) (hgap : e + 1 ∉ received) :
    runEnd received ack = e := by
  have hfind : Nat.find (exists_gap received ack) = e - ack := by
    rw [Nat.find_eq_iff]
    refine ⟨by rwa [show ack + 1 + (e - ack) = e + 1 by omega], fun k hk => ?_⟩
    exact not_not.mpr (hrun _ (by omega) (by omega))
  unfold runEnd
  omega

/-- Take number `n` if it lies in the window, then advance. -/
def Reassembler.accept (r : Reassembler) (window n : Nat) : Reassembler :=
  let received := if r.ack < n ∧ n ≤ r.ack + window then insert n r.received else r.received
  { ack := runEnd received r.ack, received := received }

/-- A sequence of arrivals. -/
def Reassembler.run (r : Reassembler) (window : Nat) (arrivals : List Nat) : Reassembler :=
  arrivals.foldl (fun r n => r.accept window n) r

/-- The stream content of the numbers `a + 1, ..., e`. -/
def segment (P : Nat → List β) (a e : Nat) : List β :=
  (List.range (e - a)).flatMap (fun i => P (a + 1 + i))

/-- An empty stretch carries nothing. -/
theorem segment_self (P : Nat → List β) (a : Nat) : segment P a a = [] := by
  unfold segment
  rw [Nat.sub_self]
  rfl

/-- One number more carries one payload more. -/
theorem segment_succ (P : Nat → List β) {a e : Nat} (h : a ≤ e) :
    segment P a (e + 1) = segment P a e ++ P (e + 1) := by
  unfold segment
  rw [show e + 1 - a = e - a + 1 by omega, List.range_succ, List.flatMap_append,
    List.flatMap_singleton, show a + 1 + (e - a) = e + 1 by omega]

/-- A stretch only depends on the payloads inside it. -/
theorem segment_congr {P Q : Nat → List β} {a e : Nat} (h : ∀ n, a < n → n ≤ e → P n = Q n) :
    segment P a e = segment Q a e := by
  unfold segment
  refine List.flatMap_congr (fun i hi => ?_)
  have hlt := List.mem_range.mp hi
  exact h _ (by omega) (by omega)

/-- Two adjoining stretches are one. -/
theorem segment_append (P : Nat → List β) {a b c : Nat} (hab : a ≤ b) (hbc : b ≤ c) :
    segment P a b ++ segment P b c = segment P a c := by
  induction c, hbc using Nat.le_induction with
  | base => rw [segment_self, List.append_nil]
  | succ c hbc ih =>
      rw [segment_succ P hbc, segment_succ P (hab.trans hbc), ← List.append_assoc, ih]

end Reassembly

/-! ## Both ends of one direction -/

namespace SlidingWindow

open Reassembly

variable {β : Type}

structure Transfer (β : Type) where
  /-- what the packets carry -/
  content : Nat → List β
  /-- the number before the first packet -/
  first : Nat
  /-- the number of the next packet -/
  next : Nat
  /-- the number of the packet that ends the stream -/
  last : Option Nat
  sent : Set Nat
  /-- the end of what the receiver has taken in order -/
  ack : Nat
  /-- what it holds beyond -/
  held : Set Nat

/-- Has packet `n` arrived? -/
def Transfer.Received (t : Transfer β) (n : Nat) : Prop := n ≤ t.ack ∨ n ∈ t.held

/-- All that has been given to the sender. -/
def Transfer.said (t : Transfer β) : List β := segment t.content t.first (t.next - 1)

structure Sound (window : Nat) (t : Transfer β) : Prop where
  begun : t.first ≤ t.ack
  behind : t.ack < t.next
  near : t.next ≤ t.ack + 2 * window + 2
  inside : ∀ n ∈ t.sent, t.first < n ∧ n < t.next
  taken : ∀ n, t.first < n → n ≤ t.ack → n ∈ t.sent
  ahead : ∀ n ∈ t.held, t.ack < n ∧ n ≤ t.ack + window ∧ n ∈ t.sent
  closing : ∀ n, t.last = some n → t.first < n ∧ n + 1 = t.next ∧ t.content n = []

variable {window : Nat} {t t' t'' : Transfer β}

/-- Whatever has been taken in order is a prefix of what was said. -/
theorem Sound.segment_said (h : Sound window t) {e : Nat} (hfirst : t.first ≤ e)
    (he : e ≤ t.ack) : segment t.content t.first e <+: t.said := by
  have hle : e ≤ t.next - 1 := by
    have := h.behind
    omega
  exact ⟨segment t.content e (t.next - 1), segment_append t.content hfirst hle⟩

/-- Past the end of the stream nothing is sent. -/
theorem Sound.le_last (h : Sound window t) {n : Nat} (hlast : t.last = some n) :
    (∀ k ∈ t.sent, k ≤ n) ∧ t.ack ≤ n := by
  obtain ⟨-, hnext, -⟩ := h.closing n hlast
  constructor
  · intro k hk
    have := (h.inside k hk).2
    omega
  · have := h.behind
    omega

/-- Nothing has been said yet, and the first packet will be packet `n + 1`. -/
def Transfer.start (n : Nat) : Transfer β where
  content := fun _ => []
  first := n
  next := n + 1
  last := none
  sent := ∅
  ack := n
  held := ∅

/-- The start of a transfer is sound. -/
theorem Sound.start (window n : Nat) : Sound window (Transfer.start n : Transfer β) := by
  refine ⟨Nat.le_refl n, Nat.lt_succ_self n, ?_, fun k hk => hk.elim, fun k hk hle => ?_,
    fun k hk => hk.elim, fun k hk => nomatch hk⟩
  · show n + 1 ≤ n + 2 * window + 2
    omega
  · exact absurd hle (Nat.not_le.mpr hk)

/-- At the start nothing has been said. -/
theorem said_start (n : Nat) : (Transfer.start n : Transfer β).said = [] := segment_self _ n

/-! ## The operations of the sender -/

/-- One more packet. -/
def Transfer.push (t : Transfer β) (data : List β) : Transfer β :=
  { t with content := Function.update t.content t.next data, next := t.next + 1 }

/-- The last packet grows. -/
def Transfer.extend (t : Transfer β) (data : List β) : Transfer β :=
  { t with
    content := Function.update t.content (t.next - 1) (t.content (t.next - 1) ++ data) }

/-- The packet that ends the stream. -/
def Transfer.finish (t : Transfer β) : Transfer β := { t.push [] with last := some t.next }

/-- Packet `n` goes out. -/
def Transfer.send (t : Transfer β) (n : Nat) : Transfer β := { t with sent := insert n t.sent }

/-- A new packet is said after everything before it. -/
theorem said_push (h : Sound window t) (data : List β) : (t.push data).said = t.said ++ data := by
  have hbegun := h.begun
  have hbehind := h.behind
  have hsplit := segment_succ (Function.update t.content t.next data) (a := t.first)
    (e := t.next - 1) (by omega)
  rw [show t.next - 1 + 1 = t.next by omega, Function.update_self] at hsplit
  have hsame : segment (Function.update t.content t.next data) t.first (t.next - 1)
      = segment t.content t.first (t.next - 1) :=
    segment_congr (fun n _ hle => Function.update_of_ne (by omega) ..)
  rw [hsame] at hsplit
  exact hsplit

/-- Bytes added to the last packet are said after everything before them. -/
theorem said_extend (hold : t.first + 1 < t.next) (data : List β) :
    (t.extend data).said = t.said ++ data := by
  have hlast : t.next - 1 = t.next - 2 + 1 := by omega
  have hle : t.first ≤ t.next - 2 := by omega
  have hsame : segment (t.extend data).content t.first (t.next - 2)
      = segment t.content t.first (t.next - 2) :=
    segment_congr (fun n _ hn => Function.update_of_ne (by omega) ..)
  have hnew : (t.extend data).content (t.next - 2 + 1) = t.content (t.next - 2 + 1) ++ data := by
    show Function.update t.content (t.next - 1) _ (t.next - 2 + 1) = _
    rw [← hlast, Function.update_self]
  calc (t.extend data).said
      = segment (t.extend data).content t.first (t.next - 2 + 1) := by rw [← hlast]; rfl
    _ = segment t.content t.first (t.next - 2) ++ (t.content (t.next - 2 + 1) ++ data) := by
        rw [segment_succ _ hle, hsame, hnew]
    _ = t.said ++ data := by
        unfold Transfer.said
        rw [hlast, segment_succ _ hle, List.append_assoc]

/-- The end carries no bytes. -/
theorem said_finish (h : Sound window t) : t.finish.said = t.said :=
  (said_push h []).trans (List.append_nil _)

/-- The sender may queue a packet as long as the receiver can tell its number
    from those it still expects. -/
theorem Sound.push (h : Sound window t) (data : List β) (hopen : t.last = none)
    (hroom : t.next + 1 ≤ t.ack + 2 * window + 2) : Sound window (t.push data) := by
  refine ⟨h.begun, Nat.lt_succ_of_lt h.behind, hroom, fun n hn => ?_, h.taken, h.ahead,
    fun n hn => ?_⟩
  · exact ⟨(h.inside n hn).1, Nat.lt_succ_of_lt (h.inside n hn).2⟩
  · exact nomatch hopen.symm.trans hn

/-- The sender may extend its last packet before it is sent. -/
theorem Sound.extend (h : Sound window t) (data : List β) (hopen : t.last = none) :
    Sound window (t.extend data) :=
  ⟨h.begun, h.behind, h.near, h.inside, h.taken, h.ahead,
    fun _ hn => nomatch hopen.symm.trans hn⟩

/-- The sender may end the stream once. -/
theorem Sound.finish (h : Sound window t) (hroom : t.next + 1 ≤ t.ack + 2 * window + 2) :
    Sound window t.finish := by
  refine ⟨h.begun, Nat.lt_succ_of_lt h.behind, hroom, fun n hn => ?_, h.taken, h.ahead,
    fun n hn => ?_⟩
  · exact ⟨(h.inside n hn).1, Nat.lt_succ_of_lt (h.inside n hn).2⟩
  · obtain rfl := Option.some.inj hn
    exact ⟨Nat.lt_of_le_of_lt h.begun h.behind, rfl, Function.update_self ..⟩

/-- The sender may send what is queued, again and again. -/
theorem Sound.send (h : Sound window t) {n : Nat} (hlo : t.first < n) (hhi : n < t.next) :
    Sound window (t.send n) := by
  refine ⟨h.begun, h.behind, h.near, fun k hk => ?_,
    fun k hk hle => Set.mem_insert_of_mem n (h.taken k hk hle), fun k hk => ?_, h.closing⟩
  · rcases Set.mem_insert_iff.mp hk with rfl | hk
    · exact ⟨hlo, hhi⟩
    · exact h.inside k hk
  · obtain ⟨h₁, h₂, h₃⟩ := h.ahead k hk
    exact ⟨h₁, h₂, Set.mem_insert_of_mem n h₃⟩

/-! ## The operations of the receiver -/

/-- The next packet is taken, from the network or from what is held. -/
def Transfer.take (t : Transfer β) : Transfer β :=
  { t with ack := t.ack + 1, held := t.held \ {t.ack + 1} }

/-- Packet `n` is held. -/
def Transfer.store (t : Transfer β) (n : Nat) : Transfer β := { t with held := insert n t.held }

/-- The receiver may take the number it expects if it was sent. -/
theorem Sound.take (h : Sound window t) (hsent : t.ack + 1 ∈ t.sent) :
    Sound window t.take := by
  refine ⟨Nat.le_succ_of_le h.begun, (h.inside _ hsent).2, ?_, h.inside, fun n hn hle => ?_,
    fun n hn => ?_, h.closing⟩
  · have := h.near
    show t.next ≤ t.ack + 1 + 2 * window + 2
    omega
  · rcases Nat.lt_or_eq_of_le hle with hlt | rfl
    · exact h.taken n hn (Nat.le_of_lt_succ hlt)
    · exact hsent
  · obtain ⟨h₁, h₂, h₃⟩ := h.ahead n hn.1
    have hne : n ≠ t.ack + 1 := hn.2
    refine ⟨?_, ?_, h₃⟩
    · show t.ack + 1 < n
      omega
    · show n ≤ t.ack + 1 + window
      omega

/-- The receiver may keep a number inside its window if it was sent. -/
theorem Sound.store (h : Sound window t) {n : Nat} (hlo : t.ack < n) (hhi : n ≤ t.ack + window)
    (hsent : n ∈ t.sent) : Sound window (t.store n) := by
  refine ⟨h.begun, h.behind, h.near, h.inside, h.taken, fun k hk => ?_, h.closing⟩
  rcases Set.mem_insert_iff.mp hk with rfl | hk
  · exact ⟨hlo, hhi, hsent⟩
  · exact h.ahead k hk

/-! ## What one end sees of the other -/

/-- What the receiver sees of the sender's operations. -/
structure SenderGrows (t t' : Transfer β) : Prop where
  first : t'.first = t.first
  ack : t'.ack = t.ack
  held : t'.held = t.held
  next : t.next ≤ t'.next
  sent : t.sent ⊆ t'.sent
  content : ∀ n ∈ t.sent, t'.content n = t.content n
  last : ∀ n, t.last = some n → t'.last = some n
  lastNew : ∀ n, t'.last = some n → n < t.next → t.last = some n

namespace SenderGrows

theorem refl (t : Transfer β) : SenderGrows t t :=
  ⟨rfl, rfl, rfl, Nat.le_refl _, Set.Subset.rfl, fun _ _ => rfl, fun _ h => h, fun _ h _ => h⟩

theorem trans (h : SenderGrows t t') (h' : SenderGrows t' t'') : SenderGrows t t'' := by
  refine ⟨h'.first.trans h.first, h'.ack.trans h.ack, h'.held.trans h.held,
    h.next.trans h'.next, h.sent.trans h'.sent, fun n hn => ?_,
    fun n hn => h'.last n (h.last n hn), fun n hn hlt => ?_⟩
  · rw [h'.content n (h.sent hn), h.content n hn]
  · exact h.lastNew n (h'.lastNew n hn (Nat.lt_of_lt_of_le hlt h.next)) hlt

/-- The sender cannot change what was received. -/
theorem received (h : SenderGrows t t') {n : Nat} : t'.Received n ↔ t.Received n := by
  unfold Transfer.Received
  rw [h.ack, h.held]

/-- A new packet leaves those before it. -/
theorem push (h : Sound window t) (data : List β) : SenderGrows t (t.push data) := by
  refine ⟨rfl, rfl, rfl, Nat.le_succ _, Set.Subset.rfl, fun n hn => ?_, fun _ hn => hn,
    fun _ hn _ => hn⟩
  exact Function.update_of_ne (Nat.ne_of_lt (h.inside n hn).2) ..

/-- An extended packet has not been sent yet. -/
theorem extend (data : List β) (hunsent : t.next - 1 ∉ t.sent) :
    SenderGrows t (t.extend data) := by
  refine ⟨rfl, rfl, rfl, Nat.le_refl _, Set.Subset.rfl, fun n hn => ?_, fun _ hn => hn,
    fun _ hn _ => hn⟩
  refine Function.update_of_ne ?_ ..
  rintro rfl
  exact hunsent hn

/-- The end leaves all packets. -/
theorem finish (h : Sound window t) (hopen : t.last = none) : SenderGrows t t.finish := by
  refine ⟨rfl, rfl, rfl, Nat.le_succ _, Set.Subset.rfl, fun n hn => ?_, fun n hn => ?_,
    fun n hn hlt => ?_⟩
  · exact Function.update_of_ne (Nat.ne_of_lt (h.inside n hn).2) ..
  · exact nomatch hopen.symm.trans hn
  · obtain rfl := Option.some.inj hn
    exact absurd hlt (Nat.lt_irrefl _)

/-- Sending leaves all packets. -/
theorem send (t : Transfer β) (n : Nat) : SenderGrows t (t.send n) :=
  ⟨rfl, rfl, rfl, Nat.le_refl _, Set.subset_insert n t.sent, fun _ _ => rfl, fun _ h => h,
    fun _ h _ => h⟩

end SenderGrows

/-- What the sender sees of the receiver's operations. -/
structure ReceiverGrows (t t' : Transfer β) : Prop where
  content : t'.content = t.content
  first : t'.first = t.first
  next : t'.next = t.next
  last : t'.last = t.last
  sent : t'.sent = t.sent
  ack : t.ack ≤ t'.ack
  received : ∀ n, t.Received n → t'.Received n

namespace ReceiverGrows

theorem refl (t : Transfer β) : ReceiverGrows t t :=
  ⟨rfl, rfl, rfl, rfl, rfl, Nat.le_refl _, fun _ h => h⟩

theorem trans (h : ReceiverGrows t t') (h' : ReceiverGrows t' t'') : ReceiverGrows t t'' :=
  ⟨h'.content.trans h.content, h'.first.trans h.first, h'.next.trans h.next,
    h'.last.trans h.last, h'.sent.trans h.sent, h.ack.trans h'.ack,
    fun n hn => h'.received n (h.received n hn)⟩

theorem take (t : Transfer β) : ReceiverGrows t t.take := by
  refine ⟨rfl, rfl, rfl, rfl, rfl, Nat.le_succ _, fun n hn => ?_⟩
  rcases hn with hle | hheld
  · exact .inl (Nat.le_succ_of_le hle)
  · by_cases hnext : n = t.ack + 1
    · exact .inl (Nat.le_of_eq hnext)
    · exact .inr ⟨hheld, hnext⟩

theorem store (t : Transfer β) (n : Nat) : ReceiverGrows t (t.store n) :=
  ⟨rfl, rfl, rfl, rfl, rfl, Nat.le_refl _, fun _ hk => hk.imp id (Set.mem_insert_of_mem n)⟩

/-- The receiver cannot change what was said. -/
theorem said (h : ReceiverGrows t t') : t'.said = t.said := by
  unfold Transfer.said
  rw [h.content, h.first, h.next]

end ReceiverGrows

/-! ## What is complete -/

/-- The next packet is not held back: all that is held came after a gap. -/
theorem Sound.gap (h : Sound window t) (hgap : t.ack + 1 ∉ t.held) {lo : Nat}
    (hlo : ∀ n, t.first < n → n < lo → t.Received n) : lo ≤ t.ack + 1 := by
  by_contra hgt
  have hbegun := h.begun
  rcases hlo (t.ack + 1) (by omega) (by omega) with hle | hheld
  · omega
  · exact hgap hheld

/-- When everything has arrived, everything has been taken. -/
theorem Sound.complete (h : Sound window t) (hgap : t.ack + 1 ∉ t.held)
    (hall : ∀ n, t.first < n → n < t.next → t.Received n) :
    segment t.content t.first t.ack = t.said := by
  have hle := h.gap hgap hall
  have hbehind := h.behind
  unfold Transfer.said
  rw [show t.next - 1 = t.ack by omega]

/-- When the end of the stream has been taken, so has all that was said. -/
theorem Sound.ended (h : Sound window t) (hlast : t.last = some t.ack) :
    t.ack + 1 = t.next ∧ segment t.content t.first t.ack = t.said := by
  obtain ⟨-, hnext, -⟩ := h.closing _ hlast
  refine ⟨hnext, ?_⟩
  unfold Transfer.said
  rw [show t.next - 1 = t.ack by omega]

/-- After that nothing more is said. -/
theorem SenderGrows.final (hgrow : SenderGrows t t') (h : Sound window t) (h' : Sound window t')
    (hlast : t.last = some t.ack) : t'.said = t.said := by
  have hend : t'.last = some t'.ack := by
    rw [hgrow.ack]
    exact hgrow.last _ hlast
  rw [← (h.ended hlast).2, ← (h'.ended hend).2, hgrow.ack, hgrow.first]
  exact segment_congr (fun n hlo hhi => hgrow.content n (h.taken n hlo hhi))

end SlidingWindow
