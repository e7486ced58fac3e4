import Mathlib.Data.Nat.ModEq
import Mathlib.Data.Nat.Bitwise
import Mathlib.Data.List.GetD
import Mathlib.Tactic.Ring

/-! # The circular buffer — a power-of-two ring indexed by wrapping numbers

    `CircularBuffer` is the ring under both the send queue and the reorder
    buffer.  The mask is a power of two minus one and the slot vector has
    exactly `mask + 1` entries; both facts are fields, so a ring of any other
    shape cannot be written down.

    Everything after the definitions goes through three facts: `get_put`,
    `get_ensureSize_live` (growing keeps the live window) and
    `get_ensureSize_fresh` (growing adds empty slots only).  No later module
    looks at `slots` again. -/

namespace UtpCircular

/-- `usize::wrapping_sub` on a 64-bit target. -/
def wrappingSub64 (a b : Nat) : Nat := (a + (2 ^ 64 - b % 2 ^ 64)) % 2 ^ 64

/-- `usize::wrapping_add` on a 64-bit target. -/
def wrappingAdd64 (a b : Nat) : Nat := (a + b) % 2 ^ 64

/-- The ring: `mask` is always a power of 2 minus one; size is `mask + 1`. -/
structure CircularBuffer (α : Type) where
  mask : Nat
  slots : List (Option α)
  hpow : ∃ k, mask + 1 = 2 ^ k
  hlen : slots.length = mask + 1

namespace CircularBuffer

variable {α : Type}

def new : CircularBuffer α where
  mask := 15
  slots := List.replicate 16 none
  hpow := ⟨4, rfl⟩
  hlen := rfl

def size (b : CircularBuffer α) : Nat := b.mask + 1

def get (b : CircularBuffer α) (i : Nat) : Option α :=
  b.slots.getD (i &&& b.mask) none

def put (b : CircularBuffer α) (i : Nat) (v : Option α) : CircularBuffer α where
  mask := b.mask
  slots := b.slots.set (i &&& b.mask) v
  hpow := b.hpow
  hlen := by rw [List.length_set]; exact b.hlen

/-- `take` empties the slot and hands its content back. -/
def take (b : CircularBuffer α) (i : Nat) : Option α × CircularBuffer α :=
  (b.get i, b.put i none)

/-- The doubling loop of `grow`.  Every round doubles a positive size, so
    `index + 1` rounds are always enough (`index_lt_growSize`). -/
def growSize : Nat → Nat → Nat → Nat
  | 0, size, _ => size * 2
  | fuel + 1, size, index =>
      if index < size * 2 then size * 2 else growSize fuel (size * 2) index

/-- The copy loop of `grow`: slot `src & mask` of the old ring becomes slot
    `src & newMask` of the new one. -/
def rehome (b : CircularBuffer α) (base newMask : Nat) :
    Nat → List (Option α) → List (Option α)
  | 0, new => new
  | n + 1, new =>
      let src := wrappingAdd64 base n
      (rehome b base newMask n new).set (src &&& newMask) (b.get src)

/-- Moving entries over writes into the new slots and adds none. -/
theorem length_rehome (b : CircularBuffer α) (base newMask : Nat) :
    ∀ (n : Nat) (new : List (Option α)),
      (b.rehome base newMask n new).length = new.length := by
  intro n new
  induction n with
  | zero => rfl
  | succ n ih =>
      show ((b.rehome base newMask n new).set _ _).length = new.length
      rw [List.length_set, ih]

/-- Doubling a power of two gives a power of two. -/
theorem growSize_pow (fuel : Nat) :
    ∀ (size index : Nat), (∃ k, size = 2 ^ k) →
      ∃ k, growSize fuel size index = 2 ^ k := by
  induction fuel with
  | zero =>
      rintro size index ⟨k, rfl⟩
      exact ⟨k + 1, (pow_succ 2 k).symm⟩
  | succ fuel ih =>
      rintro size index ⟨k, rfl⟩
      have hdouble : (2 : Nat) ^ k * 2 = 2 ^ (k + 1) := (pow_succ 2 k).symm
      by_cases h : index < 2 ^ k * 2
      · exact ⟨k + 1, by rw [growSize, if_pos h, hdouble]⟩
      · obtain ⟨j, hj⟩ := ih (2 ^ k * 2) index ⟨k + 1, hdouble⟩
        exact ⟨j, by rw [growSize, if_neg h, hj]⟩

/-- Doubling leaves no empty ring. -/
theorem growSize_pos (fuel size index : Nat) (h : 0 < size) :
    0 < growSize fuel size index := by
  induction fuel generalizing size with
  | zero => show 0 < size * 2; omega
  | succ fuel ih =>
      rw [growSize]
      by_cases hlt : index < size * 2
      · rw [if_pos hlt]; omega
      · rw [if_neg hlt]; exact ih (size * 2) (by omega)

def grow (b : CircularBuffer α) (item index : Nat) : CircularBuffer α where
  mask := growSize (index + 1) (b.mask + 1) index - 1
  slots :=
    b.rehome (wrappingSub64 item index)
      (growSize (index + 1) (b.mask + 1) index - 1) (b.mask + 1)
      (List.replicate (growSize (index + 1) (b.mask + 1) index) none)
  hpow := by
    have hpos := growSize_pos (index + 1) (b.mask + 1) index (Nat.succ_pos _)
    obtain ⟨k, hk⟩ := growSize_pow (index + 1) (b.mask + 1) index b.hpow
    exact ⟨k, by omega⟩
  hlen := by
    have hpos := growSize_pos (index + 1) (b.mask + 1) index (Nat.succ_pos _)
    rw [length_rehome, List.length_replicate]
    omega

/-- Make room for `item`, which lies `index` past the start of the live
    window. -/
def ensureSize (b : CircularBuffer α) (item index : Nat) : CircularBuffer α :=
  if index > b.mask then b.grow item index else b

/-! ## Reading after writing -/

/-- A ring has a slot. -/
theorem size_pos (b : CircularBuffer α) : 0 < b.size := Nat.succ_pos _

/-- The size is a power of two, as the mask says. -/
theorem size_pow (b : CircularBuffer α) : ∃ k, b.size = 2 ^ k := b.hpow

/-- Masking is taking the remainder. -/
theorem and_mask (b : CircularBuffer α) (i : Nat) : i &&& b.mask = i % b.size := by
  obtain ⟨k, hk⟩ := b.hpow
  have hm : b.mask = 2 ^ k - 1 := by omega
  show i &&& b.mask = i % (b.mask + 1)
  rw [hk, hm, Nat.and_two_pow_sub_one_eq_mod]

/-- An index is read modulo the size. -/
theorem get_eq (b : CircularBuffer α) (i : Nat) :
    b.get i = b.slots.getD (i % b.size) none := by
  rw [get, and_mask]

/-- Indices that agree modulo the size read the same slot. -/
@[simp] theorem get_mod (b : CircularBuffer α) (i : Nat) :
    b.get (i % b.size) = b.get i := by
  rw [get_eq, get_eq, Nat.mod_mod]

/-- Two indices that alias read the same slot. -/
theorem get_congr (b : CircularBuffer α) {i j : Nat} (h : i % b.size = j % b.size) :
    b.get i = b.get j := by
  rw [get_eq, get_eq, h]

/-- Writing keeps the size. -/
@[simp] theorem size_put (b : CircularBuffer α) (i : Nat) (v : Option α) :
    (b.put i v).size = b.size := rfl

/-- A new ring is empty. -/
@[simp] theorem get_new (i : Nat) : (new : CircularBuffer α).get i = none := by
  rw [get_eq]
  show (List.replicate 16 none).getD (i % 16) none = none
  have h : i % 16 < 16 := Nat.mod_lt _ (by decide)
  rw [List.getD_eq_getElem _ _ (by rw [List.length_replicate]; exact h),
    List.getElem_replicate]

@[simp] theorem size_new : (new : CircularBuffer α).size = 16 := rfl

/-- What is read after a write, slot by slot. -/
theorem get_put (b : CircularBuffer α) (i j : Nat) (v : Option α) :
    (b.put i v).get j = if i % b.size = j % b.size then v else b.get j := by
  have hj : j % b.size < b.slots.length := by
    rw [b.hlen]; exact Nat.mod_lt _ b.size_pos
  rw [get_eq, get_eq, size_put]
  show (b.slots.set (i &&& b.mask) v).getD (j % b.size) none = _
  rw [and_mask, List.getD_eq_getElem _ _ (by rw [List.length_set]; exact hj),
    List.getD_eq_getElem _ _ hj, List.getElem_set]

theorem get_put_self (b : CircularBuffer α) (i : Nat) (v : Option α) :
    (b.put i v).get i = v := by
  rw [get_put, if_pos rfl]

theorem get_put_of_ne (b : CircularBuffer α) {i j : Nat} (v : Option α)
    (h : i % b.size ≠ j % b.size) : (b.put i v).get j = b.get j := by
  rw [get_put, if_neg h]

/-- Taking reads the slot. -/
@[simp] theorem take_fst (b : CircularBuffer α) (i : Nat) :
    (b.take i).1 = b.get i := rfl

@[simp] theorem take_snd (b : CircularBuffer α) (i : Nat) :
    (b.take i).2 = b.put i none := rfl

/-! ## Growing

    `grow` rehomes the old slots under a larger mask.  The window it keeps
    starts at `item - index`; any number `lo` that agrees with it modulo the
    new size names the same window, which is how callers with 16-bit and with
    unwrapped numbers use one statement. -/

/-- The new size has room for the index, if there is fuel enough to double. -/
theorem lt_growSize (fuel : Nat) :
    ∀ (size index : Nat), 0 < size → index < size * 2 ^ (fuel + 1) →
      index < growSize fuel size index := by
  induction fuel with
  | zero => intro size index _ h; simpa [growSize] using h
  | succ fuel ih =>
      intro size index hpos h
      rw [growSize]
      by_cases hlt : index < size * 2
      · rw [if_pos hlt]; exact hlt
      · rw [if_neg hlt]
        refine ih (size * 2) index (by omega) ?_
        have : size * 2 ^ (fuel + 1 + 1) = size * 2 * 2 ^ (fuel + 1) := by ring
        omega

/-- The size at most doubles beyond what is asked for. -/
theorem growSize_le (fuel : Nat) :
    ∀ (size index : Nat), size ≤ index → growSize fuel size index ≤ 2 * index := by
  induction fuel with
  | zero => intro size index h; show size * 2 ≤ 2 * index; omega
  | succ fuel ih =>
      intro size index h
      rw [growSize]
      by_cases hlt : index < size * 2
      · rw [if_pos hlt]; omega
      · rw [if_neg hlt]; exact ih (size * 2) index (by omega)

/-- Doubling does not shrink. -/
theorem le_growSize (fuel : Nat) :
    ∀ (size index : Nat), size ≤ growSize fuel size index := by
  induction fuel with
  | zero => intro size index; show size ≤ size * 2; omega
  | succ fuel ih =>
      intro size index
      rw [growSize]
      by_cases hlt : index < size * 2
      · rw [if_pos hlt]; omega
      · rw [if_neg hlt]; exact le_trans (by omega) (ih (size * 2) index)

/-- The size after growing. -/
theorem size_grow (b : CircularBuffer α) (item index : Nat) :
    (b.grow item index).size = growSize (index + 1) (b.mask + 1) index := by
  have hpos := growSize_pos (index + 1) (b.mask + 1) index (Nat.succ_pos _)
  show growSize (index + 1) (b.mask + 1) index - 1 + 1 = _
  omega

/-- A ring does not shrink. -/
theorem size_le_size_ensureSize (b : CircularBuffer α) (item index : Nat) :
    b.size ≤ (b.ensureSize item index).size := by
  rw [ensureSize]
  by_cases h : index > b.mask
  · rw [if_pos h, size_grow]; exact le_growSize _ _ _
  · rw [if_neg h]

/-- **ROOM**: after `ensureSize` the size exceeds the index. -/
theorem index_lt_size_ensureSize (b : CircularBuffer α) (item index : Nat) :
    index < (b.ensureSize item index).size := by
  rw [ensureSize]
  by_cases h : index > b.mask
  · rw [if_pos h, size_grow]
    refine lt_growSize _ _ _ (Nat.succ_pos _) ?_
    have h2 : index + 1 < 2 ^ (index + 1) := Nat.lt_two_pow_self
    have h3 : 2 ^ (index + 1) ≤ (b.mask + 1) * 2 ^ (index + 1 + 1) := by
      calc 2 ^ (index + 1) ≤ 2 ^ (index + 1 + 1) :=
            Nat.pow_le_pow_right (by decide) (Nat.le_succ _)
        _ ≤ (b.mask + 1) * 2 ^ (index + 1 + 1) :=
            Nat.le_mul_of_pos_left _ (Nat.succ_pos _)
    omega
  · rw [if_neg h]
    show index < b.mask + 1
    omega

/-- Growing overshoots by less than a factor of two. -/
theorem size_ensureSize_le (b : CircularBuffer α) (item index bound : Nat)
    (hb : b.size ≤ bound) (hi : 2 * index ≤ bound) :
    (b.ensureSize item index).size ≤ bound := by
  rw [ensureSize]
  by_cases h : index > b.mask
  · rw [if_pos h, size_grow]
    exact le_trans (growSize_le _ _ _ h) hi
  · rw [if_neg h]; exact hb

/-- A ring no larger than a power of two divides it. -/
theorem size_dvd (b : CircularBuffer α) {K : Nat} (h : b.size ≤ 2 ^ K) :
    b.size ∣ 2 ^ K := by
  obtain ⟨k, hk⟩ := b.size_pow
  rw [hk] at h ⊢
  exact pow_dvd_pow 2 ((Nat.pow_le_pow_iff_right (by decide)).mp h)

/-- The old size divides the new one, so entries that were apart stay apart. -/
theorem size_dvd_size_ensureSize (b : CircularBuffer α) (item index : Nat) :
    b.size ∣ (b.ensureSize item index).size := by
  obtain ⟨k, hk⟩ := (b.ensureSize item index).size_pow
  rw [hk]
  exact b.size_dvd (hk ▸ b.size_le_size_ensureSize item index)

/-- Two numbers less than `N` apart use different slots. -/
theorem mod_ne_of_lt {N i j : Nat} (base : Nat) (hi : i < N) (hj : j < N)
    (hne : i ≠ j) : (base + i) % N ≠ (base + j) % N := by
  intro h
  have hcongr : i ≡ j [MOD N] := Nat.ModEq.add_left_cancel' base h
  exact hne (Nat.ModEq.eq_of_lt_of_lt hcongr hi hj)

/-- The copy loop, slot by slot: the first `n` slots of the window hold the
    old content, all others what the fresh vector held. -/
theorem getD_rehome (b : CircularBuffer α) (base N : Nat) (hle : b.size ≤ N)
    (hdvd : b.size ∣ N) (hN : ∃ k, N = 2 ^ k) (h64 : N ∣ 2 ^ 64)
    (new : List (Option α)) (hnew : new.length = N) {j : Nat} (hj : j < N) :
    ∀ n, n ≤ b.size →
      (b.rehome base (N - 1) n new).getD ((base + j) % N) none
        = if j < n then b.get (base + j) else new.getD ((base + j) % N) none := by
  have hpos : 0 < N := by omega
  have hslot : (base + j) % N < N := Nat.mod_lt _ hpos
  have hand : ∀ i, i &&& (N - 1) = i % N := by
    obtain ⟨k, rfl⟩ := hN
    intro i
    rw [Nat.and_two_pow_sub_one_eq_mod]
  intro n
  induction n with
  | zero => intro _; rw [if_neg (by omega)]; rfl
  | succ n ih =>
      intro hn
      have hlen : (b.rehome base (N - 1) n new).length = N := by
        rw [length_rehome, hnew]
      have hsrc : wrappingAdd64 base n &&& (N - 1) = (base + n) % N := by
        rw [hand, wrappingAdd64, Nat.mod_mod_of_dvd _ h64]
      have hget : b.get (wrappingAdd64 base n) = b.get (base + n) := by
        apply b.get_congr
        rw [wrappingAdd64, Nat.mod_mod_of_dvd _ (dvd_trans hdvd h64)]
      show ((b.rehome base (N - 1) n new).set (wrappingAdd64 base n &&& (N - 1))
        (b.get (wrappingAdd64 base n))).getD ((base + j) % N) none = _
      rw [hsrc, hget, List.getD_eq_getElem _ _ (by rw [List.length_set, hlen]; exact hslot),
        List.getElem_set]
      by_cases hnj : n = j
      · subst hnj
        rw [if_pos rfl, if_pos (Nat.lt_succ_self n)]
      · rw [if_neg (mod_ne_of_lt base (by omega) hj hnj),
          ← List.getD_eq_getElem _ none (by rw [hlen]; exact hslot), ih (by omega)]
        by_cases hjn : j < n
        · rw [if_pos hjn, if_pos (by omega)]
        · rw [if_neg hjn, if_neg (by omega)]

/-- **GROWING KEEPS THE ENTRIES** of a stretch of numbers as long as the old
    ring, and leaves the rest empty. -/
theorem get_grow (b : CircularBuffer α) (item index : Nat)
    (hgrow : b.mask < index) (hidx : index ≤ 65535) {lo j : Nat}
    (hlo : (lo + index) % (b.grow item index).size = item % (b.grow item index).size)
    (hj : j < (b.grow item index).size) :
    (b.grow item index).get (lo + j) = if j < b.size then b.get (lo + j) else none := by
  have hsize := b.size_grow item index
  have hpow := (b.grow item index).size_pow
  have hdvd : b.size ∣ (b.grow item index).size := by
    have := b.size_dvd_size_ensureSize item index
    rwa [ensureSize, if_pos hgrow] at this
  have hbig : (b.grow item index).size ≤ 2 ^ 64 := by
    rw [hsize]
    exact le_trans (growSize_le _ _ _ hgrow) (by omega)
  have h64 := (b.grow item index).size_dvd hbig
  have hbase : wrappingSub64 item index % (b.grow item index).size
      = lo % (b.grow item index).size := by
    have hsub : wrappingSub64 item index + index ≡ lo + index
        [MOD (b.grow item index).size] := by
      have h1 : wrappingSub64 item index + index ≡ item [MOD 2 ^ 64] := by
        unfold Nat.ModEq wrappingSub64
        omega
      exact (h1.of_dvd h64).trans hlo.symm
    exact Nat.ModEq.add_right_cancel' index hsub
  have hshift : ∀ i, (wrappingSub64 item index + i) % (b.grow item index).size
      = (lo + i) % (b.grow item index).size := fun i => Nat.ModEq.add_right i hbase
  rw [(b.grow item index).get_eq, ← hshift]
  have hre := b.getD_rehome (wrappingSub64 item index) (b.grow item index).size
    (Nat.le_of_dvd (b.grow item index).size_pos hdvd) hdvd hpow h64
    (List.replicate (b.grow item index).size none) (List.length_replicate ..) hj
    b.size (le_refl _)
  have hslots : (b.grow item index).slots
      = b.rehome (wrappingSub64 item index) ((b.grow item index).size - 1) b.size
          (List.replicate (b.grow item index).size none) := by
    rw [hsize]; rfl
  rw [hslots, hre]
  have hold : b.get (wrappingSub64 item index + j) = b.get (lo + j) := by
    apply b.get_congr
    exact (Nat.ModEq.of_dvd hdvd (hshift j))
  have hfresh : (List.replicate (b.grow item index).size (none : Option α)).getD
      ((wrappingSub64 item index + j) % (b.grow item index).size) none = none := by
    rw [List.getD_eq_getElem _ _ (by
      rw [List.length_replicate]; exact Nat.mod_lt _ (b.grow item index).size_pos),
      List.getElem_replicate]
  rw [hold, hfresh]

/-- **GROWING KEEPS THE LIVE WINDOW**: every index within one old size of the
    window start still resolves to its entry. -/
theorem get_ensureSize_live (b : CircularBuffer α) (item index : Nat)
    (hidx : index ≤ 65535) {lo j : Nat}
    (hlo : (lo + index) % (b.ensureSize item index).size
      = item % (b.ensureSize item index).size)
    (hj : j < b.size) :
    (b.ensureSize item index).get (lo + j) = b.get (lo + j) := by
  by_cases h : b.mask < index
  · have hE : b.ensureSize item index = b.grow item index := if_pos h
    rw [hE] at hlo ⊢
    have hle := b.size_le_size_ensureSize item index
    rw [hE] at hle
    rw [b.get_grow item index h hidx hlo (by omega), if_pos hj]
  · rw [show b.ensureSize item index = b from if_neg h]

/-- **GROWING ADDS EMPTY SLOTS ONLY**. -/
theorem get_ensureSize_fresh (b : CircularBuffer α) (item index : Nat)
    (hidx : index ≤ 65535) {lo j : Nat}
    (hlo : (lo + index) % (b.ensureSize item index).size
      = item % (b.ensureSize item index).size)
    (hold : b.size ≤ j) (hj : j < (b.ensureSize item index).size) :
    (b.ensureSize item index).get (lo + j) = none := by
  by_cases h : b.mask < index
  · have hE : b.ensureSize item index = b.grow item index := if_pos h
    rw [hE] at hlo hj ⊢
    rw [b.get_grow item index h hidx hlo hj, if_neg (by omega)]
  · rw [show b.ensureSize item index = b from if_neg h] at hj
    omega

/-! ## Two rings with related slots

    Where an entry is stored does not depend on what it is. -/

section Related

variable {β : Type} {R : Option α → Option β → Prop}

/-- Related lists stay related when related entries are written at one place. -/
theorem getD_set_rel {l : List (Option α)} {l' : List (Option β)} (hlen : l'.length = l.length)
    (h : ∀ i, R (l.getD i none) (l'.getD i none)) (i : Nat) {v : Option α} {v' : Option β}
    (hv : R v v') (j : Nat) : R ((l.set i v).getD j none) ((l'.set i v').getD j none) := by
  have hj := h j
  simp only [List.getD_eq_getElem?_getD, List.getElem?_set] at hj ⊢
  rw [hlen]
  by_cases hij : i = j
  · by_cases hlt : i < l.length
    · simpa [hij, hij ▸ hlt] using hv
    · have hge : l.length ≤ j := by omega
      rw [if_pos hij, if_neg hlt, if_pos hij, if_neg hlt]
      rwa [List.getElem?_eq_none hge, List.getElem?_eq_none (by omega)] at hj
  · rw [if_neg hij, if_neg hij]
    exact hj

theorem put_rel {b : CircularBuffer α} {b' : CircularBuffer β} (hsize : b'.size = b.size)
    (h : ∀ n, R (b.get n) (b'.get n)) (i : Nat) {v : Option α} {v' : Option β} (hv : R v v')
    (n : Nat) : R ((b.put i v).get n) ((b'.put i v').get n) := by
  rw [get_put, get_put, hsize]
  split
  · exact hv
  · exact h n

/-- And so do the entries that are moved over. The induction is on their count.
    -/
theorem rehome_rel {b : CircularBuffer α} {b' : CircularBuffer β}
    (h : ∀ n, R (b.get n) (b'.get n)) (hnone : R none none) (base newMask N : Nat) :
    ∀ n j, R ((b.rehome base newMask n (List.replicate N none)).getD j none)
      ((b'.rehome base newMask n (List.replicate N none)).getD j none) := by
  intro n
  induction n with
  | zero =>
      intro j
      have hempty : ∀ {γ : Type}, (List.replicate N (none : Option γ)).getD j none = none := by
        intro γ
        rw [List.getD_eq_getElem?_getD, List.getElem?_replicate]
        split <;> rfl
      show R ((List.replicate N none).getD j none) ((List.replicate N none).getD j none)
      rw [hempty, hempty]
      exact hnone
  | succ n ih =>
      intro j
      refine getD_set_rel ?_ ih _ (h _) j
      rw [length_rehome, length_rehome, List.length_replicate, List.length_replicate]

/-- **TWO RELATED RINGS GROW ALIKE.** -/
theorem ensureSize_rel {b : CircularBuffer α} {b' : CircularBuffer β} (hsize : b'.size = b.size)
    (h : ∀ n, R (b.get n) (b'.get n)) (hnone : R none none) (item index : Nat) :
    (b'.ensureSize item index).size = (b.ensureSize item index).size
      ∧ ∀ n, R ((b.ensureSize item index).get n) ((b'.ensureSize item index).get n) := by
  have hmask : b'.mask = b.mask := Nat.succ.inj hsize
  unfold ensureSize
  rw [hmask]
  split
  · have hgrown : (b'.grow item index).mask = (b.grow item index).mask := by
      show growSize (index + 1) (b'.mask + 1) index - 1 = growSize (index + 1) (b.mask + 1) index - 1
      rw [hmask]
    refine ⟨congrArg Nat.succ hgrown, fun n => ?_⟩
    unfold get
    rw [hgrown]
    show R ((b.rehome _ _ (b.mask + 1) (List.replicate _ none)).getD _ none)
      ((b'.rehome _ _ (b'.mask + 1) (List.replicate _ none)).getD _ none)
    rw [hmask]
    exact rehome_rel h hnone _ _ _ _ _
  · exact ⟨hsize, h⟩

end Related

end CircularBuffer

end UtpCircular
