import RustUtp.Circular
import RustUtp.Lib.Circle
import Mathlib.Logic.Function.Basic

/-! # A ring as a map on a sliding window

    The slots of a ring stand for the `size` consecutive numbers from some
    start `lo` on, one slot each.  `Represents b lo f` says that the ring holds
    exactly the partial map `f` there.  The start can move over numbers that
    are not in the map, and the map survives a change of the size. -/

namespace UtpCircular

variable {α : Type}

structure Represents (b : CircularBuffer α) (lo : Nat) (f : Nat → Option α) : Prop where
  get_eq : ∀ n, lo ≤ n → n < lo + b.size → b.get n = f n
  support : ∀ n p, f n = some p → lo ≤ n ∧ n < lo + b.size

namespace Represents

variable {b : CircularBuffer α} {lo : Nat} {f : Nat → Option α}

/-- A new ring represents nothing. -/
theorem new (lo : Nat) : Represents (CircularBuffer.new : CircularBuffer α) lo (fun _ => none) :=
  ⟨fun n _ _ => CircularBuffer.get_new n, fun _ _ h => nomatch h⟩

/-- Every slot is the slot of one number of the window. -/
theorem exists_number (lo : Nat) (i : Nat) :
    ∃ n, lo ≤ n ∧ n < lo + b.size ∧ i % b.size = n % b.size := by
  have hpos := b.size_pos
  refine ⟨lo + (i + (b.size - lo % b.size)) % b.size, Nat.le_add_right _ _,
    Nat.add_lt_add_left (Nat.mod_lt _ hpos) lo, ?_⟩
  have hlo := Nat.div_add_mod lo b.size
  have hlt := Nat.mod_lt lo hpos
  have hsum : lo + (i + (b.size - lo % b.size)) = i + b.size * (lo / b.size + 1) := by
    rw [Nat.mul_add, Nat.mul_one]
    omega
  rw [Nat.add_mod_mod, hsum, Nat.add_mul_mod_self_left]

/-- An entry of the ring is that of a number in the window. -/
theorem slot (h : Represents b lo f) {i : Nat} {p : α} (hi : b.get i = some p) :
    ∃ n, lo ≤ n ∧ n < lo + b.size ∧ i % b.size = n % b.size ∧ f n = some p := by
  obtain ⟨n, hle, hlt, hmod⟩ := exists_number (b := b) lo i
  exact ⟨n, hle, hlt, hmod, by rw [← h.get_eq n hle hlt, ← b.get_congr hmod, hi]⟩

/-- Writing under an index that names a number of the window. -/
theorem put (h : Represents b lo f) {i n : Nat} (v : Option α) (hle : lo ≤ n)
    (hlt : n < lo + b.size) (hi : i % b.size = n % b.size) :
    Represents (b.put i v) lo (Function.update f n v) := by
  refine ⟨fun k hk hk' => ?_, fun k p hk => ?_⟩
  · rw [CircularBuffer.get_put, hi]
    rw [CircularBuffer.size_put] at hk'
    by_cases hkn : k = n
    · rw [hkn, if_pos rfl, Function.update_self]
    · have hne : n % b.size ≠ k % b.size := by
        have := CircularBuffer.mod_ne_of_lt lo (N := b.size) (i := n - lo) (j := k - lo)
          (by omega) (by omega) (by omega)
        rwa [Nat.add_sub_cancel' hle, Nat.add_sub_cancel' hk] at this
      rw [if_neg hne, Function.update_of_ne hkn, h.get_eq k hk hk']
  · rw [CircularBuffer.size_put]
    by_cases hkn : k = n
    · rw [hkn]
      exact ⟨hle, hlt⟩
    · rw [Function.update_of_ne hkn] at hk
      exact h.support k p hk

/-- The window moves past a number that is not in the map. -/
theorem slide (h : Represents b lo f) (hlo : f lo = none) : Represents b (lo + 1) f := by
  have hpos := b.size_pos
  refine ⟨fun n hle hlt => ?_, fun n p hn => ?_⟩
  · by_cases hn : n < lo + b.size
    · exact h.get_eq n (by omega) hn
    · -- the one new number shares the slot of the one that left
      have hEq : n = lo + b.size := by omega
      have hout : f n = none := by
        cases hfn : f n with
        | none => rfl
        | some p => exact absurd (h.support n p hfn).2 hn
      rw [hout, hEq, b.get_congr (Nat.add_mod_right lo b.size),
        h.get_eq lo (Nat.le_refl _) (by omega), hlo]
  · obtain ⟨hle, hlt⟩ := h.support n p hn
    have hne : n ≠ lo := fun he => by rw [he, hlo] at hn; exact nomatch hn
    omega

/-- Growing for an index in line with the window keeps the map. -/
theorem ensureSize (h : Represents b lo f) (item index : Nat) (hidx : index ≤ 65535)
    (hitem : (lo + index) % (b.ensureSize item index).size
      = item % (b.ensureSize item index).size) :
    Represents (b.ensureSize item index) lo f := by
  have hgrow := b.size_le_size_ensureSize item index
  refine ⟨fun n hle hlt => ?_, fun n p hn => ?_⟩
  · obtain ⟨j, rfl⟩ := Nat.exists_eq_add_of_le hle
    by_cases hj : j < b.size
    · rw [b.get_ensureSize_live item index hidx hitem hj, h.get_eq _ hle (by omega)]
    · rw [b.get_ensureSize_fresh item index hidx hitem (Nat.not_lt.mp hj) (by omega)]
      cases hf : f (lo + j) with
      | none => rfl
      | some p => exact absurd (h.support _ p hf).2 (by omega)
  · obtain ⟨hle, hlt⟩ := h.support n p hn
    exact ⟨hle, by omega⟩

end Represents

/-! ## Indices as the callers pass them

    A caller has a number `n` in mind and passes some index `i` for it: the
    number as a `usize`, or, as the engine does, its last 16 bits. -/

/-- The index `i` stands for the number `n`. -/
def Names (b : CircularBuffer α) (i n : Nat) : Prop :=
  i ≡ n [MOD 2 ^ 64] ∨ (b.size ≤ 2 ^ 16 ∧ i ≡ n [MOD 2 ^ 16])

/-- Growing for a 16-bit index keeps a ring within `2 ^ 16` slots. -/
theorem size_ensureSize_of_le (b : CircularBuffer α) (item : Nat) {index : Nat}
    (hidx : index ≤ 65535) (hb : b.size ≤ 2 ^ 16) : (b.ensureSize item index).size ≤ 2 ^ 16 := by
  obtain ⟨k, hk⟩ := (b.ensureSize item index).size_pow
  have hle := b.size_ensureSize_le item index (2 ^ 17 - 2) (by omega) (by omega)
  rw [hk] at hle ⊢
  -- a power of two below `2 ^ 17`
  have hpow : 2 ^ k < 2 ^ 17 := by omega
  have hlt : k < 17 := (Nat.pow_lt_pow_iff_right (by decide)).mp hpow
  exact Nat.pow_le_pow_right (by decide) (Nat.le_of_lt_succ hlt)

/-- A ring that grows for a 16-bit index has at most `2 ^ 16` slots before and
    after. -/
theorem size_of_grown (b : CircularBuffer α) (item : Nat) {index : Nat} (hidx : index ≤ 65535)
    (hgrow : b.mask < index) : b.size ≤ 2 ^ 16 ∧ (b.ensureSize item index).size ≤ 2 ^ 16 := by
  have hb : b.size ≤ 2 ^ 16 := by
    show b.mask + 1 ≤ 2 ^ 16
    omega
  exact ⟨hb, size_ensureSize_of_le b item hidx hb⟩

/-- A name of a number is congruent to it modulo every ring size it can be used
    with. -/
theorem Names.modEq {b b' : CircularBuffer α} {i n : Nat} (h : Names b i n)
    (hb' : b'.size ≤ 2 ^ 16) : i ≡ n [MOD b'.size] := by
  rcases h with h | ⟨-, h⟩
  · exact h.of_dvd ((b'.size_dvd hb').trans (pow_dvd_pow 2 (by decide)))
  · exact h.of_dvd (b'.size_dvd hb')

/-- **THE GROWN WINDOW**, index by index: whoever names the number `j` past the
    start of the window finds the old entry if the old ring covered it, and an
    empty slot if it did not. -/
theorem get_ensureSize_names (b : CircularBuffer α) (item index : Nat) (hidx : index ≤ 65535)
    {i j : Nat} (hi : Names b (i + index) (item + j)) (hj : j < (b.ensureSize item index).size) :
    (b.ensureSize item index).get i = if j < b.size then b.get i else none := by
  by_cases hgrow : b.mask < index
  · obtain ⟨-, hnew⟩ := size_of_grown b item hidx hgrow
    have hmod := hi.modEq hnew
    -- a representative `lo` of the start of the window, `j` below `i`
    obtain ⟨lo, hlo⟩ : ∃ lo, lo + j = i + (b.ensureSize item index).size :=
      ⟨_, Nat.sub_add_cancel (by omega)⟩
    have hslot : (lo + j) % (b.ensureSize item index).size
        = i % (b.ensureSize item index).size := by
      rw [hlo, Nat.add_mod_right]
    have hold : (lo + j) % b.size = i % b.size :=
      Nat.ModEq.of_dvd (b.size_dvd_size_ensureSize item index) hslot
    have hstart : (lo + index) % (b.ensureSize item index).size
        = item % (b.ensureSize item index).size := by
      have hsum : lo + index + j ≡ item + j [MOD (b.ensureSize item index).size] := by
        calc lo + index + j = (lo + j) + index := by omega
          _ ≡ i + index [MOD (b.ensureSize item index).size] := Nat.ModEq.add_right index hslot
          _ ≡ item + j [MOD (b.ensureSize item index).size] := hmod
      exact Nat.ModEq.add_right_cancel' j hsum
    rw [← (b.ensureSize item index).get_congr hslot, ← b.get_congr hold]
    by_cases hlive : j < b.size
    · rw [if_pos hlive, b.get_ensureSize_live item index hidx hstart hlive]
    · rw [if_neg hlive,
        b.get_ensureSize_fresh item index hidx hstart (Nat.not_lt.mp hlive) hj]
  · have hsame : b.ensureSize item index = b := if_neg hgrow
    rw [hsame] at hj ⊢
    rw [if_pos hj]

/-! ## Runs against a finite map -/

/-- A ring under any sequence of operations, next to the map it should be. The
    window may move at any time as long as it still covers everything live. -/
inductive MapRun : CircularBuffer α → Nat → (Nat → Option α) → Prop where
  | new (lo : Nat) : MapRun CircularBuffer.new lo (fun _ => none)
  | put {b : CircularBuffer α} {lo : Nat} {f : Nat → Option α} (h : MapRun b lo f)
      (i n : Nat) (v : Option α) (hle : lo ≤ n) (hlt : n < lo + b.size) (hi : Names b i n) :
      MapRun (b.put i v) lo (Function.update f n v)
  | take {b : CircularBuffer α} {lo : Nat} {f : Nat → Option α} (h : MapRun b lo f)
      (i n : Nat) (hle : lo ≤ n) (hlt : n < lo + b.size) (hi : Names b i n) :
      MapRun (b.take i).2 lo (Function.update f n none)
  | ensureSize {b : CircularBuffer α} {lo : Nat} {f : Nat → Option α} (h : MapRun b lo f)
      (item index : Nat) (hidx : index ≤ 65535) (hitem : Names b item (lo + index)) :
      MapRun (b.ensureSize item index) lo f
  | move {b : CircularBuffer α} {lo : Nat} {f : Nat → Option α} (h : MapRun b lo f) (lo' : Nat)
      (hlive : ∀ n p, f n = some p → lo' ≤ n ∧ n < lo' + b.size) : MapRun b lo' f

/-- The window may start anywhere that keeps everything live inside. -/
theorem Represents.move {b : CircularBuffer α} {lo : Nat} {f : Nat → Option α}
    (h : Represents b lo f) {lo' : Nat}
    (hlive : ∀ n p, f n = some p → lo' ≤ n ∧ n < lo' + b.size) : Represents b lo' f := by
  refine ⟨fun n hle hlt => ?_, hlive⟩
  have honly : ∀ k p, f k = some p → k % b.size = n % b.size → k = n := by
    intro k p hk hmod
    obtain ⟨hkle, hklt⟩ := hlive k p hk
    by_contra hne
    have := CircularBuffer.mod_ne_of_lt lo' (N := b.size) (i := k - lo') (j := n - lo')
      (by omega) (by omega) (by omega)
    rw [Nat.add_sub_cancel' hkle, Nat.add_sub_cancel' hle] at this
    exact this hmod
  cases hget : b.get n with
  | some p =>
      obtain ⟨k, -, -, hmod, hk⟩ := h.slot hget
      rw [← honly k p hk hmod.symm, hk]
  | none =>
      cases hf : f n with
      | none => rfl
      | some p =>
          obtain ⟨hle', hlt'⟩ := h.support n p hf
          rw [h.get_eq n hle' hlt', hf] at hget
          exact nomatch hget

/-- One operation keeps the ring and the map together, and the ring within
    `2 ^ 16` slots. -/
theorem MapRun.represents {b : CircularBuffer α} {lo : Nat} {f : Nat → Option α}
    (h : MapRun b lo f) : b.size ≤ 2 ^ 16 ∧ Represents b lo f := by
  induction h with
  | new lo =>
      refine ⟨?_, Represents.new lo⟩
      rw [CircularBuffer.size_new]
      decide
  | put h i n v hle hlt hi ih =>
      obtain ⟨hsize, hrep⟩ := ih
      exact ⟨hsize, hrep.put v hle hlt (hi.modEq hsize)⟩
  | take h i n hle hlt hi ih =>
      obtain ⟨hsize, hrep⟩ := ih
      exact ⟨hsize, hrep.put none hle hlt (hi.modEq hsize)⟩
  | ensureSize h item index hidx hitem ih =>
      obtain ⟨hsize, hrep⟩ := ih
      have hnew := size_ensureSize_of_le _ item hidx hsize
      exact ⟨hnew, hrep.ensureSize item index hidx (hitem.modEq hnew).symm⟩
  | move h lo' hlive ih => exact ⟨ih.1, ih.2.move hlive⟩

/-- **GROWTH KEEPS THE LIVE WINDOW**: every ring has a power of two of slots;
    growing it for a 16-bit index makes room and leaves the window in place,
    with empty slots past it; and under any sequence of operations on a window
    that covers what is live, it is the finite map of its entries. -/
theorem ring_is_window_map (α : Type) :
    (∀ b : CircularBuffer α, b.slots.length = b.size ∧ ∃ k, b.size = 2 ^ k)
      ∧ (∀ (b : CircularBuffer α) (item index : Nat), index ≤ 65535 →
          index < (b.ensureSize item index).size
            ∧ ∀ i j, Names b (i + index) (item + j) →
              (j < b.size → (b.ensureSize item index).get i = b.get i)
                ∧ (b.size ≤ j → j < (b.ensureSize item index).size →
                    (b.ensureSize item index).get i = none))
      ∧ ∀ (b : CircularBuffer α) (lo : Nat) (f : Nat → Option α), MapRun b lo f →
          (∀ n p, f n = some p → lo ≤ n ∧ n < lo + b.size)
            ∧ ∀ i n, lo ≤ n → n < lo + b.size → Names b i n →
              b.get i = f n ∧ (b.take i).1 = f n := by
  refine ⟨fun b => ⟨b.hlen, b.size_pow⟩, fun b item index hidx => ?_, fun b lo f h => ?_⟩
  · refine ⟨b.index_lt_size_ensureSize item index, fun i j hi => ⟨fun hj => ?_, fun hold hj => ?_⟩⟩
    · have hle := b.size_le_size_ensureSize item index
      rw [get_ensureSize_names b item index hidx hi (by omega), if_pos hj]
    · rw [get_ensureSize_names b item index hidx hi hj, if_neg (by omega)]
  · obtain ⟨hsize, hrep⟩ := h.represents
    refine ⟨hrep.support, fun i n hle hlt hi => ?_⟩
    have hget : b.get i = f n := by
      rw [b.get_congr (hi.modEq hsize), hrep.get_eq n hle hlt]
    exact ⟨hget, hget⟩

/-- A window that straddles the end of the 16-bit numbers: the ring is grown for an
    entry 20 past its start, filled there under a wrapped index, and emptied at
    the start. -/
theorem ring_is_window_map_straddling :
    ∃ (b : CircularBuffer Nat) (f : Nat → Option Nat), MapRun b 0xfff8 f ∧ b.size = 32
      ∧ f 0x1000c = some 9 ∧ b.get 12 = some 9 ∧ (b.take 0xfff8).1 = some 7
      ∧ (b.take 0xfff8).2.get 0xfff8 = none ∧ (b.take 0xfff8).2.get 12 = some 9 := by
  have hput := (MapRun.new (α := Nat) 0xfff8).put 0xfff8 0xfff8 (some 7) (Nat.le_refl _)
    (by decide) (.inl rfl)
  have hgrown := hput.ensureSize 12 20 (by decide) (.inr ⟨by decide, by decide⟩)
  have hrun := hgrown.put 12 0x1000c (some 9) (by decide) (by decide) (.inr ⟨by decide, by decide⟩)
  have htaken := hrun.take 0xfff8 0xfff8 (Nat.le_refl _) (by decide) (.inl rfl)
  have hmap := (ring_is_window_map Nat).2.2
  refine ⟨_, _, hrun, by decide, Function.update_self .., ?_, ?_, ?_, ?_⟩
  · exact ((hmap _ _ _ hrun).2 12 0x1000c (by decide) (by decide)
      (.inr ⟨by decide, by decide⟩)).1.trans (Function.update_self ..)
  · exact ((hmap _ _ _ hrun).2 0xfff8 0xfff8 (Nat.le_refl _) (by decide) (.inl rfl)).2.trans rfl
  · exact ((hmap _ _ _ htaken).2 0xfff8 0xfff8 (Nat.le_refl _) (by decide) (.inl rfl)).1.trans
      (Function.update_self ..)
  · exact ((hmap _ _ _ htaken).2 12 0x1000c (by decide) (by decide)
      (.inr ⟨by decide, by decide⟩)).1.trans rfl

/-- A ring that is not too large can be indexed by wrapped numbers. -/
theorem wrap_mod_size (b : CircularBuffer α) (hb : b.size ≤ 2048) (n : Nat) :
    (UInt16.ofNat n).toNat % b.size = n % b.size := by
  have hdvd : b.size ∣ 2 ^ 16 := b.size_dvd (by omega)
  rw [UInt16.toNat_ofNat']
  exact Nat.mod_mod_of_dvd n hdvd

/-- A 16-bit index reads the slot of its number: the sizes divide the number
    space. -/
theorem get_wrap (b : CircularBuffer α) (hb : b.size ≤ 2048) (n : Nat) :
    b.get (UInt16.ofNat n).toNat = b.get n :=
  b.get_congr (wrap_mod_size b hb n)

end UtpCircular
