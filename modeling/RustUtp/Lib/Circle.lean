import Mathlib.Data.Nat.ModEq
import Mathlib.Data.UInt
import Mathlib.Tactic.Ring

/-! # Wrapping numbers

    A wrapping 16-bit number stands for the unbounded numbers congruent to it:
    within half a turn nothing is lost by the wrapping.  Wrapping comparison by
    the shorter distance is not an order on the whole circle, though.  On an arc
    shorter than half of it, it is the order of the distances from the start of
    the arc; and it never depends on where the numbers stand, only on how far
    apart they are. -/

/-! ## 16-bit sequence numbers and the integers they abbreviate -/

namespace SeqNum

/-- Two integers have the same 16 bits. -/
theorem ofNat_eq_iff {a b : Nat} : UInt16.ofNat a = UInt16.ofNat b ↔ a % 65536 = b % 65536 := by
  rw [← UInt16.toNat_inj, UInt16.toNat_ofNat', UInt16.toNat_ofNat']

/-- A distance that is known not to be negative. -/
theorem toNat_ofNat_sub {a b : Nat} (h : b ≤ a) :
    (UInt16.ofNat a - UInt16.ofNat b).toNat = (a - b) % 65536 := by
  rw [← UInt16.ofNat_sub h, UInt16.toNat_ofNat']

/-- A distance of either sign. -/
theorem toNat_ofNat_sub' (a b : Nat) :
    (UInt16.ofNat a - UInt16.ofNat b).toNat = (a % 65536 + (65536 - b % 65536)) % 65536 := by
  rw [UInt16.toNat_sub, UInt16.toNat_ofNat', UInt16.toNat_ofNat']
  omega

/-- The number before. -/
theorem ofNat_sub_one {a : Nat} (h : 1 ≤ a) : UInt16.ofNat a - 1 = UInt16.ofNat (a - 1) := by
  rw [UInt16.ofNat_sub h]
  rfl

/-- The number after. -/
theorem ofNat_add_one (a : Nat) : UInt16.ofNat a + 1 = UInt16.ofNat (a + 1) := by
  rw [UInt16.ofNat_add]
  rfl

/-- Numbers less than a turn apart are told apart. -/
theorem eq_of_ofNat_eq {a b : Nat} (h : UInt16.ofNat a = UInt16.ofNat b)
    (h₁ : a < b + 65536) (h₂ : b < a + 65536) : a = b := by
  have := ofNat_eq_iff.mp h
  omega

/-- Every 16-bit number is the image of its own value. -/
theorem ofNat_toNat (v : UInt16) : UInt16.ofNat v.toNat = v := UInt16.ofNat_toNat

end SeqNum

/-! ## The 32-bit circle and its arcs -/

namespace Circle

/-- The way from `a` up to `x`. -/
def dist (a x : UInt32) : Nat := (x - a).toNat

/-- `x` comes before `y`: the way up from `x` to `y` is the shorter one. -/
def Before (x y : UInt32) : Prop := dist x y < dist y x

/-- All of `l` lies on the half circle that starts at `a`. -/
def InArc (a : UInt32) (l : List UInt32) : Prop := ∀ x ∈ l, dist a x < 2 ^ 31

/-- A distance is less than the circle. -/
theorem dist_lt (a x : UInt32) : dist a x < 2 ^ 32 := (x - a).toNat_lt

/-- A point has no distance from itself. -/
theorem dist_self (a : UInt32) : dist a a = 0 := by
  unfold dist
  rw [UInt32.sub_self]
  rfl

/-- The distance from `a` tells the points apart. -/
theorem dist_inj {a x y : UInt32} (h : dist a x = dist a y) : x = y := by
  have hsub : x - a = y - a := UInt32.toNat_inj.mp h
  calc x = x - a + a := (UInt32.sub_add_cancel x a).symm
    _ = y - a + a := by rw [hsub]
    _ = y := UInt32.sub_add_cancel y a

/-- The distance of two numbers, seen from any third one. -/
theorem dist_eq (a x y : UInt32) :
    dist x y = (2 ^ 32 - dist a x + dist a y) % 2 ^ 32 := by
  have hsplit : y - x = (y - a) - (x - a) := by grind
  unfold dist
  rw [hsplit, UInt32.toNat_sub]

/-- Distances do not change when the circle is turned. -/
theorem dist_add (a x c : UInt32) : dist (a + c) (x + c) = dist a x := by
  unfold dist
  have hsub : x + c - (a + c) = x - a := by grind
  rw [hsub]

theorem before_add (x y c : UInt32) : Before (x + c) (y + c) ↔ Before x y := by
  unfold Before
  rw [dist_add, dist_add]

/-- On an arc the wrapping comparison is the order of the distances. -/
theorem before_iff {a x y : UInt32} (hx : dist a x < 2 ^ 31) (hy : dist a y < 2 ^ 31) :
    Before x y ↔ dist a x < dist a y := by
  unfold Before
  rw [dist_eq a x y, dist_eq a y x]
  omega

/-- On an arc the distance of two numbers in order is the difference of their
    distances. -/
theorem dist_of_le {a x y : UInt32} (h : dist a x ≤ dist a y) :
    dist x y = dist a y - dist a x := by
  have hlt := dist_lt a y
  rw [dist_eq a x y]
  omega

/-- Where `y` does not come before `x`, it is at most half the circle past it. -/
theorem dist_le_of_not_before {x y : UInt32} (h : ¬ Before y x) : dist x y ≤ 2 ^ 31 := by
  unfold Before at h
  have hback := dist_eq x y x
  rw [dist_self] at hback
  have hlt := dist_lt x y
  omega

/-! ## Least elements by a linear scan -/

section Scan

variable {α : Type} (less : α → α → Bool)

/-- Where the comparison is that of ranks, the scan ends at a least element. -/
theorem scan_least {rank : α → Nat} {S : α → Prop}
    (hless : ∀ x y, S x → S y → (less x y = true ↔ rank x < rank y)) (l : List α) :
    ∀ b, S b → (∀ v ∈ l, S v) →
      l.foldl (fun b v => if less v b then v else b) b ∈ b :: l
        ∧ ∀ v ∈ b :: l, rank (l.foldl (fun b v => if less v b then v else b) b) ≤ rank v := by
  induction l with
  | nil =>
      intro b _ _
      refine ⟨List.mem_singleton_self b, fun v hv => ?_⟩
      rw [List.mem_singleton.mp hv]
      exact Nat.le_refl _
  | cons w l ih =>
      intro b hb hl
      have hw := hl w (List.mem_cons_self ..)
      have htail : ∀ v ∈ l, S v := fun v hv => hl v (List.mem_cons_of_mem w hv)
      rw [List.foldl_cons]
      by_cases h : less w b = true
      · obtain ⟨hmem, hmin⟩ := ih w hw htail
        rw [if_pos h]
        refine ⟨List.mem_cons_of_mem b hmem, fun v hv => ?_⟩
        rcases List.mem_cons.mp hv with rfl | hv
        · have hfirst := hmin w (List.mem_cons_self ..)
          have hlt := (hless w v hw hb).mp h
          omega
        · exact hmin v hv
      · obtain ⟨hmem, hmin⟩ := ih b hb htail
        rw [if_neg h]
        refine ⟨?_, fun v hv => ?_⟩
        · rcases List.mem_cons.mp hmem with hmem | hmem
          · rw [hmem]
            exact List.mem_cons_self ..
          · exact List.mem_cons_of_mem b (List.mem_cons_of_mem w hmem)
        · rcases List.mem_cons.mp hv with rfl | hv
          · exact hmin v (List.mem_cons_self ..)
          · rcases List.mem_cons.mp hv with rfl | hv
            · have hfirst := hmin b (List.mem_cons_self ..)
              have hge := mt (hless v b hw hb).mpr h
              omega
            · exact hmin v (List.mem_cons_of_mem b hv)

/-- The scan commutes with a map that keeps the comparison. -/
theorem scan_map {g : α → α} (hg : ∀ x y, less (g x) (g y) = less x y) (l : List α) :
    ∀ b, (l.map g).foldl (fun b v => if less v b then v else b) (g b)
      = g (l.foldl (fun b v => if less v b then v else b) b) := by
  induction l with
  | nil => intro b; rfl
  | cons w l ih =>
      intro b
      rw [List.map_cons, List.foldl_cons, List.foldl_cons, hg]
      by_cases h : less w b = true
      · rw [if_pos h, if_pos h]
        exact ih w
      · rw [if_neg h, if_neg h]
        exact ih b

end Scan

end Circle
