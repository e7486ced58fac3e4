import Mathlib.Data.Int.ModEq
import Mathlib.Data.Nat.Bitwise

/-! # Small helpers, and the one-way delay history with a drifting base

    The engine mixes `u16` sequence numbers, `u32` timestamps and `i32`/`i64`
    differences.  Sequence numbers and timestamps are `UInt16` and `UInt32`
    here; the lossy `as` casts between signed and unsigned widths are functions,
    each the two's-complement truncation of the language.

    The two clocks drift, so the delay base is periodically re-derived from
    recent minima and can be shifted to compensate for observed skew.  Slot
    indices are `Fin`, so stepping past the last slot wraps by itself and no
    index is out of range. -/

/-! ## Wrapping comparison, casts and clocks -/

namespace UtpUtil

/-- Compare if `lhs` is less than `rhs`, taking wrapping into account: the
    direction with the shorter distance decides. -/
def wrappingCompareLess (lhs rhs mask : UInt32) : Bool :=
  -- distance walking from lhs to rhs, downwards and upwards
  let distDown := (lhs - rhs) &&& mask
  let distUp := (rhs - lhs) &&& mask
  distUp < distDown

/-- `as i32` on an unsigned value. -/
def asI32 (n : Nat) : Int :=
  if n % 2 ^ 32 < 2 ^ 31 then ((n % 2 ^ 32 : Nat) : Int)
  else ((n % 2 ^ 32 : Nat) : Int) - 2 ^ 32

/-- `as u32` on a signed value. -/
def asU32 (z : Int) : Nat := (z % 2 ^ 32).toNat

/-- `as u64` on a signed value. -/
def asU64 (z : Int) : Nat := (z % 2 ^ 64).toNat

/-- `as i64` on an unsigned value. -/
def asI64 (n : Nat) : Int :=
  if n % 2 ^ 64 < 2 ^ 63 then ((n % 2 ^ 64 : Nat) : Int)
  else ((n % 2 ^ 64 : Nat) : Int) - 2 ^ 64

/-- `u64::wrapping_sub` on the millisecond clocks. -/
def msSub (a b : Nat) : Nat := (a + (2 ^ 64 - b % 2 ^ 64)) % 2 ^ 64

/-- `(int)(a - b) >= 0` on u64 millisecond clocks, as the C code does it. -/
def msElapsed (a b : Nat) : Bool := 0 ≤ asI32 (msSub a b)

/-! ## The seed generator -/

/-- SplitMix64-based generator; its only state is one 64-bit word. -/
structure Rng where
  state : UInt64

namespace Rng

def nextU64 (r : Rng) : UInt64 × Rng :=
  let s := r.state + 0x9e3779b97f4a7c15
  let z := s
  let z := (z ^^^ (z >>> 30)) * 0xbf58476d1ce4e5b9
  let z := (z ^^^ (z >>> 27)) * 0x94d049bb133111eb
  (z ^^^ (z >>> 31), ⟨s⟩)

def nextU32 (r : Rng) : UInt32 × Rng :=
  ((r.nextU64).1.toUInt32, (r.nextU64).2)

end Rng

end UtpUtil

/-! ## The delay history -/

namespace UtpDelayHist

open UtpUtil

abbrev curDelaySize : Nat := 3
abbrev delayBaseHistory : Nat := 13

instance : NeZero curDelaySize := ⟨by decide⟩

instance : NeZero delayBaseHistory := ⟨by decide⟩

def timestampMask : UInt32 := 0xffffffff

structure DelayHist where
  delayBase : UInt32
  /-- history of delay samples, normalized by using `delayBase` -/
  curDelayHist : Vector UInt32 curDelaySize
  curDelayIdx : Fin curDelaySize
  /-- history of `delayBase`; relative values only -/
  delayBaseHist : Vector UInt32 delayBaseHistory
  delayBaseIdx : Fin delayBaseHistory
  /-- the time when we last stepped `delayBaseIdx` -/
  delayBaseTime : Nat
  delayBaseInitialized : Bool

namespace DelayHist

/-- The index of the current sample lies in its window. -/
theorem curDelayIdx_lt (h : DelayHist) : h.curDelayIdx.val < curDelaySize := h.curDelayIdx.isLt

/-- The index of the current minute lies in the history. -/
theorem delayBaseIdx_lt (h : DelayHist) : h.delayBaseIdx.val < delayBaseHistory :=
  h.delayBaseIdx.isLt

def new (currentMs : Nat) : DelayHist where
  delayBase := 0
  curDelayHist := Vector.replicate _ 0
  curDelayIdx := 0
  delayBaseHist := Vector.replicate _ 0
  delayBaseIdx := 0
  delayBaseTime := currentMs
  delayBaseInitialized := false

/-- Increase all base delays by `offset`. -/
def shift (h : DelayHist) (offset : UInt32) : DelayHist :=
  { h with
    delayBaseHist := h.delayBaseHist.map (· + offset)
    delayBase := h.delayBase + offset }

/-- No real measurements yet: initialize everything with this sample. -/
def initBase (h : DelayHist) (sample : UInt32) : DelayHist :=
  if h.delayBaseInitialized then h
  else
    { h with
      delayBaseHist := Vector.replicate _ sample
      delayBase := sample
      delayBaseInitialized := true }

/-- Lower the current slot and the base to the sample, each where the sample
    is the smaller one. -/
def lower (h : DelayHist) (sample : UInt32) : DelayHist :=
  let h :=
    if wrappingCompareLess sample (h.delayBaseHist.get h.delayBaseIdx) timestampMask then
      { h with delayBaseHist := h.delayBaseHist.set h.delayBaseIdx sample }
    else h
  if wrappingCompareLess sample h.delayBase timestampMask then
    { h with delayBase := sample }
  else h

/-- Record `sample - delayBase`; this operation may wrap, and is supposed to. -/
def record (h : DelayHist) (sample : UInt32) : DelayHist :=
  { h with
    curDelayHist := h.curDelayHist.set h.curDelayIdx (sample - h.delayBase)
    curDelayIdx := h.curDelayIdx + 1 }

/-- Once every minute: open a new slot with the current sample, then pick the
    lowest delay in the history as the new base. -/
def rollover (h : DelayHist) (sample : UInt32) (currentMs : Nat) : DelayHist :=
  if msSub currentMs h.delayBaseTime > 60 * 1000 then
    let idx := h.delayBaseIdx + 1
    let hist := h.delayBaseHist.set idx sample
    { h with
      delayBaseTime := currentMs
      delayBaseIdx := idx
      delayBaseHist := hist
      delayBase := hist.toList.foldl
        (fun base v => if wrappingCompareLess v base timestampMask then v else base)
        (hist.get 0) }
  else h

def addSample (h : DelayHist) (sample : UInt32) (currentMs : Nat) : DelayHist :=
  (((h.initBase sample).lower sample).record sample).rollover sample currentMs

/-- The lowest of the recent delay samples. -/
def getValue (h : DelayHist) : UInt32 :=
  h.curDelayHist.toList.foldl min 0xffffffff

end DelayHist

end UtpDelayHist
