import RustUtp.Controller

/-! # The clock-drift bookkeeping is bounded and free of offsets

    Delay samples are signed distances on a 32-bit circle, from a base that
    moves itself, averaged over slots of varying population and fed into a
    rolling mean.  The clamp on the samples carries all the bounds: no sequence
    of reports, times and packets takes an average past it, and with fewer than
    `2 ^ 31` samples in a slot every intermediate value fits the type that the
    source gives it. -/

namespace UtpDrift

open UtpPacket UtpUtil UtpEngine UtpEngine.Detached UtpActs UtpController

def FitsI64 (z : Int) : Prop := -2 ^ 63 ≤ z ∧ z < 2 ^ 63

/-! ## The steps of the source, one by one -/

/-- The sample of one packet, added to its slot. -/
def accumulated (d : Delay) (currentMs : Nat) (actualDelay : UInt32) : Delay :=
  let base := if d.averageDelayBase = 0 then actualDelay else d.averageDelayBase
  { d with
    ourHist := d.ourHist.addSample actualDelay currentMs
    averageDelayBase := base
    currentDelaySum := d.currentDelaySum + delayDistance base actualDelay
    currentDelaySamples := d.currentDelaySamples + 1 }

/-- The average of the slot that closes. -/
def slotAverage (d : Delay) : Int := d.currentDelaySum.tdiv d.currentDelaySamples

/-- How far both averages move so that zero lies between them. -/
def adjust (d : Delay) : Int :=
  if min d.averageDelay (slotAverage d) > 0 then -min d.averageDelay (slotAverage d)
  else if max d.averageDelay (slotAverage d) < 0 then -max d.averageDelay (slotAverage d)
  else 0

def drift (d : Delay) : Int := (slotAverage d + adjust d) - (d.averageDelay + adjust d)

/-- The record after the slot has closed. -/
def closed (d : Delay) : Delay :=
  { d with
    averageDelay := slotAverage d + adjust d
    averageSampleTime := d.averageSampleTime + 5000
    currentDelaySum := 0
    currentDelaySamples := 0
    averageDelayBase := d.averageDelayBase - UInt32.ofInt (adjust d)
    clockDrift := (d.clockDrift * 7 + drift d).tdiv 8
    clockDriftRaw := drift d }

/-- **THE SAMPLE GOES INTO ITS SLOT**, and a slot that is over is closed after
    that. -/
theorem averageSample_eq (d : Delay) (currentMs : Nat) (actualDelay : UInt32) :
    d.averageSample currentMs actualDelay
      = if d.averageSampleTime < currentMs then closed (accumulated d currentMs actualDelay)
        else accumulated d currentMs actualDelay := rfl

/-! ## What has to fit -/

/-- Adding a sample: every value fits its type. -/
structure SampleExact (d : Delay) (base actualDelay : UInt32) : Prop where
  distance : FitsI64 (delayDistance base actualDelay)
  sum : FitsI64 (d.currentDelaySum + delayDistance base actualDelay)
  samples : FitsI32 (d.currentDelaySamples + 1)

/-- Closing a slot: every value fits its type, and nothing is divided by zero. -/
structure SlotExact (d : Delay) (currentMs : Nat) : Prop where
  divisor : d.currentDelaySamples ≠ 0
  average : FitsI32 (slotAverage d)
  sampleTime : currentMs + 5000 < 2 ^ 64 → d.averageSampleTime + 5000 < 2 ^ 64
  negatedMin : FitsI32 (-min d.averageDelay (slotAverage d))
  negatedMax : FitsI32 (-max d.averageDelay (slotAverage d))
  adjusted : FitsI32 (slotAverage d + adjust d)
  previous : FitsI32 (d.averageDelay + adjust d)
  drift : FitsI32 (drift d)
  weighted : FitsI64 (d.clockDrift * 7)
  summed : FitsI64 (d.clockDrift * 7 + UtpDrift.drift d)
  rolled : FitsI32 ((d.clockDrift * 7 + UtpDrift.drift d).tdiv 8)

/-- Normalizing, from the slot `d` to the record `r`, keeps the sum of base and
    average on the circle and the difference of the averages, and brings zero
    between them. -/
structure Normalized (d r : Delay) : Prop where
  sum : ((r.averageDelayBase.toNat : Int) + r.averageDelay) % 2 ^ 32
    = ((d.averageDelayBase.toNat : Int) + slotAverage d) % 2 ^ 32
  difference : r.averageDelay - (d.averageDelay + adjust d) = slotAverage d - d.averageDelay
  low : min (d.averageDelay + adjust d) r.averageDelay ≤ 0
  high : 0 ≤ max (d.averageDelay + adjust d) r.averageDelay

/-- One sample reaches the averages: the values of the source, step by step, make
    up the result of `averageSample`, and each of them fits its type. -/
structure AveragedExactly (d : Delay) (currentMs : Nat) (actualDelay : UInt32) : Prop where
  result : d.averageSample currentMs actualDelay
    = if d.averageSampleTime < currentMs then closed (accumulated d currentMs actualDelay)
      else accumulated d currentMs actualDelay
  sample : SampleExact d (if d.averageDelayBase = 0 then actualDelay else d.averageDelayBase)
    actualDelay
  slot : d.averageSampleTime < currentMs →
    SlotExact (accumulated d currentMs actualDelay) currentMs
  normalized : d.averageSampleTime < currentMs →
    Normalized (accumulated d currentMs actualDelay) (d.averageSample currentMs actualDelay)

/-! ## The bounds -/

/-- The clamp of the samples. -/
theorem maxAverageDelaySample_eq : maxAverageDelaySample = 2 ^ 29 - 1 := rfl

/-- The mean of a slot is bounded by the clamp. -/
theorem natAbs_slotAverage {d : Delay} (h : DelayOk d) :
    (slotAverage d).natAbs ≤ maxAverageDelaySample := natAbs_tdiv_le h.sum

/-- What is small enough fits 32 bits. -/
theorem fitsI32_of_natAbs {z : Int} (h : z.natAbs ≤ 2 ^ 30) : FitsI32 z := by
  unfold FitsI32
  omega

/-- What is small enough fits 64 bits. -/
theorem fitsI64_of_natAbs {z : Int} (h : z.natAbs ≤ 2 ^ 62) : FitsI64 z := by
  unfold FitsI64
  omega

/-- The adjustment is bounded like the averages. -/
theorem natAbs_min_le {a b : Int} {M : Nat} (ha : a.natAbs ≤ M) (hb : b.natAbs ≤ M) :
    (-min a b).natAbs ≤ M ∧ (-max a b).natAbs ≤ M := by
  rw [Int.natAbs_neg, Int.natAbs_neg]
  rcases Int.le_total a b with h | h
  · rw [Int.min_eq_left h, Int.max_eq_right h]
    exact ⟨ha, hb⟩
  · rw [Int.min_eq_right h, Int.max_eq_left h]
    exact ⟨hb, ha⟩

/-- The three cases of the adjustment: nothing moves away from zero, and zero
    ends up between the averages. -/
theorem adjust_spec (d : Delay) :
    (min d.averageDelay (slotAverage d) + adjust d ≤ 0
        ∧ 0 ≤ max d.averageDelay (slotAverage d) + adjust d)
      ∧ (0 ≤ adjust d → adjust d = 0 ∨ adjust d = -max d.averageDelay (slotAverage d))
      ∧ (adjust d ≤ 0 → adjust d = 0 ∨ adjust d = -min d.averageDelay (slotAverage d)) := by
  have hle : min d.averageDelay (slotAverage d) ≤ max d.averageDelay (slotAverage d) :=
    Int.le_trans (Int.min_le_left _ _) (Int.le_max_left _ _)
  unfold adjust
  generalize min d.averageDelay (slotAverage d) = low at hle ⊢
  generalize max d.averageDelay (slotAverage d) = high at hle ⊢
  split
  · omega
  · split <;> omega

/-- Both averages stay within a bound on them. -/
theorem natAbs_adjusted {d : Delay} {M : Nat} (hnew : (slotAverage d).natAbs ≤ M)
    (hold : d.averageDelay.natAbs ≤ M) :
    (slotAverage d + adjust d).natAbs ≤ M ∧ (d.averageDelay + adjust d).natAbs ≤ M := by
  obtain ⟨-, hup, hdown⟩ := adjust_spec d
  rcases Int.le_total d.averageDelay (slotAverage d) with h | h
  · rw [Int.max_eq_right h] at hup
    rw [Int.min_eq_left h] at hdown
    generalize adjust d = z at hup hdown ⊢
    omega
  · rw [Int.max_eq_left h] at hup
    rw [Int.min_eq_right h] at hdown
    generalize adjust d = z at hup hdown ⊢
    omega

/-- **NORMALIZATION IS FREE OF OFFSETS**, for any slot. -/
theorem normalized (d : Delay) : Normalized d (closed d) := by
  obtain ⟨⟨hlow, hhigh⟩, -⟩ := adjust_spec d
  have hmin : min (d.averageDelay + adjust d) (slotAverage d + adjust d)
      = min d.averageDelay (slotAverage d) + adjust d := min_add_add_right _ _ _
  have hmax : max (d.averageDelay + adjust d) (slotAverage d + adjust d)
      = max d.averageDelay (slotAverage d) + adjust d := max_add_add_right _ _ _
  unfold closed
  refine ⟨?_, ?_, hmin.trans_le hlow, hhigh.trans_eq hmax.symm⟩
  · dsimp only
    have hadjust : ((UInt32.ofInt (adjust d)).toNat : Int) = adjust d % 2 ^ 32 := by
      unfold UInt32.ofInt
      rw [UInt32.toNat_ofNat']
      omega
    have hbase := d.averageDelayBase.toNat_lt
    rw [UInt32.toNat_sub]
    generalize (UInt32.ofInt (adjust d)).toNat = n at hadjust ⊢
    omega
  · dsimp only
    omega

/-- **A SLOT CLOSES WITHOUT OVERFLOW** once it holds a sample. -/
theorem slotExact {d : Delay} (h : DelayOk d) (hpos : 0 < d.currentDelaySamples) {currentMs : Nat}
    (htime : d.averageSampleTime < currentMs) : SlotExact d currentMs := by
  have hbound := maxAverageDelaySample_eq
  have hnew := natAbs_slotAverage h
  have hold := h.average
  have hdrift := h.drift
  obtain ⟨hmin, hmax⟩ := natAbs_min_le hold hnew
  obtain ⟨hadjusted, hprevious⟩ := natAbs_adjusted hnew hold
  -- the step of the drift is at most twice the bound on a sample
  have hstep : (drift d).natAbs ≤ 2 * maxAverageDelaySample := by
    rw [Nat.two_mul]
    exact Nat.le_trans (Int.natAbs_sub_le _ _) (Nat.add_le_add hadjusted hprevious)
  have hweighted : (d.clockDrift * 7).natAbs ≤ 2 * maxAverageDelaySample * 7 := by
    rw [Int.natAbs_mul]
    exact Nat.mul_le_mul_right 7 hdrift
  -- the weighted mean stays below the bound
  have hsummed : (d.clockDrift * 7 + drift d).natAbs ≤ 2 * maxAverageDelaySample * 8 :=
    Nat.le_trans (Int.natAbs_add_le _ _) (Nat.add_le_add hweighted hstep)
  have hrolled := natAbs_tdiv_le (a := d.clockDrift * 7 + drift d) (b := 8) hsummed
  rw [hbound] at hnew hmin hmax hadjusted hprevious hstep hweighted hsummed hrolled
  exact
    { divisor := Int.ne_of_gt hpos
      average := fitsI32_of_natAbs (Nat.le_trans hnew (by decide))
      sampleTime := Nat.lt_trans (Nat.add_lt_add_right htime 5000)
      negatedMin := fitsI32_of_natAbs (Nat.le_trans hmin (by decide))
      negatedMax := fitsI32_of_natAbs (Nat.le_trans hmax (by decide))
      adjusted := fitsI32_of_natAbs (Nat.le_trans hadjusted (by decide))
      previous := fitsI32_of_natAbs (Nat.le_trans hprevious (by decide))
      drift := fitsI32_of_natAbs (Nat.le_trans hstep (by decide))
      weighted := fitsI64_of_natAbs (Nat.le_trans hweighted (by decide))
      summed := fitsI64_of_natAbs (Nat.le_trans hsummed (by decide))
      rolled := fitsI32_of_natAbs (Nat.le_trans hrolled (by decide)) }

/-- **A SAMPLE IS ADDED WITHOUT OVERFLOW** while its slot holds fewer than
    `2 ^ 31`. -/
theorem sampleExact {d : Delay} (h : DelayOk d) (hfew : d.currentDelaySamples + 1 < 2 ^ 31)
    (base actualDelay : UInt32) : SampleExact d base actualDelay := by
  have hbound := maxAverageDelaySample_eq
  have hdist := natAbs_delayDistance base actualDelay
  have hsamples := h.samples
  have hsum : d.currentDelaySum.natAbs ≤ (2 ^ 29 - 1) * 2 ^ 31 := by
    refine Nat.le_trans h.sum ?_
    rw [hbound]
    exact Nat.mul_le_mul_left _ (by omega)
  constructor
  · unfold FitsI64
    omega
  · unfold FitsI64
    omega
  · unfold FitsI32
    omega

/-- The sample alone keeps the bounds. -/
theorem delayOk_accumulated {d : Delay} (h : DelayOk d) (currentMs : Nat) (actualDelay : UInt32) :
    DelayOk (accumulated d currentMs actualDelay) := by
  have hdist := natAbs_delayDistance
    (if d.averageDelayBase = 0 then actualDelay else d.averageDelayBase) actualDelay
  refine ⟨Int.add_nonneg h.samples (by decide), ?_, h.average, h.drift⟩
  unfold accumulated
  dsimp only
  generalize delayDistance _ actualDelay = dist at hdist ⊢
  have hcount : (d.currentDelaySamples + 1).natAbs = d.currentDelaySamples.natAbs + 1 := by
    have := h.samples
    omega
  have := h.sum
  rw [hcount, Nat.mul_succ]
  omega

/-- **A SAMPLE IS AVERAGED EXACTLY** in a slot that holds fewer than `2 ^ 31`,
    and also when it closes the slot, which then holds at least this one. -/
theorem averagedExactly {d : Delay} (h : DelayOk d) (hfew : d.currentDelaySamples + 1 < 2 ^ 31)
    (currentMs : Nat) (actualDelay : UInt32) : AveragedExactly d currentMs actualDelay := by
  refine ⟨averageSample_eq d currentMs actualDelay, sampleExact h hfew _ _, fun htime => ?_,
    fun htime => ?_⟩
  · refine slotExact (delayOk_accumulated h currentMs actualDelay) ?_ htime
    have := h.samples
    show 0 < d.currentDelaySamples + 1
    omega
  · rw [averageSample_eq, if_pos htime]
    exact normalized _

/-! ## The result -/

/-- **THE DRIFT BOOKKEEPING IS BOUNDED AND OFFSET-FREE**: for every socket of
    every reachable engine the averages are within the clamp, before and after
    any further packet; and as long as a slot holds fewer than `2 ^ 31` samples,
    no sample a peer can report overflows anything, whether it is added to its
    slot or closes it. -/
theorem drift_bounded {ctx : Context} (h : Reachable ctx) {key : Key} {s : UtpSock}
    (hs : ctx.sockets.lookup key = some s) (time currentMs : Nat) (p actualDelay : UInt32)
    (minRtt : Int) :
    (s.delay.averageDelay.natAbs ≤ 2 ^ 29 - 1 ∧ s.delay.clockDrift.natAbs ≤ 2 ^ 30)
      ∧ ((s.delay.onPacket time currentMs p actualDelay minRtt).averageDelay.natAbs ≤ 2 ^ 29 - 1
        ∧ (s.delay.onPacket time currentMs p actualDelay minRtt).clockDrift.natAbs ≤ 2 ^ 30)
      ∧ (s.delay.currentDelaySamples + 1 < 2 ^ 31 →
        let d := s.delay.theirDelay time currentMs p
        AveragedExactly d currentMs actualDelay
          ∧ s.delay.onPacket time currentMs p actualDelay minRtt
            = (if actualDelay ≠ 0 then d.averageSample currentMs actualDelay else d).cap minRtt) := by
  have hok : DelayOk s.delay := reachable_delayOk h key s hs
  have hbounds : ∀ {d : Delay}, DelayOk d →
      d.averageDelay.natAbs ≤ 2 ^ 29 - 1 ∧ d.clockDrift.natAbs ≤ 2 ^ 30 := by
    intro d hd
    have hbound := maxAverageDelaySample_eq
    have haverage := hd.average
    have hdrift := hd.drift
    omega
  refine ⟨hbounds hok, hbounds (delayOk_onPacket hok time currentMs p actualDelay minRtt),
    fun hfew => ⟨?_, rfl⟩⟩
  -- `their_delay` leaves the number of samples
  have hsamples : (s.delay.theirDelay time currentMs p).currentDelaySamples
      = s.delay.currentDelaySamples := by
    unfold Delay.theirDelay
    dsimp only
    generalize (if p = 0 then 0 else UInt32.ofNat time - p) = delay
    generalize (if delay ≠ 0 then s.delay.theirHist.addSample delay currentMs
      else s.delay.theirHist) = theirs
    split <;> rfl
  exact averagedExactly (delayOk_theirDelay hok time currentMs p) (by rw [hsamples]; exact hfew)
    currentMs actualDelay

/-- Three packets of a connection report its delay, the last two more than the
    first; then six seconds pass. -/
def reportOps : List Op :=
  [arrives (datagram stSyn 1000 1 0 []), arrives (reporting 1000 (datagram stData 1001 2 52654 [7])),
    arrives (reporting 9000 (datagram stData 1001 3 52654 [8])),
    arrives (reporting 12000 (datagram stData 1001 4 52654 [9])), .elapse ⟨6000000⟩]

/-- The next report closes a slot that holds three samples, and moves the drift. -/
theorem drift_bounded_accepted :
    ∃ ctx s, Reachable ctx ∧ ctx.sockets.lookup acceptedKey = some s
      ∧ s.delay.currentDelaySamples = 3 ∧ s.delay.averageSampleTime < ctx.clock.millis
      ∧ (s.delay.averageSample ctx.clock.millis 15000).clockDrift = 1031
      ∧ AveragedExactly (s.delay.theirDelay ctx.clock.micros ctx.clock.millis 5)
        ctx.clock.millis 15000
      ∧ (s.delay.onPacket ctx.clock.micros ctx.clock.millis 5 15000 0).clockDrift.natAbs
        ≤ 2 ^ 30 := by
  obtain ⟨ctx, s, hreach, hs, hsamples, htime, hdrift⟩ := detachedAfter_of 0 reportOps acceptedKey
    (Q := fun m => m.sock.delay.currentDelaySamples = 3
      ∧ m.sock.delay.averageSampleTime < m.ctx.clock.millis
      ∧ (m.sock.delay.averageSample m.ctx.clock.millis 15000).clockDrift = 1031)
    (by decide +kernel)
  have hbounded := drift_bounded hreach hs ctx.clock.micros ctx.clock.millis 5 15000 0
  have hfew : s.delay.currentDelaySamples + 1 < 2 ^ 31 := by
    rw [show s.delay.currentDelaySamples = 3 from hsamples]
    decide
  exact ⟨ctx, s, hreach, hs, hsamples, htime, hdrift, (hbounded.2.2 hfew).1, hbounded.2.1.2⟩

end UtpDrift
