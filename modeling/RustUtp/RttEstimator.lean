import RustUtp.Drift

/-! # The round-trip estimator stays inside its samples

    The smoothed round trip and its variance are updated in a mix of `u32` and
    `i32`, with divisions by 8 and by 4 that round towards zero.  Each update
    moves between the old value and the sample, so neither leaves the range of
    the samples, the variance never turns negative on the way, and the timeout
    made from both is at most five times the largest sample. -/

namespace UtpRttEstimator

open UtpCircular UtpPacket UtpUtil UtpConnShared UtpEngine UtpEngine.Detached UtpActs
open UtpController UtpDrift LabelledPath

/-- The three fields of the estimator. -/
def estimate (t : Timers) : Nat × Nat × Nat := (t.rtt, t.rttVar, t.rto)

/-- The round trip of a packet in milliseconds, as the ack computes it. -/
def ertt (m : Detached) (pkt : OutgoingPacket) : Nat :=
  msSub m.ctx.clock.micros pkt.timeSent / 1000 % 2 ^ 32

/-- Does acking `seq` take a sample? -/
def samples (m : Detached) (seq : UInt16) : Bool :=
  match m.sock.outbuf.get seq.toNat with
  | some pkt => pkt.transmissions = 1
  | none => false

/-- A sequence of `ack_packet` calls whose samples are at most `M`, from a new
    socket on, with whatever leaves the estimator alone in between. The flag
    tells whether a sample has been taken. -/
inductive EstimatorRun (M : Nat) : Timers → Bool → Prop where
  | new (ctx : Context) (addr : SocketAddr) (user : UserId) :
      EstimatorRun M (UtpSock.new ctx addr user).timers false
  | ack {m : Detached} {sampled : Bool} (hrun : EstimatorRun M m.sock.timers sampled)
      (seq : UInt16)
      (hsample : ∀ pkt, m.sock.outbuf.get seq.toNat = some pkt → pkt.transmissions = 1 →
        ertt m pkt ≤ M) :
      EstimatorRun M (m.ackPacket seq).1.sock.timers (sampled || samples m seq)
  | other {t t' : Timers} {sampled : Bool} (hrun : EstimatorRun M t sampled)
      (hsame : estimate t' = estimate t) : EstimatorRun M t' sampled

/-! ## One update -/

/-- The distance of the sample from the estimate, in absolute value. -/
def deviation (t : Timers) (sample : Nat) : Int := |asI32 t.rtt - asI32 sample|

/-- The variance before it is cast back. -/
def newVariance (t : Timers) (sample : Nat) : Int :=
  asI32 t.rttVar + (deviation t sample - asI32 t.rttVar).tdiv 4

/-- The update of a running estimator: its casts lose nothing, its arithmetic
    stays in range, and the variance is not negative before its cast. -/
structure UpdateExact (t : Timers) (sample : Nat) : Prop where
  rttCast : asI32 t.rtt = t.rtt
  sampleCast : asI32 sample = sample
  varCast : asI32 t.rttVar = t.rttVar
  delta : FitsI32 (asI32 t.rtt - asI32 sample)
  deviation : FitsI32 (UtpRttEstimator.deviation t sample)
  spread : FitsI32 (UtpRttEstimator.deviation t sample - asI32 t.rttVar)
  nonneg : 0 ≤ newVariance t sample
  variance : FitsI32 (newVariance t sample)
  back : (asU32 (newVariance t sample) : Int) = newVariance t sample
  smoothed : t.rtt / 8 ≤ t.rtt ∧ t.rtt - t.rtt / 8 + sample / 8 < 2 ^ 32

/-- The new estimate lies between the old one and the sample; a restart takes
    the sample itself. -/
def Between (t : Timers) (sample rtt : Nat) : Prop :=
  if t.rtt = 0 then rtt = sample else min t.rtt sample ≤ rtt ∧ rtt ≤ max t.rtt sample

/-- Truncated division by four moves towards zero. -/
theorem tdiv_four (x : Int) :
    (0 ≤ x → 0 ≤ x.tdiv 4 ∧ x.tdiv 4 ≤ x) ∧ (x ≤ 0 → x ≤ x.tdiv 4 ∧ x.tdiv 4 ≤ 0) := by
  have hpos : ∀ y : Int, 0 ≤ y → 0 ≤ y.tdiv 4 ∧ y.tdiv 4 ≤ y := by
    intro y hy
    rw [Int.tdiv_eq_ediv_of_nonneg hy]
    omega
  refine ⟨hpos x, fun hx => ?_⟩
  obtain ⟨hlow, hhigh⟩ := hpos (-x) (by omega)
  rw [Int.neg_tdiv] at hlow hhigh
  omega

/-- The deviation is the distance between sample and estimate, as long as the
    casts lose nothing. -/
theorem deviation_eq {t : Timers} {sample : Nat} (hrtt : t.rtt < 2 ^ 31) (hs : sample < 2 ^ 31) :
    deviation t sample = (((t.rtt : Int) - sample).natAbs : Int) := by
  unfold deviation
  rw [asI32_small hrtt, asI32_small hs, Int.abs_eq_natAbs]

/-- **THE VARIANCE STAYS BETWEEN ITS OLD VALUE AND THE DEVIATION**. -/
theorem newVariance_between {t : Timers} {sample M : Nat} (hM : M < 2 ^ 28) (hrtt : t.rtt ≤ M)
    (hvar : t.rttVar ≤ M) (hs : sample ≤ M) :
    0 ≤ newVariance t sample ∧ newVariance t sample ≤ M := by
  obtain ⟨hup, hdown⟩ := tdiv_four (deviation t sample - t.rttVar)
  have hdev : 0 ≤ deviation t sample ∧ deviation t sample ≤ M := by
    rw [deviation_eq (by omega) (by omega)]
    omega
  unfold newVariance
  rw [asI32_small (by omega)]
  generalize (deviation t sample - t.rttVar).tdiv 4 = q at hup hdown ⊢
  omega

/-- **NO STEP OF AN UPDATE OVERFLOWS**. -/
theorem updateExact {t : Timers} {sample M : Nat} (hM : M < 2 ^ 28) (hrtt : t.rtt ≤ M)
    (hvar : t.rttVar ≤ M) (hs : sample ≤ M) : UpdateExact t sample := by
  have hrtt' : asI32 t.rtt = t.rtt := asI32_small (by omega)
  have hs' : asI32 sample = sample := asI32_small (by omega)
  have hvar' : asI32 t.rttVar = t.rttVar := asI32_small (by omega)
  have hdev := @deviation_eq t sample (by omega) (by omega)
  have hdevNat : (deviation t sample).natAbs ≤ M := by
    rw [hdev]
    omega
  obtain ⟨hnonneg, hle⟩ := newVariance_between hM hrtt hvar hs
  exact
    { rttCast := hrtt'
      sampleCast := hs'
      varCast := hvar'
      delta := by rw [hrtt', hs']; exact fitsI32_of_natAbs (by omega)
      deviation := fitsI32_of_natAbs (by omega)
      spread := by rw [hvar']; exact fitsI32_of_natAbs (by omega)
      nonneg := hnonneg
      variance := fitsI32_of_natAbs (by omega)
      back := by unfold asU32; omega
      smoothed := by omega }

/-- What a sample makes of the estimator. -/
theorem rttSample_spec {t : Timers} {sample M : Nat} (hM : M < 2 ^ 28) (hrtt : t.rtt ≤ M)
    (hvar : t.rtt ≠ 0 → t.rttVar ≤ M) (hs : sample ≤ M) (currentMs : Nat) :
    (t.rttSample sample currentMs).rtt ≤ M ∧ (t.rttSample sample currentMs).rttVar ≤ M
      ∧ Between t sample (t.rttSample sample currentMs).rtt
      ∧ (t.rttSample sample currentMs).rto
          = max ((t.rttSample sample currentMs).rtt + (t.rttSample sample currentMs).rttVar * 4)
              1000 := by
  unfold Timers.rttSample Between
  by_cases hzero : t.rtt = 0
  · rw [if_pos hzero, if_pos hzero]
    exact ⟨hs, Nat.le_trans (Nat.div_le_self _ _) hs, rfl, rfl⟩
  · rw [if_neg hzero, if_neg hzero]
    obtain ⟨hnonneg, hle⟩ := newVariance_between hM hrtt (hvar hzero) hs
    have hback := (updateExact hM hrtt (hvar hzero) hs).back
    refine ⟨?_, ?_, ⟨?_, ?_⟩, rfl⟩
    · show t.rtt - t.rtt / 8 + sample / 8 ≤ M
      omega
    · show asU32 (newVariance t sample) ≤ M
      omega
    · show min t.rtt sample ≤ t.rtt - t.rtt / 8 + sample / 8
      omega
    · show t.rtt - t.rtt / 8 + sample / 8 ≤ max t.rtt sample
      omega

/-! ## Runs -/

/-- The invariant of a run. -/
structure EstimatorOk (M : Nat) (t : Timers) (sampled : Bool) : Prop where
  rtt : t.rtt ≤ M
  variance : sampled = true → t.rttVar ≤ M
  unsampled : sampled = false → t.rtt = 0
  timeoutLow : 1000 ≤ t.rto
  timeoutHigh : t.rto ≤ max 3000 (5 * M)

/-- After the first sample the variance is bounded. -/
theorem EstimatorOk.running {M : Nat} {t : Timers} {sampled : Bool} (h : EstimatorOk M t sampled) :
    t.rtt ≠ 0 → t.rttVar ≤ M := by
  intro hne
  cases sampled with
  | true => exact h.variance rfl
  | false => exact absurd (h.unsampled rfl) hne

/-- The bounds are about the estimate only. -/
theorem estimatorOk_of_same {M : Nat} {t t' : Timers} {sampled : Bool}
    (h : EstimatorOk M t sampled) (hsame : estimate t' = estimate t) :
    EstimatorOk M t' sampled := by
  obtain ⟨hrtt, hpair⟩ := Prod.mk.inj hsame
  obtain ⟨hvar, hrto⟩ := Prod.mk.inj hpair
  refine ⟨?_, ?_, ?_, ?_, ?_⟩
  · rw [hrtt]; exact h.rtt
  · rw [hvar]; exact h.variance
  · rw [hrtt]; exact h.unsampled
  · rw [hrto]; exact h.timeoutLow
  · rw [hrto]; exact h.timeoutHigh

/-- A packet that is acked is a sample, or leaves the estimator alone. -/
theorem estimate_ackPacket (m : Detached) (seq : UInt16) :
    (∃ pkt, m.sock.outbuf.get seq.toNat = some pkt ∧ pkt.transmissions = 1
        ∧ estimate (m.ackPacket seq).1.sock.timers
          = estimate (m.sock.timers.rttSample (ertt m pkt) m.ctx.currentMs)
        ∧ samples m seq = true)
      ∨ estimate (m.ackPacket seq).1.sock.timers = estimate m.sock.timers
        ∧ samples m seq = false := by
  unfold ackPacket samples
  cases hp : m.sock.outbuf.get seq.toNat with
  | none => exact .inr ⟨rfl, rfl⟩
  | some pkt =>
      dsimp only
      by_cases hzero : pkt.transmissions = 0
      · rw [if_pos hzero]
        exact .inr ⟨rfl, decide_eq_false (by omega)⟩
      · rw [if_neg hzero]
        by_cases hone : pkt.transmissions = 1
        · refine .inl ⟨pkt, rfl, hone, ?_, decide_eq_true hone⟩
          show estimate (m.sock.timers.onAck pkt m.ctx.clock.micros m.ctx.currentMs) = _
          unfold Timers.onAck
          rw [if_pos hone]
          rfl
        · refine .inr ⟨?_, decide_eq_false hone⟩
          show estimate (m.sock.timers.onAck pkt m.ctx.clock.micros m.ctx.currentMs) = _
          unfold Timers.onAck
          rw [if_neg hone]
          rfl

/-- **ONE ACK KEEPS THE ESTIMATOR IN RANGE**. -/
theorem estimatorOk_ackPacket {M : Nat} (hM : M < 2 ^ 28) {m : Detached} {sampled : Bool}
    (h : EstimatorOk M m.sock.timers sampled) (seq : UInt16)
    (hsample : ∀ pkt, m.sock.outbuf.get seq.toNat = some pkt → pkt.transmissions = 1 →
      ertt m pkt ≤ M) :
    EstimatorOk M (m.ackPacket seq).1.sock.timers (sampled || samples m seq) := by
  rcases estimate_ackPacket m seq with ⟨pkt, hp, hone, hest, htook⟩ | ⟨hest, hnone⟩
  · obtain ⟨hrtt, hvar, -, hrto⟩ :=
      rttSample_spec hM h.rtt h.running (hsample pkt hp hone) m.ctx.currentMs
    rw [htook, Bool.or_true]
    refine estimatorOk_of_same (t := m.sock.timers.rttSample (ertt m pkt) m.ctx.currentMs) ?_ hest
    generalize m.sock.timers.rttSample (ertt m pkt) m.ctx.currentMs = t at hrtt hvar hrto ⊢
    refine ⟨hrtt, fun _ => hvar, (fun hfalse => nomatch hfalse), ?_, ?_⟩
    · omega
    · omega
  · rw [hnone, Bool.or_false]
    exact estimatorOk_of_same h hest

/-- **THE ESTIMATE IS BOUNDED** in every run. -/
theorem estimatorOk_of_run {M : Nat} (hM : M < 2 ^ 28) {t : Timers} {sampled : Bool}
    (h : EstimatorRun M t sampled) : EstimatorOk M t sampled := by
  induction h with
  | new ctx addr user =>
      refine ⟨Nat.zero_le _, (fun h => nomatch h), fun _ => rfl, ?_, ?_⟩
      · show 1000 ≤ 3000
        omega
      · show 3000 ≤ max 3000 (5 * M)
        omega
  | ack _ seq hsample ih => exact estimatorOk_ackPacket hM ih seq hsample
  | other _ hsame ih => exact estimatorOk_of_same ih hsame

/-! ## The result -/

/-- **THE ESTIMATOR STAYS INSIDE ITS SAMPLES**: after any sequence of acks whose
    samples are at most `M < 2 ^ 28` milliseconds, so are the round trip and,
    once a sample was taken, its variance; the timeout lies between a second
    and the larger of three seconds and `5 * M`; and the next sample moves the
    round trip between its old value and itself, without any overflow. -/
theorem estimator_bounded {M : Nat} (hM : M < 2 ^ 28) {t : Timers} {sampled : Bool}
    (h : EstimatorRun M t sampled) :
    t.rtt ≤ M
      ∧ (sampled = true → t.rttVar ≤ M)
      ∧ (1000 ≤ t.rto ∧ t.rto ≤ max 3000 (5 * M))
      ∧ ∀ sample currentMs, sample ≤ M →
        Between t sample (t.rttSample sample currentMs).rtt
          ∧ (t.rtt ≠ 0 → UpdateExact t sample)
          ∧ (t.rttSample sample currentMs).rtt + (t.rttSample sample currentMs).rttVar * 4 < 2 ^ 31
          ∧ ∀ (m : Detached) (pkt : OutgoingPacket),
            msSub m.ctx.clock.micros pkt.timeSent / 1000 = sample → ertt m pkt = sample := by
  have hok := estimatorOk_of_run hM h
  refine ⟨hok.rtt, hok.variance, ⟨hok.timeoutLow, hok.timeoutHigh⟩, fun sample currentMs hs => ?_⟩
  obtain ⟨hrtt, hvar, hbetween, -⟩ := rttSample_spec hM hok.rtt hok.running hs currentMs
  refine ⟨hbetween, fun hne => updateExact hM hok.rtt (hok.running hne) hs, by omega,
    fun m pkt hms => ?_⟩
  unfold ertt
  rw [hms]
  exact Nat.mod_eq_of_lt (by omega)

/-- The SYN of a dial is acked after 30 milliseconds. -/
theorem estimator_bounded_dialled :
    ∃ m : Detached, EstimatorRun 40 m.sock.timers true ∧ m.sock.timers.rttVar ≤ 40 := by
  obtain ⟨ctx, s, -, -, hest, hsyn, hround⟩ :=
    detachedAfter_of 0 [.connect peerAddr 1, .elapse ⟨30000⟩] firstKey
      (Q := fun m => estimate m.sock.timers = (0, 800, 3000)
        ∧ samples m 26100 = true
        ∧ ((m.sock.outbuf.get (26100 : UInt16).toNat).map (ertt m)) = some 30)
      (by decide +kernel)
  have hstart : EstimatorRun 40 (ctx.detach firstKey s).sock.timers false :=
    .other (.new ctx peerAddr 0) hest
  have hrun := EstimatorRun.ack hstart 26100 (fun pkt hp _ => by
    rw [hp, Option.map_some] at hround
    rw [Option.some.inj hround]
    decide)
  rw [hsyn, Bool.or_true] at hrun
  exact ⟨_, hrun, (estimator_bounded (by decide) hrun).2.1 rfl⟩

end UtpRttEstimator
