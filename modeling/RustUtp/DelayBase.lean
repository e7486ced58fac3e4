import RustUtp.DelayHist
import RustUtp.Lib.Circle

/-! # The delay base as a windowed minimum

    The base of a `DelayHist` is maintained in two places and recomputed once a
    minute, under a comparison that is an order on less than half of the
    circle.  As long as the history and each new sample fit in such an arc, the
    base is the minimum of the history, every recorded delay is the distance
    from it, and the estimate is the least of the last three.

    The unknown offset between the two clocks is added to every sample alike.
    Without any condition on the samples, adding a constant to all of them
    moves the base by that constant and changes nothing else. -/

namespace UtpDelayHist

open UtpUtil Circle

/-- The comparison of the code is the order of the circle. -/
theorem compareLess_iff_before (x y : UInt32) :
    wrappingCompareLess x y timestampMask = true ↔ Before x y := by
  have hmask : ∀ v : UInt32, v &&& timestampMask = v := fun v => UInt32.and_neg_one
  unfold wrappingCompareLess
  rw [hmask, hmask, decide_eq_true_iff, UInt32.lt_iff_toNat_lt]
  rfl

/-- It does not change when both sides are moved. -/
theorem compareLess_add (x y c : UInt32) :
    wrappingCompareLess (x + c) (y + c) timestampMask
      = wrappingCompareLess x y timestampMask := by
  rw [Bool.eq_iff_iff, compareLess_iff_before, compareLess_iff_before, before_add]

/-- What a slot reads after a write. -/
theorem get_set {α : Type} {n : Nat} (v : Vector α n) (i j : Fin n) (x : α) :
    (v.set i x).get j = if i = j then x else v.get j := by
  show (v.set i x)[j.val] = if i = j then x else v[j.val]
  rw [Vector.getElem_set]
  by_cases h : i = j
  · rw [if_pos h, if_pos (congrArg Fin.val h)]
  · rw [if_neg h, if_neg (fun hv => h (Fin.ext hv))]

theorem get_map {α β : Type} {n : Nat} (g : α → β) (v : Vector α n) (i : Fin n) :
    (v.map g).get i = g (v.get i) := by
  show (v.map g)[i.val] = g v[i.val]
  rw [Vector.getElem_map]

/-- A member stands in some slot. -/
theorem mem_toList_get {α : Type} {n : Nat} (v : Vector α n) (x : α) :
    x ∈ v.toList ↔ ∃ i : Fin n, v.get i = x := by
  rw [Vector.mem_toList_iff, Vector.mem_iff_getElem]
  exact ⟨fun ⟨i, hi, h⟩ => ⟨⟨i, hi⟩, h⟩, fun ⟨i, h⟩ => ⟨i.val, i.isLt, h⟩⟩

/-- One call on a delay history. -/
inductive HistCall where
  | addSample (sample : UInt32) (currentMs : Nat)
  | shift (offset : UInt32)

/-- The same call made with another offset between the clocks: samples move,
    shifts do not. -/
def HistCall.moved (c : UInt32) : HistCall → HistCall
  | .addSample sample currentMs => .addSample (sample + c) currentMs
  | .shift offset => .shift offset

namespace DelayHist

def call (h : DelayHist) : HistCall → DelayHist
  | .addSample sample currentMs => h.addSample sample currentMs
  | .shift offset => h.shift offset

def calls (h : DelayHist) (l : List HistCall) : DelayHist := l.foldl call h

/-- The history a sample is measured against. -/
def updated (h : DelayHist) (sample : UInt32) : DelayHist := (h.initBase sample).lower sample

/-- The delay that `addSample` records. -/
def recorded (h : DelayHist) (sample : UInt32) : UInt32 := sample - (h.updated sample).delayBase

/-- `add_sample` in three parts: it lowers the base, records the delay, and
    opens a new slot when the minute is over. -/
theorem addSample_eq (h : DelayHist) (sample : UInt32) (currentMs : Nat) :
    h.addSample sample currentMs = ((h.updated sample).record sample).rollover sample currentMs :=
  rfl

/-- Only the first sample fills the history. -/
theorem updated_of_initialized {h : DelayHist} (hinit : h.delayBaseInitialized = true)
    (sample : UInt32) : h.updated sample = h.lower sample := by
  unfold updated initBase
  rw [if_pos hinit]

/-! ## Moving every sample by a constant

    A history whose samples are all `c` larger is the history shifted by `c`. -/

/-- Two shifts commute. -/
theorem shift_shift (h : DelayHist) (c d : UInt32) : (h.shift c).shift d = (h.shift d).shift c := by
  have hbase : h.delayBase + c + d = h.delayBase + d + c := by grind
  have hhist : (h.delayBaseHist.map (· + c)).map (· + d)
      = (h.delayBaseHist.map (· + d)).map (· + c) := by
    rw [Vector.map_map, Vector.map_map]
    congr 1
    funext v
    show v + c + d = v + d + c
    grind
  unfold shift
  dsimp only
  rw [hbase, hhist]

/-- Lowering touches two fields, each by its own comparison. -/
theorem lower_eq (h : DelayHist) (sample : UInt32) :
    h.lower sample
      = { h with
          delayBaseHist :=
            if wrappingCompareLess sample (h.delayBaseHist.get h.delayBaseIdx) timestampMask then
              h.delayBaseHist.set h.delayBaseIdx sample h.delayBaseIdx_lt
            else h.delayBaseHist
          delayBase :=
            if wrappingCompareLess sample h.delayBase timestampMask then sample
            else h.delayBase } := by
  unfold lower
  dsimp only
  split <;> split <;> rfl

/-- Lowering the base commutes with a shift. -/
theorem lower_shift (h : DelayHist) (sample c : UInt32) :
    (h.shift c).lower (sample + c) = (h.lower sample).shift c := by
  have hset : (h.delayBaseHist.map (· + c)).set h.delayBaseIdx (sample + c)
      = (h.delayBaseHist.set h.delayBaseIdx sample).map (· + c) := Vector.map_set.symm
  rw [lower_eq, lower_eq]
  unfold shift
  dsimp only
  rw [get_map, compareLess_add, compareLess_add, hset]
  congr 1
  · exact (apply_ite (· + c) _ _ _).symm
  · exact (apply_ite (Vector.map (· + c)) _ _ _).symm

/-- Recording a delay commutes with a shift: a delay is a difference. -/
theorem record_shift (h : DelayHist) (sample c : UInt32) :
    (h.shift c).record (sample + c) = (h.record sample).shift c := by
  have hdelay : sample + c - (h.delayBase + c) = sample - h.delayBase := by grind
  unfold record shift
  dsimp only
  rw [hdelay]

/-- The lowest delay in a history, by the scan of the source. -/
def lowest (hist : Vector UInt32 delayBaseHistory) : UInt32 :=
  hist.toList.foldl (fun base v => if wrappingCompareLess v base timestampMask then v else base)
    (hist.get 0)

/-- Slot `idx` opened with the sample, and the base found again. -/
def openSlot (h : DelayHist) (idx : Fin delayBaseHistory) (sample : UInt32) (currentMs : Nat) :
    DelayHist :=
  { h with
    delayBaseTime := currentMs
    delayBaseIdx := idx
    delayBaseHist := h.delayBaseHist.set idx sample
    delayBase := lowest (h.delayBaseHist.set idx sample) }

/-- A slot is opened once a minute. -/
theorem rollover_eq (h : DelayHist) (sample : UInt32) (currentMs : Nat) :
    h.rollover sample currentMs
      = if msSub currentMs h.delayBaseTime > 60 * 1000 then
          h.openSlot (h.delayBaseIdx + 1) sample currentMs
        else h := rfl

/-- The lowest entry of a shifted history. -/
theorem lowest_map (hist : Vector UInt32 delayBaseHistory) (c : UInt32) :
    lowest (hist.map (· + c)) = lowest hist + c := by
  have hscan := scan_map (fun v b => wrappingCompareLess v b timestampMask) (g := (· + c))
    (fun x y => compareLess_add x y c) hist.toList (hist.get 0)
  unfold lowest
  rw [Vector.toList_map, get_map]
  exact hscan

/-- Opening a slot commutes with a shift. -/
theorem openSlot_shift (h : DelayHist) (idx : Fin delayBaseHistory) (sample c : UInt32)
    (currentMs : Nat) :
    (h.shift c).openSlot idx (sample + c) currentMs
      = (h.openSlot idx sample currentMs).shift c := by
  have hset : (h.delayBaseHist.map (· + c)).set idx (sample + c)
      = (h.delayBaseHist.set idx sample).map (· + c) := Vector.map_set.symm
  unfold openSlot shift
  dsimp only
  rw [hset, lowest_map]

theorem rollover_shift (h : DelayHist) (sample c : UInt32) (currentMs : Nat) :
    (h.shift c).rollover (sample + c) currentMs = (h.rollover sample currentMs).shift c := by
  have htime : (h.shift c).delayBaseTime = h.delayBaseTime := rfl
  rw [rollover_eq, rollover_eq, htime]
  split
  · exact openSlot_shift h _ sample c currentMs
  · rfl

/-- **OFFSET OF ONE SAMPLE**: on an initialized history. -/
theorem addSample_shift {h : DelayHist} (hinit : h.delayBaseInitialized = true)
    (sample c : UInt32) (currentMs : Nat) :
    (h.shift c).addSample (sample + c) currentMs = (h.addSample sample currentMs).shift c := by
  have hinit' : (h.shift c).delayBaseInitialized = true := hinit
  rw [addSample_eq, addSample_eq, updated_of_initialized hinit, updated_of_initialized hinit',
    lower_shift, record_shift, rollover_shift]

/-- The first sample fills every slot. -/
theorem updated_new (currentMs : Nat) (sample : UInt32) :
    (new currentMs).updated sample
      = { new currentMs with
          delayBaseHist := Vector.replicate _ sample
          delayBase := sample
          delayBaseInitialized := true } := by
  have hself : ¬ wrappingCompareLess sample sample timestampMask = true := by
    rw [compareLess_iff_before]
    exact Nat.lt_irrefl _
  have hslot : (Vector.replicate delayBaseHistory sample).get 0 = sample := by
    show (Vector.replicate delayBaseHistory sample)[0] = sample
    rw [Vector.getElem_replicate]
  show ((new currentMs).initBase sample).lower sample = _
  rw [lower_eq]
  show ({ new currentMs with
      delayBaseHist := if wrappingCompareLess sample
          ((Vector.replicate delayBaseHistory sample).get 0) timestampMask then _ else _
      delayBase := if wrappingCompareLess sample sample timestampMask then _ else _
      delayBaseInitialized := true } : DelayHist) = _
  rw [hslot, if_neg hself, if_neg hself]
  rfl

/-- **OFFSET OF THE FIRST SAMPLE**. -/
theorem addSample_new_shift (start : Nat) (sample c : UInt32) (currentMs : Nat) :
    (new start).addSample (sample + c) currentMs
      = ((new start).addSample sample currentMs).shift c := by
  have hfresh : (new start).updated (sample + c) = ((new start).updated sample).shift c := by
    rw [updated_new, updated_new]
    unfold shift
    dsimp only
    rw [Vector.map_replicate]
  rw [addSample_eq, addSample_eq, hfresh, record_shift, rollover_shift]

/-- The turn of the minute leaves the flag. -/
theorem initialized_rollover (h : DelayHist) (sample : UInt32) (currentMs : Nat) :
    (h.rollover sample currentMs).delayBaseInitialized = h.delayBaseInitialized := by
  unfold rollover
  split <;> rfl

theorem initialized_lower (h : DelayHist) (sample : UInt32) :
    (h.lower sample).delayBaseInitialized = h.delayBaseInitialized := by
  unfold lower
  dsimp only
  split <;> split <;> rfl

/-- After a sample the history is in use. -/
theorem initialized_addSample (h : DelayHist) (sample : UInt32) (currentMs : Nat) :
    (h.addSample sample currentMs).delayBaseInitialized = true := by
  rw [addSample_eq, initialized_rollover]
  show (h.updated sample).delayBaseInitialized = true
  unfold updated initBase
  rw [initialized_lower]
  split
  · assumption
  · rfl

/-- **SHIFTED CALLS GIVE A SHIFTED HISTORY**, call after call. -/
theorem calls_shift (c : UInt32) (l : List HistCall) :
    ∀ h : DelayHist, h.delayBaseInitialized = true →
      (h.shift c).calls (l.map (HistCall.moved c)) = (h.calls l).shift c := by
  induction l with
  | nil => intro h _; rfl
  | cons a l ih =>
      intro h hinit
      cases a with
      | addSample sample currentMs =>
          show ((h.shift c).addSample (sample + c) currentMs).calls _ = _
          rw [addSample_shift hinit]
          exact ih _ (initialized_addSample h sample currentMs)
      | shift offset =>
          show ((h.shift c).shift offset).calls _ = _
          rw [shift_shift]
          exact ih _ hinit

/-- **CLOCK-OFFSET INDEPENDENCE**: moving every sample by the same constant
    moves the base by it and leaves the queuing delay alone. -/
theorem calls_moved (start : Nat) (sample : UInt32) (currentMs : Nat) (l : List HistCall)
    (c : UInt32) :
    ((new start).calls ((HistCall.addSample sample currentMs :: l).map (HistCall.moved c))).getValue
        = ((new start).calls (.addSample sample currentMs :: l)).getValue
      ∧ ((new start).calls
            ((HistCall.addSample sample currentMs :: l).map (HistCall.moved c))).delayBase
          = ((new start).calls (.addSample sample currentMs :: l)).delayBase + c := by
  have hrun : (new start).calls ((HistCall.addSample sample currentMs :: l).map (HistCall.moved c))
      = ((new start).calls (.addSample sample currentMs :: l)).shift c := by
    show ((new start).addSample (sample + c) currentMs).calls (l.map (HistCall.moved c)) = _
    rw [addSample_new_shift, calls_shift c l _ (initialized_addSample _ _ _)]
    rfl
  rw [hrun]
  exact ⟨rfl, rfl⟩

/-! ## The base is the minimum of the history -/

/-- The base is a member of the history and no member comes before it. -/
structure IsWindowMin (h : DelayHist) : Prop where
  mem : h.delayBase ∈ h.delayBaseHist.toList
  least : ∀ v ∈ h.delayBaseHist.toList,
    v = h.delayBase ∨ wrappingCompareLess h.delayBase v timestampMask = true

/-- The history and the sample fit in an arc of less than half the circle. -/
def Fits (h : DelayHist) (sample : UInt32) : Prop :=
  ∃ a, InArc a (sample :: h.delayBaseHist.toList)

/-- On an arc the circular minimum is the ordinary one, by the distance from its
    start. -/
theorem isWindowMin_iff {h : DelayHist} {a : UInt32} (harc : InArc a h.delayBaseHist.toList) :
    IsWindowMin h ↔ h.delayBase ∈ h.delayBaseHist.toList
      ∧ ∀ v ∈ h.delayBaseHist.toList, dist a h.delayBase ≤ dist a v := by
  constructor
  · rintro ⟨hmem, hleast⟩
    refine ⟨hmem, fun v hv => ?_⟩
    rcases hleast v hv with rfl | hless
    · exact Nat.le_refl _
    · rw [compareLess_iff_before, before_iff (harc _ hmem) (harc v hv)] at hless
      exact Nat.le_of_lt hless
  · rintro ⟨hmem, hleast⟩
    refine ⟨hmem, fun v hv => ?_⟩
    rcases Nat.eq_or_lt_of_le (hleast v hv) with heq | hlt
    · exact .inl (dist_inj heq.symm)
    · right
      rw [compareLess_iff_before, before_iff (harc _ hmem) (harc v hv)]
      exact hlt

/-- A written slot holds the sample, all others what they held. -/
theorem mem_set {hist : Vector UInt32 delayBaseHistory} {i : Fin delayBaseHistory}
    {sample v : UInt32} (h : v ∈ (hist.set i sample).toList) : v ∈ sample :: hist.toList := by
  obtain ⟨j, hj⟩ := (mem_toList_get _ v).mp h
  rw [get_set] at hj
  split at hj
  · rw [← hj]
    exact List.mem_cons_self ..
  · exact List.mem_cons_of_mem _ ((mem_toList_get _ v).mpr ⟨j, hj⟩)

theorem mem_set_self (hist : Vector UInt32 delayBaseHistory) (i : Fin delayBaseHistory)
    (sample : UInt32) : sample ∈ (hist.set i sample).toList :=
  (mem_toList_get _ _).mpr ⟨i, by rw [get_set, if_pos rfl]⟩

/-- A lowered history holds old entries and the sample only. -/
theorem mem_lower {h : DelayHist} {sample v : UInt32}
    (hv : v ∈ (h.lower sample).delayBaseHist.toList) : v ∈ sample :: h.delayBaseHist.toList := by
  rw [lower_eq] at hv
  dsimp only at hv
  split at hv
  · exact mem_set hv
  · exact List.mem_cons_of_mem _ hv

/-- **LOWERING KEEPS THE MINIMUM**: slot and base are compared separately, but on
    an arc a sample below the base is below the slot too. -/
theorem IsWindowMin.lower {h : DelayHist} (hmin : IsWindowMin h) {sample a : UInt32}
    (harc : InArc a (sample :: h.delayBaseHist.toList)) :
    IsWindowMin (h.lower sample) ∧ dist a (h.lower sample).delayBase ≤ dist a sample := by
  have hsample := harc sample (List.mem_cons_self ..)
  have hold : InArc a h.delayBaseHist.toList := fun v hv => harc v (List.mem_cons_of_mem _ hv)
  have hnew : InArc a (h.lower sample).delayBaseHist.toList := fun v hv => harc v (mem_lower hv)
  obtain ⟨hmem, hleast⟩ := (isWindowMin_iff hold).mp hmin
  have hslot : h.delayBaseHist.get h.delayBaseIdx ∈ h.delayBaseHist.toList :=
    (mem_toList_get _ _).mpr ⟨_, rfl⟩
  rw [isWindowMin_iff hnew]
  have hbase : wrappingCompareLess sample h.delayBase timestampMask = true
      ↔ dist a sample < dist a h.delayBase := by
    rw [compareLess_iff_before, before_iff hsample (hold _ hmem)]
  have hcur : wrappingCompareLess sample (h.delayBaseHist.get h.delayBaseIdx) timestampMask = true
      ↔ dist a sample < dist a (h.delayBaseHist.get h.delayBaseIdx) := by
    rw [compareLess_iff_before, before_iff hsample (hold _ hslot)]
  have hall : ∀ v ∈ (h.lower sample).delayBaseHist.toList,
      v = sample ∨ dist a h.delayBase ≤ dist a v := by
    intro v hv
    rcases List.mem_cons.mp (mem_lower hv) with hv | hv
    · exact .inl hv
    · exact .inr (hleast v hv)
  rw [lower_eq] at hall ⊢
  dsimp only at hall ⊢
  by_cases h₁ : dist a sample < dist a h.delayBase
  · have h₂ : dist a sample < dist a (h.delayBaseHist.get h.delayBaseIdx) :=
      Nat.lt_of_lt_of_le h₁ (hleast _ hslot)
    rw [if_pos (hcur.mpr h₂)] at hall ⊢
    rw [if_pos (hbase.mpr h₁)]
    refine ⟨⟨mem_set_self _ _ _, fun v hv => ?_⟩, Nat.le_refl _⟩
    rcases hall v hv with rfl | hge
    · exact Nat.le_refl _
    · omega
  · rw [if_neg (mt hbase.mp h₁)]
    refine ⟨⟨?_, fun v hv => ?_⟩, by omega⟩
    · split
      next hless =>
        -- the lowered slot was not the one that held the base
        obtain ⟨j, hj⟩ := (mem_toList_get _ _).mp hmem
        have hne : h.delayBaseIdx ≠ j := by
          rintro rfl
          rw [hcur, hj] at hless
          exact h₁ hless
        exact (mem_toList_get _ _).mpr ⟨j, by rw [get_set, if_neg hne, hj]⟩
      next => exact hmem
    · rcases hall v hv with rfl | hge
      · omega
      · exact hge

/-- **THE RESCAN FINDS THE MINIMUM**. -/
theorem isWindowMin_openSlot {h : DelayHist} (idx : Fin delayBaseHistory) {sample a : UInt32}
    (currentMs : Nat) (harc : InArc a (sample :: h.delayBaseHist.toList)) :
    IsWindowMin (h.openSlot idx sample currentMs) := by
  have hnew : InArc a (h.delayBaseHist.set idx sample).toList := fun v hv => harc v (mem_set hv)
  have hfirst : (h.delayBaseHist.set idx sample).get 0 ∈ (h.delayBaseHist.set idx sample).toList :=
    (mem_toList_get _ _).mpr ⟨_, rfl⟩
  have hscan := @scan_least _ (fun v b => wrappingCompareLess v b timestampMask) (dist a)
    (fun v => dist a v < 2 ^ 31)
    (fun x y hx hy => by rw [compareLess_iff_before, before_iff hx hy])
    (h.delayBaseHist.set idx sample).toList _ (hnew _ hfirst) hnew
  refine (isWindowMin_iff (h := h.openSlot idx sample currentMs) hnew).mpr ⟨?_, fun v hv => ?_⟩
  · rcases List.mem_cons.mp hscan.1 with heq | hmem
    · have hlow : lowest (h.delayBaseHist.set idx sample)
          = (h.delayBaseHist.set idx sample).get 0 := heq
      show lowest (h.delayBaseHist.set idx sample) ∈ _
      rw [hlow]
      exact hfirst
    · exact hmem
  · exact hscan.2 v (List.mem_cons_of_mem _ hv)

/-- The base is the minimum again after the turn of a minute. -/
theorem isWindowMin_rollover {h : DelayHist} (hmin : IsWindowMin h) {sample a : UInt32}
    (currentMs : Nat) (harc : InArc a (sample :: h.delayBaseHist.toList)) :
    IsWindowMin (h.rollover sample currentMs) := by
  rw [rollover_eq]
  split
  · exact isWindowMin_openSlot _ currentMs harc
  · exact hmin

/-- The minimum moves with a shift. -/
theorem IsWindowMin.shift {h : DelayHist} (hmin : IsWindowMin h) (offset : UInt32) :
    IsWindowMin (h.shift offset) := by
  have hlist : (h.shift offset).delayBaseHist.toList = h.delayBaseHist.toList.map (· + offset) :=
    Vector.toList_map
  refine ⟨?_, fun v hv => ?_⟩
  · rw [hlist]
    exact List.mem_map.mpr ⟨_, hmin.mem, rfl⟩
  · rw [hlist] at hv
    obtain ⟨w, hw, rfl⟩ := List.mem_map.mp hv
    rcases hmin.least w hw with rfl | hless
    · exact .inl rfl
    · right
      show wrappingCompareLess (h.delayBase + offset) (w + offset) timestampMask = true
      rw [compareLess_add]
      exact hless

/-- After the first sample all entries are equal. -/
theorem isWindowMin_updated_new (start : Nat) (sample : UInt32) :
    IsWindowMin ((new start).updated sample) := by
  rw [updated_new]
  have hmem : ∀ v, v ∈ (Vector.replicate delayBaseHistory sample).toList ↔ v = sample := by
    intro v
    rw [Vector.mem_toList_iff, Vector.mem_replicate]
    exact ⟨fun h => h.2, fun h => ⟨by decide, h⟩⟩
  exact ⟨(hmem _).mpr rfl, fun v hv => .inl ((hmem v).mp hv)⟩

/-- Any history, any sample: the recorded delay is at most half the circle. -/
theorem recorded_le (h : DelayHist) (sample : UInt32) : (h.recorded sample).toNat ≤ 2 ^ 31 := by
  have hlow : ∀ g : DelayHist, (sample - (g.lower sample).delayBase).toNat ≤ 2 ^ 31 := by
    intro g
    rw [lower_eq]
    dsimp only
    by_cases hless : wrappingCompareLess sample g.delayBase timestampMask = true
    · rw [if_pos hless, UInt32.sub_self]
      exact Nat.zero_le _
    · rw [if_neg hless]
      exact dist_le_of_not_before (mt (compareLess_iff_before _ _).mpr hless)
  exact hlow _

/-! ## Runs, with the delays they recorded -/

/-- A fresh history under samples and shifts, with the recorded delays, the
    newest first.  A run starts with a sample, and from then on every sample
    fits in an arc with the history it meets. -/
inductive SampledRun : DelayHist → List UInt32 → Prop where
  | new (start : Nat) : SampledRun (new start) []
  | addSample {h : DelayHist} {delays : List UInt32} (hrun : SampledRun h delays)
      (sample : UInt32) (currentMs : Nat) (hfits : delays ≠ [] → h.Fits sample) :
      SampledRun (h.addSample sample currentMs) (h.recorded sample :: delays)
  | shift {h : DelayHist} {delays : List UInt32} (hrun : SampledRun h delays)
      (hstarted : delays ≠ []) (offset : UInt32) : SampledRun (h.shift offset) delays

/-- A run with a sample has the flag set. -/
theorem initialized_of_run {h : DelayHist} {delays : List UInt32} (hrun : SampledRun h delays) :
    delays ≠ [] → h.delayBaseInitialized = true := by
  induction hrun with
  | new start => exact fun h => absurd rfl h
  | addSample _ sample currentMs _ _ => exact fun _ => initialized_addSample _ sample currentMs
  | shift _ hstarted _ ih => exact fun _ => ih hstarted

/-- A run without one is still new. -/
theorem new_of_run {h : DelayHist} {delays : List UInt32} (hrun : SampledRun h delays) :
    delays = [] → ∃ start, h = new start := by
  cases hrun with
  | new start => exact fun _ => ⟨start, rfl⟩
  | addSample _ _ _ _ => exact fun h => nomatch h
  | shift _ hstarted _ => exact fun h => absurd h hstarted

/-- What one sample does to the base, wherever the run stands. -/
theorem isWindowMin_updated {h : DelayHist} {sample : UInt32}
    (hcase : (∃ start, h = new start)
      ∨ (h.delayBaseInitialized = true ∧ IsWindowMin h ∧ h.Fits sample)) :
    ∃ a, InArc a (sample :: (h.updated sample).delayBaseHist.toList)
      ∧ IsWindowMin (h.updated sample)
      ∧ dist a (h.updated sample).delayBase ≤ dist a sample := by
  rcases hcase with ⟨start, rfl⟩ | ⟨hinit, hmin, a, harc⟩
  · refine ⟨sample, fun v hv => ?_, isWindowMin_updated_new start sample, ?_⟩
    · have hv' : v = sample := by
        rw [updated_new] at hv
        rcases List.mem_cons.mp hv with rfl | hv
        · rfl
        · rw [Vector.mem_toList_iff, Vector.mem_replicate] at hv
          exact hv.2
      rw [hv', dist_self]
      decide
    · rw [updated_new]
  · rw [updated_of_initialized hinit]
    obtain ⟨hmin', hle⟩ := hmin.lower harc
    refine ⟨a, fun v hv => ?_, hmin', hle⟩
    rcases List.mem_cons.mp hv with rfl | hv
    · exact harc _ (List.mem_cons_self ..)
    · exact harc v (mem_lower hv)

/-- A delay on an arc is less than half the circle. -/
theorem recorded_lt {h : DelayHist} {sample a : UInt32}
    (harc : InArc a (sample :: (h.updated sample).delayBaseHist.toList))
    (hle : dist a (h.updated sample).delayBase ≤ dist a sample) :
    (h.recorded sample).toNat < 2 ^ 31 := by
  have hsample := harc sample (List.mem_cons_self ..)
  have hdist : (h.recorded sample).toNat = dist a sample - dist a (h.updated sample).delayBase :=
    dist_of_le hle
  omega

/-- A run is new, or it has a base that is the minimum. -/
theorem case_of_run {h : DelayHist} {delays : List UInt32} (hrun : SampledRun h delays)
    (hmin : delays ≠ [] → IsWindowMin h) {sample : UInt32} (hfits : delays ≠ [] → h.Fits sample) :
    (∃ start, h = new start)
      ∨ (h.delayBaseInitialized = true ∧ IsWindowMin h ∧ h.Fits sample) := by
  by_cases hne : delays = []
  · exact .inl (new_of_run hrun hne)
  · exact .inr ⟨initialized_of_run hrun hne, hmin hne, hfits hne⟩

/-- **THE BASE IS THE MINIMUM** in every run with a sample. -/
theorem isWindowMin_of_run {h : DelayHist} {delays : List UInt32} (hrun : SampledRun h delays) :
    delays ≠ [] → IsWindowMin h := by
  induction hrun with
  | new start => exact fun h => absurd rfl h
  | @addSample h delays hrun sample currentMs hfits ih =>
      intro _
      obtain ⟨a, harc, hmin, -⟩ := isWindowMin_updated (case_of_run hrun ih hfits)
      rw [addSample_eq]
      have hmin' : IsWindowMin ((h.updated sample).record sample) := ⟨hmin.mem, hmin.least⟩
      exact isWindowMin_rollover hmin' currentMs harc
  | shift _ hstarted offset ih => exact fun _ => (ih hstarted).shift offset

/-! ## The estimate is the least of the last three delays -/

/-- The three slots, the newest first. -/
def lastThree (h : DelayHist) : List UInt32 :=
  [h.curDelayHist.get (h.curDelayIdx + 2), h.curDelayHist.get (h.curDelayIdx + 1),
    h.curDelayHist.get h.curDelayIdx]

/-- A sample pushes its delay to the front of the last three. -/
theorem lastThree_addSample (h : DelayHist) (sample : UInt32) (currentMs : Nat) :
    (h.addSample sample currentMs).lastThree = h.recorded sample :: h.lastThree.take 2 := by
  have hroll : ∀ g : DelayHist, (g.rollover sample currentMs).lastThree = g.lastThree := by
    intro g
    rw [rollover_eq]
    split <;> rfl
  have hrec : ∀ g : DelayHist,
      (g.record sample).lastThree = (sample - g.delayBase) :: g.lastThree.take 2 := by
    intro g
    have hidx : ∀ i : Fin curDelaySize,
        i + 1 + 2 = i ∧ i + 1 + 1 = i + 2 ∧ i ≠ i + 2 ∧ i ≠ i + 1 := by decide
    obtain ⟨h₁, h₂, h₃, h₄⟩ := hidx g.curDelayIdx
    unfold lastThree record
    dsimp only
    rw [h₁, h₂, get_set, get_set, get_set, if_pos rfl, if_neg h₃, if_neg h₄]
    rfl
  have hupd : (h.updated sample).lastThree = h.lastThree := by
    unfold updated initBase
    rw [lower_eq]
    split <;> rfl
  rw [addSample_eq, hroll, hrec, hupd]
  rfl

/-- The last three are the window of recorded delays. -/
theorem mem_lastThree (h : DelayHist) (d : UInt32) :
    d ∈ h.lastThree ↔ d ∈ h.curDelayHist.toList := by
  have hidx : ∀ i j : Fin curDelaySize, j = i + 2 ∨ j = i + 1 ∨ j = i := by decide
  rw [mem_toList_get]
  unfold lastThree
  rw [List.mem_cons, List.mem_cons, List.mem_singleton]
  constructor
  · rintro (h | h | h)
    · exact ⟨_, h.symm⟩
    · exact ⟨_, h.symm⟩
    · exact ⟨_, h.symm⟩
  · rintro ⟨j, rfl⟩
    rcases hidx h.curDelayIdx j with hj | hj | hj
    · exact .inl (by rw [← hj])
    · exact .inr (.inl (by rw [← hj]))
    · exact .inr (.inr (by rw [← hj]))

theorem min_spec (b v : UInt32) : (min b v = b ∨ min b v = v) ∧ min b v ≤ b ∧ min b v ≤ v := by
  have hmin : min b v = if b ≤ v then b else v := rfl
  rw [hmin]
  split
  next hle => exact ⟨.inl rfl, UInt32.le_refl b, hle⟩
  next hle => exact ⟨.inr rfl, (UInt32.le_total b v).resolve_left hle, UInt32.le_refl v⟩

/-- Folding with `min` finds the least element. The induction is on the list. -/
theorem foldl_min_spec (l : List UInt32) :
    ∀ b, (l.foldl min b = b ∨ l.foldl min b ∈ l) ∧ l.foldl min b ≤ b ∧ ∀ d ∈ l, l.foldl min b ≤ d := by
  induction l with
  | nil => exact fun b => ⟨.inl rfl, UInt32.le_refl b, fun d hd => nomatch hd⟩
  | cons v l ih =>
      intro b
      obtain ⟨hmem, hle, hall⟩ := ih (min b v)
      obtain ⟨hchoice, hleft, hright⟩ := min_spec b v
      rw [List.foldl_cons]
      refine ⟨?_, UInt32.le_trans hle hleft, fun d hd => ?_⟩
      · rcases hmem with heq | hmem
        · rcases hchoice with hb | hv
          · exact .inl (heq.trans hb)
          · exact .inr (List.mem_cons.mpr (.inl (heq.trans hv)))
        · exact .inr (List.mem_cons_of_mem v hmem)
      · rcases List.mem_cons.mp hd with rfl | hd
        · exact UInt32.le_trans hle hright
        · exact hall d hd

/-- `get_value` is the least of the last three. -/
theorem getValue_spec (h : DelayHist) :
    h.getValue ∈ h.lastThree ∧ ∀ d ∈ h.lastThree, h.getValue ≤ d := by
  obtain ⟨hmem, -, hall⟩ := foldl_min_spec h.curDelayHist.toList 0xffffffff
  have hleast : ∀ d ∈ h.lastThree, h.getValue ≤ d := fun d hd => hall d ((mem_lastThree h d).mp hd)
  refine ⟨?_, hleast⟩
  rcases hmem with hmax | hmem
  · -- every slot then holds the largest value
    have hslot : h.curDelayHist.get h.curDelayIdx ∈ h.lastThree :=
      (mem_lastThree h _).mpr ((mem_toList_get _ _).mpr ⟨_, rfl⟩)
    have hge := hleast _ hslot
    have hvalue : h.getValue = h.curDelayHist.get h.curDelayIdx := by
      have htop : h.getValue = 0xffffffff := hmax
      rw [htop] at hge ⊢
      have hlt := (h.curDelayHist.get h.curDelayIdx).toNat_lt
      rw [UInt32.le_iff_toNat_le] at hge
      refine UInt32.toNat_inj.mp (Nat.le_antisymm hge ?_)
      show _ ≤ 2 ^ 32 - 1
      omega
    rw [hvalue]
    exact hslot
  · exact (mem_lastThree h _).mpr hmem

/-- The slots are the recorded delays, then the zeros the window starts with;
    and the first delay of a run is itself zero. -/
theorem lastThree_of_run {h : DelayHist} {delays : List UInt32} (hrun : SampledRun h delays) :
    h.lastThree = (delays ++ [0, 0, 0]).take 3 ∧ (delays ≠ [] → (0 : UInt32) ∈ delays) := by
  induction hrun with
  | new start => exact ⟨rfl, fun h => absurd rfl h⟩
  | @addSample h delays hrun sample currentMs hfits ih =>
      refine ⟨?_, fun _ => ?_⟩
      · rw [lastThree_addSample, ih.1, List.take_take, List.cons_append, List.take_succ_cons]
        rfl
      · by_cases hne : delays = []
        · obtain ⟨start, rfl⟩ := new_of_run hrun hne
          have hzero : (new start).recorded sample = 0 := by
            unfold recorded
            rw [updated_new]
            exact UInt32.sub_self sample
          rw [hzero]
          exact List.mem_cons_self ..
        · exact List.mem_cons_of_mem _ (ih.2 hne)
  | shift _ hstarted offset ih => exact ih

theorem getValue_of_run {h : DelayHist} {delays : List UInt32} (hrun : SampledRun h delays)
    (hne : delays ≠ []) :
    h.getValue ∈ delays.take 3 ∧ ∀ d ∈ delays.take 3, h.getValue ≤ d := by
  obtain ⟨hthree, hzero⟩ := lastThree_of_run hrun
  obtain ⟨hmem, hleast⟩ := getValue_spec h
  rw [hthree] at hmem hleast
  by_cases hlen : 3 ≤ delays.length
  · rw [List.take_append_of_le_length hlen] at hmem hleast
    exact ⟨hmem, hleast⟩
  · -- a short run still shows its first delay, which is zero
    have htake : delays.take 3 = delays := List.take_of_length_le (by omega)
    have hsub : ∀ d ∈ delays, d ∈ (delays ++ [0, 0, 0]).take 3 := by
      intro d hd
      rw [List.take_append, htake]
      exact List.mem_append_left _ hd
    have hle := hleast 0 (hsub 0 (hzero hne))
    have hvalue : h.getValue = 0 := UInt32.le_zero_iff.mp hle
    rw [htake]
    refine ⟨?_, fun d hd => hleast d (hsub d hd)⟩
    rw [hvalue]
    exact hzero hne

/-- The delay is what the sample leaves in the current slot. -/
theorem curDelayHist_addSample (h : DelayHist) (sample : UInt32) (currentMs : Nat) :
    (h.addSample sample currentMs).curDelayHist
      = h.curDelayHist.set h.curDelayIdx (h.recorded sample) h.curDelayIdx_lt := by
  have hroll : ∀ g : DelayHist, (g.rollover sample currentMs).curDelayHist = g.curDelayHist := by
    intro g
    rw [rollover_eq]
    split <;> rfl
  rw [addSample_eq, hroll]
  unfold record recorded updated initBase
  rw [lower_eq]
  split <;> rfl

/-- **THE BASE IS THE WINDOWED MINIMUM**: after every call of a run the base is
    the least member of the history and the estimate the least of the last
    three delays; every sample that fits is recorded as its distance from the
    least member of the history it has just updated.  Whatever the samples, no
    recorded delay exceeds half the circle. -/
theorem base_is_windowed_min :
    (∀ (h : DelayHist) (delays : List UInt32), SampledRun h delays →
      (delays ≠ [] → IsWindowMin h
          ∧ h.getValue ∈ delays.take 3 ∧ ∀ d ∈ delays.take 3, h.getValue ≤ d)
        ∧ ∀ sample, (delays ≠ [] → h.Fits sample) →
          IsWindowMin (h.updated sample)
            ∧ h.recorded sample = sample - (h.updated sample).delayBase
            ∧ (∀ currentMs, (h.addSample sample currentMs).curDelayHist
                = h.curDelayHist.set h.curDelayIdx (h.recorded sample) h.curDelayIdx_lt)
            ∧ (h.recorded sample).toNat < 2 ^ 31)
      ∧ ∀ (h : DelayHist) (sample : UInt32), (h.recorded sample).toNat ≤ 2 ^ 31 := by
  refine ⟨fun h delays hrun => ⟨fun hne => ?_, fun sample hfits => ?_⟩, recorded_le⟩
  · exact ⟨isWindowMin_of_run hrun hne, getValue_of_run hrun hne⟩
  · obtain ⟨a, harc, hmin, hle⟩ :=
      isWindowMin_updated (case_of_run hrun (isWindowMin_of_run hrun) hfits)
    exact ⟨hmin, rfl, curDelayHist_addSample h sample, recorded_lt harc hle⟩

/-- Two samples, the second wrapped past zero. -/
theorem base_is_windowed_min_wrapped :
    ((((new 0).addSample 0x400 0).recorded 0xffffff00).toNat < 2 ^ 31) := by
  have hfirst : SampledRun ((new 0).addSample 0x400 0) [(new 0).recorded 0x400] :=
    .addSample (.new 0) 0x400 0 (fun h => absurd rfl h)
  have hall : ((0xffffff00 : UInt32) :: ((new 0).addSample 0x400 0).delayBaseHist.toList).all
      (fun v => decide (dist 0xffffff00 v < 2 ^ 31)) = true := by decide
  refine ((base_is_windowed_min.1 _ _ hfirst).2 0xffffff00 (fun _ => ⟨0xffffff00, ?_⟩)).2.2.2
  exact fun v hv => of_decide_eq_true (List.all_eq_true.mp hall v hv)

end DelayHist

end UtpDelayHist
