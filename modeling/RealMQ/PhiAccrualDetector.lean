import RealMQ.HistoryUpdates
import RealMQ.Foundation.LogisticTail

/- accrual_detector/phi_accrual_failure_detector.c as far as it only reads the state: the
   first history, phi and availability. Exact real numbers stand for float, so e is never
   0; the root of a negative variance is 0 here and NaN there, and MAX turns both into the
   minimum deviation. acceptable_heartbeat_pause_ms is read by nothing. -/
namespace RealMQ.PhiAccrualDetectors
open HeartbeatHistories HistoryUpdates Moments LogisticTail

structure PhiAccrualDetector (K : Type*) where
  threshold : K
  maxSampleSize : Nat
  minStdDeviationMs : K
  acceptableHeartbeatPauseMs : K
  firstHeartbeatEstimateMs : K

/-- The state_t that the detector points to; its history is not NULL. -/
structure State (K : Type*) where
  history : HeartbeatHistory K
  timestamp : Int

section FirstHeartbeat
variable {K : Type*} [Field K] [LinearOrder K]

def firstHeartbeat (detector : PhiAccrualDetector K) : Option (HeartbeatHistory K) :=
  let meanValue := detector.firstHeartbeatEstimateMs
  let stdDevValue := meanValue / 4
  (newHeartbeatHistory detector.maxSampleSize none 0 0 0).map fun heartbeatHistory =>
    addInterval (addInterval heartbeatHistory (meanValue - stdDevValue)) (meanValue + stdDevValue)

theorem first_heartbeat_exists {detector : PhiAccrualDetector K}
    (size : 0 < detector.maxSampleSize) : ∃ first, firstHeartbeat detector = some first := by
  obtain ⟨fresh, new, -⟩ := new_history (K := K) size
  exact ⟨_, by rw [firstHeartbeat, new, Option.map_some]⟩

theorem first_heartbeat_samples {detector : PhiAccrualDetector K}
    (size : 2 ≤ detector.maxSampleSize) :
    ∃ first, firstHeartbeat detector = some first ∧
      first.maxSampleSize = detector.maxSampleSize ∧ SumsCorrect first ∧
      samples first =
        [detector.firstHeartbeatEstimateMs - detector.firstHeartbeatEstimateMs / 4,
          detector.firstHeartbeatEstimateMs + detector.firstHeartbeatEstimateMs / 4] := by
  obtain ⟨fresh, new, max, empty, -⟩ :=
    new_history (K := K) (show 0 < detector.maxSampleSize by omega)
  have count : fresh.intervalCount = 0 := by
    have length := congrArg List.length empty
    simpa [samples] using length
  refine ⟨_, by rw [firstHeartbeat, new, Option.map_some], by simpa using max, sums_add _ _, ?_⟩
  have one := samples_add_growing
    (detector.firstHeartbeatEstimateMs - detector.firstHeartbeatEstimateMs / 4)
    (show fresh.intervalCount < fresh.maxSampleSize by omega)
  have counted : (addInterval fresh (detector.firstHeartbeatEstimateMs -
      detector.firstHeartbeatEstimateMs / 4)).intervalCount = 1 := by
    have length := congrArg List.length one
    simpa [samples, count] using length
  rw [samples_add_growing _ (by rw [counted, maxSampleSize_add]; omega), one, empty]
  rfl

end FirstHeartbeat

section Phi

noncomputable def stdDev (history : HeartbeatHistory ℝ) : ℝ := Real.sqrt (variance history)

noncomputable def ensureValidStdDeviation (detector : PhiAccrualDetector ℝ) (stdDeviation : ℝ) : ℝ :=
  if stdDeviation > detector.minStdDeviationMs then stdDeviation else detector.minStdDeviationMs

noncomputable def deviations (detector : PhiAccrualDetector ℝ) (history : HeartbeatHistory ℝ)
    (timeDiff : ℝ) : ℝ :=
  (timeDiff - mean history) / ensureValidStdDeviation detector (stdDev history)

noncomputable def decay (y : ℝ) : ℝ := Real.exp (-y * (1.5976 + 0.070566 * y * y))

noncomputable def phiAboveMean (e : ℝ) : ℝ := -Real.logb 10 (e / (1 + e))

noncomputable def phiUpToMean (e : ℝ) : ℝ := -Real.logb 10 (1 - 1 / (1 + e))

/-- now is what get_current_timestamp returns; ⊤ is INFINITY. -/
noncomputable def getPhi (detector : PhiAccrualDetector ℝ) (state : State ℝ) (now timestamp : Int) :
    EReal :=
  let timestamp := if timestamp = 0 then now else timestamp
  if state.timestamp = 0 then 0
  else
    let timeDiff : ℝ := ((timestamp - state.timestamp : Int) : ℝ)
    let e := decay (deviations detector state.history timeDiff)
    if e = 0 then ⊤
    else if timeDiff > mean state.history then ((phiAboveMean e : ℝ) : EReal)
    else ((phiUpToMean e : ℝ) : EReal)

def isAvailable (detector : PhiAccrualDetector ℝ) (state : State ℝ) (now timestamp : Int) : Prop :=
  let timestamp := if timestamp = 0 then now else timestamp
  getPhi detector state now timestamp < (detector.threshold : EReal)

noncomputable def exponent (y : ℝ) : ℝ := y * (1.5976 + 0.070566 * y * y)

theorem exponent_mono : Monotone exponent := cubic_mono (by norm_num) (by norm_num)

theorem decay_eq (y : ℝ) : decay y = Real.exp (-exponent y) := by
  unfold decay exponent
  rw [neg_mul]

theorem phi_above_mean_eq (y : ℝ) : phiAboveMean (decay y) = surprise 10 (exponent y) := by
  unfold phiAboveMean
  rw [decay_eq, neg_log_tail]

/-- Both branches of the formula are the same function of y. -/
theorem phi_branches_agree (y : ℝ) : phiUpToMean (decay y) = phiAboveMean (decay y) := by
  unfold phiUpToMean phiAboveMean
  rw [decay_eq, tail_complement (Real.exp_pos _)]

noncomputable def phiAfter (detector : PhiAccrualDetector ℝ) (history : HeartbeatHistory ℝ)
    (elapsed : ℝ) : ℝ :=
  surprise 10 (exponent (deviations detector history elapsed))

variable {detector : PhiAccrualDetector ℝ} {state : State ℝ}

theorem getPhi_eq (started : state.timestamp ≠ 0) {now timestamp : Int} (given : timestamp ≠ 0) :
    getPhi detector state now timestamp =
      (phiAfter detector state.history ((timestamp - state.timestamp : Int) : ℝ) : EReal) := by
  unfold getPhi phiAfter
  dsimp only
  have nonzero : decay (deviations detector state.history
      ((timestamp - state.timestamp : Int) : ℝ)) ≠ 0 := by
    rw [decay_eq]
    exact (Real.exp_pos _).ne'
  rw [if_neg given, if_neg started, if_neg nonzero, phi_branches_agree, phi_above_mean_eq, ite_self]

theorem isAvailable_iff (started : state.timestamp ≠ 0) {now timestamp : Int}
    (given : timestamp ≠ 0) :
    isAvailable detector state now timestamp ↔
      phiAfter detector state.history ((timestamp - state.timestamp : Int) : ℝ) <
        detector.threshold := by
  unfold isAvailable
  dsimp only
  rw [if_neg given, getPhi_eq started given, EReal.coe_lt_coe_iff]

theorem ensureValidStdDeviation_eq (stdDeviation : ℝ) :
    ensureValidStdDeviation detector stdDeviation = max stdDeviation detector.minStdDeviationMs := by
  unfold ensureValidStdDeviation
  split
  · rename_i above
    exact (max_eq_left above.le).symm
  · rename_i notAbove
    exact (max_eq_right (not_lt.mp notAbove)).symm

theorem validStdDeviation_pos (positive : 0 < detector.minStdDeviationMs) (stdDeviation : ℝ) :
    0 < ensureValidStdDeviation detector stdDeviation := by
  rw [ensureValidStdDeviation_eq]
  exact lt_max_of_lt_right positive

theorem phiAfter_nonneg (history : HeartbeatHistory ℝ) (elapsed : ℝ) :
    0 ≤ phiAfter detector history elapsed := surprise_nonneg (by norm_num) _

theorem phiAfter_le_of_deviations {history₁ history₂ : HeartbeatHistory ℝ} {elapsed₁ elapsed₂ : ℝ}
    (order : deviations detector history₁ elapsed₁ ≤ deviations detector history₂ elapsed₂) :
    phiAfter detector history₁ elapsed₁ ≤ phiAfter detector history₂ elapsed₂ :=
  surprise_mono (by norm_num) (exponent_mono order)

theorem phiAfter_mono (positive : 0 < detector.minStdDeviationMs) (history : HeartbeatHistory ℝ) :
    Monotone (phiAfter detector history) := by
  intro earlier later order
  apply phiAfter_le_of_deviations
  unfold deviations
  exact div_le_div_of_nonneg_right (sub_le_sub_right order _) (validStdDeviation_pos positive _).le

/-- The two branches are one function of the elapsed time, which never falls. -/
theorem suspicion_grows (detector : PhiAccrualDetector ℝ) (state : State ℝ) (now : Int)
    (positive : 0 < detector.minStdDeviationMs) (started : state.timestamp ≠ 0) :
    (∀ elapsed, phiUpToMean (decay (deviations detector state.history elapsed)) =
      phiAboveMean (decay (deviations detector state.history elapsed))) ∧
    (∀ timestamp, timestamp ≠ 0 → getPhi detector state now timestamp =
      (phiAboveMean (decay (deviations detector state.history
        ((timestamp - state.timestamp : Int) : ℝ))) : EReal)) ∧
    (∀ timestamp, timestamp ≠ 0 → 0 ≤ getPhi detector state now timestamp) ∧
    (∀ earlier later, earlier ≠ 0 → later ≠ 0 → earlier ≤ later →
      getPhi detector state now earlier ≤ getPhi detector state now later) ∧
    ∀ earlier later, earlier ≠ 0 → later ≠ 0 → earlier ≤ later →
      ¬ isAvailable detector state now earlier → ¬ isAvailable detector state now later := by
  have grows : ∀ {earlier later : Int}, earlier ≤ later →
      phiAfter detector state.history ((earlier - state.timestamp : Int) : ℝ) ≤
        phiAfter detector state.history ((later - state.timestamp : Int) : ℝ) := by
    intro earlier later order
    exact phiAfter_mono positive state.history (Int.cast_le.mpr (by omega))
  refine ⟨fun elapsed => phi_branches_agree _, ?_, ?_, ?_, ?_⟩
  · intro timestamp given
    rw [getPhi_eq started given, phi_above_mean_eq]
    rfl
  · intro timestamp given
    rw [getPhi_eq started given]
    exact EReal.coe_nonneg.mpr (phiAfter_nonneg _ _)
  · intro earlier later first second order
    rw [getPhi_eq started first, getPhi_eq started second]
    exact EReal.coe_le_coe_iff.mpr (grows order)
  · intro earlier later first second order suspected
    rw [isAvailable_iff started first, not_lt] at suspected
    rw [isAvailable_iff started second, not_lt]
    exact suspected.trans (grows order)

noncomputable def steadyDetector : PhiAccrualDetector ℝ := ⟨6, 1000, 10, 0, 10⟩

noncomputable def steadyState : State ℝ := ⟨⟨1000, fun _ => 5, 2, 10, 50⟩, 1000⟩

theorem suspicion_grows_steady :
    getPhi steadyDetector steadyState 0 1005 ≤ getPhi steadyDetector steadyState 0 1100 :=
  (suspicion_grows steadyDetector steadyState 0 (by norm_num [steadyDetector]) (by decide)).2.2.2.1
    1005 1100 (by decide) (by decide) (by decide)

/-- Shrinking all intervals by a factor moves the elapsed time further from the mean, also
    where the minimum deviation takes over. -/
theorem deviations_antitone {elapsed μ σ least c c' : ℝ} (after : 0 ≤ elapsed) (mean : 0 ≤ μ)
    (deviation : 0 ≤ σ) (floor : 0 < least) (factor : 0 ≤ c) (order : c ≤ c') :
    (elapsed - c' * μ) / max (c' * σ) least ≤ (elapsed - c * μ) / max (c * σ) least := by
  have wider : max (c * σ) least ≤ max (c' * σ) least :=
    max_le_max (mul_le_mul_of_nonneg_right order deviation) (le_refl least)
  have crossed : c * max (c' * σ) least ≤ c' * max (c * σ) least := by
    rw [mul_max_of_nonneg _ _ factor, mul_max_of_nonneg _ _ (factor.trans order)]
    apply max_le_max (le_of_eq (by ring))
    exact mul_le_mul_of_nonneg_right order floor.le
  have gain := mul_le_mul_of_nonneg_left wider after
  have shift := mul_le_mul_of_nonneg_left crossed mean
  rw [div_le_div_iff₀ (lt_max_of_lt_right floor) (lt_max_of_lt_right floor)]
  linarith

theorem deviations_adjust {history : HeartbeatHistory ℝ} (nonneg : ∀ x ∈ samples history, 0 ≤ x)
    (missedCount : Int) (elapsed : ℝ) :
    deviations detector (adjustIntervals history missedCount) elapsed =
      (elapsed - clampedFactor missedCount * average (samples history)) /
        max (clampedFactor missedCount * Real.sqrt (spread (samples history)))
          detector.minStdDeviationMs := by
  unfold deviations stdDev
  rw [ensureValidStdDeviation_eq, mean_adjust missedCount nonneg, variance_adjust missedCount nonneg,
    Real.sqrt_mul (mul_self_nonneg _), Real.sqrt_mul_self (clampedFactor_nonneg missedCount)]

/-- A report of more misses never lowers phi. -/
theorem more_misses_raise_phi (detector : PhiAccrualDetector ℝ) (state : State ℝ)
    (m₁ m₂ now timestamp : Int) (nonneg : ∀ x ∈ samples state.history, 0 ≤ x)
    (positive : 0 < detector.minStdDeviationMs) (missed : 0 ≤ m₁) (more : m₁ ≤ m₂)
    (started : state.timestamp ≠ 0) (given : timestamp ≠ 0) (after : state.timestamp ≤ timestamp) :
    getPhi detector { state with history := adjustIntervals state.history m₁ } now timestamp ≤
      getPhi detector { state with history := adjustIntervals state.history m₂ } now timestamp ∧
    (¬ isAvailable detector { state with history := adjustIntervals state.history m₁ } now timestamp →
      ¬ isAvailable detector { state with history := adjustIntervals state.history m₂ } now
        timestamp) := by
  have elapsed : (0 : ℝ) ≤ ((timestamp - state.timestamp : Int) : ℝ) :=
    Int.cast_nonneg (by omega)
  have raised : phiAfter detector (adjustIntervals state.history m₁)
        ((timestamp - state.timestamp : Int) : ℝ) ≤
      phiAfter detector (adjustIntervals state.history m₂)
        ((timestamp - state.timestamp : Int) : ℝ) := by
    apply phiAfter_le_of_deviations
    rw [deviations_adjust nonneg, deviations_adjust nonneg]
    exact deviations_antitone elapsed (average_nonneg nonneg) (Real.sqrt_nonneg _) positive
      (clampedFactor_nonneg m₂) (clampedFactor_antitone missed more)
  constructor
  · rw [getPhi_eq (by exact started) given, getPhi_eq (by exact started) given]
    exact EReal.coe_le_coe_iff.mpr raised
  · rw [isAvailable_iff (by exact started) given, isAvailable_iff (by exact started) given,
      not_lt, not_lt]
    intro suspected
    exact suspected.trans raised

theorem more_misses_raise_phi_steady :
    getPhi steadyDetector { steadyState with history := adjustIntervals steadyState.history 0 } 0 1100 ≤
      getPhi steadyDetector { steadyState with history := adjustIntervals steadyState.history 25 } 0
        1100 :=
  (more_misses_raise_phi steadyDetector steadyState 0 25 0 1100
    (by simp [steadyState, samples, Slots.window, List.range_succ]) (by norm_num [steadyDetector])
    (by decide) (by decide) (by decide) (by decide) (by decide)).1

end Phi

section Relaxing
variable {K : Type*} [Field K] [LinearOrder K] [IsStrictOrderedRing K]

def adjustAll (history : HeartbeatHistory K) (missedCounts : List Int) : HeartbeatHistory K :=
  missedCounts.foldl adjustIntervals history

omit [IsStrictOrderedRing K] in
theorem sums_adjustAll {history : HeartbeatHistory K} (sums : SumsCorrect history)
    (missedCounts : List Int) : SumsCorrect (adjustAll history missedCounts) := by
  induction missedCounts generalizing history with
  | nil => exact sums
  | cons m missedCounts ih => exact ih (sums_adjust history m)

omit [IsStrictOrderedRing K] in
theorem adjustAll_nonneg {history : HeartbeatHistory K} (nonneg : ∀ x ∈ samples history, 0 ≤ x)
    (missedCounts : List Int) : ∀ x ∈ samples (adjustAll history missedCounts), 0 ≤ x := by
  induction missedCounts generalizing history with
  | nil => exact nonneg
  | cons m missedCounts ih => exact ih (samples_adjust_nonneg history m)

theorem average_adjustAll_pos_iff {history : HeartbeatHistory K}
    (nonneg : ∀ x ∈ samples history, 0 ≤ x) (missedCounts : List Int) :
    0 < average (samples (adjustAll history missedCounts)) ↔
      0 < average (samples history) ∧ ∀ m ∈ missedCounts, m < 20 := by
  induction missedCounts generalizing history with
  | nil => simp [adjustAll]
  | cons m missedCounts ih =>
    have rest := ih (samples_adjust_nonneg history m)
    rw [samples_adjust_scale m nonneg, average_scale] at rest
    have product : (0 : K) < clampedFactor m * average (samples history) ↔
        m < 20 ∧ 0 < average (samples history) := by
      rw [← @clampedFactor_pos_iff K]
      constructor
      · intro pos
        have factor := (clampedFactor_nonneg m).lt_of_ne' (left_ne_zero_of_mul pos.ne')
        exact ⟨factor, pos_of_mul_pos_right pos factor.le⟩
      · rintro ⟨factor, pos⟩
        exact mul_pos factor pos
    rw [product] at rest
    simp only [List.forall_mem_cons]
    exact rest.trans (by tauto)

theorem clampedFactor_zero : (clampedFactor 0 : K) = 21 / 20 := by
  unfold clampedFactor getScalingFactor
  norm_num

/-- After any reports a miss-free one raises the mean exactly when none of them was of 20
    misses or more. -/
theorem relaxes_again_iff (detector : PhiAccrualDetector K) (missedCounts : List Int)
    (estimate : 0 < detector.firstHeartbeatEstimateMs) (size : 2 ≤ detector.maxSampleSize) :
    ∃ first, firstHeartbeat detector = some first ∧
      (mean (adjustAll first missedCounts) < mean (adjustIntervals (adjustAll first missedCounts) 0) ↔
        ∀ m ∈ missedCounts, m < 20) := by
  obtain ⟨first, new, -, sums, list⟩ := first_heartbeat_samples size
  refine ⟨first, new, ?_⟩
  have nonneg : ∀ x ∈ samples first, 0 ≤ x := by
    rw [list]
    intro x member
    simp only [List.mem_cons, List.not_mem_nil, or_false] at member
    rcases member with rfl | rfl <;> linarith
  have average_first : 0 < average (samples first) := by
    unfold average
    rw [list]
    apply div_pos _ (by simp)
    simpa using estimate
  rw [mean_eq_average (sums_adjustAll sums missedCounts),
    mean_adjust 0 (adjustAll_nonneg nonneg missedCounts), clampedFactor_zero]
  have raised : average (samples (adjustAll first missedCounts)) <
      21 / 20 * average (samples (adjustAll first missedCounts)) ↔
      0 < average (samples (adjustAll first missedCounts)) := by
    constructor <;> intro less <;> linarith
  rw [raised, average_adjustAll_pos_iff nonneg]
  exact and_iff_right average_first

def clientDetector : PhiAccrualDetector ℚ := ⟨6, 1000, 10, 0, 10⟩

theorem relaxes_again_client :
    ∃ first, firstHeartbeat clientDetector = some first ∧
      (mean (adjustAll first [3, 0, 19]) < mean (adjustIntervals (adjustAll first [3, 0, 19]) 0) ↔
        ∀ m ∈ [(3 : Int), 0, 19], m < 20) :=
  relaxes_again_iff clientDetector [3, 0, 19] (by decide +kernel) (by decide)

/-- One report of 20 misses sets every interval to 0, and 0 scaled stays 0. -/
theorem twenty_misses_stay :
    ¬ ∀ (detector : PhiAccrualDetector ℚ) (missedCounts : List Int),
      0 < detector.firstHeartbeatEstimateMs → 2 ≤ detector.maxSampleSize →
      (∀ m ∈ missedCounts, 0 ≤ m) →
      ∃ first, firstHeartbeat detector = some first ∧
        mean (adjustAll first missedCounts) < mean (adjustIntervals (adjustAll first missedCounts) 0) := by
  intro always
  obtain ⟨first, new, raised⟩ :=
    always clientDetector [20] (by decide +kernel) (by decide) (by decide)
  obtain rfl := Option.some.inj (new.symm.trans rfl)
  exact absurd raised (by decide +kernel)

end Relaxing

/-- What the caller of init_phi_accrual_detector gives: 6, 1000, 10 and 10 in the client. -/
structure Usable (detector : PhiAccrualDetector ℝ) : Prop where
  threshold : 0 < detector.threshold
  size : 2 ≤ detector.maxSampleSize
  deviation : 0 < detector.minStdDeviationMs
  estimate : 0 ≤ detector.firstHeartbeatEstimateMs

section Pause

theorem exponent_surjective : Function.Surjective exponent :=
  cubic_surjective (by norm_num) (by norm_num)

theorem exponent_strictMono : StrictMono exponent := cubic_strictMono (by norm_num) (by norm_num)

noncomputable def criticalDeviations (detector : PhiAccrualDetector ℝ) : ℝ :=
  Function.surjInv exponent_surjective (Real.log (10 ^ detector.threshold - 1))

noncomputable def ratio (reports : List Int) : ℝ := (reports.map clampedFactor).prod

/-- How long after a heartbeat the detector stays available. -/
noncomputable def pause (detector : PhiAccrualDetector ℝ) (reports : List Int) : ℝ :=
  ratio reports * detector.firstHeartbeatEstimateMs +
    max (ratio reports * (detector.firstHeartbeatEstimateMs / 4)) detector.minStdDeviationMs *
      criticalDeviations detector

theorem ratio_nonneg (reports : List Int) : 0 ≤ ratio reports := by
  apply List.prod_nonneg
  intro factor member
  obtain ⟨m, -, rfl⟩ := List.mem_map.mp member
  exact clampedFactor_nonneg m

theorem samples_adjustAll {history : HeartbeatHistory ℝ} (nonneg : ∀ x ∈ samples history, 0 ≤ x)
    (reports : List Int) :
    samples (adjustAll history reports) = (samples history).map fun x => ratio reports * x := by
  induction reports generalizing history with
  | nil => simp [adjustAll, ratio]
  | cons m reports ih =>
    have rest := ih (samples_adjust_nonneg history m)
    rw [samples_adjust_scale m nonneg, List.map_map] at rest
    refine rest.trans (List.map_congr_left fun x _ => ?_)
    simp only [Function.comp, ratio, List.map_cons, List.prod_cons]
    ring

variable {detector : PhiAccrualDetector ℝ} {first : HeartbeatHistory ℝ}

theorem bootstrap_samples (usable : Usable detector) (new : firstHeartbeat detector = some first)
    (reports : List Int) :
    SumsCorrect (adjustAll first reports) ∧ samples (adjustAll first reports) =
      [3 / 4 * detector.firstHeartbeatEstimateMs, 5 / 4 * detector.firstHeartbeatEstimateMs].map
        fun x => ratio reports * x := by
  obtain ⟨first', new', -, sums, list⟩ := first_heartbeat_samples usable.size
  obtain rfl := Option.some.inj (new'.symm.trans new)
  have quarters : samples first' =
      [3 / 4 * detector.firstHeartbeatEstimateMs, 5 / 4 * detector.firstHeartbeatEstimateMs] := by
    rw [list]
    congr 1
    · ring
    · congr 1
      ring
  have estimate := usable.estimate
  have nonneg : ∀ x ∈ samples first', 0 ≤ x := by
    rw [quarters]
    intro x member
    simp only [List.mem_cons, List.not_mem_nil, or_false] at member
    rcases member with rfl | rfl <;> positivity
  exact ⟨sums_adjustAll sums reports, (samples_adjustAll nonneg reports).trans (by rw [quarters])⟩

theorem bootstrap_deviations (usable : Usable detector) {history : HeartbeatHistory ℝ}
    (new : firstHeartbeat detector = some first) (reports : List Int)
    (same : contents history = contents (adjustAll first reports)) (elapsed : ℝ) :
    deviations detector history elapsed =
      (elapsed - ratio reports * detector.firstHeartbeatEstimateMs) /
        max (ratio reports * (detector.firstHeartbeatEstimateMs / 4)) detector.minStdDeviationMs := by
  obtain ⟨sums, list⟩ := bootstrap_samples usable new reports
  obtain ⟨-, samples_eq, sum, squares⟩ := contents_eq_iff.mp same
  have own : SumsCorrect history :=
    ⟨by rw [sum, sums.sum, samples_eq], by rw [squares, sums.squares, samples_eq]⟩
  have means : mean history = ratio reports * detector.firstHeartbeatEstimateMs := by
    rw [mean_eq_average own, samples_eq, list, average_scale]
    congr 1
    simp [average]
    ring
  have variances : variance history = (ratio reports * (detector.firstHeartbeatEstimateMs / 4)) ^ 2 := by
    rw [variance_eq_spread own, samples_eq, list, spread_scale]
    simp [spread, squareSum, average]
    ring
  unfold deviations stdDev
  rw [ensureValidStdDeviation_eq, means, variances,
    Real.sqrt_sq (mul_nonneg (ratio_nonneg _) (div_nonneg usable.estimate (by norm_num)))]

theorem isAvailable_iff_pause (usable : Usable detector) {state : State ℝ} {now timestamp : Int}
    (new : firstHeartbeat detector = some first) (reports : List Int)
    (same : contents state.history = contents (adjustAll first reports))
    (started : state.timestamp ≠ 0) (given : timestamp ≠ 0) :
    isAvailable detector state now timestamp ↔
      (timestamp : ℝ) < state.timestamp + pause detector reports := by
  have wide : 0 < max (ratio reports * (detector.firstHeartbeatEstimateMs / 4))
      detector.minStdDeviationMs := lt_max_of_lt_right usable.deviation
  rw [isAvailable_iff started given]
  unfold phiAfter
  rw [surprise_lt_iff (by norm_num) usable.threshold,
    ← Function.surjInv_eq exponent_surjective (Real.log (10 ^ detector.threshold - 1)),
    exponent_strictMono.lt_iff_lt, bootstrap_deviations usable new reports same,
    div_lt_iff₀ wide]
  unfold pause criticalDeviations
  push_cast
  constructor <;> intro less <;> linarith

theorem ratio_nil : ratio [] = 1 := rfl

theorem criticalDeviations_nonneg (likely : 2 ≤ (10 : ℝ) ^ detector.threshold) :
    0 ≤ criticalDeviations detector := by
  have crossing := Function.surjInv_eq exponent_surjective
    (Real.log (10 ^ detector.threshold - 1))
  have above : 0 ≤ Real.log ((10 : ℝ) ^ detector.threshold - 1) := Real.log_nonneg (by linarith)
  have zero : exponent 0 = 0 := by simp [exponent]
  apply exponent_strictMono.le_iff_le.mp
  unfold criticalDeviations
  rw [crossing, zero]
  exact above

theorem le_pause (usable : Usable detector) (likely : 2 ≤ (10 : ℝ) ^ detector.threshold)
    (reports : List Int) :
    ratio reports * detector.firstHeartbeatEstimateMs ≤ pause detector reports := by
  apply le_add_of_nonneg_right
  exact mul_nonneg (lt_max_of_lt_right usable.deviation).le (criticalDeviations_nonneg likely)

end Pause

end RealMQ.PhiAccrualDetectors
