import RealMQ.HeartbeatHistory
import RealMQ.Foundation.Moments

/- The rest of accrual_detector/heartbeat_history.c over exact numbers: what is computed from
   a history, scaling it by a missed count, and comparing and copying whole histories. 0.05f
   is one twentieth. -/
namespace RealMQ.HistoryUpdates
open HeartbeatHistories Slots Moments
variable {K : Type*} [Field K] [LinearOrder K]

omit [LinearOrder K] in
def mean (history : HeartbeatHistory K) : K :=
  if history.intervalCount = 0 then 0 else history.intervalSum / history.intervalCount

omit [LinearOrder K] in
def variance (history : HeartbeatHistory K) : K :=
  if history.intervalCount = 0 then 0
  else
    let meanVal := mean history
    history.squaredIntervalSum / history.intervalCount - meanVal * meanVal

omit [LinearOrder K] in
/-- A report without misses counts as minus one. -/
def getScalingFactor (missedCount : Int) : K :=
  let missedCount := if missedCount = 0 then -1 else missedCount
  1 - (missedCount : K) * (1 / 20)

def scaled (missedCount : Int) (interval : K) : K :=
  if interval * getScalingFactor missedCount > 0 then interval * getScalingFactor missedCount else 0

def adjustIntervals (history : HeartbeatHistory K) (missedCount : Int) : HeartbeatHistory K :=
  recomputeSums
    { history with
      intervals := overwrite history.intervals (fun i => scaled missedCount (history.intervals i))
        history.intervalCount }

def compareHistory (history1 history2 : HeartbeatHistory K) : Bool :=
  decide (history1.maxSampleSize = history2.maxSampleSize) &&
  decide (history1.intervalCount = history2.intervalCount) &&
  decide (history1.intervalSum = history2.intervalSum) &&
  decide (history1.squaredIntervalSum = history2.squaredIntervalSum) &&
  (List.range history1.intervalCount).all fun i =>
    decide (history1.intervals i = history2.intervals i)

omit [LinearOrder K] in
/-- A window of another size is replaced by a zeroed one. -/
def updateHistory (first second : HeartbeatHistory K) : HeartbeatHistory K :=
  let resized :=
    if first.maxSampleSize ≠ second.maxSampleSize then
      { first with maxSampleSize := second.maxSampleSize, intervals := fun _ => 0 }
    else first
  { resized with
    intervals := overwrite resized.intervals second.intervals second.intervalCount
    intervalCount := second.intervalCount
    intervalSum := second.intervalSum
    squaredIntervalSum := second.squaredIntervalSum }

structure Contents (K : Type*) where
  maxSampleSize : Nat
  samples : List K
  intervalSum : K
  squaredIntervalSum : K

omit [Field K] [LinearOrder K] in
def contents (history : HeartbeatHistory K) : Contents K :=
  ⟨history.maxSampleSize, samples history, history.intervalSum, history.squaredIntervalSum⟩

section Contents
variable {first second : HeartbeatHistory K}

omit [Field K] [LinearOrder K] in
theorem contents_eq_iff : contents first = contents second ↔
    first.maxSampleSize = second.maxSampleSize ∧ samples first = samples second ∧
      first.intervalSum = second.intervalSum ∧
      first.squaredIntervalSum = second.squaredIntervalSum := by
  simp only [contents, Contents.mk.injEq]

omit [Field K] [LinearOrder K] in
theorem count_of_contents (same : contents first = contents second) :
    first.intervalCount = second.intervalCount := by
  have lists := congrArg List.length (contents_eq_iff.mp same).2.1
  simpa [samples] using lists

omit [Field K] in
theorem compareHistory_iff : compareHistory first second = true ↔
    contents first = contents second := by
  rw [contents_eq_iff]
  unfold compareHistory samples
  simp only [Bool.and_eq_true, decide_eq_true_eq, List.all_eq_true, List.mem_range]
  constructor
  · rintro ⟨⟨⟨⟨size, count⟩, sum⟩, squares⟩, values⟩
    refine ⟨size, ?_, sum, squares⟩
    rw [← count]
    exact window_congr values
  · rintro ⟨size, list, sum, squares⟩
    have count : first.intervalCount = second.intervalCount := by
      simpa using congrArg List.length list
    rw [← count] at list
    exact ⟨⟨⟨⟨size, count⟩, sum⟩, squares⟩, window_eq_iff.mp list⟩

omit [LinearOrder K] in
@[simp] theorem contents_update : contents (updateHistory first second) = contents second := by
  rw [contents_eq_iff]
  unfold updateHistory samples
  split
  · exact ⟨rfl, window_overwrite _ _ _, rfl, rfl⟩
  · rename_i same
    exact ⟨not_not.mp same, window_overwrite _ _ _, rfl, rfl⟩

theorem samples_adjust (history : HeartbeatHistory K) (missedCount : Int) :
    samples (adjustIntervals history missedCount) =
      (samples history).map (scaled missedCount) := by
  unfold adjustIntervals
  rw [samples_recompute]
  unfold samples
  rw [window_overwrite, window_map]

@[simp] theorem maxSampleSize_adjust (history : HeartbeatHistory K) (missedCount : Int) :
    (adjustIntervals history missedCount).maxSampleSize = history.maxSampleSize := rfl

@[simp] theorem intervalCount_adjust (history : HeartbeatHistory K) (missedCount : Int) :
    (adjustIntervals history missedCount).intervalCount = history.intervalCount := rfl

theorem sums_adjust (history : HeartbeatHistory K) (missedCount : Int) :
    SumsCorrect (adjustIntervals history missedCount) := ⟨rfl, rfl⟩

omit [LinearOrder K] in
theorem contents_of_samples (left : SumsCorrect first) (right : SumsCorrect second)
    (size : first.maxSampleSize = second.maxSampleSize) (list : samples first = samples second) :
    contents first = contents second :=
  contents_eq_iff.mpr ⟨size, list, by rw [left.sum, right.sum, list],
    by rw [left.squares, right.squares, list]⟩

theorem contents_adjust_congr (missedCount : Int) (same : contents first = contents second) :
    contents (adjustIntervals first missedCount) = contents (adjustIntervals second missedCount) := by
  obtain ⟨size, list, -, -⟩ := contents_eq_iff.mp same
  apply contents_of_samples (sums_adjust _ _) (sums_adjust _ _) size
  rw [samples_adjust, samples_adjust, list]

omit [LinearOrder K] in
theorem contents_add_congr (x : K) (bounded : first.intervalCount ≤ first.maxSampleSize)
    (same : contents first = contents second) :
    contents (addInterval first x) = contents (addInterval second x) := by
  have counts := count_of_contents same
  obtain ⟨size, list, -, -⟩ := contents_eq_iff.mp same
  apply contents_of_samples (sums_add _ _) (sums_add _ _)
  · rw [maxSampleSize_add, maxSampleSize_add, size]
  · rcases Nat.lt_or_ge first.intervalCount first.maxSampleSize with room | full
    · rw [samples_add_growing x room, samples_add_growing x (by omega), list]
    · rcases Nat.eq_zero_or_pos first.maxSampleSize with empty | pos
      · rw [samples_add_without_slots x empty bounded,
          samples_add_without_slots x (by omega) (by omega)]
      · rw [samples_add_full x pos (by omega), samples_add_full x (by omega) (by omega), list]

end Contents

section Moments
variable {history : HeartbeatHistory K}

omit [LinearOrder K] in
theorem mean_eq_average (sums : SumsCorrect history) : mean history = average (samples history) := by
  unfold mean average
  rw [sums.sum]
  split
  · rename_i empty
    simp [samples, empty]
  · simp [samples]

omit [LinearOrder K] in
theorem variance_eq_spread (sums : SumsCorrect history) :
    variance history = spread (samples history) := by
  unfold variance spread
  rw [sums.squares, mean_eq_average sums]
  split
  · rename_i empty
    simp [samples, empty, squareSum, average]
  · simp [samples, squareSum]

theorem variance_nonneg [IsStrictOrderedRing K] (sums : SumsCorrect history) :
    0 ≤ variance history := by
  rw [variance_eq_spread sums]
  exact spread_nonneg _

end Moments

section Scaling
variable [IsStrictOrderedRing K]

def clampedFactor (missedCount : Int) : K := max (getScalingFactor missedCount) 0

omit [IsStrictOrderedRing K] in
theorem clampedFactor_nonneg (missedCount : Int) : (0 : K) ≤ clampedFactor missedCount :=
  le_max_right _ _

theorem scaled_eq_mul {interval : K} (missedCount : Int) (nonneg : 0 ≤ interval) :
    scaled missedCount interval = clampedFactor missedCount * interval := by
  unfold scaled clampedFactor
  rcases le_total (getScalingFactor missedCount : K) 0 with down | up
  · have product : interval * getScalingFactor missedCount ≤ 0 :=
      mul_nonpos_of_nonneg_of_nonpos nonneg down
    rw [if_neg (not_lt.mpr product), max_eq_right down, zero_mul]
  · rw [max_eq_left up, mul_comm]
    split
    · rfl
    · rename_i notPos
      exact le_antisymm (mul_nonneg up nonneg) (not_lt.mp notPos)

omit [IsStrictOrderedRing K] in
theorem scaled_nonneg (missedCount : Int) (interval : K) : 0 ≤ scaled missedCount interval := by
  unfold scaled
  split
  · rename_i pos
    exact pos.le
  · exact le_refl 0

theorem samples_adjust_scale {history : HeartbeatHistory K} (missedCount : Int)
    (nonneg : ∀ x ∈ samples history, 0 ≤ x) :
    samples (adjustIntervals history missedCount) =
      (samples history).map fun x => clampedFactor missedCount * x := by
  rw [samples_adjust]
  exact List.map_congr_left fun x member => scaled_eq_mul missedCount (nonneg x member)

omit [IsStrictOrderedRing K] in
theorem samples_adjust_nonneg (history : HeartbeatHistory K) (missedCount : Int) :
    ∀ x ∈ samples (adjustIntervals history missedCount), 0 ≤ x := by
  intro x member
  rw [samples_adjust] at member
  obtain ⟨y, -, rfl⟩ := List.mem_map.mp member
  exact scaled_nonneg missedCount y

theorem mean_adjust {history : HeartbeatHistory K} (missedCount : Int)
    (nonneg : ∀ x ∈ samples history, 0 ≤ x) :
    mean (adjustIntervals history missedCount) =
      clampedFactor missedCount * average (samples history) := by
  rw [mean_eq_average (sums_adjust history missedCount), samples_adjust_scale missedCount nonneg,
    average_scale]

theorem variance_adjust {history : HeartbeatHistory K} (missedCount : Int)
    (nonneg : ∀ x ∈ samples history, 0 ≤ x) :
    variance (adjustIntervals history missedCount) =
      clampedFactor missedCount * clampedFactor missedCount * spread (samples history) := by
  rw [variance_eq_spread (sums_adjust history missedCount),
    samples_adjust_scale missedCount nonneg, spread_scale]

theorem scaling_factor_antitone {m₁ m₂ : Int} (nonneg : 0 ≤ m₁) (order : m₁ ≤ m₂) :
    (getScalingFactor m₂ : K) ≤ getScalingFactor m₁ := by
  have counts : (if m₁ = 0 then -1 else m₁) ≤ if m₂ = 0 then -1 else m₂ := by
    split <;> split <;> omega
  unfold getScalingFactor
  dsimp only
  generalize (if m₁ = 0 then -1 else m₁) = fewer at counts ⊢
  generalize (if m₂ = 0 then -1 else m₂) = more at counts ⊢
  have casts : (fewer : K) ≤ more := Int.cast_le.mpr counts
  linarith

theorem scaling_factor_pos_iff {missedCount : Int} :
    (0 : K) < getScalingFactor missedCount ↔ missedCount < 20 := by
  have count : (if missedCount = 0 then -1 else missedCount) < 20 ↔ missedCount < 20 := by
    split <;> omega
  rw [← count]
  unfold getScalingFactor
  dsimp only
  generalize (if missedCount = 0 then -1 else missedCount) = counted
  have cast : (counted : K) < 20 ↔ counted < 20 := by norm_cast
  rw [← cast]
  constructor <;> intro bound <;> linarith

theorem clampedFactor_antitone {m₁ m₂ : Int} (nonneg : 0 ≤ m₁) (order : m₁ ≤ m₂) :
    (clampedFactor m₂ : K) ≤ clampedFactor m₁ :=
  max_le_max (scaling_factor_antitone nonneg order) (le_refl 0)

theorem clampedFactor_pos_iff {missedCount : Int} :
    (0 : K) < clampedFactor missedCount ↔ missedCount < 20 := by
  unfold clampedFactor
  rw [lt_max_iff, scaling_factor_pos_iff]
  simp

end Scaling

end RealMQ.HistoryUpdates
