import RealMQ.Foundation.Slots

/- accrual_detector/heartbeat_history.c over exact numbers: the window of the last intervals
   between heartbeats. Allocation succeeds; intervals holds maxSampleSize slots. -/
namespace RealMQ.HeartbeatHistories
open Slots
variable {K : Type*} [Field K] [LinearOrder K]

structure HeartbeatHistory (K : Type*) where
  maxSampleSize : Nat
  intervals : Nat → K
  intervalCount : Nat
  intervalSum : K
  squaredIntervalSum : K

/-- Without intervals a zeroed buffer is taken and the given count is ignored. -/
def newHeartbeatHistory (maxSampleSize : Nat) (intervals : Option (Nat → K)) (intervalCount : Nat)
    (intervalSum squaredIntervalSum : K) : Option (HeartbeatHistory K) :=
  if maxSampleSize < 1 then none
  else if intervalSum < 0 then none
  else if squaredIntervalSum < 0 then none
  else some
    { maxSampleSize := maxSampleSize
      intervals := intervals.getD fun _ => 0
      intervalCount := if intervals.isSome then intervalCount else 0
      intervalSum := intervalSum
      squaredIntervalSum := squaredIntervalSum }

omit [Field K] [LinearOrder K] in
def samples (history : HeartbeatHistory K) : List K :=
  window history.intervals history.intervalCount

omit [LinearOrder K] in
def recomputeSums (history : HeartbeatHistory K) : HeartbeatHistory K :=
  { history with
    intervalSum := (samples history).sum
    squaredIntervalSum := ((samples history).map fun x => x * x).sum }

omit [Field K] [LinearOrder K] in
def dropOldestInterval (history : HeartbeatHistory K) : HeartbeatHistory K :=
  if history.intervalCount = 0 then history
  else
    { history with
      intervals := shiftDown history.intervals 0 (history.maxSampleSize - 1)
      intervalCount := history.intervalCount - 1 }

omit [LinearOrder K] in
/-- A full window writes the last slot but leaves the count one lower. -/
def addInterval (history : HeartbeatHistory K) (interval : K) : HeartbeatHistory K :=
  recomputeSums
    (if history.intervalCount < history.maxSampleSize then
      { history with
        intervals := Function.update history.intervals history.intervalCount interval
        intervalCount := history.intervalCount + 1 }
    else
      let dropped := dropOldestInterval history
      { dropped with
        intervals := Function.update dropped.intervals (dropped.maxSampleSize - 1) interval })

omit [LinearOrder K] in
def addIntervals (history : HeartbeatHistory K) (intervals : List K) : HeartbeatHistory K :=
  intervals.foldl addInterval history

/-- What is documented: the last maxSampleSize intervals, and their sums. -/
structure KeepsRecent (history : HeartbeatHistory K) (added : List K) : Prop where
  count : history.intervalCount = min added.length history.maxSampleSize
  recent : samples history = added.drop (added.length - history.maxSampleSize)
  sum : history.intervalSum = (added.drop (added.length - history.maxSampleSize)).sum
  squares : history.squaredIntervalSum =
    ((added.drop (added.length - history.maxSampleSize)).map fun x => x * x).sum

section Survivors
variable {α : Type*}

def everySecond : List α → List α
  | _ :: x :: rest => x :: everySecond rest
  | _ => []

theorem short_list {l : List α} (short : ∀ a x rest, l = a :: x :: rest → False) :
    l = [] ∨ ∃ a, l = [a] := by
  cases l with
  | nil => exact Or.inl rfl
  | cons a rest =>
    cases rest with
    | nil => exact Or.inr ⟨a, rfl⟩
    | cons x rest => exact absurd rfl (short a x rest)

theorem everySecond_length (l : List α) : (everySecond l).length = l.length / 2 := by
  induction l using everySecond.induct with
  | case1 a x rest ih => simp [everySecond, ih]; omega
  | case2 l short => rcases short_list short with rfl | ⟨a, rfl⟩ <;> simp [everySecond]

theorem everySecond_snoc (l : List α) (y : α) :
    everySecond (l ++ [y]) = if l.length % 2 = 0 then everySecond l else everySecond l ++ [y] := by
  induction l using everySecond.induct with
  | case1 a x rest ih =>
    simp only [List.cons_append, everySecond, ih, List.length_cons, Nat.add_assoc, Nat.reduceAdd,
      Nat.add_mod_right]
    split <;> rfl
  | case2 l short => rcases short_list short with rfl | ⟨a, rfl⟩ <;> simp [everySecond]

theorem everySecond_getElem? (l : List α) (i : Nat) :
    (everySecond l)[i]? = l[2 * i + 1]? := by
  induction l using everySecond.induct generalizing i with
  | case1 a x rest ih =>
    cases i with
    | zero => rfl
    | succ i => simp [everySecond, ih, Nat.mul_add]
  | case2 l short => rcases short_list short with rfl | ⟨a, rfl⟩ <;> simp [everySecond]

def survivors (n : Nat) (added : List α) : List α :=
  (added.take n ++ everySecond (added.drop n)).drop ((added.length - n + 1) / 2)

theorem survivors_length (n : Nat) (added : List α) :
    (survivors n added).length =
      min added.length n + (added.length - n) / 2 - (added.length - n + 1) / 2 := by
  simp only [survivors, List.length_drop, List.length_append, List.length_take,
    everySecond_length, Nat.min_comm]

theorem survivors_snoc {n : Nat} (pos : 0 < n) (added : List α) (x : α) :
    survivors n (added ++ [x]) =
      if (survivors n added).length < n then survivors n added ++ [x]
      else (survivors n added).drop 1 := by
  rw [survivors_length]
  rcases Nat.lt_or_ge added.length n with growing | full
  · have short : added.length + 1 - n = 0 := by omega
    have short' : added.length - n = 0 := by omega
    have before : added.take n = added ∧ added.drop n = [] :=
      ⟨List.take_of_length_le (by omega), List.drop_of_length_le (by omega)⟩
    have after : (added ++ [x]).take n = added ++ [x] ∧ (added ++ [x]).drop n = [] :=
      ⟨List.take_of_length_le (by simp; omega), List.drop_of_length_le (by simp; omega)⟩
    rw [if_pos (by omega)]
    simp [survivors, before, after, short, short', everySecond]
  · have front : (added ++ [x]).take n = added.take n := List.take_append_of_le_length full
    have back : (added ++ [x]).drop n = added.drop n ++ [x] := List.drop_append_of_le_length full
    have size : (added.take n ++ everySecond (added.drop n)).length = n + (added.length - n) / 2 := by
      simp [everySecond_length, full]
    simp only [survivors, front, back, everySecond_snoc, List.length_append, List.length_singleton,
      List.length_drop]
    rcases Nat.mod_two_eq_zero_or_one (added.length - n) with even | odd
    · rw [if_pos even, if_neg (by omega), List.drop_drop]
      congr 1
      omega
    · rw [if_neg (by omega), if_pos (by omega), ← List.append_assoc,
        List.drop_append_of_le_length (by omega)]
      congr 2
      omega

theorem survivors_getElem? {n j i : Nat} {added : List α} (length : added.length = n + 2 * j)
    (bound : i < n) :
    (survivors n added)[n - 1 - i]? = added[added.length - 1 - i - min i j]? := by
  have half : (added.length - n + 1) / 2 = j := by omega
  have front : (added.take n).length = n := by simp; omega
  simp only [survivors, half, List.getElem?_drop]
  rcases Nat.lt_or_ge i j with young | old
  · rw [List.getElem?_append_right (by omega), everySecond_getElem?, List.getElem?_drop]
    congr 1
    omega
  · rw [List.getElem?_append_left (by omega), List.getElem?_take_of_lt (by omega)]
    congr 1
    omega

/-- The window never overflowed, or an even number of intervals came after it was full and the
    ones that were kept happen to have the values of the last ones. -/
def Coincides (n : Nat) (added : List α) : Prop :=
  added.length ≤ n ∨ ((added.length - n) % 2 = 0 ∧ ∀ i < n,
    added[added.length - 1 - i]? =
      added[added.length - 1 - i - min i ((added.length - n) / 2)]?)

theorem survivors_recent_iff {n : Nat} (pos : 0 < n) (added : List α) :
    survivors n added = added.drop (added.length - n) ↔ Coincides n added := by
  have size := survivors_length n added
  rcases Nat.lt_or_ge n added.length with full | growing
  · have recent : ∀ i < n, (added.drop (added.length - n))[n - 1 - i]? =
        added[added.length - 1 - i]? := by
      intro i bound
      rw [List.getElem?_drop]
      congr 1
      omega
    constructor
    · intro same
      have length := congrArg List.length same
      rw [List.length_drop] at length
      refine Or.inr ⟨by omega, fun i bound => ?_⟩
      rw [← recent i bound, ← same, survivors_getElem? (j := (added.length - n) / 2) (by omega) bound]
    · intro coincides
      obtain ⟨even, values⟩ := coincides.resolve_left (by omega)
      refine List.ext_getElem? fun p => ?_
      rcases Nat.lt_or_ge p n with inside | outside
      · have place : n - 1 - (n - 1 - p) = p := by omega
        have kept := @survivors_getElem? α n ((added.length - n) / 2) (n - 1 - p) added
          (by omega) (by omega)
        rw [place] at kept
        rw [kept, ← values (n - 1 - p) (by omega), ← recent (n - 1 - p) (by omega), place]
      · have short : (survivors n added).length ≤ p := by omega
        have short' : (added.drop (added.length - n)).length ≤ p := by simp; omega
        rw [List.getElem?_eq_none short, List.getElem?_eq_none short']
  · have none : added.length - n = 0 := by omega
    refine iff_of_true ?_ (Or.inl growing)
    rw [survivors, none, List.take_of_length_le growing, List.drop_of_length_le growing]
    simp [everySecond]

end Survivors

section Window
omit [LinearOrder K]

@[simp] theorem samples_recompute (history : HeartbeatHistory K) :
    samples (recomputeSums history) = samples history := rfl

@[simp] theorem maxSampleSize_add (history : HeartbeatHistory K) (x : K) :
    (addInterval history x).maxSampleSize = history.maxSampleSize := by
  simp only [addInterval, recomputeSums, dropOldestInterval]
  split
  · rfl
  · split <;> rfl

omit [Field K] in
theorem drop_keeps (history : HeartbeatHistory K) :
    (dropOldestInterval history).maxSampleSize = history.maxSampleSize ∧
      (dropOldestInterval history).intervalCount = history.intervalCount - 1 ∧
      (dropOldestInterval history).intervalSum = history.intervalSum ∧
      (dropOldestInterval history).squaredIntervalSum = history.squaredIntervalSum := by
  unfold dropOldestInterval
  split
  · exact ⟨rfl, by omega, rfl, rfl⟩
  · exact ⟨rfl, rfl, rfl, rfl⟩

theorem count_add_le {history : HeartbeatHistory K} (x : K)
    (bounded : history.intervalCount ≤ history.maxSampleSize) :
    (addInterval history x).intervalCount ≤ (addInterval history x).maxSampleSize := by
  obtain ⟨size, count, -, -⟩ := drop_keeps history
  rw [maxSampleSize_add]
  unfold addInterval recomputeSums
  split
  · rename_i room
    exact room
  · exact count.le.trans (by omega)

theorem samples_add_without_slots {history : HeartbeatHistory K} (x : K)
    (empty : history.maxSampleSize = 0) (bounded : history.intervalCount ≤ history.maxSampleSize) :
    samples (addInterval history x) = [] := by
  have counted := count_add_le x bounded
  rw [maxSampleSize_add, empty, Nat.le_zero] at counted
  unfold samples
  rw [counted, window_zero]

theorem samples_add_growing {history : HeartbeatHistory K} (x : K)
    (room : history.intervalCount < history.maxSampleSize) :
    samples (addInterval history x) = samples history ++ [x] := by
  simp only [addInterval, if_pos room, samples_recompute]
  exact window_update_end history.intervals history.intervalCount x

theorem samples_add_full {history : HeartbeatHistory K} (x : K)
    (pos : 0 < history.maxSampleSize) (full : history.intervalCount = history.maxSampleSize) :
    samples (addInterval history x) = (samples history).drop 1 := by
  have some : history.intervalCount ≠ 0 := by omega
  have shifted := window_shift_down history.intervals (n := history.maxSampleSize) (i := 0) pos
  simp only [addInterval, if_neg (show ¬ history.intervalCount < history.maxSampleSize by omega),
    dropOldestInterval, if_neg some, samples, recomputeSums]
  rw [full, window_update_beyond _ _ (le_refl _)]
  rw [Nat.sub_zero] at shifted
  rw [shifted, List.eraseIdx_eq_take_drop_succ, List.take_zero, List.nil_append]

structure SumsCorrect (history : HeartbeatHistory K) : Prop where
  sum : history.intervalSum = (samples history).sum
  squares : history.squaredIntervalSum = ((samples history).map fun x => x * x).sum

theorem sums_add (history : HeartbeatHistory K) (x : K) : SumsCorrect (addInterval history x) :=
  ⟨rfl, rfl⟩

theorem sums_addIntervals {history : HeartbeatHistory K} (correct : SumsCorrect history)
    (added : List K) : SumsCorrect (addIntervals history added) := by
  induction added generalizing history with
  | nil => exact correct
  | cons x added ih => exact ih (sums_add history x)

theorem samples_addIntervals {history : HeartbeatHistory K} (pos : 0 < history.maxSampleSize)
    (fresh : samples history = []) (added : List K) :
    (addIntervals history added).maxSampleSize = history.maxSampleSize ∧
      samples (addIntervals history added) = survivors history.maxSampleSize added := by
  induction added using List.reverseRecOn with
  | nil => exact ⟨rfl, by simp [addIntervals, fresh, survivors, everySecond]⟩
  | append_singleton added x ih =>
    obtain ⟨size, list⟩ := ih
    have step : addIntervals history (added ++ [x]) =
        addInterval (addIntervals history added) x := by simp [addIntervals]
    have count : (addIntervals history added).intervalCount =
        (survivors history.maxSampleSize added).length := by
      rw [← list, samples, window_length]
    have bound : (survivors history.maxSampleSize added).length ≤ history.maxSampleSize := by
      rw [survivors_length]; omega
    refine ⟨by rw [step, maxSampleSize_add, size], ?_⟩
    rw [step, survivors_snoc pos]
    split
    · rename_i room
      rw [samples_add_growing x (by omega), list]
    · rename_i full
      rw [samples_add_full x (by omega) (by omega), list]

end Window

theorem new_history {n : Nat} (pos : 0 < n) :
    ∃ fresh : HeartbeatHistory K, newHeartbeatHistory n none 0 0 0 = some fresh ∧
      fresh.maxSampleSize = n ∧ samples fresh = [] ∧ SumsCorrect fresh := by
  refine ⟨_, by rw [newHeartbeatHistory, if_neg (by omega), if_neg (lt_irrefl 0),
    if_neg (lt_irrefl 0)], rfl, rfl, rfl, rfl⟩

/-- The window holds the most recent intervals exactly in the growing phase and where values
    coincide. -/
theorem recent_samples_kept_iff (n : Nat) (added : List K) (pos : 0 < n) :
    ∃ fresh : HeartbeatHistory K, newHeartbeatHistory n none 0 0 0 = some fresh ∧
      (KeepsRecent (addIntervals fresh added) added ↔ Coincides n added) := by
  obtain ⟨fresh, new, size, empty, sums⟩ := new_history (K := K) pos
  obtain ⟨size', list⟩ := samples_addIntervals (by omega) empty added
  have correct := sums_addIntervals sums added
  rw [size] at size' list
  refine ⟨fresh, new, ?_⟩
  rw [← survivors_recent_iff pos, ← list]
  constructor
  · intro keeps
    rw [keeps.recent, size']
  · intro recent
    have count : (addIntervals fresh added).intervalCount = min added.length n := by
      have length := congrArg List.length recent
      rw [samples, window_length, List.length_drop] at length
      omega
    exact ⟨by rw [count, size'], by rw [size', recent], by rw [correct.sum, size', recent],
      by rw [correct.squares, size', recent]⟩

theorem recent_samples_kept_three :
    ∃ fresh : HeartbeatHistory ℚ, newHeartbeatHistory 2 none 0 0 0 = some fresh ∧
      (KeepsRecent (addIntervals fresh [1, 2, 3]) [1, 2, 3] ↔ Coincides 2 [(1 : ℚ), 2, 3]) :=
  recent_samples_kept_iff 2 [1, 2, 3] (by decide)

/-- One interval more than the window holds: the count drops to n - 1. -/
theorem full_window_loses_interval :
    ¬ ∀ (n : Nat) (added : List ℚ), 0 < n →
      ∃ fresh, newHeartbeatHistory n none 0 0 0 = some fresh ∧
        KeepsRecent (addIntervals fresh added) added := by
  intro always
  obtain ⟨fresh, new, keeps⟩ := always 2 [1, 2, 3] (by decide)
  obtain ⟨fresh', new', size, empty, -⟩ := new_history (K := ℚ) (n := 2) (by decide)
  obtain rfl := Option.some.inj (new'.symm.trans new)
  obtain ⟨size', list⟩ := samples_addIntervals (by omega) empty ([1, 2, 3] : List ℚ)
  have recent := keeps.recent
  rw [list, size', size] at recent
  exact absurd (congrArg List.length recent) (by decide)

end RealMQ.HeartbeatHistories
