import RealMQ.HistoryUpdates
import RealMQ.Foundation.Runs

/- Any number of histories, each under a name, and runs of the operations of
   heartbeat_history.h on them. A NULL history has no add, drop or adjust; update_history
   ignores it. -/
namespace RealMQ.HistoryStore
open HeartbeatHistories HistoryUpdates Slots
variable {K : Type*} [Field K] [LinearOrder K]

abbrev Histories (K : Type*) := Nat → Option (HeartbeatHistory K)

inductive Operation (K : Type*) where
  | newHistory (name maxSampleSize : Nat)
  | add (name : Nat) (interval : K)
  | dropOldest (name : Nat)
  | adjust (name : Nat) (missedCount : Int)
  | update (first second : Nat)

omit [Field K] [LinearOrder K] in
def change (histories : Histories K) (name : Nat)
    (operation : HeartbeatHistory K → HeartbeatHistory K) : Option (Histories K) :=
  (histories name).map fun history => Function.update histories name (some (operation history))

def step (histories : Histories K) : Operation K → Option (Histories K)
  | .newHistory name maxSampleSize =>
      some (Function.update histories name (newHeartbeatHistory maxSampleSize none 0 0 0))
  | .add name interval => change histories name fun history => addInterval history interval
  | .dropOldest name => change histories name dropOldestInterval
  | .adjust name missedCount =>
      change histories name fun history => adjustIntervals history missedCount
  | .update first second =>
      match histories first, histories second with
      | some left, some right =>
          some (Function.update histories first (some (updateHistory left right)))
      | _, _ => some histories

omit [Field K] [LinearOrder K] in
def noHistories : Histories K := fun _ => none

/-- The window and its cached sums agree. -/
structure Undrifted (history : HeartbeatHistory K) : Prop extends SumsCorrect history where
  positive : 0 < history.maxSampleSize
  bounded : history.intervalCount ≤ history.maxSampleSize
  nonneg : ∀ x ∈ samples history, 0 ≤ x

def NonNegative : Operation K → Prop
  | .add _ interval => 0 ≤ interval
  | _ => True

def DropsZero (histories : Histories K) : Operation K → Prop
  | .dropOldest name => ∀ history, histories name = some history →
      history.intervalCount = 0 ∨ history.intervals 0 = 0
  | _ => True

section Operations
variable {history : HeartbeatHistory K}

omit [Field K] [LinearOrder K] in
theorem count_eq_length (history : HeartbeatHistory K) :
    history.intervalCount = (samples history).length := by simp [samples]

theorem undrifted_new {n : Nat} (fresh : newHeartbeatHistory n none 0 0 0 = some history) :
    Undrifted history := by
  have pos : 0 < n := by
    by_contra zero
    rw [newHeartbeatHistory, if_pos (by omega)] at fresh
    cases fresh
  obtain ⟨history', new, size, empty, sums⟩ := new_history (K := K) pos
  obtain rfl := Option.some.inj (new.symm.trans fresh)
  exact ⟨sums, by omega, by rw [count_eq_length, empty]; exact Nat.zero_le _, by simp [empty]⟩

theorem undrifted_add (valid : Undrifted history) {interval : K} (nonneg : 0 ≤ interval) :
    Undrifted (addInterval history interval) := by
  rcases Nat.lt_or_ge history.intervalCount history.maxSampleSize with room | full
  · have list := samples_add_growing interval room
    refine ⟨sums_add history interval, ?_, ?_, ?_⟩
    · rw [maxSampleSize_add]; exact valid.positive
    · rw [count_eq_length, list, List.length_append, ← count_eq_length, maxSampleSize_add]
      exact room
    · rw [list]
      intro x member
      rcases List.mem_append.mp member with old | new
      · exact valid.nonneg x old
      · rw [List.mem_singleton.mp new]; exact nonneg
  · have list := samples_add_full interval valid.positive (Nat.le_antisymm valid.bounded full)
    refine ⟨sums_add history interval, ?_, ?_, ?_⟩
    · rw [maxSampleSize_add]; exact valid.positive
    · have := valid.bounded
      rw [count_eq_length, list, List.length_drop, ← count_eq_length, maxSampleSize_add]
      omega
    · rw [list]
      intro x member
      exact valid.nonneg x (List.mem_of_mem_drop member)

theorem undrifted_adjust (valid : Undrifted history) (missedCount : Int) :
    Undrifted (adjustIntervals history missedCount) :=
  ⟨sums_adjust history missedCount, valid.positive, valid.bounded,
    samples_adjust_nonneg history missedCount⟩

theorem undrifted_update {second : HeartbeatHistory K} (first : HeartbeatHistory K)
    (valid : Undrifted second) : Undrifted (updateHistory first second) := by
  have same : contents (updateHistory first second) = contents second := contents_update
  obtain ⟨size, list, sum, squares⟩ := contents_eq_iff.mp same
  refine ⟨⟨?_, ?_⟩, ?_, ?_, ?_⟩
  · rw [sum, list, valid.sum]
  · rw [squares, list, valid.squares]
  · rw [size]; exact valid.positive
  · rw [size, count_of_contents same]; exact valid.bounded
  · rw [list]; exact valid.nonneg

omit [Field K] [LinearOrder K] in
theorem samples_drop (bounded : history.intervalCount ≤ history.maxSampleSize) :
    samples (dropOldestInterval history) = (samples history).drop 1 := by
  unfold dropOldestInterval
  split
  · rename_i empty
    simp [samples, empty]
  · exact window_shift_first history.intervals (by omega)

theorem undrifted_drop_iff (valid : Undrifted history) :
    Undrifted (dropOldestInterval history) ↔
      history.intervalCount = 0 ∨ history.intervals 0 = 0 := by
  obtain ⟨size, count, sum, squares⟩ := drop_keeps history
  have list := samples_drop valid.bounded
  have bounded := valid.bounded
  rcases Nat.eq_zero_or_pos history.intervalCount with empty | some
  · have kept : dropOldestInterval history = history := by
      unfold dropOldestInterval
      rw [if_pos empty]
    rw [kept]
    exact iff_of_true valid (Or.inl empty)
  · obtain ⟨rest, cons⟩ : ∃ rest, samples history = history.intervals 0 :: rest :=
      ⟨_, @window_drop _ history.intervals _ 0 some⟩
    rw [cons, List.drop_succ_cons, List.drop_zero] at list
    have total := valid.sum
    have totalSquares := valid.squares
    rw [cons, List.sum_cons] at total
    rw [cons, List.map_cons, List.sum_cons] at totalSquares
    constructor
    · intro after
      have stale := after.sum
      rw [sum, list, total] at stale
      exact Or.inr (by simpa using stale)
    · intro zero
      have first : history.intervals 0 = 0 := zero.resolve_left (by omega)
      refine ⟨⟨?_, ?_⟩, by rw [size]; exact valid.positive, by rw [size, count]; omega, ?_⟩
      · rw [sum, list, total, first, zero_add]
      · rw [squares, list, totalSquares, first, zero_mul, zero_add]
      · rw [list]
        intro x member
        exact valid.nonneg x (cons ▸ List.mem_cons_of_mem _ member)

end Operations

section Each
variable {P : HeartbeatHistory K → Prop} {histories next : Histories K}

omit [Field K] [LinearOrder K] in
def Each (P : HeartbeatHistory K → Prop) (histories : Histories K) : Prop :=
  ∀ name history, histories name = some history → P history

omit [Field K] [LinearOrder K] in
theorem each_update_iff {name : Nat} {value : Option (HeartbeatHistory K)}
    (before : Each P histories) :
    Each P (Function.update histories name value) ↔ ∀ history, value = some history → P history := by
  constructor
  · intro all history eq
    exact all name history (by rw [Function.update_self, eq])
  · intro changed other history eq
    by_cases same : other = name
    · subst same
      rw [Function.update_self] at eq
      exact changed history eq
    · rw [Function.update_of_ne same] at eq
      exact before other history eq

omit [Field K] [LinearOrder K] in
theorem each_change_iff {name : Nat} {operation : HeartbeatHistory K → HeartbeatHistory K}
    (before : Each P histories) (moved : change histories name operation = some next) :
    ∃ history, histories name = some history ∧ P history ∧
      (Each P next ↔ P (operation history)) := by
  unfold change at moved
  obtain ⟨history, here, rfl⟩ := Option.map_eq_some_iff.mp moved
  refine ⟨history, here, before name history here, ?_⟩
  rw [each_update_iff before]
  simp

theorem each_after_update (first second : Nat) (before : Each P histories)
    (copies : ∀ left right, P right → P (updateHistory left right))
    (moved : step histories (.update first second) = some next) : Each P next := by
  unfold step at moved
  dsimp only at moved
  split at moved
  · rename_i left right _ there
    obtain rfl := Option.some.inj moved
    rw [each_update_iff before]
    intro history eq
    obtain rfl := Option.some.inj eq
    exact copies left right (before second right there)
  · obtain rfl := Option.some.inj moved
    exact before

/-- The one operation that can let the sums drift is a drop of something other than zero. -/
theorem undrifted_step_iff {operation : Operation K} (before : Each Undrifted histories)
    (values : NonNegative operation) (moved : step histories operation = some next) :
    Each Undrifted next ↔ DropsZero histories operation := by
  cases operation with
  | newHistory name maxSampleSize =>
    obtain rfl := Option.some.inj moved
    rw [each_update_iff before]
    exact iff_of_true (fun _ fresh => undrifted_new fresh) trivial
  | add name interval =>
    obtain ⟨history, -, valid, iff⟩ := each_change_iff before moved
    exact iff_of_true (iff.mpr (undrifted_add valid values)) trivial
  | dropOldest name =>
    obtain ⟨history, here, valid, iff⟩ := each_change_iff before moved
    rw [iff, undrifted_drop_iff valid]
    constructor
    · intro zero other eq
      obtain rfl := Option.some.inj (here.symm.trans eq)
      exact zero
    · intro zero
      exact zero history here
  | adjust name missedCount =>
    obtain ⟨history, -, valid, iff⟩ := each_change_iff before moved
    exact iff_of_true (iff.mpr (undrifted_adjust valid missedCount)) trivial
  | update first second =>
    exact iff_of_true (each_after_update first second before (fun left _ => undrifted_update left)
      moved) trivial

def Positive (history : HeartbeatHistory K) : Prop := 0 < history.maxSampleSize

theorem positive_step {operation : Operation K} (before : Each Positive histories)
    (moved : step histories operation = some next) : Each Positive next := by
  cases operation with
  | newHistory name maxSampleSize =>
    obtain rfl := Option.some.inj moved
    rw [each_update_iff before]
    exact fun _ fresh => (undrifted_new fresh).positive
  | add name interval =>
    obtain ⟨history, -, pos, iff⟩ := each_change_iff before moved
    apply iff.mpr
    unfold Positive
    rw [maxSampleSize_add]
    exact pos
  | dropOldest name =>
    obtain ⟨history, -, pos, iff⟩ := each_change_iff before moved
    apply iff.mpr
    unfold Positive
    rw [(drop_keeps history).1]
    exact pos
  | adjust name missedCount =>
    obtain ⟨history, -, pos, iff⟩ := each_change_iff before moved
    exact iff.mpr pos
  | update first second =>
    apply each_after_update first second before _ moved
    intro left right pos
    have size : (updateHistory left right).maxSampleSize = right.maxSampleSize :=
      (contents_eq_iff.mp contents_update).1
    unfold Positive
    rw [size]
    exact pos

end Each

/-- After every operation of a run all histories are in order, exactly when no step drops an
    interval that counts for something. -/
theorem sums_never_drift_iff [IsStrictOrderedRing K] (operations : List (Operation K))
    (histories : Histories K) (values : ∀ operation ∈ operations, NonNegative operation)
    (run : Runs.run step noHistories operations = some histories) :
    (∀ k reached, Runs.run step noHistories (operations.take k) = some reached →
      ∀ name history, reached name = some history →
        history.intervalCount ≤ history.maxSampleSize ∧ (∀ x ∈ samples history, 0 ≤ x) ∧
        history.intervalSum = (samples history).sum ∧
        history.squaredIntervalSum = ((samples history).map fun x => x * x).sum ∧
        0 ≤ variance history) ↔
      Runs.Meets step DropsZero noHistories operations := by
  have start : ∀ {P}, Each P (noHistories : Histories K) := by
    intro P name history none
    cases none
  rw [← Runs.invariant_iff_meets (fun _ _ _ => undrifted_step_iff) start values run]
  constructor
  · intro always k reached front name history here
    obtain ⟨bounded, nonneg, sum, squares, -⟩ := always k reached front name history here
    have positive := Runs.run_invariant (fun _ _ _ => positive_step) start front name history here
    exact ⟨⟨sum, squares⟩, positive, bounded, nonneg⟩
  · intro always k reached front name history here
    have valid := always k reached front name history here
    exact ⟨valid.bounded, valid.nonneg, valid.sum, valid.squares,
      variance_nonneg valid.toSumsCorrect⟩

def zeroDropped : List (Operation ℚ) :=
  [.newHistory 0 2, .add 0 0, .add 0 3, .dropOldest 0, .adjust 0 25, .newHistory 1 5, .update 1 0]

theorem sums_never_drift_zero :
    ∃ histories, Runs.run step noHistories zeroDropped = some histories ∧
    ((∀ k reached, Runs.run step noHistories (zeroDropped.take k) = some reached →
      ∀ name history, reached name = some history →
        history.intervalCount ≤ history.maxSampleSize ∧ (∀ x ∈ samples history, 0 ≤ x) ∧
        history.intervalSum = (samples history).sum ∧
        history.squaredIntervalSum = ((samples history).map fun x => x * x).sum ∧
        0 ≤ variance history) ↔
      Runs.Meets step DropsZero noHistories zeroDropped) :=
  ⟨_, rfl, sums_never_drift_iff zeroDropped _ (by simp [zeroDropped, NonNegative]) rfl⟩

/-- With 1 and 2 in the window, dropping the 1 leaves a variance of -4. -/
theorem drop_lets_sums_drift :
    ¬ ∀ (operations : List (Operation ℚ)) histories,
      (∀ operation ∈ operations, NonNegative operation) →
      Runs.run step noHistories operations = some histories →
      ∀ name history, histories name = some history →
        history.intervalCount ≤ history.maxSampleSize ∧ (∀ x ∈ samples history, 0 ≤ x) ∧
        history.intervalSum = (samples history).sum ∧
        history.squaredIntervalSum = ((samples history).map fun x => x * x).sum ∧
        0 ≤ variance history := by
  intro always
  obtain ⟨-, -, -, -, spread⟩ := always
    [.newHistory 0 2, .add 0 1, .add 0 2, .dropOldest 0] _ (by simp [NonNegative]) rfl 0 _ rfl
  exact absurd spread (by decide +kernel)

end RealMQ.HistoryStore
