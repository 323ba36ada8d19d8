import RealMQ.HistoryUpdates
import RealMQ.Foundation.Heaps

/- accrual_detector/heartbeat_history.c once more, on a heap where the interval buffers lie.
   Allocation succeeds; what is undefined in C has no result. tracked are the addresses in the
   list of utils/memory_leak_detector.c, whose test_free the files of the detector call for free. -/
namespace RealMQ.HistoryHeap
open HeartbeatHistories HistoryUpdates Slots Heaps
variable {K : Type*}

structure HistoryObject (K : Type*) where
  maxSampleSize : Nat
  intervals : Pointer
  intervalCount : Nat
  intervalSum : K
  squaredIntervalSum : K

structure Placed (K : Type*) where
  heap : Heap K
  history : HistoryObject K

section Code
variable [Field K] [LinearOrder K]

def newHeartbeatHistory (heap : Heap K) (maxSampleSize : Nat) (intervals : Pointer)
    (intervalCount : Nat) (intervalSum squaredIntervalSum : K) : Option (Placed K) :=
  if maxSampleSize < 1 then none
  else if intervalSum < 0 then none
  else if squaredIntervalSum < 0 then none
  else
    match intervals with
    | none => some
        { heap := allocate heap (List.replicate maxSampleSize 0)
          history := ⟨maxSampleSize, some heap.next, 0, intervalSum, squaredIntervalSum⟩ }
    | some p => some
        { heap := heap
          history := ⟨maxSampleSize, some p, intervalCount, intervalSum, squaredIntervalSum⟩ }

def dropOldestInterval (placed : Placed K) : Option (Placed K) :=
  let history := placed.history
  if history.intervalCount = 0 then some placed
  else (moveDown history.intervals (history.maxSampleSize - 1) placed.heap).map fun heap =>
    { heap := heap
      history := { history with intervalCount := history.intervalCount - 1 } }

def addToSums (placed : Placed K) (i : Nat) (sums : K × K) : Option (K × K) :=
  (load placed.heap placed.history.intervals i).map fun x => (sums.1 + x, sums.2 + x * x)

def recomputeSums (placed : Placed K) : Option (Placed K) :=
  (forLoop (addToSums placed) placed.history.intervalCount (0, 0)).map fun sums =>
    { placed with
      history := { placed.history with intervalSum := sums.1, squaredIntervalSum := sums.2 } }

def addInterval (placed : Placed K) (interval : K) : Option (Placed K) :=
  let history := placed.history
  let added :=
    if history.intervalCount < history.maxSampleSize then
      (store placed.heap history.intervals history.intervalCount interval).map fun heap =>
        { heap := heap
          history := { history with intervalCount := history.intervalCount + 1 } }
    else
      (dropOldestInterval placed).bind fun dropped =>
        (store dropped.heap dropped.history.intervals (dropped.history.maxSampleSize - 1)
          interval).map fun heap => { dropped with heap := heap }
  added.bind recomputeSums

def adjustIntervals (placed : Placed K) (missedCount : Int) : Option (Placed K) :=
  let history := placed.history
  (transfer (scaled missedCount) history.intervals history.intervals history.intervalCount
    placed.heap).bind fun heap => recomputeSums { placed with heap := heap }

def compareHistory (heap : Heap K) (history1 history2 : HistoryObject K) : Option Bool :=
  if history1.maxSampleSize ≠ history2.maxSampleSize then some false
  else if history1.intervalCount ≠ history2.intervalCount then some false
  else if history1.intervalSum ≠ history2.intervalSum then some false
  else if history1.squaredIntervalSum ≠ history2.squaredIntervalSum then some false
  else if history1.intervals = none ∧ history2.intervals = none then some true
  else if history1.intervals = none ∨ history2.intervals = none then some false
  else sameCells heap history1.intervals history2.intervals history1.intervalCount

/-- What is not in the list is not freed. -/
def testFree (tracked : Finset Nat) (heap : Heap K) : Pointer → Option (Heap K)
  | none => some heap
  | some p => if p ∈ tracked then free heap (some p) else some heap

def resize (tracked : Finset Nat) (heap : Heap K) (first : HistoryObject K) (maxSampleSize : Nat) :
    Option (Placed K) :=
  if first.maxSampleSize ≠ maxSampleSize ∨ first.intervals = none then
    (testFree tracked heap first.intervals).map fun heap =>
      { heap := allocate heap (List.replicate maxSampleSize 0)
        history := { first with maxSampleSize := maxSampleSize, intervals := some heap.next } }
  else some { heap := heap, history := first }

def updateHistory (tracked : Finset Nat) (heap : Heap K) (first second : HistoryObject K) :
    Option (Placed K) :=
  (resize tracked heap first second.maxSampleSize).bind fun placed =>
    (transfer id placed.history.intervals second.intervals second.intervalCount placed.heap).map
      fun heap =>
        { heap := heap
          history := { placed.history with
            intervalCount := second.intervalCount
            intervalSum := second.intervalSum
            squaredIntervalSum := second.squaredIntervalSum } }

end Code

/-- Own buffer of max_sample_size slots, with no more counted than there are. -/
structure WellFormed (heap : Heap K) (history : HistoryObject K) : Prop where
  buffer : ∃ content, cells heap history.intervals = some content ∧
    content.length = history.maxSampleSize
  bounded : history.intervalCount ≤ history.maxSampleSize

/-- What a well-formed history stands for; deep equality is equality of this. -/
def contentsAt (heap : Heap K) (history : HistoryObject K) : Option (Contents K) :=
  (cells heap history.intervals).map fun content =>
    ⟨history.maxSampleSize, content.take history.intervalCount, history.intervalSum,
      history.squaredIntervalSum⟩

def objectAt (p : Nat) (history : HeartbeatHistory K) : HistoryObject K :=
  ⟨history.maxSampleSize, some p, history.intervalCount, history.intervalSum,
    history.squaredIntervalSum⟩

@[simp] theorem objectAt_maxSampleSize (p : Nat) (history : HeartbeatHistory K) :
    (objectAt p history).maxSampleSize = history.maxSampleSize := rfl

@[simp] theorem objectAt_intervals (p : Nat) (history : HeartbeatHistory K) :
    (objectAt p history).intervals = some p := rfl

@[simp] theorem objectAt_intervalCount (p : Nat) (history : HeartbeatHistory K) :
    (objectAt p history).intervalCount = history.intervalCount := rfl

@[simp] theorem objectAt_intervalSum (p : Nat) (history : HeartbeatHistory K) :
    (objectAt p history).intervalSum = history.intervalSum := rfl

@[simp] theorem objectAt_squaredIntervalSum (p : Nat) (history : HeartbeatHistory K) :
    (objectAt p history).squaredIntervalSum = history.squaredIntervalSum := rfl

def bufferOf (history : HeartbeatHistory K) : List K :=
  window history.intervals history.maxSampleSize

def rewritten (heap : Heap K) (p : Nat) (history : HeartbeatHistory K) : Placed K :=
  ⟨alter heap p (some (bufferOf history)), objectAt p history⟩

section InPlace
variable {heap : Heap K} {p : Nat} {history : HeartbeatHistory K}

theorem contents_in_memory (live : heap.block p = some (bufferOf history))
    (bounded : history.intervalCount ≤ history.maxSampleSize) :
    contentsAt heap (objectAt p history) = some (contents history) := by
  have here : cells heap (some p) = some (bufferOf history) := live
  unfold contentsAt
  rw [objectAt_intervals, here, Option.map_some, objectAt_intervalCount]
  unfold bufferOf
  rw [window_take history.intervals bounded]
  rfl

theorem wellFormed_in_memory (live : heap.block p = some (bufferOf history))
    (bounded : history.intervalCount ≤ history.maxSampleSize) :
    WellFormed heap (objectAt p history) :=
  ⟨⟨bufferOf history, live, window_length _ _⟩, bounded⟩

theorem rewritten_self (live : heap.block p = some (bufferOf history)) :
    rewritten heap p history = ⟨heap, objectAt p history⟩ := by
  unfold rewritten
  rw [alter_live live]

theorem drop_in_place (live : heap.block p = some (bufferOf history))
    (bounded : history.intervalCount ≤ history.maxSampleSize) :
    dropOldestInterval ⟨heap, objectAt p history⟩ =
      some (rewritten heap p (HeartbeatHistories.dropOldestInterval history)) := by
  unfold dropOldestInterval HeartbeatHistories.dropOldestInterval objectAt
  dsimp only
  by_cases empty : history.intervalCount = 0
  · rw [if_pos empty, if_pos empty, rewritten_self live]
    rfl
  · rw [if_neg empty, if_neg empty, moveDown_window live (by omega)]
    rfl

variable [Field K]

theorem exists_value {object : HistoryObject K} (valid : WellFormed heap object) :
    ∃ p history, object = objectAt p history ∧ heap.block p = some (bufferOf history) ∧
      history.intervalCount ≤ history.maxSampleSize := by
  obtain ⟨content, buffer, length⟩ := valid.buffer
  obtain ⟨p, pointer, live⟩ := cells_some buffer
  refine ⟨p, ⟨object.maxSampleSize, fun i => content.getD i 0, object.intervalCount,
    object.intervalSum, object.squaredIntervalSum⟩, ?_, ?_, valid.bounded⟩
  · unfold objectAt
    rw [← pointer]
  · rw [live]
    unfold bufferOf
    dsimp only
    rw [← length, window_getD]

theorem sums_path (live : heap.block p = some (bufferOf history))
    (bounded : history.intervalCount ≤ history.maxSampleSize) :
    forLoop (addToSums ⟨heap, objectAt p history⟩) history.intervalCount (0, 0) =
      some ((samples history).sum, ((samples history).map fun x => x * x).sum) := by
  apply forLoop_path fun i => ((window history.intervals i).sum,
    ((window history.intervals i).map fun x => x * x).sum)
  intro i early
  have here : load heap (some p) i = some (history.intervals i) := load_window live (by omega)
  unfold addToSums objectAt
  dsimp only
  rw [here, window_succ]
  simp

theorem recompute_in_place (live : heap.block p = some (bufferOf history))
    (bounded : history.intervalCount ≤ history.maxSampleSize) :
    recomputeSums ⟨heap, objectAt p history⟩ =
      some ⟨heap, objectAt p (HeartbeatHistories.recomputeSums history)⟩ := by
  have sums := sums_path live bounded
  unfold recomputeSums
  dsimp only
  rw [objectAt_intervalCount, sums]
  rfl

theorem recompute_rewritten (live : heap.block p = some (bufferOf history))
    (next : HeartbeatHistory K) (bounded : next.intervalCount ≤ next.maxSampleSize) :
    recomputeSums (rewritten heap p next) =
      some (rewritten heap p (HeartbeatHistories.recomputeSums next)) := by
  unfold rewritten
  rw [recompute_in_place (block_alter_self live _) bounded]
  rfl

theorem store_in_place (live : heap.block p = some (bufferOf history)) (next : HeartbeatHistory K)
    {i count : Nat} (x : K) (bound : i < next.maxSampleSize) (bounded : count ≤ next.maxSampleSize) :
    ((store (alter heap p (some (bufferOf next))) (some p) i x).map fun heap =>
        ⟨heap, objectAt p { next with intervalCount := count }⟩).bind recomputeSums =
      some (rewritten heap p (HeartbeatHistories.recomputeSums
        { next with intervals := Function.update next.intervals i x, intervalCount := count })) := by
  unfold bufferOf
  rw [store_altered live x bound]
  exact recompute_rewritten live
    { next with intervals := Function.update next.intervals i x, intervalCount := count } bounded

theorem add_in_place (live : heap.block p = some (bufferOf history))
    (bounded : history.intervalCount ≤ history.maxSampleSize) (pos : 0 < history.maxSampleSize)
    (interval : K) : addInterval ⟨heap, objectAt p history⟩ interval =
      some (rewritten heap p (HeartbeatHistories.addInterval history interval)) := by
  unfold addInterval HeartbeatHistories.addInterval
  dsimp only
  rw [objectAt_intervalCount, objectAt_maxSampleSize]
  by_cases room : history.intervalCount < history.maxSampleSize
  · have added := store_in_place live history interval room room
    rw [alter_live live] at added
    rw [if_pos room, if_pos room]
    exact added
  · obtain ⟨size, count, -, -⟩ := drop_keeps history
    rw [if_neg room, if_neg room, drop_in_place live bounded]
    have last : (HeartbeatHistories.dropOldestInterval history).maxSampleSize - 1 <
      (HeartbeatHistories.dropOldestInterval history).maxSampleSize := by omega
    have counted : (HeartbeatHistories.dropOldestInterval history).intervalCount ≤
      (HeartbeatHistories.dropOldestInterval history).maxSampleSize := by omega
    exact store_in_place live _ interval last counted

theorem add_without_slots (live : heap.block p = some (bufferOf history))
    (bounded : history.intervalCount ≤ history.maxSampleSize) (empty : history.maxSampleSize = 0)
    (interval : K) : addInterval ⟨heap, objectAt p history⟩ interval = none := by
  have full : ¬ history.intervalCount < history.maxSampleSize := by omega
  have uncounted : history.intervalCount = 0 := by omega
  have outside : store heap (some p) (history.maxSampleSize - 1) interval = none :=
    store_outside live (by omega)
  unfold addInterval dropOldestInterval
  dsimp only
  rw [objectAt_intervalCount, objectAt_maxSampleSize, if_neg full, if_pos uncounted, Option.bind_some,
    objectAt_intervals, objectAt_maxSampleSize, outside]
  rfl

theorem adjust_in_place [LinearOrder K] (live : heap.block p = some (bufferOf history))
    (bounded : history.intervalCount ≤ history.maxSampleSize) (missedCount : Int) :
    adjustIntervals ⟨heap, objectAt p history⟩ missedCount =
      some (rewritten heap p (HistoryUpdates.adjustIntervals history missedCount)) := by
  have scaled := transfer_within live bounded (f := scaled missedCount)
  unfold adjustIntervals
  dsimp only
  rw [objectAt_intervals, objectAt_intervalCount, scaled]
  exact recompute_rewritten live
    { history with
      intervals := overwrite history.intervals
        (fun i => HistoryUpdates.scaled missedCount (history.intervals i)) history.intervalCount }
    bounded

end InPlace

def freshCopy [Field K] (history : HeartbeatHistory K) : HeartbeatHistory K :=
  { history with
    intervals := overwrite (fun _ => 0) history.intervals history.intervalCount }

theorem testFree_live {tracked : Finset Nat} {heap : Heap K} {p : Nat} {content : List K}
    (live : heap.block p = some content) : ∃ freed, testFree tracked heap (some p) = some freed ∧
      freed.next = heap.next ∧ ∀ q, q ≠ p → freed.block q = heap.block q := by
  unfold testFree
  dsimp only
  by_cases member : p ∈ tracked
  · rw [if_pos member, free_live live]
    exact ⟨_, rfl, rfl, fun q other => block_alter_other other none⟩
  · rw [if_neg member]
    exact ⟨heap, rfl, rfl, fun _ _ => rfl⟩

theorem resize_cases [Field K] {tracked : Finset Nat} {heap : Heap K} {first : HistoryObject K}
    {n : Nat} {placed : Placed K} (resized : resize tracked heap first n = some placed) :
    (first.maxSampleSize = n ∧ first.intervals ≠ none ∧ placed = ⟨heap, first⟩) ∨
      ((first.maxSampleSize ≠ n ∨ first.intervals = none) ∧
        ∃ freed, testFree tracked heap first.intervals = some freed ∧
          placed = ⟨allocate freed (List.replicate n 0),
            { first with maxSampleSize := n, intervals := some freed.next }⟩) := by
  unfold resize at resized
  split at resized
  · rename_i replaced
    obtain ⟨freed, free, rfl⟩ := Option.map_eq_some_iff.mp resized
    exact Or.inr ⟨replaced, freed, free, rfl⟩
  · rename_i kept
    obtain ⟨size, buffer⟩ := not_or.mp kept
    exact Or.inl ⟨not_not.mp size, buffer, (Option.some.inj resized).symm⟩

section TwoHistories
variable {tracked : Finset Nat} {heap : Heap K} {p q : Nat} {first second : HeartbeatHistory K}

theorem compare_in_memory [LinearOrder K] (left : heap.block p = some (bufferOf first))
    (right : heap.block q = some (bufferOf second))
    (boundedLeft : first.intervalCount ≤ first.maxSampleSize)
    (boundedRight : second.intervalCount ≤ second.maxSampleSize) :
    compareHistory heap (objectAt p first) (objectAt q second) =
      some (HistoryUpdates.compareHistory first second) := by
  unfold compareHistory HistoryUpdates.compareHistory
  simp only [objectAt_maxSampleSize, objectAt_intervals, objectAt_intervalCount, objectAt_intervalSum,
    objectAt_squaredIntervalSum]
  by_cases size : first.maxSampleSize = second.maxSampleSize
  · by_cases count : first.intervalCount = second.intervalCount
    · have slots : sameCells heap (some p) (some q) first.intervalCount =
          some (decide (window first.intervals first.intervalCount =
            window second.intervals first.intervalCount)) :=
        sameCells_window left right boundedLeft (count ▸ boundedRight)
      have listed : decide (window first.intervals first.intervalCount =
          window second.intervals first.intervalCount) =
          (List.range first.intervalCount).all fun i =>
            decide (first.intervals i = second.intervals i) := by
        rw [Bool.eq_iff_iff]
        simp [window_eq_iff]
      rw [slots, listed]
      by_cases sum : first.intervalSum = second.intervalSum
      · by_cases squares : first.squaredIntervalSum = second.squaredIntervalSum
        · simp [size, count, sum, squares]
        · simp [squares]
      · simp [sum]
    · simp [count]
  · simp [size]

variable [Field K]

theorem update_fresh_value (sizes : first.maxSampleSize ≠ second.maxSampleSize) :
    HistoryUpdates.updateHistory first second = freshCopy second := by
  unfold HistoryUpdates.updateHistory freshCopy
  rw [if_pos sizes]

theorem update_of_resize {target : HistoryObject K} {placed : Placed K} {after : Heap K}
    (resized : resize tracked heap target second.maxSampleSize = some placed)
    (copied : transfer id placed.history.intervals (some q) second.intervalCount placed.heap =
      some after) : updateHistory tracked heap target (objectAt q second) =
      some ⟨after, { placed.history with
        intervalCount := second.intervalCount
        intervalSum := second.intervalSum
        squaredIntervalSum := second.squaredIntervalSum }⟩ := by
  unfold updateHistory
  rw [objectAt_maxSampleSize, resized, Option.bind_some, objectAt_intervals, objectAt_intervalCount,
    copied]
  rfl

theorem update_fresh {target : HistoryObject K} {freed : Heap K}
    (replaced : target.maxSampleSize ≠ second.maxSampleSize ∨ target.intervals = none)
    (free : testFree tracked heap target.intervals = some freed)
    (live : freed.block q = some (bufferOf second))
    (bounded : second.intervalCount ≤ second.maxSampleSize) :
    updateHistory tracked heap target (objectAt q second) =
      some ⟨allocate freed (bufferOf (freshCopy second)), objectAt freed.next (freshCopy second)⟩ := by
  have resized : resize tracked heap target second.maxSampleSize =
      some ⟨allocate freed (List.replicate second.maxSampleSize 0),
        { target with maxSampleSize := second.maxSampleSize, intervals := some freed.next }⟩ := by
    unfold resize
    rw [if_pos replaced, free, Option.map_some]
  have apart : q ≠ freed.next := Nat.ne_of_lt (live_lt live)
  have zeros : (allocate freed (List.replicate second.maxSampleSize 0)).block freed.next =
      some (window (fun _ => 0) second.maxSampleSize) := by
    rw [block_allocate_self, window_const]
  have source : (allocate freed (List.replicate second.maxSampleSize 0)).block q =
      some (bufferOf second) := (block_allocate_other apart).trans live
  have copied := transfer_between zeros apart source bounded bounded (f := id)
  rw [alter_allocate] at copied
  rw [update_of_resize resized copied]
  rfl

theorem update_in_place (left : heap.block p = some (bufferOf first))
    (right : heap.block q = some (bufferOf second)) (different : q ≠ p)
    (same : first.maxSampleSize = second.maxSampleSize)
    (bounded : second.intervalCount ≤ second.maxSampleSize) :
    updateHistory tracked heap (objectAt p first) (objectAt q second) =
      some (rewritten heap p (HistoryUpdates.updateHistory first second)) := by
  have resized : resize tracked heap (objectAt p first) second.maxSampleSize =
      some ⟨heap, objectAt p first⟩ := by
    unfold resize
    exact if_neg (by simp [same])
  have copied := transfer_between left different right (same ▸ bounded) bounded (f := id)
  rw [update_of_resize resized copied]
  unfold HistoryUpdates.updateHistory
  rw [if_neg (not_not.mpr same)]
  rfl

end TwoHistories

end RealMQ.HistoryHeap
