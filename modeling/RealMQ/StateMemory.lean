import RealMQ.DetectorState
import RealMQ.HistoryHeap

/- state.c and compare_and_set of phi_accrual_failure_detector.c on a heap of interval buffers.
   Each state has a history of its own. -/
namespace RealMQ.StateMemory
open HeartbeatHistories HistoryUpdates PhiAccrualDetectors HistoryHeap Heaps
variable {K : Type*} {A : Type}

structure StateObject (K : Type*) where
  history : HistoryObject K
  timestamp : Int

structure Memory (A : Type) (K : Type*) where
  heap : Heap K
  states : A → StateObject K

structure Valid (memory : Memory A K) : Prop where
  histories : ∀ a, WellFormed memory.heap (memory.states a).history
  own : Function.Injective fun a => (memory.states a).history.intervals

structure Unchanged (memory after : Memory A K) (a : A) : Prop where
  state : after.states a = memory.states a
  buffer : cells after.heap (memory.states a).history.intervals =
    cells memory.heap (memory.states a).history.intervals

/-- How the states of the value model lie in memory, each with its buffer at its place. -/
structure Stands (memory : Memory A K) (place : A → Nat) (values : A → State K) : Prop where
  states : ∀ a, memory.states a = ⟨objectAt (place a) (values a).history, (values a).timestamp⟩
  blocks : ∀ a, memory.heap.block (place a) = some (bufferOf (values a).history)
  bounded : ∀ a, (values a).history.intervalCount ≤ (values a).history.maxSampleSize
  own : Function.Injective place

section Standing
variable {memory after : Memory A K} {place place' : A → Nat} {values values' : A → State K} {a : A}

theorem exists_values [Field K] (valid : Valid memory) :
    ∃ place values, Stands memory place values := by
  have each := fun a => exists_value (valid.histories a)
  choose place history object live bounded using each
  refine ⟨place, fun a => ⟨history a, (memory.states a).timestamp⟩, ?_⟩
  constructor
  · intro a
    rw [← object a]
  · exact live
  · exact bounded
  · intro a b same
    apply valid.own
    dsimp only
    rw [object a, object b, objectAt_intervals, objectAt_intervals, same]

theorem stands_valid (stands : Stands memory place values) : Valid memory := by
  constructor
  · intro a
    rw [stands.states a]
    exact wellFormed_in_memory (stands.blocks a) (stands.bounded a)
  · intro a b same
    dsimp only at same
    rw [stands.states a, stands.states b] at same
    exact stands.own (Option.some.inj same)

theorem contents_of_stands (stands : Stands memory place values) (a : A) :
    contentsAt memory.heap (memory.states a).history = some (contents (values a).history) := by
  rw [stands.states a]
  exact contents_in_memory (stands.blocks a) (stands.bounded a)

theorem unchanged_of_stands (before : Stands memory place values)
    (later : Stands after place' values') (samePlace : place' a = place a)
    (sameValue : values' a = values a) : Unchanged memory after a := by
  constructor
  · rw [later.states a, before.states a, samePlace, sameValue]
  · have left := later.blocks a
    have right := before.blocks a
    rw [samePlace, sameValue] at left
    rw [before.states a]
    exact left.trans right.symm

theorem stands_update [DecidableEq A] (stands : Stands memory place values) (a : A) {heap : Heap K}
    {p : Nat} {value : State K} (own : ∀ b, b ≠ a → place b ≠ p)
    (bounded : value.history.intervalCount ≤ value.history.maxSampleSize)
    (here : heap.block p = some (bufferOf value.history))
    (frame : ∀ b, b ≠ a → heap.block (place b) = memory.heap.block (place b)) :
    Stands ⟨heap, Function.update memory.states a ⟨objectAt p value.history, value.timestamp⟩⟩
      (Function.update place a p) (Function.update values a value) := by
  constructor
  · intro b
    by_cases same : b = a
    · subst same
      simp only [Function.update_self]
    · simp only [Function.update_of_ne same]
      exact stands.states b
  · intro b
    by_cases same : b = a
    · subst same
      simpa only [Function.update_self] using here
    · simp only [Function.update_of_ne same]
      exact (frame b same).trans (stands.blocks b)
  · intro b
    by_cases same : b = a
    · subst same
      simpa only [Function.update_self] using bounded
    · simp only [Function.update_of_ne same]
      exact stands.bounded b
  · intro b c same
    by_cases left : b = a
    · by_cases right : c = a
      · rw [left, right]
      · rw [left, Function.update_self, Function.update_of_ne right] at same
        exact absurd same.symm (own c right)
    · by_cases right : c = a
      · rw [right, Function.update_self, Function.update_of_ne left] at same
        exact absurd same (own b left)
      · rw [Function.update_of_ne left, Function.update_of_ne right] at same
        exact stands.own same

theorem stands_rewrite [DecidableEq A] (stands : Stands memory place values) (a : A)
    (value : State K) (bounded : value.history.intervalCount ≤ value.history.maxSampleSize) :
    Stands ⟨(rewritten memory.heap (place a) value.history).heap, Function.update memory.states a
      ⟨objectAt (place a) value.history, value.timestamp⟩⟩ place (Function.update values a value) := by
  have apart : ∀ b, b ≠ a → place b ≠ place a := fun b other same => other (stands.own same)
  have moved := stands_update stands a apart bounded (block_alter_self (stands.blocks a) _)
    fun b other => block_alter_other (apart b other) _
  rw [Function.update_eq_self] at moved
  exact moved

end Standing

variable [Field K] [LinearOrder K] [DecidableEq A]

/-- The fresh heartbeat_history_t is what malloc left there. -/
def stateInit (tracked : Finset Nat) (heap : Heap K) (recycled : HistoryObject K)
    (history : Option (HistoryObject K)) (timestamp : Int) : Option (Heap K × StateObject K) :=
  let newHistory :=
    match history with
    | none => HistoryHeap.newHeartbeatHistory heap 1 none 0 0 0
    | some history => HistoryHeap.updateHistory tracked heap recycled history
  newHistory.map fun placed => (placed.heap, ⟨placed.history, timestamp⟩)

def compareStates (memory : Memory A K) (first second : A) : Option Bool :=
  if (memory.states first).timestamp = 0 ∧ (memory.states second).timestamp = 0 then some true
  else if (memory.states first).timestamp = (memory.states second).timestamp then
    HistoryHeap.compareHistory memory.heap (memory.states first).history
      (memory.states second).history
  else some false

def updateState (tracked : Finset Nat) (memory : Memory A K) (first second : A) :
    Option (Memory A K) :=
  (HistoryHeap.updateHistory tracked memory.heap (memory.states first).history
    (memory.states second).history).map fun placed =>
    { heap := placed.heap
      states := Function.update memory.states first
        ⟨placed.history, (memory.states second).timestamp⟩ }

def compareAndSet (tracked : Finset Nat) (memory : Memory A K) (current expect update : A) :
    Option (Bool × Memory A K) :=
  (compareStates memory current expect).bind fun same =>
    if same then (updateState tracked memory current update).map fun after => (true, after)
    else some (false, memory)

inductive Change (K : Type*) where
  | add (interval : K)
  | adjust (missedCount : Int)

def applied (placed : Placed K) : Change K → Option (Placed K)
  | .add interval => HistoryHeap.addInterval placed interval
  | .adjust missedCount => HistoryHeap.adjustIntervals placed missedCount

def step (memory : Memory A K) (entry : A × Change K) : Option (Memory A K) :=
  (applied ⟨memory.heap, (memory.states entry.1).history⟩ entry.2).map fun placed =>
    { heap := placed.heap
      states := Function.update memory.states entry.1
        { memory.states entry.1 with history := placed.history } }

def changed (history : HeartbeatHistory K) : Change K → HeartbeatHistory K
  | .add interval => HeartbeatHistories.addInterval history interval
  | .adjust missedCount => HistoryUpdates.adjustIntervals history missedCount

def valueStep (values : A → State K) (entry : A × Change K) : A → State K :=
  Function.update values entry.1
    { values entry.1 with history := changed (values entry.1).history entry.2 }

def changesOf (a : A) (log : List (A × Change K)) : List (Change K) :=
  (log.filter fun entry => decide (entry.1 = a)).map Prod.snd

section Steps
variable {tracked : Finset Nat} {memory next : Memory A K} {place : A → Nat} {values : A → State K}

omit [Field K] [DecidableEq A] in
theorem compare_refines (stands : Stands memory place values) (first second : A) :
    compareStates memory first second =
      some (DetectorStates.compareStates (values first) (values second)) := by
  unfold compareStates DetectorStates.compareStates
  rw [stands.states first, stands.states second]
  dsimp only
  by_cases fresh : (values first).timestamp = 0 ∧ (values second).timestamp = 0
  · rw [if_pos fresh, if_pos fresh]
  · rw [if_neg fresh, if_neg fresh]
    by_cases same : (values first).timestamp = (values second).timestamp
    · rw [if_pos same, decide_eq_true same, Bool.true_and]
      exact compare_in_memory (stands.blocks first) (stands.blocks second) (stands.bounded first)
        (stands.bounded second)
    · rw [if_neg same, decide_eq_false same, Bool.false_and]

omit [LinearOrder K] in
theorem update_in_buffer (stands : Stands memory place values) {first second : A}
    (distinct : first ≠ second)
    (sizes : (values first).history.maxSampleSize = (values second).history.maxSampleSize) :
    updateState tracked memory first second = some
      { heap := (rewritten memory.heap (place first)
          (DetectorStates.updateState (values first) (values second)).history).heap
        states := Function.update memory.states first
          ⟨objectAt (place first) (DetectorStates.updateState (values first) (values second)).history,
            (values second).timestamp⟩ } := by
  have apart : place second ≠ place first := fun same => distinct (stands.own same).symm
  have updated : HistoryHeap.updateHistory tracked memory.heap
      (objectAt (place first) (values first).history)
      (objectAt (place second) (values second).history) = some _ :=
    update_in_place (stands.blocks first) (stands.blocks second) apart sizes (stands.bounded second)
  unfold updateState
  rw [stands.states first, stands.states second, updated]
  rfl

omit [LinearOrder K] in
theorem update_moves (stands : Stands memory place values) {first second : A}
    (distinct : first ≠ second)
    (sizes : (values first).history.maxSampleSize ≠ (values second).history.maxSampleSize) :
    ∃ freed, freed.next = memory.heap.next ∧
      (∀ q, q ≠ place first → freed.block q = memory.heap.block q) ∧
      updateState tracked memory first second = some
        { heap := allocate freed
            (bufferOf (DetectorStates.updateState (values first) (values second)).history)
          states := Function.update memory.states first
            ⟨objectAt memory.heap.next
              (DetectorStates.updateState (values first) (values second)).history,
              (values second).timestamp⟩ } := by
  have apart : place second ≠ place first := fun same => distinct (stands.own same).symm
  obtain ⟨freed, free, next, kept⟩ := @testFree_live K tracked _ _ _ (stands.blocks first)
  have source := (kept _ apart).trans (stands.blocks second)
  have updated : HistoryHeap.updateHistory tracked memory.heap
      (objectAt (place first) (values first).history)
      (objectAt (place second) (values second).history) = some _ :=
    update_fresh (Or.inl sizes) free source (stands.bounded second)
  have value : (DetectorStates.updateState (values first) (values second)).history =
    freshCopy (values second).history := update_fresh_value sizes
  refine ⟨freed, next, kept, ?_⟩
  unfold updateState
  rw [stands.states first, stands.states second, updated, value, next]
  rfl

omit [LinearOrder K] in
theorem update_refines (stands : Stands memory place values) {first second : A}
    (distinct : first ≠ second) : ∃ after place',
      updateState tracked memory first second = some after ∧
      Stands after place' (Function.update values first
        (DetectorStates.updateState (values first) (values second))) ∧
      ∀ a, a ≠ first → place' a = place a := by
  have copied : contents (DetectorStates.updateState (values first) (values second)).history =
    contents (values second).history := contents_update
  have bounded : (DetectorStates.updateState (values first) (values second)).history.intervalCount ≤
      (DetectorStates.updateState (values first) (values second)).history.maxSampleSize := by
    rw [count_of_contents copied, (contents_eq_iff.mp copied).1]
    exact stands.bounded second
  by_cases sizes : (values first).history.maxSampleSize = (values second).history.maxSampleSize
  · exact ⟨_, place, update_in_buffer stands distinct sizes, stands_rewrite stands first _ bounded,
      fun _ _ => rfl⟩
  · have new : ∀ a, place a ≠ memory.heap.next := fun a => Nat.ne_of_lt (live_lt (stands.blocks a))
    obtain ⟨freed, next, kept, moved⟩ := @update_moves _ _ _ _ tracked _ _ _ stands _ _ distinct sizes
    refine ⟨_, Function.update place first memory.heap.next, moved, ?_,
      fun a other => Function.update_of_ne other _ _⟩
    have here : (allocate freed
        (bufferOf (DetectorStates.updateState (values first) (values second)).history)).block
          memory.heap.next =
        some (bufferOf (DetectorStates.updateState (values first) (values second)).history) := by
      rw [← next]
      exact block_allocate_self
    apply stands_update stands first (fun a _ => new a) bounded here
    intro a other
    have apart : place a ≠ place first := fun same => other (stands.own same)
    rw [← kept _ apart]
    exact block_allocate_other (by rw [next]; exact new a)

theorem compare_and_set_refines (stands : Stands memory place values) {current update : A}
    (distinct : current ≠ update) (expect : A) : ∃ after place',
      compareAndSet tracked memory current expect update =
        some ((DetectorStates.compareAndSet values current expect update).1, after) ∧
      Stands after place' (DetectorStates.compareAndSet values current expect update).2 ∧
      (∀ a, a ≠ current → place' a = place a) ∧
      ((DetectorStates.compareAndSet values current expect update).1 = false → after = memory) := by
  have compared := compare_refines stands current expect
  unfold compareAndSet DetectorStates.compareAndSet
  rw [compared, Option.bind_some]
  cases DetectorStates.compareStates (values current) (values expect) with
  | false => exact ⟨memory, place, rfl, stands, fun _ _ => rfl, fun _ => rfl⟩
  | true =>
    obtain ⟨after, place', updated, later, kept⟩ := update_refines stands distinct
    refine ⟨after, place', ?_, later, kept, fun refused => Bool.noConfusion refused⟩
    rw [if_pos rfl, updated]
    rfl

end Steps

section Changes
variable {first second : HeartbeatHistory K}

omit [DecidableEq A] in
theorem changed_keeps (history : HeartbeatHistory K) (change : Change K)
    (bounded : history.intervalCount ≤ history.maxSampleSize) :
    (changed history change).maxSampleSize = history.maxSampleSize ∧
      (changed history change).intervalCount ≤ (changed history change).maxSampleSize := by
  cases change with
  | add interval => exact ⟨maxSampleSize_add history interval, count_add_le interval bounded⟩
  | adjust missedCount => exact ⟨rfl, bounded⟩

theorem contents_changed (change : Change K) (bounded : first.intervalCount ≤ first.maxSampleSize)
    (same : contents first = contents second) :
    contents (changed first change) = contents (changed second change) := by
  cases change with
  | add interval => exact contents_add_congr interval bounded same
  | adjust missedCount => exact contents_adjust_congr missedCount same

theorem contents_changes (changes : List (Change K))
    (bounded : first.intervalCount ≤ first.maxSampleSize)
    (same : contents first = contents second) :
    contents (changes.foldl changed first) = contents (changes.foldl changed second) := by
  induction changes generalizing first second with
  | nil => exact same
  | cons change changes ih =>
    exact ih (changed_keeps first change bounded).2 (contents_changed change bounded same)

theorem applied_cases {heap : Heap K} {p : Nat} {history : HeartbeatHistory K} (change : Change K)
    (live : heap.block p = some (bufferOf history))
    (bounded : history.intervalCount ≤ history.maxSampleSize) :
    applied ⟨heap, objectAt p history⟩ change = some (rewritten heap p (changed history change)) ∨
      (history.maxSampleSize = 0 ∧ applied ⟨heap, objectAt p history⟩ change = none) := by
  cases change with
  | add interval =>
    rcases Nat.eq_zero_or_pos history.maxSampleSize with empty | pos
    · exact Or.inr ⟨empty, add_without_slots live bounded empty interval⟩
    · exact Or.inl (add_in_place live bounded pos interval)
  | adjust missedCount => exact Or.inl (adjust_in_place live bounded missedCount)

end Changes

section Runs
variable {memory next : Memory A K} {place : A → Nat} {values : A → State K}

theorem step_cases (stands : Stands memory place values) (entry : A × Change K) :
    (∃ next, step memory entry = some next ∧ Stands next place (valueStep values entry)) ∨
      ((values entry.1).history.maxSampleSize = 0 ∧ step memory entry = none) := by
  have bounded := stands.bounded entry.1
  unfold step
  rw [stands.states entry.1]
  rcases applied_cases entry.2 (stands.blocks entry.1) bounded with done | stuck
  · refine Or.inl ⟨_, by rw [done]; rfl, ?_⟩
    exact stands_rewrite stands entry.1
      { values entry.1 with history := changed (values entry.1).history entry.2 }
      (changed_keeps _ entry.2 bounded).2
  · exact Or.inr ⟨stuck.1, by rw [stuck.2]; rfl⟩

theorem run_refines {log : List (A × Change K)} {final : Memory A K}
    (stands : Stands memory place values) (run : Runs.run step memory log = some final) :
    Stands final place (log.foldl valueStep values) := by
  induction log generalizing memory values with
  | nil =>
    obtain rfl := Option.some.inj run
    exact stands
  | cons entry log ih =>
    obtain ⟨next, moved, rest⟩ := Runs.run_cons_some.mp run
    rcases step_cases stands entry with ⟨next', moved', later⟩ | ⟨-, stuck⟩
    · obtain rfl := Option.some.inj (moved'.symm.trans moved)
      exact ih later rest
    · rw [stuck] at moved
      cases moved

theorem run_defined (log : List (A × Change K)) (stands : Stands memory place values)
    (slots : ∀ a, 0 < (values a).history.maxSampleSize) :
    ∃ final, Runs.run step memory log = some final := by
  induction log generalizing memory values with
  | nil => exact ⟨memory, rfl⟩
  | cons entry log ih =>
    rcases step_cases stands entry with ⟨next, moved, later⟩ | ⟨empty, -⟩
    · have still : ∀ a, 0 < (valueStep values entry a).history.maxSampleSize := by
        intro a
        unfold valueStep
        by_cases own : a = entry.1
        · subst own
          rw [Function.update_self, (changed_keeps _ entry.2 (stands.bounded entry.1)).1]
          exact slots entry.1
        · rw [Function.update_of_ne own]
          exact slots a
      obtain ⟨final, run⟩ := ih later still
      exact ⟨final, Runs.run_cons_some.mpr ⟨next, moved, run⟩⟩
    · exact absurd empty (Nat.ne_of_gt (slots entry.1))

theorem history_after (log : List (A × Change K)) (values : A → State K) (a : A) :
    (log.foldl valueStep values a).history = (changesOf a log).foldl changed (values a).history := by
  induction log generalizing values with
  | nil => rfl
  | cons entry log ih =>
    rw [List.foldl_cons, ih]
    unfold changesOf valueStep
    by_cases own : entry.1 = a
    · subst own
      simp
    · rw [Function.update_of_ne (Ne.symm own)]
      simp [own]

theorem contents_after {log : List (A × Change K)} {final : Memory A K} {first second : A}
    (stands : Stands memory place values) (run : Runs.run step memory log = some final)
    (same : contents (values first).history = contents (values second).history)
    (changes : changesOf first log = changesOf second log) :
    contentsAt final.heap (final.states first).history =
      contentsAt final.heap (final.states second).history := by
  have later := run_refines stands run
  rw [contents_of_stands later, contents_of_stands later, history_after, history_after, changes,
    contents_changes _ (stands.bounded first) same]

end Runs

structure Replaced (memory after : Memory A K) (current update : A) : Prop where
  timestamp : (after.states current).timestamp = (memory.states update).timestamp
  wellFormed : WellFormed after.heap (after.states current).history
  copied : contentsAt after.heap (after.states current).history =
    contentsAt memory.heap (memory.states update).history
  compares : compareStates after current update = some true
  follows : ∀ log final, changesOf current log = changesOf update log →
    Runs.run step after log = some final →
    contentsAt final.heap (final.states current).history =
      contentsAt final.heap (final.states update).history
  defined : (∀ a, 0 < (memory.states a).history.maxSampleSize) →
    ∀ log, ∃ final, Runs.run step after log = some final

section Outcome
variable {memory after : Memory A K} {place place' : A → Nat} {values : A → State K}
variable {current update : A}

theorem replaced_of_stands (stands : Stands memory place values)
    (later : Stands after place' (Function.update values current
      (DetectorStates.updateState (values current) (values update))))
    (distinct : current ≠ update) : Replaced memory after current update := by
  have sources : Function.update values current
      (DetectorStates.updateState (values current) (values update)) update = values update :=
    Function.update_of_ne (Ne.symm distinct) _ _
  have copies : DetectorStates.view (Function.update values current
      (DetectorStates.updateState (values current) (values update)) current) =
      DetectorStates.view (values update) := by
    rw [Function.update_self, DetectorStates.view_update]
  obtain ⟨histories, timestamps⟩ := DetectorStates.View.mk.inj copies
  constructor
  · rw [later.states current, stands.states update]
    exact timestamps
  · exact (stands_valid later).histories current
  · rw [contents_of_stands later, contents_of_stands stands, histories]
  · rw [compare_refines later, sources, DetectorStates.compareStates_iff.mpr (Or.inr copies)]
  · intro log final changes run
    exact contents_after later run (histories.trans (by rw [sources])) changes
  · intro slots log
    apply run_defined log later
    intro a
    have slot : ∀ b, 0 < (values b).history.maxSampleSize := by
      intro b
      have positive := slots b
      rwa [stands.states b] at positive
    by_cases own : a = current
    · rw [own, (contents_eq_iff.mp histories).1]
      exact slot update
    · rw [Function.update_of_ne own]
      exact slot a

end Outcome

/-- Either the whole state is replaced or nothing is touched. -/
theorem compare_and_set_all_or_nothing (tracked : Finset Nat) (memory : Memory A K) (current expect update : A)
    (valid : Valid memory) (distinct : current ≠ update) : ∃ result after,
      compareAndSet tracked memory current expect update = some (result, after) ∧ Valid after ∧
      (result = true → Replaced memory after current update) ∧
      (result = false → Unchanged memory after current) ∧
      (expect ≠ current → Unchanged memory after expect) ∧ Unchanged memory after update := by
  obtain ⟨place, values, stands⟩ := exists_values valid
  obtain ⟨after, place', set, later, kept, untouched⟩ :=
    compare_and_set_refines stands distinct expect
  have others : ∀ a, a ≠ current → Unchanged memory after a := by
    intro a other
    apply unchanged_of_stands stands later (kept a other)
    exact DetectorStates.compareAndSet_other values expect update other
  refine ⟨_, after, set, stands_valid later, ?_, ?_, others expect, others update (Ne.symm distinct)⟩
  · intro done
    rw [DetectorStates.compareAndSet_true done] at later
    exact replaced_of_stands stands later distinct
  · intro refused
    rw [untouched refused]
    exact ⟨rfl, rfl⟩

def threeStates : Memory (Fin 3) ℚ where
  heap := allocate (allocate (allocate noBlocks [4, 0]) [4, 9]) [2, 3, 0]
  states := ![⟨⟨2, some 0, 1, 4, 16⟩, 1000⟩, ⟨⟨2, some 1, 1, 4, 16⟩, 1000⟩,
    ⟨⟨3, some 2, 2, 5, 13⟩, 2000⟩]

theorem threeStates_valid : Valid threeStates := by
  constructor
  · intro a
    fin_cases a
    · exact ⟨⟨[4, 0], rfl, rfl⟩, by decide⟩
    · exact ⟨⟨[4, 9], rfl, rfl⟩, by decide⟩
    · exact ⟨⟨[2, 3, 0], rfl, rfl⟩, by decide⟩
  · intro a b
    fin_cases a <;> fin_cases b <;> simp [threeStates]

theorem compare_and_set_three : ∃ result after,
    compareAndSet {0, 1, 2} threeStates 0 1 2 = some (result, after) ∧ Valid after ∧
    (result = true → Replaced threeStates after 0 2) ∧
    (result = false → Unchanged threeStates after 0) ∧
    (1 ≠ (0 : Fin 3) → Unchanged threeStates after 1) ∧ Unchanged threeStates after 2 :=
  compare_and_set_all_or_nothing {0, 1, 2} threeStates 0 1 2 threeStates_valid (by decide)

example : (compareAndSet {0, 1, 2} threeStates 0 1 2).map Prod.fst = some true := by decide

end RealMQ.StateMemory
