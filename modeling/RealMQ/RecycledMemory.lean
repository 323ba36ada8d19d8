import RealMQ.StateMemory

/- What state_init makes of the heartbeat_history_t that malloc returns, whatever it holds. -/
namespace RealMQ.RecycledMemory
open HeartbeatHistories HistoryUpdates HistoryHeap StateMemory Heaps
variable {K : Type*}

/-- The new state has a copy of the history, in a buffer that it alone has. -/
structure DeepCopy (heap : Heap K) (history : HistoryObject K) (timestamp : Int) (after : Heap K)
    (state : StateObject K) : Prop where
  timestamp : state.timestamp = timestamp
  wellFormed : WellFormed after state.history
  copied : contentsAt after state.history = contentsAt heap history
  own : cells heap state.history.intervals = none
  unchanged : cells after history.intervals = cells heap history.intervals

/-- What test_free would free of the leftover is a live buffer, and not the one of the history. -/
def Apart (tracked : Finset Nat) (heap : Heap K) (history recycled : HistoryObject K) : Prop :=
  ∀ p ∈ tracked, recycled.intervals = some p →
    history.intervals ≠ some p ∧ ∃ content, heap.block p = some content

def Harmless (tracked : Finset Nat) (heap : Heap K) (history recycled : HistoryObject K) : Prop :=
  recycled.intervals = none ∨
    recycled.maxSampleSize ≠ history.maxSampleSize ∧ Apart tracked heap history recycled

variable [Field K] [LinearOrder K]

def SameCopies (tracked : Finset Nat) (heap : Heap K) (history : HistoryObject K) (timestamp : Int)
    (recycled recycled' : HistoryObject K) : Prop :=
  ∃ after after' state,
    stateInit tracked heap recycled (some history) timestamp = some (after, state) ∧
    stateInit tracked heap recycled' (some history) timestamp = some (after', state) ∧
    cells after state.history.intervals = cells after' state.history.intervals ∧
    DeepCopy heap history timestamp after state ∧ DeepCopy heap history timestamp after' state

section Copies
variable {tracked : Finset Nat} {heap freed : Heap K} {recycled : HistoryObject K} {q : Nat}
variable {history : HeartbeatHistory K} {timestamp : Int}

theorem init_fresh (replaced : recycled.maxSampleSize ≠ history.maxSampleSize ∨
      recycled.intervals = none)
    (free : testFree tracked heap recycled.intervals = some freed)
    (live : freed.block q = some (bufferOf history))
    (bounded : history.intervalCount ≤ history.maxSampleSize) (timestamp : Int) :
    stateInit tracked heap recycled (some (objectAt q history)) timestamp =
      some (allocate freed (bufferOf (freshCopy history)),
        ⟨objectAt freed.next (freshCopy history), timestamp⟩) := by
  unfold stateInit
  dsimp only
  rw [update_fresh replaced free live bounded, Option.map_some]

omit [LinearOrder K] in
theorem contents_freshCopy (history : HeartbeatHistory K) :
    contents (freshCopy history) = contents history := by
  rw [contents_eq_iff]
  exact ⟨rfl, Slots.window_overwrite _ _ _, rfl, rfl⟩

omit [Field K] [LinearOrder K] in
theorem harmless_frees (live : heap.block q = some (bufferOf history))
    (harmless : Harmless tracked heap (objectAt q history) recycled) :
    (recycled.maxSampleSize ≠ history.maxSampleSize ∨ recycled.intervals = none) ∧
      ∃ freed, testFree tracked heap recycled.intervals = some freed ∧ freed.next = heap.next ∧
        freed.block q = some (bufferOf history) := by
  rcases harmless with null | ⟨sizes, apart⟩
  · rw [null]
    exact ⟨Or.inr rfl, heap, rfl, rfl, live⟩
  · refine ⟨Or.inl sizes, ?_⟩
    cases pointer : recycled.intervals with
    | none => exact ⟨heap, rfl, rfl, live⟩
    | some p =>
      by_cases member : p ∈ tracked
      · obtain ⟨different, content, there⟩ := apart p member pointer
        have other : q ≠ p := fun same => different (congrArg some same)
        obtain ⟨freed, free, next, kept⟩ := @testFree_live _ tracked _ _ _ there
        exact ⟨freed, free, next, (kept q other).trans live⟩
      · exact ⟨heap, if_neg member, rfl, live⟩

omit [LinearOrder K] in
theorem fresh_deep_copy (live : heap.block q = some (bufferOf history))
    (live' : freed.block q = some (bufferOf history)) (next : freed.next = heap.next)
    (bounded : history.intervalCount ≤ history.maxSampleSize) :
    DeepCopy heap (objectAt q history) timestamp (allocate freed (bufferOf (freshCopy history)))
      ⟨objectAt freed.next (freshCopy history), timestamp⟩ := by
  have here : (allocate freed (bufferOf (freshCopy history))).block freed.next =
    some (bufferOf (freshCopy history)) := block_allocate_self
  constructor
  · rfl
  · exact wellFormed_in_memory here bounded
  · rw [contents_in_memory here bounded, contents_in_memory live bounded, contents_freshCopy]
  · exact heap.unused freed.next next.ge
  · exact (block_allocate_other (Nat.ne_of_lt (live_lt live'))).trans (live'.trans live.symm)

theorem init_harmless (live : heap.block q = some (bufferOf history))
    (bounded : history.intervalCount ≤ history.maxSampleSize)
    (harmless : Harmless tracked heap (objectAt q history) recycled) (timestamp : Int) : ∃ after,
      stateInit tracked heap recycled (some (objectAt q history)) timestamp =
        some (after, ⟨objectAt heap.next (freshCopy history), timestamp⟩) ∧
      cells after (some heap.next) = some (bufferOf (freshCopy history)) ∧
      DeepCopy heap (objectAt q history) timestamp after
        ⟨objectAt heap.next (freshCopy history), timestamp⟩ := by
  obtain ⟨replaced, freed, free, next, live'⟩ := harmless_frees live harmless
  rw [← next]
  exact ⟨_, init_fresh replaced free live' bounded timestamp, block_allocate_self,
    fresh_deep_copy live live' next bounded⟩

theorem harmless_of_copy {after : Heap K} {state : StateObject K}
    (live : heap.block q = some (bufferOf history))
    (init : stateInit tracked heap recycled (some (objectAt q history)) timestamp = some (after, state))
    (copy : DeepCopy heap (objectAt q history) timestamp after state) :
    Harmless tracked heap (objectAt q history) recycled := by
  obtain ⟨placed, updated, same⟩ := Option.map_eq_some_iff.mp init
  obtain ⟨rfl, rfl⟩ := Prod.mk.inj same
  obtain ⟨resized, taken, moved⟩ := Option.bind_eq_some_iff.mp updated
  obtain ⟨after, copied, rfl⟩ := Option.map_eq_some_iff.mp moved
  rcases resize_cases taken with ⟨-, -, rfl⟩ | ⟨replaced, freed, free, rfl⟩
  · obtain rfl := transfer_dead (Or.inl copy.own) copied
    obtain ⟨content, buffer, -⟩ := copy.wellFormed.buffer
    exact absurd (copy.own.symm.trans buffer) (by simp)
  · by_cases null : recycled.intervals = none
    · exact Or.inl null
    · refine Or.inr ⟨replaced.resolve_right null, ?_⟩
      intro p member pointer
      rw [pointer, testFree, if_pos member] at free
      obtain ⟨content, there, rfl⟩ := Option.map_eq_some_iff.mp free
      refine ⟨?_, content, there⟩
      intro same
      obtain rfl : q = p := Option.some.inj same
      have dead : cells (allocate (alter heap q none) (List.replicate history.maxSampleSize 0))
          (some q) = none := block_allocate_freed there _
      obtain rfl := transfer_dead (Or.inr dead) copied
      exact absurd (dead.symm.trans (copy.unchanged.trans live)) (by simp)

end Copies

/-- state_init copies the history in the same way for two leftovers exactly when both are
    harmless. -/
theorem state_init_copies_iff (tracked : Finset Nat) (heap : Heap K) (history : HistoryObject K)
    (valid : WellFormed heap history) (timestamp : Int) (recycled recycled' : HistoryObject K) :
    SameCopies tracked heap history timestamp recycled recycled' ↔
      Harmless tracked heap history recycled ∧ Harmless tracked heap history recycled' := by
  obtain ⟨q, value, rfl, live, bounded⟩ := exists_value valid
  constructor
  · rintro ⟨after, after', state, init, init', -, copy, copy'⟩
    exact ⟨harmless_of_copy live init copy, harmless_of_copy live init' copy'⟩
  · rintro ⟨harmless, harmless'⟩
    obtain ⟨after, init, buffer, copy⟩ := init_harmless live bounded harmless timestamp
    obtain ⟨after', init', buffer', copy'⟩ := init_harmless live bounded harmless' timestamp
    exact ⟨after, after', _, init, init', buffer.trans buffer'.symm, copy, copy'⟩

def emptyHistory : HistoryObject ℚ := ⟨5, some 0, 0, 0, 0⟩

def usedHeap : Heap ℚ := alter (allocate (allocate noBlocks [0, 0, 0, 0, 0]) [0, 0, 0, 0, 0]) 1 none

theorem emptyHistory_wellFormed : WellFormed usedHeap emptyHistory :=
  ⟨⟨[0, 0, 0, 0, 0], rfl, rfl⟩, by decide⟩

theorem state_init_copies_unused :
    SameCopies {0} usedHeap emptyHistory 1000 ⟨0, none, 0, 0, 0⟩ ⟨1, some 1, 0, 0, 0⟩ ↔
      Harmless {0} usedHeap emptyHistory ⟨0, none, 0, 0, 0⟩ ∧
        Harmless {0} usedHeap emptyHistory ⟨1, some 1, 0, 0, 0⟩ :=
  state_init_copies_iff {0} usedHeap emptyHistory emptyHistory_wellFormed 1000 _ _

/-- The leftover of a history of five slots whose buffer was freed: the new state keeps it. -/
theorem leftover_is_kept :
    ¬ ∀ (tracked : Finset Nat) (heap : Heap ℚ) (history : HistoryObject ℚ) (timestamp : Int)
      (recycled recycled' : HistoryObject ℚ), WellFormed heap history →
      SameCopies tracked heap history timestamp recycled recycled' := by
  intro always
  obtain ⟨_, _, state, init, init', -⟩ := always {0} usedHeap emptyHistory 1000 ⟨0, none, 0, 0, 0⟩
    ⟨5, some 1, 0, 0, 0⟩ emptyHistory_wellFormed
  have fresh : (stateInit {0} usedHeap ⟨0, none, 0, 0, 0⟩ (some emptyHistory) 1000).map
      (fun made => made.2.history.intervals) = some (some 2) := by decide
  have kept : (stateInit {0} usedHeap ⟨5, some 1, 0, 0, 0⟩ (some emptyHistory) 1000).map
      (fun made => made.2.history.intervals) = some (some 1) := by decide
  rw [init, Option.map_some, Option.some.injEq] at fresh
  rw [init', Option.map_some, Option.some.injEq] at kept
  exact absurd (fresh.symm.trans kept) (by decide)

/-- No buffer that was there is freed or written. -/
def Spares (heap after : Heap K) : Prop :=
  ∀ p content, heap.block p = some content → after.block p = some content

def Ignored (tracked : Finset Nat) (maxSampleSize : Nat) (recycled : HistoryObject K) : Prop :=
  recycled.maxSampleSize ≠ maxSampleSize ∧ ∀ p, recycled.intervals = some p → p ∉ tracked

/-- There is one copy that spares all other buffers, and state_init makes it exactly where the
    leftover has no buffer, or one that the size sends to test_free and that is not in its list. -/
theorem state_init_tracked (tracked : Finset Nat) (heap : Heap K) (history : HistoryObject K)
    (valid : WellFormed heap history) (timestamp : Int) : ∃ after state,
    DeepCopy heap history timestamp after state ∧ Spares heap after ∧
      ∀ recycled, stateInit tracked heap recycled (some history) timestamp = some (after, state) ↔
        recycled.intervals = none ∨ Ignored tracked history.maxSampleSize recycled := by
  obtain ⟨q, value, rfl, live, bounded⟩ := exists_value valid
  have copy : DeepCopy heap (objectAt q value) timestamp (allocate heap (bufferOf (freshCopy value)))
      ⟨objectAt heap.next (freshCopy value), timestamp⟩ := fresh_deep_copy live live rfl bounded
  have spares : Spares heap (allocate heap (bufferOf (freshCopy value))) := by
    intro p content old
    rw [block_allocate_other (Nat.ne_of_lt (live_lt old)), old]
  refine ⟨_, _, copy, spares, ?_⟩
  intro recycled
  constructor
  · intro init
    refine (harmless_of_copy live init copy).imp_right ?_
    rintro ⟨sizes, apart⟩
    refine ⟨sizes, ?_⟩
    intro p pointer member
    obtain ⟨different, content, there⟩ := apart p member pointer
    have other : q ≠ p := fun same => different (congrArg some same)
    have free : testFree tracked heap recycled.intervals = some (alter heap p none) := by
      rw [pointer, testFree, if_pos member, free_live there]
    have fresh := init_fresh (Or.inl sizes) free ((block_alter_other other none).trans live) bounded
      timestamp
    obtain ⟨same, -⟩ := Prod.mk.inj (Option.some.inj (fresh.symm.trans init))
    have kept := spares p content there
    rw [← same, block_allocate_freed there] at kept
    cases kept
  · rintro (null | ⟨sizes, ignored⟩)
    · exact init_fresh (Or.inr null) (by rw [null]; rfl) live bounded timestamp
    · have free : testFree tracked heap recycled.intervals = some heap := by
        cases pointer : recycled.intervals with
        | none => rfl
        | some p => exact if_neg (ignored p pointer)
      exact init_fresh (Or.inl sizes) free live bounded timestamp

theorem state_init_tracked_freed : ∃ after state,
    DeepCopy usedHeap emptyHistory 1000 after state ∧ Spares usedHeap after ∧
      ∀ recycled, stateInit {0} usedHeap recycled (some emptyHistory) 1000 = some (after, state) ↔
        recycled.intervals = none ∨ Ignored {0} 5 recycled :=
  state_init_tracked {0} usedHeap emptyHistory emptyHistory_wellFormed 1000

end RealMQ.RecycledMemory
