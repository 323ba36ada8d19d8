import RealMQ.Foundation.Slots

/- A heap of blocks of cells, and pointers to their first cells. Every allocation makes a block
   of its own, also where an allocator gives freed memory out again, so a pointer to a freed
   block stays dangling. Reading, writing and freeing through anything but a pointer to a live
   block has no result. -/
namespace RealMQ.Heaps
open Slots
variable {α : Type*}

structure Heap (α : Type*) where
  block : Nat → Option (List α)
  next : Nat
  unused : ∀ p, next ≤ p → block p = none

def noBlocks : Heap α := ⟨fun _ => none, 0, fun _ _ => rfl⟩

abbrev Pointer := Option Nat

def cells (heap : Heap α) (pointer : Pointer) : Option (List α) := pointer.bind heap.block

/-- The new block is the one that was next. -/
def allocate (heap : Heap α) (content : List α) : Heap α where
  block := Function.update heap.block heap.next (some content)
  next := heap.next + 1
  unused := by
    intro p beyond
    rw [Function.update_of_ne (by omega)]
    exact heap.unused p (by omega)

def alter (heap : Heap α) (p : Nat) (content : Option (List α)) : Heap α where
  block := Function.update heap.block p ((heap.block p).bind fun _ => content)
  next := heap.next
  unused := by
    intro q beyond
    by_cases same : q = p
    · subst same
      rw [Function.update_self, heap.unused q beyond]
      rfl
    · rw [Function.update_of_ne same]
      exact heap.unused q beyond

def free (heap : Heap α) : Pointer → Option (Heap α)
  | none => some heap
  | some p => (heap.block p).map fun _ => alter heap p none

def load (heap : Heap α) (pointer : Pointer) (i : Nat) : Option α :=
  (cells heap pointer).bind fun content => content[i]?

def store (heap : Heap α) (pointer : Pointer) (i : Nat) (x : α) : Option (Heap α) :=
  pointer.bind fun p => (heap.block p).bind fun content =>
    if i < content.length then some (alter heap p (some (content.set i x))) else none

def forLoop {S : Type*} (body : Nat → S → Option S) : Nat → S → Option S
  | 0, s => some s
  | n + 1, s => (forLoop body n s).bind (body n)

def transfer (f : α → α) (target source : Pointer) (n : Nat) (heap : Heap α) : Option (Heap α) :=
  forLoop (fun i heap => (load heap source i).bind fun x => store heap target i (f x)) n heap

def moveDown (target : Pointer) (n : Nat) (heap : Heap α) : Option (Heap α) :=
  forLoop (fun i heap => (load heap target (i + 1)).bind fun x => store heap target i x) n heap

/-- Whether the first n cells agree; nothing is read after a difference. -/
def sameCells [DecidableEq α] (heap : Heap α) (first second : Pointer) (n : Nat) : Option Bool :=
  forLoop (fun i same =>
    if same then (load heap first i).bind fun x => (load heap second i).map fun y => decide (x = y)
    else some false) n true

section Blocks
variable {heap : Heap α} {p q : Nat} {content : List α}

theorem heap_ext {first second : Heap α} (blocks : ∀ q, first.block q = second.block q)
    (next : first.next = second.next) : first = second := by
  cases first
  cases second
  simp only at blocks next
  obtain rfl := funext blocks
  subst next
  rfl

theorem live_lt (live : heap.block p = some content) : p < heap.next := by
  by_contra beyond
  rw [heap.unused p (by omega)] at live
  cases live

theorem block_alter_self (live : heap.block p = some content) (new : Option (List α)) :
    (alter heap p new).block p = new := by
  simp only [alter, Function.update_self, live, Option.bind_some]

theorem block_alter_other (other : q ≠ p) (new : Option (List α)) :
    (alter heap p new).block q = heap.block q :=
  Function.update_of_ne other _ _

theorem block_allocate_self : (allocate heap content).block heap.next = some content :=
  Function.update_self ..

theorem block_allocate_other (other : q ≠ heap.next) :
    (allocate heap content).block q = heap.block q :=
  Function.update_of_ne other _ _

theorem block_allocate_freed (live : heap.block p = some content) (new : List α) :
    (allocate (alter heap p none) new).block p = none := by
  have old : p ≠ (alter heap p none).next := by
    show p ≠ heap.next
    exact Nat.ne_of_lt (live_lt live)
  rw [block_allocate_other old, block_alter_self live]

theorem alter_live (live : heap.block p = some content) : alter heap p (some content) = heap := by
  apply heap_ext
  · intro q
    by_cases same : q = p
    · rw [same, block_alter_self live, live]
    · rw [block_alter_other same]
  · rfl

theorem alter_alter (live : heap.block p = some content) (middle : List α)
    (new : Option (List α)) : alter (alter heap p (some middle)) p new = alter heap p new := by
  apply heap_ext
  · intro q
    by_cases same : q = p
    · rw [same, block_alter_self (block_alter_self live _), block_alter_self live]
    · rw [block_alter_other same, block_alter_other same, block_alter_other same]
  · rfl

theorem alter_allocate (heap : Heap α) (content new : List α) :
    alter (allocate heap content) heap.next (some new) = allocate heap new := by
  apply heap_ext
  · intro q
    by_cases same : q = heap.next
    · rw [same, block_alter_self block_allocate_self, block_allocate_self]
    · rw [block_alter_other same, block_allocate_other same, block_allocate_other same]
  · rfl

theorem free_live (live : heap.block p = some content) :
    free heap (some p) = some (alter heap p none) := by
  unfold free
  dsimp only
  rw [live, Option.map_some]

theorem cells_some {pointer : Pointer} (holds : cells heap pointer = some content) :
    ∃ p, pointer = some p ∧ heap.block p = some content :=
  Option.bind_eq_some_iff.mp holds

end Blocks

section Loops
variable {S : Type*} {body : Nat → S → Option S} {n : Nat}

theorem forLoop_path (path : Nat → S) (step : ∀ i, i < n → body i (path i) = some (path (i + 1))) :
    forLoop body n (path 0) = some (path n) := by
  induction n with
  | zero => rfl
  | succ n ih =>
    have before := ih fun i bound => step i (by omega)
    rw [forLoop, before, Option.bind_some]
    exact step n (by omega)

end Loops

section Windows
variable {heap : Heap α} {p q size n i : Nat} {content : List α} {mem source : Nat → α} {f : α → α}

theorem load_window {pointer : Pointer} (holds : cells heap pointer = some (window mem size))
    (bound : i < size) : load heap pointer i = some (mem i) := by
  unfold load
  rw [holds, Option.bind_some, window_getElem? mem size i bound]

theorem load_altered (live : heap.block p = some content) (bound : i < size) :
    load (alter heap p (some (window mem size))) (some p) i = some (mem i) :=
  load_window (block_alter_self live _) bound

theorem store_altered (live : heap.block p = some content) (x : α) (bound : i < size) :
    store (alter heap p (some (window mem size))) (some p) i x =
      some (alter heap p (some (window (Function.update mem i x) size))) := by
  unfold store
  rw [Option.bind_some, block_alter_self live, Option.bind_some, window_length, if_pos bound,
    window_set, alter_alter live]

theorem store_outside {x : α} (holds : heap.block p = some (window mem size)) (outside : size ≤ i) :
    store heap (some p) i x = none := by
  unfold store
  rw [Option.bind_some, holds, Option.bind_some, window_length, if_neg (by omega)]

theorem forLoop_block {body : Nat → Heap α → Option (Heap α)} (path : Nat → Nat → α)
    (holds : heap.block p = some (window (path 0) size))
    (step : ∀ i, i < n → body i (alter heap p (some (window (path i) size))) =
      some (alter heap p (some (window (path (i + 1)) size)))) :
    forLoop body n heap = some (alter heap p (some (window (path n) size))) := by
  have run := forLoop_path (fun i => alter heap p (some (window (path i) size))) step
  rwa [alter_live holds] at run

theorem transfer_within (holds : heap.block p = some (window mem size)) (bound : n ≤ size) :
    transfer f (some p) (some p) n heap =
      some (alter heap p (some (window (overwrite mem (fun i => f (mem i)) n) size))) := by
  apply forLoop_block (overwrite mem fun i => f (mem i)) holds
  intro i early
  have kept : overwrite mem (fun i => f (mem i)) i i = mem i := if_neg (lt_irrefl i)
  rw [load_altered holds (by omega), Option.bind_some, kept, store_altered holds _ (by omega),
    overwrite_succ]

theorem transfer_between (holds : heap.block p = some (window mem size)) (different : q ≠ p)
    {room : Nat} (reads : heap.block q = some (window source room)) (bound : n ≤ size)
    (enough : n ≤ room) : transfer f (some p) (some q) n heap =
      some (alter heap p (some (window (overwrite mem (fun i => f (source i)) n) size))) := by
  apply forLoop_block (overwrite mem fun i => f (source i)) holds
  intro i early
  have still : cells (alter heap p (some (window (overwrite mem (fun i => f (source i)) i) size)))
      (some q) = some (window source room) := (block_alter_other different _).trans reads
  rw [load_window still (by omega), Option.bind_some, store_altered holds _ (by omega),
    overwrite_succ]

theorem transfer_dead {target pointer : Pointer} {after : Heap α}
    (dead : cells heap target = none ∨ cells heap pointer = none)
    (moved : transfer f target pointer n heap = some after) : after = heap := by
  induction n generalizing after with
  | zero => exact (Option.some.inj moved).symm
  | succ n ih =>
    obtain ⟨before, earlier, last⟩ := Option.bind_eq_some_iff.mp moved
    obtain rfl := ih earlier
    obtain ⟨x, loaded, stored⟩ := Option.bind_eq_some_iff.mp last
    rcases dead with none | none
    · obtain ⟨p, rfl, written⟩ := Option.bind_eq_some_iff.mp stored
      obtain ⟨content, live, -⟩ := Option.bind_eq_some_iff.mp written
      exact absurd (none.symm.trans live) (by simp)
    · unfold load at loaded
      rw [none] at loaded
      cases loaded

theorem moveDown_window (holds : heap.block p = some (window mem size)) (bound : n < size) :
    moveDown (some p) n heap = some (alter heap p (some (window (shiftDown mem 0 n) size))) := by
  apply forLoop_block (shiftDown mem 0) holds
  intro i early
  rw [load_altered holds (by omega), Option.bind_some, store_altered holds _ (by omega)]
  simp only [shiftDown, Nat.zero_add]

theorem sameCells_window [DecidableEq α] {first second : Pointer} {room : Nat}
    (left : cells heap first = some (window mem size))
    (right : cells heap second = some (window source room)) (bound : n ≤ size) (enough : n ≤ room) :
    sameCells heap first second n = some (decide (window mem n = window source n)) := by
  apply forLoop_path fun i => decide (window mem i = window source i)
  intro i early
  rw [load_window left (by omega), load_window right (by omega)]
  simp only [Option.bind_some, Option.map_some, window_succ]
  by_cases same : window mem i = window source i
  · simp [same]
  · have longer : window mem i ++ [mem i] ≠ window source i ++ [source i] := by
      intro eq
      exact same (List.append_inj_left eq (by simp))
    simp [same, longer]

end Windows

end RealMQ.Heaps
