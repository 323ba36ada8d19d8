import RealMQ.ElementRemoval

/- A dynamic array against the list it stands for, over whole sequences of calls that start
   with init_dynamic_array at any capacity. -/
namespace RealMQ.ListRefinement
open DynamicArrays ElementRemoval Slots
variable {α : Type} [Element α]

inductive Operation (α : Type) where
  | add (element : α)
  | remove (msgId : UInt64) (useInterpolationSearch removeElement : Bool)
  | clean

def perform (array : DynamicArray α) : Operation α → DynamicArray α
  | .add element => addToDynamicArray array element
  | .remove msgId search removal => (removeElementById array msgId search removal).2
  | .clean => (cleanAllElements array).2

/-- What the call means for a list: append, erase at the index the call returns, empty. -/
def describe (array : DynamicArray α) (list : List α) : Operation α → List α
  | .add element => list ++ [element]
  | .remove msgId search removal =>
      match (removeElementById array msgId search removal).1 with
      | some index => if removal then list.eraseIdx index else list
      | none => list
  | .clean => []

def stepBoth (pair : DynamicArray α × List α) (op : Operation α) : DynamicArray α × List α :=
  (perform pair.1 op, describe pair.1 pair.2 op)

def runBoth (capacity : Nat) (ops : List (Operation α)) : DynamicArray α × List α :=
  ops.foldl stepBoth (initDynamicArray α capacity, [])

def Represents (pair : DynamicArray α × List α) : Prop :=
  pair.1.size ≤ pair.1.capacity ∧ pair.1.overrun = false ∧ toList pair.1 = pair.2

/-- The ids held after a sequence of calls, from the calls alone. -/
def holdStep (held : List UInt64) : Operation α → List UInt64
  | .add element => held ++ [Element.msgId element]
  | .remove msgId _ true => held.erase msgId
  | .remove _ _ false => held
  | .clean => []

def heldIds (ops : List (Operation α)) : List UInt64 := ops.foldl holdStep []

theorem perform_toList (array : DynamicArray α) (op : Operation α) :
    toList (perform array op) = describe array (toList array) op := by
  cases op with
  | add element => exact toList_add array element
  | clean => rfl
  | remove msgId search removal =>
    rcases remove_cases array msgId search removal with
      ⟨_, eq⟩ | ⟨i, array', _, _, eq, _, _, list⟩
    · simp [perform, describe, eq]
    · simp [perform, describe, eq, list]

theorem perform_held {array : DynamicArray α} {held : List UInt64}
    (same : (ids array).Perm held) (op : Operation α) :
    (ids (perform array op)).Perm (holdStep held op) := by
  cases op with
  | add element => simpa [perform, holdStep] using same.append_right _
  | clean => exact List.Perm.refl []
  | remove msgId search removal =>
    cases removal with
    | true => exact (remove_ids_perm array msgId search).trans (same.erase msgId)
    | false =>
      rcases remove_cases array msgId search false with
        ⟨_, eq⟩ | ⟨i, array', _, _, eq, _, _, list⟩
      · simpa [perform, holdStep, eq] using same
      · have unchanged : toList array' = toList array := by simpa using list
        simpa [perform, holdStep, eq, ids, unchanged] using same

theorem runBoth_snoc (capacity : Nat) (ops : List (Operation α)) (op : Operation α) :
    runBoth capacity (ops ++ [op]) = stepBoth (runBoth capacity ops) op := by
  simp [runBoth]

theorem heldIds_snoc (ops : List (Operation α)) (op : Operation α) :
    heldIds (ops ++ [op]) = holdStep (heldIds ops) op := by
  simp [heldIds]

theorem run_represents_list (capacity : Nat) (ops : List (Operation α)) :
    toList (runBoth capacity ops).1 = (runBoth capacity ops).2 := by
  induction ops using List.reverseRecOn with
  | nil => rfl
  | append_singleton ops op ih =>
    rw [runBoth_snoc, stepBoth, perform_toList, ih]

theorem run_size (capacity : Nat) (ops : List (Operation α)) :
    (runBoth capacity ops).1.size = (heldIds ops).length := by
  have same : (ids (runBoth capacity ops).1).Perm (heldIds ops) := by
    induction ops using List.reverseRecOn with
    | nil => exact List.Perm.refl []
    | append_singleton ops op ih =>
      rw [runBoth_snoc, heldIds_snoc]
      exact perform_held ih op
  rw [← ids_length]
  exact same.length_eq

theorem wellFormed_perform {array : DynamicArray α} (valid : WellFormed array)
    (op : Operation α) : WellFormed (perform array op) := by
  cases op with
  | add element => exact wellFormed_add element valid
  | remove msgId search removal => exact wellFormed_remove msgId search removal valid
  | clean => exact wellFormed_clean valid

theorem wellFormed_run {capacity : Nat} (growable : 2 ≤ capacity) (ops : List (Operation α)) :
    WellFormed (runBoth capacity ops).1 := by
  induction ops using List.reverseRecOn with
  | nil => exact wellFormed_init growable
  | append_singleton ops op ih =>
    rw [runBoth_snoc]
    exact wellFormed_perform ih op

theorem perform_capacity (array : DynamicArray α) (op : Operation α)
    (stuck : array.capacity < 2) : (perform array op).capacity = array.capacity := by
  cases op with
  | add element =>
    rw [perform, capacity_add]
    split <;> omega
  | remove msgId search removal =>
    rcases remove_cases array msgId search removal with
      ⟨_, eq⟩ | ⟨i, array', _, _, eq, capacity, _⟩
    · rw [perform, eq]
    · rw [perform, eq, capacity]
  | clean => rfl

/-- Half of 0 and half of 1 are 0, so an array that starts that small never grows. -/
theorem run_capacity_stuck {capacity : Nat} (stuck : capacity < 2) (ops : List (Operation α)) :
    (runBoth capacity ops).1.capacity = capacity := by
  induction ops using List.reverseRecOn with
  | nil => rfl
  | append_singleton ops op ih =>
    rw [runBoth_snoc, stepBoth, perform_capacity _ op (by omega), ih]

theorem perform_inside {array : DynamicArray α} (op : Operation α)
    (inside : array.overrun = false) (before : array.size ≤ array.capacity)
    (after : (perform array op).size ≤ (perform array op).capacity) :
    (perform array op).overrun = false := by
  cases op with
  | add element =>
    simp only [perform, size_add] at after ⊢
    rw [overrun_add, inside, Bool.false_or]
    exact decide_eq_false (by omega)
  | remove msgId search removal =>
    rcases remove_cases array msgId search removal with
      ⟨_, eq⟩ | ⟨i, array', _, _, eq, _, overrun, _⟩
    · rw [perform, eq]; exact inside
    · rw [perform, eq, overrun before]; exact inside
  | clean => exact inside

theorem run_inside {capacity : Nat} (ops : List (Operation α))
    (bounded : ∀ k, (runBoth capacity (ops.take k)).1.size ≤
      (runBoth capacity (ops.take k)).1.capacity) (k : Nat) :
    (runBoth capacity (ops.take k)).1.overrun = false := by
  induction k with
  | zero => simp [runBoth, initDynamicArray]
  | succ k ih =>
    by_cases more : k < ops.length
    · have now := bounded (k + 1)
      rw [List.take_succ_eq_append_getElem more, runBoth_snoc] at now ⊢
      exact perform_inside _ ih (bounded k) now
    · rw [List.take_of_length_le (by omega)]
      rwa [List.take_of_length_le (by omega)] at ih

theorem represents_growable {capacity : Nat} (growable : 2 ≤ capacity) (ops : List (Operation α)) :
    Represents (runBoth capacity ops) := by
  have valid := wellFormed_run growable ops
  exact ⟨valid.bounded, valid.inside, run_represents_list capacity ops⟩

theorem represents_stuck_iff {capacity : Nat} (stuck : capacity < 2) (ops : List (Operation α)) :
    (∀ k, Represents (runBoth capacity (ops.take k))) ↔
      ∀ k, (heldIds (ops.take k)).length ≤ capacity := by
  have sizes : ∀ k, (runBoth capacity (ops.take k)).1.size ≤
      (runBoth capacity (ops.take k)).1.capacity ↔ (heldIds (ops.take k)).length ≤ capacity := by
    intro k
    rw [run_size, run_capacity_stuck stuck]
  constructor
  · intro represents k
    exact (sizes k).mp (represents k).1
  · intro few k
    have bounded := fun n => (sizes n).mpr (few n)
    exact ⟨bounded k, run_inside ops bounded k, run_represents_list capacity _⟩

end RealMQ.ListRefinement
