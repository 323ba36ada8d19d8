import RealMQ.CStrings
import RealMQ.Foundation.Slots

/- common/qos/dynamic_array.c: the growable array of message pointers. Allocation succeeds,
   sizes stay below 2^64. The slots are a memory that a write can leave; overrun is not a
   field of the source, it records that a write did. -/
namespace RealMQ.DynamicArrays
open CStrings Slots

/-- content is none for the NULL pointer that unmarshal_message may leave there. -/
structure Message where
  id : UInt64
  content : Option CString
  timestamp : Int64
  deriving DecidableEq, Inhabited

/-- element_size distinguishes uint64_t from Message; either one starts with its id. -/
class Element (α : Type) extends Inhabited α where
  msgId : α → UInt64

instance : Element UInt64 := ⟨id⟩
instance : Element Message := ⟨Message.id⟩

structure DynamicArray (α : Type) where
  data : Nat → α
  size : Nat
  capacity : Nat
  overrun : Bool

variable {α : Type}

def initDynamicArray (α : Type) [Element α] (initialCapacity : Nat) : DynamicArray α :=
  { data := fun _ => default, size := 0, capacity := initialCapacity, overrun := false }

/-- From capacity 0 the realloc is one to size 0: glibc returns NULL and the process exits. -/
def resizeDynamicArray (array : DynamicArray α) : DynamicArray α :=
  { array with capacity := array.capacity + array.capacity / 2 }

def writeSlot (array : DynamicArray α) (i : Nat) (element : α) : DynamicArray α :=
  { array with
    data := Function.update array.data i element
    overrun := array.overrun || decide (array.capacity ≤ i) }

def addElement (array : DynamicArray α) (newElement : α) : DynamicArray α :=
  { writeSlot array array.size newElement with size := array.size + 1 }

def addToDynamicArray (array : DynamicArray α) (element : α) : DynamicArray α :=
  addElement (if array.size = array.capacity then resizeDynamicArray array else array) element

def cleanAllElements (array : DynamicArray α) : Nat × DynamicArray α :=
  (array.size, { array with size := 0 })

def toList (array : DynamicArray α) : List α := window array.data array.size

def ids [Element α] (array : DynamicArray α) : List UInt64 := (toList array).map Element.msgId

def addAll (array : DynamicArray α) (elements : List α) : DynamicArray α :=
  elements.foldl addToDynamicArray array

structure WellFormed (array : DynamicArray α) : Prop where
  bounded : array.size ≤ array.capacity
  growable : 2 ≤ array.capacity
  inside : array.overrun = false

@[simp] theorem toList_length (array : DynamicArray α) : (toList array).length = array.size := by
  simp [toList]

@[simp] theorem ids_length [Element α] (array : DynamicArray α) : (ids array).length = array.size := by
  simp [ids]

theorem toList_ne_nil {array : DynamicArray α} (nonempty : array.size ≠ 0) : toList array ≠ [] := by
  intro empty
  apply nonempty
  rw [← toList_length array, empty]
  rfl

theorem ids_ne_nil [Element α] {array : DynamicArray α} (nonempty : array.size ≠ 0) :
    ids array ≠ [] := by
  intro empty
  apply nonempty
  rw [← ids_length array, empty]
  rfl

@[simp] theorem toList_init [Element α] (capacity : Nat) :
    toList (initDynamicArray α capacity) = [] := rfl

@[simp] theorem size_add (array : DynamicArray α) (x : α) :
    (addToDynamicArray array x).size = array.size + 1 := by
  simp only [addToDynamicArray, addElement]
  split <;> rfl

@[simp] theorem toList_add (array : DynamicArray α) (x : α) :
    toList (addToDynamicArray array x) = toList array ++ [x] := by
  simp only [addToDynamicArray, addElement, toList, writeSlot]
  split <;> exact window_update_end array.data array.size x

@[simp] theorem ids_add [Element α] (array : DynamicArray α) (x : α) :
    ids (addToDynamicArray array x) = ids array ++ [Element.msgId x] := by
  simp [ids]

@[simp] theorem toList_clean (array : DynamicArray α) :
    toList (cleanAllElements array).2 = [] := rfl

theorem capacity_add (array : DynamicArray α) (x : α) :
    (addToDynamicArray array x).capacity =
      if array.size = array.capacity then array.capacity + array.capacity / 2
      else array.capacity := by
  simp only [addToDynamicArray, addElement, writeSlot]
  split <;> rfl

theorem overrun_add (array : DynamicArray α) (x : α) :
    (addToDynamicArray array x).overrun =
      (array.overrun || decide ((addToDynamicArray array x).capacity ≤ array.size)) := by
  simp only [addToDynamicArray, addElement, writeSlot]
  split <;> rfl

theorem wellFormed_init [Element α] {capacity : Nat} (growable : 2 ≤ capacity) :
    WellFormed (initDynamicArray α capacity) := ⟨Nat.zero_le _, growable, rfl⟩

theorem wellFormed_add {array : DynamicArray α} (x : α) (valid : WellFormed array) :
    WellFormed (addToDynamicArray array x) := by
  have room : array.size < (addToDynamicArray array x).capacity := by
    have := valid.bounded
    have := valid.growable
    rw [capacity_add]
    split <;> omega
  refine ⟨by rw [size_add]; exact room, ?_, ?_⟩
  · have := valid.growable
    rw [capacity_add]
    split <;> omega
  · rw [overrun_add, valid.inside, Bool.false_or]
    exact decide_eq_false (by omega)

theorem wellFormed_clean {array : DynamicArray α} (valid : WellFormed array) :
    WellFormed (cleanAllElements array).2 := ⟨Nat.zero_le _, valid.growable, valid.inside⟩

@[simp] theorem toList_addAll (array : DynamicArray α) (xs : List α) :
    toList (addAll array xs) = toList array ++ xs := by
  induction xs generalizing array with
  | nil => simp [addAll]
  | cons x xs ih =>
    have rest := ih (addToDynamicArray array x)
    simpa [addAll] using rest

theorem mem_ids_iff [Element α] {array : DynamicArray α} {x : UInt64} :
    x ∈ ids array ↔ ∃ i, i < array.size ∧ Element.msgId (array.data i) = x := by
  simp only [ids, toList, List.mem_map, mem_window]
  constructor
  · rintro ⟨_, ⟨i, bound, rfl⟩, eq⟩
    exact ⟨i, bound, eq⟩
  · rintro ⟨i, bound, eq⟩
    exact ⟨_, ⟨i, bound, rfl⟩, eq⟩

end RealMQ.DynamicArrays
