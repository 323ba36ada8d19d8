import RealMQ.ElementMemory

/- What the operations of dynamic_array.c do to the blocks of an array: each is defined on a memory
   that holds the array, and leaves one that holds what the operation on the values gives. -/
namespace RealMQ.ElementMemory
open CStrings DynamicArrays ElementRemoval Heaps InterpolationSearch Slots

/-- The live blocks are those of the array, and the frame. -/
def Holds {α : Type} (size : ElementSize α) (memory : Memory) (array : ArrayObject)
    (values : DynamicArray α) (frame : Blocks) : Prop :=
  ∃ objects own, Describes size array values objects own ∧ Owns memory (own + frame)

def CopiesFrom {α : Type} (size : ElementSize α) (element : Pointer) (x : α) (frame : Blocks) : Prop :=
  ∀ memory own, Owns memory (own + frame) →
    ∃ after p new, size.copy memory element = some (after, some p) ∧ size.Stored p x new ∧
      Owns after (new + (own + frame))

section Search
variable {α : Type} [Element α]

theorem interpolateLoop_congr {id other : Nat → UInt64} {size fuel low high : Nat} (msgId : UInt64)
    (same : ∀ i, i < size → id i = other i) :
    interpolateLoop id size msgId fuel low high = interpolateLoop other size msgId fuel low high := by
  induction fuel generalizing low high with
  | zero => rfl
  | succ fuel ih =>
    simp only [interpolateLoop]
    by_cases outside : size ≤ low ∨ size ≤ high
    · rw [if_pos outside, if_pos outside]
    · rw [if_neg outside, if_neg outside, same low (by omega), same high (by omega)]
      by_cases beyond : size ≤ probePos low high (other low) (other high) msgId
      · rw [if_pos beyond, if_pos beyond]
      · rw [if_neg beyond, if_neg beyond, same _ (Nat.lt_of_not_le beyond), ih, ih]

theorem lookup_congr {first second : DynamicArray α} (same : toList first = toList second)
    (msgId : UInt64) (search : Bool) : lookup first msgId search = lookup second msgId search := by
  have size : first.size = second.size := by
    have length := congrArg List.length same
    rwa [toList_length, toList_length] at length
  have ids : ∀ i, i < second.size → Element.msgId (first.data i) = Element.msgId (second.data i) := by
    intro i bound
    unfold toList at same
    rw [size] at same
    rw [window_eq_iff.mp same i bound]
  have linear : linearSearch first msgId = linearSearch second msgId := by
    unfold linearSearch
    rw [size]
    apply List.find?_congr
    intro i member
    rw [ids i (List.mem_range.mp member)]
  have fast : interpolateSearch first msgId = interpolateSearch second msgId := by
    unfold interpolateSearch interpolateSearchOn
    rw [size, interpolateLoop_congr msgId ids]
  unfold lookup
  rw [linear, fast]

end Search

section Operations
variable {α : Type} {size : ElementSize α} {memory : Memory} {array : ArrayObject}
  {values : DynamicArray α} {frame : Blocks} {element : Pointer} {x : α} {i : Nat}

theorem copies_stored {p : Nat} {own : Blocks} (stored : size.Stored p x own) (frame : Blocks) :
    CopiesFrom size (some p) x (own + frame) := by
  intro memory other owns
  have source : Owns memory (own + (other + frame)) := by rwa [add_left_comm]
  obtain ⟨after, q, new, copied, again, owned⟩ := size.copy_stored stored source
  exact ⟨after, q, new, copied, again, by rwa [add_left_comm other]⟩

theorem holds_frame {share : Blocks} : Holds size memory array values (share + frame) ↔
    ∃ objects own, Describes size array values objects own ∧ Owns memory (share + (own + frame)) := by
  constructor
  · rintro ⟨objects, own, describes, owns⟩
    exact ⟨objects, own, describes, by rwa [add_left_comm]⟩
  · rintro ⟨objects, own, describes, owns⟩
    exact ⟨objects, own, describes, by rwa [add_left_comm]⟩

theorem holds_allocate (holds : Holds size memory array values frame) (content : List Cell) :
    Holds size (allocate memory content) array values ({(memory.next, content)} + frame) := by
  obtain ⟨objects, own, describes, owns⟩ := holds
  exact holds_frame.mpr ⟨objects, own, describes, owns_allocate owns⟩

theorem holds_free {p : Nat} {content : List Cell}
    (holds : Holds size memory array values ({(p, content)} + frame)) :
    ∃ after, free memory (some p) = some after ∧ Holds size after array values frame := by
  obtain ⟨objects, own, describes, owns⟩ := holds_frame.mp holds
  obtain ⟨after, freed, rest⟩ := owns_free owns
  exact ⟨after, freed, objects, own, describes, rest⟩

theorem holds_size (holds : Holds size memory array values frame) :
    array.slots.size = values.size := by
  obtain ⟨objects, own, describes, -⟩ := holds
  obtain ⟨first, second⟩ := described_length describes
  exact first.symm.trans second

theorem holds_capacity (holds : Holds size memory array values frame) :
    array.slots.capacity = values.capacity := by
  obtain ⟨objects, own, describes, -⟩ := holds
  exact describes.capacity

theorem holds_data (holds : Holds size memory array values frame) :
    cells memory array.data = some [] := by
  obtain ⟨objects, own, describes, owns⟩ := holds
  exact described_data describes owns

theorem holds_init [Element α] (owns : Owns memory frame) (initialCapacity : Nat) :
    Holds size (initDynamicArray memory initialCapacity).1
      (initDynamicArray memory initialCapacity).2 (DynamicArrays.initDynamicArray α initialCapacity)
      frame :=
  ⟨[], {(memory.next, [])}, ⟨⟨memory.next, rfl, rfl⟩, rfl, List.Forall₂.nil, rfl, rfl⟩,
    owns_allocate owns⟩

theorem holds_resize (holds : Holds size memory array values frame) :
    ∃ after grown, resizeDynamicArray memory array = some (after, grown) ∧
      Holds size after grown (DynamicArrays.resizeDynamicArray values) frame := by
  obtain ⟨objects, own, describes, owns⟩ := holds
  obtain ⟨p, data, rfl⟩ := describes.data
  rw [add_assoc] at owns
  obtain ⟨freed, released, rest⟩ := owns_free owns
  have owned : Owns (allocate freed []) ({(freed.next, [])} + (objects.map Prod.snd).sum + frame) := by
    rw [add_assoc]
    exact owns_allocate rest
  refine ⟨allocate freed [],
    ⟨DynamicArrays.resizeDynamicArray array.slots, some freed.next⟩, ?_, objects, _,
    ⟨⟨freed.next, rfl, rfl⟩, describes.pointers, describes.stored, ?_, describes.overrun⟩, owned⟩
  · unfold resizeDynamicArray
    rw [data, released, Option.map_some]
  · simp only [DynamicArrays.resizeDynamicArray, describes.capacity]

theorem holds_add_element {p : Nat} {own new : Blocks} {objects : List (Nat × Blocks)}
    (describes : Describes size array values objects own) (stored : size.Stored p x new)
    (owns : Owns memory (new + (own + frame))) :
    ∃ grown, addElement memory array (some p) = some (memory, grown) ∧
      Holds size memory grown (DynamicArrays.addElement values x) frame := by
  have data : cells memory array.data = some [] := by
    have arranged : Owns memory (own + (new + frame)) := by rwa [add_left_comm]
    exact described_data describes arranged
  obtain ⟨first, second⟩ := described_length describes
  refine ⟨{ array with slots := DynamicArrays.addElement array.slots (some p) }, ?_,
    objects ++ [(p, new)], new + own, ⟨?_, ?_, ?_, describes.capacity, ?_⟩, ?_⟩
  · unfold addElement
    rw [data, Option.map_some]
  · obtain ⟨q, pointer, rfl⟩ := describes.data
    refine ⟨q, pointer, ?_⟩
    rw [List.map_append, List.sum_append, List.map_singleton, List.sum_singleton]
    abel
  · simp only [DynamicArrays.addElement, writeSlot, toList, window_update_end, List.map_append,
      List.map_singleton]
    rw [← describes.pointers, toList]
  · simp only [DynamicArrays.addElement, writeSlot, toList, window_update_end]
    exact List.rel_append describes.stored (List.Forall₂.cons stored List.Forall₂.nil)
  · simp only [DynamicArrays.addElement, writeSlot, describes.overrun, describes.capacity, ← first,
      second]
  · rwa [add_assoc]

theorem holds_add (copies : CopiesFrom size element x frame)
    (holds : Holds size memory array values frame) :
    ∃ after grown, addToDynamicArray size memory array element = some (after, grown) ∧
      Holds size after grown (DynamicArrays.addToDynamicArray values x) frame := by
  have room : ∃ between wide, (if array.slots.size = array.slots.capacity then
        resizeDynamicArray memory array else some (memory, array)) = some (between, wide) ∧
      Holds size between wide
        (if values.size = values.capacity then DynamicArrays.resizeDynamicArray values else values)
        frame := by
    rw [holds_size holds, holds_capacity holds]
    by_cases full : values.size = values.capacity
    · simp only [if_pos full]
      exact holds_resize holds
    · simp only [if_neg full]
      exact ⟨memory, array, rfl, holds⟩
  obtain ⟨between, wide, resized, objects, own, describes, owns⟩ := room
  obtain ⟨after, p, new, copied, stored, owned⟩ := copies between own owns
  obtain ⟨grown, added, final⟩ := holds_add_element describes stored owned
  refine ⟨after, grown, ?_, final⟩
  unfold addToDynamicArray
  rw [resized, Option.bind_some]
  dsimp only
  rw [copied, Option.bind_some]
  exact added

theorem holds_pointer (holds : Holds size memory array values frame) (bound : i < values.size) :
    size.read memory (array.slots.data i) = some (values.data i) := by
  obtain ⟨objects, own, describes, owns⟩ := holds
  obtain ⟨p, share, here, pointer, stored⟩ := described_element describes bound
  obtain ⟨q, -, rfl⟩ := describes.data
  rw [split_objects q here, add_assoc] at owns
  rw [pointer]
  exact size.read_stored stored owns

theorem holds_element (holds : Holds size memory array values frame) (bound : i < values.size) :
    elementAt size memory array i = some (values.data i) := by
  unfold elementAt
  rw [holds_data holds, Option.bind_some, holds_pointer holds bound]

theorem holds_read [Element α] (holds : Holds size memory array values frame) :
    ∃ read, readArray size memory array = some read ∧ toList read = toList values := by
  have elements : (List.range array.slots.size).mapM (elementAt size memory array) =
      some (toList values) := by
    rw [holds_size holds]
    exact mapM_window fun i => holds_element holds
  refine ⟨_, by rw [readArray, elements, Option.map_some], ?_⟩
  rw [holds_size holds, ← toList_length values]
  exact window_getD (toList values) default

theorem shiftLeft_overrun_congr {β : Type} {first : DynamicArray α} {second : DynamicArray β}
    (capacity : first.capacity = second.capacity) (overrun : first.overrun = second.overrun)
    (index moves : Nat) :
    (shiftLeft first index moves).overrun = (shiftLeft second index moves).overrun := by
  induction moves with
  | zero => exact overrun
  | succ moves ih =>
    simp only [shiftLeft, writeSlot, ih, shiftLeft_capacity, capacity]

theorem shiftLeft_toList {array : DynamicArray α} {index : Nat} (bound : index < array.size) :
    toList { shiftLeft array index (array.size - 1 - index) with size := array.size - 1 } =
      (toList array).eraseIdx index := by
  simp only [toList, shiftLeft_data]
  exact window_shift_down array.data bound

theorem stored_erased {objects : List (Nat × Blocks)} {xs : List α} {i : Nat}
    (stored : List.Forall₂ (fun object x => size.Stored object.1 x object.2) objects xs) :
    List.Forall₂ (fun object x => size.Stored object.1 x object.2) (objects.eraseIdx i)
      (xs.eraseIdx i) := by
  induction stored generalizing i with
  | nil => exact List.Forall₂.nil
  | cons first rest ih =>
    cases i with
    | zero => exact rest
    | succ i => exact List.Forall₂.cons first ih

theorem holds_removed (holds : Holds size memory array values frame) (bound : i < values.size) :
    ∃ after, size.release memory (array.slots.data i) = some after ∧
      Holds size after
        { array with slots := { shiftLeft array.slots i (array.slots.size - 1 - i) with
          size := array.slots.size - 1 } }
        { shiftLeft values i (values.size - 1 - i) with size := values.size - 1 } frame := by
  have sizes := holds_size holds
  obtain ⟨objects, own, describes, owns⟩ := holds
  obtain ⟨p, share, here, pointer, stored⟩ := described_element describes bound
  obtain ⟨q, data, rfl⟩ := describes.data
  rw [split_objects q here, add_assoc] at owns
  obtain ⟨after, released, owned⟩ := size.release_stored stored owns
  refine ⟨after, by rw [pointer, released], objects.eraseIdx i, _,
    ⟨⟨q, data, rfl⟩, ?_, ?_, ?_, ?_⟩, owned⟩
  · rw [shiftLeft_toList (by omega), describes.pointers, List.eraseIdx_map]
  · rw [shiftLeft_toList bound]
    exact stored_erased describes.stored
  · simp only [shiftLeft_capacity, describes.capacity]
  · dsimp only
    rw [sizes]
    exact shiftLeft_overrun_congr describes.capacity describes.overrun _ _

theorem holds_remove [Element α] (holds : Holds size memory array values frame) (msgId : UInt64)
    (search removal : Bool) :
    ∃ after shorter, removeElementById size memory array msgId search removal =
        some ((ElementRemoval.removeElementById values msgId search removal).1, after, shorter) ∧
      Holds size after shorter (ElementRemoval.removeElementById values msgId search removal).2
        frame := by
  obtain ⟨read, reads, same⟩ := holds_read holds
  unfold removeElementById ElementRemoval.removeElementById
  rw [reads, Option.bind_some, lookup_congr same]
  cases hit : lookup values msgId search with
  | none => exact ⟨memory, array, rfl, holds⟩
  | some index =>
    cases removal with
    | false => exact ⟨memory, array, rfl, holds⟩
    | true =>
      obtain ⟨bound, -⟩ := lookup_some hit
      obtain ⟨after, released, final⟩ := holds_removed holds bound
      refine ⟨after, _, ?_, final⟩
      simp only [if_true, released, Option.map_some]

theorem holds_released (holds : Holds size memory array values frame) :
    ∃ after p, releaseElements size memory array = some after ∧ array.data = some p ∧
      Owns after ({(p, [])} + frame) := by
  obtain ⟨objects, own, describes, owns⟩ := holds
  obtain ⟨p, data, rfl⟩ := describes.data
  have shares : (objects.map Prod.snd).length = array.slots.size := by
    rw [List.length_map]
    exact (described_length describes).1
  have arranged : Owns memory ((objects.map Prod.snd).sum + ({(p, [])} + frame)) := by
    rw [add_left_comm, ← add_assoc]
    exact owns
  have each : ∀ k share, (objects.map Prod.snd)[k]? = some share → ∀ heap frame,
      Owns heap (share + frame) →
      ∃ after, size.release heap (array.slots.data k) = some after ∧ Owns after frame := by
    intro k share here heap frame owned
    have bound := (List.getElem?_eq_some_iff.mp here).1
    rw [shares, (described_length describes).1.symm.trans (described_length describes).2] at bound
    obtain ⟨q, own, object, pointer, stored⟩ := described_element describes bound
    rw [List.getElem?_map, object, Option.map_some] at here
    obtain rfl := Option.some.inj here
    rw [pointer]
    exact size.release_stored stored owned
  obtain ⟨after, released, owned⟩ := owns_loop each arranged
  rw [shares] at released
  exact ⟨after, p, released, data, owned⟩

theorem holds_clean (holds : Holds size memory array values frame) :
    ∃ after emptied, cleanAllElements size memory array = some (after, emptied) ∧
      Holds size after emptied (DynamicArrays.cleanAllElements values).2 frame := by
  obtain ⟨after, p, released, data, owned⟩ := holds_released holds
  obtain ⟨objects, own, describes, -⟩ := holds
  refine ⟨after, { array with slots := { array.slots with size := 0 } }, ?_, [], {(p, [])},
    ⟨⟨p, data, rfl⟩, rfl, List.Forall₂.nil, describes.capacity, describes.overrun⟩, owned⟩
  unfold cleanAllElements
  rw [released, Option.map_some]

theorem holds_release (holds : Holds size memory array values frame) :
    ∃ after, releaseDynamicArray size memory array = some after ∧ Owns after frame := by
  obtain ⟨between, p, released, data, owned⟩ := holds_released holds
  obtain ⟨after, freed, final⟩ := owns_free owned
  refine ⟨after, ?_, final⟩
  unfold releaseDynamicArray
  rw [released, Option.bind_some, data, freed]

end Operations

end RealMQ.ElementMemory
