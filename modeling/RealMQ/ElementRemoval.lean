import RealMQ.InterpolationSearch

/- remove_element_by_id, and the array as a whole against the list it stands for. -/
namespace RealMQ.ElementRemoval
open DynamicArrays InterpolationSearch Slots
variable {α : Type} [Element α]

def linearSearch (array : DynamicArray α) (msgId : UInt64) : Option Nat :=
  (List.range array.size).find? fun i => Element.msgId (array.data i) = msgId

/-- The index is searched for again from the left whenever interpolation gives none. -/
def lookup (array : DynamicArray α) (msgId : UInt64) (useInterpolationSearch : Bool) :
    Option Nat :=
  match if useInterpolationSearch then interpolateSearch array msgId else .absent with
  | .found pos => some pos
  | _ => linearSearch array msgId

omit [Element α] in
def shiftLeft (array : DynamicArray α) (index : Nat) : Nat → DynamicArray α
  | 0 => array
  | moves + 1 =>
      let shifted := shiftLeft array index moves
      writeSlot shifted (index + moves) (shifted.data (index + moves + 1))

/-- The returned index is none where the source returns -1. -/
def removeElementById (array : DynamicArray α) (msgId : UInt64)
    (useInterpolationSearch removeElement : Bool) : Option Nat × DynamicArray α :=
  match lookup array msgId useInterpolationSearch with
  | none => (none, array)
  | some index =>
      (some index,
        if removeElement then
          { shiftLeft array index (array.size - 1 - index) with size := array.size - 1 }
        else array)

theorem linearSearch_some {array : DynamicArray α} {msgId : UInt64} {i : Nat}
    (hit : linearSearch array msgId = some i) :
    i < array.size ∧ Element.msgId (array.data i) = msgId := by
  refine ⟨List.mem_range.mp (List.mem_of_find?_eq_some hit), ?_⟩
  simpa using List.find?_some hit

theorem linearSearch_none {array : DynamicArray α} {msgId : UInt64} :
    linearSearch array msgId = none ↔ msgId ∉ ids array := by
  simp [linearSearch, mem_ids_iff]

theorem lookup_some {array : DynamicArray α} {msgId : UInt64} {useInterpolationSearch : Bool}
    {i : Nat} (hit : lookup array msgId useInterpolationSearch = some i) :
    i < array.size ∧ Element.msgId (array.data i) = msgId := by
  cases useInterpolationSearch with
  | false => exact linearSearch_some hit
  | true =>
    rcases interpolateSearch_sound array msgId with none | ⟨pos, found, bound, eq⟩
    · simp only [lookup, if_true, none] at hit
      exact linearSearch_some hit
    · simp only [lookup, if_true, found, Option.some.injEq] at hit
      exact hit ▸ ⟨bound, eq⟩

/-- Interpolation may stop early on unsorted data; the fallback makes up for it. -/
theorem lookup_none {array : DynamicArray α} {msgId : UInt64} {useInterpolationSearch : Bool} :
    lookup array msgId useInterpolationSearch = none ↔ msgId ∉ ids array := by
  cases useInterpolationSearch with
  | false => exact linearSearch_none
  | true =>
    rcases interpolateSearch_sound array msgId with none | ⟨pos, found, bound, eq⟩
    · simp only [lookup, if_true, none]
      exact linearSearch_none
    · simp only [lookup, if_true, found, reduceCtorEq, false_iff, not_not]
      exact mem_ids_iff.mpr ⟨pos, bound, eq⟩

omit [Element α] in
theorem shiftLeft_data (array : DynamicArray α) (index moves : Nat) :
    (shiftLeft array index moves).data = shiftDown array.data index moves := by
  induction moves with
  | zero => rfl
  | succ moves ih => simp only [shiftLeft, writeSlot, shiftDown, ih]

omit [Element α] in
theorem shiftLeft_capacity (array : DynamicArray α) (index moves : Nat) :
    (shiftLeft array index moves).capacity = array.capacity := by
  induction moves with
  | zero => rfl
  | succ moves ih => simpa [shiftLeft, writeSlot] using ih

omit [Element α] in
theorem shiftLeft_overrun {array : DynamicArray α} {index moves : Nat}
    (room : index + moves ≤ array.capacity) :
    (shiftLeft array index moves).overrun = array.overrun := by
  induction moves with
  | zero => rfl
  | succ moves ih =>
    simp only [shiftLeft, writeSlot, shiftLeft_capacity]
    rw [ih (by omega), decide_eq_false (by omega), Bool.or_false]

/-- The two outcomes of the call; everything later is derived from this. -/
theorem remove_cases (array : DynamicArray α) (msgId : UInt64)
    (useInterpolationSearch removeElement : Bool) :
    (msgId ∉ ids array ∧
      removeElementById array msgId useInterpolationSearch removeElement = (none, array)) ∨
    (∃ i array', i < array.size ∧ Element.msgId (array.data i) = msgId ∧
      removeElementById array msgId useInterpolationSearch removeElement = (some i, array') ∧
      array'.capacity = array.capacity ∧
      (array.size ≤ array.capacity → array'.overrun = array.overrun) ∧
      toList array' = if removeElement then (toList array).eraseIdx i else toList array) := by
  cases hit : lookup array msgId useInterpolationSearch with
  | none =>
    exact Or.inl ⟨lookup_none.mp hit, by simp [removeElementById, hit]⟩
  | some i =>
    obtain ⟨bound, eq⟩ := lookup_some hit
    refine Or.inr ⟨i, (removeElementById array msgId useInterpolationSearch removeElement).2,
      bound, eq, by simp only [removeElementById, hit], ?_⟩
    simp only [removeElementById, hit]
    cases removeElement with
    | false => exact ⟨rfl, fun _ => rfl, rfl⟩
    | true =>
      refine ⟨shiftLeft_capacity _ _ _, fun room => shiftLeft_overrun (by omega), ?_⟩
      simp only [if_true, toList, shiftLeft_data]
      exact window_shift_down array.data bound

theorem remove_index_none {array : DynamicArray α} {msgId : UInt64} {search removal : Bool} :
    (removeElementById array msgId search removal).1 = none ↔ msgId ∉ ids array := by
  rcases remove_cases array msgId search removal with ⟨absent, eq⟩ | ⟨i, _, bound, here, eq, _⟩
  · simp [eq, absent]
  · simp only [eq, reduceCtorEq, false_iff, not_not]
    exact mem_ids_iff.mpr ⟨i, bound, here⟩

theorem remove_index_some {array : DynamicArray α} {msgId : UInt64} {search removal : Bool} {i : Nat}
    (hit : (removeElementById array msgId search removal).1 = some i) : msgId ∈ ids array := by
  by_contra absent
  rw [remove_index_none.mpr absent] at hit
  cases hit

theorem eraseIdx_perm_erase {l : List UInt64} {i : Nat} {x : UInt64} (at_i : l[i]? = some x) :
    (l.eraseIdx i).Perm (l.erase x) := by
  obtain ⟨bound, eq⟩ := List.getElem?_eq_some_iff.mp at_i
  have whole : (l[i] :: l.eraseIdx i).Perm l := List.getElem_cons_eraseIdx_perm bound
  have split : l.Perm (x :: l.erase x) := List.perm_cons_erase (eq ▸ List.getElem_mem bound)
  exact (List.perm_cons x).mp ((eq ▸ whole).trans split)

theorem remove_ids_perm (array : DynamicArray α) (msgId : UInt64) (search : Bool) :
    (ids (removeElementById array msgId search true).2).Perm ((ids array).erase msgId) := by
  rcases remove_cases array msgId search true with
    ⟨absent, eq⟩ | ⟨i, array', bound, here, eq, _, _, list⟩
  · simp [eq, List.erase_of_not_mem absent]
  · rw [eq, ids, list, if_pos rfl, ← List.eraseIdx_map]
    exact eraseIdx_perm_erase (by
      simp only [toList, List.getElem?_map, window_getElem? _ _ _ bound, Option.map_some, here])

theorem wellFormed_remove {array : DynamicArray α} (msgId : UInt64) (search removal : Bool)
    (valid : WellFormed array) : WellFormed (removeElementById array msgId search removal).2 := by
  rcases remove_cases array msgId search removal with
    ⟨_, eq⟩ | ⟨i, array', bound, _, eq, capacity, overrun, list⟩
  · rw [eq]; exact valid
  · have shorter : array'.size ≤ array.size := by
      have length := congrArg List.length list
      rw [toList_length] at length
      rw [length]
      split
      · rw [List.length_eraseIdx, toList_length]; split <;> omega
      · exact Nat.le_of_eq (toList_length array)
    have := valid.bounded
    rw [eq]
    exact ⟨by dsimp only; omega, by rw [capacity]; exact valid.growable,
      by rw [overrun valid.bounded]; exact valid.inside⟩

theorem index_unique {array : DynamicArray α} {i j : Nat} (distinct : (ids array).Nodup)
    (left : i < array.size) (right : j < array.size)
    (same : Element.msgId (array.data i) = Element.msgId (array.data j)) : i = j := by
  have first : i < (ids array).length := by simpa using left
  have second : j < (ids array).length := by simpa using right
  have values : (ids array)[i] = (ids array)[j] := by
    simp only [ids, toList, List.getElem_map, window_getElem]
    exact same
  exact distinct.getElem_inj_iff.mp values

theorem lookup_modes {array : DynamicArray α} {msgId : UInt64} (distinct : (ids array).Nodup) :
    lookup array msgId true = lookup array msgId false := by
  cases fast : lookup array msgId true with
  | none => exact (lookup_none.mpr (lookup_none.mp fast)).symm
  | some i =>
    cases plain : lookup array msgId false with
    | none =>
      rw [lookup_none.mpr (lookup_none.mp plain)] at fast
      cases fast
    | some j =>
      obtain ⟨boundI, hereI⟩ := lookup_some fast
      obtain ⟨boundJ, hereJ⟩ := lookup_some plain
      rw [index_unique distinct boundI boundJ (hereI.trans hereJ.symm)]

theorem remove_keeps (array : DynamicArray α) (msgId : UInt64) (search removal : Bool)
    (idle : removal = false ∨ msgId ∉ ids array) :
    (removeElementById array msgId search removal).2 = array := by
  unfold removeElementById
  cases hit : lookup array msgId search with
  | none => rfl
  | some i =>
    rcases idle with never | absent
    · simp [never]
    · rw [lookup_none.mpr absent] at hit
      cases hit

theorem remove_present {array : DynamicArray α} {msgId : UInt64} (search : Bool)
    (present : msgId ∈ ids array) :
    ∃ i, i < array.size ∧ Element.msgId (array.data i) = msgId ∧
      (removeElementById array msgId search true).1 = some i ∧
      toList (removeElementById array msgId search true).2 = (toList array).eraseIdx i := by
  rcases remove_cases array msgId search true with
    ⟨absent, -⟩ | ⟨i, array', bound, here, eq, -, -, list⟩
  · exact absurd present absent
  · exact ⟨i, bound, here, by rw [eq], by rw [eq, list, if_pos rfl]⟩

/-- Both modes find an id exactly where it is, agree on different ids, and take out one
    occurrence or nothing. -/
theorem removal_modes_agree (array : DynamicArray α) (msgId : UInt64) :
    (∀ search removal,
      (removeElementById array msgId search removal).1 = none ↔ msgId ∉ ids array) ∧
    ((ids array).Nodup → ∀ removal,
      removeElementById array msgId true removal = removeElementById array msgId false removal) ∧
    (∀ search, msgId ∈ ids array →
      ∃ i, i < array.size ∧ Element.msgId (array.data i) = msgId ∧
        (removeElementById array msgId search true).1 = some i ∧
        toList (removeElementById array msgId search true).2 = (toList array).eraseIdx i) ∧
    ∀ search removal, removal = false ∨ msgId ∉ ids array →
      (removeElementById array msgId search removal).2 = array := by
  refine ⟨fun _ _ => remove_index_none, ?_, fun search => remove_present search,
    remove_keeps array msgId⟩
  intro distinct removal
  unfold removeElementById
  rw [lookup_modes distinct]

end RealMQ.ElementRemoval
