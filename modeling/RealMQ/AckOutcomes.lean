import RealMQ.ServerThread
import RealMQ.SegmentOutcomes

/- send_ids with every outcome of its mallocs and of its sends. -/
namespace RealMQ.AckOutcomes
open CStrings DynamicArrays Marshalling BufferSegments SegmentOutcomes NextFit ServerThread

def delivered (handed : List (CString × Bool)) : List UInt64 :=
  acknowledged (handed.filter Prod.snd)

def datagrams (gArray : DynamicArray UInt64) : Nat :=
  (pack (fits shippedSegmentSize) (toList gArray)).length

/-- Every entry of the array is delivered or still there. -/
def Keeps (alloc sent : Nat → Bool) (gArray : DynamicArray UInt64) : Prop :=
  (toList gArray).Subperm (delivered (sendIds alloc sent gArray).1 ++
    toList (sendIds alloc sent gArray).2)

section Groups
variable {β : Type} (sent : Nat → Bool)

def taken (groups : List (List β)) (n : Nat) : List (List β) :=
  ((groups.zipIdx n).filter fun p => sent p.2).map Prod.fst

theorem taken_cons (g : List β) (groups : List (List β)) (n : Nat) :
    taken sent (g :: groups) n =
      if sent n then g :: taken sent groups (n + 1) else taken sent groups (n + 1) := by
  unfold taken
  rw [List.zipIdx_cons, List.filter_cons]
  split <;> rfl

theorem taken_length_le (groups : List (List β)) (n : Nat) :
    (taken sent groups n).flatten.length ≤ groups.flatten.length := by
  induction groups generalizing n with
  | nil => simp [taken]
  | cons g groups ih =>
    have rest := ih (n + 1)
    rw [taken_cons]
    split
    · simp only [List.flatten_cons, List.length_append]
      omega
    · simp only [List.flatten_cons, List.length_append]
      omega

theorem taken_all_iff {groups : List (List β)} (nonempty : ∀ g ∈ groups, g ≠ []) (n : Nat) :
    groups.flatten.length ≤ (taken sent groups n).flatten.length ↔
      Succeed sent n (n + groups.length) := by
  induction groups generalizing n with
  | nil =>
    refine iff_of_true (by simp) ?_
    intro k low high
    simp only [List.length_nil] at high
    omega
  | cons g groups ih =>
    have some : 0 < g.length := List.length_pos_iff.mpr (nonempty g List.mem_cons_self)
    have rest := ih (fun g' member => nonempty g' (List.mem_cons_of_mem _ member)) (n + 1)
    have bound := taken_length_le sent groups (n + 1)
    rw [taken_cons]
    constructor
    · intro all
      by_cases here : sent n = true
      · rw [if_pos here] at all
        simp only [List.flatten_cons, List.length_append, Nat.add_le_add_iff_left] at all
        have later := rest.mp all
        intro k low high
        rcases Nat.lt_or_eq_of_le low with further | rfl
        · exact later k further (by simp only [List.length_cons] at high; omega)
        · exact here
      · rw [if_neg here] at all
        simp only [List.flatten_cons, List.length_append] at all
        omega
    · intro succeed
      rw [if_pos (succeed n (le_refl n) (by simp))]
      simp only [List.flatten_cons, List.length_append, Nat.add_le_add_iff_left]
      apply rest.mpr
      intro k low high
      exact succeed k (by omega) (by simp only [List.length_cons]; omega)

theorem taken_sublist (groups : List (List β)) (n : Nat) :
    (taken sent groups n).flatten.Sublist groups.flatten := by
  induction groups generalizing n with
  | nil => simp [taken]
  | cons g groups ih =>
    rw [taken_cons]
    split
    · exact (List.Sublist.refl g).append (ih (n + 1))
    · exact (ih (n + 1)).trans (List.sublist_append_right _ _)

end Groups

section Calls
variable (alloc sent : Nat → Bool) (gArray : DynamicArray UInt64)

theorem sent_texts (groups : List (List UInt64)) :
    (((groups.map joinIds).zipIdx.map fun p => (p.1, sent p.2)).filter Prod.snd).map Prod.fst =
      (taken sent groups 0).map joinIds := by
  unfold taken
  rw [List.zipIdx_map, List.map_map, List.filter_map, List.map_map, List.map_map]
  rfl

theorem delivered_packed (nonempty : gArray.size ≠ 0)
    (succeed : Succeed alloc 0 (datagrams gArray + 2)) :
    delivered (sendIds alloc sent gArray).1 =
      (taken sent (pack (fits shippedSegmentSize) (toList gArray)) 0).flatten := by
  have single : ∀ x ∈ ids gArray, (idText x).length ≤ shippedSegmentSize :=
    fun x _ => idText_short (by decide) x
  have filled : toList gArray ≠ [] := toList_ne_nil nonempty
  have packed := (marshalAndSplit_short alloc nonempty single).1
  rw [ids_values] at packed
  unfold delivered
  apply acknowledged_texts
  rw [← sent_texts]
  simp only [sendIds, packed succeed, List.length_eq_zero_iff, pack_ne_nil filled, if_false]
  rw [List.take_of_length_le (by simp), List.map_map]
  rfl

theorem delivered_failed (nonempty : gArray.size ≠ 0)
    (failing : ¬ Succeed alloc 0 (datagrams gArray + 2)) :
    delivered (sendIds alloc sent gArray).1 = [] := by
  have single : ∀ x ∈ ids gArray, (idText x).length ≤ shippedSegmentSize :=
    fun x _ => idText_short (by decide) x
  have rejected := (marshalAndSplit_short alloc nonempty single).2
  rw [ids_values] at rejected
  simp only [delivered, sendIds, rejected failing, emptySegmentArray]
  cases sent 0 <;> simp [acknowledged]

end Calls

theorem groups_nonempty (gArray : DynamicArray UInt64) :
    ∀ g ∈ pack (fits shippedSegmentSize) (toList gArray), g ≠ [] := pack_nonempty _

/-- Nothing is lost exactly when there is nothing to send, or no malloc and no send fails. -/
theorem send_ids_keeps_iff (alloc sent : Nat → Bool) (gArray : DynamicArray UInt64) :
    Keeps alloc sent gArray ↔ gArray.size = 0 ∨
      (Succeed alloc 0 (datagrams gArray + 2) ∧ Succeed sent 0 (datagrams gArray)) := by
  unfold Keeps
  rw [sendIds_clears, List.append_nil]
  by_cases empty : gArray.size = 0
  · have none : toList gArray = [] := List.length_eq_zero_iff.mp (by rw [toList_length, empty])
    rw [none]
    exact iff_of_true (List.nil_subperm) (Or.inl empty)
  · have flat : (pack (fits shippedSegmentSize) (toList gArray)).flatten = toList gArray :=
      pack_flatten _
    have all := taken_all_iff sent (groups_nonempty gArray) 0
    rw [flat, Nat.zero_add] at all
    have length := toList_length gArray
    by_cases succeed : Succeed alloc 0 (datagrams gArray + 2)
    · rw [delivered_packed alloc sent gArray empty succeed]
      constructor
      · intro keeps
        exact Or.inr ⟨succeed, all.mp keeps.length_le⟩
      · intro condition
        have sends := (condition.resolve_left empty).2
        have part := taken_sublist sent (pack (fits shippedSegmentSize) (toList gArray)) 0
        rw [flat] at part
        rw [part.eq_of_length_le (all.mpr sends)]
    · rw [delivered_failed alloc sent gArray empty succeed]
      constructor
      · intro keeps
        have short := keeps.length_le
        rw [length] at short
        simp only [List.length_nil] at short
        omega
      · intro condition
        exact absurd (condition.resolve_left empty).1 succeed

/-- One id, and a send that fails. -/
theorem failed_send_loses :
    ¬ ∀ (alloc sent : Nat → Bool) (gArray : DynamicArray UInt64), Keeps alloc sent gArray := by
  intro always
  have keeps := always (fun _ => true) (fun _ => false)
    (addToDynamicArray (initDynamicArray UInt64 10) 7)
  unfold Keeps at keeps
  rw [sendIds_clears, List.append_nil, delivered_packed _ _ _ (by simp) (fun _ _ _ => rfl)] at keeps
  have short := keeps.length_le
  have all := (taken_all_iff (fun _ => false) (groups_nonempty
    (addToDynamicArray (initDynamicArray UInt64 10) 7)) 0).mp (by rw [pack_flatten]; exact short)
  exact absurd (all 0 (le_refl 0) (by simp [pack, nextFit])) (by decide)

end RealMQ.AckOutcomes
