import RealMQ.BufferSegments

/- marshal_and_split beyond the good case: every outcome of its mallocs, ids that are longer
   than a segment, and how many segments any other cut of the ids would need. -/
namespace RealMQ.SegmentOutcomes
open CStrings DynamicArrays Marshalling BufferSegments NextFit
variable {α : Type} [Element α]

def Succeed (alloc : Nat → Bool) (first last : Nat) : Prop :=
  ∀ k, first ≤ k → k < last → alloc k = true

section Tokens
variable (maxSegmentSize tableSize : Nat) (alloc : Nat → Bool)

@[simp] theorem segments_copyToken (st : SplitState) (token : CString) :
    (copyToken maxSegmentSize st token).segments = st.segments := rfl

@[simp] theorem segments_addDelimiter (st : SplitState) :
    (addDelimiter st).segments = st.segments := by
  unfold addDelimiter
  split <;> rfl

@[simp] theorem segments_closeSegment_length (st : SplitState) :
    (closeSegment tableSize st).segments.length = st.segments.length + 1 := by
  simp [closeSegment]

theorem splitTokens_outcomes (tokens : List CString) (st : SplitState) :
    ∃ final, splitTokens maxSegmentSize tableSize (fun _ => true) tokens st = some final ∧
      st.segments.length ≤ final.segments.length ∧
      (Succeed alloc (st.segments.length + 2) (final.segments.length + 2) →
        splitTokens maxSegmentSize tableSize alloc tokens st = some final) ∧
      (¬ Succeed alloc (st.segments.length + 2) (final.segments.length + 2) →
        splitTokens maxSegmentSize tableSize alloc tokens st = none) := by
  induction tokens generalizing st with
  | nil =>
    refine ⟨st, rfl, le_refl _, fun _ => rfl, ?_⟩
    intro fails
    exact absurd (fun k low high => absurd high (Nat.not_lt.mpr low)) fails
  | cons token tokens ih =>
    by_cases full : maxSegmentSize <
        st.currentSize + token.length + (if 0 < st.currentSize then 1 else 0)
    · obtain ⟨final, run, more, good, bad⟩ :=
        ih (copyToken maxSegmentSize (addDelimiter (closeSegment tableSize st)) token)
      simp only [splitTokens, if_pos full, segments_copyToken, segments_addDelimiter,
        segments_closeSegment_length] at run more good bad ⊢
      refine ⟨final, by simpa using run, by omega, ?_, ?_⟩
      · intro succeed
        rw [if_pos (succeed _ (le_refl _) (by omega))]
        exact good fun k low high => succeed k (by omega) high
      · intro fails
        split
        · rename_i here
          apply bad
          intro later
          apply fails
          intro k low high
          rcases Nat.lt_or_eq_of_le low with further | rfl
          · exact later k further high
          · exact here
        · rfl
    · obtain ⟨final, run, more, good, bad⟩ := ih (copyToken maxSegmentSize (addDelimiter st) token)
      simp only [splitTokens, if_neg full, segments_copyToken, segments_addDelimiter]
        at run more good bad ⊢
      exact ⟨final, run, more, good, bad⟩

end Tokens

section Calls
variable {maxSegmentSize : Nat} {alloc : Nat → Bool} {buffer : CString} {array : DynamicArray α}

theorem splitBuffer_outcomes (alloc : Nat → Bool)
    (passes : ¬ (maxSegmentSize < buffer.length ∧ buffer.count '|' = 0)) :
    let good := splitBuffer maxSegmentSize (fun _ => true) buffer
    1 ≤ good.count ∧
      (Succeed alloc 0 (good.count + 1) → splitBuffer maxSegmentSize alloc buffer = good) ∧
      (¬ Succeed alloc 0 (good.count + 1) →
        splitBuffer maxSegmentSize alloc buffer = emptySegmentArray) := by
  intro good
  set table := if 0 < buffer.length ∧ buffer.getLast? ≠ some '|' then buffer.count '|' + 1
    else buffer.count '|' with tableDef
  obtain ⟨final, run, -, succeeds, fails⟩ :=
    splitTokens_outcomes maxSegmentSize table alloc (strtok '|' buffer) ⟨[], [], 0, false⟩
  have goodEq : good = finishSplit table final := by
    simp only [good, splitBuffer, if_neg passes, Bool.and_self, if_true, ← tableDef, run]
  have count : good.count = final.segments.length + 1 := by rw [goodEq]; rfl
  refine ⟨by omega, ?_, ?_⟩
  · intro succeed
    rw [count] at succeed
    have table_alloc := succeed 0 (by omega) (by omega)
    have first_alloc := succeed 1 (by omega) (by omega)
    have later := succeeds fun k low high => succeed k (by omega) (by omega)
    rw [goodEq]
    simp only [splitBuffer, if_neg passes, table_alloc, first_alloc, Bool.and_self, if_true,
      ← tableDef, later]
  · intro failing
    rw [count] at failing
    simp only [splitBuffer, if_neg passes, ← tableDef]
    split
    · rename_i both
      rw [Bool.and_eq_true] at both
      have none := fails fun later => failing fun k low high => by
        rcases Nat.lt_or_ge k 2 with early | late
        · rcases (by omega : k = 0 ∨ k = 1) with rfl | rfl
          · exact both.1
          · exact both.2
        · exact later k (by simpa using late) high
      rw [none]
    · rfl

theorem marshalAndSplit_outcomes (alloc : Nat → Bool) (nonempty : array.size ≠ 0)
    (passes : ¬ (maxSegmentSize < (joinIds (ids array)).length ∧
      (joinIds (ids array)).count '|' = 0)) :
    let good := marshalAndSplit maxSegmentSize (fun _ => true) array
    1 ≤ good.count ∧
      (Succeed alloc 0 (good.count + 2) → marshalAndSplit maxSegmentSize alloc array = good) ∧
      (¬ Succeed alloc 0 (good.count + 2) →
        marshalAndSplit maxSegmentSize alloc array = emptySegmentArray) := by
  intro good
  have goodEq : good = splitBuffer maxSegmentSize (fun _ => true) (joinIds (ids array)) := by
    simp only [good, marshalAndSplit, marshal_uint64_array nonempty]
  obtain ⟨some, succeeds, fails⟩ := splitBuffer_outcomes (fun k => alloc (k + 1)) passes
  rw [← goodEq] at some succeeds fails
  refine ⟨some, ?_, ?_⟩
  · intro succeed
    simp only [marshalAndSplit, succeed 0 (by omega) (by omega), marshal_uint64_array nonempty]
    exact succeeds fun k _ high => succeed (k + 1) (by omega) (by omega)
  · intro failing
    by_cases text : alloc 0 = true
    · simp only [marshalAndSplit, text, marshal_uint64_array nonempty]
      apply fails
      intro later
      apply failing
      intro k _ high
      cases k with
      | zero => exact text
      | succ k => exact later k (by omega) (by omega)
    · simp only [marshalAndSplit, marshalUint64Array, if_neg nonempty, if_neg text]

theorem marshalAndSplit_short (alloc : Nat → Bool) (nonempty : array.size ≠ 0)
    (single : ∀ x ∈ ids array, (idText x).length ≤ maxSegmentSize) :
    let groups := pack (fits maxSegmentSize) (ids array)
    (Succeed alloc 0 (groups.length + 2) → marshalAndSplit maxSegmentSize alloc array =
      ⟨groups.map segmentOf, groups.length, false⟩) ∧
    (¬ Succeed alloc 0 (groups.length + 2) →
      marshalAndSplit maxSegmentSize alloc array = emptySegmentArray) := by
  intro groups
  have filled : ids array ≠ [] := ids_ne_nil nonempty
  have good := marshalAndSplit_eq_pack nonempty single
  obtain ⟨-, succeeds, fails⟩ :=
    marshalAndSplit_outcomes alloc nonempty (short_ids_pass filled single)
  rw [good] at succeeds fails
  exact ⟨succeeds, fails⟩

end Calls

theorem fits_suffixClosed (maxSegmentSize : Nat) : SuffixClosed (fits maxSegmentSize) := by
  intro front back room
  cases back with
  | nil => simp [fits]
  | cons y back =>
    by_cases empty : front = []
    · subst empty
      exact room
    · simp only [fits, joinIds_append_cons empty, List.length_append, List.length_cons,
        decide_eq_true_eq] at room ⊢
      omega

/-- The segments are the texts of a cut of the ids into groups that fit. -/
def IsCut (maxSegmentSize : Nat) (array : DynamicArray UInt64) (result : BufferSegmentArray) : Prop :=
  ∃ groups : List (List UInt64), groups.flatten = toList array ∧
    (∀ g ∈ groups, (joinIds g).length ≤ maxSegmentSize) ∧ result.segments = groups.map segmentOf

/-- The count is that of the segments, these are a cut where no malloc fails, and no cut of the
    ids into groups that fit has fewer groups. -/
theorem marshal_and_split_minimal (maxSegmentSize : Nat) (alloc : Nat → Bool)
    (array : DynamicArray UInt64) (groups : List (List UInt64)) (room : 20 ≤ maxSegmentSize)
    (cut : groups.flatten = toList array)
    (fit : ∀ g ∈ groups, (joinIds g).length ≤ maxSegmentSize) :
    (marshalAndSplit maxSegmentSize alloc array).segments.length =
      (marshalAndSplit maxSegmentSize alloc array).count ∧
    ((∀ k, alloc k = true) →
      IsCut maxSegmentSize array (marshalAndSplit maxSegmentSize alloc array)) ∧
    (marshalAndSplit maxSegmentSize alloc array).count ≤ groups.length := by
  by_cases empty : array.size = 0
  · have nothing : marshalAndSplit maxSegmentSize alloc array = emptySegmentArray := by
      simp [marshalAndSplit, marshalUint64Array, empty]
    have none : toList array = [] := by
      rw [← ids_values, ← List.length_eq_zero_iff, ids_length, empty]
    rw [nothing]
    exact ⟨rfl, fun _ => ⟨[], none.symm, by simp, rfl⟩, Nat.zero_le _⟩
  · have single : ∀ x ∈ ids array, (idText x).length ≤ maxSegmentSize :=
      fun x _ => idText_short room x
    have packed : (pack (fits maxSegmentSize) (ids array)).flatten = toList array := by
      rw [pack_flatten, ids_values]
    have short : ∀ g ∈ pack (fits maxSegmentSize) (ids array),
        (joinIds g).length ≤ maxSegmentSize := by
      intro g member
      have inside := pack_fits (fun x here => by simpa [fits] using single x here) g member
      exact of_decide_eq_true inside
    have fewest : (pack (fits maxSegmentSize) (ids array)).length ≤ groups.length := by
      apply pack_minimal (fits_prefixClosed maxSegmentSize) (fits_suffixClosed maxSegmentSize)
      · intro g member
        exact decide_eq_true (fit g member)
      · rw [cut, ids_values]
    obtain ⟨succeeds, fails⟩ := marshalAndSplit_short alloc empty single
    by_cases succeed : Succeed alloc 0 ((pack (fits maxSegmentSize) (ids array)).length + 2)
    · rw [succeeds succeed]
      exact ⟨List.length_map _, fun _ => ⟨_, packed, short, rfl⟩, fewest⟩
    · rw [fails succeed]
      exact ⟨rfl, fun all => absurd (fun k _ _ => all k) succeed, Nat.zero_le _⟩

theorem marshal_and_split_minimal_three :
    let array := addAll (initDynamicArray UInt64 10) [18446744073709551615, 7, 10000000000]
    (marshalAndSplit 20 (fun _ => true) array).segments.length =
      (marshalAndSplit 20 (fun _ => true) array).count ∧
    ((∀ _ : Nat, true = true) → IsCut 20 array (marshalAndSplit 20 (fun _ => true) array)) ∧
    (marshalAndSplit 20 (fun _ => true) array).count ≤
      [[18446744073709551615], [7], [10000000000]].length :=
  marshal_and_split_minimal 20 _ _ [[18446744073709551615], [7], [10000000000]] (by decide)
    (by decide) (by decide)

section Oversize
variable {maxSegmentSize tableSize : Nat}

theorem overrun_kept {token : CString} {st : SplitState} (before : st.overrun = true) :
    (copyToken maxSegmentSize (addDelimiter st) token).overrun = true ∧
      (copyToken maxSegmentSize (addDelimiter (closeSegment tableSize st)) token).overrun = true := by
  unfold copyToken addDelimiter closeSegment
  constructor
  · split <;> simp [before]
  · simp [before]

theorem overrun_long {token : CString} (long : maxSegmentSize < token.length) (st : SplitState) :
    (copyToken maxSegmentSize st token).overrun = true := by
  have past : maxSegmentSize < st.currentSize + token.length := by omega
  simp [copyToken, past]

theorem splitTokens_overrun {tokens : List CString} {st final : SplitState}
    (run : splitTokens maxSegmentSize tableSize (fun _ => true) tokens st = some final)
    (bad : st.overrun = true ∨ ∃ token ∈ tokens, maxSegmentSize < token.length) :
    final.overrun = true := by
  induction tokens generalizing st with
  | nil =>
    obtain rfl := Option.some.inj run
    simpa using bad
  | cons token tokens ih =>
    have next : ∀ st', (st.overrun = true → (copyToken maxSegmentSize st' token).overrun = true) →
        (copyToken maxSegmentSize st' token).overrun = true ∨
          ∃ token ∈ tokens, maxSegmentSize < token.length := by
      intro st' kept
      rcases bad with before | ⟨t, member, long⟩
      · exact Or.inl (kept before)
      · rcases List.mem_cons.mp member with rfl | later
        · exact Or.inl (overrun_long long st')
        · exact Or.inr ⟨t, later, long⟩
    by_cases full : maxSegmentSize <
        st.currentSize + token.length + (if 0 < st.currentSize then 1 else 0)
    · simp only [splitTokens, if_pos full, if_true] at run
      exact ih run (next _ fun before => (overrun_kept before).2)
    · simp only [splitTokens, if_neg full] at run
      exact ih run (next _ fun before => (@overrun_kept _ tableSize _ _ before).1)

theorem splitBuffer_overrun {buffer : CString}
    (passes : ¬ (maxSegmentSize < buffer.length ∧ buffer.count '|' = 0))
    (long : ∃ token ∈ strtok '|' buffer, maxSegmentSize < token.length) :
    (splitBuffer maxSegmentSize (fun _ => true) buffer).overrun = true := by
  set table := if 0 < buffer.length ∧ buffer.getLast? ≠ some '|' then buffer.count '|' + 1
    else buffer.count '|' with tableDef
  obtain ⟨final, run, -⟩ :=
    splitTokens_outcomes maxSegmentSize table (fun _ => true) (strtok '|' buffer) ⟨[], [], 0, false⟩
  have bad := splitTokens_overrun run (Or.inr long)
  simp only [splitBuffer, if_neg passes, Bool.and_self, if_true, ← tableDef, run]
  unfold finishSplit closeSegment
  dsimp only
  split <;> simp [bad]

theorem single_long_rejected {array : DynamicArray α} {x : UInt64} (list : ids array = [x])
    (long : maxSegmentSize < (idText x).length) :
    marshalAndSplit maxSegmentSize (fun _ => true) array = emptySegmentArray := by
  have nonempty : array.size ≠ 0 := by
    rw [← ids_length array, list]
    simp
  have free : (idText x).count '|' = 0 := List.count_eq_zero.mpr (bar_not_in_decimal _)
  simp only [marshalAndSplit, marshal_uint64_array nonempty, list, joinIds_singleton, splitBuffer]
  rw [if_pos ⟨long, free⟩]

theorem neighbours_pass {array : DynamicArray α} (neighbours : 2 ≤ array.size) :
    ¬ (maxSegmentSize < (joinIds (ids array)).length ∧ (joinIds (ids array)).count '|' = 0) := by
  rintro ⟨-, none⟩
  have filled : ids array ≠ [] := by
    intro empty
    have length := ids_length array
    rw [empty] at length
    simp only [List.length_nil] at length
    omega
  have bars := count_bar_joinIds filled
  rw [ids_length, none] at bars
  omega

end Oversize

/-- Ids that are too long are rejected exactly when there is one id only; with neighbours they
    are copied out of the segment. -/
theorem long_ids_rejected_iff (maxSegmentSize : Nat) (array : DynamicArray UInt64)
    (long : ∃ x ∈ toList array, maxSegmentSize < (idText x).length) :
    let result := marshalAndSplit maxSegmentSize (fun _ => true) array
    ((result.count = 0 ∧ result.segments = [] ∧ result.overrun = false) ↔ array.size = 1) ∧
      (array.size ≠ 1 → result.overrun = true) := by
  intro result
  obtain ⟨x, member, big⟩ := long
  rw [← ids_values] at member
  have length := ids_length array
  have positive : 0 < array.size := by
    rw [← length]
    exact List.length_pos_of_mem member
  have overruns : array.size ≠ 1 → result.overrun = true := by
    intro more
    have passes := @neighbours_pass _ _ maxSegmentSize array (by omega)
    simp only [result, marshalAndSplit, marshal_uint64_array positive.ne']
    apply splitBuffer_overrun passes
    rw [strtok_joinIds]
    exact ⟨idText x, List.mem_map_of_mem member, big⟩
  refine ⟨?_, overruns⟩
  constructor
  · rintro ⟨-, -, inside⟩
    by_contra more
    rw [overruns more] at inside
    cases inside
  · intro one
    rw [one] at length
    obtain ⟨y, list⟩ := List.length_eq_one_iff.mp length
    rw [list, List.mem_singleton] at member
    subst y
    have rejected := single_long_rejected list big
    simp only [result, rejected]
    exact ⟨rfl, rfl, rfl⟩

theorem long_ids_rejected_single :
    let array := addAll (initDynamicArray UInt64 1) [123456789012345]
    let result := marshalAndSplit 11 (fun _ => true) array
    ((result.count = 0 ∧ result.segments = [] ∧ result.overrun = false) ↔ array.size = 1) ∧
      (array.size ≠ 1 → result.overrun = true) :=
  long_ids_rejected_iff 11 _ ⟨123456789012345, by decide, by decide⟩

/-- The same id after a short one. -/
theorem long_id_after_short :
    ¬ ∀ (maxSegmentSize : Nat) (array : DynamicArray UInt64), 1 ≤ maxSegmentSize →
      (∃ x ∈ toList array, maxSegmentSize < (idText x).length) →
      let result := marshalAndSplit maxSegmentSize (fun _ => true) array
      result.count = 0 ∧ result.segments = [] ∧ result.overrun = false := by
  intro always
  obtain ⟨none, -, -⟩ := always 11 (addAll (initDynamicArray UInt64 2) [7, 123456789012345])
    (by decide) ⟨123456789012345, by decide, by decide⟩
  have passes := @neighbours_pass _ _ 11
    (addAll (initDynamicArray UInt64 2) [7, 123456789012345]) (by decide)
  obtain ⟨some, -⟩ := marshalAndSplit_outcomes (fun _ => true) (by decide) passes
  omega

end RealMQ.SegmentOutcomes
