import RealMQ.DiffFromArrays

/- diff_from_arrays as three filters of the first array, for a clock that stands still, with
   a radio and without one. late is the integer comparison; the second array is carried
   through the loop as every search in it leaves it. -/
namespace RealMQ.DiffSpecification
open CStrings DynamicArrays ElementRemoval Marshalling DiffFromArrays Slots

/-- (now - timestamp) / 1000 > 2000, with the truncating division of C. -/
def overdue (now : Int64) (msg : Message) : Bool :=
  decide (2000 < (now.toInt - msg.timestamp.toInt).tdiv 1000)

theorem late_eq_overdue {now : Int64} {msg : Message}
    (exact : (now - msg.timestamp).toInt = now.toInt - msg.timestamp.toInt) :
    late now msg = overdue now msg := by
  unfold late overdue
  rw [Bool.eq_iff_iff, decide_eq_true_iff, decide_eq_true_iff, Int64.lt_iff_toInt_lt,
    Int64.toInt_div_of_ne_right _ _ (by decide), exact]
  rfl

def diffLoopBoth (env : Environment) :
    Nat → DynamicArray UInt64 → DiffState → Option (DynamicArray UInt64 × DiffState)
  | 0, secondArray, st => some (secondArray, st)
  | n + 1, secondArray, st =>
      let msg := st.firstArray.data n
      (diffStep env secondArray n st).bind
        (diffLoopBoth env n (removeElementById secondArray msg.id true false).2)

def diffFromArraysBoth (env : Environment) (firstArray : DynamicArray Message)
    (secondArray : DynamicArray UInt64) : Option (DynamicArray UInt64 × DiffState) :=
  diffLoopBoth env firstArray.size secondArray ⟨firstArray, 0, [], []⟩

theorem diffLoopBoth_eq (env : Environment) (n : Nat) (secondArray : DynamicArray UInt64)
    (st : DiffState) :
    diffLoopBoth env n secondArray st =
      (diffLoop env secondArray n st).map fun final => (secondArray, final) := by
  induction n generalizing st with
  | zero => rfl
  | succ n ih =>
    simp only [diffLoopBoth, diffLoop, remove_keeps secondArray _ true false (Or.inl rfl)]
    cases diffStep env secondArray n st with
    | none => rfl
    | some next => exact ih next

theorem diffFromArraysBoth_some {env : Environment} {firstArray : DynamicArray Message}
    {secondArray : DynamicArray UInt64} {st : DiffState}
    (run : diffFromArrays env firstArray secondArray = some st) :
    diffFromArraysBoth env firstArray secondArray = some (secondArray, st) := by
  unfold diffFromArrays at run
  rw [diffFromArraysBoth, diffLoopBoth_eq, run, Option.map_some]

theorem filter_unnamed {list : List Message} {acks : List UInt64} {outcome rest : Message → Bool}
    (asks : ∀ msg ∈ list, outcome msg = (decide (msg.id ∉ acks) && rest msg)) :
    list.filter outcome = (list.filter fun msg => decide (msg.id ∉ acks)).filter rest := by
  rw [List.filter_filter]
  apply List.filter_congr
  intro msg member
  rw [asks msg member, Bool.and_comm]

def withoutRadio (now : Int64) (alloc sent : Nat → Bool) : Environment :=
  ⟨fun _ => now, false, alloc, sent⟩

section WithoutRadio
variable {now : Int64} {alloc sent : Nat → Bool} {secondArray : DynamicArray UInt64}

theorem diffStep_without_radio (st : DiffState) (i : Nat) :
    let msg := st.firstArray.data i
    (msg.id ∉ ids secondArray ∧ diffStep (withoutRadio now alloc sent) secondArray i st =
      some { st with missedCount := st.missedCount + (late now msg).toNat }) ∨
    (msg.id ∈ ids secondArray ∧ diffStep (withoutRadio now alloc sent) secondArray i st =
      some { st with firstArray := (removeElementById st.firstArray msg.id true true).2,
                     acked := st.acked ++ [msg.id] }) := by
  intro msg
  cases answer : (removeElementById secondArray msg.id true false).1 with
  | none =>
    refine Or.inl ⟨remove_index_none.mp answer, ?_⟩
    have timeout : checkMessageTimeout st.firstArray i now 0 = late now msg := rfl
    simp only [diffStep, withoutRadio, msg] at answer timeout ⊢
    rw [answer]
    cases old : late now (st.firstArray.data i) <;> simp [timeout, old]
  | some index =>
    refine Or.inr ⟨remove_index_some answer, ?_⟩
    simp only [diffStep, msg] at answer ⊢
    rw [answer]

theorem swept_without_radio {n : Nat} {st : DiffState} (distinct : (ids st.firstArray).Nodup)
    (bound : n ≤ st.firstArray.size) :
    ∃ st', diffLoop (withoutRadio now alloc sent) secondArray n st = some st' ∧
      toList st'.firstArray =
        ((toList st.firstArray).take n).filter (fun m => !named (ids secondArray) m) ++
          (toList st.firstArray).drop n ∧
      st'.resent = st.resent ∧
      st'.missedCount = st.missedCount +
        (((toList st.firstArray).take n).filter (missed now (ids secondArray))).length := by
  induction n generalizing st with
  | zero => exact ⟨st, rfl, by simp, rfl, by simp⟩
  | succ n ih =>
    have inside : n < st.firstArray.size := by omega
    have size := remove_here_size inside
    have front := remove_here_front distinct inside
    have back := remove_here_back distinct inside
    obtain ⟨snoc, cons⟩ := list_around inside
    rcases @diffStep_without_radio now alloc sent secondArray st n with ⟨absent, eq⟩ | ⟨present, eq⟩
    · obtain ⟨st', run, list, resent, count⟩ :=
        @ih { st with missedCount := st.missedCount + (late now (st.firstArray.data n)).toNat }
          distinct (by dsimp only; omega)
      refine ⟨st', by simp only [diffLoop, eq]; exact run, ?_, resent, ?_⟩
      · rw [list, cons, snoc]; simp [named, absent]
      · rw [count, snoc, List.filter_append, List.length_append]
        cases old : late now (st.firstArray.data n) <;> simp [missed, absent, old]; omega
    · have fewer := remove_here_distinct distinct (st.firstArray.data n).id
      obtain ⟨st', run, list, resent, count⟩ :=
        @ih { st with firstArray := (removeElementById st.firstArray (st.firstArray.data n).id true true).2,
                      acked := st.acked ++ [(st.firstArray.data n).id] } fewer (by dsimp only; omega)
      refine ⟨st', by simp only [diffLoop, eq]; exact run, ?_, resent, ?_⟩
      · rw [list, front, back, snoc]; simp [named, present]
      · rw [count, front, snoc]; simp [missed, present]

end WithoutRadio

theorem diff_without_radio (now : Int64) (alloc sent : Nat → Bool)
    {firstArray : DynamicArray Message} (secondArray : DynamicArray UInt64)
    (distinct : (ids firstArray).Nodup) :
    ∃ st, diffFromArrays (withoutRadio now alloc sent) firstArray secondArray = some st ∧
      toList st.firstArray = (toList firstArray).filter (fun m => !named (ids secondArray) m) ∧
      st.resent = [] ∧
      st.missedCount = ((toList firstArray).filter (missed now (ids secondArray))).length := by
  obtain ⟨st, run, list, resent, count⟩ := @swept_without_radio now alloc sent secondArray
    firstArray.size ⟨firstArray, 0, [], []⟩ distinct (le_refl _)
  obtain ⟨whole, nothing⟩ := list_ends firstArray
  dsimp only at list resent count
  rw [whole, nothing, List.append_nil] at list
  rw [whole, Nat.zero_add] at count
  exact ⟨st, run, list, resent, count⟩

/-- With a radio the late messages that second does not name are resent and dropped, without
    one they are only counted. -/
theorem diff_from_arrays_exact (now : Int64) (firstArray : DynamicArray Message)
    (secondArray : DynamicArray UInt64) (few : firstArray.size < 2 ^ 31)
    (distinct : (ids firstArray).Nodup)
    (exact : ∀ msg ∈ toList firstArray,
      (now - msg.timestamp).toInt = now.toInt - msg.timestamp.toInt) :
    let unnamed := (toList firstArray).filter fun msg => decide (msg.id ∉ ids secondArray)
    let gone := unnamed.filter (overdue now)
    gone.length < 2 ^ 31 ∧
    (∃ st, diffFromArraysBoth (working fun _ => now) firstArray secondArray =
        some (secondArray, st) ∧
      toList st.firstArray = unnamed.filter (fun msg => !overdue now msg) ∧
      st.resent.map marshalMessage = (gone.map marshalMessage).reverse ∧
      st.missedCount = gone.length) ∧
    ∀ alloc sent, ∃ st,
      diffFromArraysBoth (withoutRadio now alloc sent) firstArray secondArray =
        some (secondArray, st) ∧
      toList st.firstArray = unnamed ∧ st.resent = [] ∧ st.missedCount = gone.length := by
  intro unnamed gone
  have same : ∀ msg ∈ toList firstArray, late now msg = overdue now msg :=
    fun msg member => late_eq_overdue (exact msg member)
  have left : (toList firstArray).filter (kept now (ids secondArray)) =
      unnamed.filter fun msg => !overdue now msg := by
    apply filter_unnamed
    intro msg member
    rw [kept, same msg member]
  have lost : (toList firstArray).filter (missed now (ids secondArray)) = gone := by
    apply filter_unnamed
    intro msg member
    rw [missed, same msg member]
  have notNamed : (toList firstArray).filter (fun m => !named (ids secondArray) m) = unnamed := by
    apply List.filter_congr
    intro msg _
    simp [named]
  refine ⟨?_, ?_, ?_⟩
  · have fewer : gone.length ≤ (toList firstArray).length :=
      (List.length_filter_le _ _).trans (List.length_filter_le _ _)
    rw [toList_length] at fewer
    omega
  · obtain ⟨st, run, list, resent, count⟩ :=
      diff_distinct (fun _ => now) (fun _ => now) secondArray distinct (fun _ _ => rfl)
    refine ⟨st, diffFromArraysBoth_some run, list.trans left, ?_, ?_⟩
    · rw [resent, lost, List.map_reverse]
    · rw [count, resent, lost, List.length_reverse]
  · intro alloc sent
    obtain ⟨st, run, list, resent, count⟩ := diff_without_radio now alloc sent secondArray distinct
    exact ⟨st, diffFromArraysBoth_some run, list.trans notNamed, resent, by rw [count, lost]⟩

def threePending : DynamicArray Message :=
  addAll (initDynamicArray Message 2)
    [⟨1, some "a".toList, 0⟩, ⟨2, some "b".toList, 0⟩, ⟨3, some "c".toList, 4000000⟩]

def secondNamed : DynamicArray UInt64 := addAll (initDynamicArray UInt64 2) [7, 2, 7]

theorem diff_from_arrays_exact_three :
    let unnamed := (toList threePending).filter fun msg => decide (msg.id ∉ ids secondNamed)
    let gone := unnamed.filter (overdue 5000000)
    gone.length < 2 ^ 31 ∧
    (∃ st, diffFromArraysBoth (working fun _ => 5000000) threePending secondNamed =
        some (secondNamed, st) ∧
      toList st.firstArray = unnamed.filter (fun msg => !overdue 5000000 msg) ∧
      st.resent.map marshalMessage = (gone.map marshalMessage).reverse ∧
      st.missedCount = gone.length) ∧
    ∀ alloc sent, ∃ st,
      diffFromArraysBoth (withoutRadio 5000000 alloc sent) threePending secondNamed =
        some (secondNamed, st) ∧
      toList st.firstArray = unnamed ∧ st.resent = [] ∧ st.missedCount = gone.length :=
  diff_from_arrays_exact 5000000 threePending secondNamed (by decide) (by decide) (by decide)

end RealMQ.DiffSpecification
