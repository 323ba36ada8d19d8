import RealMQ.ElementRemoval
import RealMQ.Marshalling

/- The missed message detection of dynamic_array.c. The loop deletes from the array it
   walks, from the back, always by id. missedCount is the int that is returned; acked is not
   a variable of the source, it lists the ids removed because second names them. -/
namespace RealMQ.DiffFromArrays
open CStrings DynamicArrays ElementRemoval Marshalling Slots

/-- Timestamps are in microseconds, the timeout in milliseconds; 0 means 2000. -/
def checkMessageTimeout (array : DynamicArray Message) (index : Nat) (now timeout : Int64) : Bool :=
  let timeout := if timeout = 0 then 2000 else timeout
  timeout < (now - (array.data index).timestamp) / 1000

def late (now : Int64) (msg : Message) : Bool := 2000 < (now - msg.timestamp) / 1000

/-- What the calls made at one index yield: the clock, the malloc of marshal_message and
    zmq_send_group. radio is false for a NULL radio. -/
structure Environment where
  clock : Nat → Int64
  radio : Bool
  alloc : Nat → Bool
  sent : Nat → Bool

structure DiffState where
  firstArray : DynamicArray Message
  missedCount : Nat
  resent : List Message
  acked : List UInt64

/-- One index of the loop; none where a failed resend exits the process. -/
def diffStep (env : Environment) (secondArray : DynamicArray UInt64) (i : Nat)
    (st : DiffState) : Option DiffState :=
  let msg := st.firstArray.data i
  match (removeElementById secondArray msg.id true false).1 with
  | none =>
      if checkMessageTimeout st.firstArray i (env.clock i) 0 then
        let counted := { st with missedCount := st.missedCount + 1 }
        if env.radio && decide (i < st.firstArray.size) then
          let removed :=
            { counted with firstArray := (removeElementById st.firstArray msg.id true true).2 }
          if env.alloc i then
            if env.sent i then some { removed with resent := st.resent ++ [msg] } else none
          else some removed
        else some counted
      else some st
  | some _ =>
      some { st with
        firstArray := (removeElementById st.firstArray msg.id true true).2
        acked := st.acked ++ [msg.id] }

def diffLoop (env : Environment) (secondArray : DynamicArray UInt64) :
    Nat → DiffState → Option DiffState
  | 0, st => some st
  | n + 1, st => (diffStep env secondArray n st).bind (diffLoop env secondArray n)

def diffFromArrays (env : Environment) (firstArray : DynamicArray Message)
    (secondArray : DynamicArray UInt64) : Option DiffState :=
  diffLoop env secondArray firstArray.size ⟨firstArray, 0, [], []⟩

def working (clock : Nat → Int64) : Environment := ⟨clock, true, fun _ => true, fun _ => true⟩

section Step
variable {clock : Nat → Int64} {secondArray : DynamicArray UInt64} {st : DiffState} {i : Nat}

theorem diffStep_cases (clock : Nat → Int64) (secondArray : DynamicArray UInt64)
    (bound : i < st.firstArray.size) :
    let msg := st.firstArray.data i
    let rest := (removeElementById st.firstArray msg.id true true).2
    (msg.id ∉ ids secondArray ∧ late (clock i) msg = false ∧
      diffStep (working clock) secondArray i st = some st) ∨
    (msg.id ∉ ids secondArray ∧ late (clock i) msg = true ∧
      diffStep (working clock) secondArray i st =
        some { st with firstArray := rest, missedCount := st.missedCount + 1,
                       resent := st.resent ++ [msg] }) ∨
    (msg.id ∈ ids secondArray ∧
      diffStep (working clock) secondArray i st =
        some { st with firstArray := rest, acked := st.acked ++ [msg.id] }) := by
  intro msg rest
  cases answer : (removeElementById secondArray msg.id true false).1 with
  | none =>
    have absent : msg.id ∉ ids secondArray := remove_index_none.mp answer
    cases old : late (clock i) msg with
    | false =>
      refine Or.inl ⟨absent, rfl, ?_⟩
      have young : checkMessageTimeout st.firstArray i (clock i) 0 = false := old
      simp only [diffStep, working, msg] at answer ⊢
      simp [answer, young]
    | true =>
      refine Or.inr (Or.inl ⟨absent, rfl, ?_⟩)
      have timeout : checkMessageTimeout st.firstArray i (clock i) 0 = true := old
      simp only [diffStep, working, msg, rest] at answer ⊢
      simp [answer, timeout, bound]
  | some index =>
    refine Or.inr (Or.inr ⟨remove_index_some answer, ?_⟩)
    simp only [diffStep, msg, rest] at answer ⊢
    simp [answer]

theorem mem_ids_data {α : Type} [Element α] {array : DynamicArray α} {i : Nat}
    (bound : i < array.size) : Element.msgId (array.data i) ∈ ids array :=
  mem_ids_iff.mpr ⟨i, bound, rfl⟩

theorem data_mem {α : Type} {array : DynamicArray α} {i : Nat} (bound : i < array.size) :
    array.data i ∈ toList array := mem_window.mpr ⟨i, bound, rfl⟩

theorem remove_here_perm {array : DynamicArray Message} (bound : i < array.size) :
    ((array.data i).id :: ids (removeElementById array (array.data i).id true true).2).Perm
      (ids array) :=
  ((remove_ids_perm array (array.data i).id true).cons _).trans
    (List.perm_cons_erase (mem_ids_data bound)).symm

theorem remove_here_sublist (array : DynamicArray Message) (msgId : UInt64) :
    (toList (removeElementById array msgId true true).2).Sublist (toList array) := by
  rcases remove_cases array msgId true true with ⟨-, eq⟩ | ⟨j, array', -, -, eq, -, -, list⟩
  · rw [eq]
  · rw [eq, list, if_pos rfl]
    exact List.eraseIdx_sublist ..

theorem remove_here_size {array : DynamicArray Message} (bound : i < array.size) :
    (removeElementById array (array.data i).id true true).2.size + 1 = array.size := by
  have length := (remove_here_perm bound).length_eq
  simpa using length

end Step

/-- What the loop has done to a first array: every id is kept, acknowledged or resent, and
    only ids that second does not name were resent. -/
structure Accounted (secondArray : DynamicArray UInt64) (firstArray : DynamicArray Message)
    (st : DiffState) : Prop where
  split : (ids st.firstArray ++ (st.acked ++ st.resent.map Message.id)).Perm (ids firstArray)
  order : (toList st.firstArray).Sublist (toList firstArray)
  counted : st.missedCount = st.resent.length
  named : ∀ x ∈ st.acked, x ∈ ids secondArray
  unnamed : ∀ m ∈ st.resent, m ∈ toList firstArray ∧ m.id ∉ ids secondArray
  valid : WellFormed firstArray → WellFormed st.firstArray

section Loop
variable {clock : Nat → Int64} {secondArray : DynamicArray UInt64}
  {firstArray : DynamicArray Message}

theorem accounted_start (secondArray : DynamicArray UInt64) (firstArray : DynamicArray Message) :
    Accounted secondArray firstArray ⟨firstArray, 0, [], []⟩ :=
  ⟨by simp, List.Sublist.refl _, rfl, by simp, by simp, id⟩

theorem accounted_step (clock : Nat → Int64) {st : DiffState} {i : Nat}
    (bound : i < st.firstArray.size) (so_far : Accounted secondArray firstArray st) :
    ∃ st', diffStep (working clock) secondArray i st = some st' ∧ i ≤ st'.firstArray.size ∧
      Accounted secondArray firstArray st' := by
  have size := remove_here_size bound
  have perm := remove_here_perm bound
  have order := (remove_here_sublist st.firstArray (st.firstArray.data i).id).trans so_far.order
  have valid := fun first => wellFormed_remove (st.firstArray.data i).id true true
    (so_far.valid first)
  rcases diffStep_cases clock secondArray bound with
    ⟨-, -, eq⟩ | ⟨absent, -, eq⟩ | ⟨present, eq⟩
  · exact ⟨st, eq, by omega, so_far⟩
  · refine ⟨_, eq, by dsimp only; omega, ?_, order, by simp [so_far.counted], so_far.named, ?_, valid⟩
    · refine List.Perm.trans ?_ so_far.split
      refine List.Perm.trans ?_ (perm.append_right _)
      simp only [List.map_append, List.map_singleton, ← List.append_assoc]
      exact List.perm_append_singleton _ _
    · intro m member
      rcases List.mem_append.mp member with old | new
      · exact so_far.unnamed m old
      · rw [List.mem_singleton.mp new]
        exact ⟨so_far.order.subset (data_mem bound), absent⟩
  · refine ⟨_, eq, by dsimp only; omega, ?_, order, so_far.counted, ?_, so_far.unnamed, valid⟩
    · refine List.Perm.trans ?_ so_far.split
      refine List.Perm.trans ?_ (perm.append_right _)
      simp only [List.append_assoc, List.cons_append, List.nil_append]
      rw [← List.append_assoc, ← List.append_assoc]
      exact List.perm_middle
    · intro x member
      rcases List.mem_append.mp member with old | new
      · exact so_far.named x old
      · rw [List.mem_singleton.mp new]
        exact present

theorem accounted_loop (clock : Nat → Int64) {n : Nat} {st : DiffState}
    (bound : n ≤ st.firstArray.size) (so_far : Accounted secondArray firstArray st) :
    ∃ st', diffLoop (working clock) secondArray n st = some st' ∧
      Accounted secondArray firstArray st' := by
  induction n generalizing st with
  | zero => exact ⟨st, rfl, so_far⟩
  | succ n ih =>
    obtain ⟨next, eq, room, accounted⟩ := accounted_step clock (show n < st.firstArray.size by omega) so_far
    obtain ⟨st', rest, final⟩ := ih room accounted
    exact ⟨st', by simp [diffLoop, eq, rest], final⟩

theorem diff_accounted (clock : Nat → Int64) (firstArray : DynamicArray Message)
    (secondArray : DynamicArray UInt64) :
    ∃ st, diffFromArrays (working clock) firstArray secondArray = some st ∧
      Accounted secondArray firstArray st :=
  accounted_loop clock (le_refl _) (accounted_start secondArray firstArray)

end Loop

def kept (time : Int64) (acks : List UInt64) (msg : Message) : Bool :=
  decide (msg.id ∉ acks) && !late time msg

def missed (time : Int64) (acks : List UInt64) (msg : Message) : Bool :=
  decide (msg.id ∉ acks) && late time msg

def named (acks : List UInt64) (msg : Message) : Bool := decide (msg.id ∈ acks)

section Distinct
variable {clock : Nat → Int64} {time : Message → Int64} {secondArray : DynamicArray UInt64}

theorem remove_here {array : DynamicArray Message} {i : Nat} (distinct : (ids array).Nodup)
    (bound : i < array.size) :
    toList (removeElementById array (array.data i).id true true).2 = (toList array).eraseIdx i := by
  rcases remove_cases array (array.data i).id true true with
    ⟨absent, -⟩ | ⟨j, array', inside, same, eq, -, -, list⟩
  · exact absurd (mem_ids_data bound) absent
  · have index : j = i := index_unique distinct inside bound same
    rw [eq, list, if_pos rfl, index]

theorem remove_here_front {array : DynamicArray Message} {i : Nat} (distinct : (ids array).Nodup)
    (bound : i < array.size) :
    (toList (removeElementById array (array.data i).id true true).2).take i =
      (toList array).take i := by
  rw [remove_here distinct bound]
  exact List.take_eraseIdx_eq_take_of_le _ _ _ (le_refl i)

theorem remove_here_back {array : DynamicArray Message} {i : Nat} (distinct : (ids array).Nodup)
    (bound : i < array.size) :
    (toList (removeElementById array (array.data i).id true true).2).drop i =
      (toList array).drop (i + 1) := by
  have length := toList_length array
  rw [remove_here distinct bound, List.eraseIdx_eq_take_drop_succ,
    List.drop_append_of_le_length (by simp; omega), List.drop_take]
  simp

theorem remove_here_distinct {array : DynamicArray Message} (distinct : (ids array).Nodup)
    (msgId : UInt64) : (ids (removeElementById array msgId true true).2).Nodup :=
  ((remove_here_sublist array msgId).map Element.msgId).nodup distinct

theorem list_around {array : DynamicArray Message} {n : Nat} (inside : n < array.size) :
    (toList array).take (n + 1) = (toList array).take n ++ [array.data n] ∧
      (toList array).drop n = array.data n :: (toList array).drop (n + 1) :=
  ⟨window_take_succ inside, window_drop inside⟩

theorem list_ends (array : DynamicArray Message) :
    (toList array).take array.size = toList array ∧ (toList array).drop array.size = [] :=
  ⟨List.take_of_length_le (by simp), List.drop_of_length_le (by simp)⟩

def ReadAt (clock : Nat → Int64) (time : Message → Int64) (array : DynamicArray Message) (n : Nat) :
    Prop := ∀ p ∈ ((toList array).take n).zipIdx, time p.1 = clock p.2

structure Swept (time : Message → Int64) (secondArray : DynamicArray UInt64) (n : Nat)
    (before after : DiffState) : Prop where
  list : toList after.firstArray =
    ((toList before.firstArray).take n).filter (fun m => kept (time m) (ids secondArray) m) ++
      (toList before.firstArray).drop n
  resent : after.resent = before.resent ++
    (((toList before.firstArray).take n).filter (fun m => missed (time m) (ids secondArray) m)).reverse
  acked : after.acked = before.acked ++
    ((((toList before.firstArray).take n).filter (named (ids secondArray))).map Message.id).reverse

theorem readAt_succ {array : DynamicArray Message} {n : Nat} (inside : n < array.size)
    (readings : ReadAt clock time array (n + 1)) :
    ReadAt clock time array n ∧ time (array.data n) = clock n := by
  obtain ⟨snoc, -⟩ := list_around inside
  have length : ((toList array).take n).length = n := by simp; omega
  rw [ReadAt, snoc, List.zipIdx_append, length] at readings
  refine ⟨fun p member => readings p (List.mem_append_left _ member), ?_⟩
  exact readings (array.data n, n) (by simp)

theorem swept_loop {n : Nat} {st : DiffState} (distinct : (ids st.firstArray).Nodup)
    (bound : n ≤ st.firstArray.size) (readings : ReadAt clock time st.firstArray n) :
    ∃ st', diffLoop (working clock) secondArray n st = some st' ∧
      Swept time secondArray n st st' := by
  induction n generalizing st with
  | zero => exact ⟨st, rfl, by simp, by simp, by simp⟩
  | succ n ih =>
    have inside : n < st.firstArray.size := by omega
    have size := remove_here_size inside
    have front := remove_here_front distinct inside
    have back := remove_here_back distinct inside
    obtain ⟨earlier, reading⟩ := readAt_succ inside readings
    obtain ⟨snoc, cons⟩ := list_around inside
    have fewer := remove_here_distinct distinct (st.firstArray.data n).id
    have removed : ∀ st₁ : DiffState, st₁.firstArray =
        (removeElementById st.firstArray (st.firstArray.data n).id true true).2 →
        ∃ st', diffLoop (working clock) secondArray n st₁ = some st' ∧
          Swept time secondArray n st₁ st' := by
      intro st₁ eq
      exact ih (eq ▸ fewer) (by rw [eq]; omega) (by rw [ReadAt, eq, front]; exact earlier)
    rcases diffStep_cases clock secondArray inside with
      ⟨absent, young, eq⟩ | ⟨absent, old, eq⟩ | ⟨present, eq⟩
    · obtain ⟨st', run, rest⟩ := ih distinct (by omega) earlier
      refine ⟨st', by simp [diffLoop, eq, run], ?_, ?_, ?_⟩
      · rw [rest.list, cons, snoc]; simp [kept, absent, young, reading]
      · rw [rest.resent, snoc]; simp [missed, absent, young, reading]
      · rw [rest.acked, snoc]; simp [named, absent]
    · obtain ⟨st', run, rest⟩ := removed ⟨_, st.missedCount + 1, st.resent ++ [_], st.acked⟩ rfl
      refine ⟨st', by simp only [diffLoop, eq]; exact run, ?_, ?_, ?_⟩
      · rw [rest.list, front, back, snoc]; simp [kept, absent, old, reading]
      · rw [rest.resent, front, snoc]; simp [missed, absent, old, reading]
      · rw [rest.acked, front, snoc]; simp [named, absent]
    · obtain ⟨st', run, rest⟩ := removed ⟨_, st.missedCount, st.resent, st.acked ++ [_]⟩ rfl
      refine ⟨st', by simp only [diffLoop, eq]; exact run, ?_, ?_, ?_⟩
      · rw [rest.list, front, back, snoc]; simp [kept, present]
      · rw [rest.resent, front, snoc]; simp [missed, present]
      · rw [rest.acked, front, snoc]; simp [named, present]

theorem diff_distinct (clock : Nat → Int64) (time : Message → Int64)
    {firstArray : DynamicArray Message} (secondArray : DynamicArray UInt64)
    (distinct : (ids firstArray).Nodup) (readings : ReadAt clock time firstArray firstArray.size) :
    ∃ st, diffFromArrays (working clock) firstArray secondArray = some st ∧
      toList st.firstArray = (toList firstArray).filter (fun m => kept (time m) (ids secondArray) m) ∧
      st.resent =
        ((toList firstArray).filter (fun m => missed (time m) (ids secondArray) m)).reverse ∧
      st.missedCount = st.resent.length := by
  obtain ⟨st, run, swept⟩ := @swept_loop clock time secondArray firstArray.size
    ⟨firstArray, 0, [], []⟩ distinct (le_refl _) readings
  obtain ⟨st₂, run₂, accounted⟩ := diff_accounted clock firstArray secondArray
  have same : st₂ = st := Option.some.inj (run₂.symm.trans run)
  subst same
  obtain ⟨whole, nothing⟩ := list_ends firstArray
  have list := swept.list
  have resent := swept.resent
  dsimp only at list resent
  rw [whole, nothing, List.append_nil] at list
  rw [whole, List.nil_append] at resent
  exact ⟨st₂, run, list, resent, accounted.counted⟩

theorem readAt_index {firstArray : DynamicArray Message} (distinct : (ids firstArray).Nodup)
    (clock : Nat → Int64) :
    ReadAt clock (fun m => clock ((ids firstArray).idxOf m.id)) firstArray firstArray.size := by
  rintro ⟨m, i⟩ member
  rw [List.take_of_length_le (by simp), List.mk_mem_zipIdx_iff_getElem?] at member
  obtain ⟨bound, rfl⟩ := List.getElem?_eq_some_iff.mp member
  have index := distinct.idxOf_getElem i (by simpa using bound)
  simp only [ids, List.getElem_map] at index
  exact congrArg clock index

theorem readings_exist {firstArray : DynamicArray Message} (distinct : (ids firstArray).Nodup)
    (clock : Nat → Int64) : ∃ time, ReadAt clock time firstArray firstArray.size :=
  ⟨_, readAt_index distinct clock⟩

theorem diff_removes_named {firstArray : DynamicArray Message} {st : DiffState} {x : UInt64}
    (distinct : (ids firstArray).Nodup)
    (run : diffFromArrays (working clock) firstArray secondArray = some st)
    (member : x ∈ ids secondArray) : x ∉ ids st.firstArray := by
  obtain ⟨time, readings⟩ := readings_exist distinct clock
  obtain ⟨st', run', list, -, -⟩ := diff_distinct clock time secondArray distinct readings
  have same : st' = st := Option.some.inj (run'.symm.trans run)
  subst same
  intro left
  obtain ⟨m, inside, rfl⟩ := List.mem_map.mp left
  rw [list] at inside
  have absent := (List.mem_filter.mp inside).2
  simp only [kept, Bool.and_eq_true, decide_eq_true_eq] at absent
  exact absent.1 member

end Distinct

end RealMQ.DiffFromArrays
