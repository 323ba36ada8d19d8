import RealMQ.ArrayOwnership
import RealMQ.AckOutcomes

/- The memory of common/qos/buffer_segments.c and of send_ids. The k-th malloc of a call succeeds
   when alloc k does; a write outside a segment or its table, a read of what was not written and a
   second free have no result. -/
namespace RealMQ.SegmentMemory
open AckOutcomes BufferSegments CStrings DynamicArrays ElementMemory Heaps Marshalling NextFit
open SegmentOutcomes ServerThread Slots

structure SegmentObject where
  data : Pointer
  size : Nat

structure SegmentArrayObject where
  segments : Pointer
  entries : List SegmentObject
  count : Nat

structure SplitObject where
  memory : Memory
  entries : List SegmentObject
  currentSegment : Pointer
  currentSize : Nat

def blank : List Cell := [.unset, .unset]

def writeText (maxSegmentSize : Nat) (memory : Memory) (pointer : Pointer) (text : CString) :
    Option Memory :=
  if text.length ≤ maxSegmentSize then
    pointer.bind fun p => (memory.block p).map fun _ => alter memory p (some (textCells text))
  else none

def written (st : SplitObject) : Option CString :=
  if 0 < st.currentSize then (textAt st.memory st.currentSegment).map (·.take st.currentSize)
  else some []

def closeSegment (maxSegmentSize tableSize : Nat) (segments : Pointer) (st : SplitObject) :
    Option SplitObject :=
  (written st).bind fun text =>
  (writeText maxSegmentSize st.memory st.currentSegment text).bind fun memory =>
  (cells memory segments).bind fun _ =>
    if st.entries.length < tableSize then
      some { st with
        memory := memory
        entries := st.entries ++ [⟨st.currentSegment, st.currentSize⟩] }
    else none

def addToken (maxSegmentSize : Nat) (st : SplitObject) (token : CString) : Option SplitObject :=
  (written st).bind fun text =>
    let longer := if 0 < st.currentSize then text ++ '|' :: token else token
    (writeText maxSegmentSize st.memory st.currentSegment longer).map fun memory =>
      { st with memory := memory, currentSize := longer.length }

/-- The first n entries; one that was not written has no pointer to free. -/
def freeEntries (memory : Memory) (entries : List SegmentObject) (n : Nat) : Option Memory :=
  forLoop (fun i memory => entries[i]?.bind fun entry => free memory entry.data) n memory

/-- error for the return after a failed malloc, when everything has been freed. -/
def splitTokens (maxSegmentSize tableSize : Nat) (alloc : Nat → Bool) (buffer segments : Pointer) :
    List CString → SplitObject → Option (Except Memory SplitObject)
  | [], st => some (.ok st)
  | token :: tokens, st =>
      (cells st.memory buffer).bind fun _ =>
      if maxSegmentSize < st.currentSize + token.length + (if 0 < st.currentSize then 1 else 0) then
        (closeSegment maxSegmentSize tableSize segments st).bind fun closed =>
          if alloc (closed.entries.length + 1) then
            (addToken maxSegmentSize
              ⟨allocate closed.memory blank, closed.entries, some closed.memory.next, 0⟩ token).bind
              (splitTokens maxSegmentSize tableSize alloc buffer segments tokens)
          else
            (freeEntries closed.memory closed.entries closed.entries.length).bind fun memory =>
            (free memory segments).map .error
      else
        (addToken maxSegmentSize st token).bind
          (splitTokens maxSegmentSize tableSize alloc buffer segments tokens)

def finishSplit (maxSegmentSize tableSize : Nat) (segments : Pointer) (st : SplitObject) :
    Option (Memory × SegmentArrayObject) :=
  if 0 < st.currentSize then
    (closeSegment maxSegmentSize tableSize segments st).map fun last =>
      (last.memory, ⟨segments, last.entries, st.entries.length + 1⟩)
  else
    (free st.memory st.currentSegment).map fun memory =>
      (memory, ⟨segments, st.entries, st.entries.length + 1⟩)

/-- After a failed malloc of a segment the count is 0, but segments still points to the table. -/
def splitBuffer (maxSegmentSize : Nat) (alloc : Nat → Bool) (memory : Memory) (buffer : Pointer) :
    Option (Memory × SegmentArrayObject) :=
  (textAt memory buffer).bind fun text =>
    let delimiters := text.count '|'
    let segmentCount :=
      if 0 < text.length ∧ text.getLast? ≠ some '|' then delimiters + 1 else delimiters
    if maxSegmentSize < text.length ∧ delimiters = 0 then some (memory, ⟨none, [], 0⟩)
    else if alloc 0 then
      let segments := some memory.next
      let memory := allocate memory []
      if alloc 1 then
        (splitTokens maxSegmentSize segmentCount alloc buffer segments (strtok '|' text)
          ⟨allocate memory blank, [], some memory.next, 0⟩).bind fun
          | .error memory => some (memory, ⟨segments, [], 0⟩)
          | .ok st => finishSplit maxSegmentSize segmentCount segments st
      else (free memory segments).map fun memory => (memory, ⟨segments, [], 0⟩)
    else some (memory, ⟨none, [], 0⟩)

def marshalAndSplit (maxSegmentSize : Nat) (alloc : Nat → Bool) (memory : Memory)
    (array : ArrayObject) : Option (Memory × SegmentArrayObject) :=
  (readArray sizeofUint64 memory array).bind fun values =>
    match marshalUint64Array (alloc 0) values with
    | none => some (memory, ⟨none, [], 0⟩)
    | some text =>
        let buffer := some memory.next
        (splitBuffer maxSegmentSize (fun k => alloc (k + 1)) (allocate memory (textCells text))
          buffer).bind fun (memory, result) =>
        (free memory buffer).map fun memory => (memory, result)

def freeSegmentArray (memory : Memory) (segmentArray : SegmentArrayObject) : Option Memory :=
  (freeEntries memory segmentArray.entries segmentArray.count).bind fun memory =>
    free memory segmentArray.segments

def sendIds (alloc : Nat → Bool) (memory : Memory) (gArray : ArrayObject) :
    Option (List CString × Memory × ArrayObject) :=
  (marshalAndSplit shippedSegmentSize alloc memory gArray).bind fun (memory, segmentsArray) =>
  ((List.range segmentsArray.count).mapM fun i =>
    segmentsArray.entries[i]?.bind fun entry => textAt memory entry.data).bind fun texts =>
  (freeSegmentArray memory segmentsArray).bind fun memory =>
  (cleanAllElements sizeofUint64 memory gArray).map fun (memory, gArray) =>
    (if segmentsArray.count = 0 then texts ++ [wakeup] else texts, memory, gArray)

abbrev Entry := Nat × List UInt64

def entryOf (entry : Entry) : SegmentObject := ⟨some entry.1, (joinIds entry.2).length⟩

def entryBlock (entry : Entry) : Blocks := {(entry.1, textCells (joinIds entry.2))}

/-- The state of the token loop; rest are the blocks that it does not write. -/
structure Building (st : SplitObject) (entries : List Entry) (p : Nat) (current : List UInt64)
    (rest : Blocks) : Prop where
  filled : st.entries = entries.map entryOf
  pointer : st.currentSegment = some p
  size : st.currentSize = (joinIds current).length
  owns : Owns st.memory ({(p, textCells (joinIds current))} + ((entries.map entryBlock).sum + rest))

section Steps
variable {maxSegmentSize tableSize : Nat} {memory : Memory} {st : SplitObject}
  {entries : List Entry} {p q : Nat} {current : List UInt64} {x : UInt64} {rest : Blocks}
  {content : List Cell}

theorem writeText_owned {text : CString} (owns : Owns memory ({(p, content)} + rest))
    (room : text.length ≤ maxSegmentSize) :
    ∃ after, writeText maxSegmentSize memory (some p) text = some after ∧
      Owns after ({(p, textCells text)} + rest) := by
  refine ⟨_, ?_, owns_alter owns (textCells text)⟩
  unfold writeText
  rw [if_pos room, Option.bind_some, owned_block owns, Option.map_some]

theorem written_building (building : Building st entries p current rest) (nonempty : current ≠ []) :
    written st = some (joinIds current) := by
  have positive := joinIds_length_pos nonempty
  unfold written
  rw [building.size, if_pos positive, building.pointer, textAt_owned building.owns]
  exact congrArg some (List.take_length ..)

theorem addToken_more (building : Building st entries p current rest) (nonempty : current ≠ [])
    (room : fits maxSegmentSize (current ++ [x]) = true) :
    ∃ after, addToken maxSegmentSize st (idText x) = some after ∧
      Building after entries p (current ++ [x]) rest := by
  have positive := joinIds_length_pos nonempty
  have text := joinIds_snoc nonempty x
  simp only [fits, decide_eq_true_eq, text] at room
  obtain ⟨memory, stored, owned⟩ := writeText_owned building.owns room
  refine ⟨{ st with
    memory := memory
    currentSize := (joinIds current ++ '|' :: idText x).length }, ?_,
    building.filled, building.pointer, by rw [text], ?_⟩
  · unfold addToken
    rw [written_building building nonempty, Option.bind_some, building.size, if_pos positive,
      building.pointer]
    dsimp only
    rw [stored, Option.map_some]
  · rw [text]
    exact owned

theorem addToken_first (owns : Owns memory rest) (segments : List SegmentObject)
    (room : (idText x).length ≤ maxSegmentSize) :
    ∃ after, addToken maxSegmentSize ⟨allocate memory blank, segments, some memory.next, 0⟩
        (idText x) = some ⟨after, segments, some memory.next, (joinIds [x]).length⟩ ∧
      Owns after (entryBlock (memory.next, [x]) + rest) := by
  have made : Owns (allocate memory blank) ({(memory.next, blank)} + rest) := owns_allocate owns
  obtain ⟨after, stored, owned⟩ := writeText_owned made room
  refine ⟨after, ?_, by rwa [entryBlock, joinIds_singleton]⟩
  unfold addToken written
  simp only [Nat.lt_irrefl, if_false, Option.bind_some, stored, Option.map_some, joinIds_singleton]

theorem closeSegment_owned (building : Building st entries p current rest)
    (nonempty : current ≠ []) (room : fits maxSegmentSize current = true)
    (live : (q, content) ∈ rest) (table : entries.length < tableSize) :
    ∃ closed, closeSegment maxSegmentSize tableSize (some q) st = some closed ∧
      closed.entries = (entries ++ [(p, current)]).map entryOf ∧
      Owns closed.memory (((entries ++ [(p, current)]).map entryBlock).sum + rest) := by
  simp only [fits, decide_eq_true_eq] at room
  obtain ⟨memory, stored, owned⟩ := writeText_owned building.owns room
  have there : cells memory (some q) = some content := by
    apply owned_member owned
    exact Multiset.mem_add.mpr (Or.inr (Multiset.mem_add.mpr (Or.inr live)))
  refine ⟨{ st with
    memory := memory
    entries := st.entries ++ [⟨st.currentSegment, st.currentSize⟩] }, ?_, ?_, ?_⟩
  · unfold closeSegment
    rw [written_building building nonempty, Option.bind_some, building.pointer, stored,
      Option.bind_some, there, Option.bind_some, building.filled, List.length_map, if_pos table]
  · simp only [building.filled, building.pointer, building.size, List.map_append, List.map_singleton]
    rfl
  · rw [List.map_append, List.sum_append, List.map_singleton, List.sum_singleton]
    convert owned using 1
    show (entries.map entryBlock).sum + {(p, textCells (joinIds current))} + rest = _
    abel

theorem freeEntries_owned (owns : Owns memory ((entries.map entryBlock).sum + rest)) :
    ∃ after, freeEntries memory (entries.map entryOf) entries.length = some after ∧
      Owns after rest := by
  have each : ∀ (k : Nat) (share : Blocks), (entries.map entryBlock)[k]? = some share →
      ∀ (heap : Memory) (frame : Blocks), Owns heap (share + frame) →
        ∃ after, ((entries.map entryOf)[k]?.bind fun entry => free heap entry.data) = some after ∧
          Owns after frame := by
    intro k share here heap frame owned
    rw [List.getElem?_map] at here ⊢
    obtain ⟨entry, found, rfl⟩ := Option.map_eq_some_iff.mp here
    rw [found, Option.map_some, Option.bind_some]
    exact owns_free owned
  obtain ⟨after, freed, owned⟩ := owns_loop each owns
  rw [List.length_map] at freed
  exact ⟨after, freed, owned⟩

end Steps

theorem succeed_cons {alloc : Nat → Bool} {first last : Nat} (some : first < last) :
    Succeed alloc first last ↔ alloc first = true ∧ Succeed alloc (first + 1) last := by
  constructor
  · intro succeed
    exact ⟨succeed first le_rfl some, fun k low high => succeed k (by omega) high⟩
  · rintro ⟨here, later⟩ k low high
    rcases Nat.lt_or_eq_of_le low with further | rfl
    · exact later k further high
    · exact here

def Packed (memory : Memory) (result : SegmentArrayObject) (groups : List (List UInt64))
    (rest : Blocks) : Prop :=
  ∃ table, ∃ entries : List Entry,
    result = ⟨some table, entries.map entryOf, entries.length⟩ ∧ entries.map Prod.snd = groups ∧
      Owns memory ((entries.map entryBlock).sum + ({(table, [])} + rest))

def Dangling (memory : Memory) (result : SegmentArrayObject) (rest : Blocks) : Prop :=
  ∃ table, result = ⟨some table, [], 0⟩ ∧ memory.block table = none ∧ Owns memory rest

def SplitOutcome (alloc : Nat → Bool) (n : Nat) (memory : Memory) (result : SegmentArrayObject)
    (groups : List (List UInt64)) (rest : Blocks) : Prop :=
  (alloc 0 = false ∧ result = ⟨none, [], 0⟩ ∧ Owns memory rest) ∨
  (Succeed alloc 0 n ∧ Packed memory result groups rest) ∨
  (alloc 0 = true ∧ ¬ Succeed alloc 0 n ∧ Dangling memory result rest)

section Split
variable {maxSegmentSize tableSize : Nat} {alloc : Nat → Bool} {memory : Memory}
  {kept frame : Blocks} {q b : Nat} {content : List Cell}

theorem splitTokens_owned {list : List UInt64} {st : SplitObject} {entries : List Entry} {p : Nat}
    {current : List UInt64} (nonempty : current ≠ []) (room : fits maxSegmentSize current = true)
    (single : ∀ x ∈ list, (idText x).length ≤ maxSegmentSize)
    (table : entries.length + (nextFit (fits maxSegmentSize) current list).length ≤ tableSize)
    (buffer : (b, content) ∈ kept) (building : Building st entries p current ({(q, [])} + kept)) :
    let last := entries.length + (nextFit (fits maxSegmentSize) current list).length + 1
    (Succeed alloc (entries.length + 2) last → ∃ after filled p' group,
      splitTokens maxSegmentSize tableSize alloc (some b) (some q) (list.map idText) st =
        some (.ok after) ∧ group ≠ [] ∧ fits maxSegmentSize group = true ∧
      filled.map Prod.snd ++ [group] =
        entries.map Prod.snd ++ nextFit (fits maxSegmentSize) current list ∧
      Building after filled p' group ({(q, [])} + kept)) ∧
    (¬ Succeed alloc (entries.length + 2) last → ∃ after,
      splitTokens maxSegmentSize tableSize alloc (some b) (some q) (list.map idText) st =
        some (.error after) ∧ Owns after kept ∧ after.block q = none) := by
  induction list generalizing st entries p current with
  | nil =>
    refine ⟨fun _ => ⟨st, entries, p, current, rfl, nonempty, room, rfl, building⟩, ?_⟩
    intro fails
    exact absurd (fun k low high => absurd high (Nat.not_lt.mpr low)) fails
  | cons x list ih =>
    have positive := joinIds_length_pos nonempty
    have text := joinIds_snoc nonempty x
    have later : ∀ y ∈ list, (idText y).length ≤ maxSegmentSize :=
      fun y member => single y (List.mem_cons_of_mem x member)
    have live : cells st.memory (some b) = some content := by
      apply owned_member building.owns
      simp only [Multiset.mem_add]
      exact Or.inr (Or.inr (Or.inr buffer))
    have known : fits maxSegmentSize (current ++ [x]) = true ↔
        (joinIds current).length + (idText x).length + 1 ≤ maxSegmentSize := by
      simp only [fits, decide_eq_true_eq, text, List.length_append, List.length_cons]
      omega
    simp only [nextFit, List.map_cons, splitTokens, live, Option.bind_some, building.size, positive,
      if_true] at table ⊢
    by_cases more : fits maxSegmentSize (current ++ [x]) = true
    · obtain ⟨next, added, longer⟩ := addToken_more building nonempty more
      rw [if_pos more] at table ⊢
      rw [if_neg (Nat.not_lt.mpr (known.mp more)), added, Option.bind_some]
      exact ih (by simp) more later table longer
    · rw [if_neg more] at table ⊢
      rw [known, Nat.not_le] at more
      rw [if_pos more]
      simp only [List.length_cons] at table ⊢
      obtain ⟨closed, finished, filled, owned⟩ := closeSegment_owned building nonempty room
        (Multiset.mem_add.mpr (Or.inl (Multiset.mem_singleton_self _))) (show _ < tableSize by omega)
      have count : closed.entries.length = entries.length + 1 := by
        rw [filled, List.length_map, List.length_append, List.length_singleton]
      have some := List.length_pos_iff.mpr (@nextFit_ne_nil _ (fits maxSegmentSize) [x] list)
      rw [finished, Option.bind_some, count, succeed_cons (by omega)]
      by_cases allocated : alloc (entries.length + 2) = true
      · obtain ⟨next, added, first⟩ :=
          addToken_first owned closed.entries (single x List.mem_cons_self)
        have fresh : Building ⟨next, closed.entries, Option.some closed.memory.next,
            (joinIds [x]).length⟩ (entries ++ [(p, current)]) closed.memory.next [x]
            ({(q, [])} + kept) := ⟨filled, rfl, rfl, first⟩
        have small : fits maxSegmentSize [x] = true := by
          simpa [fits] using single x List.mem_cons_self
        obtain ⟨good, bad⟩ := ih (List.cons_ne_nil x []) small later
          (by rw [List.length_append, List.length_singleton]; omega) fresh
        simp only [List.length_append, List.length_singleton, List.map_append, List.map_singleton,
          List.append_assoc, List.singleton_append] at good bad
        have start : entries.length + 2 + 1 = entries.length + 1 + 2 := by omega
        have stop : entries.length + ((nextFit (fits maxSegmentSize) [x] list).length + 1) + 1 =
          entries.length + 1 + (nextFit (fits maxSegmentSize) [x] list).length + 1 := by omega
        rw [if_pos allocated, added, Option.bind_some, start, stop]
        exact ⟨fun succeed => good succeed.2, fun fails => bad fun succeed => fails ⟨allocated, succeed⟩⟩
      · obtain ⟨freed, emptied, owns⟩ := freeEntries_owned owned
        obtain ⟨after, released, left⟩ := owns_free owns
        rw [if_neg allocated]
        refine ⟨fun succeed => absurd succeed.1 allocated, fun _ => ⟨after, ?_, left, freed_dead released⟩⟩
        rw [← count, filled, List.length_map, emptied, Option.bind_some, released, Option.map_some]

theorem finishSplit_owned {st : SplitObject} {entries : List Entry} {p : Nat}
    {group : List UInt64} (nonempty : group ≠ []) (room : fits maxSegmentSize group = true)
    (table : entries.length < tableSize) (building : Building st entries p group ({(q, [])} + kept)) :
    ∃ after, finishSplit maxSegmentSize tableSize (some q) st =
        some (after, ⟨some q, (entries ++ [(p, group)]).map entryOf, entries.length + 1⟩) ∧
      Owns after (((entries ++ [(p, group)]).map entryBlock).sum + ({(q, [])} + kept)) := by
  have positive := joinIds_length_pos nonempty
  obtain ⟨closed, finished, filled, owned⟩ := closeSegment_owned building nonempty room
    (Multiset.mem_add.mpr (Or.inl (Multiset.mem_singleton_self _))) table
  refine ⟨closed.memory, ?_, owned⟩
  unfold finishSplit
  rw [building.size, if_pos positive, finished, Option.map_some, filled, building.filled,
    List.length_map]

theorem packed_tokens {x : UInt64} {list : List UInt64}
    (single : ∀ y ∈ x :: list, (idText y).length ≤ maxSegmentSize)
    (buffer : (b, content) ∈ kept) (owns : Owns memory ({(q, [])} + kept)) :
    let groups := pack (fits maxSegmentSize) (x :: list)
    let split := splitTokens maxSegmentSize (x :: list).length alloc (some b) (some q)
      ((x :: list).map idText) ⟨allocate memory blank, [], some memory.next, 0⟩
    (Succeed alloc 2 (groups.length + 1) → ∃ st after result, split = some (.ok st) ∧
      finishSplit maxSegmentSize (x :: list).length (some q) st = some (after, result) ∧
      Packed after result groups kept) ∧
    (¬ Succeed alloc 2 (groups.length + 1) → ∃ after, split = some (.error after) ∧
      Owns after kept ∧ after.block q = none) := by
  intro groups split
  have short := single x List.mem_cons_self
  have later : ∀ y ∈ list, (idText y).length ≤ maxSegmentSize :=
    fun y member => single y (List.mem_cons_of_mem x member)
  have few : (nextFit (fits maxSegmentSize) [x] list).length ≤ (x :: list).length :=
    nextFit_length_le [x] list
  obtain ⟨next, added, first⟩ := addToken_first owns [] short
  have start : Building ⟨next, [], some memory.next, (joinIds [x]).length⟩ [] memory.next [x]
      ({(q, [])} + kept) := ⟨rfl, rfl, rfl, by simpa [entryBlock] using first⟩
  have room : fits maxSegmentSize [x] = true := by simpa [fits] using short
  have live : cells (allocate memory blank) (some b) = some content :=
    owned_member (owns_allocate owns)
      (Multiset.mem_add.mpr (Or.inr (Multiset.mem_add.mpr (Or.inr buffer))))
  have opened : split = splitTokens maxSegmentSize (x :: list).length alloc (some b) (some q)
      (list.map idText) ⟨next, [], some memory.next, (joinIds [x]).length⟩ := by
    simp only [split, List.map_cons, splitTokens, live, Option.bind_some, Nat.lt_irrefl, if_false,
      Nat.zero_add, Nat.add_zero, if_neg (Nat.not_lt.mpr short), added]
  obtain ⟨good, bad⟩ := @splitTokens_owned maxSegmentSize (x :: list).length alloc kept q b content
    list _ [] _ _ (List.cons_ne_nil x []) room later (by simpa using few) buffer start
  simp only [List.length_nil, Nat.zero_add, List.map_nil, List.nil_append] at good bad
  rw [opened]
  refine ⟨?_, bad⟩
  intro succeed
  obtain ⟨st, filled, p, group, run, nonempty, fit, cut, building⟩ := good succeed
  have count := congrArg List.length cut
  rw [List.length_append, List.length_map, List.length_singleton] at count
  obtain ⟨after, finished, owned⟩ := finishSplit_owned nonempty fit
    (show filled.length < (x :: list).length by omega) building
  refine ⟨st, after, _, run, finished, q, filled ++ [(p, group)], ?_, ?_, owned⟩
  · rw [List.length_append, List.length_singleton]
  · rw [List.map_append, List.map_singleton]
    exact cut

theorem splitBuffer_owned (alloc : Nat → Bool) {list : List UInt64} (nonempty : list ≠ [])
    (single : ∀ x ∈ list, (idText x).length ≤ maxSegmentSize)
    (owns : Owns memory ({(b, textCells (joinIds list))} + frame)) :
    ∃ after result, splitBuffer maxSegmentSize alloc memory (some b) = some (after, result) ∧
      SplitOutcome alloc ((pack (fits maxSegmentSize) list).length + 1) after result
        (pack (fits maxSegmentSize) list) ({(b, textCells (joinIds list))} + frame) := by
  cases list with
  | nil => contradiction
  | cons x list =>
    have guard := short_ids_pass nonempty single
    have positive := joinIds_length_pos nonempty
    have bars := count_bar_joinIds nonempty
    have some_group := List.length_pos_iff.mpr (@pack_ne_nil _ (fits maxSegmentSize) _ nonempty)
    unfold splitBuffer
    rw [textAt_owned owns, Option.bind_some]
    simp only [if_neg guard, positive, joinIds_getLast, ne_eq, not_false_eq_true, and_self, if_true,
      bars, strtok_joinIds]
    by_cases table : alloc 0 = true
    · rw [if_pos table]
      have made : Owns (allocate memory [])
          ({(memory.next, [])} + ({(b, textCells (joinIds (x :: list)))} + frame)) :=
        owns_allocate owns
      by_cases first : alloc 1 = true
      · rw [if_pos first]
        obtain ⟨good, bad⟩ := @packed_tokens _ alloc _ _ _ _ _ _ _ single
          (Multiset.mem_add.mpr (Or.inl (Multiset.mem_singleton_self _))) made
        by_cases more : Succeed alloc 2 ((pack (fits maxSegmentSize) (x :: list)).length + 1)
        · obtain ⟨st, after, result, run, finished, packed⟩ := good more
          refine ⟨after, result, ?_, Or.inr (Or.inl ⟨?_, packed⟩)⟩
          · rw [run, Option.bind_some]
            exact finished
          · rw [succeed_cons (by omega), succeed_cons (by omega)]
            exact ⟨table, first, more⟩
        · obtain ⟨after, run, left, dead⟩ := bad more
          refine ⟨after, ⟨some memory.next, [], 0⟩, ?_,
            Or.inr (Or.inr ⟨table, ?_, memory.next, rfl, dead, left⟩)⟩
          · rw [run, Option.bind_some]
          · exact fun succeed => more fun k low high => succeed k (by omega) high
      · rw [if_neg first]
        obtain ⟨after, freed, left⟩ := owns_free made
        rw [freed, Option.map_some]
        refine ⟨after, _, rfl, Or.inr (Or.inr ⟨table, ?_, memory.next, rfl, freed_dead freed, left⟩)⟩
        exact fun succeed => first (succeed 1 (by omega) (by omega))
    · rw [if_neg table]
      exact ⟨memory, _, rfl, Or.inl ⟨by simpa using table, rfl, owns⟩⟩

theorem outcome_free {n : Nat} {result : SegmentArrayObject} {groups : List (List UInt64)}
    {rest : Blocks} (outcome : SplitOutcome alloc n memory result groups ({(b, content)} + rest)) :
    ∃ after, free memory (some b) = some after ∧ SplitOutcome alloc n after result groups rest := by
  rcases outcome with ⟨failed, none, owns⟩ | ⟨succeed, table, entries, eq, cut, owns⟩ |
    ⟨some, fails, table, eq, dead, owns⟩
  · obtain ⟨after, freed, left⟩ := owns_free owns
    exact ⟨after, freed, Or.inl ⟨failed, none, left⟩⟩
  · have first : Owns memory
        ({(b, content)} + ((entries.map entryBlock).sum + ({(table, [])} + rest))) := by
      convert owns using 1
      abel
    obtain ⟨after, freed, left⟩ := owns_free first
    exact ⟨after, freed, Or.inr (Or.inl ⟨succeed, table, entries, eq, cut, left⟩)⟩
  · obtain ⟨after, freed, left⟩ := owns_free owns
    exact ⟨after, freed, Or.inr (Or.inr ⟨some, fails, table, eq, dead_free dead freed, left⟩)⟩

end Split

/-- When no block of a call of send_ids is freed twice. -/
def Frees (alloc : Nat → Bool) (gArray : DynamicArray UInt64) : Prop :=
  gArray.size = 0 ∨ alloc 0 = false ∨ alloc 1 = false ∨ Succeed alloc 0 (datagrams gArray + 2)

section Calls
variable {alloc : Nat → Bool} {memory : Memory} {array : ArrayObject} {values : DynamicArray UInt64}
  {frame : Blocks}

theorem marshalAndSplit_none (holds : Holds sizeofUint64 memory array values frame)
    (early : values.size = 0 ∨ alloc 0 = false) :
    marshalAndSplit shippedSegmentSize alloc memory array = some (memory, ⟨none, [], 0⟩) := by
  obtain ⟨read, reads, same⟩ := holds_read holds
  have size : read.size = values.size := by rw [← toList_length read, same, toList_length]
  have null : marshalUint64Array (alloc 0) read = none := by
    unfold marshalUint64Array
    rcases early with empty | failed
    · rw [size, if_pos empty]
    · rw [failed, if_neg Bool.false_ne_true, ite_self]
  unfold marshalAndSplit
  rw [reads, Option.bind_some, null]

theorem marshalAndSplit_some {objects : List (Nat × Blocks)} {own : Blocks}
    (describes : Describes sizeofUint64 array values objects own) (owns : Owns memory (own + frame))
    (nonempty : values.size ≠ 0) (buffer : alloc 0 = true) :
    ∃ after result, marshalAndSplit shippedSegmentSize alloc memory array = some (after, result) ∧
      SplitOutcome (fun k => alloc (k + 1)) (datagrams values + 1) after result
        (pack (fits shippedSegmentSize) (toList values)) (own + frame) := by
  obtain ⟨read, reads, same⟩ := holds_read ⟨objects, own, describes, owns⟩
  have size : read.size = values.size := by rw [← toList_length read, same, toList_length]
  have text := @marshal_uint64_array _ _ read (by rwa [size])
  rw [ids_values, same] at text
  obtain ⟨split, result, run, outcome⟩ := splitBuffer_owned (fun k => alloc (k + 1))
    (toList_ne_nil nonempty) (fun x _ => idText_short (show 20 ≤ shippedSegmentSize by decide) x)
    (@owns_allocate _ _ _ (textCells (joinIds (toList values))) owns)
  obtain ⟨after, freed, final⟩ := outcome_free outcome
  refine ⟨after, result, ?_, final⟩
  unfold marshalAndSplit
  rw [reads, Option.bind_some, buffer, text]
  dsimp only
  rw [run, Option.bind_some]
  dsimp only
  rw [freed, Option.map_some]

theorem entry_member {entries : List Entry} {entry : Entry} (member : entry ∈ entries) :
    (entry.1, textCells (joinIds entry.2)) ∈ (entries.map entryBlock).sum := by
  induction entries with
  | nil => exact absurd member List.not_mem_nil
  | cons first entries ih =>
    rw [List.map_cons, List.sum_cons, Multiset.mem_add]
    rcases List.mem_cons.mp member with rfl | later
    · exact Or.inl (Multiset.mem_singleton_self _)
    · exact Or.inr (ih later)

theorem packed_texts {result : SegmentArrayObject} {groups : List (List UInt64)} {rest : Blocks}
    (packed : Packed memory result groups rest) :
    ((List.range result.count).mapM fun i =>
      result.entries[i]?.bind fun entry => textAt memory entry.data) = some (groups.map joinIds) := by
  obtain ⟨table, entries, rfl, rfl, owns⟩ := packed
  have all := window_getD ((entries.map Prod.snd).map joinIds) []
  rw [List.length_map, List.length_map] at all
  dsimp only
  rw [← all]
  apply mapM_window
  intro i bound
  have text := textAt_cells (owned_member owns
    (Multiset.mem_add.mpr (Or.inl (entry_member (List.getElem_mem bound)))))
  simp only [List.getElem?_map, List.getElem?_eq_getElem bound, Option.map_some, Option.bind_some,
    List.getD_eq_getElem?_getD, Option.getD_some]
  exact text

theorem packed_freed {result : SegmentArrayObject} {groups : List (List UInt64)} {rest : Blocks}
    (packed : Packed memory result groups rest) :
    ∃ after, freeSegmentArray memory result = some after ∧ Owns after rest := by
  obtain ⟨table, entries, rfl, rfl, owns⟩ := packed
  obtain ⟨between, emptied, left⟩ := freeEntries_owned owns
  obtain ⟨after, freed, final⟩ := owns_free left
  refine ⟨after, ?_, final⟩
  unfold freeSegmentArray
  rw [emptied, Option.bind_some, freed]

theorem sendIds_none {after : Memory}
    (none : marshalAndSplit shippedSegmentSize alloc memory array = some (after, ⟨none, [], 0⟩))
    (kept : Holds sizeofUint64 after array values frame) :
    ∃ last emptied, sendIds alloc memory array = some ([wakeup], last, emptied) ∧
      Holds sizeofUint64 last emptied (cleanAllElements values).2 frame := by
  obtain ⟨last, emptied, cleaned, final⟩ := holds_clean kept
  refine ⟨last, emptied, ?_, final⟩
  unfold sendIds
  rw [none, Option.bind_some]
  simp only [freeSegmentArray, freeEntries, forLoop, free, List.range_zero, List.mapM_nil,
    Option.pure_def, Option.bind_some, cleaned, Option.map_some, if_true, List.nil_append]

theorem sendIds_packed {objects : List (Nat × Blocks)} {own : Blocks} {between : Memory}
    {result : SegmentArrayObject} (describes : Describes sizeofUint64 array values objects own)
    (nonempty : values.size ≠ 0)
    (split : marshalAndSplit shippedSegmentSize alloc memory array = some (between, result))
    (packed : Packed between result (pack (fits shippedSegmentSize) (toList values)) (own + frame)) :
    ∃ after emptied, sendIds alloc memory array =
        some ((pack (fits shippedSegmentSize) (toList values)).map joinIds, after, emptied) ∧
      Holds sizeofUint64 after emptied (cleanAllElements values).2 frame := by
  have texts := packed_texts packed
  obtain ⟨freed, gone, owns⟩ := packed_freed packed
  obtain ⟨after, emptied, cleaned, final⟩ := holds_clean ⟨objects, own, describes, owns⟩
  obtain ⟨table, entries, rfl, cut, -⟩ := packed
  have some_group : entries.length ≠ 0 := by
    have filled := List.length_pos_iff.mpr
      (@pack_ne_nil _ (fits shippedSegmentSize) _ (toList_ne_nil nonempty))
    rw [← cut, List.length_map] at filled
    omega
  refine ⟨after, emptied, ?_, final⟩
  unfold sendIds
  rw [split, Option.bind_some]
  dsimp only
  rw [texts, Option.bind_some, gone, Option.bind_some, cleaned, Option.map_some, if_neg some_group]

theorem sendIds_dangling {between : Memory} {result : SegmentArrayObject} {rest : Blocks}
    (split : marshalAndSplit shippedSegmentSize alloc memory array = some (between, result))
    (dangling : Dangling between result rest) : sendIds alloc memory array = none := by
  obtain ⟨table, rfl, dead, -⟩ := dangling
  unfold sendIds
  rw [split, Option.bind_some]
  simp only [freeSegmentArray, freeEntries, forLoop, free_again dead, List.range_zero,
    List.mapM_nil, Option.pure_def, Option.bind_some, Option.bind_none]

section Texts
variable {sent : Nat → Bool}

theorem texts_none (none : BufferSegments.marshalAndSplit shippedSegmentSize alloc values =
    emptySegmentArray) : (ServerThread.sendIds alloc sent values).1.map Prod.fst = [wakeup] := by
  simp only [ServerThread.sendIds, zipIdx_texts, none, emptySegmentArray, List.take_nil,
    List.map_nil, if_true, List.nil_append]

theorem texts_packed (nonempty : values.size ≠ 0)
    (succeed : Succeed alloc 0 (datagrams values + 2)) :
    (ServerThread.sendIds alloc sent values).1.map Prod.fst =
      (pack (fits shippedSegmentSize) (toList values)).map joinIds := by
  have packed := (@marshalAndSplit_short _ _ _ values alloc nonempty
    fun x _ => idText_short (show 20 ≤ shippedSegmentSize by decide) x).1
  rw [ids_values] at packed
  simp only [ServerThread.sendIds, zipIdx_texts, packed succeed, List.length_eq_zero_iff,
    pack_ne_nil (toList_ne_nil nonempty), if_false]
  rw [List.take_of_length_le (by simp), List.map_map]
  rfl

theorem texts_failed (nonempty : values.size ≠ 0)
    (fails : ¬ Succeed alloc 0 (datagrams values + 2)) :
    (ServerThread.sendIds alloc sent values).1.map Prod.fst = [wakeup] := by
  apply texts_none
  have rejected := (@marshalAndSplit_short _ _ _ values alloc nonempty
    fun x _ => idText_short (show 20 ≤ shippedSegmentSize by decide) x).2
  rw [ids_values] at rejected
  exact rejected fails

end Texts

/-- send_ids sends what the values say and frees what it allocated, or frees the table twice. -/
theorem sendIds_owned (alloc sent : Nat → Bool)
    (holds : Holds sizeofUint64 memory array values frame) :
    (Frees alloc values → ∃ after emptied, sendIds alloc memory array =
        some ((ServerThread.sendIds alloc sent values).1.map Prod.fst, after, emptied) ∧
      Holds sizeofUint64 after emptied (ServerThread.sendIds alloc sent values).2 frame) ∧
    (¬ Frees alloc values → sendIds alloc memory array = none) := by
  by_cases early : values.size = 0 ∨ alloc 0 = false
  · refine ⟨fun _ => ?_, fun leaks => absurd (early.imp_right Or.inl) leaks⟩
    have texts : (ServerThread.sendIds alloc sent values).1.map Prod.fst = [wakeup] := by
      rcases early with empty | failed
      · rw [sendIds_empty _ _ _ empty, List.map_singleton]
      · by_cases empty : values.size = 0
        · rw [sendIds_empty _ _ _ empty, List.map_singleton]
        · apply texts_failed empty
          intro succeed
          rw [succeed 0 le_rfl (by omega)] at failed
          cases failed
    rw [texts]
    exact sendIds_none (marshalAndSplit_none holds early) holds
  · rw [not_or, Bool.not_eq_false] at early
    obtain ⟨nonempty, buffer⟩ := early
    obtain ⟨objects, own, describes, owns⟩ := holds
    obtain ⟨between, result, split, outcome⟩ := marshalAndSplit_some describes owns nonempty buffer
    have all : Succeed alloc 0 (datagrams values + 2) ↔
        Succeed (fun k => alloc (k + 1)) 0 (datagrams values + 1) := by
      constructor
      · intro succeed k _ high
        exact succeed (k + 1) (by omega) (by omega)
      · intro succeed k _ high
        cases k with
        | zero => exact buffer
        | succ k => exact succeed k (by omega) (by omega)
    rcases outcome with ⟨failed, rfl, left⟩ | ⟨succeed, packed⟩ | ⟨some_table, fails, dangling⟩
    · refine ⟨fun _ => ?_, fun leaks => absurd (Or.inr (Or.inr (Or.inl failed))) leaks⟩
      rw [texts_failed nonempty]
      · exact sendIds_none split ⟨objects, own, describes, left⟩
      · intro succeed
        exact absurd ((succeed 1 (by omega) (by omega)).symm.trans failed) (by simp)
    · rw [← all] at succeed
      refine ⟨fun _ => ?_, fun leaks => absurd (Or.inr (Or.inr (Or.inr succeed))) leaks⟩
      rw [texts_packed nonempty succeed]
      exact sendIds_packed describes nonempty split packed
    · rw [← all] at fails
      refine ⟨?_, fun _ => sendIds_dangling split dangling⟩
      rintro (empty | failed | failed | succeed)
      · exact absurd empty nonempty
      · rw [buffer] at failed
        cases failed
      · exact absurd (some_table.symm.trans failed) (by simp)
      · exact absurd succeed fails

end Calls

end RealMQ.SegmentMemory
