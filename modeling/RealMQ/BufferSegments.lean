import RealMQ.Marshalling
import RealMQ.Foundation.NextFit

/- common/qos/buffer_segments.c. alloc k says whether the k-th malloc of a call succeeds.
   overrun is not a field of the source: it records a write outside a segment buffer of
   MAX_SEGMENT_SIZE + 1 bytes or outside the segment table. -/
namespace RealMQ.BufferSegments
open CStrings DynamicArrays Marshalling NextFit
variable {α : Type} [Element α]

/-- MAX_SEGMENT_SIZE as shipped; the tests change it. -/
def shippedSegmentSize : Nat := 1024

structure BufferSegment where
  data : CString
  size : Nat
  deriving DecidableEq, Repr

/-- count may exceed the number of filled entries; the rest of the table is uninitialised. -/
structure BufferSegmentArray where
  segments : List BufferSegment
  count : Nat
  overrun : Bool
  deriving DecidableEq, Repr

def emptySegmentArray : BufferSegmentArray := ⟨[], 0, false⟩

structure SplitState where
  segments : List BufferSegment
  currentSegment : CString
  currentSize : Nat
  overrun : Bool
  deriving DecidableEq, Repr

def closeSegment (tableSize : Nat) (st : SplitState) : SplitState :=
  { segments := st.segments ++ [⟨st.currentSegment.take st.currentSize, st.currentSize⟩]
    currentSegment := []
    currentSize := 0
    overrun := st.overrun || decide (tableSize ≤ st.segments.length) }

def addDelimiter (st : SplitState) : SplitState :=
  if 0 < st.currentSize then
    { st with
      currentSegment := st.currentSegment.take st.currentSize ++ ['|']
      currentSize := st.currentSize + 1 }
  else st

/-- strcpy writes up to and including index currentSize + tokenLength of the buffer. -/
def copyToken (maxSegmentSize : Nat) (st : SplitState) (token : CString) : SplitState :=
  { st with
    currentSegment := st.currentSegment.take st.currentSize ++ token
    currentSize := st.currentSize + token.length
    overrun := st.overrun || decide (maxSegmentSize < st.currentSize + token.length) }

/-- none when the malloc of a further segment fails; the table has then been freed. -/
def splitTokens (maxSegmentSize tableSize : Nat) (alloc : Nat → Bool) :
    List CString → SplitState → Option SplitState
  | [], st => some st
  | token :: tokens, st =>
      if maxSegmentSize < st.currentSize + token.length + (if 0 < st.currentSize then 1 else 0) then
        let closed := closeSegment tableSize st
        if alloc (closed.segments.length + 1) then
          splitTokens maxSegmentSize tableSize alloc tokens
            (copyToken maxSegmentSize (addDelimiter closed) token)
        else none
      else
        splitTokens maxSegmentSize tableSize alloc tokens
          (copyToken maxSegmentSize (addDelimiter st) token)

def finishSplit (tableSize : Nat) (st : SplitState) : BufferSegmentArray :=
  let last := if 0 < st.currentSize then closeSegment tableSize st else st
  { segments := last.segments, count := st.segments.length + 1, overrun := last.overrun }

def splitBuffer (maxSegmentSize : Nat) (alloc : Nat → Bool) (buffer : CString) :
    BufferSegmentArray :=
  let delimiters := buffer.count '|'
  let segmentCount :=
    if 0 < buffer.length ∧ buffer.getLast? ≠ some '|' then delimiters + 1 else delimiters
  if maxSegmentSize < buffer.length ∧ delimiters = 0 then emptySegmentArray
  else if alloc 0 && alloc 1 then
    match splitTokens maxSegmentSize segmentCount alloc (strtok '|' buffer) ⟨[], [], 0, false⟩ with
    | none => emptySegmentArray
    | some st => finishSplit segmentCount st
  else emptySegmentArray

def marshalAndSplit (maxSegmentSize : Nat) (alloc : Nat → Bool) (array : DynamicArray α) :
    BufferSegmentArray :=
  match marshalUint64Array (alloc 0) array with
  | none => emptySegmentArray
  | some buffer => splitBuffer maxSegmentSize (fun k => alloc (k + 1)) buffer

def fits (maxSegmentSize : Nat) (group : List UInt64) : Bool :=
  (joinIds group).length ≤ maxSegmentSize

def segmentOf (group : List UInt64) : BufferSegment :=
  ⟨joinIds group, (joinIds group).length⟩

theorem joinIds_snoc {front : List UInt64} (nonempty : front ≠ []) (x : UInt64) :
    joinIds (front ++ [x]) = joinIds front ++ '|' :: idText x := by
  rw [joinIds_append_cons nonempty, joinIds_singleton]

theorem fits_prefixClosed (maxSegmentSize : Nat) : PrefixClosed (fits maxSegmentSize) := by
  intro front back room
  cases back with
  | nil => simpa using room
  | cons y back =>
    by_cases empty : front = []
    · simp [empty, fits]
    · simp only [fits, joinIds_append_cons empty, List.length_append, decide_eq_true_eq] at room ⊢
      omega

theorem copyToken_start {maxSegmentSize : Nat} {x : UInt64} {segments : List BufferSegment}
    (room : (idText x).length ≤ maxSegmentSize) :
    copyToken maxSegmentSize (addDelimiter ⟨segments, [], 0, false⟩) (idText x) =
      ⟨segments, joinIds [x], (joinIds [x]).length, false⟩ := by
  simp [copyToken, addDelimiter, room]

theorem copyToken_more {maxSegmentSize : Nat} {current : List UInt64} {x : UInt64}
    {segments : List BufferSegment} (nonempty : current ≠ [])
    (room : fits maxSegmentSize (current ++ [x]) = true) :
    copyToken maxSegmentSize
        (addDelimiter ⟨segments, joinIds current, (joinIds current).length, false⟩) (idText x) =
      ⟨segments, joinIds (current ++ [x]), (joinIds (current ++ [x])).length, false⟩ := by
  have pos := joinIds_length_pos nonempty
  have text := joinIds_snoc nonempty x
  simp only [fits, decide_eq_true_eq, text, List.length_append, List.length_cons] at room
  have short : ¬ maxSegmentSize < (joinIds current).length + 1 + (idText x).length := by omega
  simp [copyToken, addDelimiter, pos, text, short, List.take_of_length_le]
  omega

/-- The token loop is next-fit packing of the ids. -/
theorem splitTokens_spec {maxSegmentSize tableSize : Nat} {done : List (List UInt64)}
    {current list : List UInt64} (nonempty : current ≠ [])
    (single : ∀ x ∈ list, (idText x).length ≤ maxSegmentSize)
    (table : done.length + (nextFit (fits maxSegmentSize) current list).length ≤ tableSize) :
    ∃ init last, nextFit (fits maxSegmentSize) current list = init ++ [last] ∧ last ≠ [] ∧
      splitTokens maxSegmentSize tableSize (fun _ => true) (list.map idText)
          ⟨done.map segmentOf, joinIds current, (joinIds current).length, false⟩ =
        some ⟨(done ++ init).map segmentOf, joinIds last, (joinIds last).length, false⟩ := by
  induction list generalizing current done with
  | nil => exact ⟨[], current, rfl, nonempty, by simp [splitTokens]⟩
  | cons x list ih =>
    have pos := joinIds_length_pos nonempty
    have text := joinIds_snoc nonempty x
    have later : ∀ y ∈ list, (idText y).length ≤ maxSegmentSize :=
      fun y hy => single y (List.mem_cons_of_mem x hy)
    simp only [nextFit, List.map_cons, splitTokens, pos, if_true] at table ⊢
    by_cases room : fits maxSegmentSize (current ++ [x]) = true
    · rw [if_pos room] at table ⊢
      have short : ¬ maxSegmentSize < (joinIds current).length + (idText x).length + 1 := by
        simp only [fits, decide_eq_true_eq, text, List.length_append, List.length_cons] at room
        omega
      rw [if_neg short, copyToken_more nonempty room]
      exact ih (by simp) later table
    · rw [if_neg room] at table ⊢
      have long : maxSegmentSize < (joinIds current).length + (idText x).length + 1 := by
        simp only [fits, decide_eq_true_eq, text, List.length_append, List.length_cons] at room
        omega
      simp only [List.length_cons] at table
      have closed : closeSegment tableSize
          ⟨done.map segmentOf, joinIds current, (joinIds current).length, false⟩ =
          ⟨(done ++ [current]).map segmentOf, [], 0, false⟩ := by
        simp [closeSegment, segmentOf]
        omega
      rw [if_pos long, closed, copyToken_start (single x (by simp))]
      obtain ⟨init, last, groups, some, run⟩ :=
        @ih (done ++ [current]) [x] (by simp) later (by simp; omega)
      exact ⟨current :: init, last, by simp [groups], some, by simpa using run⟩

theorem count_bar_joinIds {list : List UInt64} (nonempty : list ≠ []) :
    (joinIds list).count '|' + 1 = list.length := by
  induction list with
  | nil => contradiction
  | cons x rest ih =>
    have free : (idText x).count '|' = 0 := List.count_eq_zero.mpr (bar_not_in_decimal _)
    cases rest with
    | nil => simp [free]
    | cons y rest =>
      have tail := ih (by simp)
      rw [joinIds_cons_cons, List.count_append, free, List.count_cons_self, List.length_cons,
        ← tail]
      omega

theorem joinIds_getLast {list : List UInt64} : (joinIds list).getLast? ≠ some '|' := by
  induction list with
  | nil => simp
  | cons x rest ih =>
    cases rest with
    | nil =>
      rw [joinIds_singleton]
      intro last
      exact bar_not_in_decimal _ (List.mem_of_getLast? last)
    | cons y rest =>
      have pos : joinIds (y :: rest) ≠ [] :=
        List.length_pos_iff.mp (joinIds_length_pos (by simp))
      rw [joinIds_cons_cons, List.getLast?_append_of_ne_nil _ (by simp),
        List.getLast?_cons_of_ne_nil pos]
      exact ih

theorem short_ids_pass {maxSegmentSize : Nat} {list : List UInt64} (nonempty : list ≠ [])
    (single : ∀ x ∈ list, (idText x).length ≤ maxSegmentSize) :
    ¬ (maxSegmentSize < (joinIds list).length ∧ (joinIds list).count '|' = 0) := by
  rintro ⟨long, none⟩
  have bars := count_bar_joinIds nonempty
  rw [none, Nat.zero_add] at bars
  obtain ⟨x, rfl⟩ := List.length_eq_one_iff.mp bars.symm
  rw [joinIds_singleton] at long
  exact Nat.not_le.mpr long (single x List.mem_cons_self)

/-- With every malloc succeeding and every id short enough for a segment, the result is the
    next-fit packing of the ids, and nothing is written out of bounds. -/
theorem marshalAndSplit_eq_pack {maxSegmentSize : Nat} {array : DynamicArray α}
    (nonempty : array.size ≠ 0)
    (single : ∀ x ∈ ids array, (idText x).length ≤ maxSegmentSize) :
    marshalAndSplit maxSegmentSize (fun _ => true) array =
      { segments := (pack (fits maxSegmentSize) (ids array)).map segmentOf
        count := (pack (fits maxSegmentSize) (ids array)).length
        overrun := false } := by
  simp only [marshalAndSplit, marshal_uint64_array nonempty]
  have length := ids_length array
  cases list : ids array with
  | nil => rw [list] at length; exact absurd length.symm nonempty
  | cons x rest =>
    rw [list] at single
    have pos := joinIds_length_pos (show x :: rest ≠ [] by simp)
    have bars := count_bar_joinIds (show x :: rest ≠ [] by simp)
    have bound : (nextFit (fits maxSegmentSize) [x] rest).length ≤ (x :: rest).length :=
      nextFit_length_le [x] rest
    have guard := short_ids_pass (show x :: rest ≠ [] by simp) single
    obtain ⟨init, last, groups, some, run⟩ :=
      @splitTokens_spec maxSegmentSize (x :: rest).length [] [x] rest
        (by simp) (fun y hy => single y (List.mem_cons_of_mem x hy)) (by simpa using bound)
    have lastPos := joinIds_length_pos some
    have first : ¬ maxSegmentSize < 0 + (idText x).length + 0 := by
      have := single x (by simp)
      omega
    simp only [List.map_nil, List.nil_append] at run
    simp only [splitBuffer, if_neg guard, pos, joinIds_getLast, ne_eq, not_false_eq_true, and_self,
      if_true, bars, Bool.and_self, strtok_joinIds, List.map_cons, splitTokens, Nat.lt_irrefl,
      if_false, if_neg first, copyToken_start (single x (by simp)), run, pack, groups]
    have inTable : ¬ (x :: rest).length ≤ init.length := by
      have := congrArg List.length groups
      simp only [List.length_append, List.length_singleton] at this
      omega
    simp [finishSplit, lastPos, closeSegment, segmentOf]
    simpa using inTable

/-- What one call must deliver: between one and array->size segments, each a non-empty string
    of at most MAX_SEGMENT_SIZE bytes with its own length as size, that decode to the ids. -/
structure Lossless (maxSegmentSize : Nat) (array : DynamicArray UInt64)
    (result : BufferSegmentArray) : Prop where
  filled : result.segments.length = result.count
  some_segment : 1 ≤ result.count
  few_segments : result.count ≤ array.size
  strings : ∀ s ∈ result.segments, s.data ≠ [] ∧ Char.ofNat 0 ∉ s.data ∧
    s.size = s.data.length ∧ s.size ≤ maxSegmentSize
  decoded : (result.segments.flatMap fun s => toList (unmarshalUint64Array s.data)) = toList array
  in_bounds : result.overrun = false

theorem nul_not_in_joinIds (list : List UInt64) : Char.ofNat 0 ∉ joinIds list := by
  induction list with
  | nil => simp
  | cons x rest ih =>
    have free : Char.ofNat 0 ∉ idText x := not_mem_decimal (by decide)
    cases rest with
    | nil => simpa using free
    | cons y rest =>
      rw [joinIds_cons_cons, List.mem_append, List.mem_cons]
      rintro (first | bar | later)
      · exact free first
      · exact absurd bar (by decide)
      · exact ih later

theorem segments_decode (groups : List (List UInt64)) :
    ((groups.map segmentOf).flatMap fun s => toList (unmarshalUint64Array s.data)) =
      groups.flatten := by
  induction groups with
  | nil => rfl
  | cons g groups ih =>
    rw [List.map_cons, List.flatMap_cons, List.flatten_cons, ih, segmentOf, unmarshal_joinIds]

theorem ids_values (array : DynamicArray UInt64) : ids array = toList array :=
  List.map_id _

theorem marshal_and_split_lossless (maxSegmentSize : Nat) (array : DynamicArray UInt64)
    (nonempty : array.size ≠ 0) (room : 20 ≤ maxSegmentSize) :
    Lossless maxSegmentSize array (marshalAndSplit maxSegmentSize (fun _ => true) array) := by
  have single : ∀ x ∈ ids array, (idText x).length ≤ maxSegmentSize :=
    fun x _ => idText_short room x
  have some : ids array ≠ [] := ids_ne_nil nonempty
  rw [marshalAndSplit_eq_pack nonempty single]
  refine ⟨by simp, List.length_pos_iff.mpr (pack_ne_nil some), ?_, ?_, ?_, rfl⟩
  · exact (pack_length_le _).trans (Nat.le_of_eq (ids_length array))
  · intro s member
    obtain ⟨g, inside, rfl⟩ := List.mem_map.mp member
    have pos := joinIds_length_pos (pack_nonempty _ g inside)
    have short := pack_fits (fun x hx => by simpa [fits] using single x hx) g inside
    exact ⟨List.length_pos_iff.mp pos, nul_not_in_joinIds g, rfl, by simpa [fits, segmentOf] using short⟩
  · rw [segments_decode, pack_flatten, ids_values]

theorem marshal_and_split_lossless_three :
    Lossless 20
      (addAll (initDynamicArray UInt64 10) [18446744073709551615, 7, 10000000000000000000])
      (marshalAndSplit 20 (fun _ => true)
        (addAll (initDynamicArray UInt64 10) [18446744073709551615, 7, 10000000000000000000])) :=
  marshal_and_split_lossless 20 _ (by decide) (by decide)

end RealMQ.BufferSegments
