import RealMQ.DynamicArray

/- The two textual encodings of dynamic_array.c: a message as id|timestamp|content and an
   array of ids as its decimal texts with a bar between neighbours. -/
namespace RealMQ.Marshalling
open CStrings DynamicArrays
variable {α : Type} [Element α]

def idText (id : UInt64) : CString := decimal id.toNat

/-- The timestamp is a long long but printed with PRIu64. A NULL content prints "(null)". -/
def marshalMessage (msg : Message) : CString :=
  idText msg.id ++ '|' :: (decimal msg.timestamp.toUInt64.toNat ++
    '|' :: msg.content.getD "(null)".toList)

/-- Only the first two bars separate; later ones belong to the content. -/
def unmarshalMessage (buffer : CString) : Message :=
  match cutAt '|' buffer with
  | none => { id := strtoull buffer, timestamp := 0, content := none }
  | some (first, rest) =>
      match cutAt '|' rest with
      | none => { id := strtoull first, timestamp := strtoll rest, content := none }
      | some (second, content) =>
          { id := strtoull first, timestamp := strtoll second, content := some content }

/-- none is NULL, for the empty array and for a failed malloc. The last bar written by the
    loop is the byte that becomes the terminator. -/
def marshalUint64Array (alloc : Bool) (array : DynamicArray α) : Option CString :=
  if array.size = 0 then none
  else if alloc then some ((ids array).flatMap fun id => idText id ++ ['|']).dropLast
  else none

def unmarshalUint64Array (buffer : CString) : DynamicArray UInt64 :=
  addAll (initDynamicArray UInt64 10) ((strtok '|' buffer).map strtoull)

def joinIds (list : List UInt64) : CString := ['|'].intercalate (list.map idText)

structure Sendable (msg : Message) : Prop where
  content : msg.content.isSome
  timestamp : 0 ≤ msg.timestamp.toInt

theorem bar_not_in_decimal (n : Nat) : '|' ∉ decimal n := not_mem_decimal (by decide)

theorem idText_short {n : Nat} (room : 20 ≤ n) (id : UInt64) : (idText id).length ≤ n :=
  (decimal_u64_length id).trans room

theorem idText_ne_nil (id : UInt64) : idText id ≠ [] := decimal_ne_nil _

theorem nonneg_timestamp_text {t : Int64} (nonneg : 0 ≤ t.toInt) :
    strtoll (decimal t.toUInt64.toNat) = t := by
  have upper := t.toInt_lt
  have value := toUInt64_of_nonneg nonneg
  rw [strtoll_decimal (by omega), ← Int64.ofInt_eq_ofNat, value, Int64.ofInt_toInt]

theorem unmarshal_id (id : UInt64) (rest : CString) :
    (unmarshalMessage (idText id ++ '|' :: rest)).id = id := by
  simp only [unmarshalMessage, idText, cutAt_append rest (bar_not_in_decimal _)]
  split <;> exact strtoull_decimal id

theorem unmarshal_marshal {msg : Message} (sendable : Sendable msg) :
    unmarshalMessage (marshalMessage msg) = msg := by
  obtain ⟨id, content, timestamp⟩ := msg
  obtain ⟨text, rfl⟩ := Option.isSome_iff_exists.mp sendable.content
  have time := nonneg_timestamp_text sendable.timestamp
  dsimp only at time
  simp only [unmarshalMessage, marshalMessage, idText, cutAt_append _ (bar_not_in_decimal _),
    strtoull_decimal, time, Option.getD_some]

@[simp] theorem joinIds_nil : joinIds [] = [] := rfl

@[simp] theorem joinIds_singleton (id : UInt64) : joinIds [id] = idText id := by
  simp [joinIds]

theorem joinIds_cons_cons (x y : UInt64) (rest : List UInt64) :
    joinIds (x :: y :: rest) = idText x ++ '|' :: joinIds (y :: rest) := by
  simp [joinIds, List.intercalate_cons_cons]

theorem joinIds_append_cons {front : List UInt64} (nonempty : front ≠ []) (y : UInt64)
    (back : List UInt64) :
    joinIds (front ++ y :: back) = joinIds front ++ '|' :: joinIds (y :: back) := by
  induction front with
  | nil => contradiction
  | cons x front ih =>
    cases front with
    | nil => simp [joinIds_cons_cons]
    | cons z front =>
      have rest := ih (by simp)
      simp only [List.cons_append] at rest ⊢
      rw [joinIds_cons_cons, rest, joinIds_cons_cons]
      simp

theorem joinIds_length_pos {list : List UInt64} (nonempty : list ≠ []) : 0 < (joinIds list).length := by
  cases list with
  | nil => contradiction
  | cons x rest =>
    have first := decimal_length_pos x.toNat
    cases rest with
    | nil => simpa [idText] using first
    | cons y rest => simp [joinIds_cons_cons]

theorem marshal_text_eq_join {list : List UInt64} (nonempty : list ≠ []) :
    (list.flatMap fun id => idText id ++ ['|']).dropLast = joinIds list := by
  induction list with
  | nil => contradiction
  | cons x rest ih =>
    cases rest with
    | nil => simp
    | cons y rest =>
      have tail := ih (by simp)
      rw [List.flatMap_cons, List.dropLast_append_of_ne_nil (by simp [List.flatMap_cons]), tail,
        joinIds_cons_cons]
      simp

theorem marshal_uint64_array {array : DynamicArray α} (nonempty : array.size ≠ 0) :
    marshalUint64Array true array = some (joinIds (ids array)) := by
  have list : ids array ≠ [] := ids_ne_nil nonempty
  simp [marshalUint64Array, nonempty, marshal_text_eq_join list]

theorem strtok_joinIds (list : List UInt64) : strtok '|' (joinIds list) = list.map idText := by
  apply strtok_intercalate
  · intro piece member
    obtain ⟨id, _, rfl⟩ := List.mem_map.mp member
    exact idText_ne_nil id
  · intro piece member
    obtain ⟨id, _, rfl⟩ := List.mem_map.mp member
    exact bar_not_in_decimal _

theorem joinIds_ne {x : Char} {word : CString} (letter : x.isDigit = false) (list : List UInt64) :
    joinIds list ≠ x :: word := by
  cases list with
  | nil => simp
  | cons id rest =>
    obtain ⟨c, s, text, digit⟩ := decimal_head_digit id.toNat
    have front : ∃ t, joinIds (id :: rest) = c :: t := by
      cases rest with
      | nil => exact ⟨s, by rw [joinIds_singleton, idText, text]⟩
      | cons y rest => exact ⟨_, by rw [joinIds_cons_cons, idText, text, List.cons_append]⟩
    obtain ⟨t, eq⟩ := front
    rw [eq]
    intro same
    obtain ⟨rfl, -⟩ := List.cons.inj same
    simp [digit] at letter

theorem unmarshal_joinIds (list : List UInt64) :
    toList (unmarshalUint64Array (joinIds list)) = list := by
  rw [unmarshalUint64Array, toList_addAll, toList_init, strtok_joinIds]
  simp [idText, Function.comp_def, strtoull_decimal]

end RealMQ.Marshalling
