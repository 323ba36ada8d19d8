import RealMQ.StringManip
import RealMQ.Foundation.Buffers

/- The list of string ids in common/utils/utils.c and process_message_ids, which sends it away
   in batches. Every send succeeds. -/
namespace RealMQ.MessageIds
open CStrings StringManip Buffers

def maxResponseLength : Nat := 1024

def idMaxLength : Nat := 37

def idsSeparator : Char := ','

def maxIdsPerMessage : Nat := (maxResponseLength - 1) / (idMaxLength + 1)

def addMessageId (idStr : CString) (messageIds : List CString) : List CString := messageIds ++ [idStr]

structure Batch where
  idsString : Text nul
  currentIdCount : Nat
  sent : List CString

def addId (batch : Batch) (id : CString) : Batch :=
  let separated :=
    if 0 < batch.currentIdCount then strcat batch.idsString [idsSeparator] else batch.idsString
  { batch with idsString := strcat separated id, currentIdCount := batch.currentIdCount + 1 }

def sendBatch (batch : Batch) : Batch :=
  { idsString := put nul batch.idsString.memory []
    currentIdCount := 0
    sent := batch.sent ++ [batch.idsString.text] }

/-- last_id joins the batch of the last id, also when that batch is full. -/
def batchTurn (lastId : Option CString) (final : Bool) (batch : Batch) (id : CString) : Batch :=
  let added := addId batch id
  let closing := if final then lastId else none
  if added.currentIdCount = maxIdsPerMessage ∨ closing.isSome then
    sendBatch
      { added with
        idsString := match closing with
          | some last => strcat (strcat added.idsString [idsSeparator]) last
          | none => added.idsString }
  else added

def batchLoop (lastId : Option CString) : List CString → Batch → Batch
  | [], batch => batch
  | id :: rest, batch => batchLoop lastId rest (batchTurn lastId rest.isEmpty batch id)

structure Flush where
  messageIds : List CString
  sent : List CString
  memory : Buffer Char

def processMessageIds (alloc : Bool) (garbage : Int → Char) (lastId : Option CString)
    (messageIds : List CString) : Flush :=
  if messageIds = [] ∨ alloc = false then ⟨messageIds, [], fresh garbage⟩
  else
    let batch := batchLoop lastId messageIds ⟨put nul (fresh garbage) [], 0, []⟩
    { messageIds := []
      sent :=
        if batch.idsString.text ≠ [] ∧ 0 < batch.currentIdCount then
          batch.sent ++ [batch.idsString.text]
        else batch.sent
      memory := batch.idsString.memory }

structure IdText (id : CString) : Prop where
  nonempty : id ≠ []
  short : id.length < idMaxLength
  free : idsSeparator ∉ id

instance (id : CString) : Decidable (IdText id) :=
  decidable_of_iff (id ≠ [] ∧ id.length < idMaxLength ∧ idsSeparator ∉ id)
    ⟨fun ⟨nonempty, short, free⟩ => ⟨nonempty, short, free⟩,
      fun good => ⟨good.nonempty, good.short, good.free⟩⟩

def received (sent : List CString) : List CString := sent.flatMap fun s => splitString s idsSeparator

def pendingIds (batch : Batch) : List CString :=
  if batch.currentIdCount = 0 then [] else splitString batch.idsString.text idsSeparator

/-- The ids taken so far are in the sent strings and the open one, and that one has room for two
    more ids, of which the second is last_id. -/
structure Filling (taken : List CString) (batch : Batch) : Prop where
  complete : received batch.sent ++ pendingIds batch = taken
  bounded : batch.currentIdCount < maxIdsPerMessage
  short : batch.idsString.text.length ≤ idMaxLength * batch.currentIdCount
  opened : 0 < batch.currentIdCount → batch.idsString.text ≠ []
  inside : Inside batch.idsString.memory maxResponseLength

section Turns
variable {taken : List CString} {batch : Batch} {id : CString}

@[simp] theorem received_append (sent : List CString) (s : CString) :
    received (sent ++ [s]) = received sent ++ splitString s idsSeparator := by
  simp [received]

theorem split_separated (text more : CString) :
    splitString (text ++ idsSeparator :: more) idsSeparator =
      splitString text idsSeparator ++ splitString more idsSeparator := by
  rw [splitString_eq, splitString_eq, splitString_eq]
  exact List.splitOn_append_cons_self text more

theorem split_id (good : IdText id) : splitString id idsSeparator = [id] := by
  rw [splitString_eq]
  exact List.splitOn_eq_singleton good.free

theorem sent_addId : (addId batch id).sent = batch.sent := rfl

theorem text_addId (filling : Filling taken batch) :
    (addId batch id).idsString.text =
      if batch.currentIdCount = 0 then id else batch.idsString.text ++ idsSeparator :: id := by
  have short := filling.short
  unfold addId
  by_cases first : batch.currentIdCount = 0
  · have empty : batch.idsString.text = [] := by
      rw [first, Nat.mul_zero] at short
      exact List.length_eq_zero_iff.mp (Nat.le_zero.mp short)
    simp [first, empty]
  · simp [first, Nat.pos_of_ne_zero first]

theorem split_addId (filling : Filling taken batch) (good : IdText id) :
    splitString (addId batch id).idsString.text idsSeparator = pendingIds batch ++ [id] := by
  rw [text_addId filling, pendingIds]
  split
  · exact split_id good
  · rw [split_separated, split_id good]

theorem length_addId (filling : Filling taken batch) (good : IdText id) :
    (addId batch id).idsString.text.length ≤ idMaxLength * (batch.currentIdCount + 1) := by
  have short := filling.short
  have small := good.short
  rw [text_addId filling, Nat.mul_succ]
  split
  · omega
  · rw [List.length_append, List.length_cons]
    omega

theorem inside_addId (filling : Filling taken batch) (good : IdText id) :
    Inside (addId batch id).idsString.memory maxResponseLength := by
  have bounded : batch.currentIdCount < 26 := filling.bounded
  have short : batch.idsString.text.length ≤ 37 * batch.currentIdCount := filling.short
  have small : id.length < 37 := good.short
  have inside := filling.inside
  unfold addId maxResponseLength at *
  dsimp only
  rw [inside_strcat_iff]
  split
  · rw [inside_strcat_iff, text_strcat, List.length_append, List.length_singleton]
    exact ⟨⟨inside, by omega⟩, by omega⟩
  · exact ⟨inside, by omega⟩

theorem filling_empty {memory : Buffer Char} {sent : List CString}
    (inside : Inside memory maxResponseLength) (complete : received sent = taken) :
    Filling taken ⟨put nul memory [], 0, sent⟩ := by
  constructor
  · rw [complete]
    simp [pendingIds]
  · exact Nat.succ_pos 25
  · exact Nat.zero_le _
  · intro some
    exact absurd some (Nat.lt_irrefl 0)
  · rw [inside_put_iff]
    exact ⟨inside, Nat.succ_pos 1023⟩

theorem filling_sendBatch (inside : Inside batch.idsString.memory maxResponseLength)
    (complete : received batch.sent ++ splitString batch.idsString.text idsSeparator = taken) :
    Filling taken (sendBatch batch) := by
  apply filling_empty inside
  rw [received_append, complete]

theorem filling_addId (filling : Filling taken batch) (good : IdText id)
    (room : (addId batch id).currentIdCount ≠ maxIdsPerMessage) :
    Filling (taken ++ [id]) (addId batch id) := by
  have bounded := filling.bounded
  have count : (addId batch id).currentIdCount = batch.currentIdCount + 1 := rfl
  constructor
  · rw [pendingIds, if_neg (by omega), split_addId filling good, sent_addId, ← List.append_assoc,
      filling.complete]
  · omega
  · exact length_addId filling good
  · intro _
    rw [text_addId filling]
    split
    · exact good.nonempty
    · simp
  · exact inside_addId filling good

theorem filling_turn {lastId : Option CString} {final : Bool} (filling : Filling taken batch)
    (good : IdText id) (lastGood : ∀ last ∈ lastId, IdText last) :
    Filling (taken ++ id :: (if final then lastId else none).toList)
      (batchTurn lastId final batch id) := by
  have split_added := split_addId filling good
  have inside := inside_addId filling good
  have complete := filling.complete
  have closingGood : ∀ last ∈ (if final then lastId else none), IdText last := by
    cases final with
    | true => exact lastGood
    | false =>
      intro last member
      cases member
  unfold batchTurn
  cases closing : (if final = true then lastId else none) with
  | none =>
    dsimp only
    split
    · apply filling_sendBatch inside
      rw [split_added, sent_addId, ← List.append_assoc, complete]
      rfl
    · rename_i open_batch
      apply filling_addId filling good
      intro full
      exact open_batch (Or.inl full)
  | some last =>
    have lastText := closingGood last closing
    dsimp only
    rw [if_pos (Or.inr Option.isSome_some)]
    apply filling_sendBatch
    · have bounded : batch.currentIdCount < 26 := filling.bounded
      have length : (addId batch id).idsString.text.length ≤ 37 * (batch.currentIdCount + 1) :=
        length_addId filling good
      have small : last.length < 37 := lastText.short
      unfold maxResponseLength at *
      dsimp only
      rw [inside_strcat_iff, inside_strcat_iff, text_strcat, List.length_append,
        List.length_singleton]
      exact ⟨⟨inside, by omega⟩, by omega⟩
    · dsimp only
      rw [text_strcat, text_strcat, List.append_assoc, List.singleton_append, split_separated,
        split_added, split_id lastText, sent_addId, ← List.append_assoc, ← List.append_assoc, complete]
      simp

theorem filling_loop {lastId : Option CString} {ids : List CString} (filling : Filling taken batch)
    (good : ∀ id ∈ ids, IdText id) (lastGood : ∀ last ∈ lastId, IdText last) (nonempty : ids ≠ []) :
    Filling (taken ++ ids ++ lastId.toList) (batchLoop lastId ids batch) := by
  induction ids generalizing taken batch with
  | nil => contradiction
  | cons id rest ih =>
    have turn := @filling_turn taken batch id lastId rest.isEmpty filling
      (good id List.mem_cons_self) lastGood
    unfold batchLoop
    cases rest with
    | nil =>
      rw [List.isEmpty_nil, if_pos rfl] at turn
      rw [List.isEmpty_nil, List.append_assoc]
      exact turn
    | cons next rest =>
      have later : ∀ other ∈ next :: rest, IdText other := fun other member =>
        good other (List.mem_cons_of_mem _ member)
      rw [List.isEmpty_cons, if_neg Bool.false_ne_true] at turn
      rw [List.isEmpty_cons]
      have whole := ih turn later (List.cons_ne_nil _ _)
      simpa using whole

end Turns

section Flush
variable {garbage : Int → Char} {ids : List CString} {lastId : Option CString}

theorem filling_flush (nonempty : ids ≠ []) (good : ∀ id ∈ ids, IdText id)
    (lastGood : ∀ last ∈ lastId, IdText last) : Filling (ids ++ lastId.toList)
      (batchLoop lastId ids ⟨put nul (fresh garbage) [], 0, []⟩) :=
  filling_loop (@filling_empty [] _ [] (inside_fresh garbage maxResponseLength) rfl) good lastGood
    nonempty

theorem received_flush (nonempty : ids ≠ []) (good : ∀ id ∈ ids, IdText id)
    (lastGood : ∀ last ∈ lastId, IdText last) :
    received (processMessageIds true garbage lastId ids).sent = ids ++ lastId.toList := by
  have final := @filling_flush garbage ids lastId nonempty good lastGood
  rw [← final.complete]
  unfold processMessageIds pendingIds
  rw [if_neg (by simp [nonempty])]
  dsimp only
  by_cases none_open : (batchLoop lastId ids ⟨put nul (fresh garbage) [], 0, []⟩).currentIdCount = 0
  · rw [if_pos none_open, if_neg (by simp [none_open]), List.append_nil]
  · have some_open := Nat.pos_of_ne_zero none_open
    rw [if_neg none_open, if_pos ⟨final.opened some_open, some_open⟩, received_append]

end Flush

/-- Every id goes out once and in order, last_id behind them, and nothing leaves the buffer. -/
theorem batches_complete (garbage : Int → Char) (ids : List CString) (lastId : Option CString)
    (nonempty : ids ≠ []) (good : ∀ id ∈ ids, IdText id) (lastGood : ∀ last ∈ lastId, IdText last) :
    let flush := processMessageIds true garbage lastId ids
    received flush.sent = ids ++ lastId.toList ∧ Inside flush.memory maxResponseLength ∧
      flush.messageIds = [] := by
  refine ⟨received_flush nonempty good lastGood, ?_⟩
  unfold processMessageIds
  rw [if_neg (by simp [nonempty])]
  exact ⟨(filling_flush nonempty good lastGood).inside, rfl⟩

theorem batches_complete_short :
    let ids := ["a".toList, "bc".toList]
    let flush := processMessageIds true (fun _ => 'x') (some "d".toList) ids
    received flush.sent = ids ++ (some "d".toList).toList ∧
      Inside flush.memory maxResponseLength ∧ flush.messageIds = [] :=
  batches_complete (fun _ => 'x') _ _ (by decide) (by decide) (by decide)

end RealMQ.MessageIds
