import RealMQ.MessageIds

/- process_missed_message_ids of common/utils/utils.c: the pending ids against the ids that an
   acknowledgement mentions. Allocations succeed, realloc to size 0 included; with glibc, which
   frees the array there and returns NULL, message_ids dangles once all ids are gone. -/
namespace RealMQ.MissedMessageIds
open CStrings StringManip MessageIds

/-- The returned array, the strings that were freed, and what message_ids holds afterwards. The
    caller owns the strings of the returned array. -/
structure Missed where
  missed : List CString
  freed : List CString
  messageIds : List CString

def processMissedMessageIds (buffer : CString) (messageIds : List CString) : Missed :=
  let idsInBuffer := splitString buffer idsSeparator
  match idsInBuffer.getLast? with
  | none => ⟨[], [], messageIds⟩
  | some lastId =>
      match messageIds.findIdx? (· = lastId) with
      -- message_ids itself is returned, and num_message_ids is not touched
      | none => ⟨messageIds, [], messageIds⟩
      | some index =>
          { missed := (messageIds.take (index + 1)).filter fun id => !idsInBuffer.contains id
            freed := messageIds.take (index + 1)
            messageIds := messageIds.drop (index + 1) }

inductive Call where
  | add (id : CString)
  | process (buffer : CString)

def perform (messageIds : List CString) : Call → Missed
  | .add id => ⟨[], [], addMessageId id messageIds⟩
  | .process buffer => processMissedMessageIds buffer messageIds

def reports : List CString → List Call → List Missed
  | _, [] => []
  | messageIds, call :: calls =>
      perform messageIds call :: reports (perform messageIds call).messageIds calls

def mentioned (buffer : CString) : List CString := buffer.splitOn idsSeparator

def lastId (buffer : CString) : CString :=
  (mentioned buffer).getLast (List.splitOn_ne_nil idsSeparator buffer)

structure Partitions (buffer : CString) (pending : List CString) (result : Missed) : Prop where
  upTo : ∀ front back, pending = front ++ lastId buffer :: back →
    result.missed = front.filter (· ∉ mentioned buffer) ∧ result.messageIds = back
  all : lastId buffer ∉ pending → result.missed = pending ∧ result.messageIds = []
  apart : ∀ id ∈ result.missed, id ∉ result.messageIds
  once : ∀ id, id ∈ result.missed ∨ id ∈ result.freed → ∀ calls, Call.add id ∉ calls →
    ∀ report ∈ reports result.messageIds calls, id ∉ report.missed ∧ id ∉ report.freed

section Later
variable {messageIds : List CString} {id : CString}

theorem perform_absent {call : Call} (absent : id ∉ messageIds) (other : call ≠ .add id) :
    id ∉ (perform messageIds call).missed ∧ id ∉ (perform messageIds call).freed ∧
      id ∉ (perform messageIds call).messageIds := by
  cases call with
  | add new =>
    refine ⟨List.not_mem_nil, List.not_mem_nil, ?_⟩
    intro member
    rcases List.mem_append.mp member with old | same
    · exact absent old
    · exact other (congrArg Call.add (List.mem_singleton.mp same).symm)
  | process buffer =>
    unfold perform processMissedMessageIds
    dsimp only
    split
    · exact ⟨List.not_mem_nil, List.not_mem_nil, absent⟩
    · split
      · exact ⟨absent, List.not_mem_nil, absent⟩
      · refine ⟨?_, ?_, ?_⟩
        · intro member
          exact absent (List.mem_of_mem_take (List.mem_of_mem_filter member))
        · intro member
          exact absent (List.mem_of_mem_take member)
        · intro member
          exact absent (List.mem_of_mem_drop member)

theorem reports_absent {calls : List Call} (absent : id ∉ messageIds) (others : Call.add id ∉ calls) :
    ∀ report ∈ reports messageIds calls, id ∉ report.missed ∧ id ∉ report.freed := by
  induction calls generalizing messageIds with
  | nil =>
    intro report member
    exact absurd member List.not_mem_nil
  | cons call calls ih =>
    obtain ⟨fresh, rest⟩ := not_or.mp (mt List.mem_cons.mpr others)
    obtain ⟨unreported, unfreed, gone⟩ := perform_absent absent (Ne.symm fresh)
    intro report member
    rcases List.mem_cons.mp member with rfl | later
    · exact ⟨unreported, unfreed⟩
    · exact ih gone rest report later

end Later

section Process
variable {buffer : CString} {pending : List CString}

theorem getLast_splitString : (splitString buffer idsSeparator).getLast? = some (lastId buffer) := by
  rw [splitString_eq]
  exact List.getLast?_eq_some_getLast _

theorem search_absent {id : CString} (absent : id ∉ pending) : pending.findIdx? (· = id) = none := by
  rw [List.findIdx?_eq_none_iff]
  intro other member
  exact decide_eq_false (ne_of_mem_of_not_mem member absent)

theorem process_absent (absent : lastId buffer ∉ pending) :
    processMissedMessageIds buffer pending = ⟨pending, [], pending⟩ := by
  unfold processMissedMessageIds
  simp only [getLast_splitString, search_absent absent]

theorem process_present {front back : List CString} (first : lastId buffer ∉ front) :
    processMissedMessageIds buffer (front ++ lastId buffer :: back) =
      ⟨front.filter (· ∉ mentioned buffer), front ++ [lastId buffer], back⟩ := by
  have search : (front ++ lastId buffer :: back).findIdx? (· = lastId buffer) = some front.length := by
    rw [List.findIdx?_append, search_absent first, List.findIdx?_cons]
    simp
  have upTo : (front ++ lastId buffer :: back).take (front.length + 1) = front ++ [lastId buffer] := by
    rw [List.take_length_add_append]
    rfl
  have beyond : (front ++ lastId buffer :: back).drop (front.length + 1) = back := by
    rw [List.drop_length_add_append]
    rfl
  have mention : ([lastId buffer].filter fun id => decide (id ∉ mentioned buffer)) = [] := by
    have member : lastId buffer ∈ mentioned buffer := List.getLast_mem _
    simp [member]
  have unfound : (fun id => !(splitString buffer idsSeparator).contains id) =
      fun id => decide (id ∉ mentioned buffer) := by
    funext id
    rw [splitString_eq, List.contains_eq_mem, decide_not]
    rfl
  unfold processMissedMessageIds
  simp only [getLast_splitString, search, upTo, beyond]
  rw [unfound, List.filter_append, mention, List.append_nil]

theorem partitions_nothing : Partitions buffer [] (processMissedMessageIds buffer []) := by
  have absent : lastId buffer ∉ [] := List.not_mem_nil
  rw [process_absent absent]
  constructor
  · intro front back cut
    simp at cut
  · intro _
    exact ⟨rfl, rfl⟩
  · intro id member
    exact absurd member List.not_mem_nil
  · intro id taken
    rcases taken with missed | freed
    · exact absurd missed List.not_mem_nil
    · exact absurd freed List.not_mem_nil

theorem partitions_present (distinct : pending.Nodup) (present : lastId buffer ∈ pending) :
    Partitions buffer pending (processMissedMessageIds buffer pending) := by
  obtain ⟨front, back, rfl, first⟩ := List.eq_append_cons_of_mem present
  obtain ⟨-, distinctBack, apart⟩ := List.nodup_append.mp distinct
  obtain ⟨notBack, -⟩ := List.nodup_cons.mp distinctBack
  -- whatever the call takes from the list is not behind it as well
  have gone : ∀ id ∈ front ++ [lastId buffer], id ∉ back := by
    intro id member pending
    rcases List.mem_append.mp member with early | same
    · exact apart id early id (List.mem_cons_of_mem _ pending) rfl
    · exact notBack (List.mem_singleton.mp same ▸ pending)
  rw [process_present first]
  constructor
  · intro front' back' cut
    obtain ⟨rfl, -, rfl⟩ := (List.append_cons_inj_of_notMem first notBack).mp cut
    exact ⟨rfl, rfl⟩
  · intro absent
    exact absurd present absent
  · intro id member
    exact gone id (List.mem_append_left _ (List.mem_of_mem_filter member))
  · intro id taken calls others
    apply reports_absent _ others
    rcases taken with missed | freed
    · exact gone id (List.mem_append_left _ (List.mem_of_mem_filter missed))
    · exact gone id freed

end Process

/-- The pending ids are partitioned exactly when there is none or the last id of the
    acknowledgement is among them. -/
theorem missed_ids_partition_iff (buffer : CString) (pending : List CString) (distinct : pending.Nodup) :
    Partitions buffer pending (processMissedMessageIds buffer pending) ↔
      pending = [] ∨ lastId buffer ∈ pending := by
  constructor
  · intro parts
    by_cases present : lastId buffer ∈ pending
    · exact Or.inr present
    · have left := (parts.all present).2
      rw [process_absent present] at left
      exact Or.inl left
  · rintro (rfl | present)
    · exact partitions_nothing
    · exact partitions_present distinct present

theorem missed_ids_partition_three :
    let pending := ["a".toList, "b".toList, "c".toList]
    Partitions "b".toList pending (processMissedMessageIds "b".toList pending) ↔
      pending = [] ∨ lastId "b".toList ∈ pending :=
  missed_ids_partition_iff _ _ (by decide)

/-- The acknowledgement of an id that is not pending. -/
theorem unknown_id_keeps_pending :
    ¬ ∀ (buffer : CString) (pending : List CString), pending.Nodup →
      (∀ id ∈ pending, idsSeparator ∉ id) →
      Partitions buffer pending (processMissedMessageIds buffer pending) := by
  intro always
  have parts := always "b".toList ["a".toList] (by decide) (by decide)
  have absent : lastId "b".toList ∉ ["a".toList] := by decide
  have left := (parts.all absent).2
  rw [process_absent absent] at left
  exact absurd left (List.cons_ne_nil _ _)

end RealMQ.MissedMessageIds
