import RealMQ.MissedMessageIds

/- process_message_ids and process_missed_message_ids of common/utils/utils.c against each other:
   the ids that arrived go back in batches, and the side that sent them looks up batch after batch.
   The strings of one flush stay in their order; any of them may be lost. -/
namespace RealMQ.IdBatches
open CStrings StringManip Buffers MessageIds MissedMessageIds

def processAll : List CString → List CString → Missed
  | [], messageIds => ⟨[], [], messageIds⟩
  | buffer :: buffers, messageIds =>
      let first := processMissedMessageIds buffer messageIds
      let rest := processAll buffers first.messageIds
      ⟨first.missed ++ rest.missed, first.freed ++ rest.freed, rest.messageIds⟩

/-- The pending ids are cut behind the last acknowledged one. -/
structure Settled (pending acked : List CString) (result : Missed) : Prop where
  cut : pending = result.freed ++ result.messageIds
  last : result.freed.getLast? = acked.getLast?
  missed : result.missed = result.freed.filter (· ∉ acked)

section Order
variable {buffer : CString} {pending : List CString}

theorem received_cons (arrived : List CString) :
    received (buffer :: arrived) = mentioned buffer ++ received arrived := by
  rw [received, List.flatMap_cons, splitString_eq]
  rfl

theorem mentioned_split (buffer : CString) :
    mentioned buffer = (mentioned buffer).dropLast ++ [lastId buffer] :=
  (List.dropLast_append_getLast _).symm

theorem sublist_before {early front back : List CString} {x : CString} (first : x ∉ front)
    (order : (early ++ [x]).Sublist (front ++ x :: back)) (once : x ∉ back) : early.Sublist front := by
  obtain ⟨left, right, cut, inLeft, inRight⟩ := List.append_sublist_iff.mp order
  have member : x ∈ right := List.singleton_sublist.mp inRight
  rcases List.append_eq_append_iff.mp cut with ⟨between, rfl, rest⟩ | ⟨between, rfl, -⟩
  · cases between with
    | nil => simpa using inLeft
    | cons y between =>
      obtain ⟨rfl, rfl⟩ := List.cons_eq_cons.mp rest
      exact absurd (List.mem_append_right _ member) once
  · exact inLeft.trans (List.sublist_append_left _ _)

theorem getLast?_behind (front rest : List CString) (x : CString) :
    (front ++ [x] ++ rest).getLast? = rest.getLast?.or (some x) := by
  rw [List.getLast?_append, List.getLast?_concat]

theorem mentioned_front {front back : List CString} (first : lastId buffer ∉ front)
    (order : (mentioned buffer).Sublist (front ++ lastId buffer :: back))
    (once : lastId buffer ∉ back) : ∀ id ∈ mentioned buffer, id ∈ front ++ [lastId buffer] := by
  rw [mentioned_split] at order
  intro id member
  rw [mentioned_split] at member
  exact ((sublist_before first order once).append_right _).subset member

/-- One batch: the rest of the acknowledged ids is still to come in what stays pending. -/
theorem settled_cons {acked : List CString} {rest : Missed} {front back : List CString}
    (distinct : (front ++ lastId buffer :: back).Nodup)
    (order : (mentioned buffer).Sublist (front ++ lastId buffer :: back)) (later : acked ⊆ back)
    (settled : Settled back acked rest) :
    Settled (front ++ lastId buffer :: back) (mentioned buffer ++ acked)
      ⟨front.filter (· ∉ mentioned buffer) ++ rest.missed, (front ++ [lastId buffer]) ++ rest.freed,
        rest.messageIds⟩ := by
  obtain ⟨-, distinctBack, apart⟩ := List.nodup_append.mp distinct
  obtain ⟨notBack, -⟩ := List.nodup_cons.mp distinctBack
  have first : lastId buffer ∉ front := fun member => apart _ member _ List.mem_cons_self rfl
  have early := mentioned_front first order notBack
  have named : lastId buffer ∈ mentioned buffer := List.getLast_mem _
  constructor
  · simp [settled.cut]
  · rw [mentioned_split, getLast?_behind, getLast?_behind, settled.last]
  · have inFront : front.filter (· ∉ mentioned buffer) =
        front.filter (· ∉ mentioned buffer ++ acked) := by
      apply List.filter_congr
      intro id member
      have absent : id ∉ acked := fun inside =>
        apart id member id (List.mem_cons_of_mem _ (later inside)) rfl
      simp [absent]
    have inRest : rest.freed.filter (· ∉ acked) =
        rest.freed.filter (· ∉ mentioned buffer ++ acked) := by
      apply List.filter_congr
      intro id member
      have inBack : id ∈ back := settled.cut ▸ List.mem_append_left _ member
      have absent : id ∉ mentioned buffer := by
        intro inside
        rcases List.mem_append.mp (early id inside) with inFront | same
        · exact apart id inFront id (List.mem_cons_of_mem _ inBack) rfl
        · exact notBack (List.mem_singleton.mp same ▸ inBack)
      simp [absent]
    rw [settled.missed, inFront, inRest, List.filter_append, List.filter_append]
    simp [named]

theorem processAll_settles {arrived : List CString} (distinct : pending.Nodup)
    (order : (received arrived).Sublist pending) :
    Settled pending (received arrived) (processAll arrived pending) := by
  induction arrived generalizing pending with
  | nil => exact ⟨rfl, rfl, rfl⟩
  | cons buffer arrived ih =>
    rw [received_cons] at order ⊢
    obtain ⟨early, late, rfl, inEarly, inLate⟩ := List.append_sublist_iff.mp order
    have present : lastId buffer ∈ early := inEarly.subset (List.getLast_mem _)
    obtain ⟨front, back, rfl, first⟩ := List.eq_append_cons_of_mem present
    rw [List.append_assoc, List.cons_append] at distinct ⊢
    have rest := (List.nodup_cons.mp (List.nodup_append.mp distinct).2.1).2
    have within : (received arrived).Sublist (back ++ late) :=
      inLate.trans (List.sublist_append_right _ _)
    rw [processAll, process_present first]
    apply settled_cons distinct _ within.subset (ih rest within)
    exact inEarly.trans (by simp)

end Order

/-- Whatever batches of a flush arrive, in their order, the sender keeps exactly what it sent
    after the last id that they name, and reports exactly the ids before it that none of them
    names. When all arrive, these are the ids that the receiver did not get. -/
theorem batches_settle (garbage : Int → Char) (pending ids arrived : List CString)
    (lastId : Option CString) (distinct : pending.Nodup) (texts : ∀ id ∈ pending, IdText id)
    (order : (ids ++ lastId.toList).Sublist pending) (some_ids : ids ≠ [])
    (arrives : arrived.Sublist (processMessageIds true garbage lastId ids).sent) :
    Settled pending (received arrived) (processAll arrived pending) ∧
      (received arrived).Sublist (ids ++ lastId.toList) ∧
      (arrived = (processMessageIds true garbage lastId ids).sent →
        received arrived = ids ++ lastId.toList) := by
  have inPending : ∀ id ∈ ids ++ lastId.toList, IdText id := fun id member =>
    texts id (order.subset member)
  have complete := @received_flush garbage ids lastId some_ids
    (fun id member => inPending id (List.mem_append_left _ member))
    (fun last member => inPending last (List.mem_append_right _ (Option.mem_toList.mpr member)))
  have within : (received arrived).Sublist (ids ++ lastId.toList) := by
    rw [← complete]
    exact arrives.flatMap _
  refine ⟨processAll_settles distinct (within.trans order), within, ?_⟩
  intro all
  rw [all, complete]

theorem batches_settle_lost :
    let pending := ["a".toList, "b".toList, "c".toList, "d".toList]
    let sent := (processMessageIds true (fun _ => 'x') none ["a".toList, "c".toList]).sent
    Settled pending (received sent) (processAll sent pending) ∧
      (received sent).Sublist (["a".toList, "c".toList] ++ (none : Option CString).toList) ∧
      (sent = (processMessageIds true (fun _ => 'x') none ["a".toList, "c".toList]).sent →
        received sent = ["a".toList, "c".toList] ++ (none : Option CString).toList) :=
  batches_settle (fun _ => 'x') _ _ _ none (by decide) (by decide) (by decide) (by decide)
    (List.Sublist.refl _)

/-- Out of order, an id that was acknowledged is reported as missed. -/
example : (processAll ["b,c".toList, "a".toList] ["a".toList, "b".toList, "c".toList]).missed =
    ["a".toList] := by
  decide

end RealMQ.IdBatches
