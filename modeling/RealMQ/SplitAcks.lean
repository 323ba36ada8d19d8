import RealMQ.ClientThread
import RealMQ.BufferSegments

/- An acknowledgement that send_ids cuts into segments, on its way through responder_thread:
   each segment is compared with the pending messages as if it were complete. -/
namespace RealMQ.SplitAcks
open CStrings DynamicArrays Marshalling BufferSegments NextFit DiffFromArrays ClientThread

def segmentTexts (maxSegmentSize : Nat) (acks : DynamicArray UInt64) : List CString :=
  (marshalAndSplit maxSegmentSize (fun _ => true) acks).segments.map BufferSegment.data

/-- The datagrams one after another, at one clock value. Segments of the shipped size are shorter
    than the 2048 bytes of the client's buffer, and so are read as they were sent. -/
def respondAll (now : Int64) : List CString → Client → Option Client
  | [], client => some client
  | text :: texts, client => (respond (fun _ => now) text client).bind (respondAll now texts)

/-- The segments have done what the whole list does. -/
structure SameMeaning (client split : Client) (whole : DiffState) : Prop where
  array : toList split.gArray = toList whole.firstArray
  resent : ∃ new, split.resent = client.resent ++ new ∧
    ∀ x, x ∈ new ↔ x ∈ whole.resent.map Message.id
  missed : split.gMissedCount = client.gMissedCount + whole.missedCount

def InFirstSegment (maxSegmentSize : Nat) (acks : DynamicArray UInt64) (x : UInt64) : Prop :=
  fits maxSegmentSize ((toList acks).take ((toList acks).idxOf x + 1)) = true

theorem ids_unmarshal_joinIds (list : List UInt64) :
    ids (unmarshalUint64Array (joinIds list)) = list := by
  rw [ids_values, unmarshal_joinIds]

section Segments
variable {now : Int64} {client : Client}

theorem segment_texts {maxSegmentSize : Nat} {acks : DynamicArray UInt64}
    (nonempty : acks.size ≠ 0) (room : 20 ≤ maxSegmentSize) :
    segmentTexts maxSegmentSize acks = (pack (fits maxSegmentSize) (toList acks)).map joinIds := by
  have single : ∀ x ∈ ids acks, (idText x).length ≤ maxSegmentSize :=
    fun x _ => idText_short room x
  rw [segmentTexts, marshalAndSplit_eq_pack nonempty single, ids_values, List.map_map]
  rfl

theorem respond_group (now : Int64) (group : List UInt64) (distinct : (ids client.gArray).Nodup) :
    ∃ next, respond (fun _ => now) (joinIds group) client = some next ∧
      toList next.gArray = (toList client.gArray).filter (kept now group) ∧
      next.resent = client.resent ++
        ((toList client.gArray).filter (missed now group)).reverse.map Message.id ∧
      next.gMissedCount = client.gMissedCount +
        ((toList client.gArray).filter (missed now group)).length := by
  have word : joinIds group ≠ stopText := joinIds_ne (x := 'S') (by decide) group
  obtain ⟨st, run, list, resent, counted⟩ := diff_distinct (fun _ => now) (fun _ => now)
    (unmarshalUint64Array (joinIds group)) distinct (fun _ _ => rfl)
  refine ⟨_, by rw [respond, if_neg word, run]; rfl, ?_, ?_, ?_⟩
  · simp only [list, kept, ids_unmarshal_joinIds]; rfl
  · simp only [resent, missed, ids_unmarshal_joinIds]; rfl
  · simp only [counted, resent, missed, ids_unmarshal_joinIds, List.length_reverse]; rfl

theorem filter_nodup {p : Message → Bool} {array array' : DynamicArray Message}
    (distinct : (ids array).Nodup) (list : toList array' = (toList array).filter p) :
    (ids array').Nodup := by
  rw [ids, list]
  exact (List.filter_sublist.map Element.msgId).nodup distinct

theorem respondAll_young (groups : List (List UInt64)) (distinct : (ids client.gArray).Nodup)
    (young : ∀ m ∈ toList client.gArray, late now m = false) :
    ∃ final, respondAll now (groups.map joinIds) client = some final ∧
      toList final.gArray = (toList client.gArray).filter (fun m => m.id ∉ groups.flatten) ∧
      final.resent = client.resent ∧ final.gMissedCount = client.gMissedCount := by
  induction groups generalizing client with
  | nil => exact ⟨client, rfl, by simp, rfl, rfl⟩
  | cons group groups ih =>
    obtain ⟨next, run, list, resent, count⟩ := respond_group now group distinct
    have nothing : (toList client.gArray).filter (missed now group) = [] := by
      apply List.filter_eq_nil_iff.mpr
      intro m member
      simp [missed, young m member]
    have later : ∀ m ∈ toList next.gArray, late now m = false := by
      intro m member
      rw [list] at member
      exact young m (List.mem_of_mem_filter member)
    obtain ⟨final, rest, list', resent', count'⟩ := ih (filter_nodup distinct list) later
    refine ⟨final, by simp [respondAll, run, rest], ?_, ?_, ?_⟩
    · rw [list', list, List.filter_filter]
      apply List.filter_congr
      intro m member
      rw [Bool.eq_iff_iff]
      simp [kept, young m member, and_comm]
    · rw [resent', resent, nothing]; simp
    · rw [count', count, nothing]; simp

/-- The first segment decides what is resent. -/
theorem respondAll_groups (now : Int64) (first : List UInt64) (groups : List (List UInt64))
    (distinct : (ids client.gArray).Nodup) :
    ∃ final, respondAll now ((first :: groups).map joinIds) client = some final ∧
      toList final.gArray =
        (toList client.gArray).filter (kept now (first :: groups).flatten) ∧
      final.resent = client.resent ++
        ((toList client.gArray).filter (missed now first)).reverse.map Message.id ∧
      final.gMissedCount = client.gMissedCount +
        ((toList client.gArray).filter (missed now first)).length := by
  obtain ⟨next, run, list, resent, count⟩ := respond_group now first distinct
  have young : ∀ m ∈ toList next.gArray, late now m = false := by
    intro m member
    rw [list] at member
    have stays := (List.mem_filter.mp member).2
    simp only [kept, Bool.and_eq_true, Bool.not_eq_true'] at stays
    exact stays.2
  obtain ⟨final, rest, list', resent', count'⟩ :=
    respondAll_young groups (filter_nodup distinct list) young
  refine ⟨final, by simp [respondAll, run, rest], ?_, by rw [resent', resent],
    by rw [count', count]⟩
  rw [list', list, List.filter_filter]
  apply List.filter_congr
  intro m _
  simp [kept, Bool.and_comm, Bool.and_left_comm, Bool.and_assoc]

theorem first_segment {maxSegmentSize : Nat} {acks : DynamicArray UInt64}
    (nonempty : acks.size ≠ 0) (room : 20 ≤ maxSegmentSize) :
    ∃ first rest, pack (fits maxSegmentSize) (toList acks) = first :: rest ∧
      ∀ x ∈ toList acks, x ∈ first ↔ InFirstSegment maxSegmentSize acks x := by
  have filled : toList acks ≠ [] := toList_ne_nil nonempty
  have single : ∀ x ∈ toList acks, fits maxSegmentSize [x] = true := by
    intro x _
    have short := idText_short room x
    simpa [fits] using short
  obtain ⟨k, groups, reach⟩ := pack_head (fits_prefixClosed maxSegmentSize) filled single
  refine ⟨_, _, groups, ?_⟩
  intro x member
  have position := List.idxOf_lt_length_of_mem member
  rw [List.mem_take_iff_idxOf_lt member, ← Nat.succ_le_iff]
  exact reach _ (Nat.succ_pos _) (Nat.succ_le_of_lt position)

/-- Late messages that are acknowledged have to be so in the first segment. -/
def LateOnesFirst (maxSegmentSize : Nat) (now : Int64) (client : Client)
    (acks : DynamicArray UInt64) : Prop :=
  ∀ m ∈ toList client.gArray, late now m = true → m.id ∈ toList acks →
    InFirstSegment maxSegmentSize acks m.id

structure Compared (now : Int64) (client : Client) (acks first : List UInt64) (split : Client)
    (whole : DiffState) : Prop where
  array : toList split.gArray = toList whole.firstArray
  split_resent : split.resent = client.resent ++
    ((toList client.gArray).filter (missed now first)).reverse.map Message.id
  split_missed : split.gMissedCount =
    client.gMissedCount + ((toList client.gArray).filter (missed now first)).length
  whole_resent : whole.resent = ((toList client.gArray).filter (missed now acks)).reverse
  whole_missed : whole.missedCount = whole.resent.length

theorem split_runs {maxSegmentSize : Nat} (now : Int64) (client : Client)
    {acks : DynamicArray UInt64} (room : 20 ≤ maxSegmentSize) (nonempty : acks.size ≠ 0)
    (distinct : (ids client.gArray).Nodup) :
    ∃ split whole first, respondAll now (segmentTexts maxSegmentSize acks) client = some split ∧
      diffFromArrays (working fun _ => now) client.gArray acks = some whole ∧
      Compared now client (toList acks) first split whole ∧ first ⊆ toList acks ∧
      ∀ x ∈ toList acks, x ∈ first ↔ InFirstSegment maxSegmentSize acks x := by
  obtain ⟨first, rest, groups, place⟩ := first_segment nonempty room
  have all : (first :: rest).flatten = toList acks := by rw [← groups, pack_flatten]
  obtain ⟨split, run, list, resent, counted⟩ :=
    respondAll_groups now first rest distinct
  obtain ⟨whole, run', list', resent', counted'⟩ := diff_distinct (fun _ => now) (fun _ => now)
    acks distinct (fun _ _ => rfl)
  rw [all] at list
  rw [ids_values] at list' resent'
  refine ⟨split, whole, first, by rw [segment_texts nonempty room, groups, run], run',
    ⟨by rw [list, list'], resent, counted, resent', counted'⟩, ?_, place⟩
  rw [← all, List.flatten_cons]
  exact List.subset_append_left _ _

theorem late_ones_first {maxSegmentSize : Nat} {acks : DynamicArray UInt64} {first : List UInt64}
    {split : Client} {whole : DiffState}
    (compared : Compared now client (toList acks) first split whole)
    (place : ∀ x ∈ toList acks, x ∈ first ↔ InFirstSegment maxSegmentSize acks x)
    (same : SameMeaning client split whole) : LateOnesFirst maxSegmentSize now client acks := by
  intro m member old acked
  by_contra outside
  have unnamed : m.id ∉ first := fun h => outside ((place m.id acked).mp h)
  obtain ⟨new, eq, set⟩ := same.resent
  rw [compared.split_resent] at eq
  have again : m.id ∈ new := by
    rw [← List.append_cancel_left eq]
    refine List.mem_map_of_mem (List.mem_reverse.mpr (List.mem_filter.mpr ⟨member, ?_⟩))
    simp [missed, unnamed, old]
  obtain ⟨m', resent, id⟩ := List.mem_map.mp ((set m.id).mp again)
  rw [compared.whole_resent] at resent
  have absent := (List.mem_filter.mp (List.mem_reverse.mp resent)).2
  simp only [missed, Bool.and_eq_true, decide_eq_true_eq, id] at absent
  exact absent.1 acked

end Segments

/-- Splitting keeps the meaning exactly when the first segment names every late message that
    is acknowledged at all. -/
theorem split_ack_same_meaning_iff (maxSegmentSize : Nat) (now : Int64) (client : Client)
    (acks : DynamicArray UInt64) (room : 20 ≤ maxSegmentSize) (nonempty : acks.size ≠ 0)
    (distinct : (ids client.gArray).Nodup) :
    ∃ split whole, respondAll now (segmentTexts maxSegmentSize acks) client = some split ∧
      diffFromArrays (working fun _ => now) client.gArray acks = some whole ∧
      (SameMeaning client split whole ↔ LateOnesFirst maxSegmentSize now client acks) := by
  obtain ⟨split, whole, first, run, run', compared, inside, place⟩ :=
    split_runs now client room nonempty distinct
  refine ⟨split, whole, run, run', late_ones_first compared place, ?_⟩
  intro order
  have agree : (toList client.gArray).filter (missed now first) =
      (toList client.gArray).filter (missed now (toList acks)) := by
    apply List.filter_congr
    intro m member
    cases old : late now m with
    | false => simp [missed, old]
    | true =>
      have iff : m.id ∈ first ↔ m.id ∈ toList acks :=
        ⟨fun h => inside h, fun acked => (place m.id acked).mpr (order m member old acked)⟩
      simp [missed, iff]
  refine ⟨compared.array, ⟨_, compared.split_resent, ?_⟩, ?_⟩
  · intro x
    rw [agree, compared.whole_resent]
  · rw [compared.split_missed, compared.whole_missed, compared.whole_resent,
      List.length_reverse, agree]

def oneLate : Client := sendMessage 0 "a".toList startClient

def longAck : DynamicArray UInt64 :=
  addAll (initDynamicArray UInt64 100000) ((List.range' 2 399 ++ [1]).map UInt64.ofNat)

theorem longAck_list : toList longAck = (List.range' 2 399 ++ [1]).map UInt64.ofNat := by
  rw [longAck, toList_addAll, toList_init, List.nil_append]

theorem longAck_nonempty : longAck.size ≠ 0 := by
  rw [← toList_length, longAck_list]
  simp

theorem split_ack_same_meaning_long :
    ∃ split whole, respondAll 5000000 (segmentTexts shippedSegmentSize longAck) oneLate = some split ∧
      diffFromArrays (working fun _ => 5000000) oneLate.gArray longAck = some whole ∧
      (SameMeaning oneLate split whole ↔
        LateOnesFirst shippedSegmentSize 5000000 oneLate longAck) :=
  split_ack_same_meaning_iff _ _ _ _ (by decide) longAck_nonempty (by decide)

/-- The second datagram acknowledges a message that the first one has made the client resend. -/
theorem acked_message_is_resent :
    ¬ ∀ (maxSegmentSize : Nat) (now : Int64) (client : Client) (acks : DynamicArray UInt64),
      20 ≤ maxSegmentSize → acks.size ≠ 0 → (ids client.gArray).Nodup →
      ∃ split whole, respondAll now (segmentTexts maxSegmentSize acks) client = some split ∧
        diffFromArrays (working fun _ => now) client.gArray acks = some whole ∧
        SameMeaning client split whole := by
  intro always
  obtain ⟨split, whole, run, run', same⟩ := always shippedSegmentSize 5000000 oneLate longAck
    (by decide) longAck_nonempty (by decide)
  obtain ⟨split', whole', first, eq, eq', compared, -, place⟩ :=
    split_runs 5000000 oneLate (show 20 ≤ shippedSegmentSize by decide) longAck_nonempty (by decide)
  obtain rfl := Option.some.inj (eq.symm.trans run)
  obtain rfl := Option.some.inj (eq'.symm.trans run')
  have fit := late_ones_first compared place same ⟨1, some "a".toList, 0⟩ (by decide) (by decide)
    (by rw [longAck_list]; simp)
  rw [InFirstSegment, longAck_list] at fit
  exact absurd fit (by decide +kernel)

end RealMQ.SplitAcks
