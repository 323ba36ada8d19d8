import RealMQ.DiffFromArrays
import RealMQ.Foundation.Runs

/- src/realmq_client.c in the QoS build. Every step is one critical section of
   g_array_mutex, so a list of steps is an interleaving of the sender threads with the
   responder; sends and allocations succeed. transmitted lists the texts given to the main
   radios; created, acked and resent are not variables of the source. -/
namespace RealMQ.ClientThread
open CStrings DynamicArrays Marshalling DiffFromArrays ElementRemoval InterpolationSearch

structure Client where
  atomicMsgId : UInt64
  gArray : DynamicArray Message
  gMissedCount : Nat
  transmitted : List CString
  responding : Bool
  created : List UInt64
  acked : List UInt64
  resent : List UInt64

def startClient : Client :=
  { atomicMsgId := 0
    gArray := initDynamicArray Message 100000
    gMissedCount := 0
    transmitted := []
    responding := true
    created := []
    acked := []
    resent := [] }

def stopText : CString := "STOP".toList

def heartbeatText : CString := "HB".toList

def sendMessage (now : Int64) (content : CString) (client : Client) : Client :=
  let msg : Message := ⟨client.atomicMsgId + 1, some content, now⟩
  { client with
    atomicMsgId := client.atomicMsgId + 1
    gArray := addToDynamicArray client.gArray msg
    transmitted := client.transmitted ++ [marshalMessage msg]
    created := client.created ++ [msg.id] }

def sendHeartbeat (client : Client) : Client :=
  { client with transmitted := client.transmitted ++ [heartbeatText] }

/-- A thread that has sent its messages waits for the array to be empty; how many it has sent is
    not counted here. Over UDP the STOP has no group. -/
def sendStop (client : Client) : Option Client :=
  if client.gArray.size = 0 then
    some { client with transmitted := client.transmitted ++ [stopText] }
  else none

def respond (clock : Nat → Int64) (buffer : CString) (client : Client) : Option Client :=
  if buffer = stopText then some { client with responding := false }
  else
    (diffFromArrays (working clock) client.gArray (unmarshalUint64Array buffer)).map fun st =>
      { client with
        gArray := st.firstArray
        gMissedCount := client.gMissedCount + st.missedCount
        transmitted := client.transmitted ++ st.resent.map marshalMessage
        acked := client.acked ++ st.acked
        resent := client.resent ++ st.resent.map Message.id }

inductive Action where
  | send (now : Int64) (content : CString)
  | heartbeat
  | stop
  | respond (clock : Nat → Int64) (buffer : CString)

def step (client : Client) : Action → Option Client
  | .send now content => some (sendMessage now content client)
  | .heartbeat => some (sendHeartbeat client)
  | .stop => sendStop client
  | .respond clock buffer => if client.responding then respond clock buffer client else none

theorem respond_cases (clock : Nat → Int64) (buffer : CString) (client : Client) :
    (buffer = stopText ∧ respond clock buffer client = some { client with responding := false }) ∨
    (buffer ≠ stopText ∧ ∃ st,
      diffFromArrays (working clock) client.gArray (unmarshalUint64Array buffer) = some st ∧
      Accounted (unmarshalUint64Array buffer) client.gArray st ∧
      respond clock buffer client = some
        { client with
          gArray := st.firstArray
          gMissedCount := client.gMissedCount + st.missedCount
          transmitted := client.transmitted ++ st.resent.map marshalMessage
          acked := client.acked ++ st.acked
          resent := client.resent ++ st.resent.map Message.id }) := by
  by_cases stop : buffer = stopText
  · exact Or.inl ⟨stop, by rw [respond, if_pos stop]⟩
  · obtain ⟨st, run, accounted⟩ :=
      diff_accounted clock client.gArray (unmarshalUint64Array buffer)
    exact Or.inr ⟨stop, st, run, accounted, by rw [respond, if_neg stop, run]; rfl⟩

theorem step_cases {client next : Client} {action : Action} (moved : step client action = some next) :
    (∃ now content, action = .send now content ∧ next = sendMessage now content client) ∨
    (next.gArray = client.gArray ∧ next.created = client.created ∧ next.acked = client.acked ∧
      next.resent = client.resent ∧ next.gMissedCount = client.gMissedCount ∧
      next.atomicMsgId = client.atomicMsgId ∧
      (∀ d ∈ next.transmitted, d ∈ client.transmitted ∨ d = heartbeatText ∨ d = stopText) ∧
      ∀ clock buffer, action = .respond clock buffer → buffer = stopText) ∨
    (∃ clock buffer st, action = .respond clock buffer ∧ buffer ≠ stopText ∧
      diffFromArrays (working clock) client.gArray (unmarshalUint64Array buffer) = some st ∧
      Accounted (unmarshalUint64Array buffer) client.gArray st ∧
      next = { client with
        gArray := st.firstArray
        gMissedCount := client.gMissedCount + st.missedCount
        transmitted := client.transmitted ++ st.resent.map marshalMessage
        acked := client.acked ++ st.acked
        resent := client.resent ++ st.resent.map Message.id }) := by
  cases action with
  | send now content => exact Or.inl ⟨now, content, rfl, (Option.some.inj moved).symm⟩
  | heartbeat =>
    obtain rfl := Option.some.inj moved
    exact Or.inr (Or.inl ⟨rfl, rfl, rfl, rfl, rfl, rfl, by simp [sendHeartbeat]; tauto, by simp⟩)
  | stop =>
    simp only [step, sendStop] at moved
    split at moved
    · obtain rfl := Option.some.inj moved
      exact Or.inr (Or.inl ⟨rfl, rfl, rfl, rfl, rfl, rfl, by simp; tauto, by simp⟩)
    · cases moved
  | respond clock buffer =>
    simp only [step] at moved
    split at moved
    · rcases respond_cases clock buffer client with ⟨stop, eq⟩ | ⟨other, st, run, accounted, eq⟩
      · obtain rfl := Option.some.inj (eq.symm.trans moved)
        refine Or.inr (Or.inl ⟨rfl, rfl, rfl, rfl, rfl, rfl, fun d => Or.inl, ?_⟩)
        rintro _ _ ⟨⟩
        exact stop
      · exact Or.inr (Or.inr ⟨clock, buffer, st, rfl, other, run, accounted,
          (Option.some.inj (eq.symm.trans moved)).symm⟩)
    · cases moved

def numbered (n : Nat) : List UInt64 := (List.range n).map fun k => UInt64.ofNat (k + 1)

theorem numbered_increasing {n : Nat} (few : n < 2 ^ 64) : (numbered n).Pairwise (· < ·) := by
  unfold numbered
  rw [List.pairwise_map]
  apply List.Pairwise.imp_of_mem _ List.pairwise_lt_range
  intro i j left right before
  simp only [List.mem_range] at left right
  rw [UInt64.lt_iff_toNat_lt, UInt64.toNat_ofNat', UInt64.toNat_ofNat']
  omega

theorem numbered_nodup {n : Nat} (few : n < 2 ^ 64) : (numbered n).Nodup :=
  (numbered_increasing few).imp UInt64.ne_of_lt

/-- Every created id is pending, acknowledged or resent, and each resend was counted. -/
structure Conserved (client : Client) : Prop where
  counter : client.atomicMsgId = UInt64.ofNat client.created.length
  fresh : client.created = numbered client.created.length
  split : (ids client.gArray ++ (client.acked ++ client.resent)).Perm client.created
  counted : client.gMissedCount = client.resent.length

theorem conserved_start : Conserved startClient := ⟨rfl, rfl, List.Perm.refl _, rfl⟩

theorem conserved_step {client next : Client} {action : Action} (before : Conserved client)
    (moved : step client action = some next) : Conserved next := by
  rcases step_cases moved with ⟨now, content, -, rfl⟩ |
    ⟨array, created, acked, resent, missed, counter, -, -⟩ |
    ⟨clock, buffer, st, -, -, -, accounted, rfl⟩
  · have id : client.atomicMsgId + 1 = UInt64.ofNat (client.created.length + 1) := by
      rw [before.counter, UInt64.ofNat_add]; rfl
    refine ⟨?_, ?_, ?_, before.counted⟩
    · simpa [sendMessage] using id
    · have earlier := before.fresh
      simp only [sendMessage, List.length_append, List.length_singleton, id, numbered,
        List.range_succ, List.map_append, List.map_singleton]
      rw [← numbered, ← earlier]
    · simp only [sendMessage, ids_add, List.append_assoc]
      refine List.Perm.trans ?_ (before.split.append_right _)
      simp only [List.append_assoc]
      apply List.Perm.append_left _
      rw [← List.append_assoc client.acked]
      exact List.perm_append_comm
  · exact ⟨by rw [counter, created, before.counter], by rw [created]; exact before.fresh,
      by rw [array, acked, resent, created]; exact before.split,
      by rw [missed, resent]; exact before.counted⟩
  · refine ⟨before.counter, before.fresh, ?_, ?_⟩
    · refine List.Perm.trans ?_ before.split
      refine List.Perm.trans ?_ (accounted.split.append_right _)
      simp only [List.append_assoc]
      apply List.Perm.append_left _
      rw [List.perm_iff_count]
      intro x
      simp only [List.count_append]
      omega
    · simp [before.counted, accounted.counted]

theorem conserved_run {client next : Client} {actions : List Action} (before : Conserved client)
    (run : Runs.run step client actions = some next) : Conserved next :=
  Runs.run_invariant (fun _ _ _ => conserved_step) before run

theorem pending_sublist_step {client next : Client} {action : Action}
    (before : (ids client.gArray).Sublist client.created)
    (moved : step client action = some next) : (ids next.gArray).Sublist next.created := by
  rcases step_cases moved with ⟨now, content, -, rfl⟩ | ⟨array, created, -⟩ |
    ⟨clock, buffer, st, -, -, -, accounted, rfl⟩
  · simp only [sendMessage, ids_add]
    exact before.append_right _
  · rw [array, created]
    exact before
  · exact (accounted.order.map Element.msgId).trans before

theorem pending_increasing {actions : List Action} {client : Client}
    (run : Runs.run step startClient actions = some client)
    (few : client.created.length < 2 ^ 64) : (ids client.gArray).Pairwise (· < ·) := by
  have order : (ids client.gArray).Sublist client.created :=
    @Runs.run_invariant _ _ step (fun client => (ids client.gArray).Sublist client.created)
      (fun _ _ _ => pending_sublist_step) _ _ _ (List.Sublist.refl _) run
  apply List.Pairwise.sublist order
  rw [(conserved_run conserved_start run).fresh]
  exact numbered_increasing few

theorem pending_search_complete (actions : List Action) (client : Client)
    (run : Runs.run step startClient actions = some client)
    (few : client.created.length < 2 ^ 64) :
    (ids client.gArray).Pairwise (· < ·) ∧ ∀ msgId,
      (interpolateSearch client.gArray msgId = .absent ↔ msgId ∉ ids client.gArray) ∧
      ∀ pos, interpolateSearch client.gArray msgId = .found pos ↔
        pos < client.gArray.size ∧ (client.gArray.data pos).id = msgId := by
  have increasing := pending_increasing run few
  have sorted : (ids client.gArray).Pairwise (· ≤ ·) := increasing.imp UInt64.le_of_lt
  have distinct : (ids client.gArray).Nodup := increasing.imp UInt64.ne_of_lt
  refine ⟨increasing, fun msgId => ⟨interpolateSearch_complete sorted, fun pos => ?_⟩⟩
  rcases interpolateSearch_sound client.gArray msgId with absent | ⟨pos', found, bound, hit⟩
  · have missing := (interpolateSearch_complete sorted).mp absent
    constructor
    · intro answer
      rw [absent] at answer
      cases answer
    · rintro ⟨bound, hit⟩
      exact absurd (mem_ids_iff.mpr ⟨pos, bound, hit⟩) missing
  · constructor
    · intro answer
      rw [found] at answer
      cases answer
      exact ⟨bound, hit⟩
    · rintro ⟨bound', hit'⟩
      rw [found, index_unique distinct bound bound' (hit.trans hit'.symm)]

def gapRun : List Action :=
  [.send 0 "a".toList, .send 0 "b".toList, .send 0 "c".toList, .respond (fun _ => 0) "2".toList]

theorem pending_search_complete_gap :
    ∃ client, Runs.run step startClient gapRun = some client ∧
      (ids client.gArray).Pairwise (· < ·) ∧ ∀ msgId,
        (interpolateSearch client.gArray msgId = .absent ↔ msgId ∉ ids client.gArray) ∧
        ∀ pos, interpolateSearch client.gArray msgId = .found pos ↔
          pos < client.gArray.size ∧ (client.gArray.data pos).id = msgId :=
  ⟨_, rfl, pending_search_complete gapRun _ rfl (by decide)⟩

def Settled (x : UInt64) (resentBefore : List UInt64) (client : Client) : Prop :=
  client.created.Nodup →
    x ∈ client.created ∧ x ∉ ids client.gArray ∧ (x ∈ client.resent → x ∈ resentBefore)

theorem settled_step {x : UInt64} {resentBefore : List UInt64} {client next : Client}
    {action : Action} (before : Settled x resentBefore client)
    (moved : step client action = some next) : Settled x resentBefore next := by
  intro distinct
  rcases step_cases moved with ⟨now, content, -, rfl⟩ |
    ⟨array, created, -, resent, -, -, -, -⟩ | ⟨clock, buffer, st, -, -, -, accounted, rfl⟩
  · simp only [sendMessage, List.nodup_append] at distinct
    obtain ⟨member, gone, old⟩ := before distinct.1
    refine ⟨List.mem_append_left _ member, ?_, old⟩
    simp only [sendMessage, ids_add, List.mem_append, List.mem_singleton, not_or]
    exact ⟨gone, distinct.2.2 x member _ (List.mem_singleton.mpr rfl)⟩
  · rw [created] at distinct
    rw [array, created, resent]
    exact before distinct
  · obtain ⟨member, gone, old⟩ := before distinct
    have order : ids st.firstArray ⊆ ids client.gArray :=
      List.map_subset _ accounted.order.subset
    refine ⟨member, fun left => gone (order left), ?_⟩
    intro again
    rcases List.mem_append.mp again with earlier | now
    · exact old earlier
    · obtain ⟨m, resent, rfl⟩ := List.mem_map.mp now
      exact absurd (List.mem_map_of_mem (accounted.unnamed m resent).1) gone

theorem settled_respond {x : UInt64} {client next : Client} {clock : Nat → Int64}
    {buffer : CString} (before : Conserved client) (ack : buffer ≠ stopText)
    (member : x ∈ client.created) (acked : x ∈ ids (unmarshalUint64Array buffer))
    (moved : step client (.respond clock buffer) = some next) :
    Settled x client.resent next := by
  intro distinct
  rcases step_cases moved with ⟨now, content, impossible, -⟩ |
    ⟨-, -, -, -, -, -, -, stop⟩ | ⟨_, _, st, same, -, run, accounted, rfl⟩
  · cases impossible
  · exact absurd (stop clock buffer rfl) ack
  · cases same
    have pending : (ids client.gArray).Nodup :=
      (before.split.nodup_iff.mpr distinct).of_append_left
    refine ⟨member, diff_removes_named pending run acked, ?_⟩
    intro again
    rcases List.mem_append.mp again with earlier | now
    · exact earlier
    · obtain ⟨m, resent, rfl⟩ := List.mem_map.mp now
      exact absurd acked (accounted.unnamed m resent).2

/-- The created ids are split into pending, acknowledged and resent ones, and none is resent
    from an acknowledgement on that names it after its creation. -/
theorem pending_messages_conserved (actions : List Action) (client : Client)
    (run : Runs.run step startClient actions = some client)
    (few : client.created.length < 2 ^ 64) :
    (ids client.gArray ++ client.acked ++ client.resent).Perm client.created ∧
      (ids client.gArray ++ client.acked ++ client.resent).Nodup ∧
      client.gMissedCount = client.resent.length ∧
      ∀ before clock buffer after earlier, actions = before ++ .respond clock buffer :: after →
        Runs.run step startClient before = some earlier → buffer ≠ stopText →
        ∀ x ∈ ids (unmarshalUint64Array buffer), x ∈ earlier.created →
          x ∈ client.resent → x ∈ earlier.resent := by
  have final := conserved_run conserved_start run
  have distinct : client.created.Nodup := by
    rw [final.fresh]
    exact numbered_nodup few
  have split := final.split
  rw [← List.append_assoc] at split
  refine ⟨split, split.nodup_iff.mpr distinct, final.counted, ?_⟩
  intro before clock buffer after earlier parts front ack x acked member resent
  rw [parts, Runs.run_append, front] at run
  obtain ⟨next, moved, rest⟩ := Runs.run_cons_some.mp run
  have settled := settled_respond (conserved_run conserved_start front) ack member acked moved
  exact (Runs.run_invariant (fun _ _ _ => settled_step) settled rest distinct).2.2 resent

def shortRun : List Action :=
  [.send 0 "a".toList, .send 0 "b".toList, .respond (fun _ => 5000000) "1".toList]

theorem pending_messages_conserved_short :
    ∃ client, Runs.run step startClient shortRun = some client ∧
      (ids client.gArray ++ client.acked ++ client.resent).Perm client.created ∧
      (ids client.gArray ++ client.acked ++ client.resent).Nodup ∧
      client.gMissedCount = client.resent.length ∧
      ∀ before clock buffer after earlier, shortRun = before ++ .respond clock buffer :: after →
        Runs.run step startClient before = some earlier → buffer ≠ stopText →
        ∀ x ∈ ids (unmarshalUint64Array buffer), x ∈ earlier.created →
          x ∈ client.resent → x ∈ earlier.resent :=
  ⟨_, rfl, pending_messages_conserved shortRun _ rfl (by decide)⟩

/-- An acknowledgement that comes before the message with its id is created does not keep
    that message from being resent. -/
theorem early_ack_is_forgotten :
    ¬ ∀ (actions : List Action) (client : Client),
      Runs.run step startClient actions = some client → client.created.length < 2 ^ 64 →
      ∀ before clock buffer after earlier, actions = before ++ .respond clock buffer :: after →
        Runs.run step startClient before = some earlier → buffer ≠ stopText →
        ∀ x ∈ ids (unmarshalUint64Array buffer), x ∈ client.resent → x ∈ earlier.resent := by
  intro always
  have old := always
    [.respond (fun _ => 0) "1".toList, .send 0 "a".toList,
      .respond (fun _ => 5000000) "WAKEUP".toList] _ rfl (by decide) [] _ _ _ startClient rfl rfl
    (by decide) 1 (by decide) (by decide)
  exact absurd old (by decide)

end RealMQ.ClientThread
