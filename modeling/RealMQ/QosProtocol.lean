import RealMQ.ClientThread
import RealMQ.ServerThread
import RealMQ.Foundation.AckLedger

/- The QoS build as a whole: one client process, one server and the two groups between them.
   A text that was handed to a socket can arrive at any later time, any number of times or
   never, which covers loss, delay, reordering and duplication; over UDP only "never" happens to
   the STOP of the client, which has no group. received is not a variable of the source: it lists
   the ids of the data messages that the server handled. -/
namespace RealMQ.QosProtocol
open CStrings DynamicArrays Marshalling BufferSegments DiffFromArrays ClientThread ServerThread
open AckLedger

structure System where
  client : Client
  server : Server
  now : Nat
  received : List UInt64

def start : System := ⟨startClient, startServer, 0, []⟩

/-- What zmq_receive leaves in a buffer of the given size. A longer datagram is cut, and the
    terminator is then not written behind its last byte, so anything may follow. -/
def buffered (size : Nat) (datagram buffer : CString) : Bool :=
  if datagram.length < size then decide (buffer = datagram)
  else (datagram.take (size - 1)).isPrefixOf buffer

/-- The texts on the responder group; main sends STOP when server_thread has ended. -/
def responses (system : System) : List CString :=
  system.server.handed.map Prod.fst ++ if system.server.running then [] else [stopText]

def reading (microseconds : Nat) : Int64 := Int64.ofNat microseconds

def handling (system : System) : Outcome := ⟨reading system.now, fun _ => true, fun _ => true⟩

inductive Event where
  | wait (microseconds : Nat)
  | send (content : CString)
  | heartbeat
  | stop
  | deliver (datagram buffer : CString)
  | respond (datagram buffer : CString) (delay : Nat → Nat)

def act (action : Action) (system : System) : Option System :=
  (ClientThread.step system.client action).map fun client => { system with client := client }

/-- delay says how long after its start one comparison reads the clock at each index. -/
def step (system : System) : Event → Option System
  | .wait microseconds => some { system with now := system.now + microseconds }
  | .send content => act (.send (reading system.now) content) system
  | .heartbeat => act .heartbeat system
  | .stop => act .stop system
  | .deliver datagram buffer =>
      if system.server.running && decide (datagram ∈ system.client.transmitted) &&
          buffered 1024 datagram buffer then
        some { system with
          server := receive (handling system) buffer system.server
          received := system.received ++ (dataId buffer).toList }
      else none
  | .respond datagram buffer delay =>
      if decide (datagram ∈ responses system) && buffered 2048 datagram buffer then
        act (.respond (fun i => reading (system.now + delay i)) buffer) system
      else none

def Reachable (system : System) : Prop := Runs.Reachable step start system

/-- The books of the system. Only id 0, which WAKEUP reads as, is acknowledged without cause. -/
def books (system : System) : Ledger UInt64 :=
  { created := system.client.created
    pending := ids system.client.gArray
    acked := system.client.acked
    resent := system.client.resent
    received := {x | x ∈ system.received} }

/-- Every text in transit says only what is so: data messages carry created ids, and
    acknowledgements name received ones. -/
structure Honest (system : System) : Prop where
  conserved : Conserved system.client
  transmitted : ∀ d ∈ system.client.transmitted, d = heartbeatText ∨ d = stopText ∨
    ∃ msg : Message, msg.id ∈ system.client.created ∧ d = marshalMessage msg
  waiting : ∀ x ∈ toList system.server.gArray, x ∈ system.received
  handed : ∀ d ∈ system.server.handed.map Prod.fst, d.length ≤ shippedSegmentSize ∧
    ∀ x ∈ ids (unmarshalUint64Array d), x ∈ system.received ∨ x = 0

theorem honest_start : Honest start :=
  ⟨conserved_start, by simp [start, startClient], by simp [start, startServer],
    by simp [start, startServer]⟩

theorem buffered_whole {size : Nat} {datagram buffer : CString} (fits : datagram.length < size)
    (arrived : buffered size datagram buffer = true) : buffer = datagram := by
  rw [buffered, if_pos fits, decide_eq_true_eq] at arrived
  exact arrived

theorem buffered_marshal {msg : Message} {buffer : CString}
    (arrived : buffered 1024 (marshalMessage msg) buffer = true) :
    ∃ rest, buffer = idText msg.id ++ '|' :: rest := by
  rw [buffered] at arrived
  split at arrived
  · exact ⟨_, of_decide_eq_true arrived⟩
  · obtain ⟨junk, rfl⟩ := List.isPrefixOf_iff_prefix.mp arrived
    have short := decimal_u64_length msg.id
    obtain ⟨k, cut⟩ : ∃ k, 1024 - 1 = (idText msg.id).length + (k + 1) :=
      ⟨1022 - (idText msg.id).length, by rw [idText]; omega⟩
    refine ⟨(decimal msg.timestamp.toUInt64.toNat ++
      '|' :: msg.content.getD "(null)".toList).take k ++ junk, ?_⟩
    rw [cut, marshalMessage, List.take_length_add_append, List.take_succ_cons,
      List.append_assoc, List.cons_append]

theorem dataId_created {system : System} (honest : Honest system) {datagram buffer : CString}
    {x : UInt64} (sent : datagram ∈ system.client.transmitted)
    (arrived : buffered 1024 datagram buffer = true) (data : dataId buffer = some x) :
    x ∈ system.client.created := by
  rcases honest.transmitted datagram sent with rfl | rfl | ⟨msg, created, rfl⟩
  · rw [buffered_whole (by decide) arrived, show dataId heartbeatText = none by decide] at data
    cases data
  · rw [buffered_whole (by decide) arrived, show dataId stopText = none by decide] at data
    cases data
  · obtain ⟨rest, text⟩ := buffered_marshal arrived
    rw [text, dataId_text, Option.some.injEq] at data
    exact data ▸ created

theorem response_honest {system : System} (honest : Honest system) {datagram buffer : CString}
    (sent : datagram ∈ responses system) (arrived : buffered 2048 datagram buffer = true)
    (ack : buffer ≠ stopText) :
    ∀ x ∈ ids (unmarshalUint64Array buffer), x ∈ system.received ∨ x = 0 := by
  rcases List.mem_append.mp sent with handed | farewell
  · obtain ⟨short, named⟩ := honest.handed datagram handed
    have fits : datagram.length < 2048 := by rw [shippedSegmentSize] at short; omega
    rw [buffered_whole fits arrived]
    exact named
  · split at farewell
    · exact absurd farewell List.not_mem_nil
    · rw [List.mem_singleton.mp farewell] at arrived
      exact absurd (buffered_whole (by decide) arrived) ack

def Answered (system : System) (action : Action) : Prop :=
  ∀ clock buffer, action = .respond clock buffer →
    ∃ datagram ∈ responses system, buffered 2048 datagram buffer = true

theorem step_cases {system next : System} {event : Event} (moved : step system event = some next) :
    (∃ microseconds, next = { system with now := system.now + microseconds }) ∨
    (∃ action client, ClientThread.step system.client action = some client ∧
      Answered system action ∧ next = { system with client := client }) ∨
    (∃ datagram buffer, datagram ∈ system.client.transmitted ∧
      buffered 1024 datagram buffer = true ∧
      next = { system with
        server := receive (handling system) buffer system.server
        received := system.received ++ (dataId buffer).toList }) := by
  have acted : ∀ {action}, Answered system action → act action system = some next →
      ∃ action client, ClientThread.step system.client action = some client ∧
        Answered system action ∧ next = { system with client := client } := by
    intro action answered eq
    obtain ⟨client, done, rfl⟩ := Option.map_eq_some_iff.mp eq
    exact ⟨action, client, done, answered, rfl⟩
  cases event with
  | wait microseconds => exact Or.inl ⟨microseconds, (Option.some.inj moved).symm⟩
  | send content => exact Or.inr (Or.inl (acted (by simp [Answered]) moved))
  | heartbeat => exact Or.inr (Or.inl (acted (by simp [Answered]) moved))
  | stop => exact Or.inr (Or.inl (acted (by simp [Answered]) moved))
  | deliver datagram buffer =>
    simp only [step] at moved
    split at moved
    · rename_i guard
      simp only [Bool.and_eq_true, decide_eq_true_eq] at guard
      exact Or.inr (Or.inr ⟨datagram, buffer, guard.1.2, guard.2, (Option.some.inj moved).symm⟩)
    · cases moved
  | respond datagram buffer delay =>
    simp only [step] at moved
    split at moved
    · rename_i guard
      simp only [Bool.and_eq_true, decide_eq_true_eq] at guard
      refine Or.inr (Or.inl (acted ?_ moved))
      rintro _ _ ⟨⟩
      exact ⟨datagram, guard.1, guard.2⟩
    · cases moved

theorem honest_client {system : System} {action : Action} {client : Client}
    (honest : Honest system) (moved : ClientThread.step system.client action = some client) :
    Honest { system with client := client } := by
  refine ⟨conserved_step honest.conserved moved, ?_, honest.waiting, honest.handed⟩
  intro d member
  rcases ClientThread.step_cases moved with ⟨now, content, -, rfl⟩ |
    ⟨-, created, -, -, -, -, texts, -⟩ | ⟨clock, buffer, st, -, -, -, accounted, rfl⟩
  · simp only [sendMessage, List.mem_append, List.mem_singleton] at member ⊢
    rcases member with old | rfl
    · rcases honest.transmitted d old with beat | stop | ⟨msg, made, eq⟩
      · exact Or.inl beat
      · exact Or.inr (Or.inl stop)
      · exact Or.inr (Or.inr ⟨msg, Or.inl made, eq⟩)
    · exact Or.inr (Or.inr ⟨_, Or.inr rfl, rfl⟩)
  · dsimp only
    rw [created]
    rcases texts d member with old | rfl | rfl
    · exact honest.transmitted d old
    · exact Or.inl rfl
    · exact Or.inr (Or.inl rfl)
  · rcases List.mem_append.mp member with old | again
    · exact honest.transmitted d old
    · obtain ⟨msg, resent, rfl⟩ := List.mem_map.mp again
      have held : msg.id ∈ ids system.client.gArray :=
        List.mem_map_of_mem (accounted.unnamed msg resent).1
      exact Or.inr (Or.inr ⟨msg, honest.conserved.split.subset (List.mem_append_left _ held), rfl⟩)

theorem honest_deliver {system : System} (buffer : CString) (honest : Honest system) :
    Honest { system with
      server := receive (handling system) buffer system.server
      received := system.received ++ (dataId buffer).toList } := by
  have later : ∀ x, x ∈ system.received → x ∈ system.received ++ (dataId buffer).toList :=
    fun x => List.mem_append_left _
  have waiting : ∀ x ∈ toList system.server.gArray, x ∈ system.received ++ (dataId buffer).toList :=
    fun x member => later x (honest.waiting x member)
  have handed : ∀ d ∈ system.server.handed.map Prod.fst, d.length ≤ shippedSegmentSize ∧
      ∀ x ∈ ids (unmarshalUint64Array d),
        x ∈ system.received ++ (dataId buffer).toList ∨ x = 0 := by
    intro d before
    obtain ⟨short, named⟩ := honest.handed d before
    exact ⟨short, fun x inside => (named x inside).imp_left (later x)⟩
  rcases receive_cases (show Allocates (handling system) from rfl) buffer system.server with
    ⟨-, array, texts⟩ | ⟨-, array, texts⟩ | ⟨id, data, array, texts⟩
  · refine ⟨honest.conserved, honest.transmitted, ?_, ?_⟩
    · dsimp only
      rw [array]
      exact waiting
    · dsimp only
      rw [texts]
      exact handed
  · refine ⟨honest.conserved, honest.transmitted, ?_, ?_⟩
    · dsimp only
      rw [array]
      exact fun _ inside => absurd inside List.not_mem_nil
    · dsimp only
      rw [texts, List.map_append]
      intro d member
      rcases List.mem_append.mp member with before | new
      · exact handed d before
      · obtain ⟨short, named⟩ := sendIds_honest _ _ new
        exact ⟨short, fun x inside => (named x inside).imp_left (waiting x)⟩
  · refine ⟨honest.conserved, honest.transmitted, ?_, ?_⟩
    · dsimp only
      rw [array]
      intro x member
      rcases List.mem_append.mp member with old | new
      · exact waiting x old
      · rw [data]
        exact List.mem_append_right _ new
    · dsimp only
      rw [texts]
      exact handed

theorem honest_step {system next : System} {event : Event} (honest : Honest system)
    (moved : step system event = some next) : Honest next := by
  rcases step_cases moved with ⟨_, rfl⟩ | ⟨action, client, done, -, rfl⟩ | ⟨d, buffer, -, -, rfl⟩
  · exact ⟨honest.conserved, honest.transmitted, honest.waiting, honest.handed⟩
  · exact honest_client honest done
  · exact honest_deliver buffer honest

def phantoms : Set UInt64 := {0}

theorem books_client {system : System} {action : Action} {client : Client}
    (honest : Honest system) (answered : Answered system action)
    (moved : ClientThread.step system.client action = some client) :
    Moves phantoms (books system) (books { system with client := client }) := by
  rcases ClientThread.step_cases moved with ⟨now, content, -, rfl⟩ |
    ⟨array, created, acked, resent, -, -, -, -⟩ |
    ⟨clock, buffer, st, rfl, ack, -, accounted, rfl⟩
  · have move : Move phantoms (books system) _ :=
      Move.create (books system) (system.client.atomicMsgId + 1)
    have snoc : ∀ (list : List UInt64) (x : UInt64),
        ((list ++ [x] : List UInt64) : Multiset UInt64) = x ::ₘ (list : Multiset UInt64) :=
      fun list x => Multiset.coe_eq_coe.mpr (List.perm_append_singleton x list)
    apply Relation.ReflTransGen.single
    simp only [books, sendMessage, ids_add, snoc]
    exact move
  · simp only [books, array, created, acked, resent]
    exact .refl
  · -- One comparison is a series of resends followed by a series of acknowledgements.
    obtain ⟨datagram, sent, arrived⟩ := answered clock buffer rfl
    have named : ∀ x ∈ (st.acked : Multiset UInt64),
        x ∈ (books system).received ∨ x ∈ phantoms := fun x member =>
      response_honest honest sent arrived ack x (accounted.named x member)
    have held : (books system).pending =
        (ids st.firstArray + st.acked : Multiset UInt64) + (st.resent.map Message.id : List UInt64) := by
      simp only [books, Multiset.coe_add, List.append_assoc]
      exact Multiset.coe_eq_coe.mpr accounted.split.symm
    have resends : Moves phantoms (books system) _ := giveUp_all held
    have acknowledgements : Moves phantoms
      { books system with
        pending := (ids st.firstArray + st.acked : Multiset UInt64)
        resent := (books system).resent + (st.resent.map Message.id : List UInt64) } _ :=
      acknowledge_all rfl named
    simpa [books, Moves] using resends.trans acknowledgements

theorem books_deliver {system : System} {datagram buffer : CString} (honest : Honest system)
    (sent : datagram ∈ system.client.transmitted)
    (arrived : buffered 1024 datagram buffer = true) :
    Moves phantoms (books system) (books { system with
      server := receive (handling system) buffer system.server
      received := system.received ++ (dataId buffer).toList }) := by
  cases data : dataId buffer with
  | none =>
    simp only [books, Option.toList_none, List.append_nil]
    exact .refl
  | some x =>
    have move : Move phantoms (books system) _ := Move.receive (books system) x
      (dataId_created honest sent arrived data)
    have one_more : {y | y ∈ system.received ++ [x]} = insert x {y | y ∈ system.received} := by
      ext y
      simp [or_comm]
    apply Relation.ReflTransGen.single
    simpa only [books, Option.toList_some, one_more] using move

/-- The protocol refines the books. -/
theorem books_step {system next : System} {event : Event} (honest : Honest system)
    (moved : step system event = some next) : Moves phantoms (books system) (books next) := by
  rcases step_cases moved with
    ⟨_, rfl⟩ | ⟨action, client, done, answered, rfl⟩ | ⟨d, buffer, sent, arrived, rfl⟩
  · exact .refl
  · exact books_client honest answered done
  · exact books_deliver honest sent arrived

theorem reachable_honest {system : System} (reached : Reachable system) : Honest system :=
  Runs.reachable_invariant (fun _ _ _ => honest_step) honest_start reached

theorem books_start : books start = AckLedger.empty := by
  simp [books, start, startClient, AckLedger.empty]
  rfl

theorem reachable_balanced {system : System} (reached : Reachable system) :
    Balanced phantoms (books system) := by
  obtain ⟨events, run⟩ := reached
  have moves : Moves phantoms (books start) (books system) :=
    Runs.run_simulated (fun _ _ _ => honest_step) (fun _ _ _ => books_step) honest_start run
  rw [books_start] at moves
  exact balanced_moves balanced_empty moves

/-- Whatever the network does, a client that stops has had every message received or has sent
    it a second time. -/
theorem received_or_resent_before_stop (system next : System) (reached : Reachable system)
    (stopping : step system .stop = some next) :
    ∀ x ∈ system.client.created, x ≠ 0 → x ∈ system.received ∨ x ∈ system.client.resent := by
  intro x created nonzero
  have empty : system.client.gArray.size = 0 := by
    simp only [step, act, ClientThread.step, sendStop] at stopping
    split at stopping
    · assumption
    · cases stopping
  have nothing : (books system).pending = 0 := by
    have none : ids system.client.gArray = [] :=
      List.length_eq_zero_iff.mp (by rw [ids_length, empty])
    simp [books, none]
  rcases settled (reachable_balanced reached) nothing (x := x) created with
    received | phantom | resent
  · exact Or.inl received
  · exact absurd phantom nonzero
  · exact Or.inr resent

def lossyRun : List Event :=
  [.send "a".toList, .heartbeat, .deliver heartbeatText heartbeatText, .wait 3000000,
    .respond wakeup wakeup fun _ => 0]

theorem received_or_resent_before_stop_lossy :
    ∃ system next, Reachable system ∧ step system .stop = some next ∧
      ∀ x ∈ system.client.created, x ≠ 0 → x ∈ system.received ∨ x ∈ system.client.resent :=
  ⟨_, _, ⟨lossyRun, rfl⟩, rfl, received_or_resent_before_stop _ _ ⟨lossyRun, rfl⟩ rfl⟩

/-- The resend can be lost as well, and nothing waits for it. -/
theorem stop_after_lost_resend :
    ¬ ∀ system next, Reachable system → step system .stop = some next →
      ∀ x ∈ system.client.created, x ∈ system.received := by
  intro always
  have arrived := always _ _ ⟨lossyRun, rfl⟩ rfl 1 (by decide)
  exact absurd arrived (by decide)

/-- Ids that leave the array as acknowledged were received. -/
theorem acked_ids_received (system : System) (reached : Reachable system)
    (few : system.client.created.length < 2 ^ 64 - 1) :
    ∀ x ∈ system.client.acked, x ∈ system.client.created ∧ x ∈ system.received := by
  intro x acked
  have balanced := reachable_balanced reached
  have honest := reachable_honest reached
  have created : x ∈ system.client.created :=
    honest.conserved.split.subset (List.mem_append_right _ (List.mem_append_left _ acked))
  refine ⟨created, ?_⟩
  rcases balanced.earned x acked with received | phantom
  · exact received
  · -- WAKEUP reads as id 0, which the counter does not reach.
    rw [phantom, honest.conserved.fresh] at created
    obtain ⟨k, bound, zero⟩ := List.mem_map.mp created
    have value := congrArg UInt64.toNat zero
    simp only [UInt64.toNat_ofNat', List.mem_range] at value bound
    have := UInt64.toNat_zero
    omega

def reorderedRun : List Event :=
  [.send "a".toList, .send "b".toList, .heartbeat,
    .deliver "2|0|b".toList "2|0|b".toList, .deliver "1|0|a".toList "1|0|a".toList,
    .deliver "2|0|b".toList "2|0|b".toList, .deliver heartbeatText heartbeatText,
    .respond "2|1|2".toList "2|1|2".toList fun _ => 0]

theorem acked_ids_received_reordered :
    ∃ system, Reachable system ∧ system.client.acked = [2, 1] ∧
      ∀ x ∈ system.client.acked, x ∈ system.client.created ∧ x ∈ system.received :=
  ⟨_, ⟨reorderedRun, rfl⟩, by decide, acked_ids_received _ ⟨reorderedRun, rfl⟩ (by decide)⟩

end RealMQ.QosProtocol
