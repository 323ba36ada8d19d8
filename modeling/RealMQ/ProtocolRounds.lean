import RealMQ.ProtocolTotals
import RealMQ.DiffSpecification

/- What one answer to a heartbeat does when it arrives, and what it takes to empty the array from
   any state. Clock readings stay below 2^63 microseconds. -/
namespace RealMQ.ProtocolRounds
open CStrings DynamicArrays Marshalling BufferSegments NextFit DiffFromArrays DiffSpecification
open ClientThread ServerThread QosProtocol

section Clock

theorem reading_toInt {t : Nat} (small : t < 2 ^ 63) : (reading t).toInt = t := by
  unfold reading
  exact Int64.toInt_ofNat_of_lt small

/-- A message is late from 2001 ms after its creation on. -/
theorem late_reading_iff {msg : Message} {t u : Nat} (stamped : msg.timestamp = reading t)
    (past : t ≤ u) (small : u < 2 ^ 63) : late (reading u) msg = true ↔ t + 2001000 ≤ u := by
  have read : (reading u).toInt = u := reading_toInt small
  have stamp : (reading t).toInt = t := reading_toInt (by omega)
  have exact : (reading u - msg.timestamp).toInt = (reading u).toInt - msg.timestamp.toInt := by
    rw [stamped, Int64.toInt_sub, read, stamp]
    exact Int.bmod_eq_of_le (by omega) (by omega)
  rw [late_eq_overdue exact, overdue, decide_eq_true_iff, stamped, read, stamp,
    Int.tdiv_eq_ediv_of_nonneg (by omega)]
  omega

end Clock

def Stamped (system : System) : Prop :=
  ∀ msg ∈ toList system.client.gArray, ∃ t ≤ system.now, msg.timestamp = reading t

theorem act_cases {system next : System} {action : Action} (moved : act action system = some next) :
    ∃ client, ClientThread.step system.client action = some client ∧
      next = { system with client := client } := by
  obtain ⟨client, done, rfl⟩ := Option.map_eq_some_iff.mp moved
  exact ⟨client, done, rfl⟩

theorem pending_act {system next : System} {action : Action}
    (other : ∀ now content, action ≠ .send now content) (moved : act action system = some next) :
    next.now = system.now ∧ toList next.client.gArray ⊆ toList system.client.gArray := by
  obtain ⟨client, done, rfl⟩ := act_cases moved
  refine ⟨rfl, ?_⟩
  rcases ClientThread.step_cases done with ⟨now, content, sends, -⟩ | ⟨array, -⟩ |
    ⟨clock, buffer, st, -, -, -, accounted, rfl⟩
  · exact absurd sends (other now content)
  · rw [array]
    exact List.Subset.refl _
  · exact accounted.order.subset

theorem stamped_subset {system next : System} (stamped : Stamped system)
    (fewer : next.now = system.now ∧ toList next.client.gArray ⊆ toList system.client.gArray) :
    Stamped next := by
  intro msg member
  obtain ⟨t, past, eq⟩ := stamped msg (fewer.2 member)
  exact ⟨t, past.trans_eq fewer.1.symm, eq⟩

theorem stamped_step {system next : System} {event : Event} (stamped : Stamped system)
    (moved : QosProtocol.step system event = some next) : Stamped next := by
  cases event with
  | wait microseconds =>
    obtain rfl := Option.some.inj moved
    intro msg member
    obtain ⟨t, past, eq⟩ := stamped msg member
    exact ⟨t, Nat.le_add_right_of_le past, eq⟩
  | send content =>
    obtain ⟨client, done, rfl⟩ := act_cases moved
    obtain rfl := Option.some.inj done
    intro msg member
    simp only [sendMessage, toList_add, List.mem_append, List.mem_singleton] at member
    rcases member with old | rfl
    · exact stamped msg old
    · exact ⟨system.now, le_refl _, rfl⟩
  | heartbeat => exact stamped_subset stamped (pending_act (by simp) moved)
  | stop => exact stamped_subset stamped (pending_act (by simp) moved)
  | deliver datagram buffer =>
    simp only [QosProtocol.step] at moved
    split at moved
    · obtain rfl := Option.some.inj moved
      exact stamped
    · cases moved
  | respond datagram buffer delay =>
    simp only [QosProtocol.step] at moved
    split at moved
    · exact stamped_subset stamped (pending_act (by simp) moved)
    · cases moved

theorem reachable_stamped {system : System} (reached : Reachable system) : Stamped system :=
  Runs.reachable_invariant (fun _ _ _ => stamped_step)
    (fun _ member => absurd member List.not_mem_nil) reached

theorem reachable_distinct {system : System} (reached : Reachable system)
    (few : system.client.created.length < 2 ^ 64) : (ids system.client.gArray).Nodup := by
  have conserved := (reachable_honest reached).conserved
  have created : system.client.created.Nodup := by
    rw [conserved.fresh]
    exact numbered_nodup few
  exact (conserved.split.nodup_iff.mpr created).of_append_left

def lost (acks : List UInt64) (time : Message → Nat) (client : Client) : List Message :=
  ((toList client.gArray).filter fun msg => missed (reading (time msg)) acks msg).reverse

structure Compared (acks : List UInt64) (time : Message → Nat) (client next : Client) : Prop where
  pending : toList next.gArray =
    (toList client.gArray).filter fun msg => kept (reading (time msg)) acks msg
  transmitted : next.transmitted = client.transmitted ++ (lost acks time client).map marshalMessage
  resent : next.resent = client.resent ++ (lost acks time client).map Message.id
  created : next.created = client.created
  responding : next.responding = client.responding

section Respond
variable {system next : System} {datagram buffer : CString} {delay : Nat → Nat}

def readAt (delay : Nat → Nat) (system : System) (msg : Message) : Nat :=
  system.now + delay ((ids system.client.gArray).idxOf msg.id)

theorem respond_compared (distinct : (ids system.client.gArray).Nodup)
    (responding : system.client.responding = true) (sent : datagram ∈ responses system)
    (arrived : buffered 2048 datagram buffer = true) (ack : buffer ≠ stopText)
    (delay : Nat → Nat) : ∃ client,
      QosProtocol.step system (.respond datagram buffer delay) = some { system with client := client } ∧
      Compared (ids (unmarshalUint64Array buffer)) (readAt delay system) system.client client := by
  let clock : Nat → Int64 := fun i => reading (system.now + delay i)
  rcases respond_cases clock buffer system.client with ⟨stop, -⟩ | ⟨-, st, run, -, eq⟩
  · exact absurd stop ack
  · obtain ⟨st', run', list, resent, -⟩ := diff_distinct clock
      (fun msg => reading (readAt delay system msg)) (unmarshalUint64Array buffer) distinct
      (readAt_index distinct clock)
    obtain rfl := Option.some.inj (run'.symm.trans run)
    have taken : ClientThread.step system.client (.respond clock buffer) =
        respond clock buffer system.client := if_pos responding
    have whole : QosProtocol.step system (.respond datagram buffer delay) =
        (ClientThread.step system.client (.respond clock buffer)).map
          fun client => { system with client := client } := by
      simp only [QosProtocol.step, sent, arrived, decide_true, Bool.and_self, if_true, act, clock]
    rw [taken, eq, Option.map_some] at whole
    refine ⟨_, whole, ?_⟩
    constructor
    · exact list
    · dsimp only
      rw [resent]
      rfl
    · dsimp only
      rw [resent]
      rfl
    · rfl
    · rfl

theorem respond_taken (moved : QosProtocol.step system (.respond datagram buffer delay) = some next) :
    system.client.responding = true ∧ datagram ∈ responses system ∧
      buffered 2048 datagram buffer = true := by
  simp only [QosProtocol.step] at moved
  split at moved
  · rename_i guard
    simp only [Bool.and_eq_true, decide_eq_true_eq] at guard
    obtain ⟨client, done, -⟩ := act_cases moved
    simp only [ClientThread.step] at done
    split at done
    · rename_i responding
      exact ⟨responding, guard⟩
    · cases done
  · cases moved

end Respond

/-- Not named, and 2001 ms old at the reading for this message. -/
def Overdue (delay : Nat → Nat) (acks : List UInt64) (system : System) (msg : Message) : Prop :=
  msg.id ∉ acks ∧ ∃ t ≤ system.now, msg.timestamp = reading t ∧ t + 2001000 ≤ readAt delay system msg

theorem missed_iff_overdue {system : System} {delay : Nat → Nat} {acks : List UInt64} {msg : Message}
    (stamped : Stamped system) (clock : ∀ i, system.now + delay i < 2 ^ 63)
    (member : msg ∈ toList system.client.gArray) :
    missed (reading (readAt delay system msg)) acks msg = true ↔ Overdue delay acks system msg := by
  have exact : ∀ {t}, t ≤ system.now → msg.timestamp = reading t →
      (late (reading (readAt delay system msg)) msg = true ↔ t + 2001000 ≤ readAt delay system msg) :=
    fun past stamp => late_reading_iff stamp (by unfold readAt; omega) (clock _)
  obtain ⟨t, past, stamp⟩ := stamped msg member
  simp only [missed, Bool.and_eq_true, decide_eq_true_eq]
  constructor
  · rintro ⟨absent, old⟩
    exact ⟨absent, t, past, stamp, (exact past stamp).mp old⟩
  · rintro ⟨absent, u, past', stamp', old⟩
    exact ⟨absent, (exact past' stamp').mpr old⟩

/-- Whenever an acknowledgement is handled, the messages that it does not name and that are 2001 ms
    old when the loop comes to them are sent again, each once, and the other unnamed ones stay. -/
theorem resend_timing (system next : System) (reached : Reachable system)
    (few : system.client.created.length < 2 ^ 64) (datagram buffer : CString) (delay : Nat → Nat)
    (clock : ∀ i, system.now + delay i < 2 ^ 63) (ack : buffer ≠ stopText)
    (moved : QosProtocol.step system (.respond datagram buffer delay) = some next) :
    ∃ again : List Message,
      next.client.transmitted = system.client.transmitted ++ again.map marshalMessage ∧
      (again.map Message.id).Nodup ∧
      (∀ msg, msg ∈ again ↔ msg ∈ toList system.client.gArray ∧
        Overdue delay (ids (unmarshalUint64Array buffer)) system msg) ∧
      (∀ msg, msg ∈ toList next.client.gArray ↔ msg ∈ toList system.client.gArray ∧
        msg.id ∉ ids (unmarshalUint64Array buffer) ∧ msg ∉ again) ∧
      ∀ msg ∈ toList next.client.gArray,
        ∃ t ≤ system.now, msg.timestamp = reading t ∧ system.now < t + 2001000 := by
  have stamped := reachable_stamped reached
  obtain ⟨responding, sent, arrived⟩ := respond_taken moved
  have distinct := reachable_distinct reached few
  obtain ⟨client, taken, compared⟩ := respond_compared distinct responding sent arrived ack delay
  obtain rfl := Option.some.inj (taken.symm.trans moved)
  have resent : ∀ msg, msg ∈ lost (ids (unmarshalUint64Array buffer)) (readAt delay system) system.client ↔
      msg ∈ toList system.client.gArray ∧
        Overdue delay (ids (unmarshalUint64Array buffer)) system msg := by
    intro msg
    rw [lost, List.mem_reverse, List.mem_filter]
    exact and_congr_right fun member => missed_iff_overdue stamped clock member
  have stays : ∀ msg, msg ∈ toList client.gArray ↔ msg ∈ toList system.client.gArray ∧
      msg.id ∉ ids (unmarshalUint64Array buffer) ∧
        late (reading (readAt delay system msg)) msg = false := by
    intro msg
    simp only [compared.pending, List.mem_filter, kept, Bool.and_eq_true, Bool.not_eq_true',
      decide_eq_true_eq]
  refine ⟨lost (ids (unmarshalUint64Array buffer)) (readAt delay system) system.client,
    compared.transmitted, ?_, resent, ?_, ?_⟩
  · rw [lost, List.map_reverse, List.nodup_reverse]
    exact (List.filter_sublist.map Message.id).nodup distinct
  · intro msg
    rw [stays, lost, List.mem_reverse, List.mem_filter, missed]
    cases late (reading (readAt delay system msg)) msg <;> simp
    tauto
  · intro msg member
    obtain ⟨before, -, young⟩ := (stays msg).mp member
    obtain ⟨t, past, stamp⟩ := stamped msg before
    have exact := @late_reading_iff msg t (readAt delay system msg) stamp (by unfold readAt; omega)
      (clock _)
    have early := mt exact.mpr (by rw [young]; exact Bool.false_ne_true)
    unfold readAt at early
    exact ⟨t, past, stamp, by omega⟩

def waitingRun : List Event :=
  [.send "a".toList, .heartbeat, .deliver heartbeatText heartbeatText, .wait 3000000]

theorem resend_timing_waiting :
    ∃ (system next : System) (again : List Message),
      Runs.run QosProtocol.step start waitingRun = some system ∧
      QosProtocol.step system (.respond wakeup wakeup fun _ => 0) = some next ∧
      next.client.transmitted = system.client.transmitted ++ again.map marshalMessage ∧
      ∀ msg, msg ∈ again ↔ msg ∈ toList system.client.gArray ∧
        Overdue (fun _ => 0) (ids (unmarshalUint64Array wakeup)) system msg :=
  have ⟨again, sent, _, exact, _⟩ := resend_timing _ _ ⟨waitingRun, rfl⟩ (by decide) wakeup wakeup
    (fun _ => 0) (fun _ => by decide) (by decide) rfl
  ⟨_, _, again, rfl, rfl, sent, exact⟩

section Round

theorem buffered_self {size : Nat} {text : CString} (fits : text.length < size) :
    buffered size text text = true := by
  rw [buffered, if_pos fits, decide_eq_true_eq]

def answers (server : Server) : List CString :=
  (sendIds (fun _ => true) (fun _ => true) server.gArray).1.map Prod.fst

def beat : List Event := [.heartbeat, .deliver heartbeatText heartbeatText]

def afterBeat (system : System) : System :=
  { system with
    client := sendHeartbeat system.client
    server := system.server.flush (handling system) }

variable {system : System}

theorem beat_run (running : system.server.running = true) :
    Runs.run QosProtocol.step system beat = some (afterBeat system) := by
  refine Runs.run_cons_some.mpr ⟨{ system with client := sendHeartbeat system.client }, rfl, ?_⟩
  have none : dataId heartbeatText = none := by decide
  have whole : buffered 1024 heartbeatText heartbeatText = true := by decide
  have kind : dispatch heartbeatText = .heartbeat := by decide
  have sent : heartbeatText ∈ (sendHeartbeat system.client).transmitted := by simp [sendHeartbeat]
  refine Runs.run_cons_some.mpr ⟨afterBeat system, ?_, rfl⟩
  simp only [QosProtocol.step, running, sent, whole, decide_true, Bool.and_self, if_true, none,
    Option.toList_none, List.append_nil, receive, kind]
  rfl

def naming (texts : List CString) : List UInt64 :=
  texts.flatMap fun text => ids (unmarshalUint64Array text)

theorem respond_all {texts : List CString} (distinct : (ids system.client.gArray).Nodup)
    (responding : system.client.responding = true)
    (young : ∀ msg ∈ toList system.client.gArray, late (reading system.now) msg = false)
    (good : ∀ text ∈ texts, text ∈ responses system ∧ text.length < 2048 ∧ text ≠ stopText) :
    ∃ client, Runs.run QosProtocol.step system (texts.map fun text => .respond text text fun _ => 0) =
        some { system with client := client } ∧
      toList client.gArray =
        (toList system.client.gArray).filter (fun msg => decide (msg.id ∉ naming texts)) ∧
      client.resent = system.client.resent ∧ client.transmitted = system.client.transmitted := by
  induction texts generalizing system with
  | nil => exact ⟨system.client, rfl, by simp [naming], rfl, rfl⟩
  | cons text texts ih =>
    obtain ⟨sent, short, ack⟩ := good text List.mem_cons_self
    obtain ⟨client, taken, compared⟩ :=
      respond_compared distinct responding sent (buffered_self short) ack fun _ => 0
    have none : lost (ids (unmarshalUint64Array text)) (readAt (fun _ => 0) system) system.client = [] := by
      rw [lost, List.reverse_eq_nil_iff, List.filter_eq_nil_iff]
      intro msg member
      simp [missed, readAt, young msg member]
    have left : toList client.gArray =
        (toList system.client.gArray).filter fun msg => decide (msg.id ∉ ids (unmarshalUint64Array text)) := by
      rw [compared.pending]
      apply List.filter_congr
      intro msg member
      simp [kept, readAt, young msg member]
    have fewer : (toList client.gArray).Sublist (toList system.client.gArray) :=
      left ▸ List.filter_sublist
    obtain ⟨last, run, list, resent, transmitted⟩ := @ih { system with client := client }
      ((fewer.map Element.msgId).nodup distinct) (compared.responding.trans responding)
      (fun msg member => young msg (fewer.subset member))
      (fun text member => good text (List.mem_cons_of_mem _ member))
    refine ⟨last, Runs.run_cons_some.mpr ⟨_, taken, run⟩, ?_, ?_, ?_⟩
    · rw [list]
      dsimp only
      rw [left, List.filter_filter]
      apply List.filter_congr
      intro msg _
      simp only [naming, List.flatMap_cons, List.mem_append, not_or, Bool.decide_and]
      exact Bool.and_comm _ _
    · rw [resent, compared.resent, none]
      simp
    · rw [transmitted, compared.transmitted, none]
      simp

theorem naming_answers (server : Server) {x : UInt64} (nonzero : x ≠ 0) :
    x ∈ naming (answers server) ↔ x ∈ toList server.gArray := by
  unfold naming answers
  by_cases empty : server.gArray.size = 0
  · have none : toList server.gArray = [] := List.length_eq_zero_iff.mp (by rw [toList_length, empty])
    have phantom : ids (unmarshalUint64Array wakeup) = [0] := by decide
    rw [sendIds_empty _ _ _ empty, none]
    simp [phantom, nonzero]
  · rw [sendIds_texts _ _ empty, List.flatMap_map]
    simp only [ids_values, unmarshal_joinIds]
    rw [List.flatMap_id', pack_flatten]

theorem answers_ne_stop {server : Server} {text : CString} (member : text ∈ answers server) :
    text ≠ stopText := by
  unfold answers at member
  by_cases empty : server.gArray.size = 0
  · rw [sendIds_empty _ _ _ empty, List.map_singleton, List.mem_singleton] at member
    rw [member]
    decide
  · rw [sendIds_texts _ _ empty] at member
    obtain ⟨g, -, rfl⟩ := List.mem_map.mp member
    exact joinIds_ne (x := 'S') (by decide) g

theorem answers_ne_nil (server : Server) : answers server ≠ [] := by
  unfold answers
  by_cases empty : server.gArray.size = 0
  · rw [sendIds_empty _ _ _ empty]
    exact List.cons_ne_nil _ _
  · rw [sendIds_texts _ _ empty]
    simpa using pack_ne_nil (toList_ne_nil empty)

theorem handed_flush {outcome : Outcome} (allocates : Allocates outcome) (server : Server) :
    (server.flush outcome).handed.map Prod.fst = server.handed.map Prod.fst ++ answers server := by
  have same : (sendIds (fun _ => true) outcome.sent server.gArray).1.map Prod.fst = answers server :=
    (zipIdx_texts _ outcome.sent).trans (zipIdx_texts _ fun _ => true).symm
  unfold Server.flush
  rw [show outcome.alloc = fun _ => true from allocates, List.map_append, same]

def partialRun : List Event :=
  [.send "a".toList, .send "b".toList, .send "c".toList, .deliver "3|0|c".toList "3|0|c".toList,
    .deliver "1|0|a".toList "1|0|a".toList]

end Round

/-- No answer reads as the STOP of main, and a server that has ended has answered. -/
structure Answering (server : Server) : Prop where
  texts : ∀ text ∈ server.handed.map Prod.fst, text ≠ stopText
  ended : server.running = false → server.handed ≠ []

section Ending
variable {system : System}

theorem answering_flush {server : Server} {outcome : Outcome} (allocates : Allocates outcome)
    (before : Answering server) : Answering { server.flush outcome with running := false } := by
  have texts := handed_flush allocates server
  constructor
  · intro text member
    dsimp only at member
    rw [texts] at member
    rcases List.mem_append.mp member with old | new
    · exact before.texts text old
    · exact answers_ne_stop new
  · intro _ none
    dsimp only at none
    rw [none, List.map_nil, eq_comm, List.append_eq_nil_iff] at texts
    exact answers_ne_nil server texts.2

theorem answering_receive {server : Server} {outcome : Outcome} (allocates : Allocates outcome)
    (buffer : CString) (before : Answering server) : Answering (receive outcome buffer server) := by
  have flushed := answering_flush allocates before
  unfold receive
  cases kind : dispatch buffer with
  | stop => exact flushed
  | start => exact before
  | heartbeat => exact ⟨flushed.texts, fun _ => flushed.ended rfl⟩
  | message =>
    dsimp only
    split
    · exact ⟨before.texts, before.ended⟩
    · exact before

theorem reachable_answering (reached : Reachable system) : Answering system.server := by
  refine @Runs.reachable_invariant _ _ QosProtocol.step (fun system => Answering system.server)
    ?_ _ _ ⟨by simp [start, startServer], by simp [start, startServer]⟩ reached
  intro system event next before moved
  rcases QosProtocol.step_cases moved with ⟨_, rfl⟩ | ⟨_, client, -, -, rfl⟩ | ⟨_, buffer, -, -, rfl⟩
  · exact before
  · exact before
  · exact answering_receive (show Allocates (handling system) from rfl) buffer before

theorem can_be_answered (reached : Reachable system) : ∃ events server transmitted,
    events.length ≤ 2 ∧ (∀ content, .send content ∉ events) ∧
    Runs.run QosProtocol.step system events = some
      { system with client := { system.client with transmitted := transmitted }, server := server } ∧
    server.handed ≠ [] := by
  cases running : system.server.running with
  | true =>
    refine ⟨beat, _, _, le_refl 2, by simp [beat], beat_run running, ?_⟩
    intro none
    have texts := handed_flush (show Allocates (handling system) from rfl) system.server
    rw [none, List.map_nil, eq_comm, List.append_eq_nil_iff] at texts
    exact answers_ne_nil _ texts.2
  | false =>
    exact ⟨[], system.server, system.client.transmitted, Nat.zero_le 2, by simp, rfl,
      (reachable_answering reached).ended running⟩

end Ending

end RealMQ.ProtocolRounds
