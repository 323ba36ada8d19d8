import RealMQ.QosProtocol

/- The totals that the two programs print when they end, for a network that may lose, delay and
   reorder what the client sends but delivers nothing more often than it was sent. Sends and
   allocations succeed, and no counter is near the end of its int. -/
namespace RealMQ.ProtocolTotals
open CStrings DynamicArrays Marshalling DiffFromArrays ClientThread ServerThread QosProtocol

def arrival : Event → Option CString
  | .deliver datagram _ => some datagram
  | _ => none

def delivered (events : List Event) : List CString := events.filterMap arrival

structure Counted (system : System) : Prop where
  countMsg : system.server.countMsg = system.received.length
  bound : ∀ x ∈ system.received, x ≤ system.server.receivedMessages.toUInt64
  attained : system.server.receivedMessages.toUInt64 = 0 ∨
    system.server.receivedMessages.toUInt64 ∈ system.received

section Steps
variable {system next : System} {event : Event}

theorem dataId_buffered (honest : Honest system) {datagram buffer : CString}
    (sent : datagram ∈ system.client.transmitted) (arrived : buffered 1024 datagram buffer = true) :
    dataId buffer = dataId datagram := by
  rcases honest.transmitted datagram sent with rfl | rfl | ⟨msg, -, rfl⟩
  · rw [buffered_whole (by decide) arrived]
  · rw [buffered_whole (by decide) arrived]
  · obtain ⟨rest, text⟩ := buffered_marshal arrived
    rw [text, dataId_text, dataId_marshal]

theorem received_act {action : Action} (moved : act action system = some next) :
    next.received = system.received := by
  obtain ⟨client, -, rfl⟩ := Option.map_eq_some_iff.mp moved
  rfl

theorem received_step (honest : Honest system) (moved : QosProtocol.step system event = some next) :
    next.received = system.received ++ ((arrival event).bind dataId).toList := by
  cases event with
  | wait microseconds =>
    obtain rfl := Option.some.inj moved
    simp [arrival]
  | deliver datagram buffer =>
    simp only [QosProtocol.step] at moved
    split at moved
    · rename_i guard
      simp only [Bool.and_eq_true, decide_eq_true_eq] at guard
      obtain rfl := Option.some.inj moved
      have same := dataId_buffered honest guard.1.2 guard.2
      simp only [arrival, Option.bind_some, same]
    · cases moved
  | respond datagram buffer delay =>
    simp only [QosProtocol.step] at moved
    split at moved
    · simpa [arrival] using received_act moved
    · cases moved
  | _ => simpa [arrival] using received_act moved

theorem received_run {events : List Event} (honest : Honest system)
    (run : Runs.run QosProtocol.step system events = some next) :
    next.received = system.received ++ (delivered events).filterMap dataId := by
  induction events generalizing system with
  | nil =>
    obtain rfl := Option.some.inj run
    simp [delivered]
  | cons event events ih =>
    obtain ⟨middle, moved, rest⟩ := Runs.run_cons_some.mp run
    have later := ih (honest_step honest moved) rest
    have first := received_step honest moved
    rw [later, first, List.append_assoc]
    cases data : arrival event with
    | none => simp [delivered, data]
    | some datagram => cases id : dataId datagram <;> simp [delivered, data, id]

end Steps

/-- Each data text given to the network is the first one of its id or a resend. -/
def Sent (client : Client) : Prop :=
  (client.transmitted.filterMap dataId).Perm (client.created ++ client.resent)

theorem sent_step {client next : Client} {action : Action} (before : Sent client)
    (moved : ClientThread.step client action = some next) : Sent next := by
  unfold Sent at before ⊢
  cases action with
  | send now content =>
    obtain rfl := Option.some.inj moved
    simp only [sendMessage, List.filterMap_append, List.filterMap_cons, dataId_marshal,
      List.filterMap_nil]
    refine (before.append_right _).trans ?_
    simp only [List.append_assoc]
    exact List.perm_append_comm.append_left _
  | heartbeat =>
    obtain rfl := Option.some.inj moved
    have none : dataId heartbeatText = none := by decide
    simpa [sendHeartbeat, none] using before
  | stop =>
    simp only [ClientThread.step, sendStop] at moved
    split at moved
    · obtain rfl := Option.some.inj moved
      have none : dataId stopText = none := by decide
      simpa [none] using before
    · cases moved
  | respond clock buffer =>
    simp only [ClientThread.step] at moved
    split at moved
    · rcases respond_cases clock buffer client with ⟨-, eq⟩ | ⟨-, st, -, -, eq⟩
      · obtain rfl := Option.some.inj (eq.symm.trans moved)
        exact before
      · obtain rfl := Option.some.inj (eq.symm.trans moved)
        have resends : (st.resent.map marshalMessage).filterMap dataId = st.resent.map Message.id := by
          simp [List.filterMap_map, dataId_marshal]
        rw [List.filterMap_append, resends, ← List.append_assoc]
        exact before.append_right _
    · cases moved

theorem maxReceived_cases (receivedMessages : Int64) (id : UInt64) :
    let new := (maxReceived receivedMessages id).toUInt64
    receivedMessages.toUInt64 ≤ new ∧ id ≤ new ∧ (new = receivedMessages.toUInt64 ∨ new = id) := by
  unfold maxReceived
  split
  · rename_i less
    exact ⟨UInt64.le_refl _, UInt64.le_of_lt less, Or.inl rfl⟩
  · rename_i notLess
    dsimp only
    rw [UInt64.toUInt64_toInt64]
    exact ⟨UInt64.not_lt.mp notLess, UInt64.le_refl _, Or.inr rfl⟩

theorem receive_counts (outcome : Outcome) (allocates : Allocates outcome) (buffer : CString)
    (server : Server) :
    (receive outcome buffer server).countMsg = server.countMsg + (dataId buffer).toList.length ∧
    (receive outcome buffer server).receivedMessages =
      (dataId buffer).elim server.receivedMessages (maxReceived server.receivedMessages) := by
  have alloc : outcome.alloc = fun _ => true := allocates
  unfold receive dataId
  cases kind : dispatch buffer with
  | message => simp [alloc]
  | _ => simp [Server.flush]

theorem counted_receive {system : System} (buffer : CString) (counted : Counted system) :
    Counted { system with
      server := receive (handling system) buffer system.server
      received := system.received ++ (dataId buffer).toList } := by
  obtain ⟨count, largest⟩ := receive_counts (handling system) rfl buffer system.server
  cases data : dataId buffer with
  | none =>
    rw [data] at count largest
    refine ⟨?_, ?_, ?_⟩
    · simpa [count] using counted.countMsg
    · simpa [largest] using counted.bound
    · simpa [largest] using counted.attained
  | some id =>
    rw [data] at count largest
    obtain ⟨above, aboveId, choice⟩ := maxReceived_cases system.server.receivedMessages id
    refine ⟨?_, ?_, ?_⟩
    · simp [count, counted.countMsg]
    · intro x member
      simp only [largest, Option.elim_some]
      rcases List.mem_append.mp member with old | new
      · exact UInt64.le_trans (counted.bound x old) above
      · rw [List.mem_singleton.mp new]
        exact aboveId
    · simp only [largest, Option.elim_some]
      rcases choice with same | new
      · rw [same]
        exact counted.attained.imp_right (List.mem_append_left _)
      · rw [new]
        exact Or.inr (List.mem_append_right _ (List.mem_singleton.mpr rfl))

theorem counted_step {system next : System} {event : Event} (counted : Counted system)
    (moved : QosProtocol.step system event = some next) : Counted next := by
  rcases QosProtocol.step_cases moved with ⟨_, rfl⟩ | ⟨action, client, -, -, rfl⟩ | ⟨d, buffer, -, -, rfl⟩
  · exact ⟨counted.countMsg, counted.bound, counted.attained⟩
  · exact ⟨counted.countMsg, counted.bound, counted.attained⟩
  · exact counted_receive buffer counted

theorem sent_client {system next : System} {event : Event} (before : Sent system.client)
    (moved : QosProtocol.step system event = some next) : Sent next.client := by
  rcases QosProtocol.step_cases moved with ⟨_, rfl⟩ | ⟨action, client, done, -, rfl⟩ | ⟨d, buffer, -, -, rfl⟩
  · exact before
  · exact sent_step before done
  · exact before

section Totals
variable {system : System}

theorem reachable_counted (reached : Reachable system) : Counted system :=
  Runs.reachable_invariant (fun _ _ _ => counted_step)
    ⟨rfl, by simp [start], Or.inl (by decide)⟩ reached

theorem reachable_sent (reached : Reachable system) : Sent system.client :=
  @Runs.reachable_invariant _ _ QosProtocol.step (fun system => Sent system.client)
    (fun _ _ _ => sent_client) _ _ (show Sent startClient from List.Perm.refl _) reached

theorem received_subperm {events : List Event} (run : Runs.run QosProtocol.step start events = some system)
    (once : (delivered events).Subperm system.client.transmitted) :
    system.received.Subperm (system.client.created ++ system.client.resent) := by
  have all := received_run honest_start run
  obtain ⟨middle, perm, sublist⟩ := once
  rw [all, show start.received = [] from rfl, List.nil_append]
  refine List.Subperm.trans ?_ (reachable_sent ⟨events, run⟩).subperm
  exact ⟨middle.filterMap dataId, perm.filterMap dataId, sublist.filterMap dataId⟩

theorem created_nonzero (honest : Honest system) (few : system.client.created.length < 2 ^ 64)
    {x : UInt64} (member : x ∈ system.client.created) :
    x ≠ 0 ∧ x.toNat ≤ system.client.created.length := by
  rw [honest.conserved.fresh] at member
  obtain ⟨k, bound, rfl⟩ := List.mem_map.mp member
  rw [List.mem_range] at bound
  have value : (UInt64.ofNat (k + 1)).toNat = k + 1 := by
    rw [UInt64.toNat_ofNat', Nat.mod_eq_of_lt (by omega)]
  constructor
  · intro zero
    rw [zero, UInt64.toNat_zero] at value
    omega
  · omega

theorem created_subperm (reached : Reachable system) (few : system.client.created.length < 2 ^ 64)
    (nothing : system.client.gArray.size = 0) :
    system.client.created.Subperm (system.received ++ system.client.resent) := by
  have honest := reachable_honest reached
  have distinct : system.client.created.Nodup := by
    rw [honest.conserved.fresh]
    exact numbered_nodup few
  apply distinct.subperm
  intro x member
  have empty : (books system).pending = 0 := by
    have none : ids system.client.gArray = [] :=
      List.length_eq_zero_iff.mp (by rw [ids_length, nothing])
    simp [books, none]
  rcases AckLedger.settled (reachable_balanced reached) empty (x := x) member with
    received | phantom | resent
  · exact List.mem_append_left _ received
  · exact absurd phantom (created_nonzero honest few member).1
  · exact List.mem_append_right _ resent

/-- What the server counts is what the client counts as sent, give or take what it counts as
    missed; no message is handled more than twice, and only a resent one twice. -/
theorem totals_agree (events : List Event) (system : System)
    (run : Runs.run QosProtocol.step start events = some system)
    (once : (delivered events).Subperm system.client.transmitted)
    (few : system.client.created.length < 2 ^ 64) :
    let sent := system.client.created.length
    let missed := system.client.gMissedCount
    (∀ x, system.received.count x ≤ 1 + system.client.resent.count x ∧
      system.client.resent.count x ≤ 1) ∧
    system.server.countMsg = system.received.length ∧
    system.server.countMsg ≤ sent + missed ∧
    (system.client.gArray.size = 0 → sent ≤ system.server.countMsg + missed) ∧
    system.server.receivedMessages.toUInt64.toNat ≤ sent := by
  intro sent missed
  have reached : Reachable system := ⟨events, run⟩
  have honest := reachable_honest reached
  have counted := reachable_counted reached
  have part := received_subperm run once
  have missedCount : missed = system.client.resent.length := honest.conserved.counted
  have distinct : system.client.created.Nodup := by
    rw [honest.conserved.fresh]
    exact numbered_nodup few
  refine ⟨?_, counted.countMsg, ?_, ?_, ?_⟩
  · intro x
    have counts := part.count_le x
    have created := List.nodup_iff_count_le_one.mp distinct x
    have split := honest.conserved.split.count_eq x
    simp only [List.count_append] at counts split
    omega
  · have lengths := part.length_le
    rw [List.length_append] at lengths
    rw [counted.countMsg, missedCount]
    exact lengths
  · intro nothing
    have lengths := (created_subperm reached few nothing).length_le
    rw [List.length_append] at lengths
    rw [counted.countMsg, missedCount]
    exact lengths
  · rcases counted.attained with zero | received
    · rw [zero]
      exact Nat.zero_le _
    · have genuine := (reachable_balanced reached).genuine _ received
      exact (created_nonzero honest few genuine).2

def overtakingRun : List Event :=
  [.send "a".toList, .send "b".toList, .deliver "2|0|b".toList "2|0|b".toList, .heartbeat,
    .deliver heartbeatText heartbeatText, .wait 3000000, .respond "2".toList "2".toList fun _ => 0,
    .deliver "1|0|a".toList "1|0|a".toList]

theorem totals_agree_overtaking :
    ∃ system, Runs.run QosProtocol.step start overtakingRun = some system ∧
      system.client.gArray.size = 0 ∧
      system.client.created.length ≤ system.server.countMsg + system.client.gMissedCount :=
  ⟨_, rfl, rfl, (totals_agree overtakingRun _ rfl (by decide) (by decide)).2.2.2.1 rfl⟩

end Totals

end RealMQ.ProtocolTotals
