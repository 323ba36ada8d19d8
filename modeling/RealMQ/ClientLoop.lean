import RealMQ.ClientThread
import RealMQ.CoreConfig
import RealMQ.MessageIds

/- The calls of one client thread that take a mutex: get_address, add_message_id and a turn of
   the message loop of client_thread, with every outcome that returns (random_string and
   add_to_dynamic_array end the process when an allocation fails). What other threads do to the
   array between two calls is left out. A failed strdup of add_message_id leaves NULL behind and
   takes the same way as a successful one. -/
namespace RealMQ.ClientLoop
open CStrings Locks CoreConfig DynamicArrays Marshalling ClientThread

structure Thread where
  held : Finset Mutex
  messageIds : List CString
  client : Client

def addMessageId (alloc : Bool) (idStr : CString) (thread : Thread) : Option Thread :=
  (lock thread.held .messageIdsMutex).map fun held =>
    -- message_ids is NULL now
    if alloc = false then { thread with held := held, messageIds := [] }
    else
      { thread with
        held := unlock held .messageIdsMutex
        messageIds := MessageIds.addMessageId idStr thread.messageIds }

inductive TryLock where
  | acquired
  | busy
  | error
  deriving DecidableEq

/-- stopping: how often a thread that has sent its messages finds the array not yet empty. A turn
    without it is one that sends. -/
structure Turn where
  stopping : Option Nat
  tryLock : TryLock
  heartbeat : Bool
  now : Int64
  content : CString
  createAlloc : Bool
  marshalAlloc : Bool
  sent : Bool
  addressAlloc : Bool

def waitingPass (thread : Thread) : Option Thread :=
  (lock thread.held .gArrayMutex).map fun held =>
    { thread with held := unlock held .gArrayMutex, client := sendHeartbeat thread.client }

def waitEmpty : Nat → Thread → Option Thread
  | 0, thread =>
      (lock thread.held .gArrayMutex).map fun held =>
        { thread with held := unlock held .gArrayMutex }
  | passes + 1, thread => (waitingPass thread).bind (waitEmpty passes)

def transmitStop (thread : Thread) : Thread :=
  { thread with
    client := { thread.client with
      transmitted := thread.client.transmitted ++ [stopText, stopText, stopText] } }

def sendSection (qos : Bool) (config : Config) (turn : Turn) (thread : Thread) :
    Option Thread :=
  let msg : Message := ⟨thread.client.atomicMsgId + 1, some turn.content, turn.now⟩
  let created := { thread.client with atomicMsgId := thread.client.atomicMsgId + 1 }
  if turn.createAlloc = false then some { thread with client := created }
  else
    let released := unlock thread.held .gArrayMutex
    let added :=
      if qos then
        { created with
          gArray := addToDynamicArray created.gArray msg
          created := created.created ++ [msg.id] }
      else created
    if turn.marshalAlloc = false ∨ turn.sent = false then
      some { thread with held := released, client := added }
    else
      let transmitted := { added with transmitted := added.transmitted ++ [marshalMessage msg] }
      if qos then some { thread with held := released, client := transmitted }
      else
        (getAddress config turn.addressAlloc .mainAddress released).map fun address =>
          { thread with held := address.2, client := transmitted }

/-- One turn of the message loop; whether the loop goes on is not recorded. -/
def loopTurn (qos : Bool) (config : Config) (turn : Turn) (thread : Thread) :
    Option Thread :=
  match turn.stopping with
  | some passes => (if qos then waitEmpty passes thread else some thread).map transmitStop
  | none =>
      -- trylock of a mutex that the thread holds is busy as well
      if qos = true ∧ (turn.tryLock ≠ .acquired ∨ .gArrayMutex ∈ thread.held) then some thread
      else
        let client :=
          if qos = true ∧ turn.heartbeat = true then sendHeartbeat thread.client else thread.client
        (lock thread.held .gArrayMutex).bind fun held =>
          sendSection qos config turn { thread with held := held, client := client }

inductive Call where
  | getAddress (alloc : Bool) (addressType : AddressType)
  | addMessageId (alloc : Bool) (idStr : CString)
  | loopTurn (turn : Turn)

def step (qos : Bool) (config : Config) (thread : Thread) : Call → Option Thread
  | .getAddress alloc addressType =>
      (CoreConfig.getAddress config alloc addressType thread.held).map fun address =>
        { thread with held := address.2 }
  | .addMessageId alloc idStr => addMessageId alloc idStr thread
  | .loopTurn turn => loopTurn qos config turn thread

def Sends (qos : Bool) (turn : Turn) : Prop :=
  turn.stopping = none ∧ (qos = true → turn.tryLock = .acquired)

/-- The call does not leave through an exit that forgets its mutex. -/
def Releases (qos : Bool) (config : Config) : Call → Prop
  | .getAddress alloc addressType => Composes config alloc addressType
  | .addMessageId alloc _ => alloc = true
  | .loopTurn turn => Sends qos turn → turn.createAlloc = true ∧
      (qos = false → turn.marshalAlloc = true → turn.sent = true →
        Composes config turn.addressAlloc .mainAddress)

section Steps
variable {qos : Bool} {config : Config} {turn : Turn} {thread : Thread}

theorem not_held (free : thread.held = ∅) (mutex : Mutex) : mutex ∉ thread.held := by
  rw [free]
  exact Finset.notMem_empty _

theorem returns_free_iff : (∃ next, some thread = some next ∧ next.held = ∅) ↔ thread.held = ∅ := by
  simp

theorem waitEmpty_free (free : thread.held = ∅) (passes : Nat) :
    ∃ next, waitEmpty passes thread = some next ∧ next.held = ∅ := by
  have released : unlock (insert .gArrayMutex thread.held) .gArrayMutex = ∅ := by
    rw [unlock_insert (not_held free _), free]
  induction passes generalizing thread with
  | zero =>
    unfold waitEmpty
    rw [lock_free (not_held free _), Option.map_some]
    exact ⟨_, rfl, released⟩
  | succ passes ih =>
    unfold waitEmpty waitingPass
    rw [lock_free (not_held free _), Option.map_some, Option.bind_some]
    apply ih
    · exact released
    · dsimp only
      rw [released]
      exact Finset.erase_insert (Finset.notMem_empty _)

theorem sendSection_releases_iff (taken : thread.held = {.gArrayMutex}) :
    (∃ next, sendSection qos config turn thread = some next ∧ next.held = ∅) ↔
      turn.createAlloc = true ∧
        (qos = false → turn.marshalAlloc = true → turn.sent = true →
          Composes config turn.addressAlloc .mainAddress) := by
  have released : unlock thread.held .gArrayMutex = ∅ := by
    rw [taken]
    exact Finset.erase_singleton _
  have empty : Mutex.gIpAddressMutex ∉ unlock thread.held .gArrayMutex := by
    rw [released]
    exact Finset.notMem_empty _
  unfold sendSection
  dsimp only
  cases created : turn.createAlloc with
  | false =>
    rw [if_pos rfl, returns_free_iff]
    dsimp only
    rw [taken]
    refine iff_of_false (Finset.singleton_ne_empty _) ?_
    rintro ⟨impossible, -⟩
    cases impossible
  | true =>
    rw [if_neg Bool.noConfusion]
    by_cases kept : turn.marshalAlloc = false ∨ turn.sent = false
    · rw [if_pos kept]
      refine iff_of_true ⟨_, rfl, released⟩ ⟨rfl, ?_⟩
      intro _ marshalled sent
      simp [marshalled, sent] at kept
    · rw [if_neg kept]
      rw [not_or, Bool.not_eq_false, Bool.not_eq_false] at kept
      cases qos with
      | true =>
        rw [if_pos rfl]
        refine iff_of_true ⟨_, rfl, released⟩ ⟨rfl, ?_⟩
        intro impossible
        cases impossible
      | false =>
        rw [if_neg Bool.noConfusion]
        simp only [kept, true_and, forall_const]
        by_cases good : Composes config turn.addressAlloc .mainAddress
        · obtain ⟨text, call⟩ := getAddress_composes empty good
          rw [call, Option.map_some]
          exact iff_of_true ⟨_, rfl, released⟩ good
        · rw [getAddress_keeps empty good, Option.map_some, returns_free_iff]
          exact iff_of_false (Finset.insert_ne_empty _ _) good

theorem loopTurn_stops {passes : Nat} (free : thread.held = ∅) (stops : turn.stopping = some passes) :
    ∃ next, loopTurn qos config turn thread = some next ∧ next.held = ∅ := by
  unfold loopTurn
  rw [stops]
  dsimp only
  cases qos with
  | true =>
    obtain ⟨next, waits, done⟩ := waitEmpty_free free passes
    rw [if_pos rfl, waits]
    exact ⟨transmitStop next, rfl, done⟩
  | false => exact ⟨transmitStop thread, rfl, free⟩

theorem loopTurn_releases_iff (free : thread.held = ∅) :
    (∃ next, loopTurn qos config turn thread = some next ∧ next.held = ∅) ↔
      Releases qos config (.loopTurn turn) := by
  cases stops : turn.stopping with
  | some passes =>
    refine iff_of_true (loopTurn_stops free stops) ?_
    rintro ⟨sending, -⟩
    rw [stops] at sending
    cases sending
  | none =>
    have idle : Mutex.gArrayMutex ∉ thread.held := not_held free _
    simp only [loopTurn, Releases, Sends, stops, idle, or_false, true_and]
    by_cases waits : qos = true ∧ turn.tryLock ≠ .acquired
    · rw [if_pos waits]
      refine iff_of_true ⟨thread, rfl, free⟩ ?_
      intro sends
      exact absurd (sends waits.1) waits.2
    · rw [if_neg waits, lock_free idle, Option.bind_some]
      have sends : qos = true → turn.tryLock = .acquired := by
        intro build
        by_contra busy
        exact waits ⟨build, busy⟩
      rw [sendSection_releases_iff]
      · exact ⟨fun good _ => good, fun good => good sends⟩
      · dsimp only
        rw [free]
        rfl

theorem step_releases_iff (call : Call) (free : thread.held = ∅) :
    (∃ next, step qos config thread call = some next ∧ next.held = ∅) ↔
      Releases qos config call := by
  cases call with
  | getAddress alloc addressType =>
    unfold step Releases
    dsimp only
    by_cases good : Composes config alloc addressType
    · obtain ⟨text, call⟩ := getAddress_composes (not_held free _) good
      rw [call, Option.map_some]
      exact iff_of_true ⟨_, rfl, free⟩ good
    · rw [getAddress_keeps (not_held free _) good, Option.map_some, returns_free_iff]
      exact iff_of_false (Finset.insert_ne_empty _ _) good
  | addMessageId alloc idStr =>
    unfold step addMessageId Releases
    dsimp only
    rw [lock_free (not_held free _), Option.map_some, returns_free_iff]
    cases alloc with
    | false =>
      rw [if_pos rfl]
      exact iff_of_false (Finset.insert_ne_empty _ _) Bool.noConfusion
    | true =>
      rw [if_neg Bool.noConfusion]
      refine iff_of_true ?_ rfl
      dsimp only
      rw [unlock_insert (not_held free _), free]
  | loopTurn turn => exact loopTurn_releases_iff free

end Steps

/-- A thread that starts without a mutex never waits for one of its own and holds none between its
    calls exactly when no call leaves through an exit that forgets to unlock. -/
theorem locks_released_iff (qos : Bool) (config : Config) (messageIds : List CString)
    (client : Client) (calls : List Call) :
    (∀ k, ∃ thread, Runs.run (step qos config) ⟨∅, messageIds, client⟩ (calls.take k) = some thread ∧
      thread.held = ∅) ↔ ∀ call ∈ calls, Releases qos config call :=
  Runs.run_keeps_iff (fun _ call free => step_releases_iff call free) calls rfl

/-- The argument of the address test, and the call after it. -/
theorem invalid_type_blocks :
    ¬ ∀ (qos : Bool) (config : Config) (messageIds : List CString) (client : Client)
      (calls : List Call) (k : Nat), ∃ thread,
      Runs.run (step qos config) ⟨∅, messageIds, client⟩ (calls.take k) = some thread ∧
        thread.held = ∅ := by
  intro always
  obtain ⟨thread, reached, -⟩ := always true ⟨[], "127.0.0.1:8000".toList, "tcp".toList⟩ []
    startClient [.getAddress true (.other 9999), .getAddress true .responderAddress] 2
  have blocked : Runs.run (step true ⟨[], "127.0.0.1:8000".toList, "tcp".toList⟩)
      ⟨∅, [], startClient⟩
      [.getAddress true (.other 9999), .getAddress true .responderAddress] = none := rfl
  cases blocked.symm.trans reached

end RealMQ.ClientLoop
