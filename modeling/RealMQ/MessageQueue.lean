import RealMQ.Foundation.Locks
import RealMQ.Foundation.Runs
import RealMQ.Foundation.Slots

/- common/qos/message_queue.c: the queue of messages that await a response, and one pass of the
   timeout sweep. Times are exact numbers and allocations succeed. -/
namespace RealMQ.MessageQueues
open Locks Slots

structure Timespec where
  tvSec : Int
  tvNsec : Int

structure MessageData (Id : Type) where
  id : Id
  sendTime : Timespec

inductive Mutex where
  | queueMutex
  deriving DecidableEq

/-- held: the mutexes of the thread that runs; between two calls of this module no other thread
    holds one either. -/
structure Queue (Id : Type) where
  messageQueue : Nat → MessageData Id
  queueSize : Nat
  queueCapacity : Nat
  held : Finset Mutex

variable {Id : Type} [DecidableEq Id]

def initializeMessageQueue (garbage : Nat → MessageData Id) : Queue Id := ⟨garbage, 0, 100, ∅⟩

def enqueueMessage (id : Id) (sendTime : Timespec) (queue : Queue Id) : Option (Queue Id) :=
  (lock queue.held .queueMutex).map fun held =>
    { messageQueue := Function.update queue.messageQueue queue.queueSize ⟨id, sendTime⟩
      queueSize := queue.queueSize + 1
      queueCapacity :=
        if queue.queueCapacity ≤ queue.queueSize then queue.queueCapacity * 2
        else queue.queueCapacity
      held := unlock held .queueMutex }

def removeFirst (id : Id) (queue : Queue Id) : Queue Id :=
  match (List.range queue.queueSize).find? fun i => (queue.messageQueue i).id = id with
  | none => queue
  | some i =>
      { queue with
        messageQueue := shiftDown queue.messageQueue i (queue.queueSize - 1 - i)
        queueSize := queue.queueSize - 1 }

def dequeueMessage (id : Id) (queue : Queue Id) : Option (Queue Id) :=
  (lock queue.held .queueMutex).map fun held =>
    { removeFirst id queue with held := unlock held .queueMutex }

def responseTimeout : ℚ := 60

def timeDiff (currentTime sendTime : Timespec) : ℚ :=
  ((currentTime.tvSec - sendTime.tvSec : Int) : ℚ) +
    ((currentTime.tvNsec - sendTime.tvNsec : Int) : ℚ) / 10 ^ 9

def late (currentTime : Timespec) (message : MessageData Id) : Bool :=
  responseTimeout < timeDiff currentTime message.sendTime

/-- handled: the messages that were given to handle_timeout, which only prints and logs. -/
inductive Pass (Id : Type) where
  | finished (queue : Queue Id) (handled : List (MessageData Id))
  | blocked (queue : Queue Id) (handled : List (MessageData Id))
  | running

/-- The inner loop. Its turn n reads clock n and finds the two flags as running n says. -/
def sweepLoop (clock : Nat → Timespec) (running : Nat → Bool) :
    Nat → Nat → Nat → Queue Id → List (MessageData Id) → Pass Id
  | 0, _, _, _, _ => .running
  | fuel + 1, n, i, queue, handled =>
      if i < queue.queueSize ∧ running n = true then
        if late (clock n) (queue.messageQueue i) then
          match dequeueMessage (queue.messageQueue i).id queue with
          | none => .blocked queue (handled ++ [queue.messageQueue i])
          | some shifted =>
              sweepLoop clock running fuel (n + 1) i shifted (handled ++ [queue.messageQueue i])
        else sweepLoop clock running fuel (n + 1) (i + 1) queue handled
      else .finished { queue with held := unlock queue.held .queueMutex } handled

def checkQueueAndProcessResponses (clock : Nat → Timespec) (running : Nat → Bool) (fuel : Nat)
    (queue : Queue Id) : Pass Id :=
  match lock queue.held .queueMutex with
  | none => .blocked queue []
  | some held => sweepLoop clock running fuel 0 0 { queue with held := held } []

def contents (queue : Queue Id) : List (MessageData Id) := window queue.messageQueue queue.queueSize

inductive Call (Id : Type) where
  | enqueue (id : Id) (sendTime : Timespec)
  | dequeue (id : Id)

def step (queue : Queue Id) : Call Id → Option (Queue Id)
  | .enqueue id sendTime => enqueueMessage id sendTime queue
  | .dequeue id => dequeueMessage id queue

def listStep (entries : List (MessageData Id)) : Call Id → List (MessageData Id)
  | .enqueue id sendTime => entries ++ [⟨id, sendTime⟩]
  | .dequeue id => entries.eraseP fun message => message.id = id

/-- Entry i is late when the i-th reading of the clock says so; a pass that removes late entries
    reads the clock once for each entry. -/
def expired (clock : Nat → Timespec) (entries : List (MessageData Id)) : List (MessageData Id) :=
  (entries.zipIdx.filter fun p => late (clock p.2) p.1).map Prod.fst

def kept (clock : Nat → Timespec) (entries : List (MessageData Id)) : List (MessageData Id) :=
  (entries.zipIdx.filter fun p => !late (clock p.2) p.1).map Prod.fst

def SweepMeets (clock : Nat → Timespec) (running : Nat → Bool) (queue : Queue Id) : Prop :=
  ∃ fuel after handled,
    checkQueueAndProcessResponses clock running fuel queue = .finished after handled ∧
    handled.Perm (expired clock (contents queue)) ∧
    contents after = kept clock (contents queue) ∧ after.held = queue.held

structure Valid (queue : Queue Id) : Prop where
  free : queue.held = ∅
  bounded : queue.queueSize ≤ queue.queueCapacity
  positive : 0 < queue.queueCapacity

section Calls
variable {queue : Queue Id} {id : Id}

theorem contents_removeFirst :
    contents (removeFirst id queue) = (contents queue).eraseP fun message => message.id = id := by
  have search := findIdx_window queue.messageQueue queue.queueSize fun message => message.id = id
  rw [List.eraseP_eq_eraseIdx]
  unfold contents
  rw [search, removeFirst]
  cases hit : (List.range queue.queueSize).find? fun i => (queue.messageQueue i).id = id with
  | none => rfl
  | some i =>
    have bound := List.mem_range.mp (List.mem_of_find?_eq_some hit)
    exact window_shift_down queue.messageQueue bound

theorem size_removeFirst : (removeFirst id queue).queueSize ≤ queue.queueSize := by
  unfold removeFirst
  split
  · exact le_refl _
  · exact Nat.sub_le _ _

theorem capacity_removeFirst : (removeFirst id queue).queueCapacity = queue.queueCapacity := by
  unfold removeFirst
  split <;> rfl

omit [DecidableEq Id] in
theorem valid_start (garbage : Nat → MessageData Id) :
    Valid (initializeMessageQueue garbage) := by
  constructor
  · rfl
  · exact Nat.zero_le _
  · exact Nat.succ_pos _

/-- dequeue_message takes the mutex itself. -/
theorem dequeue_blocked (member : .queueMutex ∈ queue.held) : dequeueMessage id queue = none := by
  rw [dequeueMessage, lock_held member, Option.map_none]

theorem step_valid (valid : Valid queue) (call : Call Id) :
    ∃ next, step queue call = some next ∧ Valid next ∧
      contents next = listStep (contents queue) call := by
  have empty : Mutex.queueMutex ∉ queue.held := by
    rw [valid.free]
    exact Finset.notMem_empty _
  have released : unlock (insert .queueMutex queue.held) .queueMutex = ∅ := by
    rw [unlock_insert empty, valid.free]
  have bounded := valid.bounded
  have positive := valid.positive
  cases call with
  | enqueue id sendTime =>
    simp only [step, enqueueMessage, lock_free empty, Option.map_some, released]
    refine ⟨_, rfl, ⟨rfl, ?_, ?_⟩, window_update_end _ _ _⟩
    · dsimp only
      split <;> omega
    · dsimp only
      split <;> omega
  | dequeue id =>
    simp only [step, dequeueMessage, lock_free empty, Option.map_some, released]
    have smaller := @size_removeFirst Id _ queue id
    have same := @capacity_removeFirst Id _ queue id
    refine ⟨_, rfl, ⟨rfl, ?_, ?_⟩, contents_removeFirst⟩
    · dsimp only
      omega
    · dsimp only
      omega

theorem run_valid (valid : Valid queue) (calls : List (Call Id)) :
    ∃ next, Runs.run step queue calls = some next ∧ Valid next ∧
      contents next = calls.foldl listStep (contents queue) := by
  induction calls generalizing queue with
  | nil => exact ⟨queue, rfl, valid, rfl⟩
  | cons call calls ih =>
    obtain ⟨after, first, valid, list⟩ := step_valid valid call
    obtain ⟨next, rest, done, final⟩ := ih valid
    refine ⟨next, Runs.run_cons_some.mpr ⟨after, first, rest⟩, done, ?_⟩
    rw [final, list]
    rfl

end Calls

section Sweep
variable {clock : Nat → Timespec} {running : Nat → Bool} {queue after : Queue Id}
  {handled handled' : List (MessageData Id)} {fuel n i : Nat}

theorem finished_unhandled (member : .queueMutex ∈ queue.held)
    (ends : sweepLoop clock running fuel n i queue handled = .finished after handled') :
    handled' = handled := by
  induction fuel generalizing n i with
  | zero => cases ends
  | succ fuel ih =>
    unfold sweepLoop at ends
    split at ends
    · split at ends
      · rw [dequeue_blocked member] at ends
        cases ends
      · exact ih ends
    · cases ends
      rfl

theorem finishes_calm
    (calm : ∀ j, i ≤ j → j < queue.queueSize → late (clock j) (queue.messageQueue j) = false)
    (here : i ≤ queue.queueSize) (enough : queue.queueSize < i + fuel) :
    sweepLoop clock running fuel i i queue handled =
      .finished { queue with held := unlock queue.held .queueMutex } handled := by
  induction fuel generalizing i with
  | zero => omega
  | succ fuel ih =>
    unfold sweepLoop
    split
    · rename_i turn
      rw [calm i (le_refl i) turn.1, if_neg Bool.false_ne_true]
      apply ih
      · intro j later
        exact calm j (by omega)
      · exact turn.1
      · omega
    · rfl

omit [DecidableEq Id] in
theorem expired_nil_iff :
    expired clock (contents queue) = [] ↔
      ∀ i, i < queue.queueSize → late (clock i) (queue.messageQueue i) = false := by
  unfold expired
  rw [List.map_eq_nil_iff, List.filter_eq_nil_iff]
  constructor
  · intro none i bound
    have member : (queue.messageQueue i, i) ∈ (contents queue).zipIdx := by
      rw [List.mk_mem_zipIdx_iff_getElem?]
      exact window_getElem? _ _ _ bound
    simpa using none _ member
  · rintro calm ⟨message, i⟩ member
    have here := List.mk_mem_zipIdx_iff_getElem?.mp member
    obtain ⟨bound, rfl⟩ := List.getElem?_eq_some_iff.mp here
    unfold contents at bound
    dsimp only
    unfold contents
    rw [window_getElem, calm i (by simpa using bound)]
    exact Bool.false_ne_true

omit [DecidableEq Id] in
theorem kept_calm (calm : expired clock (contents queue) = []) :
    kept clock (contents queue) = contents queue := by
  unfold expired at calm
  unfold kept
  rw [List.map_eq_nil_iff, List.filter_eq_nil_iff] at calm
  rw [List.filter_eq_self.mpr, List.zipIdx_map_fst]
  intro p member
  simpa using calm p member

end Sweep

/-- After any calls a pass does what it is for exactly when no entry is late. -/
theorem sweep_meets_iff (garbage : Nat → MessageData Id) (calls : List (Call Id))
    (clock : Nat → Timespec) (running : Nat → Bool) :
    ∃ queue, Runs.run step (initializeMessageQueue garbage) calls = some queue ∧
      (SweepMeets clock running queue ↔
        ∀ i, i < queue.queueSize → late (clock i) (queue.messageQueue i) = false) := by
  obtain ⟨queue, reached, valid, -⟩ := run_valid (valid_start garbage) calls
  refine ⟨queue, reached, ?_⟩
  have empty : Mutex.queueMutex ∉ queue.held := by
    rw [valid.free]
    exact Finset.notMem_empty _
  rw [← expired_nil_iff]
  constructor
  · rintro ⟨fuel, after, handled, ends, all, -, -⟩
    rw [checkQueueAndProcessResponses, lock_free empty] at ends
    have none := finished_unhandled (Finset.mem_insert_self _ _) ends
    rw [none] at all
    exact all.nil_eq.symm
  · intro calm
    refine ⟨queue.queueSize + 1, queue, [], ?_, ?_, ?_, rfl⟩
    · rw [checkQueueAndProcessResponses, lock_free empty]
      dsimp only
      rw [finishes_calm]
      · dsimp only
        rw [unlock_insert empty]
      · intro j _ bound
        exact expired_nil_iff.mp calm j bound
      · exact Nat.zero_le _
      · dsimp only
        omega
    · rw [calm]
    · rw [kept_calm calm]

/-- One message and a pass 61 seconds after it was sent. -/
theorem late_entry_stops_pass :
    ¬ ∀ (garbage : Nat → MessageData Nat) (calls : List (Call Nat)) (clock : Nat → Timespec)
      (running : Nat → Bool) (queue : Queue Nat),
      Runs.run step (initializeMessageQueue garbage) calls = some queue →
      SweepMeets clock running queue := by
  intro always
  obtain ⟨fuel, after, handled, ends, all, -, -⟩ := always (fun _ => ⟨0, ⟨0, 0⟩⟩)
    [.enqueue 7 ⟨0, 0⟩] (fun _ => ⟨61, 0⟩) (fun _ => true) _ rfl
  have none := finished_unhandled (Finset.mem_insert_self _ _) ends
  rw [none] at all
  have calm := expired_nil_iff.mp all.nil_eq.symm 0 Nat.zero_lt_one
  have late : responseTimeout < timeDiff ⟨61, 0⟩ ⟨0, 0⟩ := by
    unfold responseTimeout timeDiff
    norm_num
  exact absurd late (of_decide_eq_false calm)

end RealMQ.MessageQueues
