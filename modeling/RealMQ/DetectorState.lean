import RealMQ.PhiAccrualDetector
import RealMQ.Foundation.Runs

/- state.c and what phi_accrual_failure_detector.c does to a state. State objects lie at
   addresses, so that old_state and detector->state can be one object. A history belongs to
   the state that points to it; a pointer to it is that state and an offset, counted in
   histories. What reads outside an object has no result. -/
namespace RealMQ.DetectorStates
open HeartbeatHistories HistoryUpdates PhiAccrualDetectors
variable {K : Type*} [Field K] [LinearOrder K]

/-- What malloc leaves in intervals. elsewhere leads to no block that a heartbeat of this detector
    uses, so test_free does not know it or frees a block of somebody else; the intervals that are
    to be copied may fit there. -/
inductive Leftover where
  | null
  | elsewhere (fits : Bool)
  | inUse
  deriving DecidableEq

structure Recycled where
  maxSampleSize : Nat
  intervals : Leftover

/-- After update_history the new history has a buffer that no other history of the detector has,
    and none of these has lost its own. Where the sizes are equal the pointer is kept. -/
def Recycled.getsBuffer (recycled : Recycled) (maxSampleSize : Nat) : Bool :=
  match recycled.intervals with
  | .null => true
  | .elsewhere fits => decide (recycled.maxSampleSize ≠ maxSampleSize) || fits
  | .inUse => false

def stateInit (recycled : Recycled) (history : Option (HeartbeatHistory K)) (timestamp : Int) :
    Option (State K) :=
  match history with
  | none => (newHeartbeatHistory 1 none 0 0 0).map fun newHistory => ⟨newHistory, timestamp⟩
  | some history =>
      if recycled.getsBuffer history.maxSampleSize then
        some ⟨updateHistory ⟨recycled.maxSampleSize, fun _ => 0, 0, 0, 0⟩ history, timestamp⟩
      else none

def compareStates (first second : State K) : Bool :=
  if first.timestamp = 0 ∧ second.timestamp = 0 then true
  else decide (first.timestamp = second.timestamp) && compareHistory first.history second.history

omit [LinearOrder K] in
def updateState (first second : State K) : State K :=
  ⟨updateHistory first.history second.history, second.timestamp⟩

def compareAndSet {A : Type} [DecidableEq A] (memory : A → State K) (current expect update : A) :
    Bool × (A → State K) :=
  if compareStates (memory current) (memory expect) then
    (true, Function.update memory current (updateState (memory current) (memory update)))
  else (false, memory)

inductive Address where
  | detectorState
  | newState (thread : Nat)
  deriving DecidableEq

abbrev Memory (K : Type*) := Address → State K

structure HistoryPointer where
  owner : Address
  offset : Int

omit [Field K] [LinearOrder K] in
def readHistory (memory : Memory K) (pointer : HistoryPointer) : Option (HeartbeatHistory K) :=
  if pointer.offset = 0 then some (memory pointer.owner).history else none

structure Attempt where
  timestamp : Int
  recycled : Recycled

structure View (K : Type*) where
  history : Contents K
  timestamp : Int

omit [Field K] [LinearOrder K] in
def view (state : State K) : View K := ⟨contents state.history, state.timestamp⟩

/-- new_phi_accrual_detector, as the state that it leaves the detector with; none where that
    state has no history. -/
def newPhiAccrualDetector (detector : PhiAccrualDetector K) (recycled : Recycled)
    (state : Option (State K)) : Option (State K) :=
  (state.or (stateInit recycled none 0)).bind fun state =>
    (firstHeartbeat detector).map fun history => { state with history := history }

def allocState (attempt : Attempt) (thread : Nat) (newHistory : HistoryPointer) (memory : Memory K) :
    Option (Memory K) :=
  (readHistory memory newHistory).bind fun history =>
    (stateInit attempt.recycled (some history) attempt.timestamp).map fun newState =>
      Function.update memory (.newState thread) newState

def resetHistory (detector : PhiAccrualDetector K) (state : State K) : State K :=
  match firstHeartbeat detector with
  | none => state
  | some tmpHistory => { state with history := updateHistory state.history tmpHistory }

/-- heartbeat up to state_init. An available detector moves the pointer to the history by
    interval. -/
def buildState (available : View K → Int → Bool) (detector : PhiAccrualDetector K)
    (attempt : Attempt) (thread : Nat) (memory : Memory K) : Option (Memory K) :=
  let oldState := Address.detectorState
  if (memory oldState).timestamp = 0 then
    let reset := Function.update memory .detectorState
      (resetHistory detector (memory .detectorState))
    allocState attempt thread ⟨.detectorState, 0⟩ reset
  else
    let interval := attempt.timestamp - (memory oldState).timestamp
    let offset := if available (view (memory .detectorState)) attempt.timestamp then interval else 0
    allocState attempt thread ⟨oldState, offset⟩ memory

/-- heartbeat in one thread; none also when every given attempt ends in another one. -/
def heartbeat (available : View K → Int → Bool) (detector : PhiAccrualDetector K) :
    List Attempt → Memory K → Option (Memory K)
  | [], _ => none
  | attempt :: later, memory =>
      (buildState available detector attempt 0 memory).bind fun built =>
        let oldState := Address.detectorState
        let result := compareAndSet built .detectorState oldState (.newState 0)
        if result.1 then some result.2 else heartbeat available detector later result.2

section Views
variable {first second : State K}

omit [Field K] in
theorem compareStates_iff : compareStates first second = true ↔
    (first.timestamp = 0 ∧ second.timestamp = 0) ∨ view first = view second := by
  unfold compareStates view
  split
  · rename_i fresh
    exact iff_of_true rfl (Or.inl fresh)
  · rename_i started
    rw [Bool.and_eq_true, decide_eq_true_iff, compareHistory_iff, View.mk.injEq]
    tauto

omit [Field K] in
theorem compareStates_self (state : State K) : compareStates state state = true :=
  compareStates_iff.mpr (Or.inr rfl)

omit [LinearOrder K] in
@[simp] theorem view_update (first second : State K) : view (updateState first second) = view second := by
  unfold updateState view
  rw [contents_update]

theorem compareAndSet_true {A : Type} [DecidableEq A] {memory : A → State K}
    {current expect update : A} (done : (compareAndSet memory current expect update).1 = true) :
    (compareAndSet memory current expect update).2 =
      Function.update memory current (updateState (memory current) (memory update)) := by
  unfold compareAndSet at done ⊢
  split
  · rfl
  · rename_i refused
    rw [if_neg refused] at done
    cases done

theorem compareAndSet_other {A : Type} [DecidableEq A] (memory : A → State K)
    {current other : A} (expect update : A) (different : other ≠ current) :
    (compareAndSet memory current expect update).2 other = memory other := by
  unfold compareAndSet
  split
  · exact Function.update_of_ne different _ _
  · rfl

theorem compareAndSet_alias {A : Type} [DecidableEq A] (memory : A → State K) (current update : A) :
    compareAndSet memory current current update =
      (true, Function.update memory current (updateState (memory current) (memory update))) := by
  unfold compareAndSet
  rw [if_pos (compareStates_self _)]

end Views

section Availability

theorem isAvailable_congr {detector : PhiAccrualDetector ℝ} {first second : State ℝ}
    (same : view first = view second) (now timestamp : Int) :
    isAvailable detector first now timestamp ↔ isAvailable detector second now timestamp := by
  obtain ⟨histories, timestamps⟩ := View.mk.inj same
  obtain ⟨-, -, sum, squares⟩ := contents_eq_iff.mp histories
  have count := count_of_contents histories
  have means : mean first.history = mean second.history := by
    unfold mean
    rw [count, sum]
  have variances : variance first.history = variance second.history := by
    unfold variance
    rw [count, squares, means]
  unfold isAvailable getPhi deviations stdDev
  rw [means, variances, timestamps]

end Availability

section Heartbeat
variable {available : View K → Int → Bool} {detector : PhiAccrualDetector K} {attempt : Attempt}
  {thread : Nat} {memory : Memory K}

def prepared (detector : PhiAccrualDetector K) (state : State K) : State K :=
  if state.timestamp = 0 then resetHistory detector state else state

def PointerStays (available : View K → Int → Bool) (state : State K) (timestamp : Int) : Prop :=
  state.timestamp = 0 ∨ available (view state) timestamp = false ∨ timestamp = state.timestamp

def builtMemory (detector : PhiAccrualDetector K) (attempt : Attempt) (thread : Nat)
    (memory : Memory K) : Memory K :=
  let source := prepared detector (memory .detectorState)
  Function.update (Function.update memory .detectorState source) (.newState thread)
    ⟨updateHistory ⟨attempt.recycled.maxSampleSize, fun _ => 0, 0, 0, 0⟩ source.history,
      attempt.timestamp⟩

theorem allocState_inside (owner : Address) (memory : Memory K) :
    allocState attempt thread ⟨owner, 0⟩ memory =
      if attempt.recycled.getsBuffer (memory owner).history.maxSampleSize then
        some (Function.update memory (.newState thread)
          ⟨updateHistory ⟨attempt.recycled.maxSampleSize, fun _ => 0, 0, 0, 0⟩
            (memory owner).history, attempt.timestamp⟩)
      else none := by
  unfold allocState readHistory stateInit
  rw [if_pos rfl]
  dsimp only [Option.bind_some]
  split <;> rfl

theorem allocState_outside {owner : Address} {offset : Int} (outside : offset ≠ 0)
    (memory : Memory K) : allocState attempt thread ⟨owner, offset⟩ memory = none := by
  unfold allocState readHistory
  rw [if_neg outside]
  rfl

def OwnBuffer (detector : PhiAccrualDetector K) (recycled : Recycled) (state : State K) : Prop :=
  recycled.getsBuffer (prepared detector state).history.maxSampleSize = true

theorem buildState_some_iff {built : Memory K} :
    buildState available detector attempt thread memory = some built ↔
      OwnBuffer detector attempt.recycled (memory .detectorState) ∧
      PointerStays available (memory .detectorState) attempt.timestamp ∧
      built = builtMemory detector attempt thread memory := by
  have inside : ∀ source, prepared detector (memory .detectorState) = source →
      (allocState attempt thread ⟨.detectorState, 0⟩ (Function.update memory .detectorState source) =
        some built ↔ OwnBuffer detector attempt.recycled (memory .detectorState) ∧
          built = builtMemory detector attempt thread memory) := by
    rintro source rfl
    rw [allocState_inside, Function.update_self]
    unfold builtMemory OwnBuffer
    cases attempt.recycled.getsBuffer
        (prepared detector (memory .detectorState)).history.maxSampleSize with
    | false => simp
    | true => simp [eq_comm]
  unfold buildState PointerStays
  dsimp only
  by_cases fresh : (memory .detectorState).timestamp = 0
  · rw [if_pos fresh, inside _ (if_pos fresh)]
    tauto
  · rw [if_neg fresh]
    by_cases stays : available (view (memory .detectorState)) attempt.timestamp = false ∨
        attempt.timestamp = (memory .detectorState).timestamp
    · have zero : (if available (view (memory .detectorState)) attempt.timestamp then
          attempt.timestamp - (memory .detectorState).timestamp else 0) = 0 := by
        rcases stays with suspected | same
        · rw [suspected]; rfl
        · rw [same]; simp
      have unchanged := inside _ (if_neg fresh)
      rw [Function.update_eq_self] at unchanged
      rw [zero, unchanged]
      tauto
    · have moved : (if available (view (memory .detectorState)) attempt.timestamp then
          attempt.timestamp - (memory .detectorState).timestamp else 0) ≠ 0 := by
        rw [not_or, Bool.not_eq_false] at stays
        rw [if_pos stays.1]
        omega
      rw [allocState_outside moved]
      simp only [reduceCtorEq, false_iff]
      tauto

@[simp] theorem builtMemory_detectorState :
    builtMemory detector attempt thread memory .detectorState =
      prepared detector (memory .detectorState) := by
  unfold builtMemory
  rw [Function.update_of_ne (by simp), Function.update_self]

theorem builtMemory_newState : view (builtMemory detector attempt thread memory (.newState thread)) =
    ⟨contents (prepared detector (memory .detectorState)).history, attempt.timestamp⟩ := by
  unfold builtMemory view
  rw [Function.update_self, contents_update]

theorem builtMemory_other {other : Nat} (different : other ≠ thread) :
    builtMemory detector attempt thread memory (.newState other) = memory (.newState other) := by
  unfold builtMemory
  rw [Function.update_of_ne (by simpa using different), Function.update_of_ne (by simp)]

/-- The first attempt is the only one: compare_and_set compares the state with itself. -/
theorem heartbeat_some_iff {later : List Attempt} {after : Memory K} :
    heartbeat available detector (attempt :: later) memory = some after ↔
      OwnBuffer detector attempt.recycled (memory .detectorState) ∧
      PointerStays available (memory .detectorState) attempt.timestamp ∧
      after = Function.update (builtMemory detector attempt 0 memory) .detectorState
        (updateState (prepared detector (memory .detectorState))
          (builtMemory detector attempt 0 memory (.newState 0))) := by
  unfold heartbeat
  simp only [compareAndSet_alias, if_true, Option.bind_eq_some_iff, buildState_some_iff]
  constructor
  · rintro ⟨built, ⟨own, stays, rfl⟩, set⟩
    rw [builtMemory_detectorState] at set
    exact ⟨own, stays, (Option.some.inj set).symm⟩
  · rintro ⟨own, stays, rfl⟩
    exact ⟨_, ⟨own, stays, rfl⟩, by rw [builtMemory_detectorState]⟩

theorem view_after_heartbeat {later : List Attempt} {after : Memory K}
    (beat : heartbeat available detector (attempt :: later) memory = some after) :
    view (after .detectorState) =
      ⟨contents (prepared detector (memory .detectorState)).history, attempt.timestamp⟩ := by
  obtain ⟨-, -, rfl⟩ := heartbeat_some_iff.mp beat
  rw [Function.update_self, view_update, builtMemory_newState]

end Heartbeat

inductive Action where
  | heartbeat (attempts : List Attempt)
  | adjust (missedCount : Int)

def adjustState (state : State K) (missedCount : Int) : State K :=
  { state with history := adjustIntervals state.history missedCount }

def step (available : View K → Int → Bool) (detector : PhiAccrualDetector K) (memory : Memory K) :
    Action → Option (Memory K)
  | .heartbeat attempts => heartbeat available detector attempts memory
  | .adjust missedCount =>
      some (Function.update memory .detectorState
        (adjustState (memory .detectorState) missedCount))

structure FeedsWindow (available : View K → Int → Bool) (detector : PhiAccrualDetector K)
    (before after : State K) (timestamp : Int) : Prop where
  first : before.timestamp = 0 → ∃ history, firstHeartbeat detector = some history ∧
    contents after.history = contents history
  added : before.timestamp ≠ 0 → available (view before) timestamp = true →
    contents after.history =
      contents (addInterval before.history ((timestamp - before.timestamp : Int) : K))
  unchanged : before.timestamp ≠ 0 → available (view before) timestamp = false →
    contents after.history = contents before.history
  timestamp : after.timestamp = timestamp

section Reachable
variable {available : View K → Int → Bool} {detector : PhiAccrualDetector K} {memory next : Memory K}

structure Sized (detector : PhiAccrualDetector K) (state : State K) : Prop where
  size : state.history.maxSampleSize = detector.maxSampleSize
  bounded : state.history.intervalCount ≤ detector.maxSampleSize

omit [Field K] [LinearOrder K] in
theorem sized_of_contents {history : HeartbeatHistory K} {state : State K}
    (same : contents state.history = contents history)
    (size : history.maxSampleSize = detector.maxSampleSize)
    (bounded : history.intervalCount ≤ detector.maxSampleSize) : Sized detector state :=
  ⟨(contents_eq_iff.mp same).1.trans size, (count_of_contents same).trans_le bounded⟩

theorem sized_first {history : HeartbeatHistory K} (size : 2 ≤ detector.maxSampleSize)
    (first : firstHeartbeat detector = some history) :
    history.maxSampleSize = detector.maxSampleSize ∧
      history.intervalCount ≤ detector.maxSampleSize := by
  obtain ⟨history', eq, max, -, list⟩ := first_heartbeat_samples size
  obtain rfl := Option.some.inj (eq.symm.trans first)
  have count := congrArg List.length list
  simp only [samples, Slots.window_length, List.length_cons, List.length_nil] at count
  exact ⟨max, by omega⟩

theorem contents_prepared_fresh {state : State K} {history : HeartbeatHistory K}
    (fresh : state.timestamp = 0) (first : firstHeartbeat detector = some history) :
    contents (prepared detector state).history = contents history := by
  unfold prepared resetHistory
  rw [if_pos fresh, first, contents_update]

theorem prepared_started {state : State K} (started : state.timestamp ≠ 0) :
    prepared detector state = state := if_neg started

theorem sized_prepared {state : State K} (size : 2 ≤ detector.maxSampleSize)
    (before : Sized detector state) : Sized detector (prepared detector state) := by
  by_cases fresh : state.timestamp = 0
  · obtain ⟨history, first, -, -, -⟩ := @first_heartbeat_samples _ _ _ detector size
    obtain ⟨max, bounded⟩ := sized_first size first
    exact sized_of_contents (contents_prepared_fresh fresh first) max bounded
  · rw [prepared_started fresh]
    exact before

theorem ownBuffer_sized {recycled : Recycled} {state : State K} (size : 2 ≤ detector.maxSampleSize)
    (sized : Sized detector state) :
    OwnBuffer detector recycled state ↔ recycled.getsBuffer detector.maxSampleSize = true := by
  unfold OwnBuffer
  rw [(sized_prepared size sized).size]

theorem sized_step {action : Action} (size : 2 ≤ detector.maxSampleSize)
    (before : Sized detector (memory .detectorState))
    (moved : step available detector memory action = some next) :
    Sized detector (next .detectorState) := by
  cases action with
  | heartbeat attempts =>
    cases attempts with
    | nil => cases moved
    | cons attempt later =>
      have same := congrArg View.history (view_after_heartbeat moved)
      obtain ⟨max, bounded⟩ := sized_prepared size before
      exact sized_of_contents same max bounded
  | adjust missedCount =>
    obtain rfl := Option.some.inj moved
    rw [Function.update_self]
    exact ⟨before.size, before.bounded⟩

theorem sized_new {recycled : Recycled} {given : Option (State K)} {state : State K}
    (size : 2 ≤ detector.maxSampleSize)
    (new : newPhiAccrualDetector detector recycled given = some state) : Sized detector state := by
  unfold newPhiAccrualDetector at new
  obtain ⟨old, -, rest⟩ := Option.bind_eq_some_iff.mp new
  obtain ⟨history, first, rfl⟩ := Option.map_eq_some_iff.mp rest
  obtain ⟨max, bounded⟩ := sized_first size first
  exact ⟨max, bounded⟩

omit [LinearOrder K] in
theorem contents_add_ne {history : HeartbeatHistory K} (x : K) (pos : 0 < history.maxSampleSize)
    (bounded : history.intervalCount ≤ history.maxSampleSize) :
    contents (addInterval history x) ≠ contents history := by
  intro same
  have lengths := congrArg List.length (contents_eq_iff.mp same).2.1
  rcases Nat.lt_or_ge history.intervalCount history.maxSampleSize with room | full
  · rw [samples_add_growing x room, List.length_append] at lengths
    simp at lengths
  · rw [samples_add_full x pos (Nat.le_antisymm bounded full), List.length_drop] at lengths
    simp only [samples, Slots.window_length] at lengths
    omega

theorem heartbeat_feeds {attempt : Attempt} {later : List Attempt}
    {history : HeartbeatHistory K} (first : firstHeartbeat detector = some history)
    (own : OwnBuffer detector attempt.recycled (memory .detectorState))
    (condition : (memory .detectorState).timestamp = 0 ∨
      available (view (memory .detectorState)) attempt.timestamp = false) :
    ∃ after, heartbeat available detector (attempt :: later) memory = some after ∧
      FeedsWindow available detector (memory .detectorState) (after .detectorState)
        attempt.timestamp := by
  have stays : PointerStays available (memory .detectorState) attempt.timestamp := by
    rcases condition with fresh | suspected
    · exact Or.inl fresh
    · exact Or.inr (Or.inl suspected)
  obtain ⟨after, beat⟩ : ∃ after,
      heartbeat available detector (attempt :: later) memory = some after :=
    ⟨_, heartbeat_some_iff.mpr ⟨own, stays, rfl⟩⟩
  have seen := view_after_heartbeat beat
  have same := congrArg View.history seen
  refine ⟨after, beat, ?_, ?_, ?_, congrArg View.timestamp seen⟩
  · intro fresh
    exact ⟨history, first, same.trans (contents_prepared_fresh fresh first)⟩
  · intro started trusted
    rw [condition.resolve_left started] at trusted
    cases trusted
  · intro started _
    rw [prepared_started started] at same
    exact same

theorem heartbeat_adds_nothing {attempt : Attempt} {later : List Attempt} {after : Memory K}
    (sized : Sized detector (memory .detectorState)) (size : 2 ≤ detector.maxSampleSize)
    (beat : heartbeat available detector (attempt :: later) memory = some after)
    (started : (memory .detectorState).timestamp ≠ 0) (x : K) :
    contents (after .detectorState).history ≠
      contents (addInterval (memory .detectorState).history x) := by
  have positive : 0 < (memory .detectorState).history.maxSampleSize := by rw [sized.size]; omega
  have bounded : (memory .detectorState).history.intervalCount ≤
      (memory .detectorState).history.maxSampleSize := by rw [sized.size]; exact sized.bounded
  have same := congrArg View.history (view_after_heartbeat beat)
  rw [prepared_started started] at same
  intro added
  exact contents_add_ne x positive bounded (added.symm.trans same)

end Reachable

def unused : Recycled := ⟨0, .null⟩

def usedBefore : Recycled := ⟨1, .elsewhere false⟩

def patient (seen : View ℚ) (timestamp : Int) : Bool := decide (timestamp - seen.timestamp < 100)

end RealMQ.DetectorStates
