import RealMQ.DetectorInterleavings
import RealMQ.RecycledMemory
import RealMQ.TrackedHeap

/- The memory of the failure detector: heartbeat in any number of threads and adjust_intervals,
   as they allocate, copy and free, with the MemoryBlock that test_malloc and test_calloc add for
   each block. A struct is a block without cells, its fields are kept beside it. -/
namespace RealMQ.DetectorMemory
open PhiAccrualDetectors HistoryHeap StateMemory Heaps TrackedHeaps
open DetectorStates (Address View)
variable {K : Type*} [Field K] [LinearOrder K]

/-- newState is what the running threads have; for the other ones it means nothing. -/
structure DetectorObject (K : Type*) where
  memory : StateMemory.Memory Address K
  head : List (Nat × Nat)
  statePlace : Address → Nat
  historyPlace : Address → Nat
  detector : Nat
  running : Finset Nat

omit [Field K] [LinearOrder K] in
def DetectorObject.tracked (object : DetectorObject K) : Tracked K :=
  ⟨object.memory.heap, object.head⟩

/-- The detector gives no intervals, and sums of 0. Where the size is 0 the struct is left. -/
def newHeartbeatHistory (tracked : Tracked K) (maxSampleSize : Nat) :
    Option (Tracked K × Option (Nat × HistoryObject K)) :=
  let place := tracked.heap.next
  let tracked := testMalloc tracked []
  let tmp := tracked.heap.next
  match HistoryHeap.newHeartbeatHistory tracked.heap maxSampleSize none 0 0 0 with
  | some placed => some (note placed.heap tracked.head tmp, some (place, placed.history))
  | none =>
    (testFree (testMalloc tracked (List.replicate maxSampleSize 0)) (some tmp)).map fun tracked =>
      (tracked, none)

def deleteHeartbeatHistory (tracked : Tracked K) (place : Nat) (history : HistoryObject K) :
    Option (Tracked K) :=
  (cells tracked.heap (some place)).bind fun _ =>
  (testFree tracked history.intervals).bind fun tracked => testFree tracked (some place)

def updateHistory (tracked : Tracked K) (first second : HistoryObject K) :
    Option (Tracked K × HistoryObject K) :=
  (HistoryHeap.updateHistory (addresses tracked.head) tracked.heap first second).bind fun placed =>
    if first.maxSampleSize ≠ second.maxSampleSize ∨ first.intervals = none then
      (unlink placed.heap tracked.head first.intervals).bind fun tracked =>
        placed.history.intervals.map fun buffer =>
          (note tracked.heap tracked.head buffer, placed.history)
    else some (⟨placed.heap, tracked.head⟩, placed.history)

def stateInit (tracked : Tracked K) (recycled : HistoryObject K)
    (history : Option (HistoryObject K)) (timestamp : Int) :
    Option (Tracked K × Nat × Nat × StateObject K) :=
  let state := tracked.heap.next
  let tracked := testMalloc tracked []
  match history with
  | none =>
    (newHeartbeatHistory tracked 1).bind fun (tracked, made) =>
      made.map fun (newHistory, fields) => (tracked, state, newHistory, ⟨fields, timestamp⟩)
  | some history =>
    let newHistory := tracked.heap.next
    (updateHistory (testMalloc tracked []) recycled history).map fun (tracked, fields) =>
      (tracked, state, newHistory, ⟨fields, timestamp⟩)

def deleteState (tracked : Tracked K) (state history : Nat) (fields : StateObject K) :
    Option (Tracked K) :=
  (cells tracked.heap (some state)).bind fun _ =>
  (deleteHeartbeatHistory tracked history fields.history).bind fun tracked =>
    testFree tracked (some state)

def firstHeartbeat (tracked : Tracked K) (parameters : PhiAccrualDetector K) :
    Option (Tracked K × Option (Nat × HistoryObject K)) :=
  let meanValue := parameters.firstHeartbeatEstimateMs
  let stdDevValue := meanValue / ((4 : Nat) : K)
  (newHeartbeatHistory tracked parameters.maxSampleSize).bind fun (tracked, made) =>
    match made with
    | none => some (tracked, none)
    | some (place, history) =>
      (HistoryHeap.addInterval ⟨tracked.heap, history⟩ (meanValue - stdDevValue)).bind fun placed =>
      (HistoryHeap.addInterval placed (meanValue + stdDevValue)).map fun placed =>
        (⟨placed.heap, tracked.head⟩, some (place, placed.history))

/-- No state is given; none also where the state gets no history. -/
def newPhiAccrualDetector (heap : Heap K) (recycled : HistoryObject K)
    (parameters : PhiAccrualDetector K) : Option (DetectorObject K) :=
  let detector := heap.next
  (stateInit (testMalloc ⟨heap, []⟩ []) recycled none 0).bind
    fun (tracked, state, oldHistory, fields) =>
  (deleteHeartbeatHistory tracked oldHistory fields.history).bind fun tracked =>
  (firstHeartbeat tracked parameters).bind fun (tracked, first) =>
  first.map fun (place, history) =>
    { memory := ⟨tracked.heap, fun _ => ⟨history, fields.timestamp⟩⟩
      head := tracked.head
      statePlace := fun _ => state
      historyPlace := fun _ => place
      detector := detector
      running := ∅ }

def readState (object : DetectorObject K) (a : Address) : Option (StateObject K) :=
  (cells object.memory.heap (some (object.statePlace a))).bind fun _ =>
  (cells object.memory.heap (some (object.historyPlace a))).map fun _ => object.memory.states a

def viewAt (object : DetectorObject K) (a : Address) : Option (View K) :=
  (contentsAt object.memory.heap (object.memory.states a).history).map fun contents =>
    ⟨contents, (object.memory.states a).timestamp⟩

omit [Field K] [LinearOrder K] in
def DetectorObject.written (object : DetectorObject K) (a : Address) (tracked : Tracked K)
    (state : StateObject K) : DetectorObject K :=
  { object with
    memory :=
      { heap := tracked.heap
        states := Function.update object.memory.states a state }
    head := tracked.head }

def resetHistory (parameters : PhiAccrualDetector K) (object : DetectorObject K) :
    Option (DetectorObject K) :=
  (firstHeartbeat object.tracked parameters).bind fun (tracked, first) =>
    let state := object.memory.states .detectorState
    match first with
    | none => some (object.written .detectorState tracked state)
    | some (place, tmpHistory) =>
      (updateHistory tracked state.history tmpHistory).bind fun (tracked, history) =>
      (deleteHeartbeatHistory tracked place tmpHistory).map fun tracked =>
        object.written .detectorState tracked { state with history := history }

structure Attempt (K : Type*) where
  timestamp : Int
  recycled : HistoryObject K

def allocState (attempt : Attempt K) (thread : Nat) (object : DetectorObject K) :
    Option (DetectorObject K) :=
  (stateInit object.tracked attempt.recycled
    (some (object.memory.states .detectorState).history) attempt.timestamp).map
    fun (tracked, state, history, fields) =>
      { object with
        memory := ⟨tracked.heap, Function.update object.memory.states (.newState thread) fields⟩
        head := tracked.head
        statePlace := Function.update object.statePlace (.newState thread) state
        historyPlace := Function.update object.historyPlace (.newState thread) history
        running := insert thread object.running }

def build (available : View K → Int → Bool) (parameters : PhiAccrualDetector K) (thread : Nat)
    (attempt : Attempt K) (object : DetectorObject K) : Option (DetectorObject K) :=
  (cells object.memory.heap (some object.detector)).bind fun _ =>
  (readState object .detectorState).bind fun oldState =>
    if oldState.timestamp = 0 then
      (resetHistory parameters object).bind (allocState attempt thread)
    else
      (viewAt object .detectorState).bind fun seen =>
      let interval := attempt.timestamp - oldState.timestamp
      let offset := if available seen attempt.timestamp then interval else 0
      if offset = 0 then allocState attempt thread object else none

def compareAndSet (object : DetectorObject K) (current expect update : Address) :
    Option (Bool × DetectorObject K) :=
  (StateMemory.compareStates object.memory current expect).bind fun same =>
    if same then
      (updateHistory object.tracked (object.memory.states current).history
        (object.memory.states update).history).map fun (tracked, history) =>
          (true, object.written current tracked ⟨history, (object.memory.states update).timestamp⟩)
    else some (false, object)

def set (thread : Nat) (object : DetectorObject K) : Option (DetectorObject K) :=
  (cells object.memory.heap (some object.detector)).bind fun _ =>
  (readState object .detectorState).bind fun _ =>
  (readState object (.newState thread)).bind fun _ =>
  (compareAndSet object .detectorState .detectorState (.newState thread)).bind fun (_, object) =>
    (deleteState object.tracked (object.statePlace (.newState thread))
      (object.historyPlace (.newState thread)) (object.memory.states (.newState thread))).map
        fun tracked =>
          { object with
            memory := { object.memory with heap := tracked.heap }
            head := tracked.head
            running := object.running.erase thread }

def adjust (missedCount : Int) (object : DetectorObject K) : Option (DetectorObject K) :=
  (cells object.memory.heap (some object.detector)).bind fun _ =>
  (readState object .detectorState).bind fun state =>
  (HistoryHeap.adjustIntervals ⟨object.memory.heap, state.history⟩ missedCount).map fun placed =>
    object.written .detectorState ⟨placed.heap, object.head⟩
      { state with history := placed.history }

inductive Action (K : Type*) where
  | build (thread : Nat) (attempt : Attempt K)
  | set (thread : Nat)
  | adjust (missedCount : Int)

def step (available : View K → Int → Bool) (parameters : PhiAccrualDetector K)
    (object : DetectorObject K) : Action K → Option (DetectorObject K)
  | .build thread attempt =>
      if thread ∈ object.running then none else build available parameters thread attempt object
  | .set thread => if thread ∈ object.running then set thread object else none
  | .adjust missedCount => adjust missedCount object

def deletePhiAccrualDetector (object : DetectorObject K) : Option (Tracked K) :=
  (cells object.memory.heap (some object.detector)).bind fun _ =>
  (deleteState object.tracked (object.statePlace .detectorState)
    (object.historyPlace .detectorState) (object.memory.states .detectorState)).bind fun tracked =>
      testFree tracked (some object.detector)

/-- Of a leftover that is not NULL the value model is not told where it leads. -/
def leftover : Pointer → DetectorStates.Leftover
  | none => .null
  | some _ => .inUse

def forget : Action K → DetectorInterleavings.Action
  | .build thread attempt =>
      .build thread ⟨attempt.timestamp,
        ⟨attempt.recycled.maxSampleSize, leftover attempt.recycled.intervals⟩⟩
  | .set thread => .set thread
  | .adjust missedCount => .adjust missedCount

section Owned
variable {tracked : Tracked K} {heap : Heap K} {frame blocks : Multiset (Nat × List K)}
  {place p q : Nat} {history first second : HeartbeatHistories.HeartbeatHistory K}
  {parameters : PhiAccrualDetector K}

def zeroed (n : Nat) : HeartbeatHistories.HeartbeatHistory K := ⟨n, fun _ => 0, 0, 0, 0⟩

theorem new_noted {n : Nat} (pos : 0 < n) (noted : Noted frame tracked blocks) :
    ∃ after place p,
      newHeartbeatHistory tracked n = some (after, some (place, objectAt p (zeroed n))) ∧
      Noted frame after ({(p, bufferOf (zeroed n))} + ({(place, [])} + blocks)) := by
  have buffer : bufferOf (zeroed n : HeartbeatHistories.HeartbeatHistory K) = List.replicate n 0 :=
    Slots.window_const 0 n
  have made : Noted frame (testMalloc (testMalloc tracked []) (List.replicate n 0)) _ :=
    noted_malloc (noted_malloc noted)
  refine ⟨testMalloc (testMalloc tracked []) (List.replicate n 0), tracked.heap.next,
    (testMalloc tracked []).heap.next, ?_, ?_⟩
  · unfold newHeartbeatHistory HistoryHeap.newHeartbeatHistory
    dsimp only
    rw [if_neg (by omega), if_neg (lt_irrefl _), if_neg (lt_irrefl _)]
    rfl
  · rw [buffer]
    exact made

omit [LinearOrder K] in
theorem add_owned (owns : Owns heap ({(p, bufferOf history)} + frame))
    (bounded : history.intervalCount ≤ history.maxSampleSize) (pos : 0 < history.maxSampleSize)
    (x : K) : ∃ after, HistoryHeap.addInterval ⟨heap, objectAt p history⟩ x =
        some ⟨after, objectAt p (HeartbeatHistories.addInterval history x)⟩ ∧
      Owns after ({(p, bufferOf (HeartbeatHistories.addInterval history x))} + frame) :=
  ⟨_, add_in_place (owned_block owns) bounded pos x, owns_alter owns _⟩

theorem first_noted (new : PhiAccrualDetectors.firstHeartbeat parameters = some first)
    (noted : Noted frame tracked blocks) : ∃ after place p,
    firstHeartbeat tracked parameters = some (after, some (place, objectAt p first)) ∧
      Noted frame after ({(p, bufferOf first)} + ({(place, [])} + blocks)) ∧
      first.maxSampleSize = parameters.maxSampleSize ∧
      first.intervalCount ≤ parameters.maxSampleSize := by
  unfold PhiAccrualDetectors.firstHeartbeat at new
  obtain ⟨fresh, made, rfl⟩ := Option.map_eq_some_iff.mp new
  have pos : 0 < parameters.maxSampleSize := by
    by_contra none
    rw [HeartbeatHistories.newHeartbeatHistory, if_pos (by omega)] at made
    cases made
  rw [HeartbeatHistories.newHeartbeatHistory, if_neg (by omega), if_neg (lt_irrefl _),
    if_neg (lt_irrefl _), Option.some.injEq] at made
  have empty : fresh = zeroed parameters.maxSampleSize := made.symm
  rw [empty]
  obtain ⟨started, place, p, struct, listed⟩ := new_noted pos noted
  obtain ⟨once, added, owned⟩ := add_owned (noted_focus listed) (Nat.zero_le _) pos
    (parameters.firstHeartbeatEstimateMs - parameters.firstHeartbeatEstimateMs / 4)
  have bounded : (HeartbeatHistories.addInterval (zeroed parameters.maxSampleSize)
      (parameters.firstHeartbeatEstimateMs - parameters.firstHeartbeatEstimateMs / 4)).intervalCount ≤ _ :=
    HeartbeatHistories.count_add_le _ (Nat.zero_le _)
  obtain ⟨twice, again, owned⟩ := add_owned owned bounded
    (by rw [HeartbeatHistories.maxSampleSize_add]; exact pos)
    (parameters.firstHeartbeatEstimateMs + parameters.firstHeartbeatEstimateMs / 4)
  refine ⟨⟨twice, started.head⟩, place, p, ?_, noted_rewritten listed owned, ?_, ?_⟩
  · unfold firstHeartbeat
    rw [struct, Nat.cast_ofNat, Option.bind_some]
    dsimp only
    rw [added, Option.bind_some, again, Option.map_some]
  · rw [HeartbeatHistories.maxSampleSize_add, HeartbeatHistories.maxSampleSize_add]
    rfl
  · have last := HeartbeatHistories.count_add_le
      (parameters.firstHeartbeatEstimateMs + parameters.firstHeartbeatEstimateMs / 4) bounded
    rw [HeartbeatHistories.maxSampleSize_add, HeartbeatHistories.maxSampleSize_add] at last
    exact last

omit [Field K] [LinearOrder K] in
theorem delete_noted {fields : HistoryObject K} {buffer : List K} (points : fields.intervals = some p)
    (noted : Noted frame tracked ({(p, buffer)} + ({(place, [])} + blocks))) :
    ∃ after, deleteHeartbeatHistory tracked place fields = some after ∧ Noted frame after blocks := by
  have struct : cells tracked.heap (some place) = some [] := noted_block noted (by simp)
  obtain ⟨between, freed, rest⟩ := noted_free noted
  obtain ⟨after, last, final⟩ := noted_free rest
  refine ⟨after, ?_, final⟩
  unfold deleteHeartbeatHistory
  rw [struct, Option.bind_some, points, freed, Option.bind_some, last]

def blocksOf (state history buffer : Nat) (value : State K) : Multiset (Nat × List K) :=
  {(buffer, bufferOf value.history)} + ({(history, [])} + {(state, [])})

omit [Field K] [LinearOrder K] in
theorem delete_state_noted {value : State K} {state : Nat}
    (noted : Noted frame tracked (blocksOf state place p value + blocks)) : ∃ after,
    deleteState tracked state place ⟨objectAt p value.history, value.timestamp⟩ = some after ∧
      Noted frame after blocks := by
  have struct : cells tracked.heap (some state) = some [] := noted_block noted (by simp [blocksOf])
  have apart : Noted frame tracked
      ({(p, bufferOf value.history)} + ({(place, [])} + ({(state, [])} + blocks))) := by
    convert noted using 1
    unfold blocksOf
    abel
  obtain ⟨between, deleted, rest⟩ := delete_noted (objectAt_intervals p value.history) apart
  obtain ⟨after, freed, final⟩ := noted_free rest
  refine ⟨after, ?_, final⟩
  unfold deleteState
  rw [struct, Option.bind_some, deleted, Option.bind_some, freed]

omit [LinearOrder K] in
theorem update_of_zeros (n : Nat) (history : HeartbeatHistories.HeartbeatHistory K) :
    HistoryUpdates.updateHistory ⟨n, fun _ => 0, 0, 0, 0⟩ history = freshCopy history := by
  unfold HistoryUpdates.updateHistory freshCopy
  by_cases same : n = history.maxSampleSize
  · rw [if_neg (not_not.mpr same), same]
  · rw [if_pos same]

theorem state_noted {recycled : HistoryObject K} (null : recycled.intervals = none)
    (noted : Noted frame tracked ({(q, bufferOf history)} + blocks))
    (bounded : history.intervalCount ≤ history.maxSampleSize) (timestamp : Int) :
    ∃ after state place p,
      stateInit tracked recycled (some (objectAt q history)) timestamp =
        some (after, state, place, ⟨objectAt p (freshCopy history), timestamp⟩) ∧
      Noted frame after (blocksOf state place p ⟨freshCopy history, timestamp⟩ +
        ({(q, bufferOf history)} + blocks)) := by
  let structs := testMalloc (testMalloc tracked []) []
  have listed : Noted frame structs _ := noted_malloc (noted_malloc noted)
  have source : structs.heap.block q = some (bufferOf history) := noted_block listed (by simp)
  have free : HistoryHeap.testFree (addresses structs.head) structs.heap recycled.intervals =
      some structs.heap := by rw [null]; rfl
  have copied := update_fresh (Or.inr null) free source bounded
  have made : Noted frame (testMalloc structs (bufferOf (freshCopy history))) _ := noted_malloc listed
  refine ⟨testMalloc structs (bufferOf (freshCopy history)), tracked.heap.next,
    (testMalloc tracked []).heap.next, structs.heap.next, ?_, ?_⟩
  · unfold stateInit updateHistory
    dsimp only
    rw [copied, Option.bind_some, if_pos (Or.inr null), null]
    unfold unlink
    rw [List.find?_eq_none.mpr (by simp)]
    rfl
  · convert made using 1
    unfold blocksOf
    simp only [add_assoc]

omit [LinearOrder K] in
theorem update_noted (noted : Noted frame tracked
      ({(p, bufferOf first)} + ({(q, bufferOf second)} + blocks)))
    (sizes : first.maxSampleSize = second.maxSampleSize)
    (bounded : second.intervalCount ≤ second.maxSampleSize) : ∃ after,
    updateHistory tracked (objectAt p first) (objectAt q second) =
        some (after, objectAt p (HistoryUpdates.updateHistory first second)) ∧
      Noted frame after ({(p, bufferOf (HistoryUpdates.updateHistory first second))} +
        ({(q, bufferOf second)} + blocks)) := by
  have owns := noted_focus noted
  have source : tracked.heap.block q = some (bufferOf second) := noted_block noted (by simp)
  have different : q ≠ p := by
    rintro rfl
    exact (owned_apart owns).1 (by simp)
  have copied := @update_in_place _ (addresses tracked.head) _ _ _ _ _ _ (owned_block owns) source
    different sizes bounded
  refine ⟨_, ?_, noted_rewritten noted (owns_alter owns _)⟩
  unfold updateHistory
  rw [copied, Option.bind_some, if_neg (by simp [sizes])]
  rfl

theorem adjust_noted (noted : Noted frame tracked ({(p, bufferOf history)} + blocks))
    (bounded : history.intervalCount ≤ history.maxSampleSize) (missedCount : Int) : ∃ after,
    HistoryHeap.adjustIntervals ⟨tracked.heap, objectAt p history⟩ missedCount =
        some ⟨after, objectAt p (HistoryUpdates.adjustIntervals history missedCount)⟩ ∧
      Noted frame ⟨after, tracked.head⟩
        ({(p, bufferOf (HistoryUpdates.adjustIntervals history missedCount))} + blocks) := by
  have owns := noted_focus noted
  exact ⟨_, adjust_in_place (owned_block owns) bounded missedCount,
    noted_rewritten noted (owns_alter owns _)⟩

end Owned

omit [Field K] [LinearOrder K] in
def InUse (object : DetectorObject K) : Address → Prop
  | .detectorState => True
  | .newState thread => thread ∈ object.running

def share (object : DetectorObject K) (buffer : Address → Nat) (values : DetectorStates.Memory K)
    (a : Address) : Multiset (Nat × List K) :=
  blocksOf (object.statePlace a) (object.historyPlace a) (buffer a) (values a)

def others (object : DetectorObject K) (buffer : Address → Nat) (values : DetectorStates.Memory K) :
    Multiset (Nat × List K) :=
  ∑ thread ∈ object.running, share object buffer values (.newState thread) + {(object.detector, [])}

structure Represents (parameters : PhiAccrualDetector K) (frame : Multiset (Nat × List K))
    (buffer : Address → Nat) (values : DetectorStates.Memory K)
    (phase : Nat → DetectorInterleavings.Phase) (object : DetectorObject K) : Prop where
  running : ∀ thread, thread ∈ object.running ↔
    ∃ oldState attempt, phase thread = .built oldState attempt
  aliased : ∀ thread oldState attempt, phase thread = .built oldState attempt →
    oldState = .detectorState
  fields : ∀ a, InUse object a → object.memory.states a =
    ⟨objectAt (buffer a) (values a).history, (values a).timestamp⟩
  sized : ∀ a, InUse object a → DetectorStates.Sized parameters (values a)
  noted : Noted frame object.tracked
    (share object buffer values .detectorState + others object buffer values)

section Reading
variable {parameters : PhiAccrualDetector K} {frame : Multiset (Nat × List K)}
  {buffer : Address → Nat} {values : DetectorStates.Memory K}
  {phase : Nat → DetectorInterleavings.Phase} {object : DetectorObject K} {a : Address}

omit [Field K] [LinearOrder K] in
theorem share_live (represents : Represents parameters frame buffer values phase object)
    (inUse : InUse object a) {p : Nat} {content : List K}
    (member : (p, content) ∈ share object buffer values a) :
    cells object.memory.heap (some p) = some content := by
  apply noted_block represents.noted
  cases a with
  | detectorState => exact Multiset.mem_add.mpr (Or.inl member)
  | newState thread =>
    refine Multiset.mem_add.mpr (Or.inr (Multiset.mem_add.mpr (Or.inl ?_)))
    exact Multiset.mem_sum.mpr ⟨thread, inUse, member⟩

omit [Field K] [LinearOrder K] in
theorem detector_live (represents : Represents parameters frame buffer values phase object) :
    cells object.memory.heap (some object.detector) = some [] :=
  noted_block represents.noted (by simp [others])

omit [Field K] [LinearOrder K] in
theorem read_state (represents : Represents parameters frame buffer values phase object)
    (inUse : InUse object a) : readState object a =
      some ⟨objectAt (buffer a) (values a).history, (values a).timestamp⟩ := by
  have state : cells object.memory.heap (some (object.statePlace a)) = some [] :=
    share_live represents inUse (by simp [share, blocksOf])
  have history : cells object.memory.heap (some (object.historyPlace a)) = some [] :=
    share_live represents inUse (by simp [share, blocksOf])
  unfold readState
  rw [state, Option.bind_some, history, Option.map_some, represents.fields a inUse]

omit [Field K] [LinearOrder K] in
theorem bounded_in_use (represents : Represents parameters frame buffer values phase object)
    (inUse : InUse object a) :
    (values a).history.intervalCount ≤ (values a).history.maxSampleSize := by
  obtain ⟨size, bounded⟩ := represents.sized a inUse
  rw [size]
  exact bounded

omit [Field K] [LinearOrder K] in
theorem view_in_use (represents : Represents parameters frame buffer values phase object)
    (inUse : InUse object a) : viewAt object a = some (DetectorStates.view (values a)) := by
  have live : cells object.memory.heap (some (buffer a)) = some (bufferOf (values a).history) :=
    share_live represents inUse (by simp [share, blocksOf])
  unfold viewAt
  rw [represents.fields a inUse, contents_in_memory live (bounded_in_use represents inUse)]
  rfl

end Reading

section Steps
variable {parameters : PhiAccrualDetector K} {frame : Multiset (Nat × List K)}
  {buffer : Address → Nat} {values : DetectorStates.Memory K}
  {phase : Nat → DetectorInterleavings.Phase} {object : DetectorObject K} {thread : Nat}

omit [Field K] [LinearOrder K] in
theorem new_ne_detector : Address.newState thread ≠ .detectorState := by simp

omit [Field K] [LinearOrder K] in
theorem represents_detector (represents : Represents parameters frame buffer values phase object)
    {tracked : Tracked K} {value : State K} (sized : DetectorStates.Sized parameters value)
    (noted : Noted frame tracked
      (blocksOf (object.statePlace .detectorState) (object.historyPlace .detectorState)
        (buffer .detectorState) value + others object buffer values)) :
    Represents parameters frame buffer (Function.update values .detectorState value) phase
      (object.written .detectorState tracked
        ⟨objectAt (buffer .detectorState) value.history, value.timestamp⟩) := by
  constructor
  · exact represents.running
  · exact represents.aliased
  · intro a inUse
    cases a with
    | detectorState =>
      simp only [DetectorObject.written, Function.update_self]
    | newState thread =>
      simp only [DetectorObject.written, Function.update_of_ne new_ne_detector]
      exact represents.fields _ inUse
  · intro a inUse
    cases a with
    | detectorState =>
      rw [Function.update_self]
      exact sized
    | newState thread =>
      rw [Function.update_of_ne new_ne_detector]
      exact represents.sized _ inUse
  · unfold others share at noted ⊢
    simp only [DetectorObject.written, Function.update_self, Function.update_of_ne new_ne_detector]
    exact noted

theorem represents_reset {first : HeartbeatHistories.HeartbeatHistory K}
    (new : PhiAccrualDetectors.firstHeartbeat parameters = some first)
    (represents : Represents parameters frame buffer values phase object)
    (fresh : (values .detectorState).timestamp = 0) : ∃ after,
    resetHistory parameters object = some after ∧ after.running = object.running ∧
      Represents parameters frame buffer (Function.update values .detectorState
        (DetectorStates.prepared parameters (values .detectorState))) phase after := by
  obtain ⟨started, place, p, made, listed, size, count⟩ := first_noted new represents.noted
  have sizes : (values .detectorState).history.maxSampleSize = first.maxSampleSize :=
    (represents.sized .detectorState trivial).size.trans size.symm
  have focused : Noted frame started
      ({(buffer .detectorState, bufferOf (values .detectorState).history)} +
        ({(p, bufferOf first)} + ({(place, [])} + ({(object.historyPlace .detectorState, [])} +
          ({(object.statePlace .detectorState, [])} + others object buffer values))))) := by
    convert listed using 1
    unfold share blocksOf
    abel
  obtain ⟨copied, updated, listed⟩ := update_noted focused sizes (by omega)
  have temporary : Noted frame copied ({(p, bufferOf first)} + ({(place, [])} +
      (blocksOf (object.statePlace .detectorState) (object.historyPlace .detectorState)
        (buffer .detectorState) (DetectorStates.prepared parameters (values .detectorState)) +
          others object buffer values))) := by
    convert listed using 1
    unfold blocksOf DetectorStates.prepared DetectorStates.resetHistory
    rw [if_pos fresh, new]
    abel
  obtain ⟨after, deleted, final⟩ := delete_noted (objectAt_intervals p first) temporary
  have sized : DetectorStates.Sized parameters
      (DetectorStates.prepared parameters (values .detectorState)) :=
    DetectorStates.sized_of_contents (DetectorStates.contents_prepared_fresh fresh new) size count
  refine ⟨_, ?_, ?_, represents_detector represents sized final⟩
  · unfold resetHistory
    rw [made, Option.bind_some]
    dsimp only
    rw [represents.fields .detectorState trivial, updated, Option.bind_some, deleted, Option.map_some]
    unfold DetectorStates.prepared DetectorStates.resetHistory
    rw [if_pos fresh, new]
  · rfl

omit [Field K] [LinearOrder K] in
theorem built_update {next : DetectorInterleavings.Phase} (other : Nat) :
    (∃ oldState attempt, Function.update phase thread next other = .built oldState attempt) ↔
      if other = thread then ∃ oldState attempt, next = .built oldState attempt
      else ∃ oldState attempt, phase other = .built oldState attempt := by
  by_cases same : other = thread
  · rw [same, Function.update_self, if_pos rfl]
  · rw [Function.update_of_ne same, if_neg same]

omit [Field K] [LinearOrder K] in
theorem in_use_insert {after : DetectorObject K} {a : Address}
    (running : after.running = insert thread object.running) (inUse : InUse after a)
    (other : a ≠ .newState thread) : InUse object a := by
  cases a with
  | detectorState => trivial
  | newState new =>
    have member : new ∈ insert thread object.running := running ▸ inUse
    refine (Finset.mem_insert.mp member).resolve_left ?_
    rintro rfl
    exact other rfl

theorem represents_alloc (represents : Represents parameters frame buffer values phase object)
    (idle : thread ∉ object.running) {attempt : Attempt K}
    (null : attempt.recycled.intervals = none) (seen : DetectorStates.Attempt) : ∃ after buffer',
    allocState attempt thread object = some after ∧
      Represents parameters frame buffer' (Function.update values (.newState thread)
        ⟨HistoryUpdates.updateHistory ⟨attempt.recycled.maxSampleSize, fun _ => 0, 0, 0, 0⟩
          (values .detectorState).history, attempt.timestamp⟩)
        (Function.update phase thread (.built .detectorState seen)) after := by
  have source := represents.sized .detectorState trivial
  have focused : Noted frame object.tracked
      ({(buffer .detectorState, bufferOf (values .detectorState).history)} +
        ({(object.historyPlace .detectorState, [])} + {(object.statePlace .detectorState, [])} +
          others object buffer values)) := by
    rw [← add_assoc]
    exact represents.noted
  obtain ⟨tracked, state, place, p, made, listed⟩ := state_noted null focused
    (bounded_in_use represents trivial) attempt.timestamp
  rw [update_of_zeros]
  refine ⟨{ object with
      memory := ⟨tracked.heap, Function.update object.memory.states (.newState thread)
        ⟨objectAt p (freshCopy (values .detectorState).history), attempt.timestamp⟩⟩
      head := tracked.head
      statePlace := Function.update object.statePlace (.newState thread) state
      historyPlace := Function.update object.historyPlace (.newState thread) place
      running := insert thread object.running },
    Function.update buffer (.newState thread) p, ?_, ?_, ?_, ?_, ?_, ?_⟩
  · unfold allocState
    rw [represents.fields .detectorState trivial, made, Option.map_some]
  · intro other
    rw [built_update, Finset.mem_insert, represents.running]
    by_cases same : other = thread
    · simp [same]
    · simp [same]
  · intro other oldState attempt' built
    by_cases same : other = thread
    · rw [same, Function.update_self] at built
      cases built
      rfl
    · rw [Function.update_of_ne same] at built
      exact represents.aliased other oldState attempt' built
  · intro a inUse
    by_cases same : a = .newState thread
    · subst same
      simp only [Function.update_self]
    · simp only [Function.update_of_ne same]
      exact represents.fields a (in_use_insert rfl inUse same)
  · intro a inUse
    by_cases same : a = .newState thread
    · subst same
      rw [Function.update_self]
      exact DetectorStates.sized_of_contents (RecycledMemory.contents_freshCopy _) source.size
        source.bounded
    · rw [Function.update_of_ne same]
      exact represents.sized a (in_use_insert rfl inUse same)
  · show Noted frame tracked _
    convert listed using 1
    unfold others share
    dsimp only
    rw [Finset.sum_insert idle]
    simp only [Function.update_self, Function.update_of_ne new_ne_detector.symm]
    have kept : ∀ other ∈ object.running, blocksOf
        (Function.update object.statePlace (.newState thread) state (.newState other))
        (Function.update object.historyPlace (.newState thread) place (.newState other))
        (Function.update buffer (.newState thread) p (.newState other))
        (Function.update values (.newState thread)
          ⟨freshCopy (values .detectorState).history, attempt.timestamp⟩ (.newState other)) =
        blocksOf (object.statePlace (.newState other)) (object.historyPlace (.newState other))
          (buffer (.newState other)) (values (.newState other)) := by
      intro other member
      have different : Address.newState other ≠ .newState thread := by
        rintro same
        cases same
        exact idle member
      simp only [Function.update_of_ne different]
    rw [Finset.sum_congr rfl kept]
    unfold blocksOf
    abel

theorem represents_compare (represents : Represents parameters frame buffer values phase object)
    (member : thread ∈ object.running) : ∃ after,
    compareAndSet object .detectorState .detectorState (.newState thread) = some (true, after) ∧
      after.running = object.running ∧
      Represents parameters frame buffer (Function.update values .detectorState
        (DetectorStates.updateState (values .detectorState) (values (.newState thread)))) phase
        after := by
  have target := represents.sized .detectorState trivial
  have source := represents.sized (.newState thread) member
  have live : cells object.memory.heap (some (buffer .detectorState)) =
      some (bufferOf (values .detectorState).history) :=
    share_live represents (a := .detectorState) trivial (by simp [share, blocksOf])
  have equal : StateMemory.compareStates object.memory .detectorState .detectorState = some true := by
    unfold StateMemory.compareStates
    rw [represents.fields .detectorState trivial]
    dsimp only
    have same := compare_in_memory live live (bounded_in_use represents trivial)
      (bounded_in_use represents trivial)
    rw [HistoryUpdates.compareHistory_iff.mpr rfl] at same
    rw [same, if_pos rfl, ite_self]
  have focused : Noted frame object.tracked
      ({(buffer .detectorState, bufferOf (values .detectorState).history)} +
        ({(buffer (.newState thread), bufferOf (values (.newState thread)).history)} +
          ({(object.historyPlace .detectorState, [])} + {(object.statePlace .detectorState, [])} +
          ({(object.historyPlace (.newState thread), [])} +
            {(object.statePlace (.newState thread), [])} +
          (∑ other ∈ object.running.erase thread, share object buffer values (.newState other) +
            {(object.detector, [])}))))) := by
    convert represents.noted using 1
    unfold others
    rw [← Finset.add_sum_erase _ _ member]
    unfold share blocksOf
    abel
  obtain ⟨tracked, updated, listed⟩ := update_noted focused (target.size.trans source.size.symm)
    (bounded_in_use represents member)
  have sized : DetectorStates.Sized parameters
      (DetectorStates.updateState (values .detectorState) (values (.newState thread))) :=
    DetectorStates.sized_of_contents HistoryUpdates.contents_update source.size source.bounded
  have written : Noted frame tracked (blocksOf (object.statePlace .detectorState)
      (object.historyPlace .detectorState) (buffer .detectorState)
      (DetectorStates.updateState (values .detectorState) (values (.newState thread))) +
        others object buffer values) := by
    convert listed using 1
    unfold others
    rw [← Finset.add_sum_erase _ _ member]
    unfold share blocksOf DetectorStates.updateState
    abel
  refine ⟨_, ?_, ?_, represents_detector represents sized written⟩
  · unfold compareAndSet
    rw [equal, Option.bind_some, if_pos rfl, represents.fields .detectorState trivial,
      represents.fields (.newState thread) member, updated]
    rfl
  · rfl

omit [Field K] [LinearOrder K] in
theorem represents_delete (represents : Represents parameters frame buffer values phase object)
    (member : thread ∈ object.running) : ∃ tracked,
    deleteState object.tracked (object.statePlace (.newState thread))
        (object.historyPlace (.newState thread)) (object.memory.states (.newState thread)) =
      some tracked ∧
    Represents parameters frame buffer values (Function.update phase thread .idle)
      { object with
        memory := { object.memory with heap := tracked.heap }
        head := tracked.head
        running := object.running.erase thread } := by
  have focused : Noted frame object.tracked (share object buffer values (.newState thread) +
      (share object buffer values .detectorState +
        (∑ other ∈ object.running.erase thread, share object buffer values (.newState other) +
          {(object.detector, [])}))) := by
    convert represents.noted using 1
    unfold others
    rw [← Finset.add_sum_erase _ _ member]
    abel
  obtain ⟨tracked, deleted, listed⟩ := delete_state_noted focused
  have earlier : ∀ a, InUse { object with
      memory := { object.memory with heap := tracked.heap }
      head := tracked.head
      running := object.running.erase thread } a → InUse object a := by
    intro a inUse
    cases a with
    | detectorState => trivial
    | newState other => exact Finset.mem_of_mem_erase inUse
  refine ⟨tracked, ?_, ?_, ?_, fun a inUse => represents.fields a (earlier a inUse),
    fun a inUse => represents.sized a (earlier a inUse), listed⟩
  · rw [represents.fields (.newState thread) member]
    exact deleted
  · intro other
    rw [built_update, Finset.mem_erase, represents.running]
    by_cases same : other = thread
    · simp [same]
    · simp [same]
  · intro other oldState attempt built
    by_cases same : other = thread
    · rw [same, Function.update_self] at built
      cases built
    · rw [Function.update_of_ne same] at built
      exact represents.aliased other oldState attempt built

theorem represents_set (represents : Represents parameters frame buffer values phase object)
    (member : thread ∈ object.running) : ∃ after, set thread object = some after ∧
    Represents parameters frame buffer (Function.update values .detectorState
      (DetectorStates.updateState (values .detectorState) (values (.newState thread))))
      (Function.update phase thread .idle) after := by
  obtain ⟨between, compared, running, later⟩ := represents_compare represents member
  obtain ⟨tracked, deleted, final⟩ := represents_delete later (running ▸ member)
  refine ⟨_, ?_, final⟩
  unfold set
  rw [detector_live represents, Option.bind_some, read_state represents (a := .detectorState) trivial, Option.bind_some,
    read_state represents (a := .newState thread) member, Option.bind_some, compared, Option.bind_some]
  dsimp only at deleted ⊢
  rw [deleted, Option.map_some]

theorem represents_adjust (represents : Represents parameters frame buffer values phase object)
    (missedCount : Int) : ∃ after, adjust missedCount object = some after ∧
    Represents parameters frame buffer (Function.update values .detectorState
      (DetectorStates.adjustState (values .detectorState) missedCount)) phase after := by
  obtain ⟨size, bounded⟩ := represents.sized .detectorState trivial
  have focused : Noted frame object.tracked
      ({(buffer .detectorState, bufferOf (values .detectorState).history)} +
        ({(object.historyPlace .detectorState, [])} + {(object.statePlace .detectorState, [])} +
          others object buffer values)) := by
    rw [← add_assoc]
    exact represents.noted
  obtain ⟨heap, adjusted, listed⟩ := adjust_noted focused (bounded_in_use represents trivial) missedCount
  rw [← add_assoc] at listed
  dsimp only [DetectorObject.tracked] at adjusted
  have sized : DetectorStates.Sized parameters
      (DetectorStates.adjustState (values .detectorState) missedCount) := ⟨size, bounded⟩
  refine ⟨_, ?_, represents_detector represents sized listed⟩
  unfold adjust
  rw [detector_live represents, Option.bind_some, read_state represents (a := .detectorState) trivial, Option.bind_some,
    adjusted]
  rfl

theorem represents_build {first : HeartbeatHistories.HeartbeatHistory K}
    {available : View K → Int → Bool} {attempt : Attempt K}
    (new : PhiAccrualDetectors.firstHeartbeat parameters = some first)
    (represents : Represents parameters frame buffer values phase object)
    (idle : thread ∉ object.running) (null : attempt.recycled.intervals = none)
    (stays : DetectorStates.PointerStays available (values .detectorState) attempt.timestamp)
    (seen : DetectorStates.Attempt) : ∃ after buffer',
    build available parameters thread attempt object = some after ∧
      Represents parameters frame buffer' (DetectorStates.builtMemory parameters
        ⟨attempt.timestamp, ⟨attempt.recycled.maxSampleSize, leftover attempt.recycled.intervals⟩⟩
        thread values)
        (Function.update phase thread (.built .detectorState seen)) after := by
  unfold build DetectorStates.builtMemory
  rw [detector_live represents, Option.bind_some, read_state represents (a := .detectorState) trivial, Option.bind_some]
  dsimp only
  by_cases fresh : (values .detectorState).timestamp = 0
  · obtain ⟨reset, done, running, between⟩ := represents_reset new represents fresh
    obtain ⟨after, buffer', made, final⟩ := represents_alloc between (running ▸ idle) null seen
    rw [Function.update_self] at final
    refine ⟨after, buffer', ?_, final⟩
    rw [if_pos fresh, done, Option.bind_some, made]
  · obtain ⟨after, buffer', made, final⟩ := represents_alloc represents idle null seen
    refine ⟨after, buffer', ?_, ?_⟩
    · have inside : (if available (DetectorStates.view (values .detectorState)) attempt.timestamp then
          attempt.timestamp - (values .detectorState).timestamp else 0) = 0 := by
        rcases stays.resolve_left fresh with suspected | same
        · rw [suspected]
          rfl
        · rw [same, sub_self, ite_self]
      rw [if_neg fresh, view_in_use represents (a := .detectorState) trivial, Option.bind_some, if_pos inside, made]
    · rw [DetectorStates.prepared_started fresh, Function.update_eq_self]
      exact final

theorem null_of_own {n : Nat} {pointer : Pointer} {state : State K}
    (own : DetectorStates.OwnBuffer parameters ⟨n, leftover pointer⟩ state) : pointer = none := by
  cases pointer with
  | none => rfl
  | some p => cases own

theorem represents_step {first : HeartbeatHistories.HeartbeatHistory K}
    {available : View K → Int → Bool} {action : Action K}
    {detector next : DetectorInterleavings.Detector K}
    (new : PhiAccrualDetectors.firstHeartbeat parameters = some first)
    (represents : Represents parameters frame buffer detector.memory detector.phase object)
    (moved : DetectorInterleavings.step available parameters detector (forget action) = some next) :
    ∃ after, step available parameters object action = some after ∧
      ∃ buffer', Represents parameters frame buffer' next.memory next.phase after := by
  cases action with
  | build thread attempt =>
    have idle : thread ∉ object.running := by
      intro member
      obtain ⟨oldState, before, built⟩ := (represents.running thread).mp member
      simp only [forget, DetectorInterleavings.step, built] at moved
      cases moved
    rcases DetectorInterleavings.step_cases moved with ⟨thread', attempt', same, own, stays, rfl⟩ |
      ⟨thread', oldState, attempt', same, -, -⟩ | ⟨missedCount, same, -⟩
    · obtain ⟨rfl, rfl⟩ := DetectorInterleavings.Action.build.inj same
      obtain ⟨after, buffer', made, final⟩ := represents_build new represents idle (null_of_own own)
        stays ⟨attempt.timestamp, ⟨attempt.recycled.maxSampleSize, leftover attempt.recycled.intervals⟩⟩
      refine ⟨after, ?_, buffer', final⟩
      unfold step
      dsimp only
      rw [if_neg idle, made]
    · cases same
    · cases same
  | set thread =>
    rcases DetectorInterleavings.step_cases moved with ⟨thread', attempt', same, -⟩ |
      ⟨thread', oldState, attempt', same, built, rfl⟩ | ⟨missedCount, same, -⟩
    · cases same
    · obtain rfl := DetectorInterleavings.Action.set.inj same
      obtain rfl := represents.aliased _ _ _ built
      have member := (represents.running thread).mpr ⟨_, _, built⟩
      obtain ⟨after, done, final⟩ := represents_set represents member
      rw [DetectorInterleavings.set_aliased]
      refine ⟨after, ?_, buffer, final⟩
      unfold step
      dsimp only
      rw [if_pos member, done]
    · cases same
  | adjust missedCount =>
    obtain rfl := Option.some.inj moved
    obtain ⟨after, done, final⟩ := represents_adjust represents missedCount
    exact ⟨after, done, buffer, final⟩

end Steps

section Ends
variable {parameters : PhiAccrualDetector K} {frame : Multiset (Nat × List K)} {heap : Heap K}

theorem init_noted {tracked : Tracked K} {blocks : Multiset (Nat × List K)}
    (noted : Noted frame tracked blocks) (recycled : HistoryObject K) (timestamp : Int) :
    ∃ after state place p,
      stateInit tracked recycled none timestamp =
        some (after, state, place, ⟨objectAt p (zeroed 1), timestamp⟩) ∧
      Noted frame after (blocksOf state place p ⟨zeroed 1, timestamp⟩ + blocks) := by
  obtain ⟨after, place, p, made, listed⟩ := new_noted one_pos (noted_malloc noted)
  refine ⟨after, tracked.heap.next, place, p, ?_, ?_⟩
  · unfold stateInit
    dsimp only
    rw [made]
    rfl
  · convert listed using 1
    unfold blocksOf
    simp only [add_assoc]

theorem represents_new {first : HeartbeatHistories.HeartbeatHistory K}
    (new : PhiAccrualDetectors.firstHeartbeat parameters = some first) (owns : Owns heap frame)
    (recycled : HistoryObject K) : ∃ object buffer,
    newPhiAccrualDetector heap recycled parameters = some object ∧
      Represents parameters frame buffer (fun _ => ⟨first, 0⟩) (fun _ => .idle) object := by
  have struct : Noted frame (testMalloc ⟨heap, []⟩ []) _ := noted_malloc (noted_nothing owns)
  obtain ⟨made, state, old, p, init, listed⟩ := init_noted struct recycled 0
  have temporary : Noted frame made ({(p, bufferOf (zeroed 1))} + ({(old, [])} +
      ({(state, [])} + ({(heap.next, [])} + 0)))) := by
    convert listed using 1
    unfold blocksOf
    abel
  obtain ⟨deleted, gone, rest⟩ := delete_noted (objectAt_intervals p (zeroed 1)) temporary
  obtain ⟨after, place, buffer, filled, final, size, count⟩ := first_noted new rest
  refine ⟨{ memory := ⟨after.heap, fun _ => ⟨objectAt buffer first, 0⟩⟩
            head := after.head
            statePlace := fun _ => state
            historyPlace := fun _ => place
            detector := heap.next
            running := ∅ }, fun _ => buffer, ?_, ?_, ?_, fun _ _ => rfl, fun _ _ => ⟨size, count⟩, ?_⟩
  · unfold newPhiAccrualDetector
    dsimp only
    rw [init, Option.bind_some]
    dsimp only
    rw [gone, Option.bind_some, filled, Option.bind_some]
    rfl
  · intro thread
    simp
  · intro thread oldState attempt built
    cases built
  · show Noted frame after _
    convert final using 1
    unfold others share blocksOf
    rw [Finset.sum_empty]
    abel

omit [Field K] [LinearOrder K] in
theorem live_of_represents {buffer : Address → Nat} {values : DetectorStates.Memory K}
    {phase : Nat → DetectorInterleavings.Phase} {object : DetectorObject K}
    (represents : Represents parameters frame buffer values phase object) (owns : Owns heap frame) :
    liveBlocks object.memory.heap = liveBlocks heap + 2 * (4 + 3 * object.running.card) := by
  have three : ∀ a, (share object buffer values a).card = 3 := fun _ => rfl
  have count := live_noted represents.noted
  unfold others at count
  simp only [Multiset.card_add, Multiset.card_sum, three, Multiset.card_singleton, Finset.sum_const,
    smul_eq_mul, DetectorObject.tracked] at count
  rw [count, live_owned owns]
  omega

omit [Field K] [LinearOrder K] in
theorem delete_represented {buffer : Address → Nat} {values : DetectorStates.Memory K}
    {phase : Nat → DetectorInterleavings.Phase} {object : DetectorObject K}
    (represents : Represents parameters frame buffer values phase object) (idle : object.running = ∅) :
    ∃ after, deletePhiAccrualDetector object = some after ∧ Noted frame after 0 := by
  have noted := represents.noted
  unfold others at noted
  rw [idle, Finset.sum_empty, zero_add] at noted
  obtain ⟨between, deleted, rest⟩ := delete_state_noted noted
  rw [← add_zero ({(object.detector, [])} : Multiset (Nat × List K))] at rest
  obtain ⟨after, freed, final⟩ := noted_free rest
  refine ⟨after, ?_, final⟩
  unfold deletePhiAccrualDetector
  rw [detector_live represents, Option.bind_some, represents.fields .detectorState trivial, deleted,
    Option.bind_some, freed]

end Ends

/-- However the heartbeats of the threads and the responder's reports come, no access is outside
    a live block and the detector is what it is without a heap; it has four blocks, and three
    more for each thread between state_init and delete_state, each with its MemoryBlock. -/
theorem detector_memory (available : View K → Int → Bool) (parameters : PhiAccrualDetector K)
    (heap : Heap K) (recycled : HistoryObject K) (state : State K)
    (new : DetectorStates.newPhiAccrualDetector parameters
      ⟨recycled.maxSampleSize, leftover recycled.intervals⟩ none = some state)
    (actions : List (Action K)) (detector : DetectorInterleavings.Detector K)
    (run : Runs.run (DetectorInterleavings.step available parameters)
      (DetectorInterleavings.start fun _ => state) (actions.map forget) = some detector) :
    ∃ initial object, newPhiAccrualDetector heap recycled parameters = some initial ∧
      Runs.run (step available parameters) initial actions = some object ∧
      viewAt object .detectorState =
        some (DetectorStates.view (detector.memory .detectorState)) ∧
      (∀ thread, thread ∈ object.running ↔
        ∃ oldState attempt, detector.phase thread = .built oldState attempt) ∧
      liveBlocks object.memory.heap = liveBlocks heap + 2 * (4 + 3 * object.running.card) ∧
      ((∀ thread, detector.phase thread = .idle) →
        ∃ after, deletePhiAccrualDetector object = some after ∧ after.head = [] ∧
          after.heap.block = heap.block) := by
  obtain ⟨frame, owns⟩ := exists_owns heap
  obtain ⟨before, init, rest⟩ := Option.bind_eq_some_iff.mp new
  obtain ⟨first, filled, rfl⟩ := Option.map_eq_some_iff.mp rest
  obtain ⟨initial, buffer, made, represents⟩ := represents_new filled owns recycled
  have stamp : before.timestamp = 0 := by
    rw [Option.none_or] at init
    unfold DetectorStates.stateInit at init
    obtain ⟨history, -, rfl⟩ := Option.map_eq_some_iff.mp init
    rfl
  have start : ∃ buffer, Represents parameters frame buffer (fun _ => ⟨first, before.timestamp⟩)
      (fun _ => .idle) initial := by
    rw [stamp]
    exact ⟨buffer, represents⟩
  have matched : ∀ (detector : DetectorInterleavings.Detector K) (action : Action K)
      (next : DetectorInterleavings.Detector K) (object : DetectorObject K),
      (∃ buffer, Represents parameters frame buffer detector.memory detector.phase object) →
      DetectorInterleavings.step available parameters detector (forget action) = some next →
      ∃ after, step available parameters object action = some after ∧
        ∃ buffer, Represents parameters frame buffer next.memory next.phase after := by
    rintro detector action next object ⟨buffer, related⟩ moved
    exact represents_step filled related moved
  rw [Runs.run_map] at run
  obtain ⟨object, moved, buffer', final⟩ := Runs.run_lockstep matched start run
  refine ⟨initial, object, made, moved, view_in_use final (a := .detectorState) trivial, final.running,
    live_of_represents final owns, ?_⟩
  intro idle
  have nobody : object.running = ∅ := by
    rw [Finset.eq_empty_iff_forall_notMem]
    intro thread member
    obtain ⟨oldState, attempt, built⟩ := (final.running thread).mp member
    rw [idle thread] at built
    cases built
  obtain ⟨after, deleted, left⟩ := delete_represented final nobody
  have unlisted : after.head = [] := by simpa using left.listed
  have rest := left.owns
  rw [unlisted] at rest
  refine ⟨after, deleted, unlisted, same_owned ?_ owns⟩
  simpa [entries] using rest

def unused : HistoryObject ℚ := ⟨0, none, 0, 0, 0⟩

def twoThreads : List (Action ℚ) :=
  [.build 0 ⟨1000, unused⟩, .build 1 ⟨1001, unused⟩, .set 0, .adjust 2]

open DetectorInterleavings in
theorem twoThreads_run {state : State ℚ} (fresh : state.timestamp = 0) : ∃ detector,
    Runs.run (DetectorInterleavings.step DetectorStates.patient clientDetector)
      (start fun _ => state) (twoThreads.map forget) = some detector := by
  let one := afterBuild clientDetector 0 ⟨1000, ⟨0, .null⟩⟩ (start fun _ => state)
  let two := afterBuild clientDetector 1 ⟨1001, ⟨0, .null⟩⟩ one
  have unstarted : (one.memory .detectorState).timestamp = 0 := by
    show (DetectorStates.builtMemory clientDetector ⟨1000, ⟨0, .null⟩⟩ 0 (fun _ => state)
      .detectorState).timestamp = 0
    rw [DetectorStates.builtMemory_detectorState, prepared_timestamp]
    exact fresh
  have first : DetectorInterleavings.step DetectorStates.patient clientDetector (start fun _ => state)
      (.build 0 ⟨1000, ⟨0, .null⟩⟩) = some one := build_some rfl rfl (Or.inl fresh)
  have second : DetectorInterleavings.step DetectorStates.patient clientDetector one
      (.build 1 ⟨1001, ⟨0, .null⟩⟩) = some two := build_some rfl rfl (Or.inl unstarted)
  have third := @set_some _ _ _ DetectorStates.patient clientDetector ⟨1000, ⟨0, .null⟩⟩ 0 two rfl
  exact ⟨_, Runs.run_cons_some.mpr ⟨one, first, Runs.run_cons_some.mpr ⟨two, second,
    Runs.run_cons_some.mpr ⟨_, third, rfl⟩⟩⟩⟩

theorem detector_memory_twoThreads : ∃ initial object,
    newPhiAccrualDetector noBlocks unused clientDetector = some initial ∧
    Runs.run (step DetectorStates.patient clientDetector) initial twoThreads = some object ∧
    liveBlocks object.memory.heap = 2 * (4 + 3 * object.running.card) := by
  obtain ⟨state, new, fresh⟩ : ∃ state, DetectorStates.newPhiAccrualDetector clientDetector ⟨0, .null⟩
      none = some state ∧ state.timestamp = 0 := ⟨_, rfl, rfl⟩
  obtain ⟨detector, run⟩ := twoThreads_run fresh
  obtain ⟨initial, object, made, moved, -, -, live, -⟩ := detector_memory DetectorStates.patient
    clientDetector noBlocks unused state new twoThreads detector run
  refine ⟨initial, object, made, moved, ?_⟩
  rw [live]
  simp [liveBlocks, noBlocks]

end RealMQ.DetectorMemory
