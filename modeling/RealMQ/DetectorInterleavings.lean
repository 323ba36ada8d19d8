import RealMQ.DetectorState

/- heartbeat in any number of threads and the responder's adjust_intervals. A heartbeat is two
   steps, the building of new_state and compare_and_set. completed and seen are not variables
   of the source: the operations in the order of their completion, and for each thread what
   detector->state looked like when its new_state was built. -/
namespace RealMQ.DetectorInterleavings
open HeartbeatHistories HistoryUpdates PhiAccrualDetectors DetectorStates
variable {K : Type*} [Field K] [LinearOrder K]

/-- Where a thread is in heartbeat; retrying is the call that follows a failed comparison. -/
inductive Phase where
  | idle
  | retrying
  | built (oldState : Address) (attempt : Attempt)

structure Detector (K : Type*) where
  memory : Memory K
  phase : Nat → Phase
  completed : List DetectorStates.Action
  seen : Nat → View K

inductive Action where
  | build (thread : Nat) (attempt : Attempt)
  | set (thread : Nat)
  | adjust (missedCount : Int)

def build (available : View K → Int → Bool) (parameters : PhiAccrualDetector K) (thread : Nat)
    (attempt : Attempt) (detector : Detector K) : Option (Detector K) :=
  (buildState available parameters attempt thread detector.memory).map fun memory =>
    { detector with
      memory := memory
      phase := Function.update detector.phase thread (.built .detectorState attempt)
      seen := Function.update detector.seen thread (view (memory .detectorState)) }

def set (thread : Nat) (oldState : Address) (attempt : Attempt) (detector : Detector K) :
    Detector K :=
  let result := compareAndSet detector.memory .detectorState oldState (.newState thread)
  if result.1 then
    { detector with
      memory := result.2
      phase := Function.update detector.phase thread .idle
      completed := detector.completed ++ [.heartbeat [attempt]] }
  else
    { detector with
      memory := result.2
      phase := Function.update detector.phase thread .retrying }

def adjust (missedCount : Int) (detector : Detector K) : Detector K :=
  { detector with
    memory := Function.update detector.memory .detectorState
      (adjustState (detector.memory .detectorState) missedCount)
    completed := detector.completed ++ [.adjust missedCount] }

def step (available : View K → Int → Bool) (parameters : PhiAccrualDetector K)
    (detector : Detector K) : Action → Option (Detector K)
  | .build thread attempt =>
      match detector.phase thread with
      | .built _ _ => none
      | _ => build available parameters thread attempt detector
  | .set thread =>
      match detector.phase thread with
      | .built oldState attempt => some (set thread oldState attempt detector)
      | _ => none
  | .adjust missedCount => some (adjust missedCount detector)

omit [Field K] [LinearOrder K] in
def start (memory : Memory K) : Detector K :=
  ⟨memory, fun _ => .idle, [], fun _ => view (memory .detectorState)⟩

omit [Field K] [LinearOrder K] in
/-- What compare_and_set is there to find out: nothing has changed since the building. -/
def Undisturbed (detector : Detector K) : Action → Prop
  | .set thread => view (detector.memory .detectorState) = detector.seen thread
  | _ => True

def afterBuild (parameters : PhiAccrualDetector K) (thread : Nat) (attempt : Attempt)
    (detector : Detector K) : Detector K :=
  { detector with
    memory := builtMemory parameters attempt thread detector.memory
    phase := Function.update detector.phase thread (.built .detectorState attempt)
    seen := Function.update detector.seen thread
      (view (prepared parameters (detector.memory .detectorState))) }

omit [LinearOrder K] in
def afterSet (thread : Nat) (attempt : Attempt) (detector : Detector K) : Detector K :=
  { detector with
    memory := Function.update detector.memory .detectorState
      (updateState (detector.memory .detectorState) (detector.memory (.newState thread)))
    phase := Function.update detector.phase thread .idle
    completed := detector.completed ++ [.heartbeat [attempt]] }

theorem set_aliased (thread : Nat) (attempt : Attempt) (detector : Detector K) :
    set thread .detectorState attempt detector = afterSet thread attempt detector := by
  unfold set afterSet
  simp only [compareAndSet_alias, if_true]

theorem step_cases {available : View K → Int → Bool} {parameters : PhiAccrualDetector K}
    {detector next : Detector K} {action : Action}
    (moved : step available parameters detector action = some next) :
    (∃ thread attempt, action = .build thread attempt ∧
      OwnBuffer parameters attempt.recycled (detector.memory .detectorState) ∧
      PointerStays available (detector.memory .detectorState) attempt.timestamp ∧
      next = afterBuild parameters thread attempt detector) ∨
    (∃ thread oldState attempt, action = .set thread ∧
      detector.phase thread = .built oldState attempt ∧ next = set thread oldState attempt detector) ∨
    (∃ missedCount, action = .adjust missedCount ∧ next = adjust missedCount detector) := by
  cases action with
  | build thread attempt =>
    have running : build available parameters thread attempt detector = some next := by
      simp only [step] at moved
      split at moved
      · cases moved
      · exact moved
    unfold build at running
    obtain ⟨memory, building, rfl⟩ := Option.map_eq_some_iff.mp running
    obtain ⟨own, stays, rfl⟩ := buildState_some_iff.mp building
    exact Or.inl ⟨thread, attempt, rfl, own, stays, by rw [builtMemory_detectorState]; rfl⟩
  | set thread =>
    simp only [step] at moved
    split at moved
    · rename_i oldState attempt phase
      exact Or.inr (Or.inl ⟨thread, oldState, attempt, rfl, phase, (Option.some.inj moved).symm⟩)
    · cases moved
  | adjust missedCount =>
    exact Or.inr (Or.inr ⟨missedCount, rfl, (Option.some.inj moved).symm⟩)

structure Ready (available : View K → Int → Bool) (first : HeartbeatHistory K)
    (detector : Detector K) (thread : Nat) (oldState : Address) (attempt : Attempt) : Prop where
  aliased : oldState = .detectorState
  own : attempt.recycled.getsBuffer (detector.seen thread).history.maxSampleSize = true
  copied : view (detector.memory (.newState thread)) =
    ⟨(detector.seen thread).history, attempt.timestamp⟩
  reset : (detector.seen thread).timestamp = 0 → (detector.seen thread).history = contents first
  stays : (detector.seen thread).timestamp = 0 ∨
    available (detector.seen thread) attempt.timestamp = false ∨
    attempt.timestamp = (detector.seen thread).timestamp

/-- The detector looks like the one that ran the completed operations one by one, unless it
    has not started and some heartbeat has already reset its history. -/
def Tracks (detector : Detector K) (sequential : Memory K) : Prop :=
  view (detector.memory .detectorState) = view (sequential .detectorState) ∨
  ((detector.memory .detectorState).timestamp = 0 ∧ (sequential .detectorState).timestamp = 0 ∧
    ∃ thread oldState attempt, detector.phase thread = .built oldState attempt)

structure Matches (available : View K → Int → Bool) (first : HeartbeatHistory K)
    (detector : Detector K) (sequential : Memory K) : Prop where
  ready : ∀ thread oldState attempt, detector.phase thread = .built oldState attempt →
    Ready available first detector thread oldState attempt
  tracks : Tracks detector sequential

section Step
variable {available : View K → Int → Bool} {parameters : PhiAccrualDetector K}
  {first : HeartbeatHistory K} {detector : Detector K} {sequential : Memory K}

omit [Field K] [LinearOrder K] in
theorem timestamp_of_tracks (tracks : Tracks detector sequential) :
    (detector.memory .detectorState).timestamp = (sequential .detectorState).timestamp := by
  rcases tracks with same | ⟨fresh, fresh', -⟩
  · exact congrArg View.timestamp same
  · rw [fresh, fresh']

omit [Field K] [LinearOrder K] in
theorem view_of_started (tracks : Tracks detector sequential)
    (started : (detector.memory .detectorState).timestamp ≠ 0) :
    view (detector.memory .detectorState) = view (sequential .detectorState) := by
  rcases tracks with same | ⟨fresh, -⟩
  · exact same
  · exact absurd fresh started

theorem prepared_timestamp (state : State K) :
    (prepared parameters state).timestamp = state.timestamp := by
  unfold prepared resetHistory
  split
  · split <;> rfl
  · rfl

omit [Field K] [LinearOrder K] in
theorem ready_unchanged {next : Detector K} {thread : Nat} {oldState : Address} {attempt : Attempt}
    (before : Ready available first detector thread oldState attempt)
    (cell : next.memory (.newState thread) = detector.memory (.newState thread))
    (seen : next.seen thread = detector.seen thread) :
    Ready available first next thread oldState attempt := by
  obtain ⟨aliased, own, copied, reset, stays⟩ := before
  constructor
  · exact aliased
  · rw [seen]
    exact own
  · rw [cell, seen]
    exact copied
  · rw [seen]
    exact reset
  · rw [seen]
    exact stays

theorem matches_build {thread : Nat} {attempt : Attempt}
    (new : firstHeartbeat parameters = some first)
    (before : Matches available first detector sequential)
    (own : OwnBuffer parameters attempt.recycled (detector.memory .detectorState))
    (stays : PointerStays available (detector.memory .detectorState) attempt.timestamp) :
    Matches available first (afterBuild parameters thread attempt detector) sequential := by
  unfold afterBuild
  constructor
  · intro other oldState attempt' phase
    by_cases same : other = thread
    · subst same
      simp only [Function.update_self, Phase.built.injEq] at phase
      obtain ⟨rfl, rfl⟩ := phase
      refine ⟨rfl, ?_, ?_, ?_, ?_⟩
      · dsimp only
        rw [Function.update_self]
        exact own
      · dsimp only
        rw [Function.update_self, builtMemory_newState]
        rfl
      · dsimp only
        rw [Function.update_self]
        intro fresh
        exact contents_prepared_fresh ((prepared_timestamp _).symm.trans fresh) new
      · dsimp only
        rw [Function.update_self]
        rcases stays with fresh | rest
        · exact Or.inl ((prepared_timestamp _).trans fresh)
        · by_cases fresh : (detector.memory .detectorState).timestamp = 0
          · exact Or.inl ((prepared_timestamp _).trans fresh)
          · rw [prepared_started fresh]
            exact Or.inr rest
    · dsimp only at phase
      rw [Function.update_of_ne same] at phase
      exact ready_unchanged (before.ready other oldState attempt' phase) (builtMemory_other same)
        (Function.update_of_ne same _ _)
  · by_cases fresh : (detector.memory .detectorState).timestamp = 0
    · refine Or.inr ⟨?_, ?_, thread, .detectorState, attempt, Function.update_self ..⟩
      · dsimp only
        rw [builtMemory_detectorState, prepared_timestamp, fresh]
      · rw [← timestamp_of_tracks before.tracks, fresh]
    · refine Or.inl ?_
      dsimp only
      rw [builtMemory_detectorState, prepared_started fresh]
      exact view_of_started before.tracks fresh

theorem matches_adjust (missedCount : Int) (before : Matches available first detector sequential) :
    Matches available first (adjust missedCount detector)
      (Function.update sequential .detectorState
        (adjustState (sequential .detectorState) missedCount)) := by
  unfold adjust
  constructor
  · intro thread oldState attempt phase
    have cell : Address.newState thread ≠ .detectorState := by simp
    apply ready_unchanged (before.ready thread oldState attempt phase)
    · dsimp only
      rw [Function.update_of_ne cell]
    · rfl
  · unfold Tracks
    dsimp only
    rw [Function.update_self, Function.update_self]
    rcases before.tracks with same | ⟨fresh, fresh', running⟩
    · refine Or.inl ?_
      have histories := contents_adjust_congr missedCount (congrArg View.history same)
      have timestamps : (detector.memory .detectorState).timestamp =
          (sequential .detectorState).timestamp := congrArg View.timestamp same
      unfold view adjustState
      rw [histories, timestamps]
    · exact Or.inr ⟨fresh, fresh', running⟩

/-- An undisturbed compare_and_set does what the whole heartbeat does in one go. -/
theorem matches_set {thread : Nat} {oldState : Address} {attempt : Attempt}
    (new : firstHeartbeat parameters = some first)
    (before : Matches available first detector sequential)
    (phase : detector.phase thread = .built oldState attempt)
    (undisturbed : view (detector.memory .detectorState) = detector.seen thread) :
    (set thread oldState attempt detector).completed =
        detector.completed ++ [.heartbeat [attempt]] ∧
      ∃ after, heartbeat available parameters [attempt] sequential = some after ∧
        Matches available first (set thread oldState attempt detector) after := by
  obtain ⟨rfl, own, copied, reset, stays⟩ := before.ready thread oldState attempt phase
  rw [set_aliased]
  unfold afterSet
  refine ⟨rfl, ?_⟩
  -- the sequential detector is in the state that this thread saw, up to a reset
  have sees : PointerStays available (sequential .detectorState) attempt.timestamp ∧
      contents (prepared parameters (sequential .detectorState)).history =
        (detector.seen thread).history := by
    by_cases fresh : (detector.seen thread).timestamp = 0
    · have unstarted : (sequential .detectorState).timestamp = 0 := by
        rw [← timestamp_of_tracks before.tracks, ← fresh, ← undisturbed]
        rfl
      exact ⟨Or.inl unstarted, (contents_prepared_fresh unstarted new).trans (reset fresh).symm⟩
    · have started : (detector.memory .detectorState).timestamp ≠ 0 := by
        rw [← undisturbed] at fresh
        exact fresh
      have same := (view_of_started before.tracks started).symm.trans undisturbed
      have timestamps : (sequential .detectorState).timestamp = (detector.seen thread).timestamp :=
        congrArg View.timestamp same
      constructor
      · unfold PointerStays
        rw [same, timestamps]
        exact stays
      · rw [prepared_started (by rw [timestamps]; exact fresh)]
        exact congrArg View.history same
  have gets : OwnBuffer parameters attempt.recycled (sequential .detectorState) := by
    have size := congrArg Contents.maxSampleSize sees.2
    unfold OwnBuffer
    rw [show (prepared parameters (sequential .detectorState)).history.maxSampleSize =
      (detector.seen thread).history.maxSampleSize from size]
    exact own
  obtain ⟨after, beat⟩ : ∃ after, heartbeat available parameters [attempt] sequential = some after :=
    ⟨_, heartbeat_some_iff.mpr ⟨gets, sees.1, rfl⟩⟩
  refine ⟨after, beat, ?_, ?_⟩
  · intro other oldState attempt' phase'
    dsimp only at phase'
    by_cases same : other = thread
    · rw [same, Function.update_self] at phase'
      cases phase'
    · rw [Function.update_of_ne same] at phase'
      have cell : Address.newState other ≠ .detectorState := by simp
      apply ready_unchanged (before.ready other oldState attempt' phase')
      · dsimp only
        rw [Function.update_of_ne cell]
      · rfl
  · refine Or.inl ?_
    dsimp only
    rw [Function.update_self, view_update, copied, view_after_heartbeat beat, sees.2]

theorem matches_step (new : firstHeartbeat parameters = some first) (detector : Detector K)
    (action : Action) (next : Detector K) (sequential : Memory K)
    (before : Matches available first detector sequential)
    (undisturbed : Undisturbed detector action)
    (moved : step available parameters detector action = some next) :
    ∃ operations after, next.completed = detector.completed ++ operations ∧
      Runs.run (DetectorStates.step available parameters) sequential operations = some after ∧
      Matches available first next after := by
  rcases step_cases moved with ⟨thread, attempt, rfl, own, stays, rfl⟩ |
    ⟨thread, oldState, attempt, rfl, phase, rfl⟩ | ⟨missedCount, rfl, rfl⟩
  · exact ⟨[], sequential, (List.append_nil _).symm, rfl, matches_build new before own stays⟩
  · obtain ⟨log, after, beat, related⟩ := matches_set new before phase undisturbed
    exact ⟨[.heartbeat [attempt]], after, log, Runs.run_cons_some.mpr ⟨after, beat, rfl⟩, related⟩
  · exact ⟨[.adjust missedCount], _, rfl, rfl, matches_adjust missedCount before⟩

end Step

/-- Where no compare_and_set comes after a change that its heartbeat has not seen, the
    detector ends as if the operations had run one by one, in the order of completion. -/
theorem updates_serializable (available : View K → Int → Bool) (parameters : PhiAccrualDetector K)
    (memory : Memory K) (actions : List Action) (final : Detector K)
    (size : 0 < parameters.maxSampleSize)
    (run : Runs.run (step available parameters) (start memory) actions = some final)
    (undisturbed : Runs.Meets (step available parameters) Undisturbed (start memory) actions)
    (done : ∀ thread, final.phase thread = .idle) :
    ∃ after, Runs.run (DetectorStates.step available parameters) memory final.completed = some after ∧
      view (after .detectorState) = view (final.memory .detectorState) := by
  obtain ⟨first, new⟩ := first_heartbeat_exists size
  have ready : Matches available first (start memory) memory := by
    refine ⟨?_, Or.inl rfl⟩
    intro thread oldState attempt phase
    cases phase
  obtain ⟨operations, after, log, sequential, related⟩ :=
    @Runs.run_logged _ _ _ _ _ _ Detector.completed _ _ (matches_step new) _ _ _ _ ready undisturbed
      run
  refine ⟨after, by rw [log]; exact sequential, ?_⟩
  rcases related.tracks with same | ⟨-, -, thread, oldState, attempt, phase⟩
  · exact same.symm
  · rw [done thread] at phase
    cases phase

section Overlap
variable {available : View K → Int → Bool} {parameters : PhiAccrualDetector K} {memory : Memory K}
  {attempt : Attempt} {thread : Nat}

theorem build_some {detector : Detector K} (idle : detector.phase thread = .idle)
    (own : OwnBuffer parameters attempt.recycled (detector.memory .detectorState))
    (stays : PointerStays available (detector.memory .detectorState) attempt.timestamp) :
    step available parameters detector (.build thread attempt) =
      some (afterBuild parameters thread attempt detector) := by
  have building := (@buildState_some_iff _ _ _ available parameters attempt thread detector.memory
    _).mpr ⟨own, stays, rfl⟩
  simp only [step, idle]
  unfold build
  rw [building, Option.map_some, builtMemory_detectorState]
  rfl

theorem set_some {detector : Detector K}
    (built : detector.phase thread = .built .detectorState attempt) :
    step available parameters detector (.set thread) = some (afterSet thread attempt detector) := by
  simp only [step, built]
  rw [set_aliased]

omit [LinearOrder K] in
theorem idle_after_set {detector : Detector K}
    (others : ∀ other, other ≠ thread → detector.phase other = .idle) (other : Nat) :
    (afterSet thread attempt detector).phase other = .idle := by
  unfold afterSet
  dsimp only
  by_cases same : other = thread
  · rw [same, Function.update_self]
  · rw [Function.update_of_ne same]
    exact others other same

theorem heartbeat_alone {detector : Detector K} (idle : ∀ other, detector.phase other = .idle)
    (own : OwnBuffer parameters attempt.recycled (detector.memory .detectorState))
    (stays : PointerStays available (detector.memory .detectorState) attempt.timestamp) :
    ∃ final, Runs.run (step available parameters) detector [.build thread attempt, .set thread] =
        some final ∧
      Runs.Meets (step available parameters) Undisturbed detector
        [.build thread attempt, .set thread] ∧
      (∀ other, final.phase other = .idle) ∧
      (final.memory .detectorState).timestamp = attempt.timestamp := by
  have building := build_some (idle thread) own stays
  have setting := @set_some _ _ _ available parameters attempt thread
    (afterBuild parameters thread attempt detector) (Function.update_self ..)
  refine ⟨_, Runs.run_cons_some.mpr ⟨_, building, Runs.run_cons_some.mpr ⟨_, setting, rfl⟩⟩, ?_, ?_, ?_⟩
  · refine ⟨trivial, ?_⟩
    intro built moved
    obtain rfl := Option.some.inj (building.symm.trans moved)
    refine ⟨?_, fun _ _ => trivial⟩
    unfold Undisturbed afterBuild
    dsimp only
    rw [builtMemory_detectorState, Function.update_self]
  · exact idle_after_set fun other different =>
      (Function.update_of_ne different _ _).trans (idle other)
  · unfold afterSet afterBuild builtMemory
    dsimp only
    rw [Function.update_self, Function.update_self]
    rfl

theorem report_between_is_lost (missedCount : Int)
    (own : OwnBuffer parameters attempt.recycled (memory .detectorState))
    (started : (memory .detectorState).timestamp ≠ 0)
    (stays : PointerStays available (memory .detectorState) attempt.timestamp) :
    ∃ final, Runs.run (step available parameters) (start memory)
        [.build thread attempt, .adjust missedCount, .set thread] = some final ∧
      (∀ other, final.phase other = .idle) ∧
      final.completed = [.adjust missedCount, .heartbeat [attempt]] ∧
      view (final.memory .detectorState) =
        ⟨contents (memory .detectorState).history, attempt.timestamp⟩ := by
  have building := @build_some _ _ _ available parameters attempt thread (start memory) rfl own stays
  have setting := @set_some _ _ _ available parameters attempt thread
    (adjust missedCount (afterBuild parameters thread attempt (start memory)))
    (Function.update_self ..)
  refine ⟨_, Runs.run_cons_some.mpr ⟨_, building, Runs.run_cons_some.mpr ⟨_, rfl,
    Runs.run_cons_some.mpr ⟨_, setting, rfl⟩⟩⟩, ?_, rfl, ?_⟩
  · exact idle_after_set fun other different => Function.update_of_ne different _ _
  · unfold afterSet adjust afterBuild
    dsimp only
    rw [Function.update_self, view_update, Function.update_of_ne (by simp), builtMemory_newState,
      prepared_started (by exact started)]
    rfl

theorem either_order_adjusts {missedCount : Int} {order : List DetectorStates.Action}
    {after : Memory K} (started : (memory .detectorState).timestamp ≠ 0)
    (perm : order.Perm [.adjust missedCount, .heartbeat [attempt]])
    (run : Runs.run (DetectorStates.step available parameters) memory order = some after) :
    contents (after .detectorState).history =
      contents (adjustIntervals (memory .detectorState).history missedCount) := by
  rcases List.perm_pair.mp perm with rfl | rfl
  · obtain ⟨adjusted, first, rest⟩ := Runs.run_cons_some.mp run
    obtain rfl := Option.some.inj first
    obtain ⟨beaten, beat, rest⟩ := Runs.run_cons_some.mp rest
    obtain rfl := Option.some.inj rest
    have same := congrArg View.history (view_after_heartbeat beat)
    rw [Function.update_self, prepared_started (by exact started)] at same
    exact same
  · obtain ⟨beaten, beat, rest⟩ := Runs.run_cons_some.mp run
    obtain ⟨adjusted, second, rest⟩ := Runs.run_cons_some.mp rest
    obtain rfl := Option.some.inj rest
    obtain rfl := Option.some.inj second
    have same := congrArg View.history (view_after_heartbeat beat)
    rw [prepared_started started] at same
    rw [Function.update_self]
    exact contents_adjust_congr missedCount same

end Overlap

def lastAt1000 : Memory ℚ := fun _ => ⟨⟨1000, fun _ => 10, 2, 20, 200⟩, 1000⟩

def oneByOne : List Action :=
  [.build 0 ⟨2000, unused⟩, .set 0] ++ (.adjust 2 :: [.build 1 ⟨4000, unused⟩, .set 1])

theorem updates_serializable_oneByOne :
    ∃ final, Runs.run (step patient clientDetector) (start lastAt1000) oneByOne = some final ∧
      ∃ after, Runs.run (DetectorStates.step patient clientDetector) lastAt1000 final.completed =
          some after ∧
        view (after .detectorState) = view (final.memory .detectorState) := by
  obtain ⟨between, first, undisturbed, idle, last⟩ := @heartbeat_alone _ _ _ patient clientDetector
    ⟨2000, unused⟩ 0 (start lastAt1000) (fun _ => rfl) rfl (Or.inr (Or.inl rfl))
  have suspected : PointerStays patient ((adjust 2 between).memory .detectorState) 4000 := by
    refine Or.inr (Or.inl ?_)
    simp [patient, view, adjust, adjustState, last]
  obtain ⟨final, second, undisturbed', idle', -⟩ := @heartbeat_alone _ _ _ patient clientDetector
    ⟨4000, unused⟩ 1 (adjust 2 between) idle rfl suspected
  have rest : Runs.run (step patient clientDetector) between
      (.adjust 2 :: [.build 1 ⟨4000, unused⟩, .set 1]) = some final :=
    Runs.run_cons_some.mpr ⟨_, rfl, second⟩
  have run : Runs.run (step patient clientDetector) (start lastAt1000) oneByOne = some final := by
    unfold oneByOne
    rw [Runs.run_append, first]
    exact rest
  have meets : Runs.Meets (step patient clientDetector) Undisturbed (start lastAt1000) oneByOne := by
    refine Runs.meets_append undisturbed first ⟨trivial, ?_⟩
    intro adjusted moved
    obtain rfl := Option.some.inj moved
    exact undisturbed'
  exact ⟨final, run, updates_serializable patient clientDetector lastAt1000 _ final (by decide) run
    meets idle'⟩

/-- A miss-free report between the two steps of a heartbeat is lost: both orders of the two
    operations end with a sum of 21, the run with 20. -/
theorem report_is_overwritten :
    ¬ ∀ (available : View ℚ → Int → Bool) (parameters : PhiAccrualDetector ℚ) (memory : Memory ℚ)
      (actions : List Action) (final : Detector ℚ), 0 < parameters.maxSampleSize →
      Runs.run (step available parameters) (start memory) actions = some final →
      (∀ thread, final.phase thread = .idle) →
      ∃ order after, order.Perm final.completed ∧
        Runs.run (DetectorStates.step available parameters) memory order = some after ∧
        view (after .detectorState) = view (final.memory .detectorState) := by
  intro always
  obtain ⟨final, run, idle, log, lost⟩ := @report_between_is_lost _ _ _ patient clientDetector
    lastAt1000 ⟨2000, unused⟩ 0 0 rfl (by decide) (Or.inr (Or.inl rfl))
  obtain ⟨order, after, perm, sequential, same⟩ :=
    always patient clientDetector lastAt1000 _ final (by decide) run idle
  rw [log] at perm
  have adjusted := either_order_adjusts (by decide) perm sequential
  have kept := congrArg View.history (same.trans lost)
  have sums := congrArg Contents.intervalSum (adjusted.symm.trans kept)
  exact absurd sums (by decide +kernel)

end RealMQ.DetectorInterleavings
