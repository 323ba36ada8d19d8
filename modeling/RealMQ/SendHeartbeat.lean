import RealMQ.DetectorInterleavings

/- send_heartbeat of accrual_detector.c in any number of threads, with the adjust_intervals of
   the responder between them. A thread checks, builds new_state and sets it, in three steps that
   are each taken in one piece; the clock is positive and does not run back. Sends succeed. The
   get_phi at the end is only logged. stale and kept are not variables of the source: the detector
   changed since the check, and for each state the reports that its window has gone through since
   it was the one of first_heartbeat. -/
namespace RealMQ.SendHeartbeat
open HeartbeatHistories HistoryUpdates PhiAccrualDetectors DetectorStates LogisticTail Moments
open DetectorInterleavings (Detector afterBuild afterSet)

inductive Suspicion where
  | first
  | unavailable (socket : Bool)
  deriving DecidableEq

structure Caller where
  suspicion : Option Suspicion
  stale : Bool

structure Process where
  detector : Detector ℝ
  clock : Int
  sent : Nat
  caller : Nat → Caller
  kept : Address → List Int

def Process.state (process : Process) : State ℝ := process.detector.memory .detectorState

inductive Event where
  | force (thread : Nat) (socket : Bool)
  | look (thread : Nat) (now : Int) (socket : Bool)
  | build (thread : Nat) (attempt : Attempt)
  | set (thread : Nat)
  | adjust (missedCount : Int)

open Classical in
/-- is_available at a time that is not 0. -/
noncomputable def available (parameters : PhiAccrualDetector ℝ) (seen : View ℝ) (timestamp : Int) :
    Bool :=
  decide (∃ state, view state = seen ∧ isAvailable parameters state timestamp timestamp)

def messages : Suspicion → Nat
  | .first => 0
  | .unavailable socket => if socket then 1 else 0

def Process.suspect (thread : Nat) (why : Suspicion) (process : Process) : Process :=
  { process with caller := Function.update process.caller thread ⟨some why, false⟩ }

def outdated (caller : Caller) : Caller := { caller with stale := true }

/-- The reports in the window that new_state is copied from. -/
def Process.reports (process : Process) : List Int :=
  if process.state.timestamp = 0 then [] else process.kept .detectorState

def Process.built (thread : Nat) (timestamp : Int) (detector : Detector ℝ) (process : Process) :
    Process :=
  { process with
    detector := detector
    clock := timestamp
    kept := Function.update (Function.update process.kept .detectorState process.reports)
      (.newState thread) process.reports }

def Process.returned (thread : Nat) (why : Suspicion) (detector : Detector ℝ) (process : Process) :
    Process :=
  match detector.phase thread with
  | .idle =>
    { process with
      detector := detector
      sent := process.sent + messages why
      caller := Function.update (fun other => outdated (process.caller other)) thread ⟨none, false⟩
      kept := Function.update process.kept .detectorState (process.kept (.newState thread)) }
  | _ => { process with detector := detector }

def Process.adjusted (missedCount : Int) (detector : Detector ℝ) (process : Process) : Process :=
  { process with
    detector := detector
    caller := fun thread => outdated (process.caller thread)
    kept := Function.update process.kept .detectorState
      (process.kept .detectorState ++ [missedCount]) }

def Later (process : Process) (now : Int) : Prop := 0 < now ∧ process.clock ≤ now

instance (process : Process) (now : Int) : Decidable (Later process now) :=
  inferInstanceAs (Decidable (_ ∧ _))

noncomputable def step (parameters : PhiAccrualDetector ℝ) (process : Process) :
    Event → Option Process
  | .force thread socket =>
      if (process.caller thread).suspicion = none then
        if process.state.timestamp ≠ 0 then
          some { process with sent := process.sent + if socket then 1 else 0 }
        else some (process.suspect thread .first)
      else none
  | .look thread now socket =>
      if (process.caller thread).suspicion = none ∧ Later process now then
        if available parameters (view process.state) now then some { process with clock := now }
        else some ({ process with clock := now }.suspect thread (.unavailable socket))
      else none
  | .build thread attempt =>
      if (process.caller thread).suspicion ≠ none ∧ Later process attempt.timestamp then
        (DetectorInterleavings.step (available parameters) parameters process.detector
          (.build thread attempt)).map fun detector =>
            process.built thread attempt.timestamp detector
      else none
  | .set thread =>
      (process.caller thread).suspicion.bind fun why =>
        (DetectorInterleavings.step (available parameters) parameters process.detector
          (.set thread)).map fun detector => process.returned thread why detector
  | .adjust missedCount =>
      (DetectorInterleavings.step (available parameters) parameters process.detector
        (.adjust missedCount)).map fun detector => process.adjusted missedCount detector

def Aliased (process : Process) : Prop :=
  ∀ thread oldState attempt, process.detector.phase thread = .built oldState attempt →
    oldState = .detectorState

noncomputable def Process.beaten (thread : Nat) (why : Suspicion) (attempt : Attempt) (process : Process) :
    Process :=
  { process with
    detector := afterSet thread attempt process.detector
    sent := process.sent + messages why
    caller := Function.update (fun other => outdated (process.caller other)) thread ⟨none, false⟩
    kept := Function.update process.kept .detectorState (process.kept (.newState thread)) }

inductive Taken (parameters : PhiAccrualDetector ℝ) (process : Process) : Event → Process → Prop where
  | flush (thread : Nat) (socket : Bool) (idle : (process.caller thread).suspicion = none)
      (started : process.state.timestamp ≠ 0) :
      Taken parameters process (.force thread socket)
        { process with sent := process.sent + if socket then 1 else 0 }
  | first (thread : Nat) (socket : Bool) (idle : (process.caller thread).suspicion = none)
      (fresh : process.state.timestamp = 0) :
      Taken parameters process (.force thread socket) (process.suspect thread .first)
  | trust (thread : Nat) (now : Int) (socket : Bool)
      (idle : (process.caller thread).suspicion = none) (later : Later process now)
      (trusted : available parameters (view process.state) now = true) :
      Taken parameters process (.look thread now socket) { process with clock := now }
  | suspect (thread : Nat) (now : Int) (socket : Bool)
      (idle : (process.caller thread).suspicion = none) (later : Later process now)
      (suspected : available parameters (view process.state) now = false) :
      Taken parameters process (.look thread now socket)
        ({ process with clock := now }.suspect thread (.unavailable socket))
  | build (thread : Nat) (attempt : Attempt) (waiting : (process.caller thread).suspicion ≠ none)
      (later : Later process attempt.timestamp)
      (own : OwnBuffer parameters attempt.recycled process.state)
      (stays : PointerStays (available parameters) process.state attempt.timestamp) :
      Taken parameters process (.build thread attempt)
        (process.built thread attempt.timestamp
          (afterBuild parameters thread attempt process.detector))
  | set (thread : Nat) (why : Suspicion) (attempt : Attempt)
      (cause : (process.caller thread).suspicion = some why)
      (phase : process.detector.phase thread = .built .detectorState attempt) :
      Taken parameters process (.set thread) (process.beaten thread why attempt)
  | adjust (missedCount : Int) :
      Taken parameters process (.adjust missedCount)
        (process.adjusted missedCount (DetectorInterleavings.adjust missedCount process.detector))

theorem returned_beaten (process : Process) (thread : Nat) (why : Suspicion) (attempt : Attempt) :
    process.returned thread why (afterSet thread attempt process.detector) =
      process.beaten thread why attempt := by
  have idle : (afterSet thread attempt process.detector).phase thread = .idle :=
    Function.update_self ..
  unfold Process.returned
  rw [idle]
  rfl

theorem step_taken {parameters : PhiAccrualDetector ℝ} {process next : Process} {event : Event}
    (aliased : Aliased process) (moved : step parameters process event = some next) :
    Taken parameters process event next := by
  cases event with
  | force thread socket =>
    simp only [step] at moved
    split at moved
    · rename_i idle
      split at moved
      · rename_i started
        obtain rfl := Option.some.inj moved
        exact .flush thread socket idle started
      · rename_i fresh
        obtain rfl := Option.some.inj moved
        exact .first thread socket idle (not_not.mp fresh)
    · cases moved
  | look thread now socket =>
    simp only [step] at moved
    split at moved
    · rename_i free
      split at moved
      · rename_i trusted
        obtain rfl := Option.some.inj moved
        exact .trust thread now socket free.1 free.2 trusted
      · rename_i suspected
        obtain rfl := Option.some.inj moved
        exact .suspect thread now socket free.1 free.2 (Bool.eq_false_of_not_eq_true suspected)
    · cases moved
  | build thread attempt =>
    simp only [step] at moved
    split at moved
    · rename_i ready
      obtain ⟨detector, done, rfl⟩ := Option.map_eq_some_iff.mp moved
      rcases DetectorInterleavings.step_cases done with ⟨_, _, same, own, stays, rfl⟩ |
        ⟨_, _, _, same, -, -⟩ | ⟨_, same, -⟩
      · obtain ⟨rfl, rfl⟩ := DetectorInterleavings.Action.build.inj same
        exact .build thread attempt ready.1 ready.2 own stays
      · cases same
      · cases same
    · cases moved
  | set thread =>
    obtain ⟨why, cause, rest⟩ := Option.bind_eq_some_iff.mp moved
    obtain ⟨detector, done, rfl⟩ := Option.map_eq_some_iff.mp rest
    rcases DetectorInterleavings.step_cases done with ⟨_, _, same, -⟩ |
      ⟨_, oldState, attempt, same, phase, rfl⟩ | ⟨_, same, -⟩
    · cases same
    · obtain rfl := DetectorInterleavings.Action.set.inj same
      obtain rfl := aliased _ _ _ phase
      rw [DetectorInterleavings.set_aliased, returned_beaten]
      exact .set thread why attempt cause phase
    · cases same
  | adjust missedCount =>
    obtain rfl := Option.some.inj moved
    exact .adjust missedCount

section Availability
variable {parameters : PhiAccrualDetector ℝ} {first : HeartbeatHistory ℝ} {state : State ℝ}
  {timestamp : Int}

theorem available_iff :
    available parameters (view state) timestamp = true ↔
      isAvailable parameters state timestamp timestamp := by
  simp only [available, decide_eq_true_eq]
  constructor
  · rintro ⟨other, same, trusted⟩
    exact (isAvailable_congr same timestamp timestamp).mp trusted
  · exact fun trusted => ⟨state, rfl, trusted⟩

theorem available_iff_pause (usable : Usable parameters) (new : firstHeartbeat parameters = some first)
    (reports : List Int) (same : contents state.history = contents (adjustAll first reports))
    (started : state.timestamp ≠ 0) (given : timestamp ≠ 0) :
    available parameters (view state) timestamp = true ↔
      (timestamp : ℝ) < state.timestamp + pause parameters reports :=
  available_iff.trans (isAvailable_iff_pause usable new reports same started given)

end Availability

def start (state : State ℝ) : Process :=
  ⟨DetectorInterleavings.start fun _ => state, 0, 0, fun _ => ⟨none, false⟩, fun _ => []⟩

/-- heartbeat would leave the pointer to the history as it is, from now on. -/
def Settled (parameters : PhiAccrualDetector ℝ) (process : Process) : Prop :=
  ∀ later, Later process later → PointerStays (available parameters) process.state later

structure Sound (parameters : PhiAccrualDetector ℝ) (first : HeartbeatHistory ℝ) (process : Process) :
    Prop where
  clock : 0 ≤ process.clock
  aliased : Aliased process
  window : contents process.state.history = contents (adjustAll first (process.kept .detectorState))
  copied : ∀ thread oldState attempt, process.detector.phase thread = .built oldState attempt →
    0 < attempt.timestamp ∧ view (process.detector.memory (.newState thread)) =
      ⟨contents (adjustAll first (process.kept (.newState thread))), attempt.timestamp⟩
  fresh : ∀ thread why, (process.caller thread).suspicion = some why →
    (process.caller thread).stale = false → Settled parameters process

section Steps
variable {parameters : PhiAccrualDetector ℝ} {first : HeartbeatHistory ℝ} {process next : Process}
  {thread : Nat} {now : Int}

theorem settled_of_suspected (usable : Usable parameters)
    (new : firstHeartbeat parameters = some first) (before : Sound parameters first process)
    (later : Later process now) (suspected : available parameters (view process.state) now = false) :
    Settled parameters { process with clock := now } := by
  rintro last ⟨positive, after⟩
  by_cases fresh : process.state.timestamp = 0
  · exact Or.inl fresh
  · have passed := available_iff_pause usable new _ before.window fresh later.1.ne'
    have still := available_iff_pause usable new _ before.window fresh positive.ne'
    refine Or.inr (Or.inl (Bool.eq_false_of_not_eq_true fun trusted => ?_))
    have soon := still.mp trusted
    have waited : (now : ℝ) ≤ last := Int.cast_le.mpr after
    rw [Bool.eq_false_iff, ne_eq, passed] at suspected
    exact suspected (lt_of_le_of_lt waited soon)

theorem settled_later (settled : Settled parameters process) (later : Later process now) :
    Settled parameters { process with clock := now } :=
  fun last final => settled last ⟨final.1, later.2.trans final.2⟩

theorem sound_suspect {why : Suspicion} (before : Sound parameters first process)
    (settled : Settled parameters process) :
    Sound parameters first (process.suspect thread why) := by
  refine ⟨before.clock, before.aliased, before.window, before.copied, ?_⟩
  intro other cause waiting fresh
  exact settled

theorem sound_clock (before : Sound parameters first process) (later : Later process now) :
    Sound parameters first { process with clock := now } := by
  refine ⟨later.1.le, before.aliased, before.window, before.copied, ?_⟩
  intro other cause waiting fresh
  exact settled_later (before.fresh other cause waiting fresh) later

theorem state_built {attempt : Attempt} :
    (process.built thread attempt.timestamp
      (afterBuild parameters thread attempt process.detector)).state =
        prepared parameters process.state :=
  @builtMemory_detectorState _ _ _ parameters attempt thread process.detector.memory

theorem prepared_window (new : firstHeartbeat parameters = some first)
    (before : Sound parameters first process) :
    contents (prepared parameters process.state).history =
      contents (adjustAll first process.reports) := by
  unfold Process.reports
  by_cases fresh : process.state.timestamp = 0
  · rw [contents_prepared_fresh fresh new, if_pos fresh]
    rfl
  · rw [prepared_started fresh, if_neg fresh]
    exact before.window

theorem sound_build {attempt : Attempt} (new : firstHeartbeat parameters = some first)
    (before : Sound parameters first process) (later : Later process attempt.timestamp) :
    Sound parameters first (process.built thread attempt.timestamp
      (afterBuild parameters thread attempt process.detector)) := by
  have window := prepared_window new before
  refine ⟨later.1.le, ?_, ?_, ?_, ?_⟩
  · intro other oldState attempt' phase
    simp only [Process.built, afterBuild] at phase
    by_cases same : other = thread
    · rw [same, Function.update_self] at phase
      cases phase
      rfl
    · rw [Function.update_of_ne same] at phase
      exact before.aliased other oldState attempt' phase
  · rw [state_built, window]
    simp [Process.built]
  · intro other oldState attempt' phase
    simp only [Process.built, afterBuild] at phase ⊢
    by_cases same : other = thread
    · rw [same, Function.update_self] at phase ⊢
      cases phase
      refine ⟨later.1, ?_⟩
      rw [builtMemory_newState, ← window]
      rfl
    · rw [Function.update_of_ne same] at phase
      rw [builtMemory_other same, Function.update_of_ne (by simpa using same),
        Function.update_of_ne (by simp)]
      exact before.copied other oldState attempt' phase
  · intro other why waiting fresh last final
    have settled := before.fresh other why waiting fresh last ⟨final.1, later.2.trans final.2⟩
    rw [state_built]
    by_cases unstarted : process.state.timestamp = 0
    · exact Or.inl ((DetectorInterleavings.prepared_timestamp _).trans unstarted)
    · rw [prepared_started unstarted]
      exact settled

theorem beaten_view (process : Process) (thread : Nat) (why : Suspicion) (attempt : Attempt) :
    view (process.beaten thread why attempt).state =
      view (process.detector.memory (.newState thread)) := by
  simp only [Process.state, Process.beaten, afterSet, Function.update_self, view_update]

theorem sound_set {why : Suspicion} {attempt : Attempt} (before : Sound parameters first process)
    (phase : process.detector.phase thread = .built .detectorState attempt) :
    Sound parameters first (process.beaten thread why attempt) := by
  have copied := before.copied thread _ _ phase
  refine ⟨before.clock, ?_, ?_, ?_, ?_⟩
  · intro other oldState attempt' built
    simp only [Process.beaten, afterSet] at built
    by_cases same : other = thread
    · rw [same, Function.update_self] at built
      cases built
    · rw [Function.update_of_ne same] at built
      exact before.aliased other oldState attempt' built
  · have seen : view (process.beaten thread why attempt).state = _ :=
      (beaten_view process thread why attempt).trans copied.2
    refine (congrArg View.history seen).trans ?_
    simp [Process.beaten]
  · intro other oldState attempt' built
    simp only [Process.beaten, afterSet] at built ⊢
    by_cases same : other = thread
    · rw [same, Function.update_self] at built
      cases built
    · rw [Function.update_of_ne same] at built
      rw [Function.update_of_ne (by simp), Function.update_of_ne (by simp)]
      exact before.copied other oldState attempt' built
  · -- the thread is done with heartbeat, the others have to look again
    intro other cause waiting fresh
    simp only [Process.beaten] at waiting fresh
    by_cases same : other = thread
    · rw [same, Function.update_self] at waiting
      cases waiting
    · rw [Function.update_of_ne same] at fresh
      cases fresh

theorem sound_adjust (missedCount : Int) (before : Sound parameters first process) :
    Sound parameters first (process.adjusted missedCount
      (DetectorInterleavings.adjust missedCount process.detector)) := by
  refine ⟨before.clock, before.aliased, ?_, ?_, ?_⟩
  · simp only [Process.state, Process.adjusted, DetectorInterleavings.adjust, Function.update_self]
    refine (contents_adjust_congr missedCount before.window).trans ?_
    rw [adjustAll, adjustAll, List.foldl_append]
    rfl
  · intro other oldState attempt built
    simp only [Process.adjusted, DetectorInterleavings.adjust] at built ⊢
    rw [Function.update_of_ne (by simp), Function.update_of_ne (by simp)]
    exact before.copied other oldState attempt built
  · intro other cause waiting fresh
    cases fresh

theorem sound_step {event : Event} (usable : Usable parameters)
    (new : firstHeartbeat parameters = some first) (before : Sound parameters first process)
    (moved : step parameters process event = some next) : Sound parameters first next := by
  cases step_taken before.aliased moved with
  | flush thread socket idle started =>
    exact ⟨before.clock, before.aliased, before.window, before.copied, before.fresh⟩
  | first thread socket idle fresh => exact sound_suspect before fun _ _ => Or.inl fresh
  | trust thread now socket idle later trusted => exact sound_clock before later
  | suspect thread now socket idle later suspected =>
    exact sound_suspect (sound_clock before later)
      (settled_of_suspected usable new before later suspected)
  | build thread attempt waiting later own stays => exact sound_build new before later
  | set thread why attempt cause phase => exact sound_set before phase
  | adjust missedCount => exact sound_adjust missedCount before

theorem sound_start {state : State ℝ} (filled : contents state.history = contents first) :
    Sound parameters first (start state) := by
  refine ⟨le_refl 0, ?_, filled, ?_, ?_⟩
  · intro thread oldState attempt phase
    cases phase
  · intro thread oldState attempt phase
    cases phase
  · intro thread why waiting
    cases waiting

end Steps

theorem sound_run {parameters : PhiAccrualDetector ℝ} {recycled : Recycled} {state : State ℝ}
    {events : List Event} {process : Process} (usable : Usable parameters)
    (new : newPhiAccrualDetector parameters recycled none = some state)
    (run : Runs.run (step parameters) (start state) events = some process) :
    ∃ first, firstHeartbeat parameters = some first ∧ Sound parameters first process := by
  obtain ⟨made, empty, rest⟩ := Option.bind_eq_some_iff.mp new
  obtain ⟨first, filled, rfl⟩ := Option.map_eq_some_iff.mp rest
  exact ⟨first, filled, Runs.run_invariant (fun _ _ _ => sound_step usable filled) (sound_start rfl)
    run⟩

section Copies
variable {parameters : PhiAccrualDetector ℝ} {first : HeartbeatHistory ℝ} {process next : Process}
  {thread : Nat} {attempt : Attempt} {why : Suspicion}

theorem contents_adjustAll_size (history : HeartbeatHistory ℝ) (reports : List Int) :
    (adjustAll history reports).maxSampleSize = history.maxSampleSize := by
  induction reports generalizing history with
  | nil => rfl
  | cons m reports ih => exact ih (adjustIntervals history m)

theorem own_iff (usable : Usable parameters) (new : firstHeartbeat parameters = some first)
    (sound : Sound parameters first process) {recycled : Recycled} :
    OwnBuffer parameters recycled process.state ↔
      recycled.getsBuffer parameters.maxSampleSize = true := by
  have size := congrArg Contents.maxSampleSize (prepared_window new sound)
  have made := (sized_first usable.size new).1
  unfold OwnBuffer
  rw [show (prepared parameters process.state).history.maxSampleSize = parameters.maxSampleSize from
    size.trans ((contents_adjustAll_size first _).trans made)]

theorem build_some_iff (usable : Usable parameters) (new : firstHeartbeat parameters = some first)
    (sound : Sound parameters first process) (cause : (process.caller thread).suspicion = some why)
    (idle : process.detector.phase thread = .idle) (later : Later process attempt.timestamp) :
    (∃ next, step parameters process (.build thread attempt) = some next) ↔
      attempt.recycled.getsBuffer parameters.maxSampleSize = true ∧
        PointerStays (available parameters) process.state attempt.timestamp := by
  rw [← own_iff usable new sound]
  constructor
  · rintro ⟨next, moved⟩
    cases step_taken sound.aliased moved with
    | build _ _ _ _ own stays => exact ⟨own, stays⟩
  · rintro ⟨own, stays⟩
    have waiting : (process.caller thread).suspicion ≠ none := by
      rw [cause]
      exact Option.some_ne_none why
    refine ⟨process.built thread attempt.timestamp
      (afterBuild parameters thread attempt process.detector), ?_⟩
    simp only [step]
    rw [if_pos ⟨waiting, later⟩, DetectorInterleavings.build_some idle own stays]
    rfl

/-- A new_state that is waiting for its compare_and_set. -/
structure Pending (process : Process) (thread : Nat) (why : Suspicion) (copy : View ℝ)
    (attempt : Attempt) : Prop where
  cause : (process.caller thread).suspicion = some why
  phase : process.detector.phase thread = .built .detectorState attempt
  copied : view (process.detector.memory (.newState thread)) = copy

theorem pending_build (cause : (process.caller thread).suspicion = some why) :
    Pending (process.built thread attempt.timestamp
        (afterBuild parameters thread attempt process.detector)) thread why
      ⟨contents (prepared parameters process.state).history, attempt.timestamp⟩ attempt :=
  ⟨cause, Function.update_self .., builtMemory_newState⟩

theorem pending_step {event : Event} {copy : View ℝ} (aliased : Aliased process)
    (pending : Pending process thread why copy attempt) (other : event ≠ .set thread)
    (moved : step parameters process event = some next) :
    Pending next thread why copy attempt := by
  obtain ⟨cause, phase, copied⟩ := pending
  cases step_taken aliased moved with
  | flush caller socket idle started => exact ⟨cause, phase, copied⟩
  | first caller socket idle fresh =>
    have different : thread ≠ caller := by
      rintro rfl
      rw [cause] at idle
      cases idle
    refine ⟨?_, phase, copied⟩
    simp only [Process.suspect, Function.update_of_ne different, cause]
  | trust caller now socket idle later trusted => exact ⟨cause, phase, copied⟩
  | suspect caller now socket idle later suspected =>
    have different : thread ≠ caller := by
      rintro rfl
      rw [cause] at idle
      cases idle
    refine ⟨?_, phase, copied⟩
    simp only [Process.suspect, Function.update_of_ne different, cause]
  | build caller again waiting later own stays =>
    have different : thread ≠ caller := by
      rintro rfl
      simp only [step, DetectorInterleavings.step, phase] at moved
      split at moved <;> cases moved
    refine ⟨cause, ?_, ?_⟩
    · simp only [Process.built, afterBuild, Function.update_of_ne different, phase]
    · simp only [Process.built, afterBuild]
      rw [builtMemory_other different, copied]
  | set caller because again cause' phase' =>
    have different : thread ≠ caller := by
      rintro rfl
      exact other rfl
    refine ⟨?_, ?_, ?_⟩
    · simp only [Process.beaten, Function.update_of_ne different, outdated, cause]
    · simp only [Process.beaten, afterSet, Function.update_of_ne different, phase]
    · simp only [Process.beaten, afterSet]
      rw [Function.update_of_ne (by simp), copied]
  | adjust missedCount =>
    refine ⟨cause, phase, ?_⟩
    simp only [Process.adjusted, DetectorInterleavings.adjust]
    rw [Function.update_of_ne (by simp), copied]

theorem pending_run {more : List Event} {copy : View ℝ} (usable : Usable parameters)
    (new : firstHeartbeat parameters = some first) (sound : Sound parameters first process)
    (pending : Pending process thread why copy attempt) (notSet : Event.set thread ∉ more)
    (onward : Runs.run (step parameters) process more = some next) :
    Aliased next ∧ Pending next thread why copy attempt := by
  induction more generalizing process with
  | nil =>
    obtain rfl := Option.some.inj onward
    exact ⟨sound.aliased, pending⟩
  | cons event more ih =>
    obtain ⟨between, moved, rest⟩ := Runs.run_cons_some.mp onward
    rw [List.mem_cons, not_or] at notSet
    obtain ⟨other, others⟩ := notSet
    exact ih (sound_step usable new sound moved)
      (pending_step sound.aliased pending (Ne.symm other) moved) others rest

theorem pending_set {copy : View ℝ} (pending : Pending process thread why copy attempt) :
    step parameters process (.set thread) = some (process.beaten thread why attempt) := by
  simp only [step]
  rw [pending.cause, DetectorInterleavings.set_some pending.phase, Option.bind_some, Option.map_some,
    returned_beaten]

end Copies

section Looks
variable {parameters : PhiAccrualDetector ℝ} {first : HeartbeatHistory ℝ} {process : Process}
  {thread : Nat} {now : Int} {socket : Bool}

theorem look_decides (usable : Usable parameters) (new : firstHeartbeat parameters = some first)
    (sound : Sound parameters first process) (started : process.state.timestamp ≠ 0)
    (idle : (process.caller thread).suspicion = none) (later : Later process now) :
    ∃ next, step parameters process (.look thread now socket) = some next ∧
      next.sent = process.sent ∧ ((next.caller thread).suspicion = some (.unavailable socket) ↔
        process.state.timestamp + pause parameters (process.kept .detectorState) ≤ now) := by
  have lasts := available_iff_pause usable new _ sound.window started later.1.ne'
  simp only [step, if_pos (And.intro idle later)]
  split
  · rename_i trusted
    refine ⟨_, rfl, rfl, ?_⟩
    rw [← not_lt, ← lasts]
    simp only [idle, trusted, reduceCtorEq, not_true]
  · rename_i suspected
    refine ⟨_, rfl, rfl, ?_⟩
    rw [← not_lt, ← lasts]
    simp only [Process.suspect, Function.update_self, suspected]
    simp

def adjusts : List Event → List Int
  | [] => []
  | .adjust missedCount :: events => missedCount :: adjusts events
  | _ :: events => adjusts events

theorem adjusts_cons (event : Event) (events : List Event) :
    adjusts (event :: events) = adjusts [event] ++ adjusts events := by
  cases event <;> rfl

theorem kept_step {event : Event} {next : Process} {done : List Int} (aliased : Aliased process)
    (before : ∀ a, (process.kept a).Sublist done)
    (moved : step parameters process event = some next) :
    ∀ a, (next.kept a).Sublist (done ++ adjusts [event]) := by
  have early : ∀ a, (process.kept a).Sublist (done ++ adjusts [event]) :=
    fun a => (before a).trans (List.sublist_append_left _ _)
  cases step_taken aliased moved with
  | build caller attempt waiting later own stays =>
    have shared : process.reports.Sublist (done ++ adjusts [.build caller attempt]) := by
      unfold Process.reports
      split
      · exact List.nil_sublist _
      · exact early .detectorState
    intro a
    simp only [Process.built, Function.update_apply]
    split
    · exact shared
    · split
      · exact shared
      · exact early a
  | set caller why attempt cause phase =>
    intro a
    simp only [Process.beaten, Function.update_apply]
    split
    · exact early (.newState caller)
    · exact early a
  | adjust missedCount =>
    intro a
    simp only [Process.adjusted, Function.update_apply]
    split
    · exact (before .detectorState).append (List.Sublist.refl _)
    · exact early a
  | _ => exact early

/-- No window has gone through reports that were not made. -/
theorem kept_run {events : List Event} {final : Process} {done : List Int} (usable : Usable parameters)
    (new : firstHeartbeat parameters = some first) (sound : Sound parameters first process)
    (before : ∀ a, (process.kept a).Sublist done)
    (run : Runs.run (step parameters) process events = some final) :
    ∀ a, (final.kept a).Sublist (done ++ adjusts events) := by
  induction events generalizing process done with
  | nil =>
    obtain rfl := Option.some.inj run
    simpa [adjusts] using before
  | cons event events ih =>
    obtain ⟨between, moved, rest⟩ := Runs.run_cons_some.mp run
    rw [adjusts_cons, ← List.append_assoc]
    exact ih (sound_step usable new sound moved) (kept_step sound.aliased before moved) rest

end Looks

section Client

theorem new_exists {parameters : PhiAccrualDetector ℝ} (usable : Usable parameters)
    (recycled : Recycled) :
    ∃ state, newPhiAccrualDetector parameters recycled none = some state ∧ state.timestamp = 0 := by
  obtain ⟨empty, made, -⟩ := new_history (K := ℝ) one_pos
  obtain ⟨first, new, -⟩ := first_heartbeat_samples usable.size
  refine ⟨⟨first, 0⟩, ?_, rfl⟩
  simp [newPhiAccrualDetector, stateInit, made, new]

theorem steady_usable : Usable steadyDetector := by
  constructor <;> norm_num [steadyDetector]

theorem steady_likely : 2 ≤ (10 : ℝ) ^ steadyDetector.threshold := by
  norm_num [steadyDetector]

def bothFirst : List Event := [.force 0 false, .force 1 false]

def bothSuspect (state : State ℝ) : Process := ((start state).suspect 0 .first).suspect 1 .first

theorem bothFirst_run {state : State ℝ} (fresh : state.timestamp = 0) :
    Runs.run (step steadyDetector) (start state) bothFirst = some (bothSuspect state) := by
  simp [Runs.run, bothFirst, bothSuspect, step, start, DetectorInterleavings.start, Process.state,
    Process.suspect, fresh]

theorem first_pause : 10 ≤ pause steadyDetector [] := by
  have long := le_pause steady_usable steady_likely []
  rw [ratio_nil, one_mul] at long
  exact long

def firstBeat : List Event := bothFirst ++ [.build 0 ⟨1000, unused⟩, .set 0]

theorem first_beat {state : State ℝ} (new : newPhiAccrualDetector steadyDetector unused none = some state)
    (fresh : state.timestamp = 0) : ∃ next,
    Runs.run (step steadyDetector) (start state) firstBeat = some next ∧
    next.state.timestamp = 1000 ∧ next.clock = 1000 ∧ next.kept .detectorState = [] ∧
      (∀ other, next.detector.phase other = .idle) ∧ (next.caller 0).suspicion = none ∧
      (next.caller 1).suspicion = some .first := by
  have run := bothFirst_run fresh
  obtain ⟨first, filled, sound⟩ := sound_run steady_usable new run
  have own : OwnBuffer steadyDetector unused _ := (own_iff steady_usable filled sound).mpr rfl
  have ready : ((bothSuspect state).caller 0).suspicion ≠ none ∧ Later (bothSuspect state) 1000 :=
    ⟨Option.some_ne_none Suspicion.first, by decide, show (0 : Int) ≤ 1000 by decide⟩
  have building : step steadyDetector (bothSuspect state) (.build 0 ⟨1000, unused⟩) =
      some ((bothSuspect state).built 0 1000
        (afterBuild steadyDetector 0 ⟨1000, unused⟩ (bothSuspect state).detector)) := by
    simp only [step]
    rw [if_pos ready, DetectorInterleavings.build_some rfl own (Or.inl fresh)]
    rfl
  have pending := @pending_build steadyDetector (bothSuspect state) 0 ⟨1000, unused⟩ .first rfl
  refine ⟨Process.beaten 0 .first ⟨1000, unused⟩ _, ?_,
    congrArg View.timestamp ((beaten_view _ 0 .first ⟨1000, unused⟩).trans pending.copied), rfl, ?_, ?_,
    rfl, rfl⟩
  · unfold firstBeat
    rw [Runs.run_append, run]
    exact Runs.run_cons_some.mpr ⟨_, building, Runs.run_cons_some.mpr ⟨_, pending_set pending, rfl⟩⟩
  · have unstarted : (bothSuspect state).state.timestamp = 0 := fresh
    simp [Process.beaten, Process.built, Process.reports, unstarted]
  · intro other
    exact DetectorInterleavings.idle_after_set (fun other different =>
      Function.update_of_ne different _ _) other

end Client

end RealMQ.SendHeartbeat
