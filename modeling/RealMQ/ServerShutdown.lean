import RealMQ.StatsFiles
import RealMQ.Foundation.Runs

/- The threads of src/realmq_server.c around json_mutex, up to the STOP of main: server_thread
   puts records into g_json_messages, stats_saver_thread saves them, and main, when
   server_thread has ended, cancels the saver and saves once more. Nothing in the server sets
   interrupted. calls and received are not variables of the source: the calls in the order in
   which they took effect, and the records of the messages that were received. -/
namespace RealMQ.ServerShutdown
open CStrings DynamicArrays StatsFiles

/-- A whole call. fopenOk: a save that gets to fopen can open its file. -/
inductive Call where
  | process (recvTime : Int64) (msg : Message)
  | save (fopenOk : Bool) (now : CString)

def perform (config : Config) (stats : Stats) : Call → Stats
  | .process recvTime msg => processJsonMessage recvTime msg stats
  | .save fopenOk now => saveStatsToFile config fopenOk now stats

def runCalls (config : Config) (calls : List Call) : Stats :=
  calls.foldl (perform config) initJsonMessages

def added : List Call → List Record
  | [] => []
  | .process recvTime msg :: calls => recordOf recvTime msg :: added calls
  | .save _ _ :: calls => added calls

theorem runCalls_snoc (config : Config) (calls : List Call) (call : Call) :
    runCalls config (calls ++ [call]) = perform config (runCalls config calls) call :=
  List.foldl_concat _ _ _ _

theorem added_append (calls more : List Call) : added (calls ++ more) = added calls ++ added more := by
  induction calls with
  | nil => rfl
  | cons call calls ih => cases call <;> simp [added, ih]

inductive Caller where
  | saver
  | main
  deriving DecidableEq

inductive Owner where
  | server
  | caller (caller : Caller)
  deriving DecidableEq

/-- Where a call of save_stats_to_file is. The length is looked at before the mutex is taken. -/
inductive Saving where
  | looking
  | waiting
  | writing
  deriving DecidableEq

inductive Receiver where
  | receiving
  | waiting (recvTime : Int64) (msg : Message)
  | adding (recvTime : Int64) (msg : Message)
  | ended

inductive Saver where
  | sleeping
  | saving (place : Saving)
  | canceled

inductive MainThread where
  | joiningServer
  | joiningSaver
  | saving (place : Saving)
  | sleeping
  | finished

structure Process where
  stats : Stats
  mutex : Option Owner
  receiver : Receiver
  saver : Saver
  main : MainThread
  calls : List Call
  received : List Record

def start : Process := ⟨initJsonMessages, none, .receiving, .sleeping, .joiningServer, [], []⟩

/-- What a save leaves that is canceled in fopen or before fclose has returned: its file may have
    any content, and the messages are still there. -/
def cutOff (config : Config) (now : CString) (left : Option FileContent) (stats : Stats) : Stats :=
  let dateTime := stats.dateTime.getD now
  { stats with
    fileCounter := nextCounter stats
    dateTime := some dateTime
    files := Function.update stats.files (createStatsPath config dateTime (nextCounter stats)) left }

def Process.place (process : Process) : Caller → Option Saving
  | .saver =>
      match process.saver with
      | .saving place => some place
      | _ => none
  | .main =>
      match process.main with
      | .saving place => some place
      | _ => none

def Process.goTo (process : Process) (place : Saving) : Caller → Process
  | .saver => { process with saver := .saving place }
  | .main => { process with main := .saving place }

def Process.leave (process : Process) : Caller → Process
  | .saver => { process with saver := .sleeping }
  | .main => { process with main := .sleeping }

inductive Event where
  | receive (recvTime : Int64) (msg : Message)
  | stop
  | lock
  | add
  | wake
  | look (caller : Caller)
  | enter (caller : Caller)
  | save (caller : Caller) (fopenOk : Bool) (now : CString)
  | cancel
  | canceled (now : CString) (left : Option FileContent)
  | joined
  | sendStop

def look (caller : Caller) (process : Process) : Process :=
  if process.stats.messages = [] then
    { process.leave caller with calls := process.calls ++ [.save true []] }
  else process.goTo .waiting caller

def save (config : Config) (caller : Caller) (fopenOk : Bool) (now : CString) (process : Process) :
    Process :=
  { process.leave caller with
    stats := saveLocked config fopenOk now process.stats
    mutex := none
    calls := process.calls ++ [.save fopenOk now] }

/-- The saver acts on pthread_cancel while it sleeps, or in a call inside the save, where POSIX
    lets fopen and what follows it do so; nothing unlocks json_mutex then. -/
def step (config : Config) (process : Process) : Event → Option Process
  | .receive recvTime msg =>
      match process.receiver with
      | .receiving =>
          some
            { process with
              receiver := .waiting recvTime msg
              received := process.received ++ [recordOf recvTime msg] }
      | _ => none
  | .stop =>
      match process.receiver with
      | .receiving => some { process with receiver := .ended }
      | _ => none
  | .lock =>
      match process.receiver, process.mutex with
      | .waiting recvTime msg, none =>
          some { process with receiver := .adding recvTime msg, mutex := some .server }
      | _, _ => none
  | .add =>
      match process.receiver with
      | .adding recvTime msg =>
          some
            { process with
              stats := processJsonMessage recvTime msg process.stats
              mutex := none
              receiver := .receiving
              calls := process.calls ++ [.process recvTime msg] }
      | _ => none
  | .wake =>
      match process.saver with
      | .sleeping => some { process with saver := .saving .looking }
      | _ => none
  | .look caller =>
      match process.place caller with
      | some .looking => some (look caller process)
      | _ => none
  | .enter caller =>
      match process.place caller, process.mutex with
      | some .waiting, none =>
          some { process.goTo .writing caller with mutex := some (.caller caller) }
      | _, _ => none
  | .save caller fopenOk now =>
      match process.place caller with
      | some .writing => some (save config caller fopenOk now process)
      | _ => none
  | .cancel =>
      match process.main, process.receiver with
      | .joiningServer, .ended => some { process with main := .joiningSaver }
      | _, _ => none
  | .canceled now left =>
      match process.main, process.saver with
      | .joiningSaver, .sleeping => some { process with saver := .canceled }
      | .joiningSaver, .saving .writing =>
          some { process with saver := .canceled, stats := cutOff config now left process.stats }
      | _, _ => none
  | .joined =>
      match process.main, process.saver with
      | .joiningSaver, .canceled => some { process with main := .saving .looking }
      | _, _ => none
  | .sendStop =>
      match process.main with
      | .sleeping => some { process with main := .finished }
      | _ => none

inductive Taken (config : Config) (process : Process) : Event → Process → Prop where
  | receive (recvTime : Int64) (msg : Message) (here : process.receiver = .receiving) :
      Taken config process (.receive recvTime msg)
        { process with
          receiver := .waiting recvTime msg
          received := process.received ++ [recordOf recvTime msg] }
  | stop (here : process.receiver = .receiving) :
      Taken config process .stop { process with receiver := .ended }
  | lock (recvTime : Int64) (msg : Message) (here : process.receiver = .waiting recvTime msg)
      (free : process.mutex = none) :
      Taken config process .lock
        { process with receiver := .adding recvTime msg, mutex := some .server }
  | add (recvTime : Int64) (msg : Message) (here : process.receiver = .adding recvTime msg) :
      Taken config process .add
        { process with
          stats := processJsonMessage recvTime msg process.stats
          mutex := none
          receiver := .receiving
          calls := process.calls ++ [.process recvTime msg] }
  | wake (here : process.saver = .sleeping) :
      Taken config process .wake { process with saver := .saving .looking }
  | look (caller : Caller) (here : process.place caller = some .looking) :
      Taken config process (.look caller) (look caller process)
  | enter (caller : Caller) (here : process.place caller = some .waiting)
      (free : process.mutex = none) :
      Taken config process (.enter caller)
        { process.goTo .writing caller with mutex := some (.caller caller) }
  | save (caller : Caller) (fopenOk : Bool) (now : CString)
      (here : process.place caller = some .writing) :
      Taken config process (.save caller fopenOk now) (save config caller fopenOk now process)
  | cancel (here : process.main = .joiningServer) (ended : process.receiver = .ended) :
      Taken config process .cancel { process with main := .joiningSaver }
  | asleep (now : CString) (left : Option FileContent) (asked : process.main = .joiningSaver)
      (here : process.saver = .sleeping) :
      Taken config process (.canceled now left) { process with saver := .canceled }
  | inside (now : CString) (left : Option FileContent) (asked : process.main = .joiningSaver)
      (here : process.saver = .saving .writing) :
      Taken config process (.canceled now left)
        { process with saver := .canceled, stats := cutOff config now left process.stats }
  | joined (here : process.main = .joiningSaver) (ended : process.saver = .canceled) :
      Taken config process .joined { process with main := .saving .looking }
  | sendStop (here : process.main = .sleeping) :
      Taken config process .sendStop { process with main := .finished }

theorem step_taken {config : Config} {process next : Process} {event : Event}
    (moved : step config process event = some next) : Taken config process event next := by
  cases event with
  | canceled now left =>
    simp only [step] at moved
    split at moved
    · rename_i asked here
      obtain rfl := Option.some.inj moved
      exact .asleep now left asked here
    · rename_i asked here
      obtain rfl := Option.some.inj moved
      exact .inside now left asked here
    · cases moved
  | _ =>
    simp only [step] at moved
    split at moved
    · obtain rfl := Option.some.inj moved
      constructor <;> assumption
    · cases moved

/-- The saver was canceled with json_mutex in its hands. -/
def Stuck (process : Process) : Prop :=
  process.saver = .canceled ∧ process.mutex = some (.caller .saver)

def pending : Receiver → List Record
  | .waiting recvTime msg => [recordOf recvTime msg]
  | .adding recvTime msg => [recordOf recvTime msg]
  | .receiving => []
  | .ended => []

def Process.Inside (process : Process) : Owner → Prop
  | .server => ∃ recvTime msg, process.receiver = .adding recvTime msg
  | .caller caller => process.place caller = some .writing

structure Phases (process : Process) : Prop where
  ended : process.main ≠ .joiningServer → process.receiver = .ended
  asked : process.saver = .canceled → process.main ≠ .joiningServer
  alone : process.main ≠ .joiningServer → process.main ≠ .joiningSaver → process.saver = .canceled

structure Orderly (config : Config) (process : Process) : Prop where
  stats : process.stats = runCalls config process.calls
  received : added process.calls ++ pending process.receiver = process.received
  mutex : ∀ owner, process.mutex = some owner ↔ process.Inside owner
  found : ∀ caller, process.place caller = some .waiting ∨ process.place caller = some .writing →
    process.stats.messages ≠ []
  phases : Phases process

theorem orderly_start (config : Config) : Orderly config start := by
  constructor
  · rfl
  · rfl
  · rintro (_ | _ | _) <;> simp [start, Process.Inside, Process.place]
  · rintro (_ | _) <;> simp [start, Process.place]
  · constructor <;> simp [start]

section Steps
variable {config : Config} {process next : Process} {caller other : Caller} {place : Saving}

/-- A save looks at the length before it locks the mutex, and does not look again. -/
theorem save_locked {fopenOk : Bool} {now : CString} {stats : Stats}
    (some_messages : stats.messages ≠ []) :
    saveStatsToFile config fopenOk now stats = saveLocked config fopenOk now stats :=
  if_neg some_messages

theorem place_goTo : (process.goTo place caller).place caller = some place := by
  cases caller <;> rfl

theorem place_goTo_other (different : other ≠ caller) :
    (process.goTo place caller).place other = process.place other := by
  cases caller <;> cases other <;> first | rfl | exact absurd rfl different

theorem place_leave : (process.leave caller).place caller = none := by
  cases caller <;> rfl

theorem place_leave_other (different : other ≠ caller) :
    (process.leave caller).place other = process.place other := by
  cases caller <;> cases other <;> first | rfl | exact absurd rfl different

theorem place_saver (here : process.place .saver = some place) : process.saver = .saving place := by
  simp only [Process.place] at here
  split at here
  · rename_i place' saving
    exact saving.trans (congrArg Saver.saving (Option.some.inj here))
  · cases here

theorem place_main (here : process.place .main = some place) : process.main = .saving place := by
  simp only [Process.place] at here
  split at here
  · rename_i place' saving
    exact saving.trans (congrArg MainThread.saving (Option.some.inj here))
  · cases here

theorem main_running (phases : Phases process) (running : process.receiver ≠ .ended) :
    process.main = .joiningServer := by
  by_contra past
  exact running (phases.ended past)

theorem one_saves {old new : Saving} (phases : Phases process)
    (here : process.place caller = some old) (there : process.place other = some new) :
    caller = other := by
  have never : ∀ {p q : Saving}, process.place .saver = some p → process.place .main = some q →
      False := by
    intro p q saver main
    have saving := place_main main
    have gone := phases.alone (by simp [saving]) (by simp [saving])
    simp [place_saver saver] at gone
  cases caller <;> cases other
  · rfl
  · exact (never here there).elim
  · exact (never there here).elim
  · rfl

theorem phases_receiver {receiver : Receiver} {stats : Stats} {mutex : Option Owner}
    {calls : List Call} {received : List Record} (phases : Phases process)
    (running : process.receiver ≠ .ended) :
    Phases ⟨stats, mutex, receiver, process.saver, process.main, calls, received⟩ := by
  have first := main_running phases running
  exact ⟨fun past => absurd first past, phases.asked, phases.alone⟩

theorem phases_goTo {mutex : Option Owner} {old : Saving} (phases : Phases process)
    (here : process.place caller = some old) :
    Phases { process.goTo place caller with mutex := mutex } := by
  cases caller with
  | saver =>
    have running := place_saver here
    refine ⟨phases.ended, by simp [Process.goTo], ?_⟩
    intro one two
    have gone := phases.alone one two
    simp [running] at gone
  | main =>
    have saving := place_main here
    refine ⟨?_, by simp [Process.goTo], ?_⟩
    · intro _
      exact phases.ended (by simp [saving])
    · intro _ _
      exact phases.alone (by simp [saving]) (by simp [saving])

theorem phases_leave {stats : Stats} {mutex : Option Owner} {calls : List Call} {old : Saving}
    (phases : Phases process) (here : process.place caller = some old) :
    Phases { process.leave caller with stats := stats, mutex := mutex, calls := calls } := by
  cases caller with
  | saver =>
    have running := place_saver here
    refine ⟨phases.ended, by simp [Process.leave], ?_⟩
    intro one two
    have gone := phases.alone one two
    simp [running] at gone
  | main =>
    have saving := place_main here
    refine ⟨?_, by simp [Process.leave], ?_⟩
    · intro _
      exact phases.ended (by simp [saving])
    · intro _ _
      exact phases.alone (by simp [saving]) (by simp [saving])

theorem alone_inside {owner another : Owner} (orderly : Orderly config process)
    (here : process.Inside owner) (there : process.Inside another) : owner = another := by
  have first := (orderly.mutex owner).mpr here
  rw [(orderly.mutex another).mpr there] at first
  exact (Option.some.inj first).symm

theorem orderly_receiver {receiver : Receiver} {received : List Record}
    (orderly : Orderly config process) (running : process.receiver ≠ .ended)
    (outside : ∀ recvTime msg, process.receiver ≠ .adding recvTime msg)
    (stays : ∀ recvTime msg, receiver ≠ .adding recvTime msg)
    (all : added process.calls ++ pending receiver = received) :
    Orderly config { process with receiver := receiver, received := received } := by
  refine ⟨orderly.stats, all, ?_, orderly.found, phases_receiver orderly.phases running⟩
  rintro (_ | caller)
  · refine (orderly.mutex .server).trans (iff_of_false ?_ ?_)
    · rintro ⟨recvTime, msg, adding⟩
      exact outside recvTime msg adding
    · rintro ⟨recvTime, msg, adding⟩
      exact stays recvTime msg adding
  · exact orderly.mutex (.caller caller)

theorem orderly_receive {recvTime : Int64} {msg : Message} (orderly : Orderly config process)
    (here : process.receiver = .receiving) :
    Orderly config
      { process with
        receiver := .waiting recvTime msg
        received := process.received ++ [recordOf recvTime msg] } := by
  have all := orderly.received
  rw [here, pending, List.append_nil] at all
  apply orderly_receiver orderly (by simp [here]) (by simp [here]) (by simp)
  rw [all]
  rfl

theorem orderly_stop (orderly : Orderly config process) (here : process.receiver = .receiving) :
    Orderly config { process with receiver := .ended } := by
  have all := orderly.received
  rw [here] at all
  exact orderly_receiver orderly (by simp [here]) (by simp [here]) (by simp) all

theorem orderly_lock {recvTime : Int64} {msg : Message} (orderly : Orderly config process)
    (here : process.receiver = .waiting recvTime msg) (free : process.mutex = none) :
    Orderly config { process with receiver := .adding recvTime msg, mutex := some .server } := by
  refine ⟨orderly.stats, ?_, ?_, orderly.found, phases_receiver orderly.phases (by simp [here])⟩
  · have all := orderly.received
    rw [here] at all
    exact all
  · rintro (_ | caller)
    · exact iff_of_true rfl ⟨recvTime, msg, rfl⟩
    · refine iff_of_false (by simp) ?_
      intro inside
      have held := (orderly.mutex (.caller caller)).mpr inside
      rw [free] at held
      cases held

theorem orderly_add {recvTime : Int64} {msg : Message} (orderly : Orderly config process)
    (here : process.receiver = .adding recvTime msg) :
    Orderly config
      { process with
        stats := processJsonMessage recvTime msg process.stats
        mutex := none
        receiver := .receiving
        calls := process.calls ++ [.process recvTime msg] } := by
  refine ⟨?_, ?_, ?_, ?_, phases_receiver orderly.phases (by simp [here])⟩
  · rw [runCalls_snoc, orderly.stats]
    rfl
  · have all := orderly.received
    rw [here] at all
    rw [added_append, ← all]
    simp [added, pending]
  · rintro (_ | caller)
    · exact iff_of_false (by simp) (by simp [Process.Inside])
    · refine iff_of_false (by simp) ?_
      intro inside
      cases @alone_inside config process .server (.caller caller) orderly ⟨recvTime, msg, here⟩ inside
  · intro caller _
    simp [processJsonMessage]

theorem orderly_wake (orderly : Orderly config process) (here : process.saver = .sleeping) :
    Orderly config { process with saver := .saving .looking } := by
  refine ⟨orderly.stats, orderly.received, ?_, ?_, orderly.phases.ended, by simp, ?_⟩
  · rintro (_ | _ | _)
    · exact orderly.mutex .server
    · refine (orderly.mutex (.caller .saver)).trans ?_
      simp [Process.Inside, Process.place, here]
    · exact orderly.mutex (.caller .main)
  · rintro (_ | _) saving
    · simp [Process.place] at saving
    · exact orderly.found .main saving
  · intro one two
    have gone := orderly.phases.alone one two
    simp [here] at gone

theorem orderly_outside {after : Process} (orderly : Orderly config process)
    (here : process.place caller ≠ some .writing) (stays : after.place caller ≠ some .writing)
    (others : ∀ other, other ≠ caller → after.place other = process.place other)
    (same : after.stats = process.stats ∧ after.mutex = process.mutex ∧
      after.receiver = process.receiver ∧ after.received = process.received)
    (calls : runCalls config after.calls = runCalls config process.calls ∧
      added after.calls = added process.calls)
    (waits : after.place caller = some .waiting → process.stats.messages ≠ [])
    (phases : Phases after) : Orderly config after := by
  obtain ⟨stats, mutex, receiver, received⟩ := same
  constructor
  · rw [stats, calls.1, orderly.stats]
  · rw [calls.2, receiver, received, orderly.received]
  · rw [mutex]
    rintro (_ | other)
    · rw [orderly.mutex]
      simp only [Process.Inside, receiver]
    · rw [orderly.mutex]
      by_cases different : other = caller
      · subst different
        exact iff_of_false here stays
      · simp only [Process.Inside, others other different]
  · intro other saving
    rw [stats]
    by_cases different : other = caller
    · subst different
      exact waits (saving.resolve_right stays)
    · rw [others other different] at saving
      exact orderly.found other saving
  · exact phases

theorem leave_fields : (process.leave caller).stats = process.stats ∧
    (process.leave caller).mutex = process.mutex ∧
    (process.leave caller).receiver = process.receiver ∧
    (process.leave caller).received = process.received := by
  cases caller <;> exact ⟨rfl, rfl, rfl, rfl⟩

theorem goTo_fields : (process.goTo place caller).stats = process.stats ∧
    (process.goTo place caller).mutex = process.mutex ∧
    (process.goTo place caller).receiver = process.receiver ∧
    (process.goTo place caller).received = process.received ∧
    (process.goTo place caller).calls = process.calls := by
  cases caller <;> exact ⟨rfl, rfl, rfl, rfl, rfl⟩

theorem orderly_look (orderly : Orderly config process)
    (here : process.place caller = some .looking) : Orderly config (look caller process) := by
  have outside : process.place caller ≠ some .writing := by simp [here]
  unfold look
  split
  · rename_i empty
    have gone : (process.leave caller).place caller = none := place_leave
    obtain ⟨stats, mutex, receiver, received⟩ := @leave_fields process caller
    apply orderly_outside orderly outside
    · exact fun writing => absurd (gone.symm.trans writing) (by simp)
    · exact fun other different => place_leave_other different
    · exact ⟨stats, mutex, receiver, received⟩
    · constructor
      · rw [runCalls_snoc, ← orderly.stats]
        exact if_pos empty
      · rw [added_append]
        exact List.append_nil _
    · exact fun waiting => absurd (gone.symm.trans waiting) (by simp)
    · exact phases_leave orderly.phases here
  · rename_i some_messages
    obtain ⟨stats, mutex, receiver, received, calls⟩ := @goTo_fields process caller .waiting
    apply orderly_outside orderly outside
    · rw [place_goTo]
      simp
    · exact fun other different => place_goTo_other different
    · exact ⟨stats, mutex, receiver, received⟩
    · rw [calls]
      exact ⟨rfl, rfl⟩
    · exact fun _ => some_messages
    · exact phases_goTo orderly.phases here

theorem orderly_enter (orderly : Orderly config process)
    (here : process.place caller = some .waiting) (free : process.mutex = none) :
    Orderly config { process.goTo .writing caller with mutex := some (.caller caller) } := by
  have empty : ∀ owner, ¬ process.Inside owner := by
    intro owner inside
    rw [← orderly.mutex, free] at inside
    cases inside
  obtain ⟨stats, mutex, receiver, received, calls⟩ := @goTo_fields process caller .writing
  have there : (process.goTo .writing caller).place caller = some .writing := place_goTo
  have others : ∀ other, other ≠ caller →
      (process.goTo .writing caller).place other = process.place other :=
    fun other different => place_goTo_other different
  constructor
  · dsimp only
    rw [stats, calls, orderly.stats]
  · dsimp only
    rw [calls, receiver, received, orderly.received]
  · rintro (_ | other)
    · refine iff_of_false (by simp) ?_
      intro inside
      apply empty .server
      simp only [Process.Inside, receiver] at inside
      exact inside
    · by_cases different : other = caller
      · subst different
        exact iff_of_true rfl there
      · refine iff_of_false (by simpa using Ne.symm different) ?_
        intro inside
        exact empty (.caller other) ((others other different).symm.trans inside)
  · intro other saving
    dsimp only
    rw [stats]
    by_cases different : other = caller
    · subst different
      exact orderly.found other (Or.inl here)
    · apply orderly.found other
      rw [← others other different]
      exact saving
  · exact phases_goTo orderly.phases here

theorem orderly_save {fopenOk : Bool} {now : CString} (orderly : Orderly config process)
    (here : process.place caller = some .writing) :
    Orderly config (save config caller fopenOk now process) := by
  have some_messages := orderly.found caller (Or.inr here)
  have gone : (process.leave caller).place caller = none := place_leave
  have others : ∀ other, other ≠ caller → (process.leave caller).place other = process.place other :=
    fun other different => place_leave_other different
  obtain ⟨-, -, receiver, received⟩ := @leave_fields process caller
  constructor
  · dsimp only [save]
    rw [runCalls_snoc, ← orderly.stats]
    exact (save_locked some_messages).symm
  · dsimp only [save]
    rw [added_append, receiver, received, ← orderly.received]
    simp [added]
  · rintro (_ | other)
    · refine iff_of_false (by simp [save]) ?_
      intro inside
      simp only [Process.Inside, save, receiver] at inside
      cases @alone_inside config process .server (.caller caller) orderly inside here
    · refine iff_of_false (by simp [save]) ?_
      intro inside
      by_cases different : other = caller
      · subst different
        exact absurd (gone.symm.trans inside) (by simp)
      · have also : process.Inside (.caller other) := (others other different).symm.trans inside
        have same : Owner.caller other = .caller caller := alone_inside orderly also here
        exact different (Owner.caller.inj same)
  · intro other saving
    by_cases different : other = caller
    · subst different
      rcases saving with waiting | writing
      · exact absurd (gone.symm.trans waiting) (by simp)
      · exact absurd (gone.symm.trans writing) (by simp)
    · rcases saving with waiting | writing
      · exact absurd (one_saves orderly.phases here ((others other different).symm.trans waiting))
          (Ne.symm different)
      · exact absurd (one_saves orderly.phases here ((others other different).symm.trans writing))
          (Ne.symm different)
  · exact phases_leave orderly.phases here

theorem orderly_main {main : MainThread} (orderly : Orderly config process)
    (before : process.place .main = none)
    (now : ({ process with main := main } : Process).place .main ≠ some .waiting ∧
      ({ process with main := main } : Process).place .main ≠ some .writing)
    (phases : Phases { process with main := main }) : Orderly config { process with main := main } := by
  apply @orderly_outside _ process .main _ orderly
  · simp [before]
  · exact now.2
  · rintro (_ | _) different
    · rfl
    · exact absurd rfl different
  · exact ⟨rfl, rfl, rfl, rfl⟩
  · exact ⟨rfl, rfl⟩
  · exact fun waiting => absurd waiting now.1
  · exact phases

theorem orderly_cancel (orderly : Orderly config process) (here : process.main = .joiningServer)
    (ended : process.receiver = .ended) : Orderly config { process with main := .joiningSaver } := by
  apply orderly_main orderly
  · simp only [Process.place, here]
  · simp [Process.place]
  · exact ⟨fun _ => ended, by simp, by simp⟩

theorem orderly_joined (orderly : Orderly config process) (here : process.main = .joiningSaver)
    (canceled : process.saver = .canceled) :
    Orderly config { process with main := .saving .looking } := by
  apply orderly_main orderly
  · simp only [Process.place, here]
  · simp [Process.place]
  · exact ⟨fun _ => orderly.phases.ended (by simp [here]), by simp, fun _ _ => canceled⟩

theorem orderly_sendStop (orderly : Orderly config process) (here : process.main = .sleeping) :
    Orderly config { process with main := .finished } := by
  apply orderly_main orderly
  · simp only [Process.place, here]
  · simp [Process.place]
  · exact ⟨fun _ => orderly.phases.ended (by simp [here]), by simp,
      fun _ _ => orderly.phases.alone (by simp [here]) (by simp [here])⟩

theorem orderly_asleep (orderly : Orderly config process) (asked : process.main = .joiningSaver)
    (here : process.saver = .sleeping) : Orderly config { process with saver := .canceled } := by
  apply @orderly_outside _ process .saver _ orderly
  · simp [Process.place, here]
  · simp [Process.place]
  · rintro (_ | _) different
    · exact absurd rfl different
    · rfl
  · exact ⟨rfl, rfl, rfl, rfl⟩
  · exact ⟨rfl, rfl⟩
  · simp [Process.place]
  · exact ⟨orderly.phases.ended, fun _ => by simp [asked], fun _ _ => rfl⟩

/-- Nobody unlocks the mutex any more, and main does not get past it. -/
structure Blocked (process : Process) : Prop where
  canceled : process.saver = .canceled
  held : process.mutex = some (.caller .saver)
  ended : process.receiver = .ended
  some_messages : process.stats.messages ≠ []
  main : process.main = .joiningSaver ∨ process.main = .saving .looking ∨
    process.main = .saving .waiting

theorem blocked_inside {now : CString} {left : Option FileContent} (orderly : Orderly config process)
    (asked : process.main = .joiningSaver) (here : process.saver = .saving .writing) :
    Blocked { process with saver := .canceled, stats := cutOff config now left process.stats } := by
  have writing : process.place .saver = some .writing := by simp only [Process.place, here]
  exact ⟨rfl, (orderly.mutex (.caller .saver)).mpr writing, orderly.phases.ended (by simp [asked]),
    orderly.found .saver (Or.inr writing), Or.inl asked⟩

theorem orderly_step {event : Event} (orderly : Orderly config process)
    (taken : Taken config process event next) : Orderly config next ∨ Blocked next := by
  cases taken with
  | receive recvTime msg here => exact Or.inl (orderly_receive orderly here)
  | stop here => exact Or.inl (orderly_stop orderly here)
  | lock recvTime msg here free => exact Or.inl (orderly_lock orderly here free)
  | add recvTime msg here => exact Or.inl (orderly_add orderly here)
  | wake here => exact Or.inl (orderly_wake orderly here)
  | look caller here => exact Or.inl (orderly_look orderly here)
  | enter caller here free => exact Or.inl (orderly_enter orderly here free)
  | save caller fopenOk now here => exact Or.inl (orderly_save orderly here)
  | cancel here ended => exact Or.inl (orderly_cancel orderly here ended)
  | asleep now left asked here => exact Or.inl (orderly_asleep orderly asked here)
  | inside now left asked here => exact Or.inr (blocked_inside orderly asked here)
  | joined here canceled => exact Or.inl (orderly_joined orderly here canceled)
  | sendStop here => exact Or.inl (orderly_sendStop orderly here)

theorem blocked_step {event : Event} (blocked : Blocked process)
    (taken : Taken config process event next) : Blocked next := by
  obtain ⟨canceled, held, ended, some_messages, main⟩ := blocked
  have noSaver : process.place .saver = none := by simp only [Process.place, canceled]
  cases taken with
  | receive recvTime msg here => simp [ended] at here
  | stop here => simp [ended] at here
  | lock recvTime msg here free => simp [ended] at here
  | add recvTime msg here => simp [ended] at here
  | wake here => simp [canceled] at here
  | look caller here =>
    cases caller with
    | saver => simp [noSaver] at here
    | main =>
      rw [look, if_neg some_messages]
      exact ⟨canceled, held, ended, some_messages, Or.inr (Or.inr rfl)⟩
  | enter caller here free => simp [held] at free
  | save caller fopenOk now here =>
    cases caller with
    | saver => simp [noSaver] at here
    | main => simp [place_main here] at main
  | cancel here _ => simp [here] at main
  | asleep now left asked here => simp [canceled] at here
  | inside now left asked here => simp [canceled] at here
  | joined here _ => exact ⟨canceled, held, ended, some_messages, Or.inr (Or.inl rfl)⟩
  | sendStop here => simp [here] at main

theorem reachable_settled (reached : Runs.Reachable (step config) start process) :
    Orderly config process ∨ Blocked process := by
  have kept : ∀ before event after, Orderly config before ∨ Blocked before →
      step config before event = some after → Orderly config after ∨ Blocked after := by
    intro before event after settled moved
    have taken := step_taken moved
    rcases settled with orderly | blocked
    · exact orderly_step orderly taken
    · exact Or.inr (blocked_step blocked taken)
  exact Runs.reachable_invariant kept (Or.inl (orderly_start config)) reached

theorem orderly_not_stuck (orderly : Orderly config process) : ¬ Stuck process := by
  rintro ⟨canceled, held⟩
  have writing : process.place .saver = some .writing := (orderly.mutex (.caller .saver)).mp held
  simp [Process.place, canceled] at writing

theorem blocked_not_finished (blocked : Blocked process)
    (reached : Runs.Reachable (step config) process next) : next.main ≠ .finished := by
  have still : Blocked next :=
    Runs.reachable_invariant (fun _ _ _ blocked moved => blocked_step blocked (step_taken moved))
      blocked reached
  intro finished
  have main := still.main
  simp [finished] at main

end Steps

end RealMQ.ServerShutdown
