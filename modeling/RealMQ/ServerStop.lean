import RealMQ.ServerShutdown

/- Whether the main of src/realmq_server.c gets to its STOP, and what the files hold then. -/
namespace RealMQ.ServerShutdown
open CStrings DynamicArrays StatsFiles

section Progress
variable {config : Config} {process : Process} {caller : Caller} {place : Saving}

def Saving.left : Saving → ℕ
  | .looking => 4
  | .waiting => 3
  | .writing => 2

def Receiver.left : Receiver → ℕ
  | .waiting _ _ => 3
  | .adding _ _ => 2
  | .receiving => 1
  | .ended => 0

def Saver.left : Saver → ℕ
  | .saving place => place.left
  | .sleeping => 1
  | .canceled => 0

def MainThread.left : MainThread → ℕ
  | .joiningServer => 6
  | .joiningSaver => 5
  | .saving place => place.left
  | .sleeping => 1
  | .finished => 0

def left (process : Process) : ℕ := process.receiver.left + process.saver.left + process.main.left

def Advances (config : Config) (process : Process) : Prop :=
  ∃ event next, step config process event = some next ∧ Orderly config next ∧ left next < left process

theorem left_goTo {old : Saving} (here : process.place caller = some old)
    {mutex : Option Owner} (less : place.left < old.left) :
    left { process.goTo place caller with mutex := mutex } < left process := by
  cases caller with
  | saver =>
    simp only [left, Process.goTo, place_saver here, Saver.left]
    omega
  | main =>
    simp only [left, Process.goTo, place_main here, MainThread.left]
    omega

theorem left_leave {old : Saving} {stats : Stats} {mutex : Option Owner} {calls : List Call}
    (here : process.place caller = some old) :
    left { process.leave caller with stats := stats, mutex := mutex, calls := calls } < left process := by
  have more : 1 < old.left := by cases old <;> decide
  cases caller with
  | saver =>
    simp only [left, Process.leave, place_saver here, Saver.left]
    omega
  | main =>
    simp only [left, Process.leave, place_main here, MainThread.left]
    omega

theorem advances_saving (orderly : Orderly config process) (here : process.place caller = some place)
    (free : process.mutex = none ∨ place = .writing) : Advances config process := by
  cases place with
  | looking =>
    refine ⟨.look caller, look caller process, by simp only [step, here], orderly_look orderly here, ?_⟩
    unfold look
    split
    · exact left_leave here
    · exact left_goTo here (by decide)
  | waiting =>
    have open_mutex : process.mutex = none := free.resolve_right (by simp)
    exact ⟨.enter caller, _, by simp only [step, here, open_mutex],
      orderly_enter orderly here open_mutex, left_goTo here (by decide)⟩
  | writing =>
    exact ⟨.save caller true [], save config caller true [] process, by simp only [step, here],
      orderly_save orderly here, left_leave here⟩

theorem advances_receiver (orderly : Orderly config process) (running : process.receiver ≠ .ended)
    (free : process.mutex = none ∨ process.Inside .server) : Advances config process := by
  cases here : process.receiver with
  | receiving =>
    refine ⟨.stop, _, by simp only [step, here], orderly_stop orderly here, ?_⟩
    simp only [left, here, Receiver.left]
    omega
  | waiting recvTime msg =>
    have open_mutex : process.mutex = none := by
      refine free.resolve_right ?_
      rintro ⟨recvTime', msg', adding⟩
      simp [here] at adding
    refine ⟨.lock, _, by simp only [step, here, open_mutex], orderly_lock orderly here open_mutex, ?_⟩
    simp only [left, here, Receiver.left]
    omega
  | adding recvTime msg =>
    refine ⟨.add, _, by simp only [step, here], orderly_add orderly here, ?_⟩
    simp only [left, here, Receiver.left]
    omega
  | ended => exact absurd here running

theorem advances_main (orderly : Orderly config process) (ended : process.receiver = .ended)
    (idle : process.place .saver = none) (free : process.mutex = none) :
    process.main = .finished ∨ Advances config process := by
  cases here : process.main with
  | joiningServer =>
    refine Or.inr ⟨.cancel, _, by simp only [step, here, ended], orderly_cancel orderly here ended, ?_⟩
    simp only [left, here, MainThread.left]
    omega
  | joiningSaver =>
    cases saver : process.saver with
    | sleeping =>
      refine Or.inr ⟨.canceled [] none, _, by simp only [step, here, saver],
        orderly_asleep orderly here saver, ?_⟩
      simp only [left, saver, Saver.left]
      omega
    | saving place => simp [Process.place, saver] at idle
    | canceled =>
      refine Or.inr ⟨.joined, _, by simp only [step, here, saver], orderly_joined orderly here saver, ?_⟩
      simp only [left, here, MainThread.left, Saving.left]
      omega
  | saving place =>
    refine Or.inr (@advances_saving _ _ .main place orderly ?_ (Or.inl free))
    simp only [Process.place, here]
  | sleeping =>
    refine Or.inr ⟨.sendStop, _, by simp only [step, here], orderly_sendStop orderly here, ?_⟩
    simp only [left, here, MainThread.left]
    omega
  | finished => exact Or.inl rfl

theorem orderly_advances (orderly : Orderly config process) :
    process.main = .finished ∨ Advances config process := by
  cases held : process.mutex with
  | none =>
    by_cases running : process.receiver = .ended
    · cases saving : process.place .saver with
      | none => exact advances_main orderly running saving held
      | some place => exact Or.inr (advances_saving orderly saving (Or.inl held))
    · exact Or.inr (advances_receiver orderly running (Or.inl held))
  | some owner =>
    have inside := (orderly.mutex owner).mp held
    cases owner with
    | server =>
      refine Or.inr (advances_receiver orderly ?_ (Or.inr inside))
      obtain ⟨recvTime, msg, adding⟩ := inside
      simp [adding]
    | caller caller => exact Or.inr (advances_saving orderly inside (Or.inr rfl))

end Progress

/-- The server can get to its STOP from every state that it reaches, except where the saver was
    canceled inside a save: then it never does. -/
theorem stop_reachable_iff (config : Config) (process : Process)
    (reached : Runs.Reachable (step config) start process) :
    (∃ final, Runs.Reachable (step config) process final ∧ final.main = .finished) ↔
      ¬ Stuck process := by
  rcases reachable_settled reached with orderly | blocked
  · refine iff_of_true ?_ (orderly_not_stuck orderly)
    obtain ⟨final, onward, -, done⟩ := Runs.reachable_goal (fun _ here => orderly_advances here) orderly
    exact ⟨final, onward, done⟩
  · refine iff_of_false ?_ (not_not_intro ⟨blocked.canceled, blocked.held⟩)
    rintro ⟨final, onward, finished⟩
    exact blocked_not_finished blocked onward finished

theorem stop_reachable_iff_canceled :
    ∃ process, Runs.Reachable (step (csvConfig "stats".toList "udp".toList)) start process ∧
      Stuck process ∧
      ¬ ∃ final, Runs.Reachable (step (csvConfig "stats".toList "udp".toList)) process final ∧
        final.main = .finished := by
  refine ⟨_, ⟨[.receive 0 ⟨1, some [], 0⟩, .lock, .add, .wake, .look .saver, .enter .saver, .stop,
    .cancel, .canceled [] none], rfl⟩, ⟨rfl, rfl⟩, ?_⟩
  rw [stop_reachable_iff _ _ ⟨[.receive 0 ⟨1, some [], 0⟩, .lock, .add, .wake, .look .saver,
    .enter .saver, .stop, .cancel, .canceled [] none], rfl⟩, not_not]
  exact ⟨rfl, rfl⟩

section Saved
variable {config : Config} {process next : Process} {caller : Caller} {calls : List Call}
  {events : List Event}

def recordsOf : List Event → List Record
  | [] => []
  | .receive recvTime msg :: events => recordOf recvTime msg :: recordsOf events
  | _ :: events => recordsOf events

theorem received_look : (look caller process).received = process.received := by
  unfold look
  split <;> cases caller <;> rfl

theorem received_step {event : Event} (moved : step config process event = some next) :
    next.received = process.received ++ recordsOf [event] := by
  cases step_taken moved with
  | receive recvTime msg here => rfl
  | look caller here =>
    rw [received_look]
    exact (List.append_nil _).symm
  | enter caller here free => cases caller <;> exact (List.append_nil _).symm
  | save caller fopenOk now here => cases caller <;> exact (List.append_nil _).symm
  | _ => exact (List.append_nil _).symm

theorem recordsOf_cons (event : Event) (events : List Event) :
    recordsOf (event :: events) = recordsOf [event] ++ recordsOf events := by
  cases event <;> rfl

theorem received_run (ran : Runs.run (step config) process events = some next) :
    next.received = process.received ++ recordsOf events := by
  induction events generalizing process with
  | nil =>
    obtain rfl := Option.some.inj ran
    exact (List.append_nil _).symm
  | cons event events ih =>
    obtain ⟨between, moved, rest⟩ := Runs.run_cons_some.mp ran
    rw [ih rest, received_step moved, recordsOf_cons event events, List.append_assoc]

/-- main has gone to sleep after its own save, or there was nothing to save for it. -/
def MainSaved (config : Config) (events : List Event) (process : Process) : Prop :=
  ∃ calls fopenOk now, process.calls = calls ++ [.save fopenOk now] ∧
    (.save .main fopenOk now ∈ events ∨ (runCalls config calls).messages = [])

theorem mainSaved_step {event : Event} (orderly : Orderly config process)
    (before : process.main = .sleeping → MainSaved config events process)
    (taken : Taken config process event next)
    (after : next.main = .sleeping ∨ next.main = .finished) :
    MainSaved config (events ++ [event]) next := by
  have gone : process.saver ≠ .canceled → ¬ (process.main = .sleeping ∨ process.main = .finished) := by
    intro running past
    apply running
    apply orderly.phases.alone <;> rcases past with main | main <;> simp [main]
  have first : process.receiver ≠ .ended →
      ¬ (process.main = .sleeping ∨ process.main = .finished) := by
    intro running past
    have main := main_running orderly.phases running
    simp [main] at past
  cases taken with
  | receive recvTime msg here => exact absurd after (first (by simp [here]))
  | stop here => exact absurd after (first (by simp [here]))
  | lock recvTime msg here free => exact absurd after (first (by simp [here]))
  | add recvTime msg here => exact absurd after (first (by simp [here]))
  | wake here => exact absurd after (gone (by simp [here]))
  | look caller here =>
    unfold look at after ⊢
    split at after
    · rename_i empty
      rw [if_pos empty]
      refine ⟨process.calls, true, [], ?_, Or.inr (by rw [← orderly.stats, empty])⟩
      cases caller <;> rfl
    · cases caller with
      | saver => exact absurd after (gone (by simp [place_saver here]))
      | main => simp [Process.goTo] at after
  | enter caller here free =>
    cases caller with
    | saver => exact absurd after (gone (by simp [place_saver here]))
    | main => simp [Process.goTo] at after
  | save caller fopenOk now here =>
    cases caller with
    | saver => exact absurd after (gone (by simp [place_saver here]))
    | main => exact ⟨process.calls, fopenOk, now, rfl, Or.inl (by simp)⟩
  | cancel here ended => simp at after
  | asleep now left asked here => simp [asked] at after
  | inside now left asked here => simp [asked] at after
  | joined here ended => simp at after
  | sendStop here =>
    obtain ⟨calls, fopenOk, now, last, saved⟩ := before here
    exact ⟨calls, fopenOk, now, last, saved.imp_left (List.mem_append_left _)⟩

theorem mainSaved_run (ran : Runs.run (step config) start events = some process)
    (past : process.main = .sleeping ∨ process.main = .finished) :
    MainSaved config events process := by
  induction events using List.reverseRecOn generalizing process with
  | nil =>
    obtain rfl := Option.some.inj ran
    simp [start] at past
  | append_singleton events event ih =>
    rw [Runs.run_append] at ran
    obtain ⟨between, earlier, last⟩ := Option.bind_eq_some_iff.mp ran
    obtain ⟨after, moved, rest⟩ := Runs.run_cons_some.mp last
    obtain rfl := Option.some.inj rest
    have taken := step_taken moved
    rcases reachable_settled ⟨events, earlier⟩ with orderly | blocked
    · exact mainSaved_step orderly (fun sleeping => ih earlier (Or.inl sleeping)) taken past
    · have main := (blocked_step blocked taken).main
      rcases past with sleeping | finished
      · simp [sleeping] at main
      · simp [finished] at main

theorem runCalls_few (few : (added calls).length < maxMessages) :
    (runCalls config calls).messages = added calls ∧ (runCalls config calls).fileCounter = 0 := by
  induction calls using List.reverseRecOn with
  | nil => exact ⟨rfl, rfl⟩
  | append_singleton calls call ih =>
    rw [added_append] at few ⊢
    rw [runCalls_snoc]
    rw [List.length_append] at few
    obtain ⟨messages, counter⟩ := ih (by omega)
    cases call with
    | process recvTime msg =>
      exact ⟨congrArg (· ++ [recordOf recvTime msg]) messages, counter⟩
    | save fopenOk now =>
      rw [added, added, List.append_nil, ← messages, ← counter]
      rw [← messages] at few
      have partly : ¬ maxMessages ≤ (runCalls config calls).messages.length := by omega
      simp only [perform, saveStatsToFile, saveLocked, if_neg partly]
      split
      · exact ⟨rfl, rfl⟩
      · split <;> exact ⟨rfl, rfl⟩

theorem saved_few {now : CString} (few : (added calls).length < maxMessages)
    (some_records : added calls ≠ []) :
    ∃ dateTime, (runCalls config (calls ++ [.save true now])).files
        (createStatsPath config dateTime 0) =
      some (if config.useJson then .json (added calls) else .csv (rowsOf (added calls))) := by
  obtain ⟨messages, counter⟩ := @runCalls_few config calls few
  rw [runCalls_snoc, perform, save_locked (by rw [messages]; exact some_records)]
  refine ⟨(runCalls config calls).dateTime.getD now, ?_⟩
  simp only [saveLocked, messages, if_neg (Nat.not_le.mpr few), counter, ↓reduceIte,
    Function.update_self]

end Saved

/-- When main sends STOP, the store is as if the calls of the three threads had come one after
    the other, with all records in the order of their arrival and the save of main at the end; if
    it could open its file, less than a file of records are all in the file with the counter 0. -/
theorem saved_at_stop (config : Config) (events : List Event) (process : Process)
    (ran : Runs.run (step config) start events = some process) (finished : process.main = .finished) :
    ∃ calls fopenOk now, process.stats = runCalls config (calls ++ [.save fopenOk now]) ∧
      added calls = recordsOf events ∧
      (.save .main fopenOk now ∈ events ∨ (runCalls config calls).messages = []) ∧
      (fopenOk = true → recordsOf events ≠ [] → (recordsOf events).length < maxMessages →
        ∃ dateTime, process.stats.files (createStatsPath config dateTime 0) =
          some (if config.useJson then .json (recordsOf events)
            else .csv (rowsOf (recordsOf events)))) := by
  rcases reachable_settled ⟨events, ran⟩ with orderly | blocked
  · obtain ⟨calls, fopenOk, now, last, saved⟩ := mainSaved_run ran (Or.inr finished)
    have all := orderly.received
    rw [received_run ran, last, orderly.phases.ended (by simp [finished]), added_append] at all
    replace all : added calls = recordsOf events := by simpa [added, pending, start] using all
    refine ⟨calls, fopenOk, now, last ▸ orderly.stats, all, saved, ?_⟩
    rintro rfl some_records few
    rw [← all] at some_records few ⊢
    rw [orderly.stats, last]
    exact saved_few few some_records
  · have main := blocked.main
    simp [finished] at main

theorem saved_at_stop_one :
    let config := csvConfig "stats".toList "udp".toList
    let events : List Event := [.wake, .receive 7 ⟨1, some [], 2⟩, .look .saver, .lock, .add, .wake,
      .look .saver, .enter .saver, .stop, .cancel, .save .saver false "now".toList,
      .canceled [] none, .joined, .look .main, .enter .main, .save .main true "now".toList, .sendStop]
    ∃ process, Runs.run (step config) start events = some process ∧
    ∃ calls fopenOk now, process.stats = runCalls config (calls ++ [.save fopenOk now]) ∧
      added calls = recordsOf events ∧
      (.save .main fopenOk now ∈ events ∨ (runCalls config calls).messages = []) ∧
      (fopenOk = true → recordsOf events ≠ [] → (recordsOf events).length < maxMessages →
        ∃ dateTime, process.stats.files (createStatsPath config dateTime 0) =
          some (if config.useJson then .json (recordsOf events)
            else .csv (rowsOf (recordsOf events)))) :=
  ⟨_, rfl, saved_at_stop _ _ _ rfl rfl⟩

end RealMQ.ServerShutdown
