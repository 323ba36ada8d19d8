import RealMQ.ClientThread

/- The client_thread instances of one client from their start to their end, in the QoS build, with
   the responder between them. Any of the threads that has sent its num_messages messages stops
   all of them; one whose send fails leaves by itself. Allocations succeed, and so do the resends,
   whose failure would end the process; int counters do not overflow. signalled is not a variable
   of the source: the process got a SIGINT. -/
namespace RealMQ.ClientShutdown
open CStrings DynamicArrays Marshalling ClientThread

/-- How a thread ends: after the loop, or with a START or a message that could not be sent. -/
inductive Exit where
  | finished
  | startFailed
  | sendFailed
  deriving DecidableEq

/-- Where a thread is: before its START, at the head of the message loop, in a turn that will
    send, waiting for the array to be empty, in the loop that sends STOP, or at its end. -/
inductive Phase where
  | starting
  | head
  | turning
  | waiting
  | stopping (sent : Nat)
  | ended (exit : Exit)

structure Sender where
  phase : Phase
  countMsg : Nat

structure Process (n : Nat) where
  client : Client
  interrupted : Bool
  signalled : Bool
  gCountMsg : Nat
  sender : Fin n → Sender

inductive Event (n : Nat) where
  | begin (i : Fin n) (sent : Bool)
  | look (i : Fin n)
  | skip (i : Fin n)
  | heartbeat (i : Fin n)
  | send (i : Fin n) (now : Int64) (content : CString)
  | fail (i : Fin n) (now : Int64) (content : CString)
  | check (i : Fin n)
  | stop (i : Fin n)
  | respond (clock : Nat → Int64) (buffer : CString)
  | signal

variable {n : Nat}

def Process.replace (i : Fin n) (sender : Sender) (process : Process n) : Process n :=
  { process with sender := Function.update process.sender i sender }

def Process.move (i : Fin n) (phase : Phase) (process : Process n) : Process n :=
  process.replace i { process.sender i with phase := phase }

/-- Without a START the thread returns before it has counted anything. -/
def begin (i : Fin n) (sent : Bool) (process : Process n) : Process n :=
  if sent then process.move i .head else process.move i (.ended .startFailed)

def leave (i : Fin n) (exit : Exit) (process : Process n) : Process n :=
  { process.move i (.ended exit) with
    gCountMsg := process.gCountMsg + (process.sender i).countMsg }

def look (numMessages : Int) (i : Fin n) (process : Process n) : Process n :=
  if process.interrupted then leave i .finished process
  else if ((process.sender i).countMsg : Int) = numMessages then process.move i .waiting
  else process.move i .turning

def send (i : Fin n) (now : Int64) (content : CString) (process : Process n) : Process n :=
  { process.replace i ⟨.head, (process.sender i).countMsg + 1⟩ with
    client := sendMessage now content process.client }

/-- The message is in the array, but was not sent. -/
def fail (i : Fin n) (now : Int64) (content : CString) (process : Process n) : Process n :=
  leave i .sendFailed { process with
    client :=
      { sendMessage now content process.client with transmitted := process.client.transmitted } }

def check (i : Fin n) (process : Process n) : Process n :=
  if process.client.gArray.size = 0 then process.move i (.stopping 0)
  else { process with client := sendHeartbeat process.client }

/-- One turn of the loop that sends STOP, which calls handle_interrupt. -/
def stop (i : Fin n) (sent : Nat) (process : Process n) : Process n :=
  let stopped := { process with
    client := { process.client with transmitted := process.client.transmitted ++ [stopText] }
    interrupted := true }
  if sent + 1 < 3 then stopped.move i (.stopping (sent + 1)) else leave i .finished stopped

def step (numMessages : Int) (process : Process n) : Event n → Option (Process n)
  | .begin i sent =>
      match (process.sender i).phase with
      | .starting => some (begin i sent process)
      | _ => none
  | .look i =>
      match (process.sender i).phase with
      | .head => some (look numMessages i process)
      | _ => none
  | .skip i =>
      match (process.sender i).phase with
      | .turning => some (process.move i .head)
      | _ => none
  | .heartbeat i =>
      match (process.sender i).phase with
      | .turning => some { process with client := sendHeartbeat process.client }
      | _ => none
  | .send i now content =>
      match (process.sender i).phase with
      | .turning => some (send i now content process)
      | _ => none
  | .fail i now content =>
      match (process.sender i).phase with
      | .turning => some (fail i now content process)
      | _ => none
  | .check i =>
      match (process.sender i).phase with
      | .waiting => some (check i process)
      | _ => none
  | .stop i =>
      match (process.sender i).phase with
      | .stopping sent => some (stop i sent process)
      | _ => none
  | .respond clock buffer =>
      (ClientThread.step process.client (.respond clock buffer)).map fun client =>
        { process with client := client }
  | .signal => some { process with interrupted := true, signalled := true }

inductive Taken (numMessages : Int) (process : Process n) : Event n → Process n → Prop where
  | begin (i : Fin n) (sent : Bool) (here : (process.sender i).phase = .starting) :
      Taken numMessages process (.begin i sent) (begin i sent process)
  | look (i : Fin n) (here : (process.sender i).phase = .head) :
      Taken numMessages process (.look i) (look numMessages i process)
  | skip (i : Fin n) (here : (process.sender i).phase = .turning) :
      Taken numMessages process (.skip i) (process.move i .head)
  | heartbeat (i : Fin n) (here : (process.sender i).phase = .turning) :
      Taken numMessages process (.heartbeat i) { process with client := sendHeartbeat process.client }
  | send (i : Fin n) (now : Int64) (content : CString) (here : (process.sender i).phase = .turning) :
      Taken numMessages process (.send i now content) (send i now content process)
  | fail (i : Fin n) (now : Int64) (content : CString) (here : (process.sender i).phase = .turning) :
      Taken numMessages process (.fail i now content) (fail i now content process)
  | check (i : Fin n) (here : (process.sender i).phase = .waiting) :
      Taken numMessages process (.check i) (check i process)
  | stop (i : Fin n) (sent : Nat) (here : (process.sender i).phase = .stopping sent) :
      Taken numMessages process (.stop i) (stop i sent process)
  | respond (clock : Nat → Int64) (buffer : CString) (client : Client)
      (done : ClientThread.step process.client (.respond clock buffer) = some client) :
      Taken numMessages process (.respond clock buffer) { process with client := client }
  | signal : Taken numMessages process .signal { process with interrupted := true, signalled := true }

theorem step_taken {numMessages : Int} {process next : Process n} {event : Event n}
    (moved : step numMessages process event = some next) : Taken numMessages process event next := by
  cases event with
  | respond clock buffer =>
    obtain ⟨client, done, rfl⟩ := Option.map_eq_some_iff.mp moved
    exact .respond clock buffer client done
  | signal =>
    obtain rfl := Option.some.inj moved
    exact .signal
  | _ =>
    simp only [step] at moved
    split at moved
    · rename_i here
      obtain rfl := Option.some.inj moved
      constructor
      exact here
    · cases moved

def start : Process n := ⟨startClient, false, false, 0, fun _ => ⟨.starting, 0⟩⟩

structure Sound (numMessages : Int) (interrupted : Bool) (sender : Sender) : Prop where
  bounded : 0 ≤ numMessages → (sender.countMsg : Int) ≤ numMessages
  starting : sender.phase = .starting → sender.countMsg = 0
  turning : sender.phase = .turning → (sender.countMsg : Int) ≠ numMessages
  waiting : sender.phase = .waiting → (sender.countMsg : Int) = numMessages
  stopping : ∀ sent, sender.phase = .stopping sent → (sender.countMsg : Int) = numMessages
  ended : sender.phase = .ended .finished → interrupted = true

def Through : Phase → Prop
  | .stopping _ => True
  | .ended exit => exit = .finished
  | _ => False

def counted (sender : Sender) : Nat :=
  match sender.phase with
  | .ended _ => sender.countMsg
  | _ => 0

/-- The message that the thread put into the array and could not send. -/
def unsent (sender : Sender) : Nat :=
  match sender.phase with
  | .ended .sendFailed => 1
  | _ => 0

def created (sender : Sender) : Nat := sender.countMsg + unsent sender

structure Shutdown (numMessages : Int) (process : Process n) : Prop where
  made : process.client.created.length = ∑ i, created (process.sender i)
  counted : process.gCountMsg = ∑ i, counted (process.sender i)
  sound : ∀ i, Sound numMessages process.interrupted (process.sender i)
  cause : process.interrupted = true → process.signalled = true ∨
    stopText ∈ process.client.transmitted ∧
      ∃ i, Through (process.sender i).phase ∧ ((process.sender i).countMsg : Int) = numMessages

theorem sum_replace (f : Sender → Nat) (sender : Fin n → Sender) (i : Fin n) (new : Sender) :
    ∑ j, f (Function.update sender i new j) + f (sender i) = ∑ j, f (sender j) + f new := by
  have others : ∑ j ∈ Finset.univ.erase i, f (Function.update sender i new j) =
      ∑ j ∈ Finset.univ.erase i, f (sender j) := by
    apply Finset.sum_congr rfl
    intro j member
    rw [Function.update_of_ne (Finset.ne_of_mem_erase member)]
  rw [← Finset.add_sum_erase _ _ (Finset.mem_univ i), others, Function.update_self,
    ← Finset.add_sum_erase Finset.univ (fun j => f (sender j)) (Finset.mem_univ i)]
  omega

section Steps
variable {numMessages : Int} {process next : Process n} {i : Fin n}

theorem shutdown_replace {new : Sender} {client : Client} {interrupted : Bool} {gCountMsg : Nat}
    (before : Shutdown numMessages process)
    (made : client.created.length + created (process.sender i) =
      process.client.created.length + created new)
    (added : gCountMsg + counted (process.sender i) = process.gCountMsg + counted new)
    (sound : Sound numMessages interrupted new)
    (kept : process.interrupted = true → interrupted = true)
    (texts : stopText ∈ process.client.transmitted → stopText ∈ client.transmitted)
    (through : Through (process.sender i).phase →
      Through new.phase ∧ new.countMsg = (process.sender i).countMsg)
    (fresh : interrupted = true → process.interrupted = true ∨
      stopText ∈ client.transmitted ∧ Through new.phase ∧ (new.countMsg : Int) = numMessages) :
    Shutdown numMessages ⟨client, interrupted, process.signalled, gCountMsg,
      Function.update process.sender i new⟩ := by
  have counts := sum_replace ClientShutdown.created process.sender i new
  have totals := sum_replace ClientShutdown.counted process.sender i new
  have madeBefore := before.made
  have countedBefore := before.counted
  constructor
  · dsimp only
    omega
  · dsimp only
    omega
  · intro j
    dsimp only
    by_cases same : j = i
    · subst same
      rw [Function.update_self]
      exact sound
    · rw [Function.update_of_ne same]
      have old := before.sound j
      exact ⟨old.bounded, old.starting, old.turning, old.waiting, old.stopping, fun ended => kept (old.ended ended)⟩
  · intro up
    rcases fresh up with earlier | ⟨sent, here, all⟩
    · refine (before.cause earlier).imp_right ?_
      rintro ⟨sent, j, there, all⟩
      refine ⟨texts sent, j, ?_⟩
      by_cases same : j = i
      · subst same
        obtain ⟨still, count⟩ := through there
        dsimp only
        rw [Function.update_self, count]
        exact ⟨still, all⟩
      · dsimp only
        rw [Function.update_of_ne same]
        exact ⟨there, all⟩
    · refine Or.inr ⟨sent, i, ?_⟩
      dsimp only
      rw [Function.update_self]
      exact ⟨here, all⟩

def Running (phase : Phase) : Prop := ∀ exit, phase ≠ .ended exit

theorem counted_running {sender : Sender} (running : Running sender.phase) : counted sender = 0 := by
  unfold counted
  split
  · rename_i exit ended
    exact absurd ended (running exit)
  · rfl

theorem created_running {sender : Sender} (running : Running sender.phase) :
    created sender = sender.countMsg := by
  unfold created unsent
  split
  · rename_i ended
    exact absurd ended (running .sendFailed)
  · rfl

theorem shutdown_client {client : Client} (before : Shutdown numMessages process)
    (created : client.created = process.client.created)
    (texts : stopText ∈ process.client.transmitted → stopText ∈ client.transmitted) :
    Shutdown numMessages { process with client := client } := by
  refine ⟨?_, before.counted, before.sound, ?_⟩
  · dsimp only
    rw [created]
    exact before.made
  · intro up
    exact (before.cause up).imp_right (And.imp_left texts)

theorem shutdown_move {phase : Phase} (before : Shutdown numMessages process)
    (running : Running (process.sender i).phase) (goes : Running phase)
    (onward : Through (process.sender i).phase → Through phase)
    (sound : Sound numMessages process.interrupted { process.sender i with phase := phase }) :
    Shutdown numMessages (process.move i phase) := by
  have idle : counted { process.sender i with phase := phase } = 0 := counted_running goes
  have same : created { process.sender i with phase := phase } = (process.sender i).countMsg :=
    created_running goes
  apply shutdown_replace before
  · rw [created_running running, same]
  · rw [counted_running running, idle]
  · exact sound
  · exact id
  · exact id
  · exact fun there => ⟨onward there, rfl⟩
  · exact Or.inl

theorem shutdown_leave (before : Shutdown numMessages process)
    (running : Running (process.sender i).phase) (up : process.interrupted = true) :
    Shutdown numMessages (leave i .finished process) := by
  apply shutdown_replace before
  · rw [created_running running]
    rfl
  · rw [counted_running running]
    rfl
  · exact ⟨(before.sound i).bounded, by simp, by simp, by simp, by simp, fun _ => up⟩
  · exact id
  · exact id
  · exact fun _ => ⟨rfl, rfl⟩
  · exact Or.inl

theorem shutdown_begin {sent : Bool} (before : Shutdown numMessages process)
    (here : (process.sender i).phase = .starting) : Shutdown numMessages (begin i sent process) := by
  have old := before.sound i
  have running : Running (process.sender i).phase := by
    intro exit ended
    rw [here] at ended
    cases ended
  have away : ¬ Through (process.sender i).phase := by rw [here]; exact id
  have none := old.starting here
  unfold begin
  split
  · exact shutdown_move before running (fun exit => by simp) (fun there => absurd there away)
      ⟨old.bounded, by simp, by simp, by simp, by simp, by simp⟩
  · apply shutdown_replace before
    · rw [created_running running]
      rfl
    · rw [counted_running running]
      show process.gCountMsg + 0 = process.gCountMsg + (process.sender i).countMsg
      rw [none]
    · exact ⟨old.bounded, by simp, by simp, by simp, by simp, by simp⟩
    · exact id
    · exact id
    · exact fun there => absurd there away
    · exact Or.inl

theorem shutdown_look (before : Shutdown numMessages process)
    (here : (process.sender i).phase = .head) : Shutdown numMessages (look numMessages i process) := by
  have old := before.sound i
  have running : Running (process.sender i).phase := by simp [Running, here]
  have away : ¬ Through (process.sender i).phase := by rw [here]; exact id
  unfold look
  split
  · rename_i up
    exact shutdown_leave before running up
  · split
    · rename_i all
      exact shutdown_move before running (by simp [Running]) (fun there => absurd there away)
        ⟨old.bounded, by simp, by simp, fun _ => all, by simp, by simp⟩
    · rename_i more
      exact shutdown_move before running (by simp [Running]) (fun there => absurd there away)
        ⟨old.bounded, by simp, fun _ => more, by simp, by simp, by simp⟩

theorem shutdown_send {now : Int64} {content : CString} (before : Shutdown numMessages process)
    (here : (process.sender i).phase = .turning) :
    Shutdown numMessages (send i now content process) := by
  have old := before.sound i
  have more := old.turning here
  have running : Running (process.sender i).phase := by simp [Running, here]
  apply shutdown_replace before
  · rw [created_running running]
    simp only [sendMessage, List.length_append, List.length_singleton, created, unsent]
    omega
  · rw [counted_running running]
    rfl
  · refine ⟨?_, by simp, by simp, by simp, by simp, by simp⟩
    intro nonneg
    have bounded := old.bounded nonneg
    push_cast
    omega
  · exact id
  · exact List.mem_append_left _
  · rw [here]
    exact False.elim
  · exact Or.inl

theorem shutdown_fail {now : Int64} {content : CString} (before : Shutdown numMessages process)
    (here : (process.sender i).phase = .turning) :
    Shutdown numMessages (fail i now content process) := by
  have old := before.sound i
  have running : Running (process.sender i).phase := by simp [Running, here]
  apply shutdown_replace before
  · show (process.client.created ++ [_]).length + created (process.sender i) =
      process.client.created.length + ((process.sender i).countMsg + 1)
    rw [created_running running, List.length_append, List.length_singleton]
    omega
  · rw [counted_running running]
    rfl
  · exact ⟨old.bounded, by simp, by simp, by simp, by simp, by simp⟩
  · exact id
  · exact id
  · rw [here]
    exact False.elim
  · exact Or.inl

theorem shutdown_check (before : Shutdown numMessages process)
    (here : (process.sender i).phase = .waiting) : Shutdown numMessages (check i process) := by
  have old := before.sound i
  unfold check
  split
  · exact shutdown_move before (by simp [Running, here]) (by simp [Running]) (fun _ => trivial)
      ⟨old.bounded, by simp, by simp, by simp, fun _ _ => old.waiting here, by simp⟩
  · exact shutdown_client before rfl (List.mem_append_left _)

theorem shutdown_stop {sent : Nat} (before : Shutdown numMessages process)
    (here : (process.sender i).phase = .stopping sent) :
    Shutdown numMessages (stop i sent process) := by
  have old := before.sound i
  have all := old.stopping sent here
  have running : Running (process.sender i).phase := by simp [Running, here]
  have told : Shutdown numMessages { process with
      client := { process.client with transmitted := process.client.transmitted ++ [stopText] }
      interrupted := true } := by
    have same := @shutdown_replace n numMessages process i (process.sender i)
      { process.client with transmitted := process.client.transmitted ++ [stopText] } true
      process.gCountMsg before
    rw [Function.update_eq_self] at same
    apply same
    · rfl
    · rfl
    · exact ⟨old.bounded, old.starting, old.turning, old.waiting, old.stopping, fun _ => rfl⟩
    · exact fun _ => rfl
    · exact List.mem_append_left _
    · exact fun there => ⟨there, rfl⟩
    · intro _
      refine Or.inr ⟨by simp, ?_, all⟩
      rw [here]
      trivial
  unfold stop
  split
  · exact shutdown_move told running (by simp [Running]) (fun _ => trivial)
      ⟨old.bounded, by simp, by simp, by simp, fun _ _ => all, by simp⟩
  · exact shutdown_leave told running rfl

theorem client_cases {event : Event n} (moved : step numMessages process event = some next) :
    (∃ now content texts,
      next.client = { sendMessage now content process.client with transmitted := texts }) ∨
    (∃ clock buffer, event = .respond clock buffer ∧
      ClientThread.step process.client (.respond clock buffer) = some next.client) ∨
    ∃ texts, next.client = { process.client with transmitted := process.client.transmitted ++ texts } := by
  have same : process.client =
      { process.client with transmitted := process.client.transmitted ++ [] } := by simp
  cases step_taken moved with
  | begin i sent here =>
    refine Or.inr (Or.inr ⟨[], ?_⟩)
    unfold begin
    split <;> exact same
  | look i here =>
    refine Or.inr (Or.inr ⟨[], ?_⟩)
    unfold look
    split
    · exact same
    · split <;> exact same
  | skip i here => exact Or.inr (Or.inr ⟨[], same⟩)
  | heartbeat i here => exact Or.inr (Or.inr ⟨_, rfl⟩)
  | send i now content here => exact Or.inl ⟨now, content, _, rfl⟩
  | fail i now content here => exact Or.inl ⟨now, content, _, rfl⟩
  | check i here =>
    unfold check
    split
    · exact Or.inr (Or.inr ⟨[], same⟩)
    · exact Or.inr (Or.inr ⟨_, rfl⟩)
  | stop i sent here =>
    refine Or.inr (Or.inr ⟨[stopText], ?_⟩)
    unfold stop
    split <;> rfl
  | respond clock buffer client done => exact Or.inr (Or.inl ⟨clock, buffer, rfl, done⟩)
  | signal => exact Or.inr (Or.inr ⟨[], same⟩)

theorem conserved_process {event : Event n} (before : Conserved process.client)
    (moved : step numMessages process event = some next) : Conserved next.client := by
  rcases client_cases moved with ⟨now, content, texts, eq⟩ | ⟨clock, buffer, -, done⟩ | ⟨texts, eq⟩
  · have sent : Conserved (sendMessage now content process.client) :=
      conserved_step before (show ClientThread.step process.client (.send now content) = _ from rfl)
    rw [eq]
    exact ⟨sent.counter, sent.fresh, sent.split, sent.counted⟩
  · exact conserved_step before done
  · rw [eq]
    exact ⟨before.counter, before.fresh, before.split, before.counted⟩

theorem respond_shares {client : Client} {clock : Nat → Int64} {buffer : CString}
    (done : ClientThread.step process.client (.respond clock buffer) = some client) :
    client.created = process.client.created ∧
      (∀ d ∈ process.client.transmitted, d ∈ client.transmitted) ∧
      client.gArray.size ≤ process.client.gArray.size := by
  simp only [ClientThread.step] at done
  split at done
  · rcases respond_cases clock buffer process.client with ⟨-, eq⟩ | ⟨-, st, -, accounted, eq⟩
    · obtain rfl := Option.some.inj (eq.symm.trans done)
      exact ⟨rfl, fun _ => id, le_refl _⟩
    · obtain rfl := Option.some.inj (eq.symm.trans done)
      refine ⟨rfl, fun _ => List.mem_append_left _, ?_⟩
      have fewer := accounted.order.length_le
      rwa [toList_length, toList_length] at fewer
  · cases done

theorem shutdown_step {event : Event n} (before : Shutdown numMessages process)
    (moved : step numMessages process event = some next) : Shutdown numMessages next := by
  cases step_taken moved with
  | begin i sent here => exact shutdown_begin before here
  | look i here => exact shutdown_look before here
  | skip i here =>
    exact shutdown_move before (by simp [Running, here]) (by simp [Running])
      (by rw [here]; exact False.elim)
      ⟨(before.sound i).bounded, by simp, by simp, by simp, by simp, by simp⟩
  | heartbeat i here => exact shutdown_client before rfl (List.mem_append_left _)
  | send i now content here => exact shutdown_send before here
  | fail i now content here => exact shutdown_fail before here
  | check i here => exact shutdown_check before here
  | stop i sent here => exact shutdown_stop before here
  | respond clock buffer client done =>
    obtain ⟨created, texts, -⟩ := respond_shares done
    exact shutdown_client before created (texts _)
  | signal =>
    refine ⟨before.made, before.counted, ?_, fun _ => Or.inl rfl⟩
    intro i
    have old := before.sound i
    exact ⟨old.bounded, old.starting, old.turning, old.waiting, old.stopping, fun _ => rfl⟩

theorem shutdown_start : Shutdown numMessages (start : Process n) := by
  refine ⟨?_, ?_, ?_, by simp [start]⟩
  · simp [start, startClient, created, unsent]
  · simp [start, ClientShutdown.counted]
  · intro i
    exact ⟨fun nonneg => nonneg, fun _ => rfl, by simp [start], by simp [start], by simp [start],
      by simp [start]⟩

end Steps

def stoppedEarly : List (Event 2) :=
  [.begin 0 true, .begin 1 true, .look 0, .send 0 0 "a".toList, .look 1, .send 1 0 "b".toList,
    .look 0, .send 0 0 "c".toList, .look 0, .respond (fun _ => 0) "1|2|3".toList, .check 0, .stop 0,
    .look 1, .stop 0, .stop 0]

def Quiet (process : Process 1) : Prop :=
  Through (process.sender 0).phase → process.signalled = true ∨ process.client.gArray.size = 0

theorem quiet_step {numMessages : Int} {process next : Process 1} {event : Event 1}
    (books : Shutdown numMessages process) (before : Quiet process)
    (moved : step numMessages process event = some next) : Quiet next := by
  cases step_taken moved with
  | begin i sent here =>
    obtain rfl : i = 0 := Subsingleton.elim i 0
    unfold begin
    split
    · intro through
      simp [Process.move, Process.replace, Through] at through
    · intro through
      simp [Process.move, Process.replace, Through] at through
  | look i here =>
    obtain rfl : i = 0 := Subsingleton.elim i 0
    unfold look
    split
    · rename_i up
      intro _
      -- only a thread that is Through sets interrupted, and the only thread is not
      rcases books.cause up with signal | ⟨-, j, there, -⟩
      · exact Or.inl signal
      · rw [Subsingleton.elim j 0, here] at there
        exact there.elim
    · split
      · intro through
        simp [Process.move, Process.replace, Through] at through
      · intro through
        simp [Process.move, Process.replace, Through] at through
  | skip i here =>
    obtain rfl : i = 0 := Subsingleton.elim i 0
    intro through
    simp [Process.move, Process.replace, Through] at through
  | heartbeat i here => exact before
  | send i now content here =>
    obtain rfl : i = 0 := Subsingleton.elim i 0
    intro through
    simp [send, Process.replace, Through] at through
  | fail i now content here =>
    obtain rfl : i = 0 := Subsingleton.elim i 0
    intro through
    simp [fail, leave, Process.move, Process.replace, Through] at through
  | check i here =>
    unfold check
    split
    · rename_i empty
      exact fun _ => Or.inr empty
    · exact before
  | stop i sent here =>
    obtain rfl : i = 0 := Subsingleton.elim i 0
    have quiet := before (by rw [here]; trivial)
    unfold stop
    split <;> exact fun _ => quiet
  | respond clock buffer client done =>
    intro through
    refine (before through).imp_right fun empty => ?_
    have fewer := (respond_shares done).2.2
    dsimp only
    omega
  | signal => exact fun _ => Or.inl rfl

/-- A client with one thread that finishes without a signal has sent exactly num_messages messages,
    and each was acknowledged or resent. -/
theorem single_thread_complete (numMessages : Int) (events : List (Event 1)) (process : Process 1)
    (run : Runs.run (step numMessages) start events = some process)
    (finished : (process.sender 0).phase = .ended .finished)
    (unsignalled : process.signalled = false) :
    (process.gCountMsg : Int) = numMessages ∧ process.client.gArray.size = 0 ∧
      (process.client.acked ++ process.client.resent).Perm process.client.created ∧
      (process.client.acked.length + process.client.gMissedCount : Int) = numMessages := by
  have all : Shutdown numMessages process ∧ Quiet process ∧ Conserved process.client := by
    refine @Runs.run_invariant _ _ (step numMessages)
      (fun process => Shutdown numMessages process ∧ Quiet process ∧ Conserved process.client)
      ?_ _ _ _ ⟨shutdown_start, False.elim, conserved_start⟩ run
    rintro before event after ⟨books, quiet, conserved⟩ moved
    exact ⟨shutdown_step books moved, quiet_step books quiet moved,
      conserved_process conserved moved⟩
  obtain ⟨books, quiet, conserved⟩ := all
  have empty : process.client.gArray.size = 0 := by
    rcases quiet (by rw [finished]; rfl) with signal | empty
    · rw [unsignalled] at signal
      cases signal
    · exact empty
  have none_pending : ids process.client.gArray = [] := by
    rw [← List.length_eq_zero_iff, ids_length]
    exact empty
  have split := conserved.split
  rw [none_pending, List.nil_append] at split
  have count : ((process.sender 0).countMsg : Int) = numMessages := by
    rcases books.cause ((books.sound 0).ended finished) with signal | ⟨-, j, -, all⟩
    · rw [unsignalled] at signal
      cases signal
    · rwa [Subsingleton.elim j 0] at all
  have created : process.client.created.length = (process.sender 0).countMsg := by
    rw [books.made, Fin.sum_univ_one, created, unsent, finished]
    rfl
  have total : process.gCountMsg = (process.sender 0).countMsg := by
    rw [books.counted, Fin.sum_univ_one]
    unfold counted
    rw [finished]
  have lengths := split.length_eq
  have missed := conserved.counted
  rw [List.length_append] at lengths
  exact ⟨by omega, empty, split, by omega⟩

def oneThread : List (Event 1) :=
  [.begin 0 true, .look 0, .heartbeat 0, .send 0 0 "a".toList, .look 0, .check 0,
    .respond (fun _ => 0) "1".toList, .check 0, .stop 0, .stop 0, .stop 0]

theorem single_thread_complete_one :
    ∃ process, Runs.run (step 1) start oneThread = some process ∧
      (process.gCountMsg : Int) = 1 ∧ process.client.gArray.size = 0 ∧
      (process.client.acked ++ process.client.resent).Perm process.client.created ∧
      (process.client.acked.length + process.client.gMissedCount : Int) = 1 :=
  ⟨_, rfl, single_thread_complete 1 oneThread _ rfl rfl rfl⟩

def emptySeen : List (Event 2) :=
  [.begin 0 true, .begin 1 true, .look 0, .send 0 0 "a".toList, .look 1, .send 1 0 "b".toList,
    .look 0, .send 0 0 "c".toList, .look 0, .respond (fun _ => 0) "1|2|3".toList, .check 0, .look 1,
    .send 1 0 "d".toList]

/-- A second thread may send after the first one has seen the array empty: both end, and its
    message is neither acknowledged nor resent. -/
example : (Runs.run (step 2) start (emptySeen ++ [.stop 0, .stop 0, .stop 0, .look 1])).map
    (fun process => (process.client.gArray.size, process.gCountMsg, process.client.acked.length)) =
      some (1, 4, 3) := by
  decide

end RealMQ.ClientShutdown
