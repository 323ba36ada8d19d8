import RealMQ.StartUp
import RealMQ.Foundation.Runs

/- get_address of core/config.c in several client threads at once, statement by statement, and
   what create_socket then reads through the pointer that it returned. The text of the main address
   is composed under g_ip_address_mutex, but the pointer is read after the unlock and used later.
   Allocations succeed. -/
namespace RealMQ.SharedAddress
open CStrings Heaps StartUp
open CoreConfig (fullAddress)

/-- How far the thread with the mutex is: the old text is freed, g_ip_address is NULL, or it
    points to the zeroed buffer. -/
inductive Stage where
  | freed
  | cleared
  | made
  deriving DecidableEq

inductive Phase where
  | idle
  | composed
  | returned (address : Pointer)
  deriving DecidableEq

structure Shared where
  memory : Memory
  gIpAddress : Pointer
  holder : Option (Nat × Stage)
  phase : Nat → Phase

inductive Action where
  | enter (thread : Nat)
  | clear (thread : Nat)
  | make (thread : Nat)
  | compose (thread : Nat)
  | fetch (thread : Nat)
  | createSocket (thread : Nat)

def Action.thread : Action → Nat
  | .enter thread => thread
  | .clear thread => thread
  | .make thread => thread
  | .compose thread => thread
  | .fetch thread => thread
  | .createSocket thread => thread

def Allowed (shared : Shared) : Action → Prop
  | .enter thread => shared.phase thread = .idle ∧ shared.holder = none
  | .clear thread => shared.holder = some (thread, .freed)
  | .make thread => shared.holder = some (thread, .cleared)
  | .compose thread => shared.holder = some (thread, .made)
  | .fetch thread => shared.phase thread = .composed
  | .createSocket thread => ∃ address, shared.phase thread = .returned address

def enter (thread : Nat) (shared : Shared) : Option Shared :=
  if shared.phase thread = .idle ∧ shared.holder = none then
    (free shared.memory shared.gIpAddress).map fun memory =>
      { shared with memory := memory, holder := some (thread, .freed) }
  else none

def clear (thread : Nat) (shared : Shared) : Option Shared :=
  if shared.holder = some (thread, .freed) then
    some { shared with gIpAddress := none, holder := some (thread, .cleared) }
  else none

def make (thread : Nat) (shared : Shared) : Option Shared :=
  if shared.holder = some (thread, .cleared) then
    some
      { shared with
        memory := allocate shared.memory (List.replicate 64 none)
        gIpAddress := some shared.memory.next
        holder := some (thread, .made) }
  else none

def compose (text : CString) (thread : Nat) (shared : Shared) : Option Shared :=
  if shared.holder = some (thread, .made) then
    (snprintf shared.memory shared.gIpAddress 64 text).map fun memory =>
      { shared with
        memory := memory
        holder := none
        phase := Function.update shared.phase thread .composed }
  else none

def fetch (thread : Nat) (shared : Shared) : Option Shared :=
  if shared.phase thread = .composed then
    some { shared with phase := Function.update shared.phase thread (.returned shared.gIpAddress) }
  else none

/-- The text is read; through a dangling pointer there is nothing to read. -/
def createSocket (thread : Nat) (shared : Shared) : Option Shared :=
  match shared.phase thread with
  | .returned address => (printed shared.memory address).map fun _ =>
      { shared with phase := Function.update shared.phase thread .idle }
  | _ => none

def step (text : CString) (shared : Shared) : Action → Option Shared
  | .enter thread => enter thread shared
  | .clear thread => clear thread shared
  | .make thread => make thread shared
  | .compose thread => compose text thread shared
  | .fetch thread => fetch thread shared
  | .createSocket thread => createSocket thread shared

def start (globals : Globals) : Shared :=
  ⟨globals.memory, globals.gIpAddress, none, fun _ => .idle⟩

/-- A pointer that points to nothing of the frame and to no block that is still to come. -/
def Outdated (frame : Blocks) (memory : Memory) (pointer : Pointer) : Prop :=
  ∀ q, pointer = some q → q ∉ frame.map Prod.fst ∧ q < memory.next

/-- What get_address has of the memory, beside the frame. -/
def Held (text : CString) (frame : Blocks) (shared : Shared) : Option (Nat × Stage) → Prop
  | none =>
      (∃ q, shared.gIpAddress = some q ∧ Owns shared.memory ({(q, padded 64 text)} + frame)) ∨
      (∀ thread, shared.phase thread = .idle) ∧
        ∃ content, Owns shared.memory (shareOf shared.gIpAddress content + frame)
  | some (_, .freed) => Owns shared.memory frame
  | some (_, .cleared) => Owns shared.memory frame ∧ shared.gIpAddress = none
  | some (_, .made) => ∃ q, shared.gIpAddress = some q ∧
      Owns shared.memory ({(q, List.replicate 64 none)} + frame)

structure Kept (text : CString) (frame : Blocks) (shared : Shared) : Prop where
  held : Held text frame shared shared.holder
  current : Outdated frame shared.memory shared.gIpAddress
  returned : ∀ thread address, shared.phase thread = .returned address →
    Outdated frame shared.memory address

section Pointers
variable {memory after : Memory} {pointer : Pointer} {frame : Blocks} {text : CString} {p : Nat}
  {content : List (Option Char)}

theorem free_next (freed : free memory pointer = some after) : after.next = memory.next := by
  cases pointer with
  | none =>
    obtain rfl := Option.some.inj freed
    rfl
  | some p =>
    obtain ⟨content, -, rfl⟩ := Option.map_eq_some_iff.mp freed
    rfl

theorem write_next (written : write memory pointer text = some after) :
    after.next = memory.next := by
  obtain ⟨p, -, rest⟩ := Option.bind_eq_some_iff.mp written
  obtain ⟨content, -, last⟩ := Option.bind_eq_some_iff.mp rest
  split at last
  · obtain rfl := Option.some.inj last
    rfl
  · cases last

theorem outdated_later (outdated : Outdated frame memory pointer)
    (order : memory.next ≤ after.next) : Outdated frame after pointer := by
  intro q same
  obtain ⟨away, old⟩ := outdated q same
  exact ⟨away, by omega⟩

theorem outdated_owned (owns : Owns memory ({(p, content)} + frame)) :
    Outdated frame memory (some p) := by
  intro q same
  obtain rfl := Option.some.inj same
  exact ⟨(owned_apart owns).1, live_lt (owned_block owns)⟩

theorem outdated_shared (owns : Owns memory (shareOf pointer content + frame)) :
    Outdated frame memory pointer := by
  cases pointer with
  | none =>
    intro q same
    cases same
  | some p => exact outdated_owned owns

end Pointers

theorem returned_update {phase : Nat → Phase} {thread other : Nat} {new : Phase} {address : Pointer}
    (returned : Function.update phase thread new other = .returned address) :
    new = .returned address ∨ phase other = .returned address := by
  by_cases same : other = thread
  · subst same
    rw [Function.update_self] at returned
    exact Or.inl returned
  · rw [Function.update_of_ne same] at returned
    exact Or.inr returned

section Steps
variable {text : CString} {frame : Blocks} {shared after : Shared} {thread : Nat}

theorem kept_start {globals : Globals} (ready : Ready frame globals) :
    Kept text frame (start globals) := by
  obtain ⟨content, owns⟩ := ready.owned
  refine ⟨Or.inr ⟨fun _ => rfl, content, owns⟩, outdated_shared owns, ?_⟩
  intro thread address returned
  cases returned

theorem held_outside (kept : Kept text frame shared) (outside : shared.holder = none) :
    ∃ content, Owns shared.memory (shareOf shared.gIpAddress content + frame) := by
  have held := kept.held
  rw [outside] at held
  rcases held with ⟨q, current, owns⟩ | ⟨-, owned⟩
  · exact ⟨_, by rw [current]; exact owns⟩
  · exact owned

theorem kept_enter (kept : Kept text frame shared) (idle : shared.phase thread = .idle)
    (outside : shared.holder = none) : ∃ after, enter thread shared = some after ∧
      after.holder = some (thread, .freed) ∧ after.phase = shared.phase ∧
      Kept text frame after := by
  obtain ⟨content, owns⟩ := held_outside kept outside
  have ready : Ready frame ⟨shared.memory, shared.gIpAddress, false⟩ := ⟨rfl, content, owns⟩
  obtain ⟨memory, freed, left⟩ := ready_free ready
  have size := free_next freed
  refine ⟨{ shared with memory := memory, holder := some (thread, .freed) }, ?_, rfl, rfl, left,
    outdated_later kept.current size.ge, ?_⟩
  · unfold enter
    rw [if_pos ⟨idle, outside⟩, freed]
    rfl
  · intro other address returned
    exact outdated_later (kept.returned other address returned) size.ge

theorem kept_clear (kept : Kept text frame shared)
    (inside : shared.holder = some (thread, .freed)) : ∃ after,
    clear thread shared = some after ∧ after.holder = some (thread, .cleared) ∧
      after.phase = shared.phase ∧ Kept text frame after := by
  have held := kept.held
  rw [inside] at held
  refine ⟨{ shared with gIpAddress := none, holder := some (thread, .cleared) }, if_pos inside, rfl,
    rfl, ⟨held, rfl⟩, ?_, kept.returned⟩
  intro q same
  cases same

theorem kept_make (kept : Kept text frame shared)
    (inside : shared.holder = some (thread, .cleared)) : ∃ after,
    make thread shared = some after ∧ after.holder = some (thread, .made) ∧
      after.phase = shared.phase ∧ Kept text frame after := by
  have held := kept.held
  rw [inside] at held
  have made : Owns (allocate shared.memory (List.replicate 64 none)) _ := owns_allocate held.1
  refine ⟨{ shared with
    memory := allocate shared.memory (List.replicate 64 none)
    gIpAddress := some shared.memory.next
    holder := some (thread, .made) }, if_pos inside, rfl, rfl, ⟨shared.memory.next, rfl, made⟩,
    outdated_owned made, ?_⟩
  intro other address returned
  exact outdated_later (kept.returned other address returned) (Nat.le_succ _)

theorem kept_compose (short : text.length < 64) (kept : Kept text frame shared)
    (inside : shared.holder = some (thread, .made)) : ∃ after,
    compose text thread shared = some after ∧ after.holder = none ∧
      after.gIpAddress = shared.gIpAddress ∧
      after.phase = Function.update shared.phase thread .composed ∧ Kept text frame after := by
  have held := kept.held
  rw [inside] at held
  obtain ⟨q, current, owns⟩ := held
  obtain ⟨memory, written, owned⟩ := write_owned owns short
  have size := write_next written
  refine ⟨{ shared with
    memory := memory
    holder := none
    phase := Function.update shared.phase thread .composed }, ?_, rfl, rfl, rfl,
    Or.inl ⟨q, current, owned⟩, outdated_later kept.current size.ge, ?_⟩
  · unfold compose
    rw [if_pos inside, snprintf, List.take_of_length_le (by omega), current, written]
    rfl
  · intro other address returned
    have before := (returned_update returned).resolve_left Phase.noConfusion
    exact outdated_later (kept.returned other address before) size.ge

theorem held_phase {phase : Nat → Phase} (kept : Kept text frame shared)
    (started : shared.phase thread ≠ .idle) :
    Held text frame { shared with phase := phase } shared.holder := by
  have held := kept.held
  revert held
  rcases shared.holder with _ | ⟨other, stage⟩
  · rintro (here | ⟨none, -⟩)
    · exact Or.inl here
    · exact absurd (none thread) started
  · cases stage <;> exact id

theorem kept_fetch (kept : Kept text frame shared) (composed : shared.phase thread = .composed) :
    ∃ after, fetch thread shared = some after ∧ after.holder = shared.holder ∧
      after.gIpAddress = shared.gIpAddress ∧
      after.phase = Function.update shared.phase thread (.returned shared.gIpAddress) ∧
      Kept text frame after := by
  refine ⟨{ shared with
    phase := Function.update shared.phase thread (.returned shared.gIpAddress) }, if_pos composed,
    rfl, rfl, rfl, held_phase kept (by rw [composed]; exact Phase.noConfusion), kept.current, ?_⟩
  intro other address returned
  rcases returned_update returned with here | before
  · obtain rfl := Phase.returned.inj here
    exact kept.current
  · exact kept.returned other address before

theorem kept_createSocket (kept : Kept text frame shared)
    (moved : createSocket thread shared = some after) :
    after.holder = shared.holder ∧ after.gIpAddress = shared.gIpAddress ∧
      after.phase = Function.update shared.phase thread .idle ∧ Kept text frame after := by
  unfold createSocket at moved
  split at moved
  · rename_i address here
    obtain ⟨connection, -, rfl⟩ := Option.map_eq_some_iff.mp moved
    have started : shared.phase thread ≠ .idle := by
      rw [here]
      exact Phase.noConfusion
    refine ⟨rfl, rfl, rfl, held_phase kept started, kept.current, ?_⟩
    intro other earlier returned
    exact kept.returned other earlier ((returned_update returned).resolve_left Phase.noConfusion)
  · cases moved

theorem allowed_of_step {action : Action} (moved : step text shared action = some after) :
    Allowed shared action := by
  cases action with
  | createSocket thread =>
    dsimp only [step, createSocket] at moved
    split at moved
    · rename_i address here
      exact ⟨address, here⟩
    · cases moved
  | _ thread =>
    dsimp only [step, enter, clear, make, compose, fetch] at moved
    split at moved
    · assumption
    · cases moved

theorem step_kept (short : text.length < 64) {action : Action} (kept : Kept text frame shared)
    (moved : step text shared action = some after) : Kept text frame after := by
  have allowed := allowed_of_step moved
  cases action with
  | enter thread =>
    obtain ⟨next, done, -, -, still⟩ := kept_enter kept allowed.1 allowed.2
    obtain rfl := Option.some.inj (done.symm.trans moved)
    exact still
  | clear thread =>
    obtain ⟨next, done, -, -, still⟩ := kept_clear kept allowed
    obtain rfl := Option.some.inj (done.symm.trans moved)
    exact still
  | make thread =>
    obtain ⟨next, done, -, -, still⟩ := kept_make kept allowed
    obtain rfl := Option.some.inj (done.symm.trans moved)
    exact still
  | compose thread =>
    obtain ⟨next, done, -, -, -, still⟩ := kept_compose short kept allowed
    obtain rfl := Option.some.inj (done.symm.trans moved)
    exact still
  | fetch thread =>
    obtain ⟨next, done, -, -, -, still⟩ := kept_fetch kept allowed
    obtain rfl := Option.some.inj (done.symm.trans moved)
    exact still
  | createSocket thread => exact (kept_createSocket kept moved).2.2.2

theorem step_defined (short : text.length < 64) {action : Action} (kept : Kept text frame shared)
    (allowed : Allowed shared action) (inside : ∀ thread, action ≠ .createSocket thread) :
    ∃ after, step text shared action = some after := by
  cases action with
  | enter thread =>
    obtain ⟨after, done, -⟩ := kept_enter kept allowed.1 allowed.2
    exact ⟨after, done⟩
  | clear thread =>
    obtain ⟨after, done, -⟩ := kept_clear kept allowed
    exact ⟨after, done⟩
  | make thread =>
    obtain ⟨after, done, -⟩ := kept_make kept allowed
    exact ⟨after, done⟩
  | compose thread =>
    obtain ⟨after, done, -⟩ := kept_compose short kept allowed
    exact ⟨after, done⟩
  | fetch thread =>
    obtain ⟨after, done, -⟩ := kept_fetch kept allowed
    exact ⟨after, done⟩
  | createSocket thread => exact absurd rfl (inside thread)

theorem text_held {q : Nat} {share : Blocks} (owns : Owns shared.memory (share + frame))
    (outdated : Outdated frame shared.memory (some q))
    (reads : textAt shared.memory (some q) = some text) :
    ∃ content, (q, content) ∈ share := by
  obtain ⟨content, live, -⟩ := Option.bind_eq_some_iff.mp reads
  rcases Multiset.mem_add.mp ((owns.live q content).mp live) with here | outside
  · exact ⟨content, here⟩
  · exact absurd (Multiset.mem_map_of_mem Prod.fst outside) (outdated q rfl).1

theorem outside_unread {q : Nat} (owns : Owns shared.memory frame)
    (outdated : Outdated frame shared.memory (some q)) :
    textAt shared.memory (some q) ≠ some text := by
  intro reads
  rw [← zero_add frame] at owns
  obtain ⟨content, member⟩ := text_held owns outdated reads
  exact absurd member (Multiset.notMem_zero _)

theorem readable_iff (short : text.length < 64) (nonempty : text ≠ []) (proper : text ≠ nullText)
    (kept : Kept text frame shared) {address : Pointer}
    (returned : shared.phase thread = .returned address) :
    printed shared.memory address = some text ↔
      shared.holder = none ∧ address = shared.gIpAddress := by
  have held := kept.held
  constructor
  · intro reads
    cases address with
    | none => exact absurd (Option.some.inj reads).symm proper
    | some q =>
      have outdated := kept.returned thread _ returned
      revert held
      rcases shared.holder with _ | ⟨other, stage⟩
      · rintro (⟨current, same, owns⟩ | ⟨idle, -⟩)
        · obtain ⟨content, member⟩ := text_held owns outdated reads
          obtain ⟨rfl, -⟩ := Prod.mk.inj (Multiset.mem_singleton.mp member)
          exact ⟨rfl, same.symm⟩
        · rw [idle thread] at returned
          cases returned
      · cases stage with
        | freed =>
          intro owns
          exact absurd reads (outside_unread owns outdated)
        | cleared =>
          rintro ⟨owns, -⟩
          exact absurd reads (outside_unread owns outdated)
        | made =>
          rintro ⟨current, same, owns⟩
          obtain ⟨content, member⟩ := text_held owns outdated reads
          obtain ⟨rfl, rfl⟩ := Prod.mk.inj (Multiset.mem_singleton.mp member)
          have blank : Owns shared.memory ({(q, padded 64 [])} + frame) := owns
          have reads' := textAt_first blank (by decide)
          exact absurd (Option.some.inj (reads.symm.trans reads')) nonempty
  · rintro ⟨outside, rfl⟩
    rw [outside] at held
    rcases held with ⟨current, same, owns⟩ | ⟨idle, -⟩
    · rw [same]
      exact textAt_first owns short
    · rw [idle thread] at returned
      cases returned

structure Alone (shared : Shared) : Prop where
  outside : ∀ thread, shared.phase thread ≠ .idle → thread = 0 ∧ shared.holder = none
  current : ∀ thread address, shared.phase thread = .returned address →
    address = shared.gIpAddress

theorem alone_step (short : text.length < 64) (kept : Kept text frame shared) (alone : Alone shared)
    {action : Action} (own : action.thread = 0) (moved : step text shared action = some after) :
    Alone after := by
  have allowed := allowed_of_step moved
  -- inside get_address the thread counts as idle
  have nobody : shared.phase 0 = .idle → ∀ thread, shared.phase thread = .idle := by
    intro idle thread
    by_contra started
    obtain ⟨rfl, -⟩ := alone.outside thread started
    exact started idle
  have locked : shared.holder ≠ none → ∀ thread, shared.phase thread = .idle := by
    intro inside thread
    by_contra started
    exact inside (alone.outside thread started).2
  have quiet : (∀ thread, after.phase thread = .idle) → Alone after := by
    intro idle
    refine ⟨fun thread started => absurd (idle thread) started, ?_⟩
    intro thread address returned
    rw [idle thread] at returned
    cases returned
  cases action with
  | enter thread =>
    obtain rfl : thread = 0 := own
    obtain ⟨next, done, -, phase, -⟩ := kept_enter kept allowed.1 allowed.2
    obtain rfl := Option.some.inj (done.symm.trans moved)
    exact quiet (by rw [phase]; exact nobody allowed.1)
  | clear thread =>
    obtain ⟨next, done, -, phase, -⟩ := kept_clear kept allowed
    obtain rfl := Option.some.inj (done.symm.trans moved)
    exact quiet (by rw [phase]; exact locked (by rw [allowed]; exact Option.some_ne_none _))
  | make thread =>
    obtain ⟨next, done, -, phase, -⟩ := kept_make kept allowed
    obtain rfl := Option.some.inj (done.symm.trans moved)
    exact quiet (by rw [phase]; exact locked (by rw [allowed]; exact Option.some_ne_none _))
  | compose thread =>
    obtain rfl : thread = 0 := own
    obtain ⟨next, done, unlocked, -, phase, -⟩ := kept_compose short kept allowed
    obtain rfl := Option.some.inj (done.symm.trans moved)
    have idle := locked (by rw [allowed]; exact Option.some_ne_none _)
    constructor
    · intro thread started
      refine ⟨?_, unlocked⟩
      by_contra other
      rw [phase, Function.update_of_ne other] at started
      exact started (idle thread)
    · intro thread address returned
      rw [phase] at returned
      have before := (returned_update returned).resolve_left Phase.noConfusion
      rw [idle thread] at before
      cases before
  | fetch thread =>
    obtain rfl : thread = 0 := own
    obtain ⟨next, done, unlocked, same, phase, -⟩ := kept_fetch kept allowed
    obtain rfl := Option.some.inj (done.symm.trans moved)
    have outside := (alone.outside 0 (by rw [allowed]; exact Phase.noConfusion)).2
    constructor
    · intro thread started
      refine ⟨?_, by rw [unlocked, outside]⟩
      by_contra other
      rw [phase, Function.update_of_ne other] at started
      exact other (alone.outside thread started).1
    · intro thread address returned
      rw [phase] at returned
      rw [same]
      rcases returned_update returned with here | before
      · exact (Phase.returned.inj here).symm
      · exact alone.current thread address before
  | createSocket thread =>
    obtain rfl : thread = 0 := own
    obtain ⟨unlocked, same, phase, -⟩ := kept_createSocket kept moved
    apply quiet
    intro thread
    rw [phase]
    by_cases other : thread = 0
    · rw [other, Function.update_self]
    · rw [Function.update_of_ne other]
      by_contra started
      exact other (alone.outside thread started).1

theorem alone_run (short : text.length < 64) {actions : List Action}
    (own : ∀ action ∈ actions, action.thread = 0) (kept : Kept text frame shared)
    (alone : Alone shared) (run : Runs.run (step text) shared actions = some after) :
    Kept text frame after ∧ Alone after := by
  induction actions generalizing shared with
  | nil =>
    obtain rfl := Option.some.inj run
    exact ⟨kept, alone⟩
  | cons action actions ih =>
    rw [List.forall_mem_cons] at own
    obtain ⟨next, moved, rest⟩ := Runs.run_cons_some.mp run
    exact ih own.2 (step_kept short kept moved) (alone_step short kept alone own.1 moved) rest

def disturbed : List Action := [.enter 0, .clear 0, .make 0, .compose 0, .fetch 0, .enter 1]

theorem disturbed_run {globals : Globals} (short : text.length < 64) (ready : Ready frame globals) :
    ∃ shared address, Runs.run (step text) (start globals) disturbed = some shared ∧
      shared.phase 0 = .returned address ∧ shared.holder ≠ none ∧ Kept text frame shared := by
  have kept : Kept text frame (start globals) := kept_start ready
  have idle : (start globals).phase 0 = .idle := rfl
  obtain ⟨one, entered, inside, phase, kept⟩ := kept_enter kept idle rfl
  obtain ⟨two, cleared, inside, phase', kept⟩ := kept_clear kept inside
  obtain ⟨three, made, inside, phase'', kept⟩ := kept_make kept inside
  obtain ⟨four, composed, outside, -, update, kept⟩ := kept_compose short kept inside
  obtain ⟨five, fetched, unlocked, -, update', kept⟩ :=
    kept_fetch kept (by rw [update, Function.update_self])
  have free : five.phase 1 = .idle := by
    rw [update', update, phase'', phase', phase]
    rfl
  obtain ⟨six, again, taken, same, kept⟩ := kept_enter kept free (unlocked.trans outside)
  refine ⟨six, four.gIpAddress, ?_, ?_, ?_, kept⟩
  · exact Runs.run_cons_some.mpr ⟨one, entered, Runs.run_cons_some.mpr ⟨two, cleared,
      Runs.run_cons_some.mpr ⟨three, made, Runs.run_cons_some.mpr ⟨four, composed,
        Runs.run_cons_some.mpr ⟨five, fetched, Runs.run_cons_some.mpr ⟨six, again, rfl⟩⟩⟩⟩⟩⟩
  · rw [same, update', Function.update_self]
  · rw [taken]
    exact Option.some_ne_none _

end Steps

def mainText (config : CoreConfig.Config) : CString := fullAddress config config.mainAddress

theorem mainText_proper (config : CoreConfig.Config) :
    mainText config ≠ [] ∧ mainText config ≠ nullText := by
  have colon : ':' ∈ mainText config := by
    unfold mainText fullAddress
    simp
  constructor
  · exact List.ne_nil_of_mem colon
  · intro same
    rw [same] at colon
    exact absurd colon (by decide)

/-- get_address keeps the memory in order, however the threads come. What it returns leads to the
    address as long as nobody is in get_address and g_ip_address has not moved on; so with several
    threads, and only then, create_socket can find something else. -/
theorem shared_address (config : CoreConfig.Config) (short : (mainText config).length < 64)
    (globals : Globals) (frame : Blocks) (ready : Ready frame globals) :
    (∀ actions shared, Runs.run (step (mainText config)) (start globals) actions = some shared →
      (∀ action, Allowed shared action → (∀ thread, action ≠ .createSocket thread) →
        ∃ after, step (mainText config) shared action = some after) ∧
      (∀ thread address, shared.phase thread = .returned address →
        (printed shared.memory address = some (mainText config) ↔
          shared.holder = none ∧ address = shared.gIpAddress)) ∧
      (shared.holder = none →
        ∃ after, free shared.memory shared.gIpAddress = some after ∧ Owns after frame)) ∧
    ∀ numThreads, (∀ actions shared, (∀ action ∈ actions, action.thread < numThreads) →
      Runs.run (step (mainText config)) (start globals) actions = some shared →
      ∀ thread address, shared.phase thread = .returned address →
        printed shared.memory address = some (mainText config)) ↔ numThreads ≤ 1 := by
  obtain ⟨nonempty, proper⟩ := mainText_proper config
  have begun : Kept (mainText config) frame (start globals) := kept_start ready
  constructor
  · intro actions shared run
    have kept : Kept (mainText config) frame shared :=
      Runs.run_invariant (fun _ _ _ kept moved => step_kept short kept moved) begun run
    refine ⟨fun action => step_defined short kept, ?_, ?_⟩
    · intro thread address returned
      exact readable_iff short nonempty proper kept returned
    · intro outside
      obtain ⟨content, owns⟩ := held_outside kept outside
      have idle : Ready frame ⟨shared.memory, shared.gIpAddress, false⟩ := ⟨rfl, content, owns⟩
      exact ready_free idle
  · intro numThreads
    constructor
    · intro safe
      by_contra more
      obtain ⟨shared, address, run, returned, inside, kept⟩ := disturbed_run short ready
      have few : ∀ action ∈ disturbed, action.thread < numThreads := by
        intro action member
        have low : action.thread ≤ 1 := by
          simp only [disturbed, List.mem_cons, List.not_mem_nil, or_false] at member
          rcases member with rfl | rfl | rfl | rfl | rfl | rfl <;> decide
        omega
      have reads := safe disturbed shared few run 0 address returned
      exact inside ((readable_iff short nonempty proper kept returned).mp reads).1
    · intro single actions shared few run thread address returned
      have own : ∀ action ∈ actions, action.thread = 0 := by
        intro action member
        have low := few action member
        omega
      have quiet : Alone (start globals) := by
        refine ⟨fun thread started => absurd rfl started, ?_⟩
        intro thread address returned
        cases returned
      obtain ⟨kept, alone⟩ := alone_run short own begun quiet run
      refine (readable_iff short nonempty proper kept returned).mpr ⟨?_, ?_⟩
      · exact (alone.outside thread (by rw [returned]; exact Phase.noConfusion)).2
      · exact alone.current thread address returned

theorem shared_address_shipped : ¬ ∀ actions shared, (∀ action ∈ actions, action.thread < 2) →
    Runs.run (step (mainText SettingsFile.shippedConfig.toConfig)) (start (opening noBlocks))
      actions = some shared →
    ∀ thread address, shared.phase thread = .returned address →
      printed shared.memory address = some (mainText SettingsFile.shippedConfig.toConfig) :=
  mt ((shared_address SettingsFile.shippedConfig.toConfig (by decide) (opening noBlocks) 0
    ⟨rfl, [], by rw [opening, shareOf, zero_add]; exact owns_nothing⟩).2 2).mp (by decide)

end RealMQ.SharedAddress
