import RealMQ.CStrings
import RealMQ.Foundation.Runs

/- utils/memory_leak_detector.c. What malloc answers is part of a call, so an address that was
   freed may be given out again. Files without the header call malloc and free themselves. What
   reads or frees a block that is not live has no result. -/
namespace RealMQ.LeakDetector
open CStrings

structure MemoryBlock where
  address : Nat
  size : Nat
  file : CString
  line : Int
  deriving DecidableEq

/-- The addresses in use, and the list from head on, each MemoryBlock with the address where it
    lies. dangling: the last pointer is not NULL, but leads to a block that was freed. -/
structure Tracked where
  live : Finset Nat
  head : List (Nat × MemoryBlock)
  dangling : Bool

def start (live : Finset Nat) : Tracked := ⟨live, [], false⟩

/-- malloc answers NULL or an address that is not in use. -/
def acquire (live : Finset Nat) : Option Nat → Option (Finset Nat)
  | none => some live
  | some p => if p ∈ live then none else some (insert p live)

def release (live : Finset Nat) (p : Nat) : Option (Finset Nat) :=
  if p ∈ live then some (live.erase p) else none

/-- ptr and block are the answers to the two mallocs; the second is not made without the first. -/
def testMalloc (size : Nat) (file : CString) (line : Int) (ptr block : Option Nat)
    (tracked : Tracked) : Option Tracked :=
  match ptr with
  | none => some tracked
  | some address =>
    (acquire tracked.live ptr).bind fun live => (acquire live block).map fun live =>
      match block with
      | none => { tracked with live := live }
      | some place =>
        { tracked with
          live := live
          head := (place, ⟨address, size, file, line⟩) :: tracked.head }

/-- num * size bytes are asked for, but size is what is noted. -/
def testCalloc (_num size : Nat) (file : CString) (line : Int) (ptr block : Option Nat)
    (tracked : Tracked) : Option Tracked := testMalloc size file line ptr block tracked

def unlink (ptr : Nat) (dangling : Bool) :
    List (Nat × MemoryBlock) → Option (Option (Nat × MemoryBlock) × List (Nat × MemoryBlock))
  | [] => if dangling then none else some (none, [])
  | current :: next =>
      if current.2.address = ptr then some (some current, next)
      else (unlink ptr dangling next).map fun (temp, rest) => (temp, current :: rest)

def testFree (ptr : Option Nat) (tracked : Tracked) : Option Tracked :=
  match ptr with
  | none => some tracked
  | some ptr =>
    (unlink ptr tracked.dangling tracked.head).bind fun (temp, head) =>
      match temp with
      | none => some tracked
      | some (place, temp) =>
        (release tracked.live temp.address).bind fun live => (release live place).map fun live =>
          { tracked with live := live, head := head }

/-- The lines that are printed. The list is freed but head still leads to it. -/
def checkForLeaks (tracked : Tracked) : Option (List MemoryBlock × Tracked) :=
  if tracked.dangling then none
  else (tracked.head.foldlM (fun live current => release live current.1) tracked.live).map fun live =>
    (tracked.head.map Prod.snd, ⟨live, [], !tracked.head.isEmpty⟩)

inductive Call where
  | malloc (size : Nat) (file : CString) (line : Int) (ptr block : Option Nat)
  | calloc (num size : Nat) (file : CString) (line : Int) (ptr block : Option Nat)
  | free (ptr : Option Nat)
  | check
  | plainMalloc (ptr : Option Nat)
  | plainFree (ptr : Nat)
  deriving DecidableEq

/-- Nobody else has a pointer to a MemoryBlock, so plain code cannot free one. -/
def step (tracked : Tracked) : Call → Option Tracked
  | .malloc size file line ptr block => testMalloc size file line ptr block tracked
  | .calloc num size file line ptr block => testCalloc num size file line ptr block tracked
  | .free ptr => testFree ptr tracked
  | .check => (checkForLeaks tracked).map Prod.snd
  | .plainMalloc ptr => (acquire tracked.live ptr).map fun live => { tracked with live := live }
  | .plainFree ptr =>
      if ptr ∈ tracked.head.map Prod.fst then none
      else (release tracked.live ptr).map fun live => { tracked with live := live }

def noted : Call → Option MemoryBlock
  | .malloc size file line (some address) (some _) => some ⟨address, size, file, line⟩
  | .calloc _ size file line (some address) (some _) => some ⟨address, size, file, line⟩
  | _ => none

def leftOver : List Call → List MemoryBlock
  | [] => []
  | call :: later =>
      (noted call).toList.filter (fun block => .free (some block.address) ∉ later) ++ leftOver later

/-- The memory that the list knows nothing of: a block for which no MemoryBlock could be had
    is as good as one of a plain malloc. -/
def beside (others : Finset Nat) : Call → Finset Nat
  | .malloc _ _ _ (some p) none => insert p others
  | .calloc _ _ _ _ (some p) none => insert p others
  | .plainMalloc (some p) => insert p others
  | .plainFree p => others.erase p
  | _ => others

/-- malloc answers with addresses not in use, and plain code frees what the list does not have. -/
def Fair (tracked : Tracked) : Call → Prop
  | .malloc _ _ _ ptr block | .calloc _ _ _ _ ptr block =>
      (∀ p, ptr = some p → p ∉ tracked.live) ∧
        ∀ q, block = some q → q ∉ tracked.live ∧ ptr ≠ some q
  | .free _ => True
  | .check => False
  | .plainMalloc ptr => ∀ p, ptr = some p → p ∉ tracked.live
  | .plainFree p => p ∈ tracked.live ∧ p ∉ tracked.head.map Prod.fst ∧
      p ∉ tracked.head.map fun current => current.2.address

structure Accounted (tracked : Tracked) (others : Finset Nat) : Prop where
  ends : tracked.dangling = false
  shares : tracked.live.val = others.val + ↑(tracked.head.map fun current => current.2.address) +
    ↑(tracked.head.map Prod.fst)

section Addresses
variable {live : Finset Nat} {p : Nat} {rest : Multiset Nat}

theorem acquire_share (unused : p ∉ live) :
    ∃ after, acquire live (some p) = some after ∧ after.val = p ::ₘ live.val :=
  ⟨insert p live, if_neg unused, Finset.insert_val_of_notMem unused⟩

theorem release_share (share : live.val = p ::ₘ rest) :
    ∃ after, release live p = some after ∧ after.val = rest := by
  have used : p ∈ live := by
    rw [← Finset.mem_val, share]
    exact Multiset.mem_cons_self p rest
  refine ⟨live.erase p, if_pos used, ?_⟩
  rw [Finset.erase_val, share, Multiset.erase_cons_head]

theorem release_all {blocks : List (Nat × MemoryBlock)}
    (share : live.val = rest + ↑(blocks.map Prod.fst)) :
    ∃ after, blocks.foldlM (fun live current => release live current.1) live = some after ∧
      after.val = rest := by
  induction blocks generalizing live with
  | nil => exact ⟨live, rfl, by simpa using share⟩
  | cons block blocks ih =>
    have first : live.val = block.1 ::ₘ (rest + ↑(blocks.map Prod.fst)) := by
      rw [share, List.map_cons, ← Multiset.cons_coe, Multiset.add_cons]
    obtain ⟨between, freed, others⟩ := release_share first
    obtain ⟨after, later, final⟩ := ih others
    refine ⟨after, ?_, final⟩
    rw [List.foldlM_cons, freed]
    exact later

end Addresses

theorem unlink_cases (ptr : Nat) (blocks : List (Nat × MemoryBlock)) :
    (unlink ptr false blocks = some (none, blocks) ∧ ∀ block ∈ blocks, block.2.address ≠ ptr) ∨
    ∃ before temp next, blocks = before ++ temp :: next ∧ temp.2.address = ptr ∧
      (∀ block ∈ before, block.2.address ≠ ptr) ∧
      unlink ptr false blocks = some (some temp, before ++ next) := by
  induction blocks with
  | nil => exact Or.inl ⟨rfl, fun _ member => absurd member List.not_mem_nil⟩
  | cons block blocks ih =>
    by_cases here : block.2.address = ptr
    · refine Or.inr ⟨[], block, blocks, rfl, here, fun _ member => absurd member List.not_mem_nil, ?_⟩
      rw [unlink, if_pos here, List.nil_append]
    · rcases ih with ⟨walk, absent⟩ | ⟨before, temp, next, rfl, found, earlier, walk⟩
      · refine Or.inl ⟨?_, List.forall_mem_cons.mpr ⟨here, absent⟩⟩
        rw [unlink, if_neg here, walk, Option.map_some]
      · refine Or.inr ⟨block :: before, temp, next, rfl, found,
          List.forall_mem_cons.mpr ⟨here, earlier⟩, ?_⟩
        rw [unlink, if_neg here, walk, Option.map_some, List.cons_append]

section Steps
variable {tracked : Tracked} {others : Finset Nat}

theorem not_others (accounted : Accounted tracked others) {p : Nat} (unused : p ∉ tracked.live) :
    p ∉ others := by
  intro member
  apply unused
  rw [← Finset.mem_val, accounted.shares, Multiset.mem_add, Multiset.mem_add]
  exact Or.inl (Or.inl member)

theorem malloc_kept (accounted : Accounted tracked others) (size : Nat) (file : CString) (line : Int)
    {ptr block : Option Nat} (fair : Fair tracked (.malloc size file line ptr block)) :
    ∃ after, testMalloc size file line ptr block tracked = some after ∧
      Accounted after (beside others (.malloc size file line ptr block)) ∧
      after.head.map Prod.snd =
        (noted (.malloc size file line ptr block)).toList ++ tracked.head.map Prod.snd := by
  obtain ⟨unused, room⟩ := fair
  cases ptr with
  | none => exact ⟨tracked, rfl, accounted, rfl⟩
  | some p =>
    obtain ⟨live, got, share⟩ := acquire_share (unused p rfl)
    have outside := not_others accounted (unused p rfl)
    cases block with
    | none =>
      refine ⟨{ tracked with live := live }, ?_, ⟨accounted.ends, ?_⟩, rfl⟩
      · unfold testMalloc
        dsimp only
        rw [got]
        rfl
      · dsimp only [beside]
        rw [share, accounted.shares, Finset.insert_val_of_notMem outside]
        simp only [Multiset.cons_add]
    | some q =>
      obtain ⟨free, apart⟩ := room q rfl
      have unused' : q ∉ live := by
        rw [← Finset.mem_val, share, Multiset.mem_cons]
        rintro (rfl | member)
        · exact apart rfl
        · exact free member
      obtain ⟨live', got', share'⟩ := acquire_share unused'
      refine ⟨{ tracked with
        live := live'
        head := (q, ⟨p, size, file, line⟩) :: tracked.head }, ?_, ⟨accounted.ends, ?_⟩, rfl⟩
      · unfold testMalloc
        dsimp only
        rw [got, Option.bind_some, got', Option.map_some]
      · dsimp only [beside]
        rw [share', share, accounted.shares]
        simp only [List.map_cons, ← Multiset.cons_coe, Multiset.add_cons, Multiset.cons_add]

theorem middle_share (before next : List Nat) (p : Nat) :
    (↑(before ++ p :: next) : Multiset Nat) = p ::ₘ ↑(before ++ next) :=
  Multiset.coe_eq_coe.mpr List.perm_middle

theorem addresses_apart (accounted : Accounted tracked others) :
    (tracked.head.map fun current => current.2.address).Nodup := by
  have apart := tracked.live.nodup
  rw [accounted.shares, Multiset.nodup_add, Multiset.nodup_add] at apart
  exact Multiset.coe_nodup.mp apart.1.2.1

theorem filter_unlinked {before next : List (Nat × MemoryBlock)} {temp : Nat × MemoryBlock}
    (apart : ((before ++ temp :: next).map fun current => current.2.address).Nodup) :
    ((before ++ temp :: next).map Prod.snd).filter
      (fun block => some temp.2.address ≠ some block.address) = (before ++ next).map Prod.snd := by
  rw [List.map_append, List.map_cons, List.nodup_middle, List.nodup_cons, ← List.map_append] at apart
  have stay : ∀ block ∈ (before ++ next).map Prod.snd,
      decide (some temp.2.address ≠ some block.address) = true := by
    intro block member
    obtain ⟨entry, inside, rfl⟩ := List.mem_map.mp member
    apply decide_eq_true
    intro same
    rw [Option.some.inj same] at apart
    exact apart.1 (List.mem_map_of_mem inside)
  rw [List.map_append, List.map_cons, List.filter_append, List.filter_cons, if_neg (by simp),
    ← List.filter_append, ← List.map_append, List.filter_eq_self.mpr stay]

theorem free_kept (accounted : Accounted tracked others) (ptr : Option Nat) :
    ∃ after, testFree ptr tracked = some after ∧ Accounted after others ∧
      after.head.map Prod.snd =
        (tracked.head.map Prod.snd).filter fun block => ptr ≠ some block.address := by
  cases ptr with
  | none =>
    refine ⟨tracked, rfl, accounted, ?_⟩
    rw [List.filter_eq_self.mpr]
    intro block member
    exact decide_eq_true (Option.some_ne_none _).symm
  | some p =>
    unfold testFree
    dsimp only
    rw [accounted.ends]
    rcases unlink_cases p tracked.head with ⟨walk, absent⟩ | ⟨before, temp, next, split, found, earlier, walk⟩
    · refine ⟨tracked, ?_, accounted, ?_⟩
      · rw [walk]
        rfl
      · rw [List.filter_eq_self.mpr]
        intro block member
        obtain ⟨entry, inside, rfl⟩ := List.mem_map.mp member
        apply decide_eq_true
        intro same
        exact absent entry inside (Option.some.inj same).symm
    · have share : tracked.live.val = p ::ₘ temp.1 ::ₘ (others.val +
          ↑((before ++ next).map fun current => current.2.address) +
          ↑((before ++ next).map Prod.fst)) := by
        rw [accounted.shares, split, List.map_append, List.map_cons, List.map_append, List.map_cons,
          middle_share, middle_share, found]
        simp only [Multiset.add_cons, Multiset.cons_add, List.map_append, Multiset.cons_swap]
      obtain ⟨live, freed, rest⟩ := release_share share
      obtain ⟨live', freed', rest'⟩ := release_share rest
      have apart := addresses_apart accounted
      rw [split] at apart
      refine ⟨⟨live', before ++ next, false⟩, ?_, ⟨rfl, rest'⟩, ?_⟩
      · rw [walk, Option.bind_some]
        dsimp only
        rw [found, freed, Option.bind_some, freed', Option.map_some]
      · rw [split, ← found]
        exact (filter_unlinked apart).symm

theorem plain_free_kept (accounted : Accounted tracked others) {p : Nat}
    (fair : Fair tracked (.plainFree p)) : ∃ after, step tracked (.plainFree p) = some after ∧
      Accounted after (others.erase p) ∧ after.head = tracked.head := by
  obtain ⟨used, noBlock, noAddress⟩ := fair
  have owned : p ∈ others.val := by
    rw [← Finset.mem_val, accounted.shares, Multiset.mem_add, Multiset.mem_add, Multiset.mem_coe,
      Multiset.mem_coe] at used
    tauto
  have share : tracked.live.val = p ::ₘ ((others.erase p).val +
      ↑(tracked.head.map fun current => current.2.address) + ↑(tracked.head.map Prod.fst)) := by
    rw [accounted.shares, Finset.erase_val, ← Multiset.cons_add, ← Multiset.cons_add,
      Multiset.cons_erase owned]
  obtain ⟨live, freed, rest⟩ := release_share share
  refine ⟨{ tracked with live := live }, ?_, ⟨accounted.ends, rest⟩, rfl⟩
  unfold step
  dsimp only
  rw [if_neg noBlock, freed, Option.map_some]

theorem plain_malloc_kept (accounted : Accounted tracked others) {ptr : Option Nat}
    (fair : Fair tracked (.plainMalloc ptr)) : ∃ after, step tracked (.plainMalloc ptr) = some after ∧
      Accounted after (beside others (.plainMalloc ptr)) ∧ after.head = tracked.head := by
  cases ptr with
  | none => exact ⟨tracked, rfl, accounted, rfl⟩
  | some p =>
    obtain ⟨live, got, share⟩ := acquire_share (fair p rfl)
    refine ⟨{ tracked with live := live }, ?_, ⟨accounted.ends, ?_⟩, rfl⟩
    · unfold step
      dsimp only
      rw [got, Option.map_some]
    · dsimp only [beside]
      rw [share, accounted.shares, Finset.insert_val_of_notMem (not_others accounted (fair p rfl))]
      simp only [Multiset.cons_add]

theorem fair_step (accounted : Accounted tracked others) {call : Call} (fair : Fair tracked call) :
    ∃ after, step tracked call = some after ∧ Accounted after (beside others call) ∧
      after.head.map Prod.snd = (noted call).toList ++
        (tracked.head.map Prod.snd).filter fun block => call ≠ .free (some block.address) := by
  have all : ∀ other, (∀ p, other ≠ Call.free p) → (tracked.head.map Prod.snd).filter
      (fun block => other ≠ .free (some block.address)) = tracked.head.map Prod.snd := by
    intro other notFree
    rw [List.filter_eq_self]
    intro block _
    exact decide_eq_true (notFree _)
  cases call with
  | malloc size file line ptr block =>
    rw [all _ (by simp)]
    exact malloc_kept accounted size file line fair
  | calloc num size file line ptr block =>
    obtain ⟨after, moved, kept, list⟩ := malloc_kept accounted size file line fair
    refine ⟨after, moved, ?_, ?_⟩
    · cases ptr <;> cases block <;> exact kept
    · rw [all _ (by simp)]
      cases ptr <;> cases block <;> exact list
  | free ptr =>
    obtain ⟨after, moved, kept, list⟩ := free_kept accounted ptr
    refine ⟨after, moved, kept, list.trans ?_⟩
    simp [noted]
  | check => exact fair.elim
  | plainMalloc ptr =>
    obtain ⟨after, moved, kept, list⟩ := plain_malloc_kept accounted fair
    refine ⟨after, moved, kept, ?_⟩
    rw [list, all _ (by simp)]
    rfl
  | plainFree p =>
    obtain ⟨after, moved, kept, list⟩ := plain_free_kept accounted fair
    refine ⟨after, moved, kept, ?_⟩
    rw [list, all _ (by simp)]
    rfl

theorem toList_filter_reverse (block : Option MemoryBlock) (keep : MemoryBlock → Bool) :
    (block.toList.filter keep).reverse = block.toList.filter keep := by
  cases block with
  | none => rfl
  | some block =>
    rw [Option.toList_some, List.filter_cons]
    split <;> rfl

theorem leftOver_cons (call : Call) (later : List Call) :
    (leftOver (call :: later)).reverse = (leftOver later).reverse ++
      (noted call).toList.filter fun block => .free (some block.address) ∉ later := by
  rw [leftOver, List.reverse_append, toList_filter_reverse]

/-- What a run does to the list: what it leaves of the old one, behind what it adds. -/
theorem fair_run (accounted : Accounted tracked others) {calls : List Call}
    (fair : Runs.Meets step Fair tracked calls) : ∃ after, Runs.run step tracked calls = some after ∧
      Accounted after (calls.foldl beside others) ∧
      after.head.map Prod.snd = (leftOver calls).reverse ++
        (tracked.head.map Prod.snd).filter fun block => .free (some block.address) ∉ calls := by
  induction calls generalizing tracked others with
  | nil =>
    refine ⟨tracked, rfl, accounted, ?_⟩
    rw [List.filter_eq_self.mpr (fun _ _ => decide_eq_true List.not_mem_nil)]
    rfl
  | cons call calls ih =>
    obtain ⟨now, later⟩ := fair
    obtain ⟨between, moved, kept, list⟩ := fair_step accounted now
    obtain ⟨after, run, final, rest⟩ := ih kept (later between moved)
    refine ⟨after, Runs.run_cons_some.mpr ⟨between, moved, run⟩, final, ?_⟩
    rw [rest, list, List.filter_append, List.filter_filter, leftOver_cons, List.append_assoc]
    congr 2
    apply List.filter_congr
    intro block _
    simp [eq_comm, Bool.and_comm]

end Steps

section Reports
variable {tracked after : Tracked} {others : Finset Nat} {report : List MemoryBlock}

theorem malloc_dangling {size : Nat} {file : CString} {line : Int} {ptr block : Option Nat}
    (moved : testMalloc size file line ptr block tracked = some after) :
    after.dangling = tracked.dangling := by
  cases ptr with
  | none =>
    obtain rfl := Option.some.inj moved
    rfl
  | some p =>
    obtain ⟨live, -, noting⟩ := Option.bind_eq_some_iff.mp moved
    obtain ⟨live', -, rfl⟩ := Option.map_eq_some_iff.mp noting
    cases block <;> rfl

theorem free_dangling {ptr : Option Nat} (moved : testFree ptr tracked = some after) :
    after.dangling = tracked.dangling := by
  cases ptr with
  | none =>
    obtain rfl := Option.some.inj moved
    rfl
  | some p =>
    obtain ⟨⟨temp, head⟩, -, freeing⟩ := Option.bind_eq_some_iff.mp moved
    cases temp with
    | none =>
      obtain rfl := Option.some.inj freeing
      rfl
    | some temp =>
      obtain ⟨live, -, last⟩ := Option.bind_eq_some_iff.mp freeing
      obtain ⟨live', -, rfl⟩ := Option.map_eq_some_iff.mp last
      rfl

theorem check_dangling (dangling : tracked.dangling = true) : step tracked .check = none := by
  unfold step checkForLeaks
  dsimp only
  rw [if_pos dangling, Option.map_none]

theorem dangling_stays {call : Call} (dangling : tracked.dangling = true)
    (moved : step tracked call = some after) : after.dangling = true := by
  cases call with
  | malloc size file line ptr block => rw [malloc_dangling moved, dangling]
  | calloc num size file line ptr block => rw [malloc_dangling moved, dangling]
  | free ptr => rw [free_dangling moved, dangling]
  | check =>
    rw [check_dangling dangling] at moved
    cases moved
  | plainMalloc ptr =>
    obtain ⟨live, -, rfl⟩ := Option.map_eq_some_iff.mp moved
    exact dangling
  | plainFree p =>
    dsimp only [step] at moved
    split at moved
    · cases moved
    · obtain ⟨live, -, rfl⟩ := Option.map_eq_some_iff.mp moved
      exact dangling

theorem report_of_accounted (accounted : Accounted tracked others) : ∃ after,
    checkForLeaks tracked = some (tracked.head.map Prod.snd, after) ∧
      after.dangling = !tracked.head.isEmpty ∧
      after.live.val = others.val + ↑(tracked.head.map fun current => current.2.address) := by
  obtain ⟨live, freed, rest⟩ := release_all accounted.shares
  refine ⟨⟨live, [], !tracked.head.isEmpty⟩, ?_, rfl, rest⟩
  unfold checkForLeaks
  rw [accounted.ends, if_neg Bool.false_ne_true, freed, Option.map_some]

theorem second_check (reported : checkForLeaks tracked = some (report, after))
    (leaks : after.dangling = true) (later : List Call) :
    Runs.run step tracked (.check :: later ++ [.check]) = none := by
  have first : step tracked .check = some after := by
    unfold step
    dsimp only
    rw [reported, Option.map_some]
  rw [List.cons_append, Runs.run, first, Option.bind_some, Runs.run_append]
  cases run : Runs.run step after later with
  | none => rfl
  | some last =>
    have still : last.dangling = true :=
      Runs.run_invariant (fun _ _ _ dangling moved => dangling_stays dangling moved) leaks run
    rw [Option.bind_some, Runs.run, check_dangling still, Option.bind_none]

end Reports

/-- The report names exactly the blocks that were noted and not freed since, the newest first,
    whatever else test_free was given and whichever addresses were used again. -/
theorem leaks_reported (live : Finset Nat) (calls : List Call)
    (fair : Runs.Meets step Fair (start live) calls) : ∃ tracked after,
      Runs.run step (start live) calls = some tracked ∧
      checkForLeaks tracked = some ((leftOver calls).reverse, after) ∧
      after.live.val = (calls.foldl beside live).val + ↑((leftOver calls).map MemoryBlock.address) ∧
      ∀ later, leftOver calls ≠ [] →
        Runs.run step tracked (.check :: later ++ [.check]) = none := by
  have nothing : Accounted (start live) live := ⟨rfl, by simp [start]⟩
  obtain ⟨tracked, run, accounted, list⟩ := fair_run nothing fair
  obtain ⟨after, report, dangles, shares⟩ := report_of_accounted accounted
  have left : tracked.head.map Prod.snd = (leftOver calls).reverse := by
    rw [list]
    exact List.append_nil _
  rw [left] at report
  refine ⟨tracked, after, run, report, ?_, ?_⟩
  · have addresses : (tracked.head.map fun current => current.2.address) =
        ((leftOver calls).map MemoryBlock.address).reverse := by
      rw [← List.map_reverse, ← left, List.map_map]
      rfl
    rw [shares, addresses, Multiset.coe_reverse]
  · intro later leaks
    apply second_check report
    rw [dangles, Bool.not_eq_true', List.isEmpty_eq_false_iff]
    intro empty
    rw [empty] at left
    exact leaks (List.reverse_eq_nil_iff.mp left.symm)

def addressAgain : List Call :=
  [.malloc 16 "state.c".toList 11 (some 1) (some 2),
   .calloc 1000 4 "heartbeat_history.c".toList 38 (some 3) (some 4),
   .plainMalloc (some 5), .free (some 1), .free (some 1),
   .malloc 40 "state.c".toList 21 (some 1) (some 2), .free (some 5), .free none]

theorem leaks_addressAgain : ∃ tracked after,
    Runs.run step (start ∅) addressAgain = some tracked ∧
    checkForLeaks tracked = some ((leftOver addressAgain).reverse, after) ∧
    after.live.val = (addressAgain.foldl beside ∅).val +
      ↑((leftOver addressAgain).map MemoryBlock.address) ∧
    ∀ later, leftOver addressAgain ≠ [] →
      Runs.run step tracked (.check :: later ++ [.check]) = none :=
  leaks_reported ∅ addressAgain (by
    simp [addressAgain, Runs.Meets, Fair, start, step, testMalloc, testCalloc, testFree, acquire,
      unlink, release])

example : (leftOver addressAgain).map (fun block => (block.size, block.address)) =
    [(4, 3), (40, 1)] := by decide

end RealMQ.LeakDetector
