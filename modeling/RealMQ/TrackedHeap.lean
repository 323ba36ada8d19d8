import RealMQ.HistoryHeap
import RealMQ.Foundation.Ownership

/- test_malloc, test_calloc and test_free of utils/memory_leak_detector.c on a heap of cells, each
   in one piece. The list is given from its head on: where a MemoryBlock lies, and the address in
   it. A MemoryBlock is a block without cells. -/
namespace RealMQ.TrackedHeaps
open Heaps
variable {K : Type*}

structure Tracked (K : Type*) where
  heap : Heap K
  head : List (Nat × Nat)

def addresses (head : List (Nat × Nat)) : Finset Nat := (head.map Prod.snd).toFinset

def note (heap : Heap K) (head : List (Nat × Nat)) (address : Nat) : Tracked K :=
  ⟨allocate heap [], (heap.next, address) :: head⟩

/-- Both mallocs succeed. The new block is the one that was next. -/
def testMalloc (tracked : Tracked K) (content : List K) : Tracked K :=
  note (allocate tracked.heap content) tracked.head tracked.heap.next

def unlink (heap : Heap K) (head : List (Nat × Nat)) (pointer : Pointer) : Option (Tracked K) :=
  match head.find? fun current => decide (some current.2 = pointer) with
  | none => some ⟨heap, head⟩
  | some temp => (free heap (some temp.1)).map fun heap => ⟨heap, head.erase temp⟩

def testFree (tracked : Tracked K) (pointer : Pointer) : Option (Tracked K) :=
  (HistoryHeap.testFree (addresses tracked.head) tracked.heap pointer).bind fun heap =>
    unlink heap tracked.head pointer

def entries (head : List (Nat × Nat)) : Multiset (Nat × List K) :=
  ↑(head.map fun current => (current.1, ([] : List K)))

/-- These blocks are in the list, each once; the frame is not. -/
structure Noted (frame : Multiset (Nat × List K)) (tracked : Tracked K)
    (blocks : Multiset (Nat × List K)) : Prop where
  owns : Owns tracked.heap (blocks + (entries tracked.head + frame))
  listed : (↑(tracked.head.map Prod.snd) : Multiset Nat) = blocks.map Prod.fst

section Tracking
variable {frame blocks : Multiset (Nat × List K)} {tracked : Tracked K} {heap : Heap K} {p : Nat}
  {content new : List K}

theorem noted_nothing (owns : Owns heap frame) : Noted frame ⟨heap, []⟩ 0 :=
  ⟨by simpa [entries] using owns, rfl⟩

theorem noted_malloc (noted : Noted frame tracked blocks) :
    Noted frame (testMalloc tracked content) ({(tracked.heap.next, content)} + blocks) := by
  have both : Owns (testMalloc tracked content).heap _ := owns_allocate (owns_allocate noted.owns)
  constructor
  · convert both using 1
    simp only [testMalloc, note, entries, List.map_cons, ← Multiset.cons_coe,
      ← Multiset.singleton_add]
    abel
  · rw [Multiset.map_add, Multiset.map_singleton, Multiset.singleton_add, ← noted.listed]
    rfl

theorem noted_focus (noted : Noted frame tracked ({(p, content)} + blocks)) :
    Owns tracked.heap ({(p, content)} + (blocks + (entries tracked.head + frame))) := by
  rw [← add_assoc]
  exact noted.owns

theorem noted_rewritten (noted : Noted frame tracked ({(p, content)} + blocks))
    (owns : Owns heap ({(p, new)} + (blocks + (entries tracked.head + frame)))) :
    Noted frame ⟨heap, tracked.head⟩ ({(p, new)} + blocks) := by
  constructor
  · rw [add_assoc]
    exact owns
  · rw [noted.listed]
    simp only [Multiset.map_add, Multiset.map_singleton]

theorem noted_block (noted : Noted frame tracked blocks) (member : (p, content) ∈ blocks) :
    cells tracked.heap (some p) = some content :=
  owned_member noted.owns (Multiset.mem_add.mpr (Or.inl member))

theorem noted_free (noted : Noted frame tracked ({(p, content)} + blocks)) :
    ∃ after, testFree tracked (some p) = some after ∧ Noted frame after blocks := by
  have member : p ∈ tracked.head.map Prod.snd := by
    rw [← Multiset.mem_coe, noted.listed]
    simp
  obtain ⟨between, freed, rest⟩ := owns_free (noted_focus noted)
  obtain ⟨temp, found⟩ : ∃ temp,
      tracked.head.find? (fun current => decide (some current.2 = some p)) = some temp := by
    obtain ⟨entry, inside, same⟩ := List.mem_map.mp member
    rw [← Option.isSome_iff_exists, List.find?_isSome]
    exact ⟨entry, inside, by simp [same]⟩
  have inside : temp ∈ tracked.head := List.mem_of_find?_eq_some found
  have address : temp.2 = p := by simpa using List.find?_some found
  have split : (↑tracked.head : Multiset (Nat × Nat)) = temp ::ₘ ↑(tracked.head.erase temp) :=
    Multiset.coe_eq_coe.mpr (List.perm_cons_erase inside)
  have place : Owns between ({(temp.1, [])} + (blocks + (entries (tracked.head.erase temp) + frame))) := by
    convert rest using 1
    have shares := congrArg (Multiset.map fun current => (current.1, ([] : List K))) split
    rw [Multiset.map_cons, Multiset.map_coe, Multiset.map_coe] at shares
    unfold entries
    rw [shares, ← Multiset.singleton_add]
    abel
  obtain ⟨after, unlinked, final⟩ := owns_free place
  have known : p ∈ addresses tracked.head := List.mem_toFinset.mpr member
  refine ⟨⟨after, tracked.head.erase temp⟩, ?_, final, ?_⟩
  · unfold testFree unlink HistoryHeap.testFree
    dsimp only
    rw [if_pos known, freed, Option.bind_some, found]
    dsimp only
    rw [unlinked, Option.map_some]
  · have shares := congrArg (Multiset.map Prod.snd) split
    rw [Multiset.map_cons, Multiset.map_coe, Multiset.map_coe, noted.listed, Multiset.map_add,
      Multiset.map_singleton, Multiset.singleton_add, address] at shares
    exact (Multiset.cons_inj_right p).mp shares.symm

theorem live_noted (noted : Noted frame tracked blocks) :
    liveBlocks tracked.heap = 2 * blocks.card + frame.card := by
  have count := congrArg Multiset.card noted.listed
  rw [Multiset.coe_card, Multiset.card_map, List.length_map] at count
  rw [live_owned noted.owns, Multiset.card_add, Multiset.card_add, entries, Multiset.coe_card,
    List.length_map, count]
  omega

end Tracking

end RealMQ.TrackedHeaps
