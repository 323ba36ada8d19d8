import RealMQ.Foundation.Heaps

/- Who is responsible for the live blocks of a heap: a multiset of addresses with contents. What
   is added on the right frames an operation that does not know it. -/
namespace RealMQ.Heaps
variable {α : Type*} {heap : Heap α} {frame blocks : Multiset (Nat × List α)} {p i : Nat}
  {content : List α}

/-- The live blocks are these and no others. -/
structure Owns (heap : Heap α) (blocks : Multiset (Nat × List α)) : Prop where
  apart : (blocks.map Prod.fst).Nodup
  live : ∀ p content, heap.block p = some content ↔ (p, content) ∈ blocks

theorem owns_nothing : Owns (noBlocks : Heap α) 0 :=
  ⟨Multiset.nodup_zero, fun _ _ => iff_of_false (by simp [noBlocks]) (Multiset.notMem_zero _)⟩

def liveBlocks (heap : Heap α) : Nat := (List.range heap.next).countP fun p => (heap.block p).isSome

theorem exists_owns (heap : Heap α) : ∃ blocks, Owns heap blocks := by
  refine ⟨Multiset.filterMap (fun p => (heap.block p).map fun content => (p, content))
    (Multiset.range heap.next), ?_, ?_⟩
  · rw [Multiset.map_filterMap]
    apply (Multiset.nodup_range heap.next).filterMap
    intro p q address left right
    simp only [Option.map_map, Option.mem_def, Option.map_eq_some_iff, Function.comp_apply] at left right
    obtain ⟨_, -, rfl⟩ := left
    obtain ⟨_, -, same⟩ := right
    exact same.symm
  · intro p content
    rw [Multiset.mem_filterMap]
    constructor
    · intro live
      exact ⟨p, Multiset.mem_range.mpr (live_lt live), by rw [live, Option.map_some]⟩
    · rintro ⟨q, -, found⟩
      obtain ⟨other, live, eq⟩ := Option.map_eq_some_iff.mp found
      obtain ⟨rfl, rfl⟩ := Prod.mk.inj eq
      exact live

theorem live_owned (owns : Owns heap blocks) : liveBlocks heap = blocks.card := by
  have addresses : (Multiset.range heap.next).filter (fun p => (heap.block p).isSome) =
      blocks.map Prod.fst := by
    rw [Multiset.Nodup.ext ((Multiset.nodup_range _).filter _) owns.apart]
    intro p
    rw [Multiset.mem_filter, Multiset.mem_range, Multiset.mem_map, Option.isSome_iff_exists]
    constructor
    · rintro ⟨-, content, live⟩
      exact ⟨(p, content), (owns.live p content).mp live, rfl⟩
    · rintro ⟨⟨q, content⟩, member, rfl⟩
      have live := (owns.live q content).mpr member
      exact ⟨live_lt live, content, live⟩
  have count := congrArg Multiset.card addresses
  rw [Multiset.card_map, ← Multiset.countP_eq_card_filter] at count
  rw [← count]
  simp only [liveBlocks, Multiset.range, Multiset.coe_countP, Bool.decide_eq_true]

theorem same_owned {other : Heap α} (owns : Owns heap blocks) (again : Owns other blocks) :
    heap.block = other.block := by
  funext p
  apply Option.ext
  intro content
  rw [owns.live, again.live]

theorem owned_block (owns : Owns heap ({(p, content)} + frame)) : heap.block p = some content :=
  (owns.live p content).mpr (Multiset.mem_add.mpr (Or.inl (Multiset.mem_singleton_self _)))

theorem owned_member (owns : Owns heap blocks) (member : (p, content) ∈ blocks) :
    cells heap (some p) = some content := (owns.live p content).mpr member

theorem owned_cells (owns : Owns heap ({(p, content)} + frame)) :
    cells heap (some p) = some content := owned_block owns

theorem owned_apart (owns : Owns heap ({(p, content)} + frame)) :
    p ∉ frame.map Prod.fst ∧ (frame.map Prod.fst).Nodup := by
  have apart := owns.apart
  rw [Multiset.map_add, Multiset.map_singleton, Multiset.singleton_add, Multiset.nodup_cons] at apart
  exact apart

theorem owns_allocate (owns : Owns heap frame) :
    Owns (allocate heap content) ({(heap.next, content)} + frame) := by
  constructor
  · rw [Multiset.map_add, Multiset.map_singleton, Multiset.singleton_add, Multiset.nodup_cons]
    refine ⟨?_, owns.apart⟩
    intro member
    obtain ⟨⟨p, old⟩, inside, rfl⟩ := Multiset.mem_map.mp member
    exact lt_irrefl _ (live_lt ((owns.live _ old).mpr inside))
  · intro q other
    rw [Multiset.singleton_add, Multiset.mem_cons, Prod.mk.injEq]
    by_cases same : q = heap.next
    · subst same
      rw [block_allocate_self, Option.some.injEq, ← owns.live, heap.unused _ le_rfl]
      simp [eq_comm]
    · rw [block_allocate_other same, owns.live]
      simp [same]

theorem owns_alter (owns : Owns heap ({(p, content)} + frame)) (new : List α) :
    Owns (alter heap p (some new)) ({(p, new)} + frame) := by
  obtain ⟨away, apart⟩ := owned_apart owns
  constructor
  · rw [Multiset.map_add, Multiset.map_singleton, Multiset.singleton_add, Multiset.nodup_cons]
    exact ⟨away, apart⟩
  · intro q other
    rw [Multiset.singleton_add, Multiset.mem_cons, Prod.mk.injEq]
    by_cases same : q = p
    · subst same
      rw [block_alter_self (owned_block owns), Option.some.injEq]
      constructor
      · exact fun eq => Or.inl ⟨rfl, eq.symm⟩
      · rintro (⟨-, eq⟩ | member)
        · exact eq.symm
        · exact absurd (Multiset.mem_map_of_mem Prod.fst member) away
    · rw [block_alter_other same, owns.live, Multiset.singleton_add, Multiset.mem_cons, Prod.mk.injEq]
      simp [same]

theorem owns_dead (owns : Owns heap ({(p, content)} + frame)) : Owns (alter heap p none) frame := by
  obtain ⟨away, apart⟩ := owned_apart owns
  refine ⟨apart, ?_⟩
  intro q other
  by_cases same : q = p
  · subst same
    rw [block_alter_self (owned_block owns)]
    refine iff_of_false (by simp) ?_
    intro member
    exact away (Multiset.mem_map_of_mem Prod.fst member)
  · rw [block_alter_other same, owns.live, Multiset.singleton_add, Multiset.mem_cons, Prod.mk.injEq]
    simp [same]

theorem owns_free (owns : Owns heap ({(p, content)} + frame)) :
    ∃ after, free heap (some p) = some after ∧ Owns after frame :=
  ⟨_, free_live (owned_block owns), owns_dead owns⟩

theorem freed_dead {after : Heap α} (freed : free heap (some p) = some after) :
    after.block p = none := by
  obtain ⟨content, live, rfl⟩ := Option.map_eq_some_iff.mp freed
  exact block_alter_self live none

theorem dead_free {pointer : Pointer} {after : Heap α} (dead : heap.block p = none)
    (freed : free heap pointer = some after) : after.block p = none := by
  cases pointer with
  | none =>
    obtain rfl := Option.some.inj freed
    exact dead
  | some q =>
    obtain ⟨content, live, rfl⟩ := Option.map_eq_some_iff.mp freed
    have other : p ≠ q := by
      rintro rfl
      rw [dead] at live
      cases live
    rw [block_alter_other other, dead]

theorem free_again (dead : heap.block p = none) : free heap (some p) = none := by
  unfold free
  dsimp only
  rw [dead, Option.map_none]

theorem owns_load (owns : Owns heap ({(p, content)} + frame)) :
    load heap (some p) i = content[i]? := by
  unfold load
  rw [owned_cells owns, Option.bind_some]

theorem owns_store (owns : Owns heap ({(p, content)} + frame)) (x : α) (bound : i < content.length) :
    ∃ after, store heap (some p) i x = some after ∧ Owns after ({(p, content.set i x)} + frame) := by
  refine ⟨_, ?_, owns_alter owns (content.set i x)⟩
  unfold store
  rw [Option.bind_some, owned_block owns, Option.bind_some, if_pos bound]

theorem owns_loop {shares : List (Multiset (Nat × List α))} {body : Nat → Heap α → Option (Heap α)}
    (step : ∀ k share, shares[k]? = some share → ∀ heap frame, Owns heap (share + frame) →
      ∃ after, body k heap = some after ∧ Owns after frame)
    (owns : Owns heap (shares.sum + frame)) :
    ∃ after, forLoop body shares.length heap = some after ∧ Owns after frame := by
  induction shares using List.reverseRecOn generalizing frame with
  | nil => exact ⟨heap, rfl, by simpa using owns⟩
  | append_singleton shares last ih =>
    have split : (shares ++ [last]).sum + frame = shares.sum + (last + frame) := by
      rw [List.sum_append, List.sum_singleton, add_assoc]
    rw [split] at owns
    obtain ⟨between, early, owned⟩ := ih
      (fun k share here => step k share (by
        have bound := (List.getElem?_eq_some_iff.mp here).1
        rw [List.getElem?_append_left bound, here])) owns
    obtain ⟨after, late, final⟩ := step shares.length last (by simp) between frame owned
    refine ⟨after, ?_, final⟩
    rw [List.length_append, List.length_singleton, forLoop, early, Option.bind_some, late]

end RealMQ.Heaps
