import Mathlib

/- Next-fit packing of a list into consecutive groups. The test on a whole group is a
   parameter; only being closed under prefixes, and for minimality under suffixes, is ever
   assumed of it. -/
namespace RealMQ.NextFit
variable {α : Type*} {fits : List α → Bool}

/-- The current group is closed as soon as the next item would break the test. -/
def nextFit (fits : List α → Bool) : List α → List α → List (List α)
  | current, [] => [current]
  | current, x :: xs =>
      if fits (current ++ [x]) then nextFit fits (current ++ [x]) xs
      else current :: nextFit fits [x] xs

def pack (fits : List α → Bool) : List α → List (List α)
  | [] => []
  | x :: xs => nextFit fits [x] xs

def PrefixClosed (fits : List α → Bool) : Prop :=
  ∀ xs ys, fits (xs ++ ys) = true → fits xs = true

def SuffixClosed (fits : List α → Bool) : Prop :=
  ∀ xs ys, fits (xs ++ ys) = true → fits ys = true

theorem nextFit_flatten (current xs : List α) :
    (nextFit fits current xs).flatten = current ++ xs := by
  induction xs generalizing current with
  | nil => simp [nextFit]
  | cons x xs ih =>
    simp only [nextFit]
    split
    · simp [ih]
    · simp [ih]

theorem pack_flatten (xs : List α) : (pack fits xs).flatten = xs := by
  cases xs with
  | nil => rfl
  | cons x xs => simp [pack, nextFit_flatten]

theorem nextFit_nonempty {current xs : List α} (start : current ≠ []) :
    ∀ g ∈ nextFit fits current xs, g ≠ [] := by
  induction xs generalizing current with
  | nil => simpa [nextFit] using start
  | cons x xs ih =>
    simp only [nextFit]
    split
    · exact ih (by simp)
    · intro g member
      rcases List.mem_cons.mp member with rfl | later
      · exact start
      · exact ih (by simp) g later

theorem pack_nonempty (xs : List α) : ∀ g ∈ pack fits xs, g ≠ [] := by
  cases xs with
  | nil => simp [pack]
  | cons x xs => exact nextFit_nonempty (by simp)

theorem nextFit_fits {current xs : List α} (start : fits current = true)
    (single : ∀ x ∈ xs, fits [x] = true) : ∀ g ∈ nextFit fits current xs, fits g = true := by
  induction xs generalizing current with
  | nil => simpa [nextFit] using start
  | cons x xs ih =>
    have later : ∀ y ∈ xs, fits [y] = true := fun y hy => single y (List.mem_cons_of_mem x hy)
    simp only [nextFit]
    split
    · rename_i room
      exact ih room later
    · intro g member
      rcases List.mem_cons.mp member with rfl | rest
      · exact start
      · exact ih (single x (by simp)) later g rest

theorem pack_fits {xs : List α} (single : ∀ x ∈ xs, fits [x] = true) :
    ∀ g ∈ pack fits xs, fits g = true := by
  cases xs with
  | nil => simp [pack]
  | cons x xs =>
    exact nextFit_fits (single x (by simp)) fun y hy => single y (List.mem_cons_of_mem x hy)

theorem nextFit_length_le (current xs : List α) :
    (nextFit fits current xs).length ≤ xs.length + 1 := by
  induction xs generalizing current with
  | nil => simp [nextFit]
  | cons x xs ih =>
    simp only [nextFit, List.length_cons]
    split
    · exact Nat.le_succ_of_le (ih _)
    · simpa using ih [x]

theorem pack_length_le (xs : List α) : (pack fits xs).length ≤ xs.length := by
  cases xs with
  | nil => simp [pack]
  | cons x xs => exact nextFit_length_le [x] xs

theorem nextFit_ne_nil (current xs : List α) : nextFit fits current xs ≠ [] := by
  induction xs generalizing current with
  | nil => simp [nextFit]
  | cons x xs ih =>
    simp only [nextFit]
    split
    · exact ih _
    · simp

theorem pack_ne_nil {xs : List α} (some : xs ≠ []) : pack fits xs ≠ [] := by
  cases xs with
  | nil => contradiction
  | cons x xs => exact nextFit_ne_nil [x] xs

theorem reach_cons {current xs : List α} {x : α} {k : Nat} (room : fits (current ++ [x]) = true)
    (reach : ∀ j, 0 < j → j ≤ xs.length →
      (j ≤ k ↔ fits (current ++ [x] ++ xs.take j) = true)) :
    ∀ j, 0 < j → j ≤ (x :: xs).length →
      (j ≤ k + 1 ↔ fits (current ++ (x :: xs).take j) = true) := by
  intro j pos within
  obtain ⟨i, rfl⟩ : ∃ i, j = i + 1 := ⟨j - 1, by omega⟩
  by_cases first : i = 0
  · subst i
    simp [room]
  · have next := reach i (by omega) (by simpa using within)
    simpa using next

/-- The first group takes items exactly as long as the test allows, and the packing of what
    is left follows. -/
theorem nextFit_head (closed : PrefixClosed fits) (current xs : List α) :
    ∃ k, nextFit fits current xs = (current ++ xs.take k) :: pack fits (xs.drop k) ∧
      k ≤ xs.length ∧
      ∀ j, 0 < j → j ≤ xs.length → (j ≤ k ↔ fits (current ++ xs.take j) = true) := by
  induction xs generalizing current with
  | nil => exact ⟨0, by simp [nextFit, pack], by simp, by simp; omega⟩
  | cons x xs ih =>
    simp only [nextFit]
    split
    · rename_i room
      obtain ⟨k, eq, bound, reach⟩ := ih (current ++ [x])
      exact ⟨k + 1, by simp [eq], by simpa using bound, reach_cons room reach⟩
    · rename_i full
      refine ⟨0, by simp [pack], by simp, ?_⟩
      intro j pos within
      obtain ⟨i, rfl⟩ : ∃ i, j = i + 1 := ⟨j - 1, by omega⟩
      constructor
      · omega
      · intro room
        have split : current ++ (x :: xs).take (i + 1) = (current ++ [x]) ++ xs.take i := by simp
        rw [split] at room
        exact absurd (closed _ _ room) full

theorem pack_head (closed : PrefixClosed fits) {xs : List α} (some : xs ≠ [])
    (single : ∀ x ∈ xs, fits [x] = true) :
    ∃ k, pack fits xs = xs.take k :: pack fits (xs.drop k) ∧
      ∀ j, 0 < j → j ≤ xs.length → (j ≤ k ↔ fits (xs.take j) = true) := by
  cases xs with
  | nil => contradiction
  | cons x xs =>
    obtain ⟨k, eq, bound, reach⟩ := nextFit_head closed [x] xs
    have room : fits ([] ++ [x]) = true := single x List.mem_cons_self
    exact ⟨k + 1, by simpa [pack] using eq, reach_cons room reach⟩

theorem fits_singleton (closed : PrefixClosed fits) (shorter : SuffixClosed fits)
    {groups : List (List α)} (all : ∀ g ∈ groups, fits g = true) {x : α}
    (member : x ∈ groups.flatten) : fits [x] = true := by
  obtain ⟨g, group, inside⟩ := List.mem_flatten.mp member
  obtain ⟨front, back, rfl⟩ := List.append_of_mem inside
  have tail : fits ([x] ++ back) = true := shorter front _ (all _ group)
  exact closed [x] back tail

/-- Next-fit stays ahead of every other cut: what it has still to pack when the other cut
    begins a group is a part of what the other cut has. -/
theorem pack_minimal (closed : PrefixClosed fits) (shorter : SuffixClosed fits)
    {groups : List (List α)} (all : ∀ g ∈ groups, fits g = true) {xs : List α}
    (part : xs <:+ groups.flatten) : (pack fits xs).length ≤ groups.length := by
  induction groups generalizing xs with
  | nil =>
    have empty : xs = [] := List.suffix_nil.mp part
    subst xs
    exact Nat.zero_le _
  | cons g groups ih =>
    have later : ∀ g' ∈ groups, fits g' = true := fun g' member =>
      all g' (List.mem_cons_of_mem _ member)
    rw [List.flatten_cons] at part
    rcases List.suffix_or_suffix_of_suffix part (List.suffix_append g groups.flatten) with
      behind | ⟨front, rfl⟩
    · exact Nat.le_succ_of_le (ih later behind)
    · by_cases none : front = []
      · subst none
        exact Nat.le_succ_of_le (ih later (List.suffix_refl _))
      · have inside : front <:+ g := by
          obtain ⟨before, eq⟩ := part
          rw [← List.append_assoc] at eq
          exact ⟨before, List.append_cancel_right eq⟩
        have room : fits front = true := by
          obtain ⟨before, rfl⟩ := inside
          exact shorter before front (all _ List.mem_cons_self)
        have singles : ∀ x ∈ front ++ groups.flatten, fits [x] = true := by
          intro x member
          apply fits_singleton closed shorter all
          exact part.subset member
        obtain ⟨k, eq, reach⟩ := pack_head closed (by simp [none]) singles
        have far : front.length ≤ k := by
          apply (reach front.length (List.length_pos_iff.mpr none) (by simp)).mpr
          rw [List.take_left]
          exact room
        have rest : (front ++ groups.flatten).drop k <:+ groups.flatten := by
          rw [List.drop_append, List.drop_of_length_le far, List.nil_append]
          exact List.drop_suffix _ _
        rw [eq, List.length_cons, List.length_cons]
        exact Nat.succ_le_succ (ih later rest)

end RealMQ.NextFit
