import Mathlib

/- Memory cells indexed by Nat, read through a window that starts at cell 0. Nothing here
   knows how many cells are allocated; that is for the structures built on top. -/
namespace RealMQ.Slots
variable {α : Type*}

def window (mem : Nat → α) (n : Nat) : List α := (List.range n).map mem

/-- The loop for (i = 0; i < n; i++) mem[i] = value i. -/
def overwrite (mem value : Nat → α) (n : Nat) : Nat → α := fun i => if i < n then value i else mem i

/-- The loop for (j = i; j < i + moves; j++) mem[j] = mem[j + 1]. -/
def shiftDown (mem : Nat → α) (i : Nat) : Nat → Nat → α
  | 0 => mem
  | moves + 1 =>
      Function.update (shiftDown mem i moves) (i + moves) (shiftDown mem i moves (i + moves + 1))

@[simp] theorem window_length (mem : Nat → α) (n : Nat) : (window mem n).length = n := by
  simp [window]

@[simp] theorem window_zero (mem : Nat → α) : window mem 0 = [] := rfl

theorem window_succ (mem : Nat → α) (n : Nat) : window mem (n + 1) = window mem n ++ [mem n] := by
  simp [window, List.range_succ]

theorem window_getElem (mem : Nat → α) (n i : Nat) (h : i < (window mem n).length) :
    (window mem n)[i] = mem i := by
  simp [window]

theorem window_getElem? (mem : Nat → α) (n i : Nat) (bound : i < n) :
    (window mem n)[i]? = some (mem i) := by
  simp [window, bound]

theorem mem_window {mem : Nat → α} {n : Nat} {x : α} :
    x ∈ window mem n ↔ ∃ i, i < n ∧ mem i = x := by
  simp [window]

theorem window_congr {mem mem' : Nat → α} {n : Nat} (same : ∀ i, i < n → mem i = mem' i) :
    window mem n = window mem' n :=
  List.map_congr_left fun i hi => same i (List.mem_range.mp hi)

@[simp] theorem window_overwrite (mem value : Nat → α) (n : Nat) :
    window (overwrite mem value n) n = window value n :=
  window_congr fun _ bound => if_pos bound

theorem overwrite_succ (mem value : Nat → α) (i : Nat) :
    overwrite mem value (i + 1) = Function.update (overwrite mem value i) i (value i) := by
  funext j
  unfold overwrite
  rw [Function.update_apply]
  by_cases here : j = i
  · rw [if_pos (by omega), if_pos here, here]
  · rw [if_neg here]
    by_cases before : j < i
    · rw [if_pos (by omega), if_pos before]
    · rw [if_neg (by omega), if_neg before]

theorem window_const (x : α) (n : Nat) : window (fun _ => x) n = List.replicate n x := by
  simp [window]

theorem window_getD (l : List α) (x : α) : window (fun i => l.getD i x) l.length = l := by
  apply List.ext_getElem
  · simp
  · intro i _ bound
    rw [window_getElem, List.getD_eq_getElem _ _ bound]

theorem window_map {β : Type*} (f : α → β) (mem : Nat → α) (n : Nat) :
    window (fun i => f (mem i)) n = (window mem n).map f := by
  simp [window]

theorem window_eq_iff {mem mem' : Nat → α} {n : Nat} :
    window mem n = window mem' n ↔ ∀ i, i < n → mem i = mem' i := by
  simp [window]

theorem window_update_beyond (mem : Nat → α) {n i : Nat} (x : α) (beyond : n ≤ i) :
    window (Function.update mem i x) n = window mem n :=
  window_congr fun j hj => Function.update_of_ne (by omega) _ _

theorem window_set (mem : Nat → α) (n i : Nat) (x : α) :
    (window mem n).set i x = window (Function.update mem i x) n := by
  apply List.ext_getElem
  · simp
  · intro j bound _
    rw [List.getElem_set, window_getElem, window_getElem, Function.update_apply]
    simp only [eq_comm]

theorem window_update_end (mem : Nat → α) (n : Nat) (x : α) :
    window (Function.update mem n x) (n + 1) = window mem n ++ [x] := by
  rw [window_succ, window_update_beyond mem x (Nat.le_refl n), Function.update_self]

theorem findIdx_window (mem : Nat → α) (n : Nat) (p : α → Bool) :
    (window mem n).findIdx? p = (List.range n).find? fun i => p (mem i) := by
  cases hit : (List.range n).find? fun i => p (mem i) with
  | none =>
    rw [List.find?_range_eq_none] at hit
    rw [List.findIdx?_eq_none_iff]
    intro x member
    obtain ⟨i, bound, rfl⟩ := mem_window.mp member
    simpa using hit i bound
  | some i =>
    obtain ⟨good, bound, before⟩ := List.find?_range_eq_some.mp hit
    rw [List.findIdx?_eq_some_iff_getElem]
    refine ⟨by simpa using bound, by rwa [window_getElem], ?_⟩
    intro j earlier
    rw [window_getElem]
    simpa using before j earlier

theorem mapM_window {mem : Nat → α} {n : Nat} {read : Nat → Option α}
    (cell : ∀ i, i < n → read i = some (mem i)) : (List.range n).mapM read = some (window mem n) := by
  induction n with
  | zero => rfl
  | succ n ih =>
    have front := ih fun i bound => cell i (by omega)
    rw [List.range_succ, List.mapM_append, front, window_succ]
    simp [cell n (Nat.lt_succ_self n)]

theorem window_take (mem : Nat → α) {n k : Nat} (bound : k ≤ n) :
    (window mem n).take k = window mem k := by
  simp [window, ← List.map_take, List.take_range, Nat.min_eq_left bound]

theorem window_take_succ {mem : Nat → α} {n i : Nat} (bound : i < n) :
    (window mem n).take (i + 1) = (window mem n).take i ++ [mem i] := by
  rw [window_take mem (by omega), window_take mem (by omega), window_succ]

theorem window_drop {mem : Nat → α} {n i : Nat} (bound : i < n) :
    (window mem n).drop i = mem i :: (window mem n).drop (i + 1) := by
  rw [List.drop_eq_getElem_cons (by simpa using bound), window_getElem]

theorem shift_down_apply (mem : Nat → α) (i moves j : Nat) :
    shiftDown mem i moves j = if i ≤ j ∧ j < i + moves then mem (j + 1) else mem j := by
  induction moves generalizing j with
  | zero => rw [if_neg (by omega)]; rfl
  | succ moves ih =>
    simp only [shiftDown, Function.update_apply]
    split
    · rename_i last
      rw [ih, if_neg (by omega), if_pos (by omega), last]
    · rename_i other
      rw [ih]
      split <;> split <;> first | rfl | omega

theorem window_shift_down (mem : Nat → α) {n i : Nat} (bound : i < n) :
    window (shiftDown mem i (n - 1 - i)) (n - 1) = (window mem n).eraseIdx i := by
  apply List.ext_getElem
  · simp [List.length_eraseIdx, bound]
  · intro j hj hj'
    simp only [window_length] at hj
    rw [List.getElem_eraseIdx, window_getElem, shift_down_apply]
    by_cases before : j < i
    · rw [if_neg (by omega), dif_pos before, window_getElem]
    · rw [if_pos (by omega), dif_neg before, window_getElem]

theorem window_shift_first (mem : Nat → α) {n moves : Nat} (enough : n ≤ moves + 1) :
    window (shiftDown mem 0 moves) (n - 1) = (window mem n).drop 1 := by
  apply List.ext_getElem
  · simp
  · intro j hj hj'
    simp only [window_length] at hj
    rw [List.getElem_drop, window_getElem, window_getElem, shift_down_apply, if_pos (by omega),
      Nat.add_comm]

end RealMQ.Slots
