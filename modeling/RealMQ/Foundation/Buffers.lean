import Mathlib

/- Memory around an object, at signed offsets from its start, with a log of the offsets that
   were written. The size of the object is no part of it: what stays inside is a property of
   the log. -/
namespace RealMQ.Buffers
variable {α : Type*}

structure Buffer (α : Type*) where
  cells : Int → α
  written : List Int

def fresh (garbage : Int → α) : Buffer α := ⟨garbage, []⟩

def write (buffer : Buffer α) (i : Int) (x : α) : Buffer α :=
  ⟨Function.update buffer.cells i x, buffer.written ++ [i]⟩

def copyAt (buffer : Buffer α) (i : Int) : List α → Buffer α
  | [] => buffer
  | x :: xs => copyAt (write buffer i x) (i + 1) xs

/-- Every offset that was written belongs to an object of the given size. -/
def Inside (buffer : Buffer α) (size : Nat) : Prop :=
  ∀ i ∈ buffer.written, 0 ≤ i ∧ i < size

def Holds (buffer : Buffer α) (i : Int) (xs : List α) : Prop :=
  ∀ k (bound : k < xs.length), buffer.cells (i + k) = xs[k]

section Basics
variable {buffer : Buffer α} {size : Nat} {i j : Int} {x : α} {xs ys : List α}

theorem inside_fresh (garbage : Int → α) (size : Nat) : Inside (fresh garbage) size := by
  intro i member
  exact absurd member List.not_mem_nil

theorem inside_write_iff :
    Inside (write buffer i x) size ↔ Inside buffer size ∧ 0 ≤ i ∧ i < size := by
  unfold Inside write
  simp only [List.mem_append, List.mem_singleton]
  constructor
  · intro all
    exact ⟨fun j member => all j (Or.inl member), all i (Or.inr rfl)⟩
  · rintro ⟨before, here⟩ j (member | rfl)
    · exact before j member
    · exact here

theorem cells_copy_before (buffer : Buffer α) (xs : List α) (before : j < i) :
    (copyAt buffer i xs).cells j = buffer.cells j := by
  induction xs generalizing buffer i with
  | nil => rfl
  | cons x xs ih =>
    have rest := ih (write buffer i x) (show j < i + 1 by omega)
    rw [copyAt, rest]
    exact Function.update_of_ne (by omega) _ _

theorem holds_copy (buffer : Buffer α) (i : Int) (xs : List α) : Holds (copyAt buffer i xs) i xs := by
  induction xs generalizing buffer i with
  | nil =>
    intro k bound
    exact absurd bound (Nat.not_lt_zero k)
  | cons x xs ih =>
    intro k bound
    rw [copyAt]
    cases k with
    | zero =>
      have here : (write buffer i x).cells i = x := Function.update_self ..
      rw [Nat.cast_zero, add_zero, cells_copy_before _ _ (by omega), here]
      rfl
    | succ k =>
      have later := ih (write buffer i x) (i + 1) k (by simpa using bound)
      rw [List.getElem_cons_succ, ← later]
      congr 1
      push_cast
      omega

theorem holds_append (first : Holds buffer i xs) (second : Holds buffer (i + xs.length) ys) :
    Holds buffer i (xs ++ ys) := by
  intro k bound
  rcases Nat.lt_or_ge k xs.length with early | late
  · rw [List.getElem_append_left early]
    exact first k early
  · have shifted := second (k - xs.length) (by simp only [List.length_append] at bound; omega)
    rw [List.getElem_append_right late, ← shifted]
    congr 1
    omega

theorem holds_left (whole : Holds buffer i (xs ++ ys)) : Holds buffer i xs := by
  intro k bound
  have here := whole k (by simp only [List.length_append]; omega)
  rw [here, List.getElem_append_left bound]

theorem holds_copy_before (before : Holds buffer i xs) (apart : i + xs.length ≤ j) :
    Holds (copyAt buffer j ys) i xs := by
  intro k bound
  rw [cells_copy_before _ _ (by omega)]
  exact before k bound

theorem holds_write_apart (before : Holds buffer i xs) (apart : i + xs.length ≤ j) :
    Holds (write buffer j x) i xs := by
  intro k bound
  have here := before k bound
  rw [← here]
  exact Function.update_of_ne (by omega) _ _

theorem holds_write_end (before : Holds buffer i xs) (place : j = i + xs.length) :
    Holds (write buffer j x) i (xs ++ [x]) := by
  apply holds_append
  · exact holds_write_apart before place.ge
  · intro k bound
    obtain rfl : k = 0 := by simpa using bound
    rw [Nat.cast_zero, add_zero, ← place]
    exact Function.update_self ..

theorem holds_prefix {nul : α} {text : List α} (reads : Holds buffer i (text ++ [nul]))
    (held : Holds buffer i xs) (free : nul ∉ xs) : xs <+: text := by
  have short : xs.length ≤ text.length := by
    by_contra longer
    have inside : text.length < xs.length := Nat.not_le.mp longer
    have last := reads text.length (by simp)
    rw [held _ inside, List.getElem_concat_length rfl] at last
    exact free (last ▸ List.getElem_mem inside)
  rw [List.prefix_iff_eq_take]
  apply List.ext_getElem
  · simp [short]
  · intro k bound _
    have here := reads k (by simp only [List.length_append]; omega)
    rw [held k bound, List.getElem_append_left (by omega)] at here
    rw [here, List.getElem_take]

theorem inside_copy_iff (start : 0 ≤ i) :
    Inside (copyAt buffer i xs) size ↔ Inside buffer size ∧ (xs ≠ [] → i + xs.length ≤ size) := by
  induction xs generalizing buffer i with
  | nil => simp [copyAt]
  | cons x xs ih =>
    rw [copyAt, ih (by omega), inside_write_iff, and_assoc]
    apply and_congr_right
    intro _
    simp only [ne_eq, reduceCtorEq, not_false_eq_true, forall_const, List.length_cons,
      Nat.cast_add, Nat.cast_one]
    cases xs with
    | nil =>
      simp only [not_true_eq_false, false_imp_iff, and_true, List.length_nil, Nat.cast_zero]
      omega
    | cons y ys =>
      simp only [reduceCtorEq, not_false_eq_true, forall_const, List.length_cons,
        Nat.cast_add, Nat.cast_one]
      omega

theorem inside_terminated_iff (start : 0 ≤ i) :
    Inside (copyAt buffer i (xs ++ [x])) size ↔ Inside buffer size ∧ i + xs.length < size := by
  rw [inside_copy_iff start]
  simp only [ne_eq, List.append_eq_nil_iff, List.cons_ne_self, and_false, not_false_eq_true,
    forall_const, List.length_append, List.length_singleton]
  apply and_congr_right
  intro _
  omega

end Basics

/-- A text at the start of an object with its terminator behind it. -/
structure Text (nul : α) where
  memory : Buffer α
  text : List α
  terminated : Holds memory 0 (text ++ [nul])

section Texts
variable {nul : α}

def put (nul : α) (memory : Buffer α) (text : List α) : Text nul :=
  ⟨copyAt memory 0 (text ++ [nul]), text, holds_copy memory 0 _⟩

def strcat (front : Text nul) (more : List α) : Text nul where
  memory := copyAt front.memory front.text.length (more ++ [nul])
  text := front.text ++ more
  terminated := by
    rw [List.append_assoc]
    apply holds_append
    · exact holds_copy_before (holds_left front.terminated) (by omega)
    · rw [zero_add]
      exact holds_copy front.memory _ _

@[simp] theorem text_put (memory : Buffer α) (text : List α) : (put nul memory text).text = text := rfl

@[simp] theorem text_strcat (front : Text nul) (more : List α) :
    (strcat front more).text = front.text ++ more := rfl

theorem inside_put_iff {memory : Buffer α} {text : List α} {size : Nat} :
    Inside (put nul memory text).memory size ↔ Inside memory size ∧ text.length < size := by
  unfold put
  rw [inside_terminated_iff (le_refl 0)]
  apply and_congr_right
  intro _
  omega

theorem inside_strcat_iff {front : Text nul} {more : List α} {size : Nat} :
    Inside (strcat front more).memory size ↔
      Inside front.memory size ∧ front.text.length + more.length < size := by
  unfold strcat
  rw [inside_terminated_iff (by omega)]
  apply and_congr_right
  intro _
  omega

end Texts

end RealMQ.Buffers
