import RealMQ.CStrings

/- common/string_manip.c; allocations succeed. -/
namespace RealMQ.StringManip
open CStrings

/-- The second loop of split_string, once per token that the first loop counted. -/
def copyTokens (delim : Char) : Nat → CString → List CString
  | 0, _ => []
  | n + 1, ptr =>
      ptr.takeWhile (· ≠ delim) :: copyTokens delim n ((ptr.dropWhile (· ≠ delim)).drop 1)

def splitString (str : CString) (delim : Char) : List CString :=
  copyTokens delim (str.count delim + 1) str

def rejected (c : Char) : Bool := c.toNat = 0x22 || c.toNat = 0x5C || c.toNat = 0x2F || c.toNat = 0x7C

def characterOf (draw : Nat) : Char := Char.ofNat (draw % (0x7E - 0x21) + 0x21)

/-- The results rand() is going to return. The inner loop of random_string ends because,
    however often it has drawn, a character that it keeps is still to come. -/
structure Rand where
  draw : Nat → Nat
  fair : ∀ k, ∃ j, k ≤ j ∧ rejected (characterOf (draw j)) = false

def Rand.next (rand : Rand) (k : Nat) : Nat := Nat.find (rand.fair k)

def randomCharacters (rand : Rand) : Nat → Nat → CString
  | _, 0 => []
  | k, n + 1 =>
      characterOf (rand.draw (rand.next k)) :: randomCharacters rand (rand.next k + 1) n

def randomString (rand : Rand) (stringSize : UInt32) : CString :=
  randomCharacters rand 0 stringSize.toNat

/-- Counting first and copying afterwards gives all pieces, empty ones included. -/
theorem splitString_eq (str : CString) (delim : Char) : splitString str delim = str.splitOn delim := by
  unfold splitString
  induction count : str.count delim generalizing str with
  | zero =>
    have free : delim ∉ str := List.count_eq_zero.mp count
    have whole : str.takeWhile (· ≠ delim) = str := by
      rw [List.takeWhile_eq_self_iff]
      intro c member
      exact decide_eq_true (ne_of_mem_of_not_mem member free)
    rw [copyTokens, whole, List.splitOn_eq_singleton free]
    rfl
  | succ n ih =>
    have member : delim ∈ str := List.count_pos_iff.mp (by omega)
    obtain ⟨front, back, rfl, free⟩ := List.eq_append_cons_of_mem member
    have kept : ∀ c ∈ front, decide (c ≠ delim) = true := fun c inside =>
      decide_eq_true (ne_of_mem_of_not_mem inside free)
    have rest : back.count delim = n := by
      rw [List.count_append, List.count_eq_zero_of_not_mem free, List.count_cons_self] at count
      omega
    rw [copyTokens, List.takeWhile_append_of_pos kept, List.dropWhile_append_of_pos kept,
      List.splitOn_append_cons_self_of_not_mem free]
    simp [ih back rest]

example : splitString "a,,b,".toList ',' = ["a".toList, [], "b".toList, []] := by decide

def join (delim : Char) (tokens : List CString) : CString := [delim].intercalate tokens

theorem copyTokens_length (delim : Char) (n : Nat) (ptr : CString) :
    (copyTokens delim n ptr).length = n := by
  induction n generalizing ptr with
  | zero => rfl
  | succ n ih => rw [copyTokens, List.length_cons, ih]

theorem copyTokens_free {delim : Char} {n : Nat} {ptr token : CString}
    (member : token ∈ copyTokens delim n ptr) : delim ∉ token := by
  induction n generalizing ptr with
  | zero => exact absurd member List.not_mem_nil
  | succ n ih =>
    rw [copyTokens, List.mem_cons] at member
    rcases member with rfl | later
    · intro inside
      have kept := List.mem_takeWhile_imp inside
      simp at kept
    · exact ih later

theorem join_split (str : CString) (delim : Char) : join delim (splitString str delim) = str := by
  rw [splitString_eq]
  exact List.intercalate_splitOn delim

theorem split_join {delim : Char} {tokens : List CString} (some : tokens ≠ [])
    (free : ∀ token ∈ tokens, delim ∉ token) : splitString (join delim tokens) delim = tokens := by
  rw [splitString_eq]
  exact List.splitOn_intercalate delim free some

/-- Splitting and joining are inverse to each other. -/
theorem split_and_join (delim : Char) :
    (∀ str, (splitString str delim).length = str.count delim + 1 ∧
      (∀ token ∈ splitString str delim, delim ∉ token) ∧
      join delim (splitString str delim) = str) ∧
    ∀ tokens, tokens ≠ [] → (∀ token ∈ tokens, delim ∉ token) →
      splitString (join delim tokens) delim = tokens := by
  constructor
  · intro str
    exact ⟨copyTokens_length delim _ str, fun _ member => copyTokens_free member, join_split str delim⟩
  · intro tokens some free
    exact split_join some free

theorem split_and_join_empty_tokens :
    splitString (join ',' [[], [], ['a'], []]) ',' = [[], [], ['a'], []] :=
  (split_and_join ',').2 [[], [], ['a'], []] (List.cons_ne_nil _ _) (by decide)

theorem randomCharacters_length (rand : Rand) (k n : Nat) :
    (randomCharacters rand k n).length = n := by
  induction n generalizing k with
  | zero => rfl
  | succ n ih => rw [randomCharacters, List.length_cons, ih]

@[simp] theorem randomString_length (rand : Rand) (stringSize : UInt32) :
    (randomString rand stringSize).length = stringSize.toNat := randomCharacters_length rand 0 _

end RealMQ.StringManip
