import Mathlib

/- The C library calls of the sources, on strings without their terminating NUL and with
   one Char per byte. Text functions only compare characters with ASCII ones, so a wider
   character type changes nothing. -/
namespace RealMQ.CStrings

abbrev CString := List Char

def nul : Char := Char.ofNat 0

/-- What printf writes for "%" PRIu64 and, below 2^63, for "%lld". -/
def decimal (n : Nat) : CString := Nat.toDigits 10 n

def signedDecimal (n : Int32) : CString :=
  if n.toInt < 0 then '-' :: decimal n.toInt.natAbs else decimal n.toInt.natAbs

def isspace (c : Char) : Bool := c = ' ' || (9 ≤ c.toNat && c.toNat ≤ 13)

/-- The parts strtol and its relatives see: white space and one sign are skipped, then
    comes the longest run of digits. Without a digit nothing is consumed. -/
structure Numeral where
  negative : Bool
  digits : CString
  rest : CString
  deriving DecidableEq, Repr

def dropSign : CString → CString
  | '+' :: s => s
  | '-' :: s => s
  | s => s

def scanNumeral (s : CString) : Numeral :=
  let body := s.dropWhile isspace
  let digits := (dropSign body).takeWhile Char.isDigit
  { negative := body.head? = some '-'
    digits := digits
    rest := if digits = [] then s else (dropSign body).dropWhile Char.isDigit }

def Numeral.magnitude (n : Numeral) : Nat := Nat.ofDigitChars 10 n.digits 0

/-- Out of range gives ULLONG_MAX; a minus sign negates modulo 2^64. -/
def strtoull (s : CString) : UInt64 :=
  let n := scanNumeral s
  if 2 ^ 64 ≤ n.magnitude then 0 - 1
  else if n.negative then 0 - UInt64.ofNat n.magnitude
  else UInt64.ofNat n.magnitude

/-- Out of range gives the nearer of LLONG_MIN and LLONG_MAX. -/
def strtoll (s : CString) : Int64 :=
  let n := scanNumeral s
  let value : Int := if n.negative then -n.magnitude else n.magnitude
  Int64.ofInt (max (-2 ^ 63) (min value (2 ^ 63 - 1)))

def Numeral.value (n : Numeral) : Int := if n.negative then -n.magnitude else n.magnitude

def FitsLong (v : Int) : Prop := -2 ^ 63 ≤ v ∧ v < 2 ^ 63

instance (v : Int) : Decidable (FitsLong v) := instDecidableAnd

structure Conversion where
  result : Int64
  endptr : CString
  erange : Bool

def strtol (s : CString) : Conversion :=
  { result := strtoll s
    endptr := (scanNumeral s).rest
    erange := decide (¬ FitsLong (scanNumeral s).value) }

/-- The texts before and after the character strchr finds. -/
def cutAt (c : Char) : CString → Option (CString × CString)
  | [] => none
  | x :: xs => if x = c then some ([], xs) else (cutAt c xs).map fun p => (x :: p.1, p.2)

/-- All tokens a loop of strtok calls returns: the non-empty pieces between delimiters. -/
def strtok (delim : Char) (s : CString) : List CString :=
  (s.splitOn delim).filter (· ≠ [])

def strncmpEq (s t : CString) (n : Nat) : Bool := s.take n = t.take n

inductive Sign where
  | absent
  | plus
  | minus
  deriving DecidableEq

def Sign.text : Sign → CString
  | .absent => []
  | .plus => ['+']
  | .minus => ['-']

def Sign.applied : Sign → Nat → Int
  | .minus, n => -n
  | _, n => n

/-- The text is, as a whole, a decimal numeral with the value v: white space, a sign, digits. -/
inductive Denotes : CString → Int → Prop
  | numeral (spaces : CString) (sign : Sign) (digits : CString)
      (blank : ∀ c ∈ spaces, isspace c = true) (some : digits ≠ [])
      (decimal : ∀ c ∈ digits, c.isDigit = true) :
      Denotes (spaces ++ (sign.text ++ digits)) (sign.applied (Nat.ofDigitChars 10 digits 0))

theorem toUInt64_of_nonneg {t : Int64} (nonneg : 0 ≤ t.toInt) : (t.toUInt64.toNat : Int) = t.toInt := by
  have unsigned := BitVec.toInt_eq_toNat_cond t.toBitVec
  rw [Int64.toNat_toBitVec, Int64.toInt_toBitVec] at unsigned
  have lower := t.toUInt64.toNat_lt
  split at unsigned <;> push_cast at unsigned <;> omega

theorem decimal_ne_nil (n : Nat) : decimal n ≠ [] := Nat.toDigits_ne_nil

theorem decimal_is_digit {n : Nat} {c : Char} (member : c ∈ decimal n) : c.isDigit = true :=
  Nat.isDigit_of_mem_toDigits (by decide) (by decide) member

theorem not_mem_decimal {n : Nat} {c : Char} (other : c.isDigit = false) : c ∉ decimal n := by
  intro member
  simp [decimal_is_digit member] at other

theorem decimal_length_pos (n : Nat) : 0 < (decimal n).length :=
  List.length_pos_iff.mpr (decimal_ne_nil n)

theorem decimal_length_le {n k : Nat} (pos : 0 < k) (bound : n < 10 ^ k) :
    (decimal n).length ≤ k :=
  (Nat.length_toDigits_le_iff (by decide) pos).mpr bound

theorem decimal_u64_length (v : UInt64) : (decimal v.toNat).length ≤ 20 := by
  have := v.toNat_lt
  exact decimal_length_le (by decide) (by omega)

theorem decimal_injective {m n : Nat} (same : decimal m = decimal n) : m = n := by
  have value := congrArg (fun s => Nat.ofDigitChars 10 s 0) same
  simpa [decimal, Nat.ofDigitChars_ten_toDigits] using value

theorem digit_not_space {c : Char} (digit : c.isDigit = true) : isspace c = false := by
  simp only [Char.isDigit, Bool.and_eq_true, decide_eq_true_eq] at digit
  have lower : 48 ≤ c.toNat := digit.1
  simp only [isspace, Bool.or_eq_false_iff, decide_eq_false_iff_not, Bool.and_eq_false_iff]
  refine ⟨?_, Or.inr (by omega)⟩
  intro space
  subst c
  exact absurd lower (by decide)

theorem decimal_head_digit (n : Nat) : ∃ c s, decimal n = c :: s ∧ c.isDigit = true := by
  cases text : decimal n with
  | nil => exact absurd text (decimal_ne_nil n)
  | cons c s => exact ⟨c, s, rfl, decimal_is_digit (n := n) (by simp [text])⟩

theorem dropSign_of_digit {c : Char} {s : CString} (digit : c.isDigit = true) :
    dropSign (c :: s) = c :: s := by
  unfold dropSign
  split
  · rename_i eq; obtain ⟨rfl, -⟩ := List.cons.inj eq; exact absurd digit (by decide)
  · rename_i eq; obtain ⟨rfl, -⟩ := List.cons.inj eq; exact absurd digit (by decide)
  · rfl

section Grammar
variable {digits : CString}

theorem dropSign_text (sign : Sign) (some : digits ≠ []) (decimal : ∀ c ∈ digits, c.isDigit = true) :
    dropSign (sign.text ++ digits) = digits := by
  cases sign with
  | absent =>
    obtain ⟨c, s, rfl⟩ := List.exists_cons_of_ne_nil some
    exact dropSign_of_digit (decimal c List.mem_cons_self)
  | plus => rfl
  | minus => rfl

theorem text_not_space (sign : Sign) (some : digits ≠ []) (decimal : ∀ c ∈ digits, c.isDigit = true) :
    (sign.text ++ digits).dropWhile isspace = sign.text ++ digits := by
  cases sign with
  | absent =>
    obtain ⟨c, s, rfl⟩ := List.exists_cons_of_ne_nil some
    have visible := digit_not_space (decimal c List.mem_cons_self)
    simp [Sign.text, visible]
  | plus => rfl
  | minus => rfl

theorem text_head (sign : Sign) (decimal : ∀ c ∈ digits, c.isDigit = true) :
    (sign.text ++ digits).head? = some '-' ↔ sign = .minus := by
  cases sign with
  | absent =>
    refine iff_of_false ?_ (by decide)
    intro head
    have member := List.mem_of_mem_head? head
    exact absurd (decimal '-' member) (by decide)
  | plus => simp [Sign.text]
  | minus => simp [Sign.text]

theorem exists_sign (s : CString) : ∃ sign : Sign, s = sign.text ++ dropSign s := by
  unfold dropSign
  split
  · exact ⟨.plus, rfl⟩
  · exact ⟨.minus, rfl⟩
  · exact ⟨.absent, rfl⟩

theorem scan_numeral {spaces : CString} (sign : Sign) (blank : ∀ c ∈ spaces, isspace c = true)
    (some : digits ≠ []) (decimal : ∀ c ∈ digits, c.isDigit = true) :
    scanNumeral (spaces ++ (sign.text ++ digits)) = ⟨decide (sign = .minus), digits, []⟩ := by
  have body : (spaces ++ (sign.text ++ digits)).dropWhile isspace = sign.text ++ digits := by
    rw [List.dropWhile_append_of_pos blank, text_not_space sign some decimal]
  unfold scanNumeral
  simp only [body, dropSign_text sign some decimal, List.takeWhile_eq_self_iff.mpr decimal,
    List.dropWhile_eq_nil_iff.mpr decimal, text_head sign decimal, if_neg some]

theorem value_applied (sign : Sign) (digits rest : CString) :
    (Numeral.mk (decide (sign = .minus)) digits rest).value =
      sign.applied (Nat.ofDigitChars 10 digits 0) := by
  cases sign <;> rfl

theorem exists_parts {s : CString} (nonempty : s ≠ []) (atEnd : (scanNumeral s).rest = []) :
    ∃ (spaces : CString) (sign : Sign) (digits : CString), s = spaces ++ (sign.text ++ digits) ∧
      (∀ c ∈ spaces, isspace c = true) ∧ digits ≠ [] ∧ ∀ c ∈ digits, c.isDigit = true := by
  obtain ⟨sign, body⟩ := exists_sign (s.dropWhile isspace)
  unfold scanNumeral at atEnd
  dsimp only at atEnd
  split at atEnd
  · exact absurd atEnd nonempty
  · rename_i some
    have whole := List.takeWhile_append_dropWhile (p := Char.isDigit)
      (l := dropSign (s.dropWhile isspace))
    rw [atEnd, List.append_nil] at whole
    refine ⟨s.takeWhile isspace, sign, dropSign (s.dropWhile isspace), ?_, ?_, ?_, ?_⟩
    · rw [← body, List.takeWhile_append_dropWhile]
    · intro c member
      exact List.mem_takeWhile_imp member
    · rw [← whole]
      exact some
    · intro c member
      rw [← whole] at member
      exact List.mem_takeWhile_imp member

/-- The scanner stops at the end of a text exactly when the text is a numeral. -/
theorem denotes_iff {s : CString} {v : Int} (nonempty : s ≠ []) :
    Denotes s v ↔ (scanNumeral s).rest = [] ∧ (scanNumeral s).value = v := by
  constructor
  · intro denotes
    cases denotes with
    | numeral spaces sign digits blank some decimal =>
      rw [scan_numeral sign blank some decimal, value_applied]
      exact ⟨rfl, rfl⟩
  · intro scanned
    obtain ⟨atEnd, value⟩ := scanned
    obtain ⟨spaces, sign, digits, rfl, blank, some, decimal⟩ := exists_parts nonempty atEnd
    rw [scan_numeral sign blank some decimal, value_applied] at value
    rw [← value]
    exact .numeral spaces sign digits blank some decimal

end Grammar

theorem scan_decimal (n : Nat) : scanNumeral (decimal n) = ⟨false, decimal n, []⟩ := by
  obtain ⟨c, s, text, digit⟩ := decimal_head_digit n
  have all : ∀ x ∈ decimal n, x.isDigit = true := fun x hx => decimal_is_digit hx
  have body : (decimal n).dropWhile isspace = decimal n := by
    rw [text, List.dropWhile_cons, if_neg (by simp [digit_not_space digit])]
  have unsigned : dropSign (decimal n) = decimal n := by rw [text, dropSign_of_digit digit]
  have notMinus : (decimal n).head? ≠ some '-' := by
    rw [text]
    intro eq
    simp only [List.head?_cons, Option.some.injEq] at eq
    subst c
    exact absurd digit (by decide)
  simp only [scanNumeral, body, unsigned, List.takeWhile_eq_self_iff.mpr all,
    List.dropWhile_eq_nil_iff.mpr all, decimal_ne_nil, notMinus, decide_false, if_false]

theorem magnitude_decimal (n : Nat) : (scanNumeral (decimal n)).magnitude = n := by
  rw [scan_decimal]
  exact Nat.ofDigitChars_ten_toDigits

theorem strtoull_decimal (v : UInt64) : strtoull (decimal v.toNat) = v := by
  have bound := v.toNat_lt
  simp only [strtoull, magnitude_decimal]
  rw [if_neg (by omega), scan_decimal]
  simp

theorem strtoll_decimal {n : Nat} (bound : n < 2 ^ 63) :
    strtoll (decimal n) = Int64.ofNat n := by
  simp only [strtoll, magnitude_decimal]
  rw [scan_decimal]
  simp only [Bool.false_eq_true, if_false]
  rw [min_eq_left (by omega), max_eq_right (by omega), Int64.ofInt_eq_ofNat]

theorem strtol_result {s : CString} (long : FitsLong (scanNumeral s).value) :
    (strtol s).result.toInt = (scanNumeral s).value := by
  obtain ⟨low, high⟩ := long
  have clamped : strtoll s = Int64.ofInt (scanNumeral s).value := by
    unfold strtoll
    change Int64.ofInt (max (-2 ^ 63) (min (scanNumeral s).value (2 ^ 63 - 1))) = _
    rw [min_eq_left (by omega), max_eq_right (by omega)]
  unfold strtol
  rw [clamped, Int64.toInt_ofInt_of_le low high]

theorem cutAt_append {c : Char} {s : CString} (t : CString) (free : c ∉ s) :
    cutAt c (s ++ c :: t) = some (s, t) := by
  induction s with
  | nil => simp [cutAt]
  | cons x xs ih =>
    simp only [List.mem_cons, not_or] at free
    simp [cutAt, Ne.symm free.1, ih free.2]

theorem strtok_intercalate {delim : Char} {pieces : List CString}
    (nonempty : ∀ p ∈ pieces, p ≠ []) (free : ∀ p ∈ pieces, delim ∉ p) :
    strtok delim ([delim].intercalate pieces) = pieces := by
  by_cases none : pieces = []
  · subst none; simp [strtok]
  · rw [strtok, List.splitOn_intercalate delim free none]
    exact List.filter_eq_self.mpr (by simpa using nonempty)

end RealMQ.CStrings
