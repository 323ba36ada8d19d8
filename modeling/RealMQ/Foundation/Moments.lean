import Mathlib

/- First and second moments of a list of numbers in an ordered field. -/
namespace RealMQ.Moments
variable {K : Type*} [Field K] [LinearOrder K]

def squareSum (l : List K) : K := (l.map fun x => x * x).sum

def average (l : List K) : K := l.sum / l.length

def spread (l : List K) : K := squareSum l / l.length - average l * average l

omit [LinearOrder K] in
theorem sum_scale (c : K) (l : List K) : (l.map fun x => c * x).sum = c * l.sum := by
  rw [List.sum_map_mul_left, List.map_id']

omit [LinearOrder K] in
theorem squareSum_scale (c : K) (l : List K) :
    squareSum (l.map fun x => c * x) = c * c * squareSum l := by
  unfold squareSum
  rw [List.map_map, ← List.sum_map_mul_left]
  congr 2
  funext x
  simp only [Function.comp]
  ring

omit [LinearOrder K] in
theorem average_scale (c : K) (l : List K) : average (l.map fun x => c * x) = c * average l := by
  unfold average
  rw [sum_scale, List.length_map, mul_div_assoc]

omit [LinearOrder K] in
theorem spread_scale (c : K) (l : List K) :
    spread (l.map fun x => c * x) = c * c * spread l := by
  unfold spread
  rw [average_scale, squareSum_scale, List.length_map]
  ring

variable [IsStrictOrderedRing K]

theorem average_nonneg {l : List K} (nonneg : ∀ x ∈ l, 0 ≤ x) : 0 ≤ average l :=
  div_nonneg (List.sum_nonneg nonneg) (Nat.cast_nonneg _)

/-- Cauchy and Schwarz, against the list of ones. -/
theorem sum_mul_sum_le (l : List K) : l.sum * l.sum ≤ l.length * squareSum l := by
  have bound := @sq_sum_le_card_mul_sum_sq (Fin l.length) K _ _ _ _ Finset.univ fun i => l[i.val]
  rw [Finset.card_univ, Fintype.card_fin, Fin.sum_univ_getElem,
    Fin.sum_univ_fun_getElem l fun x => x ^ 2] at bound
  simpa only [squareSum, sq] using bound

theorem spread_nonneg (l : List K) : 0 ≤ spread l := by
  unfold spread average
  rcases Nat.eq_zero_or_pos l.length with empty | some
  · simp [empty]
  · have pos : (0 : K) < l.length := Nat.cast_pos.mpr some
    rw [div_mul_div_comm, sub_nonneg, div_le_div_iff₀ (mul_pos pos pos) pos]
    calc l.sum * l.sum * l.length
        ≤ l.length * squareSum l * l.length :=
          mul_le_mul_of_nonneg_right (sum_mul_sum_le l) pos.le
      _ = squareSum l * (l.length * l.length) := by ring

end RealMQ.Moments
