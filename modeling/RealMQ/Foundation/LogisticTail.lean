import Mathlib

/- The logistic approximation of a normal tail: with e = exp (-x) the tail is e / (1 + e),
   which is also 1 - 1 / (1 + e). Its negative logarithm is non-negative and grows with x. -/
namespace RealMQ.LogisticTail

/-- Minus the logarithm of the tail, written without e. -/
noncomputable def surprise (b x : ℝ) : ℝ := Real.logb b (1 + Real.exp x)

theorem neg_log_tail (b x : ℝ) :
    -Real.logb b (Real.exp (-x) / (1 + Real.exp (-x))) = surprise b x := by
  have pos := Real.exp_pos (-x)
  have inverse : Real.exp (-x) / (1 + Real.exp (-x)) = (1 + Real.exp x)⁻¹ := by
    have one : Real.exp (-x) * Real.exp x = 1 := by rw [← Real.exp_add, neg_add_cancel, Real.exp_zero]
    have other := Real.exp_pos x
    rw [div_eq_iff (by positivity), inv_mul_eq_div, eq_div_iff (by positivity)]
    linarith
  rw [inverse, Real.logb_inv, neg_neg]
  rfl

theorem tail_complement {e : ℝ} (pos : 0 < e) : 1 - 1 / (1 + e) = e / (1 + e) := by
  rw [eq_div_iff (by positivity), sub_mul, one_mul, div_mul_cancel₀ _ (by positivity)]
  ring

theorem surprise_nonneg {b : ℝ} (base : 1 < b) (x : ℝ) : 0 ≤ surprise b x := by
  apply Real.logb_nonneg base
  have pos := Real.exp_pos x
  linarith

theorem surprise_mono {b : ℝ} (base : 1 < b) : Monotone (surprise b) := by
  intro x y order
  apply Real.logb_le_logb_of_le base
  · have pos := Real.exp_pos x
    linarith
  · have grow := Real.exp_le_exp.mpr order
    linarith

theorem cubic_mono {a c : ℝ} (linear : 0 ≤ a) (cubic : 0 ≤ c) :
    Monotone fun y : ℝ => y * (a + c * y * y) := by
  intro x y order
  have powers : x * x * x ≤ y * y * y := by
    have odd := Odd.strictMono_pow (R := ℝ) (n := 3) (by decide)
    have monotone := odd.monotone order
    simpa only [pow_succ, pow_zero, one_mul] using monotone
  have first := mul_le_mul_of_nonneg_left order linear
  have third := mul_le_mul_of_nonneg_left powers cubic
  dsimp only
  linarith

theorem surprise_lt_iff {b : ℝ} (base : 1 < b) {s : ℝ} (pos : 0 < s) (x : ℝ) :
    surprise b x < s ↔ x < Real.log (b ^ s - 1) := by
  have tail : 0 < b ^ s - 1 := sub_pos.mpr (Real.one_lt_rpow base pos)
  have grow := Real.exp_pos x
  unfold surprise
  rw [Real.logb_lt_iff_lt_rpow base (by linarith), Real.lt_log_iff_exp_lt tail, lt_sub_iff_add_lt']

theorem cubic_strictMono {a c : ℝ} (linear : 0 < a) (cubic : 0 ≤ c) :
    StrictMono fun y : ℝ => y * (a + c * y * y) := by
  intro x y order
  have steady := cubic_mono (le_refl 0) cubic order.le
  have rise := mul_lt_mul_of_pos_left order linear
  dsimp only at steady ⊢
  linarith

theorem cubic_surjective {a c : ℝ} (linear : 0 < a) (cubic : 0 ≤ c) :
    Function.Surjective fun y : ℝ => y * (a + c * y * y) := by
  have wide : ∀ y : ℝ, 0 ≤ c * y * y := by
    intro y
    rw [mul_assoc]
    exact mul_nonneg cubic (mul_self_nonneg y)
  apply Continuous.surjective
  · fun_prop
  · apply Filter.tendsto_atTop_mono' _ _ (Filter.tendsto_id.const_mul_atTop linear)
    filter_upwards [Filter.eventually_ge_atTop 0] with y up
    have above := mul_nonneg up (wide y)
    dsimp only [id]
    linarith
  · apply Filter.tendsto_atBot_mono' _ _ (Filter.tendsto_id.const_mul_atBot linear)
    filter_upwards [Filter.eventually_le_atBot 0] with y down
    have below := mul_nonpos_of_nonpos_of_nonneg down (wide y)
    dsimp only [id]
    linarith

end RealMQ.LogisticTail
