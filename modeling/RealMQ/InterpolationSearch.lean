import RealMQ.DynamicArray

/- common/qos/interpolation_search.c. All id arithmetic is unsigned 64-bit and may wrap. A
   step that would read outside the array, divide by zero, move high below 0 or go on past
   its fuel ends in fault, so that excluding fault is a statement about the loop. -/
namespace RealMQ.InterpolationSearch
open DynamicArrays Slots

inductive Probe where
  | found (pos : Nat)
  | absent
  | fault
  deriving DecidableEq, Repr

/-- The probed position; low + offset is below 2^64 because it never passes high. -/
def probePos (low high : Nat) (dataLow dataHigh msgId : UInt64) : Nat :=
  low + (UInt64.ofNat (high - low) * (msgId - dataLow) / (dataHigh - dataLow)).toNat

def interpolateLoop (id : Nat → UInt64) (size : Nat) (msgId : UInt64) :
    Nat → Nat → Nat → Probe
  | 0, _, _ => .fault
  | fuel + 1, low, high =>
      if low ≤ high then
        if size ≤ low ∨ size ≤ high then .fault
        else if msgId < id low ∨ id high < msgId then .absent
        else if id low = id high then
          if id low = msgId then .found low else .absent
        else if id high - id low = 0 then .fault
        else
          let pos := probePos low high (id low) (id high) msgId
          if size ≤ pos then .fault
          else if id pos = msgId then .found pos
          else if id pos < msgId then interpolateLoop id size msgId fuel (pos + 1) high
          else if pos = 0 then .fault
          else interpolateLoop id size msgId fuel low (pos - 1)
      else .absent

def interpolateSearchOn (id : Nat → UInt64) (size : Nat) (msgId : UInt64) : Probe :=
  if size = 0 then .absent else interpolateLoop id size msgId (size + 1) 0 (size - 1)

def interpolateSearchOnMessages (array : DynamicArray Message) (msgId : UInt64) : Probe :=
  interpolateSearchOn (fun i => (array.data i).id) array.size msgId

def interpolateSearchOnValues (array : DynamicArray UInt64) (msgId : UInt64) : Probe :=
  interpolateSearchOn (fun i => array.data i) array.size msgId

variable {α : Type} [Element α]

def interpolateSearch (array : DynamicArray α) (msgId : UInt64) : Probe :=
  interpolateSearchOn (fun i => Element.msgId (array.data i)) array.size msgId

example (array : DynamicArray Message) :
    interpolateSearch array = interpolateSearchOnMessages array := rfl

example (array : DynamicArray UInt64) :
    interpolateSearch array = interpolateSearchOnValues array := rfl

theorem wrapped_product_le (a : Nat) (x : UInt64) :
    (UInt64.ofNat a * x).toNat ≤ a * x.toNat := by
  rw [UInt64.toNat_mul, UInt64.toNat_ofNat']
  exact (Nat.mod_le _ _).trans (Nat.mul_le_mul_right _ (Nat.mod_le _ _))

theorem probePos_le {low high : Nat} {dataLow dataHigh msgId : UInt64} (order : low ≤ high)
    (above : dataLow ≤ msgId) (below : msgId ≤ dataHigh) (apart : dataLow ≠ dataHigh) :
    probePos low high dataLow dataHigh msgId ≤ high := by
  have aboveNat : dataLow.toNat ≤ msgId.toNat := UInt64.le_iff_toNat_le.mp above
  have belowNat : msgId.toNat ≤ dataHigh.toNat := UInt64.le_iff_toNat_le.mp below
  have apartNat : dataLow.toNat ≠ dataHigh.toNat := fun eq => apart (UInt64.toNat_inj.mp eq)
  have span : (dataHigh - dataLow).toNat = dataHigh.toNat - dataLow.toNat :=
    UInt64.toNat_sub_of_le _ _ (UInt64.le_trans above below)
  have offset : (msgId - dataLow).toNat = msgId.toNat - dataLow.toNat :=
    UInt64.toNat_sub_of_le _ _ above
  have quotient : (UInt64.ofNat (high - low) * (msgId - dataLow) / (dataHigh - dataLow)).toNat
      ≤ high - low := by
    rw [UInt64.toNat_div, span]
    apply Nat.div_le_of_le_mul
    calc (UInt64.ofNat (high - low) * (msgId - dataLow)).toNat
        ≤ (high - low) * (msgId.toNat - dataLow.toNat) := offset ▸ wrapped_product_le _ _
      _ ≤ (high - low) * (dataHigh.toNat - dataLow.toNat) :=
          Nat.mul_le_mul_left _ (Nat.sub_le_sub_right belowNat _)
      _ = (dataHigh.toNat - dataLow.toNat) * (high - low) := Nat.mul_comm _ _
  simp only [probePos]
  omega

theorem low_le_probePos (low high : Nat) (dataLow dataHigh msgId : UInt64) :
    low ≤ probePos low high dataLow dataHigh msgId := Nat.le_add_right _ _

/-- Everything one turn of the loop can do, on sorted and unsorted data alike. -/
theorem interpolateLoop_cases {id : Nat → UInt64} {size : Nat} {msgId : UInt64}
    (fuel : Nat) {low high : Nat} (inside : high < size) :
    (interpolateLoop id size msgId (fuel + 1) low high = .absent ∧
      (low ≤ high → msgId < id low ∨ id high < msgId)) ∨
    ∃ pos, low ≤ pos ∧ pos ≤ high ∧
      ((id pos = msgId ∧ interpolateLoop id size msgId (fuel + 1) low high = .found pos) ∨
       (id pos < msgId ∧ interpolateLoop id size msgId (fuel + 1) low high =
          interpolateLoop id size msgId fuel (pos + 1) high) ∨
       (msgId < id pos ∧ low < pos ∧ interpolateLoop id size msgId (fuel + 1) low high =
          interpolateLoop id size msgId fuel low (pos - 1))) := by
  simp only [interpolateLoop]
  by_cases order : low ≤ high
  swap
  · rw [if_neg order]
    exact Or.inl ⟨rfl, fun ordered => absurd ordered order⟩
  rw [if_pos order, if_neg (by omega)]
  by_cases outside : msgId < id low ∨ id high < msgId
  · rw [if_pos outside]
    exact Or.inl ⟨rfl, fun _ => outside⟩
  right
  rw [if_neg outside]
  rw [not_or, UInt64.not_lt, UInt64.not_lt] at outside
  obtain ⟨above, below⟩ := outside
  by_cases same : id low = id high
  · have hit : id low = msgId := UInt64.le_antisymm above (same ▸ below)
    rw [if_pos same, if_pos hit]
    exact ⟨low, le_refl low, order, Or.inl ⟨hit, rfl⟩⟩
  · have reach := probePos_le order above below same
    have start := low_le_probePos low high (id low) (id high) msgId
    rw [if_neg same, if_neg (fun zero => same (sub_eq_zero.mp zero).symm), if_neg (by omega)]
    refine ⟨_, start, reach, ?_⟩
    generalize probePos low high (id low) (id high) msgId = pos at start reach ⊢
    by_cases hit : id pos = msgId
    · rw [if_pos hit]
      exact Or.inl ⟨hit, rfl⟩
    rw [if_neg hit]
    by_cases small : id pos < msgId
    · rw [if_pos small]
      exact Or.inr (Or.inl ⟨small, rfl⟩)
    · -- the element at low is at most msgId, so the probe is past low and pos - 1 exists
      have past : low ≠ pos := by
        rintro rfl
        exact small (UInt64.lt_of_le_of_ne above hit)
      have large := UInt64.lt_of_le_of_ne (UInt64.not_lt.mp small) (Ne.symm hit)
      rw [if_neg small, if_neg (by omega)]
      exact Or.inr (Or.inr ⟨large, by omega, rfl⟩)

theorem interpolateLoop_sound {id : Nat → UInt64} {size : Nat} {msgId : UInt64}
    {fuel low high : Nat} (inside : high < size) (enough : high + 1 - low < fuel) :
    interpolateLoop id size msgId fuel low high = .absent ∨
      ∃ pos, interpolateLoop id size msgId fuel low high = .found pos ∧
        pos < size ∧ id pos = msgId := by
  induction fuel generalizing low high with
  | zero => omega
  | succ fuel ih =>
    rcases @interpolateLoop_cases id size msgId fuel low high inside with
      ⟨absent, -⟩ | ⟨pos, start, reach, ⟨hit, found⟩ | ⟨-, rest⟩ | ⟨-, past, rest⟩⟩
    · exact Or.inl absent
    · exact Or.inr ⟨pos, found, by omega, hit⟩
    · rw [rest]
      exact ih inside (by omega)
    · rw [rest]
      exact ih (by omega) (by omega)

theorem interpolateSearch_sound (array : DynamicArray α) (msgId : UInt64) :
    interpolateSearch array msgId = .absent ∨
      ∃ pos, interpolateSearch array msgId = .found pos ∧ pos < array.size ∧
        Element.msgId (array.data pos) = msgId := by
  simp only [interpolateSearch, interpolateSearchOn]
  split
  · exact Or.inl rfl
  · exact interpolateLoop_sound (by omega) (by omega)

def NonDecreasing (id : Nat → UInt64) (size : Nat) : Prop :=
  ∀ i j, i ≤ j → j < size → id i ≤ id j

theorem interpolateLoop_complete {id : Nat → UInt64} {size : Nat} {msgId : UInt64}
    {fuel low high : Nat} (sorted : NonDecreasing id size) (inside : high < size)
    (absent : interpolateLoop id size msgId fuel low high = .absent) :
    ∀ i, low ≤ i → i ≤ high → id i ≠ msgId := by
  induction fuel generalizing low high with
  | zero => cases absent
  | succ fuel ih =>
    intro i after before hit
    rcases @interpolateLoop_cases id size msgId fuel low high inside with
      ⟨-, outside⟩ | ⟨pos, start, reach, ⟨-, found⟩ | ⟨below, rest⟩ | ⟨above, past, rest⟩⟩
    · have fromLow : id low ≤ msgId := hit ▸ sorted low i after (by omega)
      have toHigh : msgId ≤ id high := hit ▸ sorted i high before inside
      rcases outside (by omega) with small | large
      · exact UInt64.not_lt.mpr fromLow small
      · exact UInt64.not_lt.mpr toHigh large
    · rw [found] at absent
      cases absent
    · -- everything up to the probe is below msgId
      rw [rest] at absent
      have beyond : pos < i := by
        by_contra notPast
        have smaller := sorted i pos (not_lt.mp notPast) (by omega)
        rw [hit] at smaller
        exact UInt64.not_lt.mpr smaller below
      exact ih inside absent i beyond before hit
    · rw [rest] at absent
      have short : i < pos := by
        by_contra notShort
        have larger := sorted pos i (not_lt.mp notShort) (by omega)
        rw [hit] at larger
        exact UInt64.not_lt.mpr larger above
      exact ih (by omega) absent i after (by omega) hit

theorem nonDecreasing_of_pairwise {array : DynamicArray α}
    (sorted : (ids array).Pairwise (· ≤ ·)) :
    NonDecreasing (fun i => Element.msgId (array.data i)) array.size := by
  intro i j order bound
  rcases Nat.lt_or_eq_of_le order with before | rfl
  · have places := List.pairwise_iff_getElem.mp sorted i j (by simp; omega) (by simpa) before
    simpa [ids, toList, window_getElem] using places
  · exact UInt64.le_refl _

theorem interpolateSearch_complete {array : DynamicArray α} {msgId : UInt64}
    (sorted : (ids array).Pairwise (· ≤ ·)) :
    interpolateSearch array msgId = .absent ↔ msgId ∉ ids array := by
  constructor
  · intro absent member
    obtain ⟨i, bound, hit⟩ := mem_ids_iff.mp member
    unfold interpolateSearch interpolateSearchOn at absent
    rw [if_neg (by omega)] at absent
    exact interpolateLoop_complete (nonDecreasing_of_pairwise sorted) (by omega) absent i
      (Nat.zero_le i) (by omega) hit
  · intro missing
    rcases interpolateSearch_sound array msgId with absent | ⟨pos, -, bound, hit⟩
    · exact absent
    · exact absurd (mem_ids_iff.mpr ⟨pos, bound, hit⟩) missing

/-- Safe on every array: no fault, and a found index holds the id. Complete on sorted ones. -/
theorem interpolateSearch_safe_and_complete (array : DynamicArray α) (msgId : UInt64) :
    interpolateSearch array msgId ≠ .fault ∧
      (∀ pos, interpolateSearch array msgId = .found pos →
        pos < array.size ∧ Element.msgId (array.data pos) = msgId) ∧
      ((ids array).Pairwise (· ≤ ·) →
        (interpolateSearch array msgId = .absent ↔ msgId ∉ ids array)) := by
  refine ⟨?_, ?_, interpolateSearch_complete⟩
  · rcases interpolateSearch_sound array msgId with absent | ⟨pos, found, -, -⟩
    · rw [absent]; simp
    · rw [found]; simp
  · intro pos answer
    rcases interpolateSearch_sound array msgId with absent | ⟨pos', found, bound, hit⟩
    · rw [absent] at answer; cases answer
    · rw [found] at answer
      cases answer
      exact ⟨bound, hit⟩

end RealMQ.InterpolationSearch
