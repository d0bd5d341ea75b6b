import SealedScript.Proofs.Decimal.Shortest

/-! The shortest digits of whole numbers have no places after the point, and the digits of any number are on
the same side of `10 ^ 16` as the number itself. -/

namespace SealedScript.Decimal

open RoundingInterval (ofFloat quarter)

/-- The magnitude is at least `n`. -/
def FiniteFloat.Reaches (x : FiniteFloat) (n : Nat) : Prop :=
  n * 2 ^ (-x.exponent).toNat ≤ x.mantissa * 2 ^ x.exponent.toNat

instance (x : FiniteFloat) (n : Nat) : Decidable (x.Reaches n) :=
  inferInstanceAs (Decidable (_ ≤ _))

variable {x : FiniteFloat} {tie : Tie}

section Magnitude

lemma gridStep_zero : gridStep 0 = decimalScale * binaryScale := by
  decide +kernel

/-- Four quarters make one unit in the last place, here counted in scaled ones. -/
lemma quarter_mul_pow (hx : x.Canonical) :
    4 * quarter x * 2 ^ (-x.exponent).toNat = 2 ^ x.exponent.toNat * gridStep 0 := by
  have hlow : -1074 ≤ x.exponent := hx.le_exponent
  have hsum : (x.exponent + 1074).toNat + (-x.exponent).toNat = x.exponent.toNat + 1074 := by omega
  have hpower : 2 ^ (x.exponent + 1074).toNat * 2 ^ (-x.exponent).toNat = 2 ^ x.exponent.toNat * 2 ^ 1074 := by
    rw [← Nat.pow_add, ← Nat.pow_add, hsum]
  rw [gridStep_zero, quarter, show binaryScale = 4 * 2 ^ 1074 from by decide +kernel]
  generalize decimalScale = t at *
  generalize 2 ^ 1074 = u at *
  calc 4 * (2 ^ (x.exponent + 1074).toNat * t) * 2 ^ (-x.exponent).toNat
      = 4 * t * (2 ^ (x.exponent + 1074).toNat * 2 ^ (-x.exponent).toNat) := by ring
    _ = 2 ^ x.exponent.toNat * (t * (4 * u)) := by rw [hpower]; ring

lemma value_mul_pow (hx : x.Canonical) :
    (ofFloat x).value * 2 ^ (-x.exponent).toNat = x.mantissa * 2 ^ x.exponent.toNat * gridStep 0 := by
  rw [Nat.mul_assoc, ← quarter_mul_pow hx, RoundingInterval.ofFloat_value]
  ring

/-- A whole number is a multiple of one. -/
lemma gridStep_dvd_of_isIntegral (hx : x.Canonical) (h : x.isIntegral = true) :
    gridStep 0 ∣ (ofFloat x).value := by
  have hpower : 0 < 2 ^ (-x.exponent).toNat := by positivity
  have hwhole : 2 ^ (-x.exponent).toNat ∣ x.mantissa * 2 ^ x.exponent.toNat := by
    unfold FiniteFloat.isIntegral at h
    split_ifs at h with hexponent
    · rw [show (-x.exponent).toNat = 0 by omega]
      exact Nat.one_dvd _
    · exact (Nat.dvd_of_mod_eq_zero (by simpa using h)).mul_right _
  obtain ⟨k, hk⟩ := hwhole
  refine ⟨k, Nat.eq_of_mul_eq_mul_right hpower ?_⟩
  rw [value_mul_pow hx, hk]
  ring

end Magnitude

section Whole

/-- The search does not go below a grid that the value itself lies on. -/
lemma le_search_exponent {r : RoundingInterval} (hlow : r.low < r.value) (hhigh : r.value < r.high) {k₀ : Int}
    (hgrid : gridStep k₀ ∣ r.value) {k : Int} (hk : k₀ ≤ k) (n : Nat) : k₀ ≤ (r.search tie n k).exponent := by
  induction n generalizing k with
  | zero => exact hk
  | succ n ih =>
    rw [RoundingInterval.search]
    cases hfound : r.nearestOn tie k with
    | some c => exact hk
    | none =>
      have hne : k ≠ k₀ := by
        rintro rfl
        have hbelow := (RoundingInterval.nearestOn_eq_none hfound).1
        rw [Nat.div_mul_cancel hgrid, RoundingInterval.contains_of_lt hlow hhigh] at hbelow
        exact absurd hbelow (by decide)
      exact ih (by omega)

/-- A whole number has no digits after the point. -/
lemma shortest_exponent_nonneg (tie : Tie) (hx : x.Canonical) (h : x.isIntegral = true) :
    0 ≤ (shortest tie x).exponent := by
  rcases Nat.eq_zero_or_pos x.mantissa with hzero | hpos
  · rw [shortest_zero tie hzero]
  · have hgrid := gridStep_dvd_of_isIntegral hx h
    have hlow := RoundingInterval.low_lt_value hpos
    have hhigh := RoundingInterval.value_lt_high x
    have hone : 10 ^ (340 : Nat) * binaryScale ≤ (ofFloat x).value := by
      rw [← decimalScale, ← gridStep_zero]
      exact Nat.le_of_dvd (Nat.zero_lt_of_lt hlow) hgrid
    have hleading : 0 ≤ (ofFloat x).leadingExponent := by
      have hspec := (RoundingInterval.leadingExponent_spec hone).1
      omega
    have hsearch : 0 ≤ ((ofFloat x).search tie 17 (ofFloat x).leadingExponent).exponent :=
      le_search_exponent hlow hhigh hgrid hleading 17
    rw [shortest, if_neg (by omega)]
    exact hsearch.trans (Digits.trim_spec 17 (by omega)).2.2.1

end Whole

section Threshold

/-- The binades that matter at `10 ^ 16`: those below it, the one it lies in, and those above. -/
lemma quarter_cases (hx : x.Canonical) :
    (x.exponent ≤ 0 ∧ 4 * quarter x ≤ gridStep 0) ∨ (x.exponent = 1 ∧ 2 * quarter x = gridStep 0) ∨
      (2 ≤ x.exponent ∧ gridStep 0 ≤ quarter x) := by
  have hunit := quarter_mul_pow hx
  generalize gridStep 0 = step at *
  generalize quarter x = q at *
  rcases lt_trichotomy x.exponent 1 with hlt | hone | hgt
  · rw [show x.exponent.toNat = 0 by omega, Nat.pow_zero, Nat.one_mul] at hunit
    rw [← hunit]
    exact .inl ⟨by omega, Nat.le_mul_of_pos_right _ (by positivity)⟩
  · rw [hone] at hunit
    exact .inr (.inl ⟨hone, by simp at hunit; omega⟩)
  · have hpower : 2 ^ 2 ≤ 2 ^ x.exponent.toNat := Nat.pow_le_pow_right (by decide) (by omega)
    have hfour := Nat.mul_le_mul_right step hpower
    rw [show (-x.exponent).toNat = 0 by omega, Nat.pow_zero, Nat.mul_one] at hunit
    exact .inr (.inr ⟨by omega, by omega⟩)

lemma FiniteFloat.Reaches.one_le_exponent (hx : x.Canonical) (h : x.Reaches (10 ^ 16)) : 1 ≤ x.exponent := by
  by_contra hexponent
  have hpower : 1 ≤ 2 ^ (-x.exponent).toNat := Nat.one_le_two_pow
  have hmantissa := hx.mantissa_lt
  unfold Reaches at h
  rw [show x.exponent.toNat = 0 by omega] at h
  omega

lemma FiniteFloat.Reaches.isIntegral (hx : x.Canonical) (h : x.Reaches (10 ^ 16)) : x.isIntegral = true := by
  have hexponent := h.one_le_exponent hx
  rw [FiniteFloat.isIntegral, if_pos (by omega)]

/-- Nothing that rounds to a number below `10 ^ 16` is as large as that. -/
lemma high_lt_of_not_reaches (hx : x.Canonical) (h : ¬ x.Reaches (10 ^ 16)) :
    (ofFloat x).high < 10 ^ 16 * gridStep 0 := by
  have hmantissa := hx.mantissa_lt
  have hstep := gridStep_pos 0
  have hbound : ∀ {n : Nat}, 4 * x.mantissa + 2 ≤ n → (ofFloat x).high ≤ n * quarter x := fun hn =>
    (RoundingInterval.ofFloat_high x).trans_le (Nat.mul_le_mul_right _ hn)
  unfold FiniteFloat.Reaches at h
  rcases quarter_cases hx with ⟨-, hquarter⟩ | ⟨hone, hquarter⟩ | ⟨htwo, -⟩
  · have hhigh := hbound (n := 2 ^ 55) (by omega)
    omega
  · rw [hone] at h
    have hhigh := hbound (n := 2 * 10 ^ 16 - 2) (by simp at h; omega)
    omega
  · have hnormal : 2 ^ 52 ≤ x.mantissa := hx.normal.resolve_left (by simp only [minExponent]; omega)
    have hpower : 2 ^ 2 ≤ 2 ^ x.exponent.toNat := Nat.pow_le_pow_right (by decide) (by omega)
    have hlarge := Nat.mul_le_mul hnormal hpower
    rw [show (-x.exponent).toNat = 0 by omega] at h
    omega

/-- Nothing that rounds to a number above `10 ^ 16` is smaller than that. -/
lemma le_low_of_reaches (hx : x.Canonical) (h : x.Reaches (10 ^ 16))
    (hne : ¬ (x.exponent = 1 ∧ x.mantissa = 5 * 10 ^ 15)) : 10 ^ 16 * gridStep 0 ≤ (ofFloat x).low := by
  have hbound : ∀ {n : Nat}, n ≤ 4 * x.mantissa - 2 → n * quarter x ≤ (ofFloat x).low := fun hn =>
    (Nat.mul_le_mul_right _ hn).trans (RoundingInterval.le_ofFloat_low x)
  have hexponent := h.one_le_exponent hx
  unfold FiniteFloat.Reaches at h
  rcases quarter_cases hx with ⟨hzero, -⟩ | ⟨hone, hquarter⟩ | ⟨htwo, hquarter⟩
  · omega
  · rw [hone] at h
    have hlow := hbound (n := 2 * 10 ^ 16 + 2) (by simp at h; omega)
    omega
  · have hnormal : 2 ^ 52 ≤ x.mantissa := hx.normal.resolve_left (by simp only [minExponent]; omega)
    have hlow := hbound (n := 2 ^ 54 - 2) (by omega)
    omega

/-- The digits of `10 ^ 16` itself, which lies just on the threshold, while its interval goes below. -/
lemma shortest_threshold (h : x.exponent = 1 ∧ x.mantissa = 5 * 10 ^ 15) : shortest tie x = ⟨1, 16⟩ := by
  obtain ⟨negative, mantissa, exponent⟩ := x
  obtain ⟨rfl, rfl⟩ := h
  cases tie <;> cases negative <;> decide +kernel

/-- The whole number that the digits stand for, if they stand for one. -/
def Digits.whole (d : Digits) : Nat :=
  d.coefficient * 10 ^ d.exponent.toNat

lemma Digits.whole_mul {d : Digits} (h : 0 ≤ d.exponent) :
    d.whole * gridStep 0 = d.coefficient * gridStep d.exponent := by
  have hexponent : d.exponent = 0 + (d.exponent.toNat : Int) := by omega
  rw [whole, Nat.mul_assoc, ← gridStep_add (by decide), ← hexponent]

/-- The digits are on the same side of `10 ^ 16` as the number. -/
lemma le_whole_iff_reaches (hx : x.Canonical) (hwhole : 0 ≤ (shortest tie x).exponent) :
    10 ^ 16 ≤ (shortest tie x).whole ↔ x.Reaches (10 ^ 16) := by
  have hstep := gridStep_pos 0
  rcases Nat.eq_zero_or_pos x.mantissa with hzero | hpos
  · rw [shortest_zero tie hzero, FiniteFloat.Reaches, hzero]
    simp [Digits.whole]
  · have hinside := RoundingInterval.bounds_of_contains (shortest_spec tie hx hpos).1
    rw [← Digits.whole_mul hwhole] at hinside
    constructor
    · intro hle
      by_contra hreaches
      have hhigh := high_lt_of_not_reaches hx hreaches
      have hmul := Nat.mul_le_mul_right (gridStep 0) hle
      omega
    · intro hreaches
      by_cases hthreshold : x.exponent = 1 ∧ x.mantissa = 5 * 10 ^ 15
      · rw [shortest_threshold hthreshold]
        decide
      · have hlow := le_low_of_reaches hx hreaches hthreshold
        exact Nat.le_of_mul_le_mul_right (hlow.trans hinside.1) hstep

end Threshold

end SealedScript.Decimal
