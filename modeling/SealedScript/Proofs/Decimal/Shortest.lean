import Mathlib.Tactic.Common
import Mathlib.Tactic.Linarith
import Mathlib.Tactic.Ring
import SealedScript.Decimal.Shortest

/-! The shortest digits of a number lie in its rounding interval, and the intervals of two numbers
share no point: the digits tell all finite numbers apart. -/

namespace SealedScript.Decimal

/-- Mantissa and exponent are those that the bits of a float give. -/
structure FiniteFloat.Canonical (x : FiniteFloat) : Prop where
  mantissa_lt : x.mantissa < 2 ^ 53
  le_exponent : minExponent ≤ x.exponent
  exponent_le : x.exponent ≤ 971
  normal : x.exponent = minExponent ∨ 2 ^ 52 ≤ x.mantissa

lemma FloatClass.canonical_of_ofBits {bits : Nat} {x : FiniteFloat}
    (h : FloatClass.ofBits bits = .finite x) : x.Canonical := by
  have hfraction : bits % 2 ^ 52 < 2 ^ 52 := Nat.mod_lt _ (by decide)
  have hfield : bits / 2 ^ 52 % 2 ^ 11 < 2 ^ 11 := Nat.mod_lt _ (by decide)
  unfold FloatClass.ofBits at h
  dsimp only at h
  split_ifs at h with hspecial hzero hsubnormal
  · obtain rfl := FloatClass.finite.inj h
    exact ⟨by dsimp only; omega, le_refl _, by simp [minExponent], .inl rfl⟩
  · obtain rfl := FloatClass.finite.inj h
    refine ⟨by dsimp only; omega, ?_, ?_, .inr (by dsimp only; omega)⟩
    · simp only [minExponent]
      omega
    · dsimp only
      omega

lemma binaryScale_pos : 0 < binaryScale := by
  decide +kernel

lemma decimalScale_pos : 0 < decimalScale := by
  decide +kernel

lemma gridStep_pos (k : Int) : 0 < gridStep k :=
  Nat.mul_pos binaryScale_pos (Nat.pow_pos (by decide))

lemma gridStep_add {k : Int} (hk : -340 ≤ k) (j : Nat) :
    gridStep (k + j) = 10 ^ j * gridStep k := by
  have hexponent : (k + j + 340).toNat = j + (k + 340).toNat := by omega
  unfold gridStep
  rw [hexponent, Nat.pow_add]
  exact Nat.mul_left_comm binaryScale (10 ^ j) (10 ^ (k + 340).toNat)

/-- A number is at least its leading digit's place, and less than ten times as much. -/
lemma leadingDigit_spec {unit value n : Nat} (hunit : 0 < unit) (hvalue : 10 ^ n * unit ≤ value) :
    n < (Nat.toDigits 10 (value / unit)).length ∧
      unit * 10 ^ ((Nat.toDigits 10 (value / unit)).length - 1) ≤ value ∧
      value < 10 * (unit * 10 ^ ((Nat.toDigits 10 (value / unit)).length - 1)) := by
  have hwhole : 10 ^ n ≤ value / unit := (Nat.le_div_iff_mul_le hunit).mpr hvalue
  have hpositive : 0 < 10 ^ n := by positivity
  obtain ⟨k, hk⟩ : ∃ k, (Nat.toDigits 10 (value / unit)).length = k + 1 :=
    Nat.exists_eq_add_one.mpr Nat.length_toDigits_pos
  have hupper : value / unit < 10 ^ (k + 1) :=
    (Nat.length_toDigits_le_iff (by decide) (by omega)).mp hk.le
  have hlower : 10 ^ k ≤ value / unit := by
    rcases Nat.eq_zero_or_pos k with rfl | hpos
    · omega
    · by_contra hlt
      have hshort := (Nat.length_toDigits_le_iff (by decide) hpos).mpr (Nat.lt_of_not_le hlt)
      omega
  rw [hk, Nat.add_sub_cancel]
  refine ⟨?_, ?_, ?_⟩
  · exact (Nat.pow_lt_pow_iff_right (by decide)).mp (hwhole.trans_lt hupper)
  · rw [Nat.mul_comm]
    exact (Nat.le_div_iff_mul_le hunit).mp hlower
  · rw [Nat.pow_succ] at hupper
    have hmul := (Nat.div_lt_iff_lt_mul hunit).mp hupper
    linarith

namespace RoundingInterval

variable {r : RoundingInterval} {point : Nat}

lemma bounds_of_contains (h : r.contains point) : r.low ≤ point ∧ point ≤ r.high := by
  unfold contains at h
  split_ifs at h
  · simpa using h
  · have hstrict : r.low < point ∧ point < r.high := by simpa using h
    exact ⟨hstrict.1.le, hstrict.2.le⟩

lemma lt_of_contains_open (hopen : r.closed = false) (h : r.contains point) :
    r.low < point ∧ point < r.high := by
  simpa [contains, hopen] using h

lemma contains_of_lt (hlow : r.low < point) (hhigh : point < r.high) : r.contains point := by
  unfold contains
  split_ifs <;> simp <;> omega

/-- What is found on a grid is one of the value's two neighbours, and lies inside. -/
lemma nearestOn_eq_some {tie : Tie} {k : Int} {c : Nat} (h : r.nearestOn tie k = some c) :
    r.contains (c * gridStep k) ∧ (c = r.value / gridStep k ∨ c = r.value / gridStep k + 1) := by
  unfold nearestOn at h
  generalize gridStep k = step at h ⊢
  dsimp only at h
  cases hbelow : r.contains (r.value / step * step) <;>
    cases habove : r.contains ((r.value / step + 1) * step) <;>
    simp only [hbelow, habove, reduceCtorEq, Option.some.injEq] at h
  · exact h ▸ ⟨habove, .inr rfl⟩
  · exact h ▸ ⟨hbelow, .inl rfl⟩
  · have hcases : c = r.value / step ∨ c = r.value / step + 1 := by
      cases tie <;> grind
    refine ⟨?_, hcases⟩
    rcases hcases with rfl | rfl
    · exact hbelow
    · exact habove

lemma nearestOn_eq_none {tie : Tie} {k : Int} (h : r.nearestOn tie k = none) :
    r.contains (r.value / gridStep k * gridStep k) = false ∧
      r.contains ((r.value / gridStep k + 1) * gridStep k) = false := by
  unfold nearestOn at h
  generalize gridStep k = step at h ⊢
  dsimp only at h
  cases hbelow : r.contains (r.value / step * step) <;>
    cases habove : r.contains ((r.value / step + 1) * step) <;>
    simp only [hbelow, habove, reduceCtorEq] at h
  · exact ⟨rfl, rfl⟩
  · cases tie <;> grind

/-- A grid finer than the interval is wide has a point next to the value inside. -/
lemma nearestOn_isSome (tie : Tie) {k : Int} (hlow : r.low < r.value) (hhigh : r.value < r.high)
    (hwidth : r.low + gridStep k < r.high) : ∃ c, r.nearestOn tie k = some c := by
  rw [← Option.ne_none_iff_exists']
  intro hnone
  obtain ⟨hbelow, habove⟩ := nearestOn_eq_none hnone
  have hstep := gridStep_pos k
  generalize gridStep k = step at *
  have hle : r.value / step * step ≤ r.value := Nat.div_mul_le_self _ _
  have hlt : r.value < r.value / step * step + step := Nat.lt_div_mul_add hstep
  rw [Nat.add_mul, Nat.one_mul] at habove
  have hlowest : r.value / step * step ≤ r.low := by
    by_contra hinside
    rw [contains_of_lt (by omega) (by omega)] at hbelow
    exact absurd hbelow (by decide)
  have hhighest : r.high ≤ r.value / step * step + step := by
    by_contra hinside
    rw [contains_of_lt (by omega) (by omega)] at habove
    exact absurd habove (by decide)
  omega

/-- The search ends inside the interval, on one of the grids it was given, when the last of them
is fine enough. -/
lemma search_spec (tie : Tie) (hlow : r.low < r.value) (hhigh : r.value < r.high) {n : Nat}
    {k : Int} (hwidth : r.low + gridStep (k - n) < r.high) :
    ∃ d, r.search tie (n + 1) k = d ∧ r.contains (d.coefficient * gridStep d.exponent) ∧
      d.coefficient ≤ r.value / gridStep d.exponent + 1 ∧ k - n ≤ d.exponent ∧ d.exponent ≤ k := by
  -- on the number of finer grids; the finest one always has a point
  induction n generalizing k with
  | zero =>
    obtain ⟨c, hc⟩ := nearestOn_isSome tie hlow hhigh (k := k) (by simpa using hwidth)
    obtain ⟨hinside, hneighbour⟩ := nearestOn_eq_some hc
    refine ⟨⟨c, k⟩, by simp [search, hc], hinside, ?_, by simp, le_refl k⟩
    dsimp only
    omega
  | succ n ih =>
    cases hc : r.nearestOn tie k with
    | some c =>
      obtain ⟨hinside, hneighbour⟩ := nearestOn_eq_some hc
      refine ⟨⟨c, k⟩, by simp [search, hc], hinside, ?_, ?_, le_refl k⟩ <;> dsimp only <;> omega
    | none =>
      have hfiner : k - 1 - (n : Int) = k - (n + 1 : Nat) := by omega
      obtain ⟨d, hd, hinside, hcoefficient, hfine, hcoarse⟩ := ih (k := k - 1) (by rwa [hfiner])
      exact ⟨d, by rw [search, hc]; exact hd, hinside, hcoefficient, by omega, by omega⟩

/-- The leading exponent is that of the largest grid step below the value. -/
lemma leadingExponent_spec {n : Nat} (hvalue : 10 ^ n * binaryScale ≤ r.value) :
    (n : Int) - 340 ≤ r.leadingExponent ∧ gridStep r.leadingExponent ≤ r.value ∧
      r.value < 10 * gridStep r.leadingExponent := by
  obtain ⟨hcount, hlow, hhigh⟩ := leadingDigit_spec binaryScale_pos hvalue
  unfold leadingExponent gridStep
  rw [show ∀ count : Nat, ((count : Int) - 341 + 340).toNat = count - 1 by omega]
  exact ⟨by omega, hlow, hhigh⟩

lemma leadingExponent_lt {n : Nat} (hn : 0 < n) (hvalue : r.value < 10 ^ n * binaryScale) :
    r.leadingExponent < n - 340 := by
  have hwhole : r.value / binaryScale < 10 ^ n := (Nat.div_lt_iff_lt_mul binaryScale_pos).mpr hvalue
  have hcount := (Nat.length_toDigits_le_iff (by decide) hn).mpr hwhole
  unfold leadingExponent
  omega

/-- A quarter of the distance between `x` and the next number, scaled. -/
def quarter (x : FiniteFloat) : Nat :=
  2 ^ (x.exponent + 1074).toNat * decimalScale

variable {x y : FiniteFloat}

lemma quarter_pos (x : FiniteFloat) : 0 < quarter x :=
  Nat.mul_pos (Nat.pow_pos (by decide)) decimalScale_pos

lemma ofFloat_value (x : FiniteFloat) : (ofFloat x).value = 4 * x.mantissa * quarter x := rfl

lemma ofFloat_high (x : FiniteFloat) : (ofFloat x).high = (4 * x.mantissa + 2) * quarter x := rfl

lemma ofFloat_low_narrow (h : x.mantissa = 2 ^ 52 ∧ minExponent < x.exponent) :
    (ofFloat x).low = (4 * x.mantissa - 1) * quarter x := by
  simp only [ofFloat, if_pos h, quarter]

lemma ofFloat_low (h : ¬ (x.mantissa = 2 ^ 52 ∧ minExponent < x.exponent)) :
    (ofFloat x).low = (4 * x.mantissa - 2) * quarter x := by
  simp only [ofFloat, if_neg h, quarter]

/-- The interval reaches at least a quarter down and two quarters up. -/
lemma ofFloat_low_le (x : FiniteFloat) :
    (ofFloat x).low ≤ (4 * x.mantissa - 1) * quarter x := by
  by_cases h : x.mantissa = 2 ^ 52 ∧ minExponent < x.exponent
  · exact (ofFloat_low_narrow h).le
  · rw [ofFloat_low h]
    exact Nat.mul_le_mul_right _ (by omega)

lemma low_lt_value (hpos : 0 < x.mantissa) : (ofFloat x).low < (ofFloat x).value := by
  refine (ofFloat_low_le x).trans_lt ?_
  rw [ofFloat_value]
  exact Nat.mul_lt_mul_of_pos_right (by omega) (quarter_pos x)

lemma value_lt_high (x : FiniteFloat) : (ofFloat x).value < (ofFloat x).high := by
  rw [ofFloat_value, ofFloat_high]
  exact Nat.mul_lt_mul_of_pos_right (by omega) (quarter_pos x)

/-- A step with sixteen places below the leading digit is shorter than the interval. -/
lemma low_add_lt_high (hx : x.Canonical) (hpos : 0 < x.mantissa) {step : Nat}
    (hstep : 10 ^ 16 * step ≤ (ofFloat x).value) : (ofFloat x).low + step < (ofFloat x).high := by
  have hquarter := quarter_pos x
  have hmantissa := hx.mantissa_lt
  rw [ofFloat_value] at hstep
  rw [ofFloat_high]
  -- at a power of two the interval is only three quarters wide
  by_cases h : x.mantissa = 2 ^ 52 ∧ minExponent < x.exponent
  · rw [ofFloat_low_narrow h]
    rw [h.1] at hstep ⊢
    omega
  · rw [ofFloat_low h]
    generalize quarter x = q at *
    obtain ⟨m, hm⟩ : ∃ m, x.mantissa = m + 1 := ⟨x.mantissa - 1, by omega⟩
    have hbound : m * q ≤ (2 ^ 53 - 2) * q := Nat.mul_le_mul_right q (by omega)
    rw [hm] at hstep ⊢
    rw [show 4 * (m + 1) - 2 = 4 * m + 2 by omega]
    ring_nf at hstep hbound ⊢
    omega

lemma le_ofFloat_value (hpos : 0 < x.mantissa) : 10 ^ (16 : Nat) * binaryScale ≤ (ofFloat x).value := by
  have hpower : 0 < 2 ^ (x.exponent + 1074).toNat := by positivity
  calc 10 ^ (16 : Nat) * binaryScale ≤ 4 * decimalScale := by decide +kernel
    _ ≤ 4 * x.mantissa * (2 ^ (x.exponent + 1074).toNat * decimalScale) := by
      gcongr
      · omega
      · exact Nat.le_mul_of_pos_left _ hpower

lemma ofFloat_value_lt (hx : x.Canonical) : (ofFloat x).value < 10 ^ (649 : Nat) * binaryScale := by
  have hexponent : (x.exponent + 1074).toNat ≤ 2045 := by
    have := hx.exponent_le
    omega
  calc 4 * x.mantissa * (2 ^ (x.exponent + 1074).toNat * decimalScale)
      ≤ 4 * 2 ^ 53 * (2 ^ 2045 * decimalScale) := by
        gcongr
        · exact hx.mantissa_lt.le
        · decide
    _ < 10 ^ (649 : Nat) * binaryScale := by decide +kernel

/-- The ends of the interval of an odd mantissa lie outside. -/
lemma lt_of_contains_odd (hodd : x.mantissa % 2 = 1) (h : (ofFloat x).contains point) :
    (ofFloat x).low < point ∧ point < (ofFloat x).high :=
  lt_of_contains_open (decide_eq_false (by omega)) h

lemma le_ofFloat_low (x : FiniteFloat) :
    (4 * x.mantissa - 2) * quarter x ≤ (ofFloat x).low := by
  by_cases h : x.mantissa = 2 ^ 52 ∧ minExponent < x.exponent
  · rw [ofFloat_low_narrow h]
    exact Nat.mul_le_mul_right _ (by omega)
  · exact (ofFloat_low h).ge

lemma not_contains_of_mantissa_lt (hexponent : x.exponent = y.exponent)
    (hlt : x.mantissa < y.mantissa) (hx : (ofFloat x).contains point)
    (hy : (ofFloat y).contains point) : False := by
  have hquarter : quarter x = quarter y := by rw [quarter, quarter, hexponent]
  have hmeet : (ofFloat x).high ≤ (ofFloat y).low := by
    rw [ofFloat_high, hquarter]
    exact (Nat.mul_le_mul_right _ (by omega)).trans (le_ofFloat_low y)
  have hxle := bounds_of_contains hx
  have hyle := bounds_of_contains hy
  -- only the intervals of neighbours meet, and one of two neighbours is odd and leaves its ends out
  rcases Nat.mod_two_eq_zero_or_one x.mantissa with heven | hodd
  · rcases Nat.mod_two_eq_zero_or_one y.mantissa with heven' | hodd'
    · have hapart : (ofFloat x).high < (ofFloat y).low := by
        rw [ofFloat_high, hquarter]
        refine (Nat.mul_lt_mul_of_pos_right ?_ (quarter_pos y)).trans_le (le_ofFloat_low y)
        omega
      omega
    · have := lt_of_contains_odd hodd' hy
      omega
  · have := lt_of_contains_odd hodd hx
    omega

lemma not_contains_of_exponent_lt (hcx : x.Canonical) (hcy : y.Canonical)
    (hlt : x.exponent < y.exponent) (hx : (ofFloat x).contains point)
    (hy : (ofFloat y).contains point) : False := by
  have hlow := hcx.le_exponent
  have hnormal : 2 ^ 52 ≤ y.mantissa := hcy.normal.resolve_left (by omega)
  have hmantissa := hcx.mantissa_lt
  have hdouble : 2 * quarter x ≤ quarter y := by
    have hpower : 2 ^ ((x.exponent + 1074).toNat + 1) ≤ 2 ^ (y.exponent + 1074).toNat := by
      refine Nat.pow_le_pow_right (by decide) ?_
      simp only [minExponent] at hlow
      omega
    unfold quarter
    calc 2 * (2 ^ (x.exponent + 1074).toNat * decimalScale)
        = 2 ^ ((x.exponent + 1074).toNat + 1) * decimalScale := by
          rw [← Nat.mul_assoc, ← Nat.pow_succ']
      _ ≤ 2 ^ (y.exponent + 1074).toNat * decimalScale := Nat.mul_le_mul_right _ hpower
  have hmeet : (2 ^ 55 - 2) * quarter x ≤ (ofFloat y).low := by
    by_cases h : y.mantissa = 2 ^ 52 ∧ minExponent < y.exponent
    · rw [ofFloat_low_narrow h, h.1]
      omega
    · have hwide : 2 ^ 52 + 1 ≤ y.mantissa := by omega
      have hmul : (2 ^ 54 + 2) * quarter y ≤ (4 * y.mantissa - 2) * quarter y :=
        Nat.mul_le_mul_right _ (by omega)
      rw [ofFloat_low h]
      omega
  have hxle := bounds_of_contains hx
  have hyle := bounds_of_contains hy
  have hquarter := quarter_pos x
  -- of the smaller exponent only the last mantissa reaches this far, and it is odd
  by_cases hlast : x.mantissa = 2 ^ 53 - 1
  · have hopen := lt_of_contains_odd (by rw [hlast]; decide) hx
    rw [ofFloat_high, hlast] at hopen
    omega
  · have hhigh : (4 * x.mantissa + 2) * quarter x ≤ (2 ^ 55 - 6) * quarter x :=
      Nat.mul_le_mul_right _ (by omega)
    rw [ofFloat_high] at hxle
    omega

/-- No two numbers share a point of their rounding intervals. -/
lemma eq_of_contains (hcx : x.Canonical) (hcy : y.Canonical) (hx : (ofFloat x).contains point)
    (hy : (ofFloat y).contains point) : x.mantissa = y.mantissa ∧ x.exponent = y.exponent := by
  rcases lt_trichotomy x.exponent y.exponent with hlt | heq | hlt
  · exact (not_contains_of_exponent_lt hcx hcy hlt hx hy).elim
  · rcases lt_trichotomy x.mantissa y.mantissa with hlt | hmantissa | hlt
    · exact (not_contains_of_mantissa_lt heq hlt hx hy).elim
    · exact ⟨hmantissa, heq⟩
    · exact (not_contains_of_mantissa_lt heq.symm hlt hy hx).elim
  · exact (not_contains_of_exponent_lt hcy hcx hlt hy hx).elim

end RoundingInterval

/-- Dropping zeros keeps the number. -/
lemma Digits.trim_spec (n : Nat) {d : Digits} (hd : -340 ≤ d.exponent) :
    (d.trim n).coefficient * gridStep (d.trim n).exponent = d.coefficient * gridStep d.exponent ∧
      (d.trim n).coefficient ≤ d.coefficient ∧ d.exponent ≤ (d.trim n).exponent ∧
      (d.trim n).exponent ≤ d.exponent + n := by
  induction n generalizing d with
  | zero => simp [trim]
  | succ n ih =>
    rw [trim]
    split_ifs with hzero
    · obtain ⟨hvalue, hcoefficient, hlow, hhigh⟩ :=
        ih (d := ⟨d.coefficient / 10, d.exponent + 1⟩) (by dsimp only; omega)
      dsimp only at hvalue hcoefficient hlow hhigh
      refine ⟨?_, by omega, by omega, by omega⟩
      have hdivide : d.coefficient / 10 * 10 = d.coefficient := by omega
      rw [hvalue, show d.exponent + 1 = d.exponent + (1 : Nat) from rfl, gridStep_add hd,
        Nat.pow_one, ← Nat.mul_assoc, hdivide]
    · exact ⟨rfl, le_refl _, le_refl _, by omega⟩

/-- The digits lie in the rounding interval; seventeen of them are enough, and the exponent is
never far out. -/
lemma shortest_spec (tie : Tie) {x : FiniteFloat} (hx : x.Canonical) (hpos : 0 < x.mantissa) :
    (RoundingInterval.ofFloat x).contains
        ((shortest tie x).coefficient * gridStep (shortest tie x).exponent) ∧
      (shortest tie x).coefficient ≤ 10 ^ 17 ∧ -340 ≤ (shortest tie x).exponent ∧
      (shortest tie x).exponent ≤ 325 := by
  obtain ⟨hleading, hlow, hhigh⟩ :=
    RoundingInterval.leadingExponent_spec (RoundingInterval.le_ofFloat_value hpos)
  have htop := RoundingInterval.ofFloat_value_lt hx
  have hlast := @RoundingInterval.low_add_lt_high x hx hpos
  have hbelow := RoundingInterval.low_lt_value hpos
  have habove := RoundingInterval.value_lt_high x
  unfold shortest
  rw [if_neg (by omega)]
  dsimp only
  generalize RoundingInterval.ofFloat x = r at *
  have hfinest : 10 ^ 16 * gridStep (r.leadingExponent - (16 : Nat)) = gridStep r.leadingExponent := by
    rw [← gridStep_add (by omega), Int.sub_add_cancel]
  obtain ⟨d, hd, hinside, hcoefficient, hfine, hcoarse⟩ :=
    RoundingInterval.search_spec tie hbelow habove (hlast (hfinest.trans_le hlow))
  rw [hd]
  obtain ⟨hvalue, hshrunk, hgrown, hgrowth⟩ := Digits.trim_spec 17 (d := d) (by omega)
  have hsmall : r.value / gridStep d.exponent < 10 ^ 17 := by
    obtain ⟨j, hj⟩ : ∃ j : Nat, r.leadingExponent = d.exponent + j :=
      ⟨(r.leadingExponent - d.exponent).toNat, by omega⟩
    have hscale : gridStep r.leadingExponent ≤ 10 ^ 16 * gridStep d.exponent := by
      rw [hj, gridStep_add (by omega)]
      exact Nat.mul_le_mul_right _ (Nat.pow_le_pow_right (by decide) (by omega))
    rw [Nat.div_lt_iff_lt_mul (gridStep_pos _)]
    omega
  have hleast := RoundingInterval.leadingExponent_lt (by decide) htop
  refine ⟨?_, by omega, by omega, by omega⟩
  rw [hvalue]
  exact hinside

lemma shortest_zero (tie : Tie) {x : FiniteFloat} (h : x.mantissa = 0) : shortest tie x = ⟨0, 0⟩ :=
  if_pos h

lemma shortest_pos (tie : Tie) {x : FiniteFloat} (hx : x.Canonical) (hpos : 0 < x.mantissa) :
    0 < (shortest tie x).coefficient := by
  have hinside := RoundingInterval.bounds_of_contains (shortest_spec tie hx hpos).1
  have hlow := RoundingInterval.le_ofFloat_low x
  have hquarter : 0 < (4 * x.mantissa - 2) * RoundingInterval.quarter x :=
    Nat.mul_pos (by omega) (RoundingInterval.quarter_pos x)
  exact Nat.pos_of_mul_pos_right (hquarter.trans_le (hlow.trans hinside.1))

/-- Digits and exponent stay small, and only zero itself has no digits. -/
lemma shortest_bounds (tie : Tie) {x : FiniteFloat} (hx : x.Canonical) :
    (shortest tie x).coefficient ≤ 10 ^ 17 ∧ -340 ≤ (shortest tie x).exponent ∧
      (shortest tie x).exponent ≤ 325 ∧
      (0 < (shortest tie x).coefficient ∨ (shortest tie x).exponent = 0) := by
  rcases Nat.eq_zero_or_pos x.mantissa with hzero | hpos
  · rw [shortest_zero tie hzero]
    decide
  · obtain ⟨-, hcoefficient, hlow, hhigh⟩ := shortest_spec tie hx hpos
    exact ⟨hcoefficient, hlow, hhigh, .inl (shortest_pos tie hx hpos)⟩

/-- The number that the digits stand for tells which float they were made from. -/
lemma shortest_value_inj (tie : Tie) {x y : FiniteFloat} (hx : x.Canonical) (hy : y.Canonical)
    (h : (shortest tie x).coefficient * gridStep (shortest tie x).exponent =
      (shortest tie y).coefficient * gridStep (shortest tie y).exponent) :
    x.mantissa = y.mantissa ∧ x.exponent = y.exponent := by
  have hmin : ∀ z : FiniteFloat, z.Canonical → z.mantissa = 0 → z.exponent = minExponent := by
    intro z hz hzero
    exact hz.normal.resolve_right (by omega)
  have hproduct : ∀ z : FiniteFloat, z.Canonical → 0 < z.mantissa →
      0 < (shortest tie z).coefficient * gridStep (shortest tie z).exponent :=
    fun z hz hpos => Nat.mul_pos (shortest_pos tie hz hpos) (gridStep_pos _)
  rcases Nat.eq_zero_or_pos x.mantissa with hxzero | hxpos <;>
    rcases Nat.eq_zero_or_pos y.mantissa with hyzero | hypos
  · exact ⟨by omega, by rw [hmin x hx hxzero, hmin y hy hyzero]⟩
  · have := hproduct y hy hypos
    rw [← h, shortest_zero tie hxzero] at this
    simp at this
  · have := hproduct x hx hxpos
    rw [h, shortest_zero tie hyzero] at this
    simp at this
  · have hinside := (shortest_spec tie hx hxpos).1
    rw [h] at hinside
    exact RoundingInterval.eq_of_contains hx hy hinside (shortest_spec tie hy hypos).1

end SealedScript.Decimal
