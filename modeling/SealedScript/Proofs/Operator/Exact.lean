import Mathlib.Data.Rat.Floor
import Mathlib.Tactic.Linarith
import SealedScript.Operator.Basic

/-! What operators on integers give, against what their results are in mathematics: quotients rounded down,
powers and shifts of any size. The exact result is given if it fits sixty-four bits. -/

namespace SealedScript.Operator

/-- The integer has a word. -/
def Representable (r : Int) : Prop :=
  -2 ^ 63 ≤ r ∧ r < 2 ^ 63

instance (r : Int) : Decidable (Representable r) :=
  inferInstanceAs (Decidable (_ ∧ _))

/-- The word of an integer, if there is one. -/
def word? (r : Int) : Option Int64 :=
  if Representable r then some (Int64.ofInt r) else none

/-- What an operator gives if its result is this word, or has none. -/
def outcome (op : BinaryOp) (word : Option Int64) : Except Cause Value :=
  word.elim (.error (.overflow op)) fun k => .ok (.int k)

/-- The exact result of an operator, where it has one among the integers. -/
inductive Exact : BinaryOp → Int → Int → Int → Prop
  | add (x y : Int) : Exact .add x y (x + y)
  | sub (x y : Int) : Exact .sub x y (x - y)
  | mul (x y : Int) : Exact .mul x y (x * y)
  | div (x : Int) {y : Int} (hy : y ≠ 0) : Exact .div x y ⌊(x / y : ℚ)⌋
  | mod (x : Int) {y : Int} (hy : y ≠ 0) : Exact .mod x y (x - y * ⌊(x / y : ℚ)⌋)
  | pow (x : Int) {y : Int} (hy : 0 ≤ y) : Exact .pow x y (x ^ y.toNat)
  | rshift (x : Int) {y : Int} (hy : 0 ≤ y) : Exact .rshift x y ⌊(x / 2 ^ y.toNat : ℚ)⌋

section Words

lemma toInt_representable (k : Int64) : Representable k.toInt :=
  ⟨k.le_toInt, k.toInt_lt⟩

lemma word?_eq_some_iff {r : Int} {k : Int64} : word? r = some k ↔ k.toInt = r := by
  unfold word?
  split_ifs with h
  · rw [Option.some_inj, ← Int64.toInt_inj, Int64.toInt_ofInt_of_le h.1 h.2, eq_comm]
  · refine ⟨fun hsome => (by simp at hsome), ?_⟩
    rintro rfl
    exact absurd (toInt_representable k) h

@[simp] lemma word?_toInt (k : Int64) : word? k.toInt = some k :=
  word?_eq_some_iff.mpr rfl

lemma word?_eq_none {r : Int} (h : ¬ Representable r) : word? r = none :=
  if_neg h

lemma fit_eq (op : BinaryOp) (r : Int) : fit op r = outcome op (word? r) := by
  by_cases h : Representable r
  · have hword : word? r = some (Int64.ofInt r) := if_pos h
    rw [hword]
    exact if_pos h
  · rw [word?_eq_none h]
    exact if_neg h

end Words

section Floor

/-- The remainder lies between zero and the divisor. -/
def Sided (y r : Int) : Prop :=
  0 ≤ r ∧ r < y ∨ y < r ∧ r ≤ 0

/-- A quotient whose remainder is on the side of the divisor is the floor. -/
lemma floor_eq_of_sided {x y q r : Int} (hx : x = y * q + r) (hr : Sided y r) : ⌊(x / y : ℚ)⌋ = q := by
  have hcast : (x : ℚ) = y * q + r := by exact_mod_cast hx
  rw [Int.floor_eq_iff, hcast]
  rcases hr with ⟨hlow, hhigh⟩ | ⟨hlow, hhigh⟩
  · have hy : (0 : ℚ) < y := by exact_mod_cast hlow.trans_lt hhigh
    have hlow' : (0 : ℚ) ≤ r := by exact_mod_cast hlow
    have hhigh' : (r : ℚ) < y := by exact_mod_cast hhigh
    rw [le_div_iff₀ hy, div_lt_iff₀ hy]
    constructor <;> linarith
  · have hy : (y : ℚ) < 0 := by exact_mod_cast hlow.trans_le hhigh
    have hlow' : (y : ℚ) < r := by exact_mod_cast hlow
    have hhigh' : (r : ℚ) ≤ 0 := by exact_mod_cast hhigh
    rw [le_div_iff_of_neg hy, div_lt_iff_of_neg hy]
    constructor <;> linarith

lemma sided_fmod (x : Int) {y : Int} (hy : y ≠ 0) : Sided y (x.fmod y) := by
  have hlow := Int.emod_nonneg x hy
  have hhigh := Int.emod_lt_abs x hy
  have hdvd : y ∣ x → x % y = 0 := Int.emod_eq_zero_of_dvd
  have hndvd : x % y = 0 → y ∣ x := Int.dvd_of_emod_eq_zero
  rw [Int.fmod_eq_emod]
  unfold Sided
  rcases lt_or_gt_of_ne hy with hneg | hpos
  · rw [abs_of_neg hneg] at hhigh
    split_ifs with h
    · right
      rcases h with h | h
      · omega
      · rw [hdvd h]
        omega
    · right
      have hne : x % y ≠ 0 := fun hzero => h (.inr (hndvd hzero))
      omega
  · rw [abs_of_pos hpos] at hhigh
    left
    rw [if_pos (.inl hpos.le)]
    omega

lemma floor_eq_fdiv (x : Int) {y : Int} (hy : y ≠ 0) : ⌊(x / y : ℚ)⌋ = x.fdiv y :=
  floor_eq_of_sided (Int.mul_fdiv_add_fmod x y).symm (sided_fmod x hy)

lemma sub_mul_floor_eq_fmod (x : Int) {y : Int} (hy : y ≠ 0) : x - y * ⌊(x / y : ℚ)⌋ = x.fmod y := by
  have h := Int.mul_fdiv_add_fmod x y
  rw [floor_eq_fdiv x hy]
  omega

lemma floor_div_two_pow (x : Int) (n : Nat) : ⌊(x / 2 ^ n : ℚ)⌋ = x.fdiv (2 ^ n) := by
  have hcast : ((2 ^ n : Int) : ℚ) = 2 ^ n := by norm_cast
  rw [← floor_eq_fdiv x (by positivity), hcast]

/-- From sixty-four places on nothing is left but the sign. -/
lemma fdiv_two_pow_of_le {x : Int} (hx : Representable x) {n : Nat} (hn : 64 ≤ n) :
    x.fdiv (2 ^ n) = if x < 0 then -1 else 0 := by
  have hlarge : (2 ^ 64 : Int) ≤ 2 ^ n := pow_le_pow_right₀ (by decide) hn
  have hne : (2 ^ n : Int) ≠ 0 := by positivity
  unfold Representable at hx
  rw [← floor_eq_fdiv x hne]
  split_ifs with hneg
  · refine floor_eq_of_sided (r := x + 2 ^ n) (by ring) (.inl ?_)
    omega
  · refine floor_eq_of_sided (r := x) (by ring) (.inl ?_)
    omega

end Floor

section Powers

/-- Every further power of such a base is at least twice as large. -/
lemma two_mul_natAbs_pow_le {x : Int} (hx : 2 ≤ x.natAbs) (n : Nat) :
    2 * (x ^ n).natAbs ≤ (x ^ (n + 1)).natAbs := by
  rw [pow_succ, Int.natAbs_mul, mul_comm]
  exact Nat.mul_le_mul_left _ hx

lemma two_pow_le_natAbs_pow {x : Int} (hx : 2 ≤ x.natAbs) (n : Nat) : 2 ^ n ≤ (x ^ n).natAbs := by
  rw [Int.natAbs_pow]
  exact Nat.pow_le_pow_left hx n

lemma not_representable_pow {x : Int} (hx : 2 ≤ x.natAbs) {n : Nat} (hn : 64 ≤ n) :
    ¬ Representable (x ^ n) := by
  have hlarge := two_pow_le_natAbs_pow hx n
  have hmono : 2 ^ 64 ≤ 2 ^ n := Nat.pow_le_pow_right (by decide) hn
  unfold Representable
  omega

lemma neg_one_pow_eq (n : Nat) : (-1 : Int) ^ n = if n % 2 = 0 then 1 else -1 := by
  split_ifs with h
  · exact (Nat.even_iff.mpr h).neg_one_pow
  · exact (Nat.odd_iff.mpr (by omega)).neg_one_pow

end Powers

section Exactness

/-- The short cuts of the power change nothing. -/
lemma power_eq_fit (x : Int) (n : Nat) : power x n = fit .pow (x ^ n) := by
  unfold power
  by_cases hzero : x = 0
  · rw [if_pos hzero, hzero, zero_pow_eq]
  rw [if_neg hzero]
  by_cases hone : x = 1
  · rw [if_pos hone, hone, one_pow]
  rw [if_neg hone]
  by_cases hneg : x = -1
  · rw [if_pos hneg, hneg, neg_one_pow_eq]
  rw [if_neg hneg]
  split_ifs with hn
  · rfl
  · have hlarge := not_representable_pow (by omega : 2 ≤ x.natAbs) (not_lt.mp hn)
    rw [fit_eq, word?_eq_none hlarge]
    rfl

lemma shiftRight_eq_fit {x : Int} (hx : Representable x) (n : Nat) :
    shiftRight x n = fit .rshift (x.fdiv (2 ^ n)) := by
  unfold shiftRight
  split_ifs with hn hneg
  · rw [fdiv_two_pow_of_le hx hn, if_pos hneg]
  · rw [fdiv_two_pow_of_le hx hn, if_neg hneg]
  · rfl

/-- Only minus one stays in range when it is shifted by sixty-three places, and nothing by more. -/
lemma not_representable_mul_two_pow {x : Int} (hx : x ≠ 0) {n : Nat} (hn : 63 ≤ n)
    (h : ¬ (x = -1 ∧ n = 63)) : ¬ Representable (x * 2 ^ n) := by
  intro hfits
  unfold Representable at hfits
  rcases hn.eq_or_lt with rfl | hmore
  · omega
  · have hlarge : (2 ^ 64 : Int) ≤ 2 ^ n := pow_le_pow_right₀ (by decide) hmore
    rcases lt_or_gt_of_ne hx with hneg | hpos
    · nlinarith
    · nlinarith

lemma shiftLeft_eq_fit {x : Int} {n : Nat} (h : ¬ (x = -1 ∧ n = 63)) :
    shiftLeft x n = fit .lshift (x * 2 ^ n) := by
  unfold shiftLeft
  split_ifs with hn hzero
  · rw [hzero, zero_mul]
  · rw [fit_eq, word?_eq_none (not_representable_mul_two_pow hzero hn h)]
    rfl
  · rfl

/-- Operators on integers give the exact result, or overflow where it does not fit. -/
theorem integer_eq {op : BinaryOp} {a b : Int64} {r : Int} (h : Exact op a.toInt b.toInt r) :
    integer op a b = outcome op (word? r) := by
  cases h with
  | add => exact fit_eq _ _
  | sub => exact fit_eq _ _
  | mul => exact fit_eq _ _
  | div _ hy => rw [integer, if_neg hy, floor_eq_fdiv _ hy, fit_eq]
  | mod _ hy => rw [integer, if_neg hy, sub_mul_floor_eq_fmod _ hy, fit_eq]
  | pow _ hy => rw [integer, if_neg (not_lt.mpr hy), power_eq_fit, fit_eq]
  | rshift _ hy =>
    rw [integer, if_neg (not_lt.mpr hy), shiftRight_eq_fit (toInt_representable a), fit_eq,
      floor_div_two_pow]

end Exactness

end SealedScript.Operator
