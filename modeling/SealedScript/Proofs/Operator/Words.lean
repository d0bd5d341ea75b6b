import SealedScript.Proofs.Operator.Exact

/-! Integer operators computed in words of sixty-four bits, with truncating division and with checks before
and after. Wherever the exact result has a word, the computation ends in it, and it never comes to an
operation that would wrap or trap. -/

namespace SealedScript.Operator.Word

/-- What must not happen: a result that is not the exact one, or an operation where there is none. -/
inductive Fault where
  | wraps
  | traps
  deriving DecidableEq, Repr

def checkedAdd (a b : Int64) : Option Int64 :=
  if a.toBitVec.saddOverflow b.toBitVec then none else some (a + b)

def checkedSub (a b : Int64) : Option Int64 :=
  if a.toBitVec.ssubOverflow b.toBitVec then none else some (a - b)

def checkedMul (a b : Int64) : Option Int64 :=
  if a.toBitVec.smulOverflow b.toBitVec then none else some (a * b)

/-- The quotient is outside its range, or there is none. -/
def Indivisible (a b : Int64) : Prop :=
  b = 0 ∨ a = Int64.minValue ∧ b = -1

instance (a b : Int64) : Decidable (Indivisible a b) :=
  inferInstanceAs (Decidable (_ ∨ _))

def checkedDiv (a b : Int64) : Option Int64 :=
  if Indivisible a b then none else some (a / b)

def checkedRem (a b : Int64) : Option Int64 :=
  if Indivisible a b then none else some (a % b)

def checkedPow (a : Int64) : Nat → Option Int64
  | 0 => some 1
  | n + 1 => (checkedPow a n).bind fun p => checkedMul p a

-- the operations from here on do not check anything

def add (a b : Int64) : Except Fault Int64 :=
  if a.toBitVec.saddOverflow b.toBitVec then .error .wraps else .ok (a + b)

def rem (a b : Int64) : Except Fault Int64 :=
  if Indivisible a b then .error .traps else .ok (a % b)

/-- Bits that leave the word are lost, which is no fault. -/
def shiftLeft (a b : Int64) : Except Fault Int64 :=
  if 0 ≤ b ∧ b < 64 then .ok (a <<< b) else .error .traps

def shiftRight (a b : Int64) : Except Fault Int64 :=
  if 0 ≤ b ∧ b < 64 then .ok (a >>> b) else .error .traps

/-- The truncated quotient, and one less if something was cut off below zero. -/
def floorDiv (a b : Int64) : Except Fault (Option Int64) :=
  match checkedDiv a b with
  | none => .ok none
  | some q => do
    let r ← rem a b
    return if r ≠ 0 ∧ (a < 0) ≠ (b < 0) then checkedSub q 1 else some q

/-- The truncated remainder, brought to the side of the divisor. -/
def floorMod (a b : Int64) : Except Fault (Option Int64) :=
  if b = -1 then .ok (some 0)
  else
    match checkedRem a b with
    | none => .ok none
    | some r => if r ≠ 0 ∧ (r < 0) ≠ (b < 0) then some <$> add r b else .ok (some r)

/-- Bases with short cuts take any exponent, the others those of thirty-two bits. -/
def power (a b : Int64) : Except Fault (Option Int64) :=
  if a = 0 then .ok (some (if b = 0 then 1 else 0))
  else if a = 1 then .ok (some 1)
  else if a = -1 then do
    let parity ← rem b 2
    return some (if parity = 0 then 1 else -1)
  else if b.toInt < 2 ^ 32 then .ok (checkedPow a b.toInt.toNat)
  else .ok none

def halved (a b : Int64) : Except Fault (Option Int64) :=
  if 64 ≤ b then .ok (some (if a < 0 then -1 else 0)) else some <$> shiftRight a b

/-- Shifting back tells whether bits were lost. -/
def doubled (a b : Int64) : Except Fault (Option Int64) :=
  if 63 ≤ b then .ok (if a = 0 then some 0 else none)
  else do
    let s ← shiftLeft a b
    let back ← shiftRight s b
    return if back = a then some s else none

def arithmetic (op : BinaryOp) (a b : Int64) : Except Fault (Option Int64) :=
  match op with
  | .add => .ok (checkedAdd a b)
  | .sub => .ok (checkedSub a b)
  | .mul => .ok (checkedMul a b)
  | .div => floorDiv a b
  | .mod => floorMod a b
  | .pow => power a b
  | .lshift => doubled a b
  | .rshift => halved a b
  | .bitAnd => .ok (some (a &&& b))
  | .bitOr => .ok (some (a ||| b))
  | .bitXor => .ok (some (a ^^^ b))

section Checked

variable (a b : Int64)

/-- A check that tells what fits is as good as the exact result. -/
lemma checked_eq {overflows : Bool} {k : Int64} {r : Int} (hflag : overflows = true ↔ ¬ Representable r)
    (hk : ¬ overflows = true → k.toInt = r) : (if overflows then none else some k) = word? r := by
  split_ifs with h
  · exact (word?_eq_none (hflag.mp h)).symm
  · exact (word?_eq_some_iff.mpr (hk h)).symm

lemma checkedAdd_eq : checkedAdd a b = word? (a.toInt + b.toInt) := by
  refine checked_eq ?_ fun h => ?_
  · simp [BitVec.saddOverflow, Representable]
    omega
  · rw [← Int64.toInt_toBitVec, Int64.toBitVec_add, BitVec.toInt_add_of_not_saddOverflow h]
    rfl

lemma checkedSub_eq : checkedSub a b = word? (a.toInt - b.toInt) := by
  refine checked_eq ?_ fun h => ?_
  · simp [BitVec.ssubOverflow, Representable]
    omega
  · rw [← Int64.toInt_toBitVec, Int64.toBitVec_sub, BitVec.toInt_sub_of_not_ssubOverflow h]
    rfl

lemma checkedMul_eq : checkedMul a b = word? (a.toInt * b.toInt) := by
  refine checked_eq ?_ fun h => ?_
  · simp [BitVec.smulOverflow, Representable]
    omega
  · rw [← Int64.toInt_toBitVec, Int64.toBitVec_mul, BitVec.toInt_mul_of_not_smulOverflow h]
    rfl

end Checked

section Division

variable {a b : Int64}

lemma eq_zero_iff : a = 0 ↔ a.toInt = 0 := by
  rw [← Int64.toInt_inj, Int64.toInt_zero]

lemma neg_iff : a < 0 ↔ a.toInt < 0 := by
  rw [Int64.lt_iff_toInt_lt, Int64.toInt_zero]

lemma toInt_div_of_divisible (h : ¬ Indivisible a b) : (a / b).toInt = a.toInt.tdiv b.toInt := by
  by_cases hb : b = -1
  · exact Int64.toInt_div_of_ne_left a b fun ha => h (.inr ⟨ha, hb⟩)
  · exact Int64.toInt_div_of_ne_right a b hb

/-- The remainder of truncated division is smaller than the divisor and has the sign of the dividend. -/
lemma tmod_bounds (x : Int) {y : Int} (hy : y ≠ 0) :
    (x.tmod y).natAbs < y.natAbs ∧ (0 ≤ x → 0 ≤ x.tmod y) ∧ (x < 0 → x.tmod y ≤ 0) := by
  refine ⟨?_, Int.tmod_nonneg y, fun hx => ?_⟩
  · rw [Int.natAbs_tmod]
    exact Nat.mod_lt _ (Int.natAbs_pos.mpr hy)
  · have h := Int.tmod_nonneg y (a := -x) (by omega)
    rw [Int.neg_tmod] at h
    omega

/-- What truncation has cut off on the wrong side is put right by one divisor. -/
lemma sided_tmod (x : Int) {y : Int} (hy : y ≠ 0) :
    if x.tmod y ≠ 0 ∧ (x < 0) ≠ (y < 0) then Sided y (x.tmod y + y) else Sided y (x.tmod y) := by
  obtain ⟨hsmall, hnonneg, hneg⟩ := tmod_bounds x hy
  unfold Sided
  split_ifs with h
  · have hsides : (x < 0 ∧ 0 < y) ∨ (0 ≤ x ∧ y < 0) := by
      by_cases hx : x < 0 <;> by_cases hy' : y < 0 <;> simp [hx, hy'] at h ⊢ <;> omega
    omega
  · have hsides : x.tmod y = 0 ∨ (x < 0 ∧ y < 0) ∨ (0 ≤ x ∧ 0 < y) := by
      by_cases hx : x < 0 <;> by_cases hy' : y < 0 <;> simp [hx, hy'] at h ⊢ <;> omega
    omega

lemma representable_of_sided {r : Int} (h : Sided b.toInt r) : Representable r := by
  have hb := toInt_representable b
  unfold Sided at h
  unfold Representable at *
  omega

/-- One sign test does for both of the divisions. -/
lemma sign_test {x y : Int} (hy : y ≠ 0) :
    (x.tmod y ≠ 0 ∧ (x.tmod y < 0) ≠ (y < 0)) ↔ (x.tmod y ≠ 0 ∧ (x < 0) ≠ (y < 0)) := by
  obtain ⟨-, hnonneg, hneg⟩ := tmod_bounds x hy
  refine and_congr_right fun hne => ?_
  have hsign : x.tmod y < 0 ↔ x < 0 := by omega
  rw [propext hsign]

lemma floorDiv_eq (hb : b ≠ 0) : floorDiv a b = .ok (word? ⌊(a.toInt / b.toInt : ℚ)⌋) := by
  have hy : b.toInt ≠ 0 := eq_zero_iff.not.mp hb
  by_cases h : Indivisible a b
  · obtain rfl | ⟨rfl, rfl⟩ := h
    · exact absurd rfl hb
    · rw [floor_eq_fdiv _ hy]
      decide
  · have hdiv : a.toInt = b.toInt * a.toInt.tdiv b.toInt + a.toInt.tmod b.toInt :=
      (Int.mul_tdiv_add_tmod _ _).symm
    have hsided := sided_tmod a.toInt hy
    have htest : (a % b ≠ 0 ∧ (a < 0) ≠ (b < 0)) ↔
        (a.toInt.tmod b.toInt ≠ 0 ∧ (a.toInt < 0) ≠ (b.toInt < 0)) := by
      simp only [ne_eq, eq_zero_iff, neg_iff, Int64.toInt_mod]
    unfold floorDiv checkedDiv rem
    simp only [if_neg h]
    change Except.ok (if a % b ≠ 0 ∧ (a < 0) ≠ (b < 0) then _ else _) = _
    by_cases hcut : a % b ≠ 0 ∧ (a < 0) ≠ (b < 0)
    · rw [if_pos (htest.mp hcut)] at hsided
      rw [if_pos hcut, checkedSub_eq, toInt_div_of_divisible h,
        floor_eq_of_sided (q := a.toInt.tdiv b.toInt - 1) _ hsided]
      · rfl
      · rw [mul_sub, mul_one]
        omega
    · rw [if_neg (htest.not.mp hcut)] at hsided
      rw [if_neg hcut, floor_eq_of_sided hdiv hsided, ← toInt_div_of_divisible h, word?_toInt]

/-- The sum is never carried out in words where it does not fit. -/
lemma add_eq (h : Representable (a.toInt + b.toInt)) : some <$> add a b = .ok (word? (a.toInt + b.toInt)) := by
  have hchecked := checkedAdd_eq a b
  unfold checkedAdd at hchecked
  unfold add
  split_ifs at hchecked ⊢ with hflag
  · have hfits := word?_eq_some_iff.mpr (Int64.toInt_ofInt_of_le h.1 h.2)
    rw [hfits] at hchecked
    cases hchecked
  · rw [← hchecked]
    rfl

lemma floorMod_eq (hb : b ≠ 0) :
    floorMod a b = .ok (word? (a.toInt - b.toInt * ⌊(a.toInt / b.toInt : ℚ)⌋)) := by
  have hy : b.toInt ≠ 0 := eq_zero_iff.not.mp hb
  unfold floorMod
  by_cases hone : b = -1
  · subst hone
    have hdvd : Int64.toInt (-1) ∣ a.toInt := ⟨-a.toInt, (by simp : a.toInt = -1 * -a.toInt)⟩
    have hzero : a.toInt.fmod (Int64.toInt (-1)) = Int64.toInt 0 := Int.fmod_eq_zero_of_dvd hdvd
    rw [if_pos rfl, sub_mul_floor_eq_fmod _ hy, hzero, word?_toInt]
  · have h : ¬ Indivisible a b := by
      rintro (hzero | ⟨-, hneg⟩)
      · exact hb hzero
      · exact hone hneg
    have hsided := sided_tmod a.toInt hy
    have hdiv := Int.mul_tdiv_add_tmod a.toInt b.toInt
    have htest : (a % b ≠ 0 ∧ (a % b < 0) ≠ (b < 0)) ↔
        (a.toInt.tmod b.toInt ≠ 0 ∧ (a.toInt < 0) ≠ (b.toInt < 0)) := by
      rw [← sign_test hy]
      simp only [ne_eq, eq_zero_iff, neg_iff, Int64.toInt_mod]
    rw [if_neg hone, checkedRem, if_neg h]
    dsimp only
    by_cases hcut : a % b ≠ 0 ∧ (a % b < 0) ≠ (b < 0)
    · rw [if_pos (htest.mp hcut)] at hsided
      have hfloor : ⌊(a.toInt / b.toInt : ℚ)⌋ = a.toInt.tdiv b.toInt - 1 := by
        refine floor_eq_of_sided ?_ hsided
        rw [mul_sub, mul_one]
        omega
      rw [if_pos hcut, add_eq, hfloor, Int64.toInt_mod]
      · congr 2
        rw [mul_sub, mul_one]
        omega
      · rw [Int64.toInt_mod]
        exact representable_of_sided hsided
    · rw [if_neg (htest.not.mp hcut)] at hsided
      rw [if_neg hcut, floor_eq_of_sided hdiv.symm hsided]
      have hrem : a.toInt - b.toInt * a.toInt.tdiv b.toInt = (a % b).toInt := by
        rw [Int64.toInt_mod]
        omega
      rw [hrem, word?_toInt]

end Division

section Powers

/-- A power that fits has come from powers that fit. -/
lemma checkedPow_eq {a : Int64} (ha : 2 ≤ a.toInt.natAbs) (n : Nat) :
    checkedPow a n = word? (a.toInt ^ n) := by
  induction n with
  | zero =>
    rw [pow_zero, checkedPow]
    decide
  | succ n ih =>
    rw [checkedPow, ih]
    by_cases h : Representable (a.toInt ^ n)
    · have hword := word?_eq_some_iff.mpr (Int64.toInt_ofInt_of_le h.1 h.2)
      rw [hword, Option.bind_some, checkedMul_eq, Int64.toInt_ofInt_of_le h.1 h.2, pow_succ]
    · have hnext : ¬ Representable (a.toInt ^ (n + 1)) := by
        have hdouble := two_mul_natAbs_pow_le ha n
        unfold Representable at *
        omega
      rw [word?_eq_none h, word?_eq_none hnext, Option.bind_none]

lemma rem_two (b : Int64) : rem b 2 = .ok (b % 2) := by
  refine if_neg ?_
  rintro (h | ⟨-, h⟩)
  · exact absurd h (by decide)
  · exact absurd h (by decide)

/-- Bases of size one or none have all their powers; the others have powers below the sixty-fourth at most. -/
lemma power_eq {a b : Int64} (hb : 0 ≤ b.toInt) : power a b = .ok (word? (a.toInt ^ b.toInt.toNat)) := by
  unfold power
  by_cases hzero : a = 0
  · have hexp : b = 0 ↔ b.toInt.toNat = 0 := by
      rw [eq_zero_iff]
      omega
    rw [if_pos hzero, hzero, Int64.toInt_zero, zero_pow_eq]
    simp only [hexp]
    split_ifs <;> decide
  rw [if_neg hzero]
  by_cases hone : a = 1
  · rw [if_pos hone, hone, Int64.toInt_one, one_pow]
    decide
  rw [if_neg hone]
  by_cases hneg : a = -1
  · have hparity : b % 2 = 0 ↔ b.toInt.toNat % 2 = 0 := by
      have htwo : Int64.toInt 2 = 2 := rfl
      rw [eq_zero_iff, Int64.toInt_mod, htwo, Int.tmod_eq_emod_of_nonneg hb]
      omega
    rw [if_pos hneg, hneg, show Int64.toInt (-1) = -1 from rfl, neg_one_pow_eq, rem_two]
    change Except.ok (some (if b % 2 = 0 then (1 : Int64) else -1)) = _
    simp only [hparity]
    split_ifs <;> decide
  have hbase : 2 ≤ a.toInt.natAbs := by
    rw [← Int64.toInt_inj] at hzero hone hneg
    change a.toInt ≠ 0 at hzero
    change a.toInt ≠ 1 at hone
    change a.toInt ≠ -1 at hneg
    omega
  rw [if_neg hneg]
  split_ifs with hshort
  · rw [checkedPow_eq hbase]
  · rw [word?_eq_none (not_representable_pow hbase (by omega))]

end Powers

section Shifts

variable {a b : Int64}

lemma toNat_smod_of_lt (h0 : 0 ≤ b.toInt) (h : b.toInt < 64) :
    (b.toBitVec.smod 64).toNat = b.toInt.toNat := by
  have htoInt : (b.toBitVec.smod 64).toInt = b.toInt := by
    rw [BitVec.toInt_smod]
    have h64 : (64 : BitVec 64).toInt = 64 := by decide
    rw [h64, Int64.toInt_toBitVec, Int.fmod_eq_emod_of_nonneg _ (by decide)]
    omega
  have hpos : (b.toBitVec.smod 64).toInt = ((b.toBitVec.smod 64).toNat : Int) := by
    rw [BitVec.toInt_eq_toNat_cond] at htoInt ⊢
    split_ifs at htoInt ⊢ with hlt
    · rfl
    · omega
  omega

lemma toInt_shiftRight (h0 : 0 ≤ b.toInt) (h : b.toInt < 64) :
    (a >>> b).toInt = a.toInt.fdiv (2 ^ b.toInt.toNat) := by
  rw [← Int64.toInt_toBitVec, Int64.toBitVec_shiftRight, BitVec.toInt_sshiftRight', toNat_smod_of_lt h0 h,
    Int64.toInt_toBitVec, Int.shiftRight_eq_div_pow, Int.fdiv_eq_ediv_of_nonneg _ (by positivity)]
  norm_cast

lemma toInt_shiftLeft (h0 : 0 ≤ b.toInt) (h : b.toInt < 63) :
    (a <<< b).toInt = (a.toInt * 2 ^ b.toInt.toNat).bmod (2 ^ 64) := by
  have hpow : (BitVec.twoPow 64 b.toInt.toNat).toInt = 2 ^ b.toInt.toNat := by
    rw [BitVec.toInt_twoPow, if_neg (by omega), if_neg (by omega)]
  rw [← Int64.toInt_toBitVec, Int64.toBitVec_shiftLeft, BitVec.shiftLeft_eq', toNat_smod_of_lt h0 (by omega),
    BitVec.shiftLeft_eq_mul_twoPow, BitVec.toInt_mul, hpow, Int64.toInt_toBitVec]

lemma halved_eq (hb : 0 ≤ b.toInt) : halved a b = .ok (word? ⌊(a.toInt / 2 ^ b.toInt.toNat : ℚ)⌋) := by
  have hcount : 64 ≤ b ↔ 64 ≤ b.toInt := Int64.le_iff_toInt_le
  rw [floor_div_two_pow, halved]
  by_cases hlarge : 64 ≤ b.toInt
  · rw [if_pos (hcount.mpr hlarge), fdiv_two_pow_of_le (toInt_representable a) (by omega)]
    simp only [neg_iff]
    split_ifs <;> decide
  · have hguard : 0 ≤ b ∧ b < 64 :=
      ⟨Int64.le_iff_toInt_le.mpr hb, Int64.lt_iff_toInt_lt.mpr (not_le.mp hlarge)⟩
    rw [if_neg (hcount.not.mpr hlarge), shiftRight, if_pos hguard]
    rw [← toInt_shiftRight hb (by omega), word?_toInt]
    rfl

/-- Shifting back gives the operand if and only if no bits were lost. -/
lemma shiftRight_shiftLeft_eq_iff (hb : 0 ≤ b.toInt) (h : b.toInt < 63) :
    (a <<< b) >>> b = a ↔ (a <<< b).toInt = a.toInt * 2 ^ b.toInt.toNat := by
  have hpos : (0 : Int) < 2 ^ b.toInt.toNat := by positivity
  have hdvd : (2 ^ b.toInt.toNat : Int) ∣ (a <<< b).toInt := by
    rw [toInt_shiftLeft hb h]
    have hwide : (2 ^ b.toInt.toNat : Int) ∣ ((2 ^ 64 : Nat) : Int) := by
      exact_mod_cast pow_dvd_pow 2 (by omega : b.toInt.toNat ≤ 64)
    rw [Int.dvd_iff_emod_eq_zero, ← Int.emod_emod_of_dvd _ hwide, Int.bmod_emod, Int.emod_emod_of_dvd _ hwide]
    exact Int.mul_emod_left _ _
  rw [← Int64.toInt_inj, toInt_shiftRight hb (by omega), Int.fdiv_eq_ediv_of_nonneg _ hpos.le]
  exact Int.ediv_eq_iff_eq_mul_left hpos.ne' hdvd

lemma doubled_of_lt (hb : 0 ≤ b.toInt) (h : b.toInt < 63) :
    doubled a b = .ok (word? (a.toInt * 2 ^ b.toInt.toNat)) := by
  have hcount : ¬ 63 ≤ b := Int64.le_iff_toInt_le.not.mpr (not_le.mpr h)
  have hguard : 0 ≤ b ∧ b < 64 :=
    ⟨Int64.le_iff_toInt_le.mpr hb, Int64.lt_iff_toInt_lt.mpr (h.trans (by decide))⟩
  have hleft : shiftLeft a b = .ok (a <<< b) := if_pos hguard
  have hright : shiftRight (a <<< b) b = .ok ((a <<< b) >>> b) := if_pos hguard
  rw [doubled, if_neg hcount, hleft]
  change (shiftRight (a <<< b) b >>= _) = _
  rw [hright]
  change Except.ok (if (a <<< b) >>> b = a then some (a <<< b) else none) = _
  by_cases hback : (a <<< b) >>> b = a
  · rw [if_pos hback, ← (shiftRight_shiftLeft_eq_iff hb h).mp hback, word?_toInt]
  · rw [if_neg hback, word?_eq_none]
    intro hfits
    refine hback ((shiftRight_shiftLeft_eq_iff hb h).mpr ?_)
    rw [toInt_shiftLeft hb h]
    exact Int.bmod_eq_of_le hfits.1 hfits.2

/-- In words a left shift comes out as it does without them. -/
lemma doubled_eq (hb : 0 ≤ b.toInt) :
    ∃ w, doubled a b = .ok w ∧ Operator.shiftLeft a.toInt b.toInt.toNat = outcome .lshift w := by
  by_cases hlarge : 63 ≤ b.toInt
  · have hcount : 63 ≤ b := Int64.le_iff_toInt_le.mpr hlarge
    have hplaces : 63 ≤ b.toInt.toNat := by omega
    refine ⟨if a = 0 then some 0 else none, by rw [doubled, if_pos hcount], ?_⟩
    rw [Operator.shiftLeft, if_pos hplaces]
    simp only [eq_zero_iff]
    split_ifs
    · rw [fit_eq, ← Int64.toInt_zero, word?_toInt]
    · rfl
  · refine ⟨_, doubled_of_lt hb (not_le.mp hlarge), ?_⟩
    rw [Operator.shiftLeft, if_neg (by omega), fit_eq]

end Shifts

/-- In words the exact result comes out wherever it fits, and nothing wraps or traps on the way. -/
theorem arithmetic_eq {op : BinaryOp} {a b : Int64} {r : Int} (h : Exact op a.toInt b.toInt r) :
    arithmetic op a b = .ok (word? r) := by
  cases h with
  | add => exact congrArg _ (checkedAdd_eq a b)
  | sub => exact congrArg _ (checkedSub_eq a b)
  | mul => exact congrArg _ (checkedMul_eq a b)
  | div _ hy => exact floorDiv_eq (eq_zero_iff.not.mpr hy)
  | mod _ hy => exact floorMod_eq (eq_zero_iff.not.mpr hy)
  | pow _ hy => exact power_eq hy
  | rshift _ hy => exact halved_eq hy

end SealedScript.Operator.Word
