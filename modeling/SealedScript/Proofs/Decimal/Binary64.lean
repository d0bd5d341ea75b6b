import Mathlib
import SealedScript.Decimal.FiniteFloat

/-! Which operations on floats stay finite. A float is unpacked into mantissa and exponent, and what
counts is the position of its leading bit. -/

namespace SealedScript.Binary64

open Float.Model Float.Model.UnpackedFloat

section Fields

lemma append_one_toNat (fraction : BitVec 52) :
    (1#1 ++ fraction).toNat = 2 ^ 52 + fraction.toNat := by
  rw [BitVec.toNat_append, ← Nat.shiftLeft_add_eq_or_of_lt fraction.isLt]
  rfl

/-- The number with the given sign bit, exponent field and fraction field. -/
def ofFields (sign : BitVec 1) (field : BitVec 11) (fraction : BitVec 52) : UnpackedFloat :=
  if field = -1#11 then
    if fraction = 0#52 then .infinity (.ofBitVec sign) else .notANumber
  else if field = 0#11 then
    if h : fraction = 0#52 then .zero (.ofBitVec sign)
    else .finite (.ofBitVec sign) fraction.toNat ((field.toNat : Int) - (1023 + 52) + 1)
      (by simpa [BitVec.toNat_pos, BitVec.pos_iff_ne_zero])
  else .finite (.ofBitVec sign) (1#1 ++ fraction).toNat ((field.toNat : Int) - (1023 + 52))
    (by rw [append_one_toNat]; omega)

lemma unpack_eq (m : Float.Model) :
    m.unpack = ofFields (@unpackSign Format.binary64 m.toBits.toBitVec)
      (@unpackExponent Format.binary64 m.toBits.toBitVec)
      (@unpackMantissa Format.binary64 m.toBits.toBitVec) := rfl

lemma unpackSign_toNat (m : Float.Model) :
    (@unpackSign Format.binary64 m.toBits.toBitVec).toNat = m.toBits.toNat / 2 ^ 63 % 2 := by
  simp [unpackSign, BitVec.extractLsb_toNat, Nat.shiftRight_eq_div_pow]

lemma unpackExponent_toNat (m : Float.Model) :
    (@unpackExponent Format.binary64 m.toBits.toBitVec).toNat = m.toBits.toNat / 2 ^ 52 % 2 ^ 11 := by
  simp [unpackExponent, BitVec.extractLsb_toNat, Nat.shiftRight_eq_div_pow]

lemma unpackMantissa_toNat (m : Float.Model) :
    (@unpackMantissa Format.binary64 m.toBits.toBitVec).toNat = m.toBits.toNat % 2 ^ 52 := by
  simp [unpackMantissa, BitVec.extractLsb_toNat]

/-- A zero, or a mantissa of at most fifty-three bits and an exponent in range. -/
inductive InRange : UnpackedFloat → Prop
  | zero (s : Sign) : InRange (.zero s)
  | finite (s : Sign) {m : Nat} {e : Int} (hm : 0 < m) (hmantissa : m < 2 ^ 53) (hlow : -1074 ≤ e)
      (hhigh : e ≤ 971) : InRange (.finite s m e hm)

/-- The exponent field of a finite number is not full. -/
lemma ofFields_inRange (sign : BitVec 1) {field : BitVec 11} (fraction : BitVec 52)
    (h : field ≠ -1#11) : InRange (ofFields sign field fraction) := by
  have hfraction : fraction.toNat < 2 ^ 52 := fraction.isLt
  have hfield : field.toNat < 2 ^ 11 := field.isLt
  have hfull : field.toNat ≠ 2047 := fun heq => h (BitVec.eq_of_toNat_eq heq)
  unfold ofFields
  rw [if_neg h]
  split_ifs with hzero hmantissa
  · exact .zero _
  · subst hzero
    exact .finite _ _ (by omega) (by simp) (by simp)
  · have hne : field.toNat ≠ 0 := fun heq => hzero (BitVec.eq_of_toNat_eq heq)
    refine .finite _ _ ?_ (by omega) (by omega)
    rw [append_one_toNat]
    omega

lemma ofFields_full (sign : BitVec 1) (fraction : BitVec 52) :
    (ofFields sign (-1#11) fraction).isFinite = false := by
  unfold ofFields
  split_ifs <;> simp_all [UnpackedFloat.isFinite]

lemma InRange.isFinite {u : UnpackedFloat} (h : InRange u) : u.isFinite = true := by
  cases h <;> rfl

lemma isFinite_iff_field (m : Float.Model) :
    m.isFinite = true ↔ @unpackExponent Format.binary64 m.toBits.toBitVec ≠ -1#11 := by
  change m.unpack.isFinite = true ↔ _
  rw [unpack_eq]
  constructor
  · intro h heq
    rw [heq, ofFields_full] at h
    exact absurd h (by decide)
  · intro h
    exact (ofFields_inRange _ _ h).isFinite

lemma unpack_inRange {m : Float.Model} (h : m.isFinite = true) : InRange m.unpack := by
  rw [unpack_eq]
  exact ofFields_inRange _ _ ((isFinite_iff_field m).mp h)

lemma ofNat_ne_full {n : Nat} (h : n < 2047) : BitVec.ofNat 11 n ≠ -1#11 := by
  intro heq
  have hnat := congrArg BitVec.toNat heq
  simp only [BitVec.toNat_ofNat, BitVec.toNat_neg] at hnat
  omega

lemma pack_finite (s : Sign) {m : Nat} {e : Int} (hm : 0 < m) (he : e ≤ 971) :
    UnpackedFloat.pack Format.binary64 (.finite s m e hm) =
      if m.log2 = 52 then
        packComponents Format.binary64 s (BitVec.ofNat 11 (e + 1023 + 52).toNat) (BitVec.ofNat 52 m)
      else packComponents Format.binary64 s 0#11 (BitVec.ofNat 52 m) := by
  have hunfold : UnpackedFloat.pack Format.binary64 (.finite s m e hm) =
      if 2 ^ 11 ≤ (e + 1023 + 52).toNat + 1 then packedInfinity Format.binary64 s
      else if m.log2 + 1 = 53 then
        packComponents Format.binary64 s (BitVec.ofNat 11 (e + 1023 + 52).toNat) (BitVec.ofNat 52 m)
      else packComponents Format.binary64 s 0#11 (BitVec.ofNat 52 m) := rfl
  rw [hunfold, if_neg (by omega)]
  exact if_congr (by omega) rfl rfl

/-- A zero, or a number whose exponent is not too large. -/
inductive Fits : UnpackedFloat → Prop
  | zero (s : Sign) : Fits (.zero s)
  | finite (s : Sign) {m : Nat} {e : Int} (hm : 0 < m) (hhigh : e ≤ 971) : Fits (.finite s m e hm)

lemma Fits.pack_isFinite {u : UnpackedFloat} (h : Fits u) :
    (Float.Model.pack u).isFinite = true := by
  rw [isFinite_iff_field]
  change unpackExponent (UnpackedFloat.pack Format.binary64 u) ≠ -1#11
  cases h with
  | zero s =>
    simp only [UnpackedFloat.pack, packedZero, unpackExponent_packComponents]
    decide
  | finite s hm hhigh =>
    rw [pack_finite s hm hhigh]
    split_ifs
    · rw [unpackExponent_packComponents]
      exact ofNat_ne_full (by omega)
    · rw [unpackExponent_packComponents]
      decide

end Fields

section Rounding

lemma shiftRight_mantissa (em : ExtendedMantissa) (k : Nat) :
    (em >>> k).mantissa = em.mantissa / 2 ^ k := by
  change (k.repeat ExtendedMantissa.shiftRightOne em).mantissa = _
  induction k with
  | zero => simp [Nat.repeat]
  | succ k ih =>
    rw [Nat.repeat, Nat.pow_succ, ← Nat.div_div_eq_div_mul, ← ih]
    rfl

lemma roundedMantissa_bounds (em : ExtendedMantissa) :
    em.mantissa ≤ em.roundedMantissa ∧ em.roundedMantissa ≤ em.mantissa + 1 := by
  obtain ⟨m, round, sticky⟩ := em
  cases round <;> cases sticky <;>
    simp [ExtendedMantissa.roundedMantissa, ExtendedMantissa.accuracy, Accuracy.roundToNearestEven]
  omega

/-- The exponent that a number with its leading bit at `total` is given. -/
def target (total : Int) : Int :=
  max (total - 53) (-1074)

lemma targetExponent_eq (total : Int) : Format.binary64.targetExponent total = target total := rfl

lemma shiftToTarget_eq (m : Nat) (e : Int) (a : Accuracy) :
    ∃ em, shiftToTargetExponent Format.binary64 m e a =
        (em, e + (target (totalExponent m e) - e).toNat) ∧
      em.mantissa = m / 2 ^ (target (totalExponent m e) - e).toNat := by
  refine ⟨_, rfl, ?_⟩
  rw [shiftRight_mantissa]
  cases a with
  | exact => rfl
  | inexact o => cases o <;> rfl

/-- Rounding shifts to the target exponent, rounds, and shifts again should that have carried. -/
lemma round_eq (s : Sign) (m : Nat) (e : Int) (a : Accuracy) :
    ∃ r, m / 2 ^ (target (totalExponent m e) - e).toNat ≤ r ∧
      r ≤ m / 2 ^ (target (totalExponent m e) - e).toNat + 1 ∧
      ∀ e₁, e₁ = e + (target (totalExponent m e) - e).toNat →
        ∀ k, k = (target (totalExponent r e₁) - e₁).toNat →
          roundWithAccuracy Format.binary64 s m e a =
            if h : r / 2 ^ k = 0 then .zero s
            else .finite s (r / 2 ^ k) (e₁ + k) (Nat.pos_of_ne_zero h) := by
  obtain ⟨em, hshift, hmantissa⟩ := shiftToTarget_eq m e a
  have hbounds := roundedMantissa_bounds em
  rw [hmantissa] at hbounds
  refine ⟨em.roundedMantissa, hbounds.1, hbounds.2, ?_⟩
  rintro e₁ rfl k rfl
  obtain ⟨em', hshift', hmantissa'⟩ := shiftToTarget_eq em.roundedMantissa
    (e + (target (totalExponent m e) - e).toNat) .exact
  unfold roundWithAccuracy
  rw [hshift]
  dsimp only
  rw [hshift']
  dsimp only
  simp only [hmantissa']

lemma log2_div_pow {m k : Nat} (h : m / 2 ^ k ≠ 0) : (m / 2 ^ k).log2 + k = m.log2 := by
  have hm : m ≠ 0 := by
    rintro rfl
    simp at h
  have hle : 2 ^ k ≤ m := by
    by_contra hlt
    exact h (Nat.div_eq_of_lt (Nat.lt_of_not_le hlt))
  have hk : k ≤ m.log2 := (Nat.le_log2 hm).mpr hle
  have hlog : (m / 2 ^ k).log2 = m.log2 - k := by
    rw [Nat.log2_eq_iff h]
    constructor
    · rw [Nat.le_div_iff_mul_le (by positivity), ← Nat.pow_add, Nat.sub_add_cancel hk]
      exact Nat.log2_self_le hm
    · rw [Nat.div_lt_iff_lt_mul (by positivity), ← Nat.pow_add]
      rw [show m.log2 - k + 1 + k = m.log2 + 1 by omega]
      exact Nat.lt_log2_self
  omega

lemma log2_mono {m n : Nat} (h : m ≤ n) : m.log2 ≤ n.log2 := by
  rcases Nat.eq_zero_or_pos m with rfl | hm
  · simp
  · rw [Nat.le_log2 (by omega)]
    exact (Nat.log2_self_le (by omega)).trans h

lemma log2_succ_le (n : Nat) : (n + 1).log2 ≤ n.log2 + 1 := by
  have hlt : n + 1 < 2 ^ (n.log2 + 2) := by
    have hself := @Nat.lt_log2_self n
    have hpos : 0 < 2 ^ (n.log2 + 1) := by positivity
    rw [Nat.pow_succ]
    omega
  exact Nat.le_of_lt_succ ((Nat.log2_lt (by omega)).mpr hlt)

/-- Rounding moves the leading bit up by at most one place. -/
lemma round_cases (s : Sign) (m : Nat) (e : Int) (a : Accuracy) :
    roundWithAccuracy Format.binary64 s m e a = .zero s ∨
      ∃ m' e' hm, roundWithAccuracy Format.binary64 s m e a = .finite s m' e' hm ∧
        -1074 ≤ e' ∧ e' ≤ max e (target (totalExponent m e)) + 1 ∧
        totalExponent m' e' ≤ max (totalExponent m e) (target (totalExponent m e)) + 1 := by
  obtain ⟨r, hlow, hhigh, heq⟩ := round_eq s m e a
  generalize hk : (target (totalExponent m e) - e).toNat = k at *
  have heq' := heq _ rfl _ rfl
  generalize hk' : (target (totalExponent r (e + k)) - (e + k)).toNat = k' at *
  rw [heq']
  split_ifs with hzero
  · exact .inl rfl
  · have hfinal := log2_div_pow hzero
    have hcarry : r.log2 ≤ (m / 2 ^ k).log2 + 1 := (log2_mono hhigh).trans (log2_succ_le _)
    -- either the shift left some bits, or all there is comes from rounding up
    have hshift : (m / 2 ^ k).log2 + k = m.log2 ∨ r.log2 = 0 := by
      by_cases hquotient : m / 2 ^ k = 0
      · rw [hquotient] at hhigh
        have : r.log2 ≤ (0 + 1).log2 := log2_mono hhigh
        exact .inr (Nat.le_zero.mp this)
      · exact .inl (log2_div_pow hquotient)
    refine .inr ⟨_, _, Nat.pos_of_ne_zero hzero, rfl, ?_, ?_, ?_⟩
    all_goals
      simp only [totalExponent, target] at *
      omega

/-- A mantissa of fifty-three bits or more is rounded to exactly fifty-three. -/
lemma round_normal (s : Sign) {m : Nat} {e : Int} (a : Accuracy) (hbits : 52 ≤ m.log2)
    (hlow : -1021 ≤ totalExponent m e) :
    ∃ m' e' hm, roundWithAccuracy Format.binary64 s m e a = .finite s m' e' hm ∧
      m'.log2 = 52 ∧ -1074 ≤ e' ∧ totalExponent m e ≤ totalExponent m' e' ∧
      totalExponent m' e' ≤ totalExponent m e + 1 := by
  obtain ⟨r, hle, hge, heq⟩ := round_eq s m e a
  generalize hk : (target (totalExponent m e) - e).toNat = k at *
  have heq' := heq _ rfl _ rfl
  generalize hk' : (target (totalExponent r (e + k)) - (e + k)).toNat = k' at *
  have hm : m ≠ 0 := by
    rintro rfl
    simp at hbits
  have hquotient : m / 2 ^ k ≠ 0 := by
    have hkm : k ≤ m.log2 := by
      simp only [totalExponent, target] at *
      omega
    have hpow := (Nat.le_log2 hm).mp hkm
    exact (Nat.div_pos hpow (by positivity)).ne'
  have hshift := log2_div_pow hquotient
  have hcarry : r.log2 ≤ (m / 2 ^ k).log2 + 1 := (log2_mono hge).trans (log2_succ_le _)
  have hkeep : (m / 2 ^ k).log2 ≤ r.log2 := log2_mono hle
  have hr : r ≠ 0 := ((Nat.pos_of_ne_zero hquotient).trans_le hle).ne'
  have hzero : r / 2 ^ k' ≠ 0 := by
    have hkr : k' ≤ r.log2 := by
      simp only [totalExponent, target] at *
      omega
    have hpow := (Nat.le_log2 hr).mp hkr
    exact (Nat.div_pos hpow (by positivity)).ne'
  have hfinal := log2_div_pow hzero
  rw [heq', dif_neg hzero]
  refine ⟨_, _, Nat.pos_of_ne_zero hzero, rfl, ?_, ?_, ?_, ?_⟩
  all_goals
    simp only [totalExponent, target] at *
    omega

end Rounding

section Operations

/-- Zero, or below `2 ^ t`. -/
inductive Below (t : Int) : UnpackedFloat → Prop
  | zero (s : Sign) : Below t (.zero s)
  | finite (s : Sign) {m : Nat} {e : Int} (hm : 0 < m) (htotal : totalExponent m e ≤ t) :
      Below t (.finite s m e hm)

lemma round_fits (s : Sign) {m : Nat} {e : Int} (a : Accuracy) (he : e ≤ 970)
    (htotal : totalExponent m e ≤ 1023) : Fits (roundWithAccuracy Format.binary64 s m e a) := by
  rcases round_cases s m e a with hzero | ⟨m', e', hm, heq, -, hhigh, -⟩
  · rw [hzero]
    exact .zero s
  · rw [heq]
    refine .finite s hm ?_
    unfold target at hhigh
    omega

lemma log2_mul_le (m n : Nat) : (m * n).log2 ≤ m.log2 + n.log2 + 1 := by
  have hlt : m * n < 2 ^ (m.log2 + n.log2 + 2) := by
    rw [show m.log2 + n.log2 + 2 = (m.log2 + 1) + (n.log2 + 1) by omega, Nat.pow_add]
    exact Nat.mul_lt_mul'' Nat.lt_log2_self Nat.lt_log2_self
  rcases Nat.eq_zero_or_pos (m * n) with hzero | hpos
  · simp [hzero]
  · exact Nat.le_of_lt_succ ((Nat.log2_lt (by omega)).mpr hlt)

/-- A product of numbers that are not too large is finite. -/
lemma mul_fits {t t' : Int} {u v : UnpackedFloat} (hu : Below t u) (hv : Below t' v)
    (ht : t + t' ≤ 971) : Fits (UnpackedFloat.mul Format.binary64 u v) := by
  cases hu with
  | zero s => cases hv <;> exact .zero _
  | @finite s m e hm htotal =>
    cases hv with
    | zero s' => exact .zero _
    | @finite s' m' e' hm' htotal' =>
      have hlog := log2_mul_le m m'
      unfold totalExponent at htotal htotal'
      refine round_fits _ _ (by omega) ?_
      unfold totalExponent
      omega

lemma log2_shift_div_le {n : Nat} (hn : 0 < n) (m k : Nat) :
    (m <<< k / n).log2 ≤ m.log2 + k - n.log2 := by
  rcases Nat.eq_zero_or_pos (m <<< k / n) with hzero | hpos
  · simp [hzero]
  · have hlt : m <<< k / n < 2 ^ (m.log2 + k - n.log2 + 1) := by
      rw [Nat.div_lt_iff_lt_mul hn, Nat.shiftLeft_eq]
      calc m * 2 ^ k < 2 ^ (m.log2 + 1) * 2 ^ k :=
            Nat.mul_lt_mul_of_pos_right Nat.lt_log2_self (by positivity)
        _ = 2 ^ (m.log2 + 1 + k) := (Nat.pow_add _ _ _).symm
        _ ≤ 2 ^ (m.log2 + k - n.log2 + 1 + n.log2) := Nat.pow_le_pow_right (by decide) (by omega)
        _ = 2 ^ (m.log2 + k - n.log2 + 1) * 2 ^ n.log2 := Nat.pow_add _ _ _
        _ ≤ 2 ^ (m.log2 + k - n.log2 + 1) * n := Nat.mul_le_mul_left _ (Nat.log2_self_le (by omega))
    exact Nat.le_of_lt_succ ((Nat.log2_lt (by omega)).mpr hlt)

/-- Dividing by two or more cannot overflow. -/
lemma div_fits {u v : UnpackedFloat} (hu : InRange u) {s' : Sign} {m' : Nat} {e' : Int}
    {hm' : 0 < m'} (hv : v = .finite s' m' e' hm') (hlarge : 2 ≤ totalExponent m' e') :
    Fits (UnpackedFloat.div Format.binary64 u v) := by
  subst hv
  cases hu with
  | zero s => exact .zero _
  | @finite s m e hm hmantissa hlow hhigh =>
    have hlog := (Nat.log2_lt (by omega)).mpr hmantissa
    have htop : target (totalExponent m e - totalExponent m' e') ≤ 969 := by
      unfold target
      unfold totalExponent at hlarge ⊢
      omega
    change Fits (roundWithAccuracy Format.binary64 _
      (m <<< (e - e' - min (e - e') (target (totalExponent m e - totalExponent m' e'))).toNat / m')
      (min (e - e') (target (totalExponent m e - totalExponent m' e'))) _)
    generalize htarget : target (totalExponent m e - totalExponent m' e') = t at *
    refine round_fits _ _ (by omega) ?_
    have hquotient := log2_shift_div_le hm' m (e - e' - min (e - e') t).toNat
    unfold totalExponent at *
    omega

lemma neg_fits {u : UnpackedFloat} (h : InRange u) : Fits u.neg := by
  cases h with
  | zero s => exact .zero _
  | finite s hm hmantissa hlow hhigh => exact .finite _ hm hhigh

/-- What is neither in range nor a zero is packed as an infinity. -/
lemma pack_isFinite_or_isInf (s : Sign) {m : Nat} (e : Int) (hm : 0 < m) :
    (Float.Model.pack (.finite s m e hm)).isFinite = true ∨
      (Float.Model.pack (.finite s m e hm)).isInf = true := by
  by_cases he : e ≤ 971
  · exact .inl (Fits.finite s hm he).pack_isFinite
  · right
    have hpack : UnpackedFloat.pack Format.binary64 (.finite s m e hm) =
        packedInfinity Format.binary64 s :=
      if_pos (show 2 ^ 11 ≤ (e + 1023 + 52).toNat + 1 by omega)
    change (UnpackedFloat.unpack Format.binary64
      (UnpackedFloat.pack Format.binary64 (.finite s m e hm))).isInf = true
    rw [hpack]
    cases s <;> decide

/-- A product of finite numbers is a number, but perhaps an infinite one. -/
lemma mul_isFinite_or_isInf {u v : UnpackedFloat} (hu : InRange u) (hv : InRange v) :
    (Float.Model.pack (UnpackedFloat.mul Format.binary64 u v)).isFinite = true ∨
      (Float.Model.pack (UnpackedFloat.mul Format.binary64 u v)).isInf = true := by
  cases hu with
  | zero s => cases hv <;> exact .inl (Fits.zero _).pack_isFinite
  | @finite s m e hm hmantissa hlow hhigh =>
    cases hv with
    | zero s' => exact .inl (Fits.zero _).pack_isFinite
    | @finite s' m' e' hm' hmantissa' hlow' hhigh' =>
      change (Float.Model.pack (roundWithAccuracy Format.binary64 _ _ _ _)).isFinite = true ∨ _
      rcases round_cases (s * s') (m * m') (e + e') .exact with hzero | ⟨m'', e'', hm'', heq, -⟩
      · rw [hzero]
        exact .inl (Fits.zero _).pack_isFinite
      · have hmul : UnpackedFloat.mul Format.binary64 (.finite s m e hm) (.finite s' m' e' hm') =
            .finite (s * s') m'' e'' hm'' := heq
        rw [hmul, heq]
        exact pack_isFinite_or_isInf _ e'' hm''

lemma unpack_pack (u : UnpackedFloat) :
    (Float.Model.pack u).unpack =
      ofFields (@unpackSign Format.binary64 (UnpackedFloat.pack Format.binary64 u))
        (@unpackExponent Format.binary64 (UnpackedFloat.pack Format.binary64 u))
        (@unpackMantissa Format.binary64 (UnpackedFloat.pack Format.binary64 u)) := rfl

lemma unpackSign_packComponents (s : Sign) (field : BitVec 11) (fraction : BitVec 52) :
    @unpackSign Format.binary64 (packComponents Format.binary64 s field fraction) = s.toBitVec := by
  ext i hi
  have htop : (s.toBitVec ++ field ++ fraction).getLsbD (63 + i) = s.toBitVec.getLsbD i := by
    rw [BitVec.getLsbD_append, if_neg (by omega), BitVec.getLsbD_append, if_neg (by omega)]
    congr 1
    omega
  simpa [unpackSign, packComponents, BitVec.getLsbD_eq_getElem hi] using htop

lemma sign_ofBitVec_toBitVec (s : Sign) : Sign.ofBitVec s.toBitVec = s := by
  cases s <;> rfl

/-- A mantissa of fifty-three bits comes back with its sign and exponent. -/
lemma unpack_pack_normal (s : Sign) {m : Nat} {e : Int} (hm : 0 < m) (hlog : m.log2 = 52)
    (hlow : -1074 ≤ e) (hhigh : e ≤ 971) :
    (Float.Model.pack (.finite s m e hm)).unpack = .finite s m e hm := by
  obtain ⟨hge, hlt⟩ := (Nat.log2_eq_iff (by omega)).mp hlog
  have hfield : (BitVec.ofNat 11 (e + 1023 + 52).toNat).toNat = (e + 1023 + 52).toNat := by
    rw [BitVec.toNat_ofNat, Nat.mod_eq_of_lt (by omega)]
  have hzero : BitVec.ofNat 11 (e + 1023 + 52).toNat ≠ 0#11 := by
    intro heq
    rw [heq, BitVec.toNat_zero] at hfield
    omega
  have hmantissa : (1#1 ++ BitVec.ofNat 52 m).toNat = m := by
    rw [append_one_toNat, BitVec.toNat_ofNat]
    omega
  have hexponent : (((BitVec.ofNat 11 (e + 1023 + 52).toNat).toNat : Nat) : Int) - (1023 + 52) = e := by
    rw [hfield]
    omega
  rw [unpack_pack, pack_finite s hm hhigh, if_pos hlog, unpackExponent_packComponents,
    unpackMantissa_packComponents, unpackSign_packComponents, ofFields,
    if_neg (ofNat_ne_full (by omega)), if_neg hzero]
  simp only [hmantissa, hexponent, sign_ofBitVec_toBitVec]

/-- Packing and unpacking does not move the leading bit up. -/
lemma unpack_pack_below {t : Int} (ht : -1022 ≤ t) (s : Sign) {m : Nat} {e : Int} (hm : 0 < m)
    (hlow : -1074 ≤ e) (hhigh : e ≤ 971) (htotal : totalExponent m e ≤ t) :
    Below t (Float.Model.pack (.finite s m e hm)).unpack := by
  by_cases hlog : m.log2 = 52
  · rw [unpack_pack_normal s hm hlog hlow hhigh]
    exact .finite s hm htotal
  · rw [unpack_pack, pack_finite s hm hhigh, if_neg hlog, unpackExponent_packComponents,
      unpackMantissa_packComponents]
    generalize BitVec.ofNat 52 m = fraction
    have hfraction : fraction.toNat < 2 ^ 52 := fraction.isLt
    unfold ofFields
    rw [if_neg (by decide), if_pos rfl]
    split_ifs with hzero
    · exact .zero _
    · have hne : fraction.toNat ≠ 0 := fun heq => hzero (BitVec.eq_of_toNat_eq heq)
      have hbits := (Nat.log2_lt hne).mpr hfraction
      refine .finite _ _ ?_
      unfold totalExponent
      simp only [BitVec.toNat_zero]
      omega

/-- What is rounded below `2 ^ t` is below `2 ^ (t + 1)` afterwards. -/
lemma unpack_pack_round_below (s : Sign) {m : Nat} {e t : Int} (a : Accuracy) (hlow : -1023 ≤ t)
    (hhigh : t ≤ 1023) (he : e ≤ 970) (htotal : totalExponent m e ≤ t) :
    Below (t + 1) (Float.Model.pack (roundWithAccuracy Format.binary64 s m e a)).unpack := by
  rcases round_cases s m e a with hzero | ⟨m', e', hm, heq, hlow', hhigh', htotal'⟩
  · rw [hzero]
    cases s <;> exact .zero _
  · rw [heq]
    unfold target at hhigh' htotal'
    exact unpack_pack_below (by omega) s hm hlow' (by omega) (by omega)

lemma log2_shiftLeft {m : Nat} (hm : 0 < m) (k : Nat) : (m <<< k).log2 = m.log2 + k := by
  induction k with
  | zero => simp
  | succ k ih =>
    have hpos : m <<< k ≠ 0 := by
      rw [Nat.shiftLeft_eq]
      positivity
    rw [Nat.shiftLeft_succ, Nat.log2_two_mul hpos, ih]
    omega

/-- An integer is shifted up to fifty-three bits and then rounded. -/
lemma ofNat_eq {n : Nat} (hn : 0 < n) :
    ∃ k : Nat, UnpackedFloat.ofNat Format.binary64 n =
      roundWithAccuracy Format.binary64 .positive (n <<< k) (-k) .exact ∧ 52 ≤ (n <<< k).log2 := by
  have hcompare : compare (n : Int) 0 = .gt := by
    rw [compare_gt_iff_gt]
    omega
  refine ⟨(0 - target (totalExponent n 0)).toNat, ?_, ?_⟩
  · simp only [UnpackedFloat.ofNat, UnpackedFloat.ofInt, UnpackedFloat.normalize, hcompare,
      UnpackedFloat.round, decreaseExponent, Int.toNat_natCast, Int.zero_sub, targetExponent_eq]
  · rw [log2_shiftLeft hn]
    unfold target totalExponent
    omega

end Operations

section Floats

variable {x y : Float}

lemma inRange (h : x.isFinite = true) : InRange x.toModel.unpack :=
  unpack_inRange h

lemma neg_isFinite (h : x.isFinite = true) : (-x).isFinite = true :=
  (neg_fits (inRange h)).pack_isFinite

/-- A product that is not infinite is finite. -/
lemma mul_isFinite (hx : x.isFinite = true) (hy : y.isFinite = true) (h : (x * y).isInf = false) :
    (x * y).isFinite = true := by
  have hproduct := mul_isFinite_or_isInf (inRange hx) (inRange hy)
  refine hproduct.resolve_right fun hinf => ?_
  have hsame : (x * y).isInf = true := hinf
  rw [h] at hsame
  exact absurd hsame (by decide)

/-- The place of the leading bit of a finite number other than zero. -/
def leading : UnpackedFloat → Option Int
  | .finite _ m e _ => some (totalExponent m e)
  | _ => none

lemma below_of_leading {u : UnpackedFloat} {t : Int} (h : leading u = some t) : Below t u := by
  cases u with
  | finite s m e hm => exact .finite s hm (Option.some.inj h).le
  | _ => cases h

lemma finite_of_leading {u : UnpackedFloat} {t : Int} (h : t ∈ leading u) :
    ∃ s m e hm, u = .finite s m e hm ∧ totalExponent m e = t := by
  cases u with
  | finite s m e hm => exact ⟨s, m, e, hm, rfl, Option.some.inj h⟩
  | _ => cases h

lemma isFinite_of_leading {t : Int} (h : t ∈ leading x.toModel.unpack) : x.isFinite = true := by
  obtain ⟨s, m, e, hm, heq, -⟩ := finite_of_leading h
  change x.toModel.unpack.isFinite = true
  rw [heq]
  rfl

lemma div_isFinite (hx : x.isFinite = true) {t : Int} (hy : t ∈ leading y.toModel.unpack)
    (ht : 2 ≤ t) : (x / y).isFinite = true := by
  obtain ⟨s, m, e, hm, heq, rfl⟩ := finite_of_leading hy
  exact (div_fits (inRange hx) heq ht).pack_isFinite

/-- Sixty-four bits fit a float, rounded. -/
lemma toFloat_spec (n : UInt64) :
    n.toFloat.isFinite = true ∧ Below 65 n.toFloat.toModel.unpack := by
  change (Float.Model.pack (UnpackedFloat.ofNat Format.binary64 n.toNat)).isFinite = true ∧
    Below 65 (Float.Model.pack (UnpackedFloat.ofNat Format.binary64 n.toNat)).unpack
  rcases Nat.eq_zero_or_pos n.toNat with hzero | hpos
  · rw [hzero]
    exact ⟨by decide, .zero _⟩
  · obtain ⟨k, heq, -⟩ := ofNat_eq hpos
    have hlog := (Nat.log2_lt (by omega)).mpr n.toNat_lt
    have htotal : totalExponent (n.toNat <<< k) (-k) ≤ 64 := by
      unfold totalExponent
      rw [log2_shiftLeft hpos]
      omega
    rw [heq]
    exact ⟨(round_fits _ _ (by omega) (by omega)).pack_isFinite,
      unpack_pack_round_below (t := 64) _ _ (by omega) (by omega) (by omega) htotal⟩

/-- A decimal without negative exponent is multiplied out and rounded once. -/
lemma ofScientific_eq {m k : Nat} (hm : 0 < m) (hk : k ≤ 2048) :
    UnpackedFloat.ofScientific Format.binary64 m k =
      roundWithAccuracy Format.binary64 .positive (m <<< 53 * 10 ^ k) (-53) .exact := by
  unfold UnpackedFloat.ofScientific
  rw [dif_neg (by omega), if_neg (show ¬ (k : Int) > 2 ^ 11 by omega),
    if_neg (show ¬ (k : Int) < -(2 ^ 11 + m.log2) by omega), if_pos (by omega)]
  rfl

/-- Every integer of at most sixty-four bits is finite as a float. -/
lemma ofNat_isFinite {n : Nat} (hn : n < 2 ^ 64) : (Float.ofNat n).isFinite = true := by
  change (Float.ofScientific n false 0).isFinite = true
  by_cases hsmall : n < 2 ^ 53
  · have hone : leading (Float.exactlyRepresentablePowersOfTen[0]).toModel.unpack = some 1 := by
      decide +kernel
    have hfits := mul_fits (toFloat_spec n.toUInt64).2 (below_of_leading hone) (by decide)
    have heq : Float.ofScientific n false 0 =
        n.toUInt64.toFloat * Float.exactlyRepresentablePowersOfTen[0] :=
      dif_pos ⟨hsmall, Nat.zero_le 22⟩
    rw [heq]
    exact hfits.pack_isFinite
  · have hpos : 0 < n := by omega
    have hlog := (Nat.log2_lt (by omega)).mpr hn
    have heq : Float.ofScientific n false 0 =
        .ofModel (.pack (UnpackedFloat.ofScientific Format.binary64 n (0 : Nat))) :=
      dif_neg fun h => hsmall h.1
    rw [heq, ofScientific_eq hpos (by decide)]
    refine (round_fits _ _ (by decide) ?_).pack_isFinite
    have hshift := log2_shiftLeft hpos 53
    rw [Nat.pow_zero, Nat.mul_one, totalExponent]
    omega

lemma ofInt_isFinite {i : Int} (hi : i.natAbs < 2 ^ 64) : (Float.ofInt i).isFinite = true := by
  cases i with
  | ofNat n => exact ofNat_isFinite hi
  | negSucc n => exact neg_isFinite (ofNat_isFinite hi)

lemma leading_round_powerOfTen {k : Nat} (hpos : 0 < k) (hk : k ≤ 307) :
    ∃ t ∈ leading (Float.Model.pack (roundWithAccuracy Format.binary64 .positive
      (1 <<< 53 * 10 ^ k) (-53) .exact)).unpack, 2 ≤ t := by
  have hlow : 3 ≤ (10 ^ k).log2 := by
    rw [Nat.le_log2 (by positivity)]
    exact (by decide : 2 ^ 3 ≤ 10 ^ 1).trans (Nat.pow_le_pow_right (by decide) hpos)
  have hhigh : (10 ^ k).log2 < 1020 := by
    rw [Nat.log2_lt (by positivity)]
    exact (Nat.pow_le_pow_right (by decide) hk).trans_lt (by decide +kernel)
  have hlog : (1 <<< 53 * 10 ^ k).log2 = (10 ^ k).log2 + 53 := by
    rw [← log2_shiftLeft (by positivity), Nat.shiftLeft_eq, Nat.shiftLeft_eq, Nat.one_mul,
      Nat.mul_comm]
  have htotal : totalExponent (1 <<< 53 * 10 ^ k) (-53) = (10 ^ k).log2 + 1 := by
    rw [totalExponent, hlog]
    omega
  obtain ⟨m, e, hm, heq, hnormal, he, hle, hge⟩ := round_normal .positive .exact
    (m := 1 <<< 53 * 10 ^ k) (e := -53) (by omega) (by omega)
  have htotal' : totalExponent m e = 53 + e := by
    rw [totalExponent, hnormal]
    omega
  rw [heq, unpack_pack_normal .positive hm hnormal he (by omega)]
  exact ⟨_, rfl, by omega⟩

/-- Powers of ten up to the largest finite one are numbers of at least two. -/
lemma leading_powerOfTen {k : Nat} (hpos : 0 < k) (hk : k ≤ 308) :
    ∃ t ∈ leading (Float.ofScientific 1 false k).toModel.unpack, 2 ≤ t := by
  -- the first powers are computed another way, and the last lies too near the end of the range
  have hsmall : ∀ j : Fin 23, 0 < j.val →
      ∃ t ∈ leading (Float.ofScientific 1 false j).toModel.unpack, 2 ≤ t := by
    decide +kernel
  have hlast : ∃ t ∈ leading (Float.ofScientific 1 false 308).toModel.unpack, 2 ≤ t := by
    decide +kernel
  by_cases hlt : k < 23
  · exact hsmall ⟨k, hlt⟩ hpos
  by_cases heq : k = 308
  · exact heq ▸ hlast
  have hmodel : Float.ofScientific 1 false k =
      .ofModel (.pack (UnpackedFloat.ofScientific Format.binary64 1 k)) :=
    dif_neg fun h => hlt (by omega)
  rw [hmodel, ofScientific_eq (by decide) (by omega)]
  exact leading_round_powerOfTen hpos (by omega)

end Floats

end SealedScript.Binary64

namespace SealedScript.Decimal

/-- Two floats with the same bits are the same. -/
lemma toBits_inj {x y : Float} (h : x.toBits = y.toBits) : x = y := by
  obtain ⟨⟨bits, hvalid⟩⟩ := x
  obtain ⟨⟨bits', hvalid'⟩⟩ := y
  obtain rfl : bits = bits' := h
  rfl

lemma FloatClass.ofBits_inj {bits bits' : Nat} (h : bits < 2 ^ 64) (h' : bits' < 2 ^ 64)
    {parts : FiniteFloat} (hbits : ofBits bits = .finite parts)
    (hbits' : ofBits bits' = .finite parts) : bits = bits' := by
  unfold ofBits at hbits hbits'
  dsimp only at hbits hbits'
  split_ifs at hbits hbits'
  all_goals
    rw [← hbits'] at hbits
    simp only [FloatClass.finite.injEq, FiniteFloat.mk.injEq, minExponent] at hbits
    obtain ⟨hsign, hmantissa, hexponent⟩ := hbits
    rw [Bool.eq_iff_iff, beq_iff_eq, beq_iff_eq] at hsign
    omega

/-- The parts of a finite float determine it. -/
lemma FloatClass.ofFloat_inj {x y : Float} {parts : FiniteFloat} (hx : ofFloat x = .finite parts)
    (hy : ofFloat y = .finite parts) : x = y := by
  have hbits := ofBits_inj x.toBits.toNat_lt y.toBits.toNat_lt hx hy
  exact toBits_inj (UInt64.toNat_inj.mp hbits)

/-- A float has parts exactly when it is finite. -/
lemma FloatClass.isFinite_iff {x : Float} :
    x.isFinite = true ↔ ∃ parts, ofFloat x = .finite parts := by
  have hfield := Binary64.unpackExponent_toNat x.toModel
  have hfull : (@Float.Model.UnpackedFloat.unpackExponent Float.Model.Format.binary64
      x.toModel.toBits.toBitVec) ≠ -1#11 ↔ x.toBits.toNat / 2 ^ 52 % 2 ^ 11 ≠ 2047 := by
    change _ ↔ x.toModel.toBits.toNat / 2 ^ 52 % 2 ^ 11 ≠ 2047
    rw [← hfield]
    exact not_congr (BitVec.toNat_inj (y := -1#11)).symm
  change x.toModel.isFinite = true ↔ _
  rw [Binary64.isFinite_iff_field, hfull]
  unfold ofFloat ofBits
  dsimp only
  split_ifs <;> simp_all

end SealedScript.Decimal
