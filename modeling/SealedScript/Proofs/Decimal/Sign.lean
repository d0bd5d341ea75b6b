import SealedScript.Proofs.Decimal.Binary64

/-! The sign of a float, read off its bits. Comparing a float with zero asks for its sign, and turning an
integer into a float keeps it. -/

namespace SealedScript.Decimal

/-- Minus one, zero or one; both zeros have sign zero. -/
def FloatClass.sign? : FloatClass → Option Int
  | .finite parts => some (if parts.mantissa = 0 then 0 else if parts.negative then -1 else 1)
  | .infinite negative => some (if negative then -1 else 1)
  | .nan => none

end SealedScript.Decimal

namespace SealedScript.Binary64

open Float.Model Float.Model.UnpackedFloat
open Decimal (FloatClass)

section Signs

/-- The sign of a number that has been taken apart. -/
def sign? : UnpackedFloat → Option Int
  | .finite s _ _ _ => some (s.apply 1)
  | .infinity s => some (s.apply 1)
  | .zero _ => some 0
  | .notANumber => none

lemma apply_ofBitVec (b : BitVec 1) :
    (Sign.ofBitVec b).apply 1 = if b.toNat == 1 then -1 else 1 := by
  revert b
  decide

lemma sign?_ofFields (sign : BitVec 1) (field : BitVec 11) (fraction : BitVec 52) :
    sign? (ofFields sign field fraction) =
      if field.toNat = 2047 then
        if fraction.toNat = 0 then some (if sign.toNat == 1 then -1 else 1) else none
      else if field.toNat = 0 ∧ fraction.toNat = 0 then some 0
      else some (if sign.toNat == 1 then -1 else 1) := by
  have hfull : field = -1#11 ↔ field.toNat = 2047 := BitVec.toNat_inj.symm
  have hzero : field = 0#11 ↔ field.toNat = 0 := BitVec.toNat_inj.symm
  have hfraction : fraction = 0#52 ↔ fraction.toNat = 0 := BitVec.toNat_inj.symm
  unfold ofFields
  simp only [hfull, hzero, hfraction]
  split_ifs <;> simp_all [sign?, apply_ofBitVec]

/-- The bits show the sign. -/
lemma sign?_ofFloat (x : Float) : (FloatClass.ofFloat x).sign? = sign? x.toModel.unpack := by
  rw [unpack_eq, sign?_ofFields, unpackSign_toNat, unpackExponent_toNat, unpackMantissa_toNat]
  change (FloatClass.ofBits x.toModel.toBits.toNat).sign? = _
  unfold FloatClass.ofBits
  dsimp only
  split_ifs <;> simp_all [FloatClass.sign?]

/-- To compare a number with zero is to ask for its sign. -/
lemma compare_zero (u : UnpackedFloat) (s : Sign) :
    (u.compare (.zero s) = some .eq ↔ sign? u = some 0) ∧
      (u.compare (.zero s) = some .lt ↔ sign? u = some (-1)) := by
  cases u with
  | finite s' m e hm => cases s' <;> simp [UnpackedFloat.compare, sign?, Sign.apply]
  | infinity s' => cases s' <;> simp [UnpackedFloat.compare, sign?, Sign.apply]
  | zero s' => simp [UnpackedFloat.compare, sign?]
  | notANumber => simp [UnpackedFloat.compare, sign?]

lemma unpack_zero : (0.0 : Float).toModel.unpack = .zero .positive := by
  have hbits : (0.0 : Float) = .ofBits 0 := by decide +kernel
  rw [hbits]
  rfl

variable {x : Float}

lemma beq_zero_iff : (x == 0.0) = true ↔ (FloatClass.ofFloat x).sign? = some 0 := by
  change (x.toModel.unpack.compare (0.0 : Float).toModel.unpack == some .eq) = true ↔ _
  rw [unpack_zero, beq_iff_eq, (compare_zero _ _).1, sign?_ofFloat]

lemma lt_zero_iff : x < 0.0 ↔ (FloatClass.ofFloat x).sign? = some (-1) := by
  have hlt : x < 0.0 ↔ (x.toModel.unpack.compare (0.0 : Float).toModel.unpack == some .lt) = true := by
    change decide (_ = true) = true ↔ _
    rw [decide_eq_true_iff]
    rfl
  rw [hlt, unpack_zero, beq_iff_eq, (compare_zero _ _).2, sign?_ofFloat]

end Signs

section Integers

/-- A finite number whose mantissa has all its fifty-three bits, the first at `t`. -/
inductive Leads (s : Sign) (t : Int) : UnpackedFloat → Prop
  | mk {m : Nat} {e : Int} (hm : 0 < m) (hlog : m.log2 = 52) (htotal : totalExponent m e = t) :
      Leads s t (.finite s m e hm)

variable {s s' : Sign} {t t' : Int} {u v : UnpackedFloat}

lemma Leads.sign? (h : Leads s t u) : Binary64.sign? u = some (s.apply 1) := by
  cases h
  rfl

lemma round_leads (s : Sign) {m : Nat} {e : Int} (a : Accuracy) (hbits : 52 ≤ m.log2)
    (hlow : -1021 ≤ totalExponent m e) (hhigh : totalExponent m e ≤ 1023) :
    ∃ t, totalExponent m e ≤ t ∧ t ≤ totalExponent m e + 1 ∧
      Leads s t (Float.Model.pack (roundWithAccuracy Format.binary64 s m e a)).unpack := by
  obtain ⟨m', e', hm, heq, hlog, he, hle, hge⟩ := round_normal s a hbits hlow
  have htotal : totalExponent m' e' = 53 + e' := by
    rw [totalExponent, hlog]
    omega
  rw [heq, unpack_pack_normal s hm hlog he (by omega)]
  exact ⟨_, hle, hge, .mk hm hlog rfl⟩

lemma Leads.mul (hu : Leads s t u) (hv : Leads s' t' v) (hlow : -1000 ≤ t + t') (hhigh : t + t' ≤ 1000) :
    ∃ t'', t + t' - 1 ≤ t'' ∧ t'' ≤ t + t' + 1 ∧
      Leads (s * s') t'' (Float.Model.pack (UnpackedFloat.mul Format.binary64 u v)).unpack := by
  obtain @⟨m, e, hm, hlog, rfl⟩ := hu
  obtain @⟨m', e', hm', hlog', rfl⟩ := hv
  have hproduct : 104 ≤ (m * m').log2 := by
    rw [Nat.le_log2 (by positivity)]
    have hge := ((Nat.log2_eq_iff hm.ne').mp hlog).1
    have hge' := ((Nat.log2_eq_iff hm'.ne').mp hlog').1
    calc
      2 ^ 104 = 2 ^ 52 * 2 ^ 52 := by decide +kernel
      _ ≤ m * m' := Nat.mul_le_mul hge hge'
  have hle := log2_mul_le m m'
  unfold totalExponent at hlow hhigh
  obtain ⟨t, ht, ht', h⟩ := round_leads (s * s') .exact (m := m * m') (e := e + e') (by omega)
    (by unfold totalExponent; omega) (by unfold totalExponent; omega)
  unfold totalExponent at ht ht' ⊢
  exact ⟨t, by omega, by omega, h⟩

lemma Leads.neg (hu : Leads s t u) (hlow : -1021 ≤ t) (hhigh : t ≤ 1024) :
    Leads (-s) t (Float.Model.pack u.neg).unpack := by
  obtain @⟨m, e, hm, hlog, rfl⟩ := hu
  have htotal : totalExponent m e = 53 + e := by
    rw [totalExponent, hlog]
    omega
  have hpack : (Float.Model.pack (UnpackedFloat.neg (.finite s m e hm))).unpack = .finite (-s) m e hm :=
    unpack_pack_normal (-s) hm hlog (by omega) (by omega)
  rw [hpack]
  exact .mk hm hlog rfl

lemma toFloat_leads {n : UInt64} (hn : 0 < n.toNat) :
    ∃ t, 1 ≤ t ∧ t ≤ 65 ∧ Leads .positive t n.toFloat.toModel.unpack := by
  obtain ⟨k, heq, hbits⟩ := ofNat_eq hn
  have hlog := (Nat.log2_lt (by omega)).mpr n.toNat_lt
  have htotal : totalExponent (n.toNat <<< k) (-k) = n.toNat.log2 + 1 := by
    unfold totalExponent
    rw [log2_shiftLeft hn]
    omega
  obtain ⟨t, ht, ht', h⟩ := round_leads .positive .exact hbits (e := -k) (by omega) (by omega)
  rw [← heq] at h
  exact ⟨t, by omega, by omega, h⟩

lemma ofNat_leads {n : Nat} (hpos : 0 < n) (hn : n < 2 ^ 64) :
    ∃ t, 0 ≤ t ∧ t ≤ 67 ∧ Leads .positive t (Float.ofNat n).toModel.unpack := by
  change ∃ t, 0 ≤ t ∧ t ≤ 67 ∧ Leads .positive t (Float.ofScientific n false 0).toModel.unpack
  by_cases hsmall : n < 2 ^ 53
  · have hone : Leads .positive 1 (Float.exactlyRepresentablePowersOfTen[0]).toModel.unpack :=
      .mk (m := 2 ^ 52) (e := -52) (by decide) (by decide) (by decide)
    have htoNat : n.toUInt64.toNat = n := by
      simpa using Nat.mod_eq_of_lt hn
    obtain ⟨t, ht, ht', h⟩ := toFloat_leads (n := n.toUInt64) (by omega)
    obtain ⟨t', hlow, hhigh, hproduct⟩ := h.mul hone (by omega) (by omega)
    have heq : Float.ofScientific n false 0 =
        n.toUInt64.toFloat * Float.exactlyRepresentablePowersOfTen[0] :=
      dif_pos ⟨hsmall, Nat.zero_le 22⟩
    rw [heq]
    exact ⟨t', by omega, by omega, hproduct⟩
  · have hlog := (Nat.log2_lt (by omega)).mpr hn
    have hlog' := (Nat.le_log2 (by omega)).mpr (Nat.le_of_not_lt hsmall)
    have hshift := log2_shiftLeft hpos 53
    have heq : Float.ofScientific n false 0 =
        .ofModel (.pack (UnpackedFloat.ofScientific Format.binary64 n (0 : Nat))) :=
      dif_neg fun h => hsmall h.1
    rw [heq, ofScientific_eq hpos (by decide), Nat.pow_zero, Nat.mul_one]
    have htotal : totalExponent (n <<< 53) (-53) = n.log2 + 1 := by
      unfold totalExponent
      omega
    obtain ⟨t, ht, ht', h⟩ := round_leads .positive .exact (m := n <<< 53) (e := -53) (by omega) (by omega)
      (by omega)
    exact ⟨t, by omega, by omega, h⟩

/-- An integer keeps its sign as a float. -/
lemma sign?_ofInt {i : Int} (hi : i.natAbs < 2 ^ 64) :
    (FloatClass.ofFloat (Float.ofInt i)).sign? = some i.sign := by
  rw [sign?_ofFloat]
  cases i with
  | ofNat n =>
    cases n with
    | zero => decide +kernel
    | succ n =>
      obtain ⟨t, -, -, h⟩ := ofNat_leads n.succ_pos hi
      exact h.sign?
  | negSucc n =>
    obtain ⟨t, hlow, hhigh, h⟩ := ofNat_leads n.succ_pos hi
    exact (h.neg (by omega) (by omega)).sign?

end Integers

end SealedScript.Binary64
