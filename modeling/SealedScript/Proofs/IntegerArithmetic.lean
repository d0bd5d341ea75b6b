import SealedScript.Proofs.Operator.Words

/-! Arithmetic on integers and on bools, which count as integers: the exact result if it fits sixty-four bits,
and an overflow if not. The left shift has one exception. -/

namespace SealedScript

open Operator

/-- The result is the integer if that fits, and an overflow otherwise. -/
def Operator.Gives (op : BinaryOp) (r : Int) (result : Except Cause Value) : Prop :=
  (Representable r → ∃ k : Int64, k.toInt = r ∧ result = .ok (.int k)) ∧
    (¬ Representable r → result = .error (.overflow op) ∧ (Cause.overflow op).kind = .overflowError)

lemma Operator.outcome_gives (op : BinaryOp) (r : Int) : Gives op r (outcome op (word? r)) := by
  constructor
  · intro h
    exact ⟨Int64.ofInt r, Int64.toInt_ofInt_of_le h.1 h.2, congrArg (outcome op) (if_pos h)⟩
  · intro h
    rw [word?_eq_none h]
    exact ⟨rfl, rfl⟩

variable {lhs rhs : Value} {i j : Int64}

/-- Strings and lists apart, operators see numbers only. -/
lemma BinaryOp.apply_eq_integer (op : BinaryOp) (hl : lhs.asInt? = some i) (hr : rhs.asInt? = some j) :
    op.apply lhs rhs = integer op i j := by
  cases lhs with
  | bool =>
    cases rhs with
    | bool => cases hl; cases hr; cases op <;> rfl
    | int => cases hl; cases hr; cases op <;> rfl
    | _ => cases hr
  | int =>
    cases rhs with
    | bool => cases hl; cases hr; cases op <;> rfl
    | int => cases hl; cases hr; cases op <;> rfl
    | _ => cases hr
  | _ => cases hl

lemma BinaryOp.apply_of_exact {op : BinaryOp} {r : Int} (hl : lhs.asInt? = some i) (hr : rhs.asInt? = some j)
    (h : Exact op i.toInt j.toInt r) : op.apply lhs rhs = outcome op (word? r) := by
  rw [op.apply_eq_integer hl hr, integer_eq h]

section Division

lemma Operator.fmod_representable (i : Int64) (hj : j.toInt ≠ 0) : Representable (i.toInt.fmod j.toInt) :=
  Word.representable_of_sided (sided_fmod i.toInt hj)

/-- A quotient is no further from zero than the dividend, and on the other side of zero only below. -/
lemma Operator.fdiv_representable {x y : Int} (hx : Representable x) (hy : y ≠ 0)
    (h : ¬ (x = -2 ^ 63 ∧ y = -1)) : Representable (x.fdiv y) := by
  have hdiv := Int.mul_fdiv_add_fmod x y
  have hside := sided_fmod x hy
  generalize x.fdiv y = q at *
  generalize x.fmod y = r at *
  unfold Representable at *
  rcases hside with ⟨hlow, hhigh⟩ | ⟨hlow, hhigh⟩
  · constructor
    · by_contra hq
      nlinarith
    · by_contra hq
      nlinarith
  · constructor
    · by_contra hq
      nlinarith
    · by_contra hq
      rcases eq_or_ne y (-1) with rfl | hne
      · omega
      · have hy' : y ≤ -2 := by omega
        nlinarith

lemma Operator.Sided.sign {y r : Int} (h : Sided y r) : r = 0 ∨ r.sign = y.sign := by
  rcases h with ⟨hlow, hhigh⟩ | ⟨hlow, hhigh⟩
  · rcases hlow.eq_or_lt with hzero | hpos
    · exact .inl hzero.symm
    · right
      rw [Int.sign_eq_one_of_pos hpos, Int.sign_eq_one_of_pos (hpos.trans hhigh)]
  · rcases hhigh.eq_or_lt with hzero | hneg
    · exact .inl hzero
    · right
      rw [Int.sign_eq_neg_one_of_neg hneg, Int.sign_eq_neg_one_of_neg (hlow.trans hneg)]

lemma Operator.Sided.abs_lt {y r : Int} (h : Sided y r) : |r| < |y| := by
  rcases h with ⟨hlow, hhigh⟩ | ⟨hlow, hhigh⟩
  · rw [abs_of_nonneg hlow, abs_of_pos (hlow.trans_lt hhigh)]
    exact hhigh
  · rw [abs_of_nonpos hhigh, abs_of_neg (hlow.trans_le hhigh)]
    exact neg_lt_neg hlow

lemma BinaryOp.apply_mod (hl : lhs.asInt? = some i) (hr : rhs.asInt? = some j) (hj : j.toInt ≠ 0) :
    ∃ r : Int64, r.toInt = i.toInt.fmod j.toInt ∧ BinaryOp.mod.apply lhs rhs = .ok (.int r) := by
  have hresult := apply_of_exact hl hr (.mod i.toInt hj)
  rw [sub_mul_floor_eq_fmod _ hj] at hresult
  rw [hresult]
  exact (outcome_gives .mod _).1 (fmod_representable i hj)

lemma BinaryOp.apply_div (hl : lhs.asInt? = some i) (hr : rhs.asInt? = some j) (hj : j.toInt ≠ 0) :
    Gives .div (i.toInt.fdiv j.toInt) (BinaryOp.div.apply lhs rhs) := by
  have hresult := apply_of_exact hl hr (.div i.toInt hj)
  rw [floor_eq_fdiv _ hj] at hresult
  rw [hresult]
  exact outcome_gives .div _

lemma BinaryOp.apply_div_overflow_iff (hl : lhs.asInt? = some i) (hr : rhs.asInt? = some j)
    (hj : j.toInt ≠ 0) :
    BinaryOp.div.apply lhs rhs = .error (.overflow .div) ↔ i.toInt = -2 ^ 63 ∧ j.toInt = -1 := by
  have hdiv := apply_div hl hr hj
  constructor
  · intro hoverflow
    by_contra h
    obtain ⟨k, -, hk⟩ := hdiv.1 (fdiv_representable (toInt_representable i) hj h)
    cases hoverflow.symm.trans hk
  · rintro ⟨hi, hj'⟩
    refine (hdiv.2 ?_).1
    rw [hi, hj']
    decide

/-- The quotient and the remainder make up the dividend. -/
lemma BinaryOp.apply_div_mod (hl : lhs.asInt? = some i) (hr : rhs.asInt? = some j) {q : Int64}
    (hq : BinaryOp.div.apply lhs rhs = .ok (.int q)) :
    ∃ r : Int64, BinaryOp.mod.apply lhs rhs = .ok (.int r) ∧ i.toInt = q.toInt * j.toInt + r.toInt := by
  have hj : j.toInt ≠ 0 := by
    intro hzero
    rw [apply_eq_integer _ hl hr, integer, if_pos hzero] at hq
    cases hq
  have hdiv := apply_div hl hr hj
  obtain ⟨r, hr', hmod⟩ := apply_mod hl hr hj
  by_cases hfits : Representable (i.toInt.fdiv j.toInt)
  · obtain ⟨k, hk, hok⟩ := hdiv.1 hfits
    cases hq.symm.trans hok
    refine ⟨r, hmod, ?_⟩
    rw [hk, hr', Int.fdiv_mul_add_fmod]
  · cases hq.symm.trans (hdiv.2 hfits).1

end Division

section Shifts

lemma BinaryOp.apply_rshift (hl : lhs.asInt? = some i) (hr : rhs.asInt? = some j) (hj : 0 ≤ j.toInt) :
    ∃ r : Int64, BinaryOp.rshift.apply lhs rhs = .ok (.int r) := by
  have hpos : (0 : Int) < 2 ^ j.toInt.toNat := by positivity
  have hfits : Representable (i.toInt.fdiv (2 ^ j.toInt.toNat)) :=
    fdiv_representable (toInt_representable i) hpos.ne' (by omega)
  have hresult := apply_of_exact hl hr (.rshift i.toInt hj)
  rw [floor_div_two_pow] at hresult
  obtain ⟨k, -, hk⟩ := (outcome_gives .rshift _).1 hfits
  exact ⟨k, hresult.trans hk⟩

lemma BinaryOp.apply_lshift_eq (hl : lhs.asInt? = some i) (hr : rhs.asInt? = some j) (hj : 0 ≤ j.toInt) :
    BinaryOp.lshift.apply lhs rhs = shiftLeft i.toInt j.toInt.toNat := by
  rw [apply_eq_integer _ hl hr, integer, if_neg (not_lt.mpr hj)]

end Shifts

/-- Sums, differences, products, quotients, remainders, powers and right shifts are exact or overflow. -/
theorem BinaryOp.apply_integers (hl : lhs.asInt? = some i) (hr : rhs.asInt? = some j) :
    (∀ op r, Exact op i.toInt j.toInt r → Gives op r (op.apply lhs rhs)) ∧
    -- a remainder always fits; it is on the side of the divisor
    (j.toInt ≠ 0 → ∃ r : Int64, BinaryOp.mod.apply lhs rhs = .ok (.int r) ∧
      (r.toInt = 0 ∨ r.toInt.sign = j.toInt.sign) ∧ |r.toInt| < |j.toInt|) ∧
    (0 ≤ j.toInt → ∃ r : Int64, BinaryOp.rshift.apply lhs rhs = .ok (.int r)) ∧
    (j.toInt ≠ 0 → (BinaryOp.div.apply lhs rhs = .error (.overflow .div) ↔
      i.toInt = -2 ^ 63 ∧ j.toInt = -1)) ∧
    (∀ q : Int64, BinaryOp.div.apply lhs rhs = .ok (.int q) → ∃ r : Int64,
      BinaryOp.mod.apply lhs rhs = .ok (.int r) ∧ i.toInt = q.toInt * j.toInt + r.toInt) ∧
    -- computed in words, the same comes out and nothing wraps or traps
    (∀ op r, Exact op i.toInt j.toInt r →
      ∃ w, Word.arithmetic op i j = .ok w ∧ op.apply lhs rhs = outcome op w) := by
  refine ⟨fun op r h => ?_, fun hj => ?_, fun hj => ?_, fun hj => ?_, fun q hq => ?_, fun op r h => ?_⟩
  · rw [apply_of_exact hl hr h]
    exact outcome_gives op r
  · obtain ⟨r, hr', hmod⟩ := apply_mod hl hr hj
    have hside := sided_fmod i.toInt hj
    rw [← hr'] at hside
    exact ⟨r, hmod, hside.sign, hside.abs_lt⟩
  · exact apply_rshift hl hr hj
  · exact apply_div_overflow_iff hl hr hj
  · exact apply_div_mod hl hr hq
  · exact ⟨word? r, Word.arithmetic_eq h, apply_of_exact hl hr h⟩

/-- The one quotient that does not fit has a remainder nevertheless; a power may be the least integer. -/
theorem BinaryOp.apply_integers_least :
    BinaryOp.div.apply (.int Int64.minValue) (.int (-1)) = .error (.overflow .div) ∧
    (∃ r : Int64, BinaryOp.mod.apply (.int Int64.minValue) (.int (-1)) = .ok (.int r) ∧ |r.toInt| < 1) ∧
    (∃ k : Int64, k.toInt = -2 ^ 63 ∧ BinaryOp.pow.apply (.int (-2)) (.int 63) = .ok (.int k)) ∧
    ∃ w, Word.arithmetic .div Int64.minValue (-1) = .ok w := by
  obtain ⟨-, hmod, -, hdiv, -, hwords⟩ :=
    @BinaryOp.apply_integers (.int Int64.minValue) (.int (-1)) _ _ rfl rfl
  obtain ⟨hexact, -⟩ := @BinaryOp.apply_integers (.int (-2)) (.int 63) _ _ rfl rfl
  obtain ⟨r, hr, -, hsmall⟩ := hmod (by decide)
  obtain ⟨k, hk, hpow⟩ := (hexact .pow _ (.pow _ (by decide))).1 (by decide)
  obtain ⟨w, hw, -⟩ := hwords .div _ (.div _ (by decide))
  refine ⟨(hdiv (by decide)).mpr (by decide), ⟨r, hr, hsmall⟩, ⟨k, ?_, hpow⟩, w, hw⟩
  rw [hk]
  decide

/-- A left shift is exact or overflows, but for minus one shifted by sixty-three places: that would be the least
integer, and it overflows too. Shifting back in words finds the same. -/
theorem BinaryOp.apply_lshift (hl : lhs.asInt? = some i) (hr : rhs.asInt? = some j) (hj : 0 ≤ j.toInt) :
    (¬ (i.toInt = -1 ∧ j.toInt = 63) →
      Gives .lshift (i.toInt * 2 ^ j.toInt.toNat) (BinaryOp.lshift.apply lhs rhs)) ∧
    (i.toInt = -1 ∧ j.toInt = 63 → Representable (i.toInt * 2 ^ j.toInt.toNat) ∧
      BinaryOp.lshift.apply lhs rhs = .error (.overflow .lshift)) ∧
    ∃ w, Word.arithmetic .lshift i j = .ok w ∧ BinaryOp.lshift.apply lhs rhs = outcome .lshift w := by
  rw [apply_lshift_eq hl hr hj]
  refine ⟨fun h => ?_, ?_, Word.doubled_eq hj⟩
  · rw [shiftLeft_eq_fit (by omega), fit_eq]
    exact outcome_gives .lshift _
  · rintro ⟨hi, hj'⟩
    rw [hi, hj']
    exact ⟨by decide, rfl⟩

theorem BinaryOp.apply_lshift_minus_one :
    Representable (-1 * 2 ^ 63) ∧
      BinaryOp.lshift.apply (.int (-1)) (.int 63) = .error (.overflow .lshift) ∧
      ∃ k : Int64, k.toInt = -2 ^ 62 ∧ BinaryOp.lshift.apply (.int (-1)) (.int 62) = .ok (.int k) := by
  obtain ⟨-, hlast, -⟩ := @BinaryOp.apply_lshift (.int (-1)) (.int 63) _ _ rfl rfl (by decide)
  obtain ⟨hexact, -⟩ := @BinaryOp.apply_lshift (.int (-1)) (.int 62) _ _ rfl rfl (by decide)
  obtain ⟨k, hk, hresult⟩ := (hexact (by decide)).1 (by decide)
  obtain ⟨hfits, hoverflow⟩ := hlast (by decide)
  refine ⟨hfits, hoverflow, k, ?_, hresult⟩
  rw [hk]
  decide

end SealedScript
