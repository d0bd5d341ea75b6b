import SealedScript.Proofs.Decimal.Sign
import SealedScript.Proofs.IntegerArithmetic
import SealedScript.Proofs.Repetition

/-! Which exceptions binary operators raise. The kinds of the operands decide whether an operator supports
them, and the signs of two numbers decide whether it has a result. -/

namespace SealedScript

open Operator
open Decimal (FloatClass)

/-- Integers, and bools, which count as integers. -/
inductive Value.IntegerLike : Value → Prop
  | bool (b : Bool) : IntegerLike (.bool b)
  | int (i : Int64) : IntegerLike (.int i)

inductive Value.IsFloat : Value → Prop
  | float (x : Float) : IsFloat (.float x)

inductive Value.IsSequence : Value → Prop
  | str (s : String) : IsSequence (.str s)
  | list (items : List Value) : IsSequence (.list items)

def Value.IsNumber (v : Value) : Prop :=
  v.IntegerLike ∨ v.IsFloat

/-- The sign of a number; a float that is not a number has none, and both float zeros have sign zero. -/
def Value.sign? : Value → Option Int
  | .bool b => some (if b then 1 else 0)
  | .int i => some i.toInt.sign
  | .float x => (FloatClass.ofFloat x).sign?
  | _ => Option.none

/-- Two strings or two lists. -/
inductive Value.Joins : Value → Value → Prop
  | texts (s t : String) : Joins (.str s) (.str t)
  | lists (xs ys : List Value) : Joins (.list xs) (.list ys)

/-- A sequence and a count, in either order. -/
def Value.Repeated (lhs rhs : Value) : Prop :=
  lhs.IsSequence ∧ rhs.IntegerLike ∨ lhs.IntegerLike ∧ rhs.IsSequence

namespace BinaryOp

/-- The operators that work on floats. -/
def OnFloats (op : BinaryOp) : Prop :=
  op ∈ [add, sub, mul, div, mod, pow]

instance (op : BinaryOp) : Decidable op.OnFloats :=
  inferInstanceAs (Decidable (op ∈ _))

/-- The kinds of operands that an operator is made for. -/
inductive Supports (op : BinaryOp) (lhs rhs : Value) : Prop
  | integers (h : lhs.IntegerLike ∧ rhs.IntegerLike)
  | floats (hop : op.OnFloats) (h : lhs.IsNumber ∧ rhs.IsNumber) (hfloat : lhs.IsFloat ∨ rhs.IsFloat)
  | joined (hop : op = .add) (h : lhs.Joins rhs)
  | repeated (hop : op = .mul) (h : lhs.Repeated rhs)

/-- A division by zero, or zero to a negative power. -/
def Undefined (op : BinaryOp) (lhs rhs : Value) : Prop :=
  (op = .div ∨ op = .mod) ∧ rhs.sign? = some 0 ∨
    op = .pow ∧ lhs.sign? = some 0 ∧ rhs.sign? = some (-1)

/-- A shift by a negative number of places. -/
def ShiftsBack (op : BinaryOp) (rhs : Value) : Prop :=
  (op = .lshift ∨ op = .rshift) ∧ rhs.sign? = some (-1)

/-- There is a result, if only it fits. -/
structure Proper (op : BinaryOp) (lhs rhs : Value) : Prop where
  supports : op.Supports lhs rhs
  defined : ¬ op.Undefined lhs rhs
  forward : ¬ op.ShiftsBack rhs

/-- What a result says about the operands. -/
inductive Verdict (op : BinaryOp) (lhs rhs : Value) : Except Cause Value → Prop
  | returned (h : op.Proper lhs rhs) (v : Value) : Verdict op lhs rhs (.ok v)
  | overflows (h : op.Proper lhs rhs) {cause : Cause} (hkind : cause.kind = .overflowError)
      (hkinds : lhs.IntegerLike ∧ rhs.IntegerLike ∨ op = .mul ∧ lhs.Repeated rhs) :
      Verdict op lhs rhs (.error cause)
  | unsupported {cause : Cause} (hkind : cause.kind = .typeError) (h : ¬ op.Supports lhs rhs) :
      Verdict op lhs rhs (.error cause)
  | undefined {cause : Cause} (hkind : cause.kind = .zeroDivisionError) (hsupports : op.Supports lhs rhs)
      (h : op.Undefined lhs rhs) : Verdict op lhs rhs (.error cause)
  | shiftsBack {cause : Cause} (hkind : cause.kind = .valueError)
      (hkinds : lhs.IntegerLike ∧ rhs.IntegerLike) (h : op.ShiftsBack rhs) :
      Verdict op lhs rhs (.error cause)

end BinaryOp

section Integers

variable {v lhs rhs : Value} {i j : Int64}

lemma Value.IntegerLike.exists_asInt? (h : v.IntegerLike) : ∃ i, v.asInt? = some i := by
  cases h <;> exact ⟨_, rfl⟩

lemma Value.integerLike_of_asInt? (h : v.asInt? = some i) : v.IntegerLike := by
  cases v with
  | bool b => exact .bool b
  | int k => exact .int k
  | _ => cases h

lemma Value.sign?_of_asInt? (h : v.asInt? = some i) : v.sign? = some i.toInt.sign := by
  cases v with
  | bool b => cases h; cases b <;> decide
  | int k => cases h; rfl
  | _ => cases h

lemma Value.sign?_eq_zero_iff (h : v.asInt? = some i) : v.sign? = some 0 ↔ i.toInt = 0 := by
  rw [sign?_of_asInt? h, Option.some_inj, Int.sign_eq_zero_iff_zero]

lemma Value.sign?_eq_neg_one_iff (h : v.asInt? = some i) : v.sign? = some (-1) ↔ i.toInt < 0 := by
  rw [sign?_of_asInt? h, Option.some_inj, Int.sign_eq_neg_one_iff_neg]

namespace BinaryOp

/-- An integer result is given if it fits. -/
lemma Proper.fit_verdict {op : BinaryOp} (h : op.Proper lhs rhs)
    (hkinds : lhs.IntegerLike ∧ rhs.IntegerLike) (r : Int) : op.Verdict lhs rhs (fit op r) := by
  unfold fit
  split_ifs
  · exact .returned h _
  · exact .overflows h rfl (.inl hkinds)

/-- Two integers: the guards of the operators are exactly those of the verdict. -/
lemma verdict_integers (op : BinaryOp) (hl : lhs.asInt? = some i) (hr : rhs.asInt? = some j) :
    op.Verdict lhs rhs (op.apply lhs rhs) := by
  have hkinds : lhs.IntegerLike ∧ rhs.IntegerLike :=
    ⟨Value.integerLike_of_asInt? hl, Value.integerLike_of_asInt? hr⟩
  have hsupports : op.Supports lhs rhs := .integers hkinds
  have hundefined : op.Undefined lhs rhs ↔
      (op = .div ∨ op = .mod) ∧ j.toInt = 0 ∨ op = .pow ∧ i.toInt = 0 ∧ j.toInt < 0 := by
    rw [Undefined, Value.sign?_eq_zero_iff hl, Value.sign?_eq_zero_iff hr, Value.sign?_eq_neg_one_iff hr]
  have hback : op.ShiftsBack rhs ↔ (op = .lshift ∨ op = .rshift) ∧ j.toInt < 0 := by
    rw [ShiftsBack, Value.sign?_eq_neg_one_iff hr]
  have hproper : ¬ op.Undefined lhs rhs → ¬ op.ShiftsBack rhs → op.Proper lhs rhs := .mk hsupports
  simp only [hundefined, hback] at hproper
  rw [op.apply_eq_integer hl hr]
  cases op with
  | add => exact (hproper (by simp) (by simp)).fit_verdict hkinds _
  | sub => exact (hproper (by simp) (by simp)).fit_verdict hkinds _
  | mul => exact (hproper (by simp) (by simp)).fit_verdict hkinds _
  | div =>
    rw [integer]
    split_ifs with hj
    · exact .undefined rfl hsupports (hundefined.mpr (by simp [hj]))
    · exact (hproper (by simp [hj]) (by simp)).fit_verdict hkinds _
  | mod =>
    rw [integer]
    split_ifs with hj
    · exact .undefined rfl hsupports (hundefined.mpr (by simp [hj]))
    · exact (hproper (by simp [hj]) (by simp)).fit_verdict hkinds _
  | pow =>
    rw [integer]
    split_ifs with hj hi
    · exact .undefined rfl hsupports (hundefined.mpr (by simp [hi, hj]))
    · exact .returned (hproper (by simp [hi]) (by simp)) _
    · rw [power_eq_fit]
      exact (hproper (by simp [hj]) (by simp)).fit_verdict hkinds _
  | lshift =>
    rw [integer]
    split_ifs with hj
    · exact .shiftsBack rfl hkinds (hback.mpr (by simp [hj]))
    · have hresult := hproper (by simp) (by simp [hj])
      unfold shiftLeft
      split_ifs
      · exact hresult.fit_verdict hkinds _
      · exact .overflows hresult rfl (.inl hkinds)
      · exact hresult.fit_verdict hkinds _
  | rshift =>
    rw [integer]
    split_ifs with hj
    · exact .shiftsBack rfl hkinds (hback.mpr (by simp [hj]))
    · rw [shiftRight_eq_fit (toInt_representable i)]
      exact (hproper (by simp) (by simp [hj])).fit_verdict hkinds _
  | bitAnd => exact .returned (hproper (by simp) (by simp)) _
  | bitOr => exact .returned (hproper (by simp) (by simp)) _
  | bitXor => exact .returned (hproper (by simp) (by simp)) _

end BinaryOp

end Integers

section Floats

variable {v lhs rhs : Value} {a b : Numeric}

lemma Value.IsNumber.exists_numeric? (h : v.IsNumber) : ∃ a, v.numeric? = some a := by
  rcases h with h | h <;> cases h <;> exact ⟨_, rfl⟩

lemma Value.isNumber_of_numeric? (h : v.numeric? = some a) : v.IsNumber := by
  cases v with
  | bool b => exact .inl (.bool b)
  | int i => exact .inl (.int i)
  | float x => exact .inr (.float x)
  | _ => cases h

lemma Value.IsFloat.not_integerLike (h : v.IsFloat) : ¬ v.IntegerLike := by
  intro h'
  cases h
  cases h'

/-- A number keeps its sign when it is made a float. -/
lemma Value.sign?_of_numeric? (h : v.numeric? = some a) :
    v.sign? = (FloatClass.ofFloat a.toFloat).sign? := by
  have hword : ∀ i : Int64, (FloatClass.ofFloat (.ofInt i.toInt)).sign? = some i.toInt.sign := by
    intro i
    obtain ⟨hlow, hhigh⟩ := toInt_representable i
    exact Binary64.sign?_ofInt (by omega)
  cases v with
  | bool b => cases h; exact (sign?_of_asInt? rfl).trans (hword _).symm
  | int i => cases h; exact (hword i).symm
  | float x => cases h; rfl
  | _ => cases h

namespace BinaryOp

/-- With a float on either side, numbers are compared and combined as floats. -/
lemma apply_eq_floating (op : BinaryOp) (hl : lhs.numeric? = some a) (hr : rhs.numeric? = some b)
    (hfloat : lhs.IsFloat ∨ rhs.IsFloat) :
    op.apply lhs rhs =
      (floating op a.toFloat b.toFloat).getD (.error (op.unsupported lhs rhs)) := by
  rcases hfloat with hfloat | hfloat
  · cases hfloat
    cases rhs with
    | bool => cases hl; cases hr; cases op <;> rfl
    | int => cases hl; cases hr; cases op <;> rfl
    | float => cases hl; cases hr; cases op <;> rfl
    | _ => cases hr
  · cases hfloat
    cases lhs with
    | bool => cases hl; cases hr; cases op <;> rfl
    | int => cases hl; cases hr; cases op <;> rfl
    | float => cases hl; cases hr; cases op <;> rfl
    | _ => cases hl

lemma floating_eq_none {op : BinaryOp} (hop : ¬ op.OnFloats) (x y : Float) : floating op x y = none := by
  revert hop
  cases op <;> simp [OnFloats, floating]

lemma Supports.onFloats {op : BinaryOp} (h : op.Supports lhs rhs) (hfloat : lhs.IsFloat ∨ rhs.IsFloat) :
    op.OnFloats := by
  cases h with
  | integers h =>
    rcases hfloat with hfloat | hfloat
    · exact absurd h.1 hfloat.not_integerLike
    · exact absurd h.2 hfloat.not_integerLike
  | floats hop => exact hop
  | joined hop => exact hop ▸ by decide
  | repeated hop => exact hop ▸ by decide

/-- Two numbers with a float among them: a division is refused exactly at a zero. -/
lemma verdict_floats (op : BinaryOp) (hl : lhs.numeric? = some a) (hr : rhs.numeric? = some b)
    (hfloat : lhs.IsFloat ∨ rhs.IsFloat) : op.Verdict lhs rhs (op.apply lhs rhs) := by
  rw [op.apply_eq_floating hl hr hfloat]
  by_cases hop : op.OnFloats
  · have hsupports : op.Supports lhs rhs :=
      .floats hop ⟨Value.isNumber_of_numeric? hl, Value.isNumber_of_numeric? hr⟩ hfloat
    have hundefined : op.Undefined lhs rhs ↔
        (op = .div ∨ op = .mod) ∧ (b.toFloat == 0.0) = true ∨
          op = .pow ∧ (a.toFloat == 0.0) = true ∧ b.toFloat < 0.0 := by
      rw [Undefined, Value.sign?_of_numeric? hl, Value.sign?_of_numeric? hr, Binary64.beq_zero_iff,
        Binary64.beq_zero_iff, Binary64.lt_zero_iff]
    have hforward : ¬ op.ShiftsBack rhs := by
      rintro ⟨rfl | rfl, -⟩ <;> exact absurd hop (by decide)
    have hproper : ¬ op.Undefined lhs rhs → op.Proper lhs rhs := fun h => ⟨hsupports, h, hforward⟩
    rw [hundefined] at hproper
    cases op with
    | add => exact .returned (hproper (by simp)) _
    | sub => exact .returned (hproper (by simp)) _
    | mul => exact .returned (hproper (by simp)) _
    | div =>
      rw [floating, Option.getD_some]
      split_ifs with hb
      · exact .undefined rfl hsupports (hundefined.mpr (by simp [hb]))
      · exact .returned (hproper (by simp [hb])) _
    | mod =>
      rw [floating, Option.getD_some]
      split_ifs with hb
      · exact .undefined rfl hsupports (hundefined.mpr (by simp [hb]))
      · exact .returned (hproper (by simp [hb])) _
    | pow =>
      have hguard : (a.toFloat == 0.0 && b.toFloat < 0.0) = true ↔
          (a.toFloat == 0.0) = true ∧ b.toFloat < 0.0 := by
        rw [Bool.and_eq_true, decide_eq_true_iff]
      rw [floating, Option.getD_some]
      split_ifs with hab
      · exact .undefined rfl hsupports (hundefined.mpr (.inr ⟨rfl, hguard.mp hab⟩))
      · exact .returned (hproper (by simpa using hguard.not.mp hab)) _
    | _ => exact absurd hop (by decide)
  · rw [floating_eq_none hop]
    exact .unsupported rfl fun h => hop (h.onFloats hfloat)

end BinaryOp

end Floats

section Sequences

variable {lhs rhs : Value}

lemma Value.IsSequence.exists_length? {s : Value} (h : s.IsSequence) : ∃ size, s.length? = some size := by
  cases h <;> exact ⟨_, rfl⟩

lemma Value.asInt?_eq_none {v : Value} (h : ¬ v.IntegerLike) : v.asInt? = Option.none := by
  cases hint : v.asInt? with
  | none => rfl
  | some i => exact absurd (integerLike_of_asInt? hint) h

namespace BinaryOp

/-- A repetition overflows or is given. -/
lemma verdict_repeated (h : lhs.Repeated rhs) :
    BinaryOp.mul.Verdict lhs rhs (BinaryOp.mul.apply lhs rhs) := by
  have hproper : BinaryOp.mul.Proper lhs rhs :=
    ⟨.repeated rfl h, by simp [Undefined], by simp [ShiftsBack]⟩
  have hrepeats : ∃ s size n, Repeats s size n (BinaryOp.mul.apply lhs rhs) := by
    rcases h with ⟨hs, hn⟩ | ⟨hn, hs⟩
    · obtain ⟨size, hsize⟩ := hs.exists_length?
      obtain ⟨k, hk⟩ := hn.exists_asInt?
      exact ⟨_, _, _, (mul_repeats hsize hk).2⟩
    · obtain ⟨size, hsize⟩ := hs.exists_length?
      obtain ⟨k, hk⟩ := hn.exists_asInt?
      obtain ⟨hswap, hrepeats⟩ := mul_repeats hsize hk
      exact ⟨_, _, _, hswap ▸ hrepeats⟩
  obtain ⟨s, size, n, hrepeats⟩ := hrepeats
  by_cases hnothing : size = 0 ∨ n ≤ 0
  · rw [hrepeats.nothing hnothing]
    exact .returned hproper _
  · have hsize : 0 < size := by omega
    have hn : 0 < n := by omega
    by_cases hcap : size * n ≤ 2 ^ 28
    · rw [hrepeats.copies hsize hn hcap]
      exact .returned hproper _
    · obtain ⟨cause, hcause, hkind⟩ := hrepeats.tooLong hsize hn (Int.not_le.mp hcap)
      rw [hcause]
      exact .overflows hproper hkind (.inr ⟨rfl, h⟩)

lemma verdict_joins (h : lhs.Joins rhs) : BinaryOp.add.Verdict lhs rhs (BinaryOp.add.apply lhs rhs) := by
  have hproper : BinaryOp.add.Proper lhs rhs :=
    ⟨.joined rfl h, by simp [Undefined], by simp [ShiftsBack]⟩
  cases h with
  | texts s t => exact .returned hproper _
  | lists xs ys => exact .returned hproper _

/-- Whatever is no repetition is left to arithmetic. -/
lemma applyRepetition?_eq_none (h : ¬ lhs.Repeated rhs) : applyRepetition? lhs rhs = none := by
  unfold applyRepetition?
  split
  · rw [Value.asInt?_eq_none fun hn => h (.inl ⟨.str _, hn⟩), Option.map_none]
  · rw [Value.asInt?_eq_none fun hn => h (.inr ⟨hn, .str _⟩), Option.map_none]
  · rw [Value.asInt?_eq_none fun hn => h (.inl ⟨.list _, hn⟩), Option.map_none]
  · rw [Value.asInt?_eq_none fun hn => h (.inr ⟨hn, .list _⟩), Option.map_none]
  · rfl

lemma applyNumeric_eq_unsupported (op : BinaryOp) (h : ¬ (lhs.IsNumber ∧ rhs.IsNumber)) :
    op.applyNumeric lhs rhs = .error (op.unsupported lhs rhs) := by
  unfold applyNumeric
  split
  · next hl hr => exact absurd ⟨Value.isNumber_of_numeric? hl, Value.isNumber_of_numeric? hr⟩ h
  · next hl hr => exact absurd ⟨Value.isNumber_of_numeric? hl, Value.isNumber_of_numeric? hr⟩ h
  · rfl

/-- Operands that no rule is made for. -/
lemma apply_eq_unsupported {op : BinaryOp} (hnumbers : ¬ (lhs.IsNumber ∧ rhs.IsNumber))
    (hjoins : ¬ (op = .add ∧ lhs.Joins rhs)) (hrepeated : ¬ (op = .mul ∧ lhs.Repeated rhs)) :
    op.apply lhs rhs = .error (op.unsupported lhs rhs) := by
  unfold apply
  split
  · exact absurd ⟨rfl, .texts _ _⟩ hjoins
  · exact absurd ⟨rfl, .lists _ _⟩ hjoins
  · rw [applyRepetition?_eq_none fun h => hrepeated ⟨rfl, h⟩]
    exact applyNumeric_eq_unsupported _ hnumbers
  · exact applyNumeric_eq_unsupported _ hnumbers

end BinaryOp

end Sequences

namespace BinaryOp

variable (op : BinaryOp) (lhs rhs : Value)

/-- Every result fits the kinds and signs of the operands. -/
lemma verdict : op.Verdict lhs rhs (op.apply lhs rhs) := by
  by_cases hintegers : lhs.IntegerLike ∧ rhs.IntegerLike
  · obtain ⟨i, hi⟩ := hintegers.1.exists_asInt?
    obtain ⟨j, hj⟩ := hintegers.2.exists_asInt?
    exact op.verdict_integers hi hj
  by_cases hnumbers : lhs.IsNumber ∧ rhs.IsNumber
  · obtain ⟨a, ha⟩ := hnumbers.1.exists_numeric?
    obtain ⟨b, hb⟩ := hnumbers.2.exists_numeric?
    have hfloat : lhs.IsFloat ∨ rhs.IsFloat := by
      rcases hnumbers with ⟨hl | hl, hr | hr⟩
      · exact absurd ⟨hl, hr⟩ hintegers
      · exact .inr hr
      · exact .inl hl
      · exact .inl hl
    exact op.verdict_floats ha hb hfloat
  by_cases hjoins : op = .add ∧ lhs.Joins rhs
  · obtain ⟨rfl, h⟩ := hjoins
    exact verdict_joins h
  by_cases hrepeated : op = .mul ∧ lhs.Repeated rhs
  · obtain ⟨rfl, h⟩ := hrepeated
    exact verdict_repeated h
  rw [apply_eq_unsupported hnumbers hjoins hrepeated]
  refine .unsupported rfl fun h => ?_
  cases h with
  | integers h => exact hintegers h
  | floats _ h => exact hnumbers h
  | joined hop h => exact hjoins ⟨hop, h⟩
  | repeated hop h => exact hrepeated ⟨hop, h⟩

end BinaryOp

/-- The exception that is raised has this kind. -/
def Operator.Raises (kind : ExceptionKind) (result : Except Cause Value) : Prop :=
  ∃ cause, result = .error cause ∧ cause.exception.kind = kind

@[simp]
lemma Operator.not_raises_ok (kind : ExceptionKind) (v : Value) : ¬ Raises kind (.ok v) := by
  rintro ⟨cause, h, -⟩
  cases h

@[simp]
lemma Operator.raises_error_iff (kind : ExceptionKind) (cause : Cause) :
    Raises kind (.error cause) ↔ cause.kind = kind := by
  constructor
  · rintro ⟨_, h, hkind⟩
    cases h
    exact hkind
  · intro hkind
    exact ⟨cause, rfl, hkind⟩

lemma Cause.exitCode_eq_none {cause : Cause} (h : cause.kind ≠ .systemExit) :
    cause.exitCode = Option.none := by
  cases cause with
  | exit code => exact absurd rfl h
  | _ => rfl

namespace BinaryOp

variable {op : BinaryOp} {lhs rhs : Value} {result : Except Cause Value}

/-- Operators that can be undefined are for numbers only. -/
lemma Undefined.isNumber (h : op.Undefined lhs rhs) (hsupports : op.Supports lhs rhs) :
    lhs.IsNumber ∧ rhs.IsNumber := by
  have hop : op ≠ .add ∧ op ≠ .mul := by
    rcases h with ⟨rfl | rfl, -⟩ | ⟨rfl, -⟩ <;> decide
  cases hsupports with
  | integers h => exact ⟨.inl h.1, .inl h.2⟩
  | floats _ h => exact h
  | joined h => exact absurd h hop.1
  | repeated h => exact absurd h hop.2

lemma ShiftsBack.not_undefined (h : op.ShiftsBack rhs) : ¬ op.Undefined lhs rhs := by
  rcases h with ⟨rfl | rfl, -⟩ <;> simp [Undefined]

namespace Verdict

lemma typeError_iff (h : op.Verdict lhs rhs result) :
    Raises .typeError result ↔ ¬ op.Supports lhs rhs := by
  cases h with
  | returned h => simp [h.supports]
  | overflows h hkind => simp [hkind, h.supports]
  | unsupported hkind h => simp [hkind, h]
  | undefined hkind hsupports => simp [hkind, hsupports]
  | shiftsBack hkind hkinds => simp [hkind, Supports.integers hkinds]

lemma zeroDivisionError_iff (h : op.Verdict lhs rhs result) :
    Raises .zeroDivisionError result ↔ op.Supports lhs rhs ∧ op.Undefined lhs rhs := by
  cases h with
  | returned h => simp [h.defined]
  | overflows h hkind => simp [hkind, h.defined]
  | unsupported hkind h => simp [hkind, h]
  | undefined hkind hsupports h => simp [hkind, hsupports, h]
  | shiftsBack hkind _ h => simp [hkind, h.not_undefined]

lemma valueError_iff (h : op.Verdict lhs rhs result) :
    Raises .valueError result ↔ (lhs.IntegerLike ∧ rhs.IntegerLike) ∧ op.ShiftsBack rhs := by
  cases h with
  | returned h => simp [h.forward]
  | overflows h hkind => simp [hkind, h.forward]
  | unsupported hkind h =>
    simp only [raises_error_iff, hkind, reduceCtorEq, false_iff]
    exact fun hback => h (.integers hback.1)
  | undefined hkind _ h =>
    simp only [raises_error_iff, hkind, reduceCtorEq, false_iff]
    exact fun hback => hback.2.not_undefined h
  | shiftsBack hkind hkinds h => simp [hkind, hkinds, h]

/-- No other exception is raised than these four. -/
lemma raises (h : op.Verdict lhs rhs result) :
    (∃ v, result = .ok v) ∨ Raises .overflowError result ∨ Raises .typeError result ∨
      Raises .zeroDivisionError result ∨ Raises .valueError result := by
  cases h with
  | returned _ v => exact .inl ⟨v, rfl⟩
  | overflows _ hkind => simp [hkind]
  | unsupported hkind => simp [hkind]
  | undefined hkind => simp [hkind]
  | shiftsBack hkind => simp [hkind]

lemma of_overflowError (h : op.Verdict lhs rhs result) (hraises : Raises .overflowError result) :
    (lhs.IntegerLike ∧ rhs.IntegerLike) ∨ op = .mul ∧ lhs.Repeated rhs := by
  cases h with
  | returned => exact absurd hraises (not_raises_ok _ _)
  | overflows _ _ hkinds => exact hkinds
  | unsupported hkind => simp [hkind] at hraises
  | undefined hkind => simp [hkind] at hraises
  | shiftsBack hkind => simp [hkind] at hraises

lemma kind_ne_systemExit {cause : Cause} (h : op.Verdict lhs rhs (.error cause)) :
    cause.kind ≠ .systemExit := by
  rcases h.raises with ⟨v, hv⟩ | h | h | h | h
  · cases hv
  all_goals
    rw [(raises_error_iff _ _).mp h]
    decide

end Verdict

end BinaryOp

/-- An operator raises a type error for operands it does not support, a division error where there is no
result, a value error for a shift back, and otherwise at most an overflow. -/
theorem BinaryOp.apply_raises (op : BinaryOp) (lhs rhs : Value) :
    (Raises .typeError (op.apply lhs rhs) ↔ ¬ op.Supports lhs rhs) ∧
    (Raises .zeroDivisionError (op.apply lhs rhs) ↔
      (lhs.IsNumber ∧ rhs.IsNumber) ∧ op.Supports lhs rhs ∧ op.Undefined lhs rhs) ∧
    (Raises .valueError (op.apply lhs rhs) ↔
      (lhs.IntegerLike ∧ rhs.IntegerLike) ∧ op.ShiftsBack rhs) ∧
    (op.Supports lhs rhs → ¬ op.Undefined lhs rhs →
      ¬ ((lhs.IntegerLike ∧ rhs.IntegerLike) ∧ op.ShiftsBack rhs) →
      (∃ v, op.apply lhs rhs = .ok v) ∨ Raises .overflowError (op.apply lhs rhs)) ∧
    (Raises .overflowError (op.apply lhs rhs) →
      (lhs.IntegerLike ∧ rhs.IntegerLike) ∨ op = .mul ∧ lhs.Repeated rhs) ∧
    ∀ cause, op.apply lhs rhs = .error cause →
      cause.exception.trace = [] ∧ cause.exception.exitCode = none := by
  have hverdict := op.verdict lhs rhs
  refine ⟨hverdict.typeError_iff, ?_, hverdict.valueError_iff, ?_, hverdict.of_overflowError, ?_⟩
  · rw [hverdict.zeroDivisionError_iff]
    exact ⟨fun h => ⟨h.2.isNumber h.1, h⟩, fun h => h.2⟩
  · intro hsupports hdefined hforward
    rcases hverdict.raises with h | h | h | h | h
    · exact .inl h
    · exact .inr h
    · exact absurd hsupports (hverdict.typeError_iff.mp h)
    · exact absurd (hverdict.zeroDivisionError_iff.mp h).2 hdefined
    · exact absurd (hverdict.valueError_iff.mp h) hforward
  · intro cause hcause
    rw [hcause] at hverdict
    exact ⟨rfl, Cause.exitCode_eq_none hverdict.kind_ne_systemExit⟩

/-- Minus zero is a zero to divide by, and a float is shifted by nothing, not even backwards. -/
theorem BinaryOp.apply_raises_minus_zero :
    Raises .zeroDivisionError (BinaryOp.mod.apply (.bool true) (.float (-0.0))) ∧
      Raises .typeError (BinaryOp.lshift.apply (.float 1.0) (.int (-1))) ∧
      ¬ Raises .zeroDivisionError (BinaryOp.pow.apply (.int 0) (.bool true)) := by
  refine ⟨?_, ?_, ?_⟩
  · refine (BinaryOp.apply_raises .mod _ _).2.1.mpr ⟨⟨.inl (.bool _), .inr (.float _)⟩, ?_, ?_⟩
    · exact .floats (by decide) ⟨.inl (.bool _), .inr (.float _)⟩ (.inr (.float _))
    · exact .inl ⟨.inr rfl, by decide +kernel⟩
  · refine (BinaryOp.apply_raises .lshift _ _).1.mpr fun h => ?_
    exact absurd (h.onFloats (.inl (.float _))) (by decide)
  · rw [(BinaryOp.apply_raises .pow _ _).2.1]
    rintro ⟨-, -, ⟨h, -⟩ | ⟨-, -, h⟩⟩
    · revert h; decide
    · revert h; decide

end SealedScript
