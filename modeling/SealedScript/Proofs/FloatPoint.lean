import SealedScript.Machine.Conversion
import SealedScript.Proofs.Decimal.Threshold
import SealedScript.Proofs.Rendering

/-! The point in the text of a float. Below `10 ^ 16` there is one, and whole numbers end in `.0`; from there
on a float has the text of an integer, so that it cannot be told from one. -/

namespace SealedScript

namespace Decimal

lemma natural_mul_ten {n : Nat} (h : 0 < n) : natural (n * 10) = natural n ++ ['0'] := by
  unfold natural
  rw [Nat.toDigits_eq_if (by decide), if_neg (by omega), Nat.mul_div_cancel _ (by decide), Nat.mul_mod_left]
  rfl

/-- The digits of a whole number, with zeros up to the ones. -/
lemma Digits.natural_whole {d : Digits} (h : 0 < d.coefficient ∨ d.exponent = 0) :
    natural d.whole = natural d.coefficient ++ List.replicate d.exponent.toNat '0' := by
  rcases h with hpos | hzero
  · rw [whole]
    induction d.exponent.toNat with
    | zero => simp
    | succ k ih =>
      rw [Nat.pow_succ, ← Nat.mul_assoc, natural_mul_ten (by positivity), ih, List.append_assoc,
        ← List.replicate_succ']
  · simp [whole, hzero]

lemma Digits.leading_lt_iff {d : Digits} (h : 0 < d.coefficient ∨ d.exponent = 0) (hwhole : 0 ≤ d.exponent)
    {n : Nat} (hn : 0 < n) :
    d.exponent + (natural d.coefficient).length - 1 < n ↔ d.whole < 10 ^ n := by
  have hlength : (natural d.whole).length = (natural d.coefficient).length + d.exponent.toNat := by
    rw [natural_whole h, List.length_append, List.length_replicate]
  have hdigits : (natural d.whole).length ≤ n ↔ d.whole < 10 ^ n := Nat.length_toDigits_le_iff (by decide) hn
  rw [← hdigits, hlength]
  omega

/-- A number text with a fractional part: a sign where it is negative, digits, the point, and the digits of
the fraction. -/
def Pointed (negative : Bool) (fraction text : List Char) : Prop :=
  ∃ whole, text = (if negative then ['-'] else []) ++ (whole ++ '.' :: fraction) ∧ whole ≠ [] ∧
    fraction ≠ [] ∧ ∀ c ∈ whole ++ fraction, c.isDigit

lemma Pointed.point_mem {negative : Bool} {fraction text : List Char} (h : Pointed negative fraction text) :
    '.' ∈ text := by
  obtain ⟨whole, rfl, -⟩ := h
  simp

lemma point_notMem_integer (i : Int) : '.' ∉ integer i := by
  intro hpoint
  exact absurd (integer_char hpoint) (by decide)

/-- The integer whose text a large float has. -/
def FiniteFloat.shownInteger (x : FiniteFloat) : Int :=
  if x.negative then -((shortest .up x).whole : Int) else (shortest .up x).whole

lemma FiniteFloat.integer_shownInteger {x : FiniteFloat} (h : 0 < (shortest .up x).whole) :
    integer x.shownInteger = (if x.negative then ['-'] else []) ++ natural (shortest .up x).whole := by
  unfold shownInteger integer
  cases x.negative with
  | true =>
    rw [if_pos rfl, if_pos (by omega), Int.natAbs_neg]
    rfl
  | false =>
    rw [if_neg Bool.false_ne_true, if_neg (by omega)]
    rfl

end Decimal

namespace Value

open Decimal

section Spelling

lemma floatLayout_positional (leading : Int) : floatLayout.positional leading = true := rfl

lemma floatLayout_spelling_whole {d : Digits} (h : 0 < d.coefficient ∨ d.exponent = 0)
    (hwhole : 0 ≤ d.exponent) :
    floatLayout.spelling d = ⟨natural d.whole, if d.whole < 10 ^ 16 then ['0'] else [], Option.none⟩ := by
  have hkeeps : floatLayout.keepsPoint (d.exponent + (natural d.coefficient).length - 1) =
      decide (d.whole < 10 ^ 16) := decide_eq_decide.mpr (Digits.leading_lt_iff h hwhole (by decide))
  unfold Layout.spelling
  dsimp only
  rw [if_pos (floatLayout_positional _), if_pos hwhole, hkeeps, Digits.natural_whole h]
  simp

lemma floatLayout_spelling_fraction {d : Digits} (hfraction : d.exponent < 0) :
    (floatLayout.spelling d).fraction ≠ [] ∧ (floatLayout.spelling d).exponent = Option.none := by
  unfold Layout.spelling
  dsimp only
  rw [if_pos (floatLayout_positional _), if_neg (by omega)]
  split_ifs with hplaces
  · refine ⟨?_, rfl⟩
    simp only [ne_eq, List.drop_eq_nil_iff]
    omega
  · exact ⟨by simp [natural_ne_nil], rfl⟩

end Spelling

section Texts

variable {x : Float} {parts : FiniteFloat}

lemma floatText_finite (h : FloatClass.ofFloat x = .finite parts) :
    (floatText x).toList = (if parts.negative then ['-'] else []) ++
      (floatLayout.spelling (shortest .up parts)).text := by
  unfold floatText
  rw [h]
  exact String.toList_ofList.trans (floatLayout.render_eq parts)

/-- A float below `10 ^ 16` has a fractional part, which is a zero where the float is whole. -/
lemma floatText_of_not_reaches (h : FloatClass.ofFloat x = .finite parts)
    (hsmall : ¬ parts.Reaches (10 ^ 16)) :
    ∃ fraction, Pointed parts.negative fraction (floatText x).toList ∧
      (parts.isIntegral = true → fraction = ['0']) := by
  have hcanonical := FloatClass.canonical_of_ofBits h
  have hdigital := floatLayout.spelling_digital (shortest .up parts)
  obtain ⟨-, -, -, hzero⟩ := shortest_bounds .up hcanonical
  have hpart : (floatLayout.spelling (shortest .up parts)).fraction ≠ [] ∧
      (floatLayout.spelling (shortest .up parts)).exponent = Option.none ∧
      (parts.isIntegral = true → (floatLayout.spelling (shortest .up parts)).fraction = ['0']) := by
    rcases Int.lt_or_le (shortest .up parts).exponent 0 with hfraction | hwhole
    · obtain ⟨hne, hexponent⟩ := floatLayout_spelling_fraction hfraction
      refine ⟨hne, hexponent, fun hintegral => ?_⟩
      have hnonneg := shortest_exponent_nonneg .up hcanonical hintegral
      omega
    · have hless : (shortest .up parts).whole < 10 ^ 16 :=
        Nat.lt_of_not_le fun hle => hsmall ((le_whole_iff_reaches hcanonical hwhole).mp hle)
      rw [floatLayout_spelling_whole hzero hwhole, if_pos hless]
      exact ⟨by simp, rfl, fun _ => rfl⟩
  obtain ⟨hne, hexponent, hintegral⟩ := hpart
  refine ⟨_, ⟨_, ?_, hdigital.whole_ne_nil, hne, ?_⟩, hintegral⟩
  · have hpointed : (floatLayout.spelling (shortest .up parts)).pointed =
        '.' :: (floatLayout.spelling (shortest .up parts)).fraction := if_neg (by simpa using hne)
    rw [floatText_finite h, Spelling.text, hpointed, Spelling.marked, hexponent, List.append_nil]
  · intro c hc
    rcases List.mem_append.mp hc with hc | hc
    · exact hdigital.whole_isDigit c hc
    · exact hdigital.fraction_isDigit c hc

/-- From `10 ^ 16` on there is nothing but the digits of an integer. -/
lemma floatText_of_reaches (h : FloatClass.ofFloat x = .finite parts) (hlarge : parts.Reaches (10 ^ 16)) :
    floatText x = intText parts.shownInteger := by
  have hcanonical := FloatClass.canonical_of_ofBits h
  obtain ⟨-, -, -, hzero⟩ := shortest_bounds .up hcanonical
  have hwhole := shortest_exponent_nonneg .up hcanonical (hlarge.isIntegral hcanonical)
  have hle := (le_whole_iff_reaches hcanonical hwhole).mpr hlarge
  have hkeeps : ¬ (shortest .up parts).whole < 10 ^ 16 := Nat.not_lt.mpr hle
  refine String.toList_inj.mp ?_
  rw [floatText_finite h, floatLayout_spelling_whole hzero hwhole, if_neg hkeeps, intText,
    String.toList_ofList, FiniteFloat.integer_shownInteger (by omega)]
  simp [Spelling.text, Spelling.pointed, Spelling.marked]

lemma intText_inj {i j : Int} (h : intText i = intText j) : i = j :=
  integer_inj (String.ofList_inj.mp h)

/-- A float that is not finite is a word, and one with a point is no integer either. -/
lemma exists_reaches_of_floatText_eq {i : Int} (h : floatText x = intText i) :
    ∃ parts, FloatClass.ofFloat x = .finite parts ∧ parts.Reaches (10 ^ 16) := by
  have hchars : ∀ c ∈ (floatText x).toList, c = '-' ∨ c.isDigit := by
    intro c hc
    rw [h, intText, String.toList_ofList] at hc
    exact integer_char hc
  cases hclass : FloatClass.ofFloat x with
  | nan =>
    have htext : (floatText x).toList = ['n', 'a', 'n'] := by simp [floatText, hclass]
    exact absurd (hchars 'n' (by simp [htext])) (by decide)
  | infinite negative =>
    have hmem : 'f' ∈ (floatText x).toList := by cases negative <;> simp [floatText, hclass]
    exact absurd (hchars 'f' hmem) (by decide)
  | finite parts =>
    refine ⟨parts, rfl, ?_⟩
    by_contra hsmall
    obtain ⟨fraction, hpointed, -⟩ := floatText_of_not_reaches hclass hsmall
    exact absurd (hchars '.' hpointed.point_mem) (by decide)

end Texts

/-- A finite float has a point in its text exactly when it is below `10 ^ 16`, and then ends in `.0` if it is
whole. Each larger one looks like an integer, and no other float does. -/
theorem float_repr_eq_int_iff (x : Float) :
    (∀ engine m, (Value.float x).repr engine m = .ok (floatText x) m ∧
      (Value.float x).toStr engine m = .ok (floatText x) m) ∧
    (∀ parts, FloatClass.ofFloat x = .finite parts →
      (¬ parts.Reaches (10 ^ 16) → ∃ fraction, Pointed parts.negative fraction (floatText x).toList ∧
        (parts.isIntegral = true → fraction = ['0'])) ∧
      (parts.Reaches (10 ^ 16) → '.' ∉ (floatText x).toList)) ∧
    ∀ (i : Int64) engine m, (Value.float x).repr engine m = (Value.int i).repr engine m ↔
      ∃ parts, FloatClass.ofFloat x = .finite parts ∧ parts.Reaches (10 ^ 16) ∧
        parts.shownInteger = i.toInt := by
  refine ⟨fun engine m => ⟨rfl, rfl⟩, fun parts hparts => ⟨?_, ?_⟩, fun i engine m => ⟨?_, ?_⟩⟩
  · exact floatText_of_not_reaches hparts
  · intro hlarge hpoint
    rw [floatText_of_reaches hparts hlarge, intText, String.toList_ofList] at hpoint
    exact point_notMem_integer _ hpoint
  · intro hsame
    have htext : floatText x = intText i.toInt := (EStateM.Result.ok.inj hsame).1
    obtain ⟨parts, hparts, hlarge⟩ := exists_reaches_of_floatText_eq htext
    exact ⟨parts, hparts, hlarge, intText_inj ((floatText_of_reaches hparts hlarge).symm.trans htext)⟩
  · rintro ⟨parts, hparts, hlarge, hshown⟩
    have htext : floatText x = intText i.toInt := by rw [floatText_of_reaches hparts hlarge, hshown]
    exact congrArg (EStateM.Result.ok · m) htext

/-- The least float that has lost its point looks like the integer `10 ^ 16`. -/
theorem float_repr_eq_int_threshold :
    (Value.float 1e16).repr Engine.idle (.fresh .plain .plain .empty) =
      (Value.int 10000000000000000).repr Engine.idle (.fresh .plain .plain .empty) :=
  ((float_repr_eq_int_iff 1e16).2.2 _ _ _).mpr
    ⟨⟨false, 5 * 10 ^ 15, 1⟩, by decide +kernel, by decide +kernel, by decide +kernel⟩

end Value

end SealedScript
