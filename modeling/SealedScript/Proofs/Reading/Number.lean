import Mathlib.Algebra.Group.Int.Defs
import Mathlib.Algebra.Group.Nat.Defs
import SealedScript.Proofs.Decimal.Text
import SealedScript.Proofs.Reading.Outcome

/-! Whole numbers are read back as they were written. -/

namespace SealedScript.Json.Read

open Decimal (EndsDigits takeWhile_isDigit dropWhile_isDigit isDigit_natural natural_ne_nil
  natural_eq_zero_cons natural_cons ofDigitChars_natural)

lemma Ends.endsDigits {rest : List Char} (h : Ends rest) : EndsDigits rest := by
  intro c hc
  rcases h c hc with rfl | rfl | rfl <;> decide

lemma digits_run {ds rest : List Char} (hds : ∀ c ∈ ds, c.isDigit) (hrest : EndsDigits rest) :
    digits (ds ++ rest) = .ok (ds, rest) := by
  unfold digits
  simp only [bind_run, get_run, Except.ok_bind]
  change Except.ok ((ds ++ rest).takeWhile Char.isDigit, (ds ++ rest).dropWhile Char.isDigit) = _
  rw [takeWhile_isDigit hds hrest, dropWhile_isDigit hds hrest]

lemma someDigits_run {ds rest : List Char} (hne : ds ≠ []) (hds : ∀ c ∈ ds, c.isDigit)
    (hrest : EndsDigits rest) : someDigits (ds ++ rest) = .ok (ds, rest) := by
  unfold someDigits
  rw [bind_run, digits_run hds hrest]
  simp [hne]

lemma digitValue_eq (c : Char) : digitValue c = c.toNat - '0'.toNat := rfl

lemma natValue_eq (ds : List Char) : natValue ds = Nat.ofDigitChars 10 ds 0 := by
  simp only [natValue, Nat.ofDigitChars_eq_foldl, digitValue_eq, Nat.mul_comm 10]

lemma le_ofDigitChars (n : Nat) (ds : List Char) : n ≤ Nat.ofDigitChars 10 ds n := by
  rw [Nat.ofDigitChars_eq_ofDigitChars_zero]
  have hpow : 0 < 10 ^ ds.length := Nat.pow_pos (by decide)
  have hmul : n ≤ 10 ^ ds.length * n := Nat.le_mul_of_pos_left n hpow
  omega

/-- Digits are left over only when the number reaches `2 ^ 64`. -/
lemma accumulate_of_lt {n : Nat} {ds : List Char} (h : Nat.ofDigitChars 10 ds n < 2 ^ 64) :
    accumulate n ds = (Nat.ofDigitChars 10 ds n, []) := by
  induction ds generalizing n with
  | nil => simp [accumulate]
  | cons c ds ih =>
    rw [Nat.ofDigitChars_cons, Nat.mul_comm 10] at h ⊢
    have hstep := le_ofDigitChars (n * 10 + (c.toNat - '0'.toNat)) ds
    rw [accumulate, if_neg (by rw [digitValue_eq]; omega)]
    exact ih h

lemma leadingDigits_run {ds rest : List Char} (hne : ds ≠ []) (hds : ∀ c ∈ ds, c.isDigit)
    (hzero : ∀ {tail}, ds = '0' :: tail → tail = []) (hrest : EndsDigits rest) :
    leadingDigits (ds ++ rest) = .ok (ds, rest) := by
  unfold leadingDigits
  rw [bind_run, someDigits_run hne hds hrest, Except.ok_bind]
  dsimp only
  split
  · next second tail => exact absurd (hzero rfl) (by simp)
  · rfl

lemma Ends.head?_ne {rest : List Char} (h : Ends rest) {c : Char}
    (hc : c ≠ ',' ∧ c ≠ ']' ∧ c ≠ '\x7d') : rest.head? ≠ some c := by
  intro hhead
  rcases h c (by rw [hhead]; rfl) with rfl | rfl | rfl <;> simp at hc

lemma Ends.not_point {rest : List Char} (h : Ends rest) : (rest.head? == some '.') = false := by
  simpa using h.head?_ne (by decide)

lemma Ends.not_exponentMark {rest : List Char} (h : Ends rest) :
    isExponentMark rest.head? = false := by
  simpa [isExponentMark] using And.intro (h.head?_ne (c := 'e') (by decide))
    (h.head?_ne (c := 'E') (by decide))

/-- A number of at most sixty-four bits without point and exponent is an integer, unless it is
minus zero or too far below zero. -/
lemma numberRest_natural (negative : Bool) {n : Nat} (hn : n < 2 ^ 64)
    (hneg : negative = true → 0 < n ∧ n ≤ 2 ^ 63) {rest : List Char} (hrest : Ends rest) :
    numberRest negative (Decimal.natural n ++ rest) =
      .ok (.int (if negative then -(n : Int) else n), rest) := by
  have hvalue : accumulate 0 (Decimal.natural n) = (n, []) := by
    rw [accumulate_of_lt (by rw [ofDigitChars_natural]; exact hn), ofDigitChars_natural]
  unfold numberRest
  rw [bind_run, leadingDigits_run (natural_ne_nil n) (fun _ => isDigit_natural)
    natural_eq_zero_cons hrest.endsDigits]
  simp only [Except.ok_bind, hvalue, bind_run, peek_run, hrest.not_point, hrest.not_exponentMark]
  have hsmall : ¬ (negative = true ∧ (n = 0 ∨ 2 ^ 63 < n)) := by
    rintro ⟨hsign, hzero | hlarge⟩
    · exact absurd hzero (Nat.ne_of_gt (hneg hsign).1)
    · exact absurd hlarge (Nat.not_lt.mpr (hneg hsign).2)
  rw [if_neg hsmall]
  rfl

lemma isBlank_of_isDigit {c : Char} (h : c.isDigit) : isBlank c = false := by
  have hne : ∀ d, d.isDigit = false → c ≠ d := by
    rintro d hd rfl
    rw [h] at hd
    exact absurd hd (by decide)
  simp [isBlank, hne ' ' (by decide), hne '\t' (by decide), hne '\n' (by decide),
    hne '\r' (by decide)]

lemma number_of_digit {c : Char} (hc : c.isDigit) (text : List Char) :
    number (c :: text) = numberRest false (c :: text) := by
  have hminus : c ≠ '-' := by
    rintro rfl
    exact absurd hc (by decide)
  simp [number, solid_run (isBlank_of_isDigit hc), hminus, hc]

lemma number_of_minus (text : List Char) : number ('-' :: text) = numberRest true text := by
  simp [number, solid_run (c := '-') (by decide)]

/-- Every integer from `-2 ^ 63` to `2 ^ 64 - 1` comes back. -/
lemma number_integer {i : Int} (hlow : -2 ^ 63 ≤ i) (hhigh : i < 2 ^ 64) :
    Gives number (Decimal.integer i) (.ok (.int i)) := by
  intro rest hrest
  unfold Decimal.integer
  split_ifs with hneg
  · rw [List.cons_append, number_of_minus,
      numberRest_natural true (by omega) (fun _ => by omega) hrest]
    have habs : -(i.natAbs : Int) = i := by omega
    rw [if_pos rfl, habs]
    rfl
  · obtain ⟨c, ds, hds, hc⟩ := natural_cons i.natAbs
    rw [hds, List.cons_append, number_of_digit hc, ← List.cons_append, ← hds,
      numberRest_natural false (by omega) (by simp) hrest]
    have habs : (i.natAbs : Int) = i := by omega
    simp [habs]

lemma int64_gives (i : Int64) : Gives int64 (render (.int i.toInt)) (.ok i) := by
  intro rest hrest
  have hrange := i.toInt_lt
  have hlow := i.le_toInt
  unfold int64
  rw [render, bind_run, number_integer hlow (by omega) rest hrest, Except.ok_bind, Except.ok_bind]
  dsimp only
  rw [if_pos hrange, Int64.ofInt_toInt, pure_run]
  rfl

lemma uint32_gives (n : UInt32) : Gives uint32 (render (.int n.toNat)) (.ok n) := by
  intro rest hrest
  have hrange := n.toNat_lt
  unfold uint32
  rw [render, bind_run, number_integer (by omega) (by omega) rest hrest, Except.ok_bind, Except.ok_bind]
  dsimp only
  rw [if_pos (by omega), Int.toNat_natCast, UInt32.ofNat_toNat, pure_run]
  rfl

lemma boolean_run (b : Bool) (rest : List Char) :
    boolean ((if b then "true" else "false").toList ++ rest) = .ok (b, rest) := by
  cases b with
  | false =>
    have hsolid : solid ("false".toList ++ rest) = .ok ('f', "false".toList ++ rest) :=
      solid_run (by decide) _
    change boolean ("false".toList ++ rest) = .ok (false, rest)
    unfold boolean
    rw [bind_run, hsolid, Except.ok_bind, if_neg (by simp), if_pos rfl, bind_run, word_run]
    rfl
  | true =>
    have hsolid : solid ("true".toList ++ rest) = .ok ('t', "true".toList ++ rest) :=
      solid_run (by decide) _
    change boolean ("true".toList ++ rest) = .ok (true, rest)
    unfold boolean
    rw [bind_run, hsolid, Except.ok_bind, if_pos rfl, bind_run, word_run]
    rfl

lemma boolean_gives (b : Bool) : Gives boolean (render (.bool b)) (.ok b) := by
  intro rest _
  cases b with
  | false => exact boolean_run false rest
  | true => exact boolean_run true rest

end SealedScript.Json.Read
