import SealedScript.Json.Shape
import SealedScript.Proofs.Decimal.Spelling
import SealedScript.Proofs.Reading.Number

/-! What the text of a float is read as. -/

namespace SealedScript.Json

open Decimal (EndsDigits Digits FiniteFloat FloatClass Spelling)

/-- The float that the text of a finite float is read as: the written digits as a whole number, moved
by the written places in floating-point arithmetic. Anything else is written as no number at all. -/
def reread (x : Float) : Except Fault Float :=
  match FloatClass.ofFloat x with
  | .finite parts =>
    let spelling := numberLayout.spelling (Decimal.shortest numberLayout.tie parts)
    (fun y => if parts.negative then -y else y) <$>
      Read.floatOfParts spelling.significand spelling.places
  | _ => .error .mismatch

namespace Read

variable {s : Spelling} {rest : List Char}

/-- The digits after the mark move the number by so many places more. -/
lemma exponentPart_run (significand : Nat) (places : Int) {i : Int} (hi : i.natAbs ≤ maxExponent)
    (hrest : EndsDigits rest) :
    exponentPart significand places
        ('e' :: (if i < 0 then '-' else '+') :: (Decimal.natural i.natAbs ++ rest)) =
      floatOfParts significand (places + i) >>= fun y => .ok (y, rest) := by
  have hdigits := someDigits_run (Decimal.natural_ne_nil i.natAbs)
    (fun _ => Decimal.isDigit_natural) hrest
  have hvalue : natValue (Decimal.natural i.natAbs) = i.natAbs := by
    rw [natValue_eq, Decimal.ofDigitChars_natural]
  have hsmall : ¬ maxExponent < i.natAbs := Nat.not_lt.mpr hi
  unfold exponentPart
  simp only [bind_run, advance_run, Except.ok_bind, peek_run, List.head?_cons]
  split_ifs with hneg
  · have hmove : places - (i.natAbs : Int) = places + i := by omega
    simp only [bind_run, advance_run, Except.ok_bind, pure_run, hdigits, hvalue, if_neg hsmall,
      if_true, hmove, lift_run]
  · have hmove : places + (i.natAbs : Int) = places + i := by omega
    simp only [bind_run, advance_run, Except.ok_bind, pure_run, hdigits, hvalue, if_neg hsmall,
      Bool.false_eq_true, if_false, hmove, lift_run]

lemma marked_run (significand : Nat) (places : Int)
    (hexponent : ∀ i ∈ s.exponent, i.natAbs ≤ maxExponent) (hrest : Ends rest) :
    (do if isExponentMark (← peek) then exponentPart significand places
        else floatOfParts significand places : Read Float) (s.marked ++ rest) =
      floatOfParts significand (places + s.exponent.getD 0) >>= fun y => .ok (y, rest) := by
  unfold Spelling.marked
  cases hs : s.exponent with
  | none => simp [hrest.not_exponentMark]
  | some i =>
    have hrun := exponentPart_run significand places (hexponent i (by simp [hs])) hrest.endsDigits
    simpa [isExponentMark] using hrun

lemma marked_endsDigits (s : Spelling) (hrest : Ends rest) : EndsDigits (s.marked ++ rest) := by
  unfold Spelling.marked
  split
  · exact hrest.endsDigits
  · simp [EndsDigits]

/-- The digits after the point go on with the significand. -/
lemma fractionPart_run {significand : Nat} (hs : s.Digital) (hne : s.fraction ≠ [])
    (hbound : Nat.ofDigitChars 10 s.fraction significand < 2 ^ 64)
    (hexponent : ∀ i ∈ s.exponent, i.natAbs ≤ maxExponent) (hrest : Ends rest) :
    fractionPart significand 0 ('.' :: (s.fraction ++ (s.marked ++ rest))) =
      floatOfParts (Nat.ofDigitChars 10 s.fraction significand) s.places >>=
        fun y => .ok (y, rest) := by
  have hdigits := someDigits_run hne hs.fraction_isDigit (marked_endsDigits s hrest)
  have hplaces : (0 : Int) - (s.fraction.length - ([] : List Char).length : Nat) +
      s.exponent.getD 0 = s.places := by
    simp only [Spelling.places, List.length_nil]
    omega
  unfold fractionPart
  rw [bind_run, advance_run, Except.ok_bind, bind_run, hdigits, Except.ok_bind,
    accumulate_of_lt hbound, ← hplaces]
  exact marked_run _ _ hexponent hrest

/-- A number with a point or an exponent is read as a float. -/
lemma numberRest_spelling (negative : Bool) (hs : s.Digital)
    (hzero : ∀ {tail}, s.whole = '0' :: tail → tail = [])
    (hfloat : s.fraction ≠ [] ∨ s.exponent ≠ none) (hbound : s.significand < 2 ^ 64)
    (hexponent : ∀ i ∈ s.exponent, i.natAbs ≤ maxExponent) (hrest : Ends rest) :
    numberRest negative (s.text ++ rest) =
      floatOfParts s.significand s.places >>= fun y =>
        .ok (.float (if negative then -y else y), rest) := by
  have hsplit : s.significand = Nat.ofDigitChars 10 s.fraction (Nat.ofDigitChars 10 s.whole 0) :=
    Nat.ofDigitChars_append 0
  have hwhole : Nat.ofDigitChars 10 s.whole 0 < 2 ^ 64 :=
    (le_ofDigitChars _ s.fraction).trans_lt (hsplit ▸ hbound)
  have hends : EndsDigits (s.pointed ++ (s.marked ++ rest)) := by
    unfold Spelling.pointed
    split_ifs
    · exact marked_endsDigits s hrest
    · simp [EndsDigits]
  unfold numberRest
  rw [Spelling.text, List.append_assoc, List.append_assoc, bind_run,
    leadingDigits_run hs.whole_ne_nil hs.whole_isDigit hzero hends, Except.ok_bind,
    accumulate_of_lt hwhole]
  -- without digits after a point it is the exponent that makes a float of it
  by_cases hfraction : s.fraction = []
  · obtain ⟨i, hi⟩ := Option.ne_none_iff_exists'.mp (hfloat.resolve_left (by simpa using hfraction))
    have hrun := exponentPart_run s.significand 0 (hexponent i (by simp [hi])) hrest.endsDigits
    have hplaces : s.places = 0 + i := by simp [Spelling.places, hi, hfraction]
    have hsame : Nat.ofDigitChars 10 s.whole 0 = s.significand := by simp [hsplit, hfraction]
    have htext : s.pointed ++ (s.marked ++ rest) =
        'e' :: (if i < 0 then '-' else '+') :: (Decimal.natural i.natAbs ++ rest) := by
      simp [Spelling.pointed, hfraction, Spelling.marked, hi]
    rw [htext, hsame, hplaces]
    simp only [bind_run, peek_run, List.head?_cons, Except.ok_bind]
    rw [if_neg (by decide), if_pos (by decide), map_run]
    change (exponentPart s.significand 0 _ >>= _) = _
    rw [hrun, bind_assoc]
    rfl
  · have hrun := fractionPart_run hs hfraction (hsplit ▸ hbound) hexponent hrest
    have htext : s.pointed ++ (s.marked ++ rest) = '.' :: (s.fraction ++ (s.marked ++ rest)) := by
      simp [Spelling.pointed, hfraction]
    rw [htext]
    simp only [bind_run, peek_run, List.head?_cons, Except.ok_bind]
    rw [if_pos (by decide), map_run]
    change (fractionPart _ 0 _ >>= _) = _
    rw [hrun, bind_assoc, ← hsplit]
    rfl

/-- The text always shows that it is a float. -/
lemma spelling_shows_float (d : Digits) :
    (numberLayout.spelling d).fraction ≠ [] ∨ (numberLayout.spelling d).exponent ≠ none := by
  unfold Decimal.Layout.spelling
  dsimp only
  split_ifs with hpositional hwhole hkeeps hplaces
  · exact .inl (by simp)
  · exact absurd rfl hkeeps
  · left
    simp only [ne_eq, List.drop_eq_nil_iff]
    omega
  · exact .inl (by simp [Decimal.natural_ne_nil])
  · exact .inr (by simp)

lemma spelling_significand_lt {d : Digits} (hd : d.coefficient ≤ 10 ^ 17) :
    (numberLayout.spelling d).significand < 2 ^ 64 := by
  rcases numberLayout.spelling_parts d with
    ⟨hsignificand, -⟩ | ⟨hwhole, hpositional, j, hsignificand, -, hj⟩
  · omega
  · have hleading : d.exponent + (Decimal.natural d.coefficient).length - 1 < 16 := by
      simp [numberLayout] at hpositional
      omega
    have hlength : d.coefficient < 10 ^ (Decimal.natural d.coefficient).length :=
      (Nat.length_toDigits_le_iff (by decide) Nat.length_toDigits_pos).mp le_rfl
    calc (numberLayout.spelling d).significand
        = d.coefficient * 10 ^ (d.exponent.toNat + j) := hsignificand
      _ ≤ 10 ^ (Decimal.natural d.coefficient).length * 10 ^ (d.exponent.toNat + j) :=
        Nat.mul_le_mul_right _ hlength.le
      _ = 10 ^ ((Decimal.natural d.coefficient).length + (d.exponent.toNat + j)) :=
        (Nat.pow_add _ _ _).symm
      _ ≤ 10 ^ 17 := Nat.pow_le_pow_right (by decide) (by omega)
      _ < 2 ^ 64 := by decide

lemma spelling_exponent_le {d : Digits} (hcoefficient : d.coefficient ≤ 10 ^ 17)
    (hlow : -340 ≤ d.exponent) (hhigh : d.exponent ≤ 325) :
    ∀ i ∈ (numberLayout.spelling d).exponent, i.natAbs ≤ maxExponent := by
  have hlength : (Decimal.natural d.coefficient).length ≤ 18 :=
    (Nat.length_toDigits_le_iff (by decide) (by decide)).mpr (by omega)
  unfold Decimal.Layout.spelling maxExponent
  dsimp only
  split_ifs <;> simp
  omega

/-- A finite number is read from the digits of its text. -/
lemma number_render {parts : FiniteFloat} (hparts : parts.Canonical) (hrest : Ends rest) :
    number (numberLayout.render parts ++ rest) =
      floatOfParts (numberLayout.spelling (Decimal.shortest numberLayout.tie parts)).significand
          (numberLayout.spelling (Decimal.shortest numberLayout.tie parts)).places >>=
        fun y => .ok (.float (if parts.negative then -y else y), rest) := by
  obtain ⟨hcoefficient, hlow, hhigh, hzero⟩ := Decimal.shortest_bounds numberLayout.tie hparts
  rw [Decimal.Layout.render_eq]
  generalize Decimal.shortest numberLayout.tie parts = d at *
  have hdigital := numberLayout.spelling_digital d
  have hrun := fun negative => numberRest_spelling negative hdigital
    (numberLayout.spelling_leads hzero) (spelling_shows_float d)
    (spelling_significand_lt hcoefficient) (spelling_exponent_le hcoefficient hlow hhigh) hrest
  cases parts.negative with
  | true => exact (number_of_minus _).trans (hrun true)
  | false =>
    obtain ⟨c, tail, htext, hc⟩ := hdigital.text_cons
    refine Eq.trans ?_ (hrun false)
    simp only [Bool.false_eq_true, if_false, List.nil_append, htext, List.cons_append]
    exact number_of_digit hc _

lemma number_null (rest : List Char) : number ("null".toList ++ rest) = .error .mismatch := by
  have hsolid : solid ("null".toList ++ rest) = .ok ('n', "null".toList ++ rest) :=
    solid_run (by decide) _
  unfold number
  rw [bind_run, hsolid, Except.ok_bind, if_neg (by simp), if_neg (by simp)]
  unfold unexpected
  rw [bind_run, hsolid, Except.ok_bind, if_pos rfl, bind_run, word_run]
  rfl

/-- A float is read as its text says. -/
lemma float_gives (x : Float) : Gives float (floatText x) (reread x) := by
  intro rest hrest
  unfold float floatText reread
  rw [bind_run]
  cases hclass : FloatClass.ofFloat x with
  | finite parts =>
    dsimp only
    rw [number_render (FloatClass.canonical_of_ofBits hclass) hrest]
    cases floatOfParts (numberLayout.spelling (Decimal.shortest numberLayout.tie parts)).significand
      (numberLayout.spelling (Decimal.shortest numberLayout.tie parts)).places <;> rfl
  | infinite negative =>
    rw [number_null]
    rfl
  | nan =>
    rw [number_null]
    rfl

end Read

end SealedScript.Json
