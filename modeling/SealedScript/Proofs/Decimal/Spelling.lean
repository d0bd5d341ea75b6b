import SealedScript.Proofs.Decimal.Shortest
import SealedScript.Proofs.Decimal.Text

/-! A spelling can be taken off its text, and the number it spells is the one whose digits were laid
out: texts tell finite floats apart. -/

namespace SealedScript.Decimal

lemma EndsDigits.append_inj {ds ds' rest rest' : List Char} (hds : ∀ c ∈ ds, c.isDigit)
    (hds' : ∀ c ∈ ds', c.isDigit) (hrest : EndsDigits rest) (hrest' : EndsDigits rest')
    (h : ds ++ rest = ds' ++ rest') : ds = ds' ∧ rest = rest' := by
  have htake := congrArg (List.takeWhile Char.isDigit) h
  have hdrop := congrArg (List.dropWhile Char.isDigit) h
  rw [takeWhile_isDigit hds hrest, takeWhile_isDigit hds' hrest'] at htake
  rw [dropWhile_isDigit hds hrest, dropWhile_isDigit hds' hrest'] at hdrop
  exact ⟨htake, hdrop⟩

lemma natural_inj {m n : Nat} (h : natural m = natural n) : m = n := by
  rw [← ofDigitChars_natural m, h, ofDigitChars_natural]

namespace Spelling

variable {s t : Spelling}

/-- All digits, those after the point too, as one number. -/
def significand (s : Spelling) : Nat :=
  Nat.ofDigitChars 10 (s.whole ++ s.fraction) 0

/-- The decimal places by which the significand is moved. -/
def places (s : Spelling) : Int :=
  s.exponent.getD 0 - s.fraction.length

lemma marked_endsDigits (s : Spelling) : EndsDigits s.marked := by
  unfold marked
  split <;> simp [EndsDigits]

lemma pointed_marked_endsDigits (s : Spelling) : EndsDigits (s.pointed ++ s.marked) := by
  unfold pointed
  split_ifs
  · exact s.marked_endsDigits
  · simp [EndsDigits]

lemma marked_inj (h : s.marked = t.marked) : s.exponent = t.exponent := by
  unfold marked at h
  cases hs : s.exponent with
  | none =>
    cases ht : t.exponent with
    | none => rfl
    | some j => simp [hs, ht] at h
  | some i =>
    cases ht : t.exponent with
    | none => simp [hs, ht] at h
    | some j =>
      simp only [hs, ht, List.cons.injEq, true_and] at h
      obtain ⟨hsign, habs⟩ := h
      have hnat := natural_inj habs
      have hneg : i < 0 ↔ j < 0 := by
        split_ifs at hsign with hi hj hj
        · exact iff_of_true hi hj
        · exact absurd hsign (by decide)
        · exact absurd hsign (by decide)
        · exact iff_of_false hi hj
      rw [show i = j by omega]

/-- The parts of a number text are determined by the text. -/
lemma Digital.text_inj (hs : s.Digital) (ht : t.Digital) (h : s.text = t.text) : s = t := by
  have hnoPoint : ∀ u : Spelling, u.marked.head? ≠ some '.' := by
    intro u
    unfold marked
    split <;> simp
  simp only [text, List.append_assoc] at h
  obtain ⟨hwhole, hrest⟩ := EndsDigits.append_inj hs.whole_isDigit ht.whole_isDigit
    s.pointed_marked_endsDigits t.pointed_marked_endsDigits h
  have hparts : s.fraction = t.fraction ∧ s.marked = t.marked := by
    unfold pointed at hrest
    split_ifs at hrest with hsf htf htf
    · rw [List.isEmpty_iff.mp hsf, List.isEmpty_iff.mp htf]
      exact ⟨rfl, hrest⟩
    · exact absurd (by rw [List.nil_append] at hrest; simp [hrest]) (hnoPoint s)
    · exact absurd (by rw [List.nil_append] at hrest; simp [← hrest]) (hnoPoint t)
    · simp only [List.cons_append, List.cons.injEq, true_and] at hrest
      exact EndsDigits.append_inj hs.fraction_isDigit ht.fraction_isDigit s.marked_endsDigits
        t.marked_endsDigits hrest
  have hexponent := marked_inj hparts.2
  cases s
  cases t
  simp_all

end Spelling

lemma ofDigitChars_zeros (n k : Nat) :
    Nat.ofDigitChars 10 (List.replicate k '0') n = n * 10 ^ k := by
  induction k generalizing n with
  | zero => simp
  | succ k ih =>
    rw [List.replicate_succ, Nat.ofDigitChars_cons, ih, Nat.pow_succ]
    simp
    ring

section Layout

variable (layout : Layout)

/-- Where the layout writes a whole number with `.0`, the zero counts as a digit; everywhere else
digits and exponent are spelled as they are. -/
lemma Layout.spelling_parts (d : Digits) :
    ((layout.spelling d).significand = d.coefficient ∧ (layout.spelling d).places = d.exponent) ∨
      (0 ≤ d.exponent ∧ layout.positional (d.exponent + (natural d.coefficient).length - 1) ∧
        ∃ j : Nat, (layout.spelling d).significand = d.coefficient * 10 ^ (d.exponent.toNat + j) ∧
          (layout.spelling d).places = -j ∧ j ≤ 1) := by
  have hlength : 0 < (natural d.coefficient).length :=
    List.length_pos_iff.mpr (natural_ne_nil d.coefficient)
  have hvalue := ofDigitChars_natural d.coefficient
  unfold Layout.spelling Spelling.significand Spelling.places
  dsimp only
  split_ifs with hpositional hwhole hkeeps hplaces
  · refine .inr ⟨hwhole, hpositional, 1, ?_, by simp, le_refl 1⟩
    rw [List.append_assoc, ← List.replicate_succ', Nat.ofDigitChars_append, hvalue,
      ofDigitChars_zeros]
  · refine .inr ⟨hwhole, hpositional, 0, ?_, by simp, by decide⟩
    rw [List.append_nil, Nat.ofDigitChars_append, hvalue, ofDigitChars_zeros, Nat.add_zero]
  · refine .inl ⟨by rw [List.take_append_drop, hvalue], ?_⟩
    simp only [Option.getD_none, List.length_drop]
    omega
  · refine .inl ⟨?_, ?_⟩
    · rw [List.singleton_append, ← List.cons_append, ← List.replicate_succ,
        Nat.ofDigitChars_append, ofDigitChars_zeros, Nat.zero_mul, hvalue]
    · simp only [Option.getD_none, List.length_append, List.length_replicate]
      omega
  · refine .inl ⟨by rw [List.take_append_drop, hvalue], ?_⟩
    simp only [Option.getD_some, List.length_drop]
    omega

/-- The number that is spelled is the one whose digits are laid out. -/
lemma Layout.spelling_value (d : Digits) :
    (layout.spelling d).significand * gridStep (layout.spelling d).places =
      d.coefficient * gridStep d.exponent := by
  rcases layout.spelling_parts d with ⟨hsignificand, hplaces⟩ | ⟨hwhole, -, j, hsignificand, hplaces, hj⟩
  · rw [hsignificand, hplaces]
  · have hsum : d.exponent = -j + (d.exponent.toNat + j : Nat) := by omega
    rw [hsignificand, hplaces, Nat.mul_assoc, ← gridStep_add (by omega), ← hsum]

/-- The whole part has no needless zeros in front. -/
lemma Layout.spelling_leads {d : Digits} (hd : 0 < d.coefficient ∨ d.exponent = 0)
    {tail : List Char} (h : (layout.spelling d).whole = '0' :: tail) : tail = [] := by
  obtain ⟨c, ds, hds, -⟩ := natural_cons d.coefficient
  rcases Nat.eq_zero_or_pos d.coefficient with hzero | hpos
  · have hexponent : d.exponent = 0 := hd.resolve_left (by omega)
    simp only [Layout.spelling, hexponent, hzero, natural, Nat.toDigits_zero] at h
    split_ifs at h <;> simpa using h.symm
  · have hhead : c ≠ '0' := by
      have := natural_head_ne hpos
      simpa [hds] using this
    unfold Layout.spelling at h
    dsimp only at h
    rw [hds] at h
    split_ifs at h with hpositional hwhole hkeeps hplaces
    · exact absurd (List.cons.inj h).1 hhead
    · exact absurd (List.cons.inj h).1 hhead
    · obtain ⟨k, hk⟩ : ∃ k, (c :: ds).length - (-d.exponent).toNat = k + 1 :=
        ⟨(c :: ds).length - (-d.exponent).toNat - 1, by omega⟩
      rw [hk] at h
      exact absurd (List.cons.inj h).1 hhead
    · exact (List.cons.inj h).2.symm
    · exact absurd (List.cons.inj h).1 hhead

/-- Equal texts are texts of one number. -/
lemma Layout.render_inj {x y : FiniteFloat} (hx : x.Canonical) (hy : y.Canonical)
    (h : layout.render x = layout.render y) : x = y := by
  rw [Layout.render_eq, Layout.render_eq] at h
  have hdx := layout.spelling_digital (shortest layout.tie x)
  have hdy := layout.spelling_digital (shortest layout.tie y)
  have hparts : x.negative = y.negative ∧ (layout.spelling (shortest layout.tie x)).text =
      (layout.spelling (shortest layout.tie y)).text := by
    obtain ⟨c, rest, htext, hc⟩ := hdx.text_cons
    obtain ⟨c', rest', htext', hc'⟩ := hdy.text_cons
    rw [htext, htext'] at h ⊢
    cases hnx : x.negative <;> cases hny : y.negative <;> simp [hnx, hny] at h
    · exact ⟨rfl, by rw [h.1, h.2]⟩
    · exact absurd hc (by rw [h.1]; decide)
    · exact absurd hc' (by rw [← h.1]; decide)
    · exact ⟨rfl, by rw [h.1, h.2]⟩
  have hspelling := hdx.text_inj hdy hparts.2
  have hvalue := layout.spelling_value (shortest layout.tie x)
  rw [hspelling, layout.spelling_value] at hvalue
  obtain ⟨hmantissa, hexponent⟩ := shortest_value_inj layout.tie hx hy hvalue.symm
  cases x
  cases y
  simp_all

end Layout

end SealedScript.Decimal
