import Mathlib.Tactic.Common
import SealedScript.Decimal.Layout

/-! Number texts taken apart: sign, digits before the point, digits after it, exponent. They start
with a sign or a digit and hold only the characters of numbers. -/

namespace SealedScript.Decimal

lemma isDigit_natural {n : Nat} {c : Char} (h : c ∈ natural n) : c.isDigit :=
  Nat.isDigit_of_mem_toDigits (by decide) (by decide) h

lemma natural_ne_nil (n : Nat) : natural n ≠ [] :=
  Nat.toDigits_ne_nil

lemma ofDigitChars_natural (n : Nat) : Nat.ofDigitChars 10 (natural n) 0 = n :=
  Nat.ofDigitChars_ten_toDigits

lemma natural_cons (n : Nat) : ∃ c ds, natural n = c :: ds ∧ c.isDigit := by
  obtain ⟨c, ds, h⟩ := List.exists_cons_of_ne_nil (natural_ne_nil n)
  exact ⟨c, ds, h, isDigit_natural (n := n) (by simp [h])⟩

/-- The first digit of a positive number is no zero. -/
lemma natural_head_ne {n : Nat} (h : 0 < n) : (natural n).head? ≠ some '0' := by
  unfold natural
  induction n using Nat.strongRecOn with
  | ind n ih =>
    rw [Nat.toDigits_eq_if (by decide)]
    split_ifs with hlt
    · have hall : ∀ k < 10, 0 < k → k.digitChar ≠ '0' := by decide
      simpa using hall n hlt h
    · obtain ⟨c, ds, hds⟩ := List.exists_cons_of_ne_nil (Nat.toDigits_ne_nil (b := 10) (n := n / 10))
      have hhead := ih (n / 10) (by omega) (by omega)
      rw [hds] at hhead ⊢
      exact hhead

/-- A number is written without needless zeros in front. -/
lemma natural_eq_zero_cons {n : Nat} {ds : List Char} (h : natural n = '0' :: ds) : ds = [] := by
  rcases Nat.eq_zero_or_pos n with rfl | hpos
  · rw [natural, Nat.toDigits_zero] at h
    simpa using h.symm
  · have hne := natural_head_ne hpos
    rw [h] at hne
    exact absurd rfl hne

/-- Nothing follows, or a character that is no digit. -/
def EndsDigits (rest : List Char) : Prop :=
  ∀ c ∈ rest.head?, c.isDigit = false

lemma takeWhile_isDigit {ds rest : List Char} (hds : ∀ c ∈ ds, c.isDigit) (hrest : EndsDigits rest) :
    (ds ++ rest).takeWhile Char.isDigit = ds := by
  rw [List.takeWhile_append_of_pos hds]
  cases rest with
  | nil => simp
  | cons c rest => simp [hrest c (by simp)]

lemma dropWhile_isDigit {ds rest : List Char} (hds : ∀ c ∈ ds, c.isDigit) (hrest : EndsDigits rest) :
    (ds ++ rest).dropWhile Char.isDigit = rest := by
  rw [List.dropWhile_append_of_pos hds]
  cases rest with
  | nil => rfl
  | cons c rest => simp [hrest c (by simp)]

/-- The characters that number texts are made of. -/
def isNumberChar (c : Char) : Bool :=
  c.isDigit || c == '-' || c == '+' || c == '.' || c == 'e'

lemma isNumberChar_of_isDigit {c : Char} (h : c.isDigit) : isNumberChar c := by
  simp [isNumberChar, h]

/-- A digit, or the sign of a negative number. -/
def StartsNumber (text : List Char) : Prop :=
  ∃ c rest, text = c :: rest ∧ (c = '-' ∨ c.isDigit)

lemma integer_starts (i : Int) : StartsNumber (integer i) := by
  unfold integer
  split_ifs
  · exact ⟨'-', _, rfl, .inl rfl⟩
  · obtain ⟨c, ds, h, hc⟩ := natural_cons i.natAbs
    exact ⟨c, ds, h, .inr hc⟩

lemma integer_chars {i : Int} {c : Char} (h : c ∈ integer i) : isNumberChar c := by
  unfold integer at h
  split_ifs at h
  · rcases List.mem_cons.mp h with rfl | h
    · decide
    · exact isNumberChar_of_isDigit (isDigit_natural h)
  · exact isNumberChar_of_isDigit (isDigit_natural h)

/-- An unsigned number text in its parts: the digits before and after the point, and the exponent. -/
structure Spelling where
  whole : List Char
  fraction : List Char
  exponent : Option Int

namespace Spelling

/-- The point with the digits after it, if there are any. -/
def pointed (s : Spelling) : List Char :=
  if s.fraction.isEmpty then [] else '.' :: s.fraction

/-- The mark of the exponent with its sign and digits, if there is one. -/
def marked (s : Spelling) : List Char :=
  match s.exponent with
  | none => []
  | some i => 'e' :: (if i < 0 then '-' else '+') :: natural i.natAbs

def text (s : Spelling) : List Char :=
  s.whole ++ s.pointed ++ s.marked

/-- Whole part and fraction are digits, and there is a whole part. -/
structure Digital (s : Spelling) : Prop where
  whole_ne_nil : s.whole ≠ []
  whole_isDigit : ∀ c ∈ s.whole, c.isDigit
  fraction_isDigit : ∀ c ∈ s.fraction, c.isDigit

lemma Digital.text_cons {s : Spelling} (h : s.Digital) :
    ∃ c rest, s.text = c :: rest ∧ c.isDigit := by
  obtain ⟨c, ds, hds⟩ := List.exists_cons_of_ne_nil h.whole_ne_nil
  exact ⟨c, ds ++ s.pointed ++ s.marked, by simp [text, hds], h.whole_isDigit c (by simp [hds])⟩

lemma pointed_chars {s : Spelling} (h : s.Digital) {c : Char} (hc : c ∈ s.pointed) :
    isNumberChar c := by
  unfold pointed at hc
  split_ifs at hc
  · simp at hc
  · rcases List.mem_cons.mp hc with rfl | hc
    · decide
    · exact isNumberChar_of_isDigit (h.fraction_isDigit c hc)

lemma marked_chars {s : Spelling} {c : Char} (hc : c ∈ s.marked) : isNumberChar c := by
  unfold marked at hc
  split at hc
  · simp at hc
  · rcases List.mem_cons.mp hc with rfl | hc
    · decide
    rcases List.mem_cons.mp hc with rfl | hc
    · split_ifs <;> decide
    · exact isNumberChar_of_isDigit (isDigit_natural hc)

lemma Digital.text_chars {s : Spelling} (h : s.Digital) {c : Char} (hc : c ∈ s.text) :
    isNumberChar c := by
  simp only [text, List.mem_append] at hc
  rcases hc with (hc | hc) | hc
  · exact isNumberChar_of_isDigit (h.whole_isDigit c hc)
  · exact pointed_chars h hc
  · exact marked_chars hc

end Spelling

/-- How a layout spells the number with the given digits. -/
def Layout.spelling (layout : Layout) (d : Digits) : Spelling :=
  let digits := natural d.coefficient
  let leading := d.exponent + digits.length - 1
  let places := (-d.exponent).toNat
  if layout.positional leading then
    if 0 ≤ d.exponent then
      ⟨digits ++ List.replicate d.exponent.toNat '0',
        if layout.keepsPoint leading then ['0'] else [], none⟩
    else if places < digits.length then
      ⟨digits.take (digits.length - places), digits.drop (digits.length - places), none⟩
    else ⟨['0'], List.replicate (places - digits.length) '0' ++ digits, none⟩
  else ⟨digits.take 1, digits.drop 1, some leading⟩

lemma Layout.spelling_digital (layout : Layout) (d : Digits) : (layout.spelling d).Digital := by
  have hne := natural_ne_nil d.coefficient
  have hdigit : ∀ c ∈ natural d.coefficient, c.isDigit := fun c => isDigit_natural
  have hzeros : ∀ n : Nat, ∀ c ∈ List.replicate n '0', c.isDigit := by
    intro n c hc
    obtain rfl := List.eq_of_mem_replicate hc
    decide
  unfold Layout.spelling
  dsimp only
  split_ifs with hpositional hwhole hkeeps hplaces
  · exact ⟨by simp [hne], by grind, by simp⟩
  · exact ⟨by simp [hne], by grind, by simp⟩
  · refine ⟨?_, fun c hc => hdigit c (List.mem_of_mem_take hc),
      fun c hc => hdigit c (List.mem_of_mem_drop hc)⟩
    simp only [ne_eq, List.take_eq_nil_iff, hne, or_false]
    omega
  · exact ⟨by simp, by simp, by grind⟩
  · exact ⟨by simp [hne], fun c hc => hdigit c (List.mem_of_mem_take hc),
      fun c hc => hdigit c (List.mem_of_mem_drop hc)⟩

lemma scientificText_eq {digits : List Char} (hne : digits ≠ []) (leading : Int) :
    scientificText digits leading = Spelling.text ⟨digits.take 1, digits.drop 1, some leading⟩ := by
  obtain ⟨c, ds, rfl⟩ := List.exists_cons_of_ne_nil hne
  cases ds <;> rfl

/-- The text of a finite float: a sign where it is negative, and the spelling of its digits. -/
lemma Layout.render_eq (layout : Layout) (x : FiniteFloat) :
    layout.render x = (if x.negative then ['-'] else []) ++
      (layout.spelling (shortest layout.tie x)).text := by
  have hsign : ∀ (b : Bool) (t : List Char),
      (if b then '-' :: t else t) = (if b then ['-'] else []) ++ t := by
    intro b t
    cases b <;> rfl
  unfold Layout.render
  dsimp only
  rw [hsign, scientificText_eq (natural_ne_nil _)]
  congr 1
  unfold Layout.spelling positionalText
  dsimp only
  split_ifs with hpositional hwhole hkeeps hplaces
  · simp [Spelling.text, Spelling.pointed, Spelling.marked]
  · simp [Spelling.text, Spelling.pointed, Spelling.marked]
  · have hdrop : ¬ (List.drop ((natural (shortest layout.tie x).coefficient).length -
        (-(shortest layout.tie x).exponent).toNat)
          (natural (shortest layout.tie x).coefficient)).isEmpty = true := by
      rw [List.isEmpty_iff, List.drop_eq_nil_iff]
      omega
    simp only [Spelling.text, Spelling.pointed, Spelling.marked, if_neg hdrop, List.append_nil]
  · simp [Spelling.text, Spelling.pointed, Spelling.marked, natural_ne_nil]
  · rfl

lemma Layout.render_starts (layout : Layout) (x : FiniteFloat) : StartsNumber (layout.render x) := by
  rw [Layout.render_eq]
  split_ifs
  · exact ⟨'-', _, rfl, .inl rfl⟩
  · obtain ⟨c, rest, h, hc⟩ := (layout.spelling_digital (shortest layout.tie x)).text_cons
    exact ⟨c, rest, h, .inr hc⟩

lemma Layout.render_chars {layout : Layout} {x : FiniteFloat} {c : Char}
    (h : c ∈ layout.render x) : isNumberChar c := by
  rw [Layout.render_eq] at h
  rcases List.mem_append.mp h with h | h
  · split_ifs at h
    · obtain rfl := List.mem_singleton.mp h
      decide
    · simp at h
  · exact (layout.spelling_digital _).text_chars h

end SealedScript.Decimal
