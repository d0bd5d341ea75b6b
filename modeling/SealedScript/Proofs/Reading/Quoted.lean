import SealedScript.Proofs.Reading.Outcome

/-! Strings are read back as they were written, whatever follows the closing quote. -/

namespace SealedScript.Json.Read

lemma hexValue?_digitChar {n : Nat} (h : n < 16) : hexValue? (Nat.digitChar n) = some n := by
  have hall : ∀ k < 16, hexValue? (Nat.digitChar k) = some k := by decide
  exact hall n h

/-- A control character written by its number: two zeros and the two digits of the number. -/
lemma scanQuoted_number {c : Char} (h : c.toNat < 32) (done rest : List Char) :
    scanQuoted false (.hex none 0 0) done
        ('0' :: '0' :: Nat.digitChar (c.toNat / 16) :: Nat.digitChar (c.toNat % 16) :: rest) =
      scanQuoted false .plain (c :: done) rest := by
  have hzero : hexValue? '0' = some 0 := by decide
  have hhigh : hexValue? (Nat.digitChar (c.toNat / 16)) = some (c.toNat / 16) :=
    hexValue?_digitChar (by omega)
  have hlow : hexValue? (Nat.digitChar (c.toNat % 16)) = some (c.toNat % 16) :=
    hexValue?_digitChar (by omega)
  have hsum : (c.toNat / 16) * 16 + c.toNat % 16 = c.toNat := by omega
  have hnotLow : isLowSurrogate c.toNat = false := by simp [isLowSurrogate]; omega
  have hnotHigh : isHighSurrogate c.toNat = false := by simp [isHighSurrogate]; omega
  simp [scanQuoted, hzero, hhigh, hlow, hsum, afterHex, hnotLow, hnotHigh, Char.ofNat_toNat]

/-- What is written for a character is read as that character. -/
lemma scanQuoted_escape (c : Char) (done rest : List Char) :
    scanQuoted false .plain done (escape c ++ rest) = scanQuoted false .plain (c :: done) rest := by
  unfold escape
  split_ifs with hquote hslash hn hr ht hb hf hcontrol
  · subst hquote
    rfl
  · subst hslash
    rfl
  · subst hn
    rfl
  · subst hr
    rfl
  · subst ht
    rfl
  · obtain rfl : c = '\x08' := Char.toNat_inj.mp hb
    rfl
  · obtain rfl : c = '\x0c' := Char.toNat_inj.mp hf
    rfl
  · have hstart : ∀ tail, scanQuoted false .plain done ('\\' :: 'u' :: tail) =
        scanQuoted false (.hex none 0 0) done tail := fun _ => rfl
    rw [List.cons_append, List.cons_append, hstart]
    exact scanQuoted_number hcontrol done rest
  · simp [scanQuoted, hquote, hslash, hcontrol]

lemma scanQuoted_escaped (chars done rest : List Char) :
    scanQuoted false .plain done (chars.flatMap escape ++ '"' :: rest) =
      .ok (done.reverse ++ chars, rest) := by
  induction chars generalizing done with
  | nil => simp [scanQuoted]
  | cons c chars ih =>
    rw [List.flatMap_cons, List.append_assoc, scanQuoted_escape, ih]
    simp

/-- The opening quote taken, the string comes back and what follows it is left over. -/
lemma quotedRest_run (s : String) (rest : List Char) :
    quotedRest (s.toList.flatMap escape ++ '"' :: rest) = .ok (s, rest) := by
  unfold quotedRest
  rw [scanQuoted_escaped]
  simp

lemma quoted_append (s : String) (rest : List Char) :
    quoted s ++ rest = '"' :: (s.toList.flatMap escape ++ '"' :: rest) := by
  simp [quoted]

lemma text_gives (s : String) : Gives text (render (.str s)) (.ok s) := by
  intro rest _
  rw [render, quoted_append]
  simp [text, solid_run, isBlank, quotedRest_run]

/-- The key of a member comes back, and the colon behind it is left over. -/
lemma key_run (s : String) (rest : List Char) : key (quoted s ++ rest) = .ok (s, rest) := by
  rw [quoted_append]
  simp [key, solid_run, isBlank, quotedRest_run]

lemma colon_run (rest : List Char) : colon (':' :: rest) = .ok ((), rest) := by
  simp [colon, solid_run, isBlank]

/-- Two written strings with anything behind them agree only in the string and in the rest. -/
lemma quoted_append_inj {s t : String} {rest rest' : List Char}
    (h : quoted s ++ rest = quoted t ++ rest') : s = t ∧ rest = rest' := by
  have hread := congrArg key h
  rw [key_run, key_run] at hread
  simpa using hread

end SealedScript.Json.Read
