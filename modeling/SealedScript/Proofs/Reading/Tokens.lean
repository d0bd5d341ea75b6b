import SealedScript.Proofs.Reading.Grammar
import SealedScript.Proofs.Reading.Number

/-! Numbers and strings in front of anything. What they are read as does not depend on what follows, and
passing over them always succeeds. -/

namespace SealedScript.Json

open Decimal (EndsDigits)

lemma Stops.endsDigits {rest : List Char} (h : Stops rest) : EndsDigits rest :=
  fun c hc => (h c hc).1

lemma Stops.not_point {rest : List Char} (h : Stops rest) : (rest.head? == some '.') = false := by
  cases hhead : rest.head? with
  | none => rfl
  | some c => simpa using (h c hhead).2.1

lemma Stops.not_exponentMark {rest : List Char} (h : Stops rest) : Read.isExponentMark rest.head? = false := by
  cases hhead : rest.head? with
  | none => rfl
  | some c => simpa [Read.isExponentMark] using (h c hhead).2.2

namespace Read

variable {α β : Type}

section Determined

/-- Whatever the reader makes of the text, it makes of it before any rest at which numbers stop. -/
def Settles (read : Read α) (text : List Char) (outcome : Except Fault α) : Prop :=
  ∀ rest, Stops rest → read (text ++ rest) = outcome >>= fun a => .ok (a, rest)

def Determined (read : Read α) (text : List Char) : Prop :=
  ∃ outcome, Settles read text outcome

/-- What is read of the text alone is read of it in front of the rest. -/
lemma Determined.toOption_append {read : Read α} {text : List Char} (h : Determined read text)
    {rest : List Char} (hrest : Stops rest) :
    (read (text ++ rest)).toOption = ((read text).toOption.map Prod.fst).map (·, rest) := by
  obtain ⟨outcome, h⟩ := h
  have halone := h [] stops_nil
  rw [List.append_nil] at halone
  rw [h rest hrest, halone]
  cases outcome <;> rfl

lemma determined_pure (a : α) : Determined (pure a) [] :=
  ⟨.ok a, fun _ _ => rfl⟩

lemma determined_lift (outcome : Except Fault α) : Determined (liftM outcome : Read α) [] :=
  ⟨outcome, fun rest _ => lift_run outcome rest⟩

lemma Determined.map {read : Read α} {text : List Char} (h : Determined read text) (f : α → β) :
    Determined (f <$> read) text := by
  obtain ⟨outcome, h⟩ := h
  refine ⟨f <$> outcome, fun rest hrest => ?_⟩
  rw [map_run, h rest hrest]
  cases outcome <;> rfl

lemma determined_ite {c : Prop} [Decidable c] {thenRead elseRead : Read α} {text : List Char}
    (hthen : Determined thenRead text) (helse : Determined elseRead text) :
    Determined (if c then thenRead else elseRead) text := by
  split_ifs
  · exact hthen
  · exact helse

/-- The first part of the text is read in one way only. -/
lemma Settles.bind {read : Read α} {next : α → Read β} {s t : List Char} {a : α}
    {outcome : Except Fault β} (h : ∀ rest, Stops rest → read (s ++ (t ++ rest)) = .ok (a, t ++ rest))
    (hnext : Settles (next a) t outcome) : Settles (read >>= next) (s ++ t) outcome := by
  intro rest hrest
  rw [List.append_assoc, bind_run, h rest hrest, Except.ok_bind]
  exact hnext rest hrest

lemma Determined.bind {read : Read α} {next : α → Read β} {s t : List Char} {a : α}
    (h : ∀ rest, Stops rest → read (s ++ (t ++ rest)) = .ok (a, t ++ rest))
    (hnext : Determined (next a) t) : Determined (read >>= next) (s ++ t) := by
  obtain ⟨outcome, hnext⟩ := hnext
  exact ⟨outcome, Settles.bind h hnext⟩

lemma Determined.advance {next : Unit → Read β} {text : List Char} (c : Char)
    (h : Determined (next ()) text) : Determined (advance >>= next) (c :: text) :=
  Determined.bind (s := [c]) (fun _ _ => rfl) h

lemma Determined.peek {next : Option Char → Read β} {c : Char} {text : List Char}
    (h : Determined (next (some c)) (c :: text)) : Determined (peek >>= next) (c :: text) :=
  Determined.bind (s := []) (fun _ _ => rfl) h

end Determined

section Numbers

lemma endsDigits_append {text rest : List Char} (h : EndsDigits text) (hrest : EndsDigits rest) :
    EndsDigits (text ++ rest) := by
  cases text with
  | nil => exact hrest
  | cons c text => exact h

variable (n : Numeral) (e : Exponent)

lemma endsDigits_exponent : EndsDigits e.text := by
  intro c hc
  have hmark : c = e.mark := by simpa [Exponent.text, eq_comm] using hc
  rcases e.mark_eq with h | h
  · rw [hmark, h]; decide
  · rw [hmark, h]; decide

lemma endsDigits_marked : EndsDigits n.marked := by
  unfold Numeral.marked
  cases n.exponent with
  | none => intro c hc; cases hc
  | some e => exact endsDigits_exponent e

lemma endsDigits_pointed : EndsDigits (n.pointed ++ n.marked) := by
  refine endsDigits_append ?_ (endsDigits_marked n)
  unfold Numeral.pointed
  split_ifs
  · intro c hc; cases hc
  · intro c hc
    cases hc
    decide

lemma isExponentMark_mark : isExponentMark (some e.mark) = true := by
  rcases e.mark_eq with h | h
  · rw [h]; rfl
  · rw [h]; rfl

lemma mark_ne_point : (some e.mark == some '.') = false := by
  rcases e.mark_eq with h | h
  · rw [h]; rfl
  · rw [h]; rfl

lemma determined_exponentPart (significand : Nat) (places : Int) :
    Determined (exponentPart significand places) e.text := by
  have hend : ∀ negative : Bool, Determined (do
      let exponent := natValue (← someDigits)
      if maxExponent < exponent then
        if significand ≠ 0 ∧ !negative then throw .malformed else return 0.0
      floatOfParts significand (if negative then places - exponent else places + exponent) :
        Read Float) e.digits := by
    intro negative
    rw [← List.append_nil e.digits]
    refine Determined.bind
      (fun rest hrest => someDigits_run e.digits_ne_nil e.digits_isDigit hrest.endsDigits) ?_
    refine determined_ite (determined_ite ?_ (determined_pure _)) (determined_lift _)
    exact ⟨.error .malformed, fun _ _ => rfl⟩
  refine Determined.advance _ ?_
  rcases e.sign_eq with h | h | h
  · obtain ⟨d, ds, hds⟩ := List.exists_cons_of_ne_nil e.digits_ne_nil
    have hd : d.isDigit := e.digits_isDigit d (by simp [hds])
    rw [h, List.nil_append]
    rw [hds] at hend ⊢
    refine Determined.peek ?_
    dsimp only
    split
    · next hminus => cases hminus; exact absurd hd (by decide)
    · next hplus => cases hplus; exact absurd hd (by decide)
    · exact hend false
  · rw [h]
    exact Determined.peek (Determined.advance _ (hend false))
  · rw [h]
    exact Determined.peek (Determined.advance _ (hend true))

/-- Where a number may go on with an exponent, there is one or the number stops. -/
lemma determined_marked {next : Option Char → Read α}
    (hmark : ∀ e : Exponent, Determined (next (some e.mark)) e.text)
    (hnext : ∀ c, (c == some '.') = false → isExponentMark c = false → next c = next none)
    (hstop : Determined (next none) []) : Determined (peek >>= next) n.marked := by
  unfold Numeral.marked
  cases n.exponent with
  | none =>
    obtain ⟨outcome, hstop⟩ := hstop
    refine ⟨outcome, fun rest hrest => ?_⟩
    change next rest.head? rest = _
    rw [hnext _ hrest.not_point hrest.not_exponentMark]
    exact hstop rest hrest
  | some e => exact Determined.peek (hmark e)

lemma determined_fractionPart (hfraction : n.fraction ≠ []) (significand : Nat) (places : Int) :
    Determined (fractionPart significand places) ('.' :: n.fraction ++ n.marked) := by
  refine Determined.advance _ (Determined.bind (a := n.fraction) (fun rest hrest => ?_) ?_)
  · exact someDigits_run hfraction n.fraction_isDigit (endsDigits_append (endsDigits_marked n) hrest.endsDigits)
  refine determined_marked n (fun e => ?_) (fun c _ hc => ?_) (determined_lift _)
  · rw [if_pos (isExponentMark_mark e)]
    exact determined_exponentPart e _ _
  · rw [hc]; rfl

lemma determined_numberRest (negative : Bool) : Determined (numberRest negative) n.unsigned := by
  refine Determined.bind (a := n.whole) (fun rest hrest => ?_) ?_
  · exact leadingDigits_run n.whole_ne_nil n.whole_isDigit n.whole_zero
      (endsDigits_append (endsDigits_pointed n) hrest.endsDigits)
  by_cases hfraction : n.fraction = []
  · rw [Numeral.pointed, if_pos hfraction, List.nil_append]
    refine determined_marked n (fun e => ?_) (fun c hpoint hc => ?_) ?_
    · rw [mark_ne_point, isExponentMark_mark]
      exact (determined_exponentPart e _ _).map _
    · rw [hpoint, hc]; rfl
    · rw [if_neg (by decide), if_neg (by decide)]
      exact determined_ite ((determined_lift _).map _) (determined_ite (determined_pure _) (determined_pure _))
  · rw [Numeral.pointed, if_neg hfraction]
    exact Determined.peek ((determined_fractionPart n hfraction _ _).map _)

lemma number_text : Determined number n.text := by
  unfold Numeral.text
  obtain ⟨outcome, h⟩ := determined_numberRest n n.negative
  refine ⟨outcome, fun rest hrest => ?_⟩
  split_ifs with hnegative
  · rw [List.cons_append, number_of_minus, ← hnegative]
    exact h rest hrest
  · obtain ⟨c, ds, hds⟩ := List.exists_cons_of_ne_nil n.whole_ne_nil
    have hc : c.isDigit := n.whole_isDigit c (by simp [hds])
    have hrun := h rest hrest
    rw [Numeral.unsigned, hds, List.cons_append, List.cons_append] at hrun ⊢
    rw [number_of_digit hc, ← hrun, Bool.eq_false_iff.mpr hnegative]

/-- Digits whose value nobody asks for. -/
lemma skipDigits_run {ds rest : List Char} (hne : ds ≠ []) (hds : ∀ c ∈ ds, c.isDigit)
    (hrest : EndsDigits rest) : skipDigits (ds ++ rest) = .ok (ds, rest) := by
  unfold skipDigits
  rw [bind_run, digits_run hds hrest]
  simp [hne]

/-- A sign or none, and digits. -/
lemma settles_skipExponent : Settles (do
    advance
    if (← peek) == some '+' || (← peek) == some '-' then advance
    let _ ← skipDigits) e.text (.ok ()) := by
  intro rest hrest
  have hdigits := skipDigits_run e.digits_ne_nil e.digits_isDigit hrest.endsDigits
  rw [Exponent.text, List.cons_append, bind_run, advance_run, Except.ok_bind]
  rcases e.sign_eq with h | h | h
  · obtain ⟨d, ds, hds⟩ := List.exists_cons_of_ne_nil e.digits_ne_nil
    have hd : d.isDigit := e.digits_isDigit d (by simp [hds])
    have hplus : d ≠ '+' := by rintro rfl; exact absurd hd (by decide)
    have hminus : d ≠ '-' := by rintro rfl; exact absurd hd (by decide)
    rw [hds, List.cons_append] at hdigits
    simp [h, hds, hplus, hminus, hdigits]
  · simp [h, hdigits]
  · simp [h, hdigits]

lemma settles_skipNumberRest : Settles skipNumberRest n.unsigned (.ok ()) := by
  have hmarked : Settles (do
      if isExponentMark (← peek) then
        advance
        if (← peek) == some '+' || (← peek) == some '-' then advance
        let _ ← skipDigits) n.marked (.ok ()) := by
    intro rest hrest
    unfold Numeral.marked
    cases n.exponent with
    | none =>
      rw [bind_run, peek_run, Except.ok_bind]
      change (if isExponentMark rest.head? = true then _ else _ : Read Unit) rest = _
      rw [hrest.not_exponentMark]
      rfl
    | some e =>
      rw [bind_run, peek_run, Except.ok_bind]
      change (if isExponentMark (some e.mark) = true then _ else _ : Read Unit) (e.text ++ rest) = _
      rw [isExponentMark_mark, if_pos rfl]
      exact settles_skipExponent e rest hrest
  have hpointed : Settles (do
      if (← peek) == some '.' then
        advance
        let _ ← skipDigits
      if isExponentMark (← peek) then
        advance
        if (← peek) == some '+' || (← peek) == some '-' then advance
        let _ ← skipDigits) (n.pointed ++ n.marked) (.ok ()) := by
    intro rest hrest
    by_cases hfraction : n.fraction = []
    · have hhead : ((n.marked ++ rest).head? == some '.') = false := by
        unfold Numeral.marked
        cases n.exponent with
        | none => exact hrest.not_point
        | some e => exact mark_ne_point e
      rw [Numeral.pointed, if_pos hfraction, List.nil_append, bind_run, peek_run, Except.ok_bind]
      dsimp only
      rw [hhead]
      exact hmarked rest hrest
    · have hdigits := skipDigits_run hfraction n.fraction_isDigit
        (endsDigits_append (endsDigits_marked n) hrest.endsDigits)
      rw [Numeral.pointed, if_neg hfraction, List.append_assoc, List.cons_append, bind_run, peek_run,
        Except.ok_bind]
      dsimp only
      rw [List.head?_cons, beq_self_eq_true, if_pos rfl, bind_run, advance_run, Except.ok_bind, bind_run,
        hdigits, Except.ok_bind]
      exact hmarked rest hrest
  refine Settles.bind (a := n.whole) (fun rest hrest => ?_) ?_
  · exact skipDigits_run n.whole_ne_nil n.whole_isDigit
      (endsDigits_append (endsDigits_pointed n) hrest.endsDigits)
  dsimp only
  split
  · next second tail hwhole => exact absurd (n.whole_zero hwhole) (by simp)
  · exact hpointed

end Numbers

section Strings

lemma unescape?_ne_mark {c d : Char} (h : unescape? c = some d) : c ≠ 'u' := by
  rintro rfl
  have hnone : unescape? 'u' = none := by decide
  rw [hnone] at h
  cases h

lemma scanQuoted_unescape {lax : Bool} {c d : Char} (h : unescape? c = some d) (done rest : List Char) :
    scanQuoted lax .plain done ('\\' :: c :: rest) = scanQuoted lax .plain (d :: done) rest := by
  have hescape : scanQuoted lax .plain done ('\\' :: c :: rest) = scanQuoted lax .escape done (c :: rest) := rfl
  rw [hescape, scanQuoted, if_neg (unescape?_ne_mark h), h]

/-- Four hexadecimal digits, and what follows them. -/
lemma scanQuoted_hex {lax : Bool} {high : Option Nat} {done rest : List Char} {a b c d : Char}
    {i j k l : Nat} (ha : hexValue? a = some i) (hb : hexValue? b = some j) (hc : hexValue? c = some k)
    (hd : hexValue? d = some l) {found : Except Fault (Option Char × QuoteState)}
    (hfound : afterHex lax high ((((0 * 16 + i) * 16 + j) * 16 + k) * 16 + l) = found) :
    scanQuoted lax (.hex high 0 0) done (a :: b :: c :: d :: rest) =
      found >>= fun p => scanQuoted lax p.2 (p.1.toList ++ done) rest := by
  subst hfound
  simp only [scanQuoted, ha, hb, hc, hd]
  simp only [Nat.reduceAdd, Nat.reduceLT, if_true, if_false]
  cases afterHex lax high ((((0 * 16 + i) * 16 + j) * 16 + k) * 16 + l) with
  | error fault => rfl
  | ok p =>
    obtain ⟨d, state⟩ := p
    cases d <;> rfl

lemma afterHex_state {lax : Bool} {high : Option Nat} {n : Nat} {p : Option Char × QuoteState}
    (h : afterHex lax high n = .ok p) : p.2 = .plain ∨ ∃ first, p.2 = .awaitBackslash first := by
  cases high with
  | none =>
    rw [afterHex] at h
    split_ifs at h
    · cases h; exact .inl rfl
    · cases h; exact .inr ⟨n, rfl⟩
    · cases h; exact .inl rfl
  | some first =>
    rw [afterHex] at h
    split_ifs at h
    cases h
    exact .inl rfl

/-- Up to the closing quote, what follows it makes no difference. -/
def ScansAlone (lax : Bool) (state : QuoteState) (raw : List Char) : Prop :=
  ∀ done, ∃ outcome : Except Fault (List Char), ∀ rest,
    scanQuoted lax state done (raw ++ '"' :: rest) = outcome >>= fun s => .ok (s, rest)

lemma scansAlone_hex {high : Option Nat} {a b c d : Char} {i j k l : Nat} {raw : List Char}
    (ha : hexValue? a = some i) (hb : hexValue? b = some j) (hc : hexValue? c = some k)
    (hd : hexValue? d = some l) (hplain : ScansAlone false .plain raw)
    (hawait : ∀ high, ScansAlone false (.awaitBackslash high) raw) :
    ScansAlone false (.hex high 0 0) (a :: b :: c :: d :: raw) := by
  intro done
  cases hfound : afterHex false high ((((0 * 16 + i) * 16 + j) * 16 + k) * 16 + l) with
  | error fault => exact ⟨.error fault, fun rest => scanQuoted_hex ha hb hc hd hfound⟩
  | ok p =>
    have hstate : ScansAlone false p.2 raw := by
      rcases afterHex_state hfound with h | ⟨first, h⟩
      · exact h ▸ hplain
      · exact h ▸ hawait first
    obtain ⟨outcome, h⟩ := hstate (p.1.toList ++ done)
    exact ⟨outcome, fun rest => (scanQuoted_hex ha hb hc hd hfound).trans (h rest)⟩

/-- The first half of a pair of escapes waits for the second one, so both states go through the induction. -/
lemma scansAlone_quotable {raw : List Char} (hraw : Quotable raw) :
    ScansAlone false .plain raw ∧ ∀ high, ScansAlone false (.awaitBackslash high) raw := by
  induction hraw with
  | nil => exact ⟨fun done => ⟨.ok done.reverse, fun _ => rfl⟩, fun _ _ => ⟨.error .malformed, fun _ => rfl⟩⟩
  | @plain c raw hquote hslash hcontrol hraw ih =>
    constructor
    · intro done
      obtain ⟨outcome, h⟩ := ih.1 (c :: done)
      refine ⟨outcome, fun rest => ?_⟩
      rw [List.cons_append, scanQuoted, if_neg hquote, if_neg hslash, if_neg hcontrol]
      exact h rest
    · intro high done
      refine ⟨.error .malformed, fun rest => ?_⟩
      rw [List.cons_append, scanQuoted, if_neg hslash]
      rfl
  | @escape c d raw hc hraw ih =>
    constructor
    · intro done
      obtain ⟨outcome, h⟩ := ih.1 (d :: done)
      exact ⟨outcome, fun rest => (scanQuoted_unescape hc done _).trans (h rest)⟩
    · intro high done
      refine ⟨.error .malformed, fun rest => ?_⟩
      change scanQuoted false (.awaitMark high) done (c :: (raw ++ '"' :: rest)) = _
      rw [scanQuoted, if_neg (unescape?_ne_mark hc)]
      rfl
  | hex ha hb hc hd hraw ih =>
    exact ⟨scansAlone_hex ha hb hc hd ih.1 ih.2, fun high => scansAlone_hex ha hb hc hd ih.1 ih.2⟩

/-- A string is read in front of anything as it is read alone. -/
lemma quotedRest_toOption {raw : List Char} (hraw : Quotable raw) (rest : List Char) :
    (quotedRest (raw ++ '"' :: rest)).toOption = (quotedReading raw).known?.map (·, rest) := by
  obtain ⟨outcome, h⟩ := (scansAlone_quotable hraw).1 []
  rw [quotedReading, Reading.known?_of]
  unfold quotedRest
  rw [h rest, h []]
  cases outcome <;> rfl

lemma scanQuoted_lax {raw : List Char} (hraw : Quotable raw) (done rest : List Char) :
    ∃ s, scanQuoted true .plain done (raw ++ '"' :: rest) = .ok (s, rest) := by
  induction hraw generalizing done with
  | nil => exact ⟨done.reverse, rfl⟩
  | @plain c raw hquote hslash hcontrol hraw ih =>
    rw [List.cons_append, scanQuoted, if_neg hquote, if_neg hslash, if_neg hcontrol]
    exact ih (c :: done)
  | escape hc hraw ih =>
    rw [List.cons_append, List.cons_append, scanQuoted_unescape hc]
    exact ih _
  | hex ha hb hc hd hraw ih =>
    obtain ⟨s, hs⟩ := ih (_ :: done)
    exact ⟨s, (scanQuoted_hex ha hb hc hd rfl).trans hs⟩

lemma skipQuotedRest_run {raw : List Char} (hraw : Quotable raw) (rest : List Char) :
    skipQuotedRest (raw ++ '"' :: rest) = .ok ((), rest) := by
  obtain ⟨s, hs⟩ := scanQuoted_lax hraw [] rest
  unfold skipQuotedRest
  rw [hs]

end Strings

end Read

end SealedScript.Json
