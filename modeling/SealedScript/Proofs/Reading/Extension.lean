import SealedScript.Proofs.Reading.Yields

/-! What readers make of a longer text. A reader looks at most one character past what it takes, so as long
as something is left over, more text behind it changes nothing; and a reader that stops at a closing mark does
not even look that far. -/

namespace SealedScript.Json.Read

variable {α β : Type} {read : Read α}

/-- What is left over ends the text, and if that is not nothing, more text only makes it longer. A number
at the very end, though, may go on in a longer text. -/
structure Steady (read : Read α) : Prop where
  suffix : ∀ {text value rest}, read text = .ok (value, rest) → rest <:+ text
  append : ∀ {text value rest}, read text = .ok (value, rest) → rest ≠ [] →
    ∀ more, read (text ++ more) = .ok (value, rest ++ more)

/-- The reader needs some text, and knows where to stop whatever comes behind. -/
structure Closed (read : Read α) : Prop where
  ne_nil : ∀ {text value rest}, read text = .ok (value, rest) → text ≠ []
  suffix : ∀ {text value rest}, read text = .ok (value, rest) → rest <:+ text
  append : ∀ {text value rest}, read text = .ok (value, rest) →
    ∀ more, read (text ++ more) = .ok (value, rest ++ more)

lemma Closed.steady (h : Closed read) : Steady read :=
  ⟨h.suffix, fun hread _ => h.append hread⟩

/-- A reader that refuses every text. -/
lemma Yields.closed (h : Yields read fun _ => False) : Closed read :=
  ⟨fun hread => (h _ _ _ hread).elim, fun hread => (h _ _ _ hread).elim, fun hread => (h _ _ _ hread).elim⟩

lemma steady_throw (fault : Fault) : Steady (throw fault : Read α) :=
  (yields_throw fault).closed.steady

lemma steady_pure (a : α) : Steady (pure a) := by
  constructor
  · intro text value rest h
    cases h
    exact List.suffix_refl text
  · intro text value rest h _ more
    cases h
    rfl

lemma steady_lift (outcome : Except Fault α) : Steady (liftM outcome : Read α) := by
  cases outcome with
  | error fault => exact steady_throw fault
  | ok a => exact steady_pure a

lemma steady_ite {c : Prop} [Decidable c] {thenRead elseRead : Read α} (hthen : Steady thenRead)
    (helse : Steady elseRead) : Steady (if c then thenRead else elseRead) := by
  split_ifs
  · exact hthen
  · exact helse

section Sequence

variable {next : α → Read β}

lemma Steady.bind (h : Steady read) (hnext : ∀ a, Steady (next a)) : Steady (read >>= next) := by
  constructor
  · intro text value rest hread
    obtain ⟨⟨a, middle⟩, hfirst, hsecond⟩ := Except.bind_eq_ok_iff.mp hread
    exact ((hnext a).suffix hsecond).trans (h.suffix hfirst)
  · intro text value rest hread hrest more
    obtain ⟨⟨a, middle⟩, hfirst, hsecond⟩ := Except.bind_eq_ok_iff.mp hread
    have hmiddle : middle ≠ [] := ((hnext a).suffix hsecond).ne_nil hrest
    rw [bind_run, h.append hfirst hmiddle more]
    exact (hnext a).append hsecond hrest more

lemma Steady.map (h : Steady read) (f : α → β) : Steady (f <$> read) :=
  h.bind fun a => steady_pure (f a)

/-- What comes before a closing mark is never at the end of the text. -/
lemma Steady.bind_closed (h : Steady read) (hnext : ∀ a, Closed (next a)) : Closed (read >>= next) := by
  constructor
  · intro text value rest hread
    obtain ⟨⟨a, middle⟩, hfirst, hsecond⟩ := Except.bind_eq_ok_iff.mp hread
    exact (h.suffix hfirst).ne_nil ((hnext a).ne_nil hsecond)
  · intro text value rest hread
    obtain ⟨⟨a, middle⟩, hfirst, hsecond⟩ := Except.bind_eq_ok_iff.mp hread
    exact ((hnext a).suffix hsecond).trans (h.suffix hfirst)
  · intro text value rest hread more
    obtain ⟨⟨a, middle⟩, hfirst, hsecond⟩ := Except.bind_eq_ok_iff.mp hread
    rw [bind_run, h.append hfirst ((hnext a).ne_nil hsecond) more]
    exact (hnext a).append hsecond more

lemma Closed.map (h : Closed read) (f : α → β) : Closed (f <$> read) := by
  constructor
  · intro text value rest hread
    obtain ⟨p, hfirst, -⟩ := Except.bind_eq_ok_iff.mp hread
    exact h.ne_nil hfirst
  · intro text value rest hread
    obtain ⟨p, hfirst, hsecond⟩ := Except.bind_eq_ok_iff.mp hread
    cases hsecond
    exact h.suffix hfirst
  · intro text value rest hread more
    obtain ⟨p, hfirst, hsecond⟩ := Except.bind_eq_ok_iff.mp hread
    cases hsecond
    rw [map_run, h.append hfirst more]
    rfl

end Sequence

section Characters

lemma steady_peek : Steady peek := by
  constructor
  · intro text value rest h
    cases h
    exact List.suffix_refl text
  · intro text value rest h hrest more
    cases h
    rw [peek_run, List.head?_append, Option.or_of_isSome (List.isSome_head?.mpr hrest)]

lemma steady_advance : Steady advance := by
  constructor
  · intro text value rest h
    cases h
    exact List.drop_suffix 1 text
  · intro text value rest h hrest more
    cases h
    cases text with
    | nil => exact absurd rfl hrest
    | cons c text => rfl

/-- Where a run of characters ends, more text does not make it longer. -/
lemma dropWhile_append_of_ne_nil {p : Char → Bool} {text : List Char} (h : text.dropWhile p ≠ [])
    (more : List Char) : (text ++ more).dropWhile p = text.dropWhile p ++ more := by
  rw [List.dropWhile_append, if_neg (by simpa using h)]

lemma takeWhile_append_of_ne_nil {p : Char → Bool} {text : List Char} (h : text.dropWhile p ≠ [])
    (more : List Char) : (text ++ more).takeWhile p = text.takeWhile p := by
  have hlong : (text ++ more).takeWhile p ++ (text.dropWhile p ++ more) = text ++ more := by
    rw [← dropWhile_append_of_ne_nil h, List.takeWhile_append_dropWhile]
  have hshort : text.takeWhile p ++ (text.dropWhile p ++ more) = text ++ more := by
    rw [← List.append_assoc, List.takeWhile_append_dropWhile]
  exact List.append_cancel_right (hlong.trans hshort.symm)

lemma steady_skipBlank : Steady skipBlank := by
  constructor
  · intro text value rest h
    cases h
    exact List.dropWhile_suffix _
  · intro text value rest h hrest more
    cases h
    change Except.ok ((), (text ++ more).dropWhile isBlank) = _
    rw [dropWhile_append_of_ne_nil hrest]

lemma steady_solid : Steady solid := by
  refine steady_skipBlank.bind fun _ => steady_peek.bind fun c => ?_
  cases c with
  | none => exact steady_throw _
  | some c => exact steady_pure c

/-- The character that is found stands first in what is left over. -/
lemma solid_rest {text rest : List Char} {c : Char} (h : solid text = .ok (c, rest)) :
    ∃ tail, rest = c :: tail := by
  rw [solid, bind_run] at h
  obtain ⟨⟨_, middle⟩, -, hpeek⟩ := Except.bind_eq_ok_iff.mp h
  cases middle with
  | nil => cases hpeek
  | cons d tail =>
    cases hpeek
    exact ⟨tail, rfl⟩

lemma steady_digits : Steady digits := by
  constructor
  · intro text value rest h
    cases h
    exact List.dropWhile_suffix _
  · intro text value rest h hrest more
    cases h
    change Except.ok ((text ++ more).takeWhile Char.isDigit, (text ++ more).dropWhile Char.isDigit) = _
    rw [dropWhile_append_of_ne_nil hrest, takeWhile_append_of_ne_nil hrest]

lemma steady_word (letters : List Char) : Steady (word letters) := by
  induction letters with
  | nil => exact steady_pure ()
  | cons c letters ih =>
    refine steady_peek.bind fun d => ?_
    cases d with
    | none => exact steady_throw _
    | some d => exact steady_ite (steady_advance.bind fun _ => ih) (steady_throw _)

/-- The mark is there, so it can be taken without a look at what comes behind. -/
lemma closed_closing (bracket : Char) : Closed (closing bracket) := by
  have hinv : ∀ {text value rest}, closing bracket text = .ok (value, rest) →
      solid text = .ok (bracket, bracket :: rest) := by
    intro text value rest h
    obtain ⟨⟨c, middle⟩, hsolid, htake⟩ := Except.bind_eq_ok_iff.mp h
    obtain ⟨tail, rfl⟩ := solid_rest hsolid
    dsimp only at htake
    split_ifs at htake with hc
    · cases htake
      exact hc ▸ hsolid
    · cases htake
  constructor
  · intro text value rest h
    exact (steady_solid.suffix (hinv h)).ne_nil (List.cons_ne_nil _ _)
  · intro text value rest h
    exact (List.suffix_cons _ _).trans (steady_solid.suffix (hinv h))
  · intro text value rest h more
    unfold closing
    rw [bind_run, steady_solid.append (hinv h) (List.cons_ne_nil _ _) more, Except.ok_bind, if_pos rfl]
    rfl

end Characters

section Loops

variable {σ : Type} {step : σ → Read (σ ⊕ α)}

lemma steady_iterate (h : ∀ s, Steady (step s)) (bound : List Char) (s : σ) :
    Steady (iterate step bound s) := by
  induction bound generalizing s with
  | nil =>
    refine (h s).bind fun result => ?_
    cases result with
    | inl => exact steady_throw _
    | inr value => exact steady_pure value
  | cons c bound ih =>
    refine (h s).bind fun result => ?_
    cases result with
    | inl s' => exact ih s'
    | inr value => exact steady_pure value

/-- A loop that ends within a bound ends in the same way within a larger one. -/
lemma iterate_append {bound text rest : List Char} {s : σ} {value : α}
    (h : iterate step bound s text = .ok (value, rest)) (more : List Char) :
    iterate step (bound ++ more) s text = .ok (value, rest) := by
  induction bound generalizing s text with
  | nil =>
    rw [iterate] at h
    obtain ⟨⟨result, middle⟩, hstep, hend⟩ := Except.bind_eq_ok_iff.mp h
    cases result with
    | inl => cases hend
    | inr =>
      cases more with
      | nil => rw [List.append_nil, iterate, bind_run, hstep]; exact hend
      | cons => rw [List.nil_append, iterate, bind_run, hstep]; exact hend
  | cons c bound ih =>
    rw [iterate] at h
    obtain ⟨⟨result, middle⟩, hstep, hend⟩ := Except.bind_eq_ok_iff.mp h
    rw [List.cons_append, iterate, bind_run, hstep]
    cases result with
    | inl => exact ih hend
    | inr => exact hend

/-- The text bounds the number of turns, and more text only allows for more of them. -/
lemma steady_loop (h : ∀ s, Steady (step s)) (s : σ) : Steady (loop step s) := by
  constructor
  · intro text value rest hread
    exact (steady_iterate h text s).suffix hread
  · intro text value rest hread hrest more
    change iterate step (text ++ more) s (text ++ more) = _
    exact iterate_append ((steady_iterate h text s).append hread hrest more) more

lemma steady_enter {depth : Nat} {body : (inner : Nat) → inner < depth → Read α}
    (h : ∀ inner hinner, Steady (body inner hinner)) : Steady (enter depth body) := by
  cases depth with
  | zero => exact steady_throw _
  | succ inner => exact steady_advance.bind fun _ => h inner _

lemma closed_enter {depth : Nat} {body : (inner : Nat) → inner < depth → Read α}
    (h : ∀ inner hinner, Closed (body inner hinner)) : Closed (enter depth body) := by
  cases depth with
  | zero => exact (yields_throw _).closed
  | succ inner => exact steady_advance.bind_closed fun _ => h inner _

end Loops

section Numbers

lemma steady_someDigits : Steady someDigits := by
  refine steady_digits.bind fun ds => steady_ite (steady_peek.bind fun c => ?_) (steady_pure ds)
  cases c with
  | none => exact steady_throw _
  | some => exact steady_throw _

lemma steady_exponentPart (significand : Nat) (places : Int) : Steady (exponentPart significand places) := by
  have hend : ∀ negative : Bool, Steady (do
      let exponent := natValue (← someDigits)
      if maxExponent < exponent then
        if significand ≠ 0 ∧ !negative then throw .malformed else return 0.0
      floatOfParts significand (if negative then places - exponent else places + exponent) :
        Read Float) := by
    intro negative
    refine steady_someDigits.bind fun ds => steady_ite ?_ (steady_lift _)
    exact steady_ite ((steady_throw _).bind fun _ => steady_lift _) (steady_pure _)
  refine steady_advance.bind fun _ => steady_peek.bind fun c => ?_
  dsimp only
  split
  · exact steady_advance.bind fun _ => (steady_pure true).bind hend
  · exact steady_advance.bind fun _ => (steady_pure false).bind hend
  · exact (steady_pure false).bind hend

lemma steady_fractionPart (significand : Nat) (places : Int) : Steady (fractionPart significand places) :=
  steady_advance.bind fun _ => steady_someDigits.bind fun _ => steady_peek.bind fun _ =>
    steady_ite (steady_exponentPart _ _) (steady_lift _)

lemma steady_leadingDigits : Steady leadingDigits := by
  refine steady_someDigits.bind fun ds => ?_
  split
  · exact steady_throw _
  · exact steady_pure _

lemma steady_numberRest (negative : Bool) : Steady (numberRest negative) :=
  steady_leadingDigits.bind fun _ => steady_peek.bind fun _ =>
    steady_ite ((steady_fractionPart _ _).map _) <|
      steady_ite ((steady_exponentPart _ _).map _) <|
        steady_ite ((steady_lift _).map _) <| steady_ite (steady_pure _) (steady_pure _)

lemma steady_skipDigits : Steady skipDigits :=
  steady_digits.bind fun _ => steady_ite ((steady_throw _).bind fun _ => steady_pure _) (steady_pure _)

lemma steady_skipNumberRest : Steady skipNumberRest := by
  have hexponent : Steady (do
      if isExponentMark (← peek) then
        advance
        if (← peek) == some '+' || (← peek) == some '-' then advance
        let _ ← skipDigits : Read Unit) := by
    have hdigits : Steady (do let _ ← skipDigits : Read Unit) :=
      steady_skipDigits.bind fun _ => steady_pure ()
    refine steady_peek.bind fun c => steady_ite (steady_advance.bind fun _ => ?_) (steady_pure ())
    refine steady_peek.bind fun c => steady_peek.bind fun d => ?_
    exact steady_ite (steady_advance.bind fun _ => hdigits) hdigits
  have hfraction : Steady (do
      if (← peek) == some '.' then
        advance
        let _ ← skipDigits
      if isExponentMark (← peek) then
        advance
        if (← peek) == some '+' || (← peek) == some '-' then advance
        let _ ← skipDigits : Read Unit) := by
    refine steady_peek.bind fun c => steady_ite (steady_advance.bind fun _ => ?_) hexponent
    exact steady_skipDigits.bind fun _ => hexponent
  refine steady_skipDigits.bind fun ds => ?_
  split
  · exact (steady_throw _).bind fun _ => hfraction
  · exact hfraction

end Numbers

section Quoted

lemma scanQuoted_append {lax : Bool} {state : QuoteState} {done text value rest : List Char}
    (h : scanQuoted lax state done text = .ok (value, rest)) :
    text ≠ [] ∧ rest <:+ text ∧
      ∀ more, scanQuoted lax state done (text ++ more) = .ok (value, rest ++ more) := by
  induction text generalizing state done with
  | nil => cases state <;> cases h
  | cons c text ih =>
    have hgo : ∀ {state' done'}, scanQuoted lax state' done' text = .ok (value, rest) →
        rest <:+ c :: text ∧
          ∀ more, scanQuoted lax state' done' (text ++ more) = .ok (value, rest ++ more) :=
      fun h => ⟨(ih h).2.1.trans (List.suffix_cons c text), (ih h).2.2⟩
    refine ⟨List.cons_ne_nil c text, ?_⟩
    cases state with
    | plain =>
      simp only [scanQuoted, List.cons_append] at h ⊢
      split_ifs at h ⊢
      · cases h
        exact ⟨List.suffix_cons c _, fun _ => rfl⟩
      · exact hgo h
      · exact hgo h
    | escape =>
      simp only [scanQuoted, List.cons_append] at h ⊢
      split_ifs at h ⊢
      · exact hgo h
      · cases hchar : unescape? c with
        | none => simp [hchar] at h
        | some d =>
          simp only [hchar] at h ⊢
          exact hgo h
    | hex high seen value =>
      simp only [scanQuoted, List.cons_append] at h ⊢
      cases hdigit : hexValue? c with
      | none => simp [hdigit] at h
      | some digit =>
        simp only [hdigit] at h ⊢
        split_ifs at h ⊢
        · exact hgo h
        · cases hafter : afterHex lax high (value * 16 + digit) with
          | error => simp [hafter] at h
          | ok found =>
            obtain ⟨d, state⟩ := found
            cases d with
            | none => simp only [hafter] at h ⊢; exact hgo h
            | some d => simp only [hafter] at h ⊢; exact hgo h
    | awaitBackslash high =>
      simp only [scanQuoted, List.cons_append] at h ⊢
      split_ifs at h ⊢
      · exact hgo h
    | awaitMark high =>
      simp only [scanQuoted, List.cons_append] at h ⊢
      split_ifs at h ⊢
      · exact hgo h

/-- A quoted string ends at its closing quote. -/
lemma closed_scanQuoted (lax : Bool) (state : QuoteState) (done : List Char) :
    Closed (scanQuoted lax state done : Read (List Char)) :=
  ⟨fun h => (scanQuoted_append h).1, fun h => (scanQuoted_append h).2.1, fun h => (scanQuoted_append h).2.2⟩

lemma steady_quotedRest : Steady quotedRest := by
  have hscan : quotedRest = String.ofList <$> (scanQuoted false .plain [] : Read (List Char)) := by
    funext text
    rw [map_run]
    unfold quotedRest
    cases scanQuoted false .plain [] text <;> rfl
  rw [hscan]
  exact (closed_scanQuoted _ _ _).steady.map _

lemma steady_skipQuotedRest : Steady skipQuotedRest := by
  have hscan : skipQuotedRest = (fun _ => ()) <$> (scanQuoted true .plain [] : Read (List Char)) := by
    funext text
    rw [map_run]
    unfold skipQuotedRest
    cases scanQuoted true .plain [] text <;> rfl
  rw [hscan]
  exact (closed_scanQuoted _ _ _).steady.map _

end Quoted

section Skipping

lemma steady_colon : Steady colon :=
  steady_solid.bind fun _ => steady_ite steady_advance (steady_throw _)

lemma steady_skipScalar : Steady skipScalar :=
  steady_solid.bind fun _ =>
    steady_ite (steady_word _) <| steady_ite (steady_word _) <| steady_ite (steady_word _) <|
      steady_ite (steady_advance.bind fun _ => steady_skipNumberRest) <|
        steady_ite steady_skipNumberRest <|
          steady_ite (steady_advance.bind fun _ => steady_skipQuotedRest) (steady_throw _)

lemma steady_skipKey (bracket : Bracket) : Steady (skipKey bracket) := by
  cases bracket with
  | list => exact steady_pure ()
  | object =>
    refine steady_solid.bind fun _ => steady_ite (steady_advance.bind fun _ => ?_) (steady_throw _)
    exact steady_skipQuotedRest.bind fun _ => steady_colon

lemma steady_skipStart (stack : List Bracket) : Steady (skipStart stack) :=
  steady_solid.bind fun _ =>
    steady_ite (steady_advance.bind fun _ => steady_pure _) <|
      steady_ite (steady_advance.bind fun _ => steady_pure _) (steady_skipScalar.bind fun _ => steady_pure _)

lemma steady_skipStep (state : SkipState) : Steady (skipStep state) := by
  cases state with
  | value stack => exact (steady_skipStart stack).map _
  | opened bracket stack =>
    have hitem : Steady (do skipKey bracket; .inl <$> skipStart (bracket :: stack) :
        Read (SkipState ⊕ Unit)) :=
      (steady_skipKey bracket).bind fun _ => (steady_skipStart _).map _
    exact steady_solid.bind fun _ => steady_ite (steady_advance.bind fun _ => steady_pure _) hitem
  | after stack =>
    cases stack with
    | nil => exact steady_pure _
    | cons bracket stack =>
      refine steady_solid.bind fun _ => steady_ite (steady_advance.bind fun _ => ?_) <|
        steady_ite (steady_advance.bind fun _ => steady_pure _) (steady_throw _)
      exact (steady_skipKey bracket).bind fun _ => (steady_skipStart _).map _

/-- A value that is passed over may be a number, so it need not be closed. -/
lemma steady_skipValue : Steady skipValue :=
  steady_loop steady_skipStep _

end Skipping

section Shapes

lemma closed_unexpected : Closed (unexpected : Read α) :=
  yields_unexpected.closed

lemma steady_null : Steady null :=
  steady_solid.bind fun _ => steady_ite (steady_word _) closed_unexpected.steady

lemma steady_boolean : Steady boolean :=
  steady_solid.bind fun _ =>
    steady_ite ((steady_word _).bind fun _ => steady_pure true) <|
      steady_ite ((steady_word _).bind fun _ => steady_pure false) closed_unexpected.steady

lemma steady_text : Steady text :=
  steady_solid.bind fun _ =>
    steady_ite (steady_advance.bind fun _ => steady_quotedRest) closed_unexpected.steady

lemma steady_number : Steady number :=
  steady_solid.bind fun _ =>
    steady_ite (steady_advance.bind fun _ => steady_numberRest true) <|
      steady_ite (steady_numberRest false) closed_unexpected.steady

lemma steady_int64 : Steady int64 := by
  refine steady_number.bind fun n => ?_
  cases n with
  | int i => exact steady_ite (steady_pure _) (steady_throw _)
  | float x => exact steady_throw _

lemma steady_uint32 : Steady uint32 := by
  refine steady_number.bind fun n => ?_
  cases n with
  | int i => exact steady_ite (steady_pure _) (steady_throw _)
  | float x => exact steady_throw _

lemma steady_float : Steady float := by
  refine steady_number.bind fun n => ?_
  cases n with
  | int i => exact steady_pure _
  | float x => exact steady_pure x

lemma steady_moreItems (fresh : Bool) : Steady (moreItems fresh) :=
  steady_solid.bind fun _ =>
    steady_ite (steady_pure false) <| steady_ite (steady_pure true) <| steady_ite
      (steady_advance.bind fun _ => steady_solid.bind fun _ =>
        steady_ite ((steady_throw _).bind fun _ => steady_pure true) (steady_pure true))
      (steady_throw _)

lemma steady_moreMembers (fresh : Bool) : Steady (moreMembers fresh) :=
  steady_solid.bind fun _ =>
    steady_ite (steady_pure false) <|
      steady_ite (steady_ite (steady_pure true) (steady_throw _)) <|
        steady_ite (steady_advance.bind fun _ => steady_solid.bind fun _ =>
          steady_ite (steady_pure true) (steady_throw _)) (steady_throw _)

/-- What ends in a bracket is closed. -/
lemma Steady.closing (h : Steady read) (bracket : Char) :
    Closed (do let value ← read; closing bracket; return value) :=
  h.bind_closed fun value => (closed_closing bracket).map fun _ => value

lemma steady_list {depth : Nat} {item : (inner : Nat) → inner < depth → Read α}
    (h : ∀ inner hinner, Steady (item inner hinner)) : Steady (list depth item) := by
  refine steady_solid.bind fun _ => steady_ite (steady_enter fun inner hinner => ?_) closed_unexpected.steady
  refine (Steady.closing (steady_loop (fun done => ?_) []) ']').steady
  exact (steady_moreItems _).bind fun more =>
    steady_ite ((h inner hinner).bind fun _ => steady_pure _) (steady_pure _)

/-- Every field is read steadily, as a member or as an item. -/
structure Fields.Steady (f : Fields α) : Prop where
  member : ∀ {key slots read}, f.member key slots = some read → Read.Steady read
  items : ∀ fresh, Read.Steady (f.items fresh)

lemma Fields.one_steady (key : String) (h : Read.Steady read) (absent : Option α) :
    (one key read absent).Steady := by
  constructor
  · intro k slots read' hmember
    simp only [one] at hmember
    split_ifs at hmember
    obtain rfl := Option.some.inj hmember
    cases slots with
    | some a => exact steady_throw _
    | none => exact steady_colon.bind fun _ => h.map some
  · intro fresh
    refine (steady_moreItems fresh).bind fun more => steady_ite h ?_
    cases absent with
    | some a => exact steady_pure a
    | none => exact steady_throw _

lemma Fields.Steady.and {f : Fields α} {g : Fields β} (hf : f.Steady) (hg : g.Steady) :
    (f.and g).Steady := by
  constructor
  · rintro key ⟨s, t⟩ read hmember
    simp only [Fields.and] at hmember
    split at hmember
    · next readF hreadF =>
      obtain rfl := Option.some.inj hmember
      exact (hf.member hreadF).bind fun s' => steady_pure (s', t)
    · split at hmember
      · next readG hreadG =>
        obtain rfl := Option.some.inj hmember
        exact (hg.member hreadG).bind fun t' => steady_pure (s, t')
      · cases hmember
  · intro fresh
    exact (hf.items fresh).bind fun a => (hg.items false).bind fun b => steady_pure (a, b)

/-- Members that are no field are passed over whatever they hold. -/
lemma Fields.Steady.members {f : Fields α} (h : f.Steady) : Read.Steady f.members := by
  refine Read.Steady.bind (steady_loop ?_ _) fun slots => steady_lift _
  rintro ⟨fresh, slots⟩
  refine (steady_moreMembers fresh).bind fun more => steady_ite ?_ (steady_pure _)
  refine steady_advance.bind fun _ => steady_quotedRest.bind fun key => ?_
  split
  · next read hread => exact (h.member hread).bind fun slots => steady_pure _
  · exact steady_colon.bind fun _ => steady_skipValue.bind fun _ => steady_pure _

lemma closed_tuple {depth : Nat} {fields : (inner : Nat) → inner < depth → Fields α}
    (h : ∀ inner hinner, (fields inner hinner).Steady) : Closed (tuple depth fields) := by
  refine steady_solid.bind_closed fun c => ?_
  split_ifs
  · exact closed_enter fun inner hinner => ((h inner hinner).items true).closing ']'
  · exact closed_unexpected

/-- A record ends in a bracket, whether it is written as an object or as a list. -/
lemma closed_record {depth : Nat} {fields : (inner : Nat) → inner < depth → Fields α}
    (h : ∀ inner hinner, (fields inner hinner).Steady) : Closed (record depth fields) := by
  refine steady_solid.bind_closed fun c => ?_
  split_ifs
  · exact closed_enter fun inner hinner => (h inner hinner).members.closing '\x7d'
  · exact closed_tuple h

lemma steady_choice {depth : Nat} {bare : String → Option α}
    {holding : (inner : Nat) → inner < depth → String → Option (Read α)}
    (h : ∀ inner hinner tag, ∀ read ∈ holding inner hinner tag, Steady read) :
    Steady (choice depth bare holding) := by
  have hkey : Steady key :=
    steady_solid.bind fun _ => steady_ite (steady_advance.bind fun _ => steady_quotedRest) (steady_throw _)
  have hend : ∀ value, Steady (do closing '\x7d'; return value : Read α) :=
    fun value => (closed_closing '\x7d').steady.map fun _ => value
  refine steady_solid.bind fun c => steady_ite ?_ (steady_ite ?_ (steady_throw _))
  · refine steady_advance.bind fun _ => steady_quotedRest.bind fun tag => ?_
    split
    · exact steady_pure _
    · exact steady_throw _
  · refine steady_enter fun inner hinner => hkey.bind fun tag => ?_
    dsimp only
    split
    · exact steady_colon.bind fun _ => steady_null.bind fun _ => (steady_pure _).bind hend
    · next read _ hread => exact steady_colon.bind fun _ => (h inner hinner tag read hread).bind hend
    · exact (steady_throw _).bind hend

end Shapes

end SealedScript.Json.Read
