import Mathlib.Logic.Relation
import SealedScript.Proofs.Reading.Tokens

/-! Passing over a value. Whatever its shape and depth, exactly the rest is left over. -/

namespace SealedScript.Json

section Texts

lemma Gap.length_le {text rest : List Char} (h : Gap text rest) : rest.length ≤ text.length := by
  induction h with
  | none text => exact Nat.le_refl _
  | blank hc h ih => exact Nat.le_succ_of_le ih

lemma Gap.dropWhile_eq {text rest : List Char} (h : Gap text rest) :
    text.dropWhile Read.isBlank = rest.dropWhile Read.isBlank := by
  induction h with
  | none text => rfl
  | blank hc h ih => rw [List.dropWhile_cons_of_pos hc, ih]

lemma Gap.solid_eq {text rest : List Char} (h : Gap text rest) : Read.solid text = Read.solid rest := by
  have hskip : Read.skipBlank text = Read.skipBlank rest := by
    change Except.ok ((), text.dropWhile Read.isBlank) = Except.ok ((), rest.dropWhile Read.isBlank)
    rw [h.dropWhile_eq]
  rw [Read.solid, Read.bind_run, Read.bind_run, hskip]

/-- After white space the next character is found. -/
lemma Gap.solid {text rest : List Char} {c : Char} (h : Gap text (c :: rest))
    (hc : Read.isBlank c = false) : Read.solid text = .ok (c, c :: rest) := by
  rw [h.solid_eq, Read.solid_run hc]

/-- The characters a value may start with. -/
def Node.Leads : Node → Char → Prop
  | .null, c => c = 'n'
  | .bool _, c => c = 't' ∨ c = 'f'
  | .number _, c => c = '-' ∨ c.isDigit
  | .str _, c => c = '"'
  | .arr _, c => c = '['
  | .obj _, c => c = '\x7b'

lemma Node.Leads.not_blank {node : Node} {c : Char} (h : node.Leads c) : Read.isBlank c = false := by
  cases node with
  | null => cases h; decide
  | bool b => rcases h with rfl | rfl <;> decide
  | number n =>
    rcases h with rfl | hc
    · decide
    · exact Read.isBlank_of_isDigit hc
  | str s => cases h; decide
  | arr items => cases h; decide
  | obj members => cases h; decide

lemma Node.Leads.ne_bracket {node : Node} {c : Char} (h : node.Leads c) : c ≠ ']' := by
  rintro rfl
  cases node <;> simp [Node.Leads] at h

lemma Numeral.leads (n : Numeral) : ∃ c tail, n.text = c :: tail ∧ (Node.number n.reading).Leads c := by
  unfold Numeral.text
  split_ifs
  · exact ⟨'-', n.unsigned, rfl, .inl rfl⟩
  · obtain ⟨c, ds, hds⟩ := List.exists_cons_of_ne_nil n.whole_ne_nil
    refine ⟨c, ds ++ (n.pointed ++ n.marked), ?_, .inr (n.whole_isDigit c (by simp [hds]))⟩
    rw [Numeral.unsigned, hds, List.cons_append]

lemma Spelled.leads {node : Node} {token rest : List Char} (h : Spelled (.token node) token rest) :
    ∃ c tail, token = c :: tail ∧ node.Leads c := by
  cases h with
  | null => exact ⟨'n', _, rfl, rfl⟩
  | bool b => cases b with
    | false => exact ⟨'f', _, rfl, .inr rfl⟩
    | true => exact ⟨'t', _, rfl, .inl rfl⟩
  | number n hstops =>
    obtain ⟨c, tail, htext, hc⟩ := n.leads
    exact ⟨c, tail ++ rest, by rw [htext, List.cons_append], hc⟩
  | str hraw => exact ⟨'"', _, rfl, rfl⟩
  | arr h => exact ⟨'[', _, rfl, rfl⟩
  | obj h => exact ⟨'\x7b', _, rfl, rfl⟩

/-- The first character of a value stands behind the white space. -/
lemma Spelled.token {node : Node} {text rest : List Char} (h : Spelled (.value node) text rest) :
    ∃ c tail, Gap text (c :: tail) ∧ Spelled (.token node) (c :: tail) rest ∧ node.Leads c := by
  cases h with
  | value hgap htoken =>
    obtain ⟨c, tail, rfl, hc⟩ := htoken.leads
    exact ⟨c, tail, hgap, htoken, hc⟩

lemma Spelled.quote {member : Reading String × Node} {text rest : List Char}
    (h : Spelled (.member member) text rest) : ∃ tail, Gap text ('"' :: tail) := by
  cases h with
  | member hgap => exact ⟨_, hgap⟩

lemma Gap.length_value_lt {raw text behind value : List Char} (hgap : Gap text ('"' :: (raw ++ '"' :: behind)))
    (hcolon : Gap behind (':' :: value)) : value.length < text.length := by
  have hquote := hgap.length_le
  have hmark := hcolon.length_le
  simp only [List.length_cons, List.length_append] at hquote hmark
  omega

lemma Spelled.length_lt {part : Part} {text rest : List Char} (h : Spelled part text rest) :
    rest.length < text.length := by
  induction h with
  | null =>
    rw [List.length_append]
    exact Nat.lt_add_of_pos_left (by decide)
  | bool b =>
    rw [List.length_append]
    cases b with
    | false => exact Nat.lt_add_of_pos_left (by decide)
    | true => exact Nat.lt_add_of_pos_left (by decide)
  | number n hstops =>
    obtain ⟨c, tail, htext, -⟩ := n.leads
    rw [htext, List.length_append, List.length_cons]
    omega
  | str hraw =>
    rw [List.length_cons, List.length_append, List.length_cons]
    omega
  | arr h ih => exact Nat.lt_succ_of_lt ih
  | obj h ih => exact Nat.lt_succ_of_lt ih
  | value hgap h ih => exact Nat.lt_of_lt_of_le ih hgap.length_le
  | noItems hgap => exact hgap.length_le
  | firstItem hitem hrest ihitem ihrest => exact Nat.lt_trans ihrest ihitem
  | nextItem hgap hitem hrest ihitem ihrest =>
    exact Nat.lt_of_lt_of_le (Nat.lt_succ_of_lt (Nat.lt_trans ihrest ihitem)) hgap.length_le
  | member hgap hraw hcolon hvalue ih => exact Nat.lt_trans ih (hgap.length_value_lt hcolon)
  | noMembers hgap => exact hgap.length_le
  | firstMember hmember hrest ihmember ihrest => exact Nat.lt_trans ihrest ihmember
  | nextMember hgap hmember hrest ihmember ihrest =>
    exact Nat.lt_of_lt_of_le (Nat.lt_succ_of_lt (Nat.lt_trans ihrest ihmember)) hgap.length_le

end Texts

namespace Read

section Passing

/-- The reader goes on to a shorter text. -/
def Pass (p q : SkipState × List Char) : Prop :=
  skipStep p.1 p.2 = .ok (.inl q.1, q.2) ∧ q.2.length < p.2.length

/-- Each turn takes a character, so the bound is never reached. -/
lemma iterate_of_passes {p q : SkipState × List Char} (h : Relation.ReflTransGen Pass p q)
    {bound : List Char} (hbound : p.2.length ≤ bound.length) :
    ∃ bound', iterate skipStep bound p.1 p.2 = iterate skipStep bound' q.1 q.2 := by
  induction h using Relation.ReflTransGen.head_induction_on generalizing bound with
  | refl => exact ⟨bound, rfl⟩
  | @head p r hpass hrest ih =>
    obtain ⟨hstep, hlt⟩ := hpass
    cases bound with
    | nil => exact absurd (Nat.lt_of_lt_of_le hlt hbound) (Nat.not_lt_zero _)
    | cons c bound =>
      have hle : r.2.length ≤ bound.length := Nat.le_of_lt_succ (Nat.lt_of_lt_of_le hlt hbound)
      obtain ⟨bound', hrun⟩ := ih hle
      refine ⟨bound', ?_⟩
      rw [iterate, bind_run, hstep, Except.ok_bind]
      exact hrun

lemma iterate_after (bound text : List Char) : iterate skipStep bound (.after []) text = .ok ((), text) := by
  cases bound <;> rfl

/-- The reader starts on a value and then passes over it, up to the rest. -/
def Starts (read : Read SkipState) (stack : List Bracket) (text rest : List Char) : Prop :=
  ∃ s middle, read text = .ok (s, middle) ∧ middle.length < text.length ∧
    Relation.ReflTransGen Pass (s, middle) (.after stack, rest)

/-- What the reader does with a part of the text. -/
def Part.Passed : Part → List Char → List Char → Prop
  | .token _, text, rest => ∀ stack, Starts (skipStart stack) stack text rest
  | .value _, text, rest => ∀ stack, Starts (skipStart stack) stack text rest
  | .items fresh _, text, rest => ∀ stack,
    Relation.ReflTransGen Pass (if fresh then .opened .list stack else .after (.list :: stack), text)
      (.after stack, rest)
  | .member _, text, rest => ∀ stack, Starts (do skipKey .object; skipStart stack) stack text rest
  | .members fresh _, text, rest => ∀ stack,
    Relation.ReflTransGen Pass (if fresh then .opened .object stack else .after (.object :: stack), text)
      (.after stack, rest)

lemma skipScalar_null (rest : List Char) : skipScalar ("null".toList ++ rest) = .ok ((), rest) := by
  have hsolid : solid ("null".toList ++ rest) = .ok ('n', "null".toList ++ rest) := solid_run (by decide) _
  unfold skipScalar
  rw [bind_run, hsolid, Except.ok_bind, if_pos rfl, word_run]

lemma skipScalar_bool (b : Bool) (rest : List Char) :
    skipScalar ((if b then "true" else "false").toList ++ rest) = .ok ((), rest) := by
  cases b with
  | false =>
    have hsolid : solid ("false".toList ++ rest) = .ok ('f', "false".toList ++ rest) :=
      solid_run (by decide) _
    change skipScalar ("false".toList ++ rest) = _
    unfold skipScalar
    rw [bind_run, hsolid]
    exact word_run "false".toList rest
  | true =>
    have hsolid : solid ("true".toList ++ rest) = .ok ('t', "true".toList ++ rest) :=
      solid_run (by decide) _
    change skipScalar ("true".toList ++ rest) = _
    unfold skipScalar
    rw [bind_run, hsolid]
    exact word_run "true".toList rest

lemma skipScalar_number (n : Numeral) {rest : List Char} (hrest : Stops rest) :
    skipScalar (n.text ++ rest) = .ok ((), rest) := by
  have hrun := settles_skipNumberRest n rest hrest
  unfold Numeral.text
  split_ifs
  · unfold skipScalar
    rw [List.cons_append, bind_run, solid_run (by decide)]
    exact hrun
  · obtain ⟨c, ds, hds⟩ := List.exists_cons_of_ne_nil n.whole_ne_nil
    have hc : c.isDigit := n.whole_isDigit c (by simp [hds])
    have hne : ∀ d, d.isDigit = false → c ≠ d := by
      rintro d hd rfl
      rw [hc] at hd
      cases hd
    rw [Numeral.unsigned, hds, List.cons_append, List.cons_append] at hrun ⊢
    unfold skipScalar
    rw [bind_run, solid_run (isBlank_of_isDigit hc), Except.ok_bind, if_neg (hne 'n' (by decide)),
      if_neg (hne 't' (by decide)), if_neg (hne 'f' (by decide)), if_neg (hne '-' (by decide)), if_pos hc]
    exact hrun

lemma skipScalar_str {raw : List Char} (hraw : Quotable raw) (rest : List Char) :
    skipScalar ('"' :: (raw ++ '"' :: rest)) = .ok ((), rest) := by
  unfold skipScalar
  rw [bind_run, solid_run (by decide)]
  exact skipQuotedRest_run hraw rest

/-- A value without brackets is passed over at once. -/
lemma starts_scalar {node : Node} {token rest : List Char} (h : Spelled (.token node) token rest)
    (hrun : skipScalar token = .ok ((), rest)) (harr : ¬ node.Leads '[') (hobj : ¬ node.Leads '\x7b')
    (stack : List Bracket) : Starts (skipStart stack) stack token rest := by
  obtain ⟨c, tail, rfl, hlead⟩ := h.leads
  refine ⟨.after stack, rest, ?_, h.length_lt, .refl⟩
  have hlist : c ≠ '[' := by rintro rfl; exact harr hlead
  have hobject : c ≠ '\x7b' := by rintro rfl; exact hobj hlead
  unfold skipStart
  rw [bind_run, solid_run hlead.not_blank, Except.ok_bind, if_neg hlist, if_neg hobject, bind_run, hrun]
  rfl

lemma colon_gap {text value : List Char} (h : Gap text (':' :: value)) : colon text = .ok ((), value) := by
  unfold colon
  rw [bind_run, h.solid (by decide)]
  rfl

lemma skipKey_run {raw text behind value : List Char} (hgap : Gap text ('"' :: (raw ++ '"' :: behind)))
    (hraw : Quotable raw) (hcolon : Gap behind (':' :: value)) :
    skipKey .object text = .ok ((), value) := by
  rw [skipKey, bind_run, hgap.solid (by decide), Except.ok_bind, if_pos rfl, bind_run, advance_run, Except.ok_bind,
    bind_run, skipQuotedRest_run hraw, Except.ok_bind]
  exact colon_gap hcolon

/-- A bracket that closes, whatever stood in front of it. -/
lemma pass_close {bracket : Bracket} {fresh : Bool} {stack : List Bracket} {text rest : List Char}
    (hgap : Gap text (bracket.close :: rest)) :
    Pass (if fresh then .opened bracket stack else .after (bracket :: stack), text) (.after stack, rest) := by
  have hsolid : solid text = .ok (bracket.close, bracket.close :: rest) := hgap.solid (by cases bracket <;> decide)
  have hcomma : bracket.close ≠ ',' := by cases bracket <;> decide
  refine ⟨?_, hgap.length_le⟩
  cases fresh with
  | false =>
    change skipStep (.after (bracket :: stack)) text = _
    rw [skipStep, bind_run, hsolid, Except.ok_bind, if_neg hcomma, if_pos rfl]
    rfl
  | true =>
    change skipStep (.opened bracket stack) text = _
    rw [skipStep, bind_run, hsolid, Except.ok_bind, if_pos rfl]
    rfl

/-- White space in front of a value or a key changes nothing. -/
lemma start_gap {text token : List Char} (h : Gap text token) (bracket : Bracket) (stack : List Bracket) :
    (do skipKey bracket; skipStart stack : Read SkipState) text =
      (do skipKey bracket; skipStart stack : Read SkipState) token := by
  cases bracket with
  | list =>
    change skipStart stack text = skipStart stack token
    unfold skipStart
    rw [bind_run, bind_run, h.solid_eq]
  | object =>
    rw [bind_run, bind_run, skipKey, bind_run, bind_run, h.solid_eq]

lemma inl_start {bracket : Bracket} {stack : List Bracket} {text middle : List Char} {s : SkipState}
    (h : (do skipKey bracket; skipStart stack : Read SkipState) text = .ok (s, middle)) :
    (do skipKey bracket; .inl <$> skipStart stack : Read (SkipState ⊕ Unit)) text = .ok (.inl s, middle) := by
  obtain ⟨⟨_, value⟩, hkey, hstart⟩ := Except.bind_eq_ok_iff.mp h
  rw [bind_run, hkey, Except.ok_bind, map_run]
  change skipStart stack value = _ at hstart
  rw [hstart]
  rfl

/-- The first item of a list or the first member of an object. -/
lemma passes_first {bracket : Bracket} {stack : List Bracket} {text token rest : List Char} {c : Char}
    (hgap : Gap text (c :: token)) (hblank : isBlank c = false) (hc : c ≠ bracket.close)
    (h : Starts (do skipKey bracket; skipStart (bracket :: stack)) (bracket :: stack) text rest) :
    Relation.ReflTransGen Pass (.opened bracket stack, text) (.after (bracket :: stack), rest) := by
  obtain ⟨s, middle, hrun, hlt, hpasses⟩ := h
  refine .head ⟨?_, hlt⟩ hpasses
  rw [skipStep, bind_run, hgap.solid hblank, Except.ok_bind, if_neg hc]
  exact inl_start ((start_gap hgap bracket (bracket :: stack)).symm.trans hrun)

/-- Another item or member, behind a comma. -/
lemma passes_next {bracket : Bracket} {stack : List Bracket} {text behind rest : List Char}
    (hgap : Gap text (',' :: behind))
    (h : Starts (do skipKey bracket; skipStart (bracket :: stack)) (bracket :: stack) behind rest) :
    Relation.ReflTransGen Pass (.after (bracket :: stack), text) (.after (bracket :: stack), rest) := by
  obtain ⟨s, middle, hrun, hlt, hpasses⟩ := h
  refine .head ⟨?_, Nat.lt_of_lt_of_le (Nat.lt_succ_of_lt hlt) hgap.length_le⟩ hpasses
  rw [skipStep, bind_run, hgap.solid (by decide), Except.ok_bind, if_pos rfl]
  exact inl_start hrun

lemma passed_of_spelled {part : Part} {text rest : List Char} (h : Spelled part text rest) :
    Part.Passed part text rest := by
  induction h with
  | null => exact starts_scalar .null (skipScalar_null _) (by simp [Node.Leads]) (by simp [Node.Leads])
  | bool b =>
    exact starts_scalar (.bool b) (skipScalar_bool b _) (by simp [Node.Leads]) (by simp [Node.Leads])
  | number n hstops =>
    exact starts_scalar (.number n hstops) (skipScalar_number n hstops) (by simp [Node.Leads])
      (by simp [Node.Leads])
  | str hraw =>
    exact starts_scalar (.str hraw) (skipScalar_str hraw _) (by simp [Node.Leads]) (by simp [Node.Leads])
  | arr h ih => exact fun stack => ⟨.opened .list stack, _, rfl, Nat.lt_succ_self _, ih stack⟩
  | obj h ih => exact fun stack => ⟨.opened .object stack, _, rfl, Nat.lt_succ_self _, ih stack⟩
  | value hgap h ih =>
    intro stack
    obtain ⟨s, middle, hrun, hlt, hpasses⟩ := ih stack
    exact ⟨s, middle, (start_gap hgap .list stack).trans hrun, Nat.lt_of_lt_of_le hlt hgap.length_le, hpasses⟩
  | noItems hgap => exact fun stack => .single (pass_close hgap)
  | firstItem hitem hrest ihitem ihrest =>
    intro stack
    obtain ⟨c, tail, hgap, -, hlead⟩ := hitem.token
    have hc : c ≠ Bracket.list.close := hlead.ne_bracket
    exact (passes_first hgap hlead.not_blank hc (ihitem (.list :: stack))).trans (ihrest stack)
  | nextItem hgap hitem hrest ihitem ihrest =>
    intro stack
    have hstart : Starts (do skipKey .list; skipStart (.list :: stack)) (.list :: stack) _ _ :=
      ihitem (.list :: stack)
    exact (passes_next hgap hstart).trans (ihrest stack)
  | member hgap hraw hcolon hvalue ih =>
    intro stack
    obtain ⟨s, middle, hrun, hlt, hpasses⟩ := ih stack
    refine ⟨s, middle, ?_, Nat.lt_trans hlt (hgap.length_value_lt hcolon), hpasses⟩
    rw [bind_run, skipKey_run hgap hraw hcolon]
    exact hrun
  | noMembers hgap => exact fun stack => .single (pass_close hgap)
  | firstMember hmember hrest ihmember ihrest =>
    intro stack
    obtain ⟨tail, hgap⟩ := hmember.quote
    exact (passes_first hgap (by decide) (by decide) (ihmember _)).trans (ihrest stack)
  | nextMember hgap hmember hrest ihmember ihrest =>
    exact fun stack => (passes_next hgap (ihmember _)).trans (ihrest stack)

/-- Exactly the rest is left over. -/
lemma skipValue_run {node : Node} {text rest : List Char} (h : Spelled (.value node) text rest) :
    skipValue text = .ok ((), rest) := by
  obtain ⟨s, middle, hrun, hlt, hpasses⟩ := passed_of_spelled h []
  have hpass : Pass (.value [], text) (s, middle) := by
    refine ⟨?_, hlt⟩
    rw [skipStep, map_run, hrun]
    rfl
  obtain ⟨bound, hiterate⟩ := iterate_of_passes (.head hpass hpasses) (Nat.le_refl _)
  exact hiterate.trans (iterate_after bound rest)

end Passing

end Read

end SealedScript.Json
