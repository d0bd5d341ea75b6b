import SealedScript.Proofs.Decimal.Binary64
import SealedScript.Proofs.Decimal.Spelling
import SealedScript.Proofs.Reading.Float
import SealedScript.Proofs.Reading.Shape
import SealedScript.Proofs.Syntax

/-! A compact JSON text shows all of its tree but for the floats that have no number: two trees with
the same text differ at most there. -/

namespace SealedScript

namespace Decimal

lemma integer_char {i : Int} {c : Char} (h : c ∈ integer i) : c = '-' ∨ c.isDigit := by
  unfold integer at h
  split_ifs at h
  · rcases List.mem_cons.mp h with rfl | h
    · exact .inl rfl
    · exact .inr (isDigit_natural h)
  · exact .inr (isDigit_natural h)

lemma integer_inj {i j : Int} (h : integer i = integer j) : i = j := by
  have hsign : ∀ m n, natural m ≠ '-' :: natural n := by
    intro m n hmn
    have hdigit := isDigit_natural (hmn ▸ List.mem_cons_self)
    exact absurd hdigit (by decide)
  unfold integer at h
  split_ifs at h with hi hj hj
  · have habs := natural_inj (List.cons.inj h).2
    omega
  · exact absurd h.symm (hsign _ _)
  · exact absurd h (hsign _ _)
  · have habs := natural_inj h
    omega

end Decimal

namespace Json

open Decimal (FloatClass FiniteFloat StartsNumber isNumberChar)
open Read (Ends)

mutual

/-- The tree as its text shows it: a float without a number is a null. -/
def shown : Json → Json
  | .float x => if x.isFinite then .float x else .null
  | .arr items => .arr (shownItems items)
  | .obj members => .obj (shownMembers members)
  | other => other

def shownItems : List Json → List Json
  | [] => []
  | item :: rest => item.shown :: shownItems rest

def shownMembers : List (String × Json) → List (String × Json)
  | [] => []
  | (key, value) :: rest => (key, value.shown) :: shownMembers rest

end

section Numbers

lemma floatText_of_isFinite {x : Float} (h : x.isFinite = true) :
    ∃ parts : FiniteFloat, FloatClass.ofFloat x = .finite parts ∧ parts.Canonical ∧
      floatText x = numberLayout.render parts := by
  obtain ⟨parts, hparts⟩ := FloatClass.isFinite_iff.mp h
  exact ⟨parts, hparts, FloatClass.canonical_of_ofBits hparts, by simp [floatText, hparts]⟩

lemma floatText_of_not_isFinite {x : Float} (h : ¬ x.isFinite = true) : floatText x = "null".toList := by
  unfold floatText
  split
  · next parts hparts => exact absurd (FloatClass.isFinite_iff.mpr ⟨parts, hparts⟩) h
  · rfl

/-- A float always shows a point or an exponent, so it never reads like an integer. -/
lemma integer_ne_floatText {x : Float} (h : x.isFinite = true) (i : Int) :
    Decimal.integer i ≠ floatText x := by
  obtain ⟨parts, -, -, htext⟩ := floatText_of_isFinite h
  have hmark : '.' ∈ floatText x ∨ 'e' ∈ floatText x := by
    rw [htext, Decimal.Layout.render_eq]
    rcases Read.spelling_shows_float (Decimal.shortest numberLayout.tie parts) with hpoint | hmark
    · left
      simp [Decimal.Spelling.text, Decimal.Spelling.pointed, hpoint]
    · right
      obtain ⟨exponent, hexponent⟩ := Option.ne_none_iff_exists'.mp hmark
      simp [Decimal.Spelling.text, Decimal.Spelling.marked, hexponent]
  intro heq
  rw [← heq] at hmark
  rcases hmark with hmark | hmark
  · exact absurd (Decimal.integer_char hmark) (by decide)
  · exact absurd (Decimal.integer_char hmark) (by decide)

lemma floatText_inj {x y : Float} (hx : x.isFinite = true) (hy : y.isFinite = true)
    (h : floatText x = floatText y) : x = y := by
  obtain ⟨parts, hparts, hcanonical, htext⟩ := floatText_of_isFinite hx
  obtain ⟨parts', hparts', hcanonical', htext'⟩ := floatText_of_isFinite hy
  rw [htext, htext'] at h
  obtain rfl := numberLayout.render_inj hcanonical hcanonical' h
  exact FloatClass.ofFloat_inj hparts hparts'

/-- Numbers end where the character after them is no part of a number. -/
lemma number_append_inj {a b s t : List Char} (ha : ∀ c ∈ a, isNumberChar c)
    (hb : ∀ c ∈ b, isNumberChar c) (hs : Ends s) (ht : Ends t) (h : a ++ s = b ++ t) :
    a = b ∧ s = t := by
  have hends : ∀ {rest}, Ends rest → rest.takeWhile isNumberChar = [] := by
    intro rest hrest
    cases rest with
    | nil => rfl
    | cons c rest => rcases hrest c rfl with rfl | rfl | rfl <;> rfl
  have htake : ∀ {text rest}, (∀ c ∈ text, isNumberChar c) → Ends rest →
      (text ++ rest).takeWhile isNumberChar = text := by
    intro text rest htext hrest
    rw [List.takeWhile_append_of_pos htext, hends hrest, List.append_nil]
  have hsame : a = b := by
    have hwhole := congrArg (List.takeWhile isNumberChar) h
    rwa [htake ha hs, htake hb ht] at hwhole
  subst hsame
  exact ⟨rfl, List.append_cancel_left h⟩

end Numbers

section Leading

/-- The character a text starts with, all numbers counted as one. -/
def leading (c : Char) : Char :=
  if c = '-' ∨ c.isDigit then '0' else c

/-- What stands at the start of the tree's text. -/
def lead : Json → Char
  | .null => 'n'
  | .bool true => 't'
  | .bool false => 'f'
  | .int _ => '0'
  | .float x => if x.isFinite then '0' else 'n'
  | .str _ => '"'
  | .arr _ => '['
  | .obj _ => '\x7b'

lemma render_lead (tree : Json) : tree.render.head?.map leading = some tree.lead := by
  have hnumber : ∀ {text}, StartsNumber text → text.head?.map leading = some '0' := by
    rintro text ⟨c, rest, rfl, hc⟩
    simp [leading, hc]
  cases tree with
  | null => rfl
  | bool b => cases b <;> rfl
  | int i => exact hnumber (Decimal.integer_starts i)
  | float x =>
    by_cases hx : x.isFinite = true
    · obtain ⟨parts, -, -, htext⟩ := floatText_of_isFinite hx
      rw [render, htext, lead, if_pos hx]
      exact hnumber (Decimal.Layout.render_starts _ _)
    · rw [render, floatText_of_not_isFinite hx, lead, if_neg hx]
      rfl
  | str s => rfl
  | arr items => rfl
  | obj members => rfl

lemma lead_eq_of_append {a b : Json} {s t : List Char} (h : a.render ++ s = b.render ++ t) :
    a.lead = b.lead := by
  have hhead : ∀ (tree : Json) (rest : List Char),
      (tree.render ++ rest).head?.map leading = some tree.lead := by
    intro tree rest
    obtain ⟨c, tail, hrender, -⟩ := render_cons tree
    rw [← render_lead tree, hrender]
    rfl
  have hsame := hhead a s
  rw [h, hhead b t] at hsame
  exact (Option.some.inj hsame).symm

end Leading

section Separated

variable {α β : Type} {text : α → List Char} {view : α → β} {close : Char} {s t : List Char}

/-- Before whatever ends it, the text of `x` is the text of nothing that looks different. -/
def Shows (text : α → List Char) (view : α → β) (x : α) : Prop :=
  ∀ {y s t}, Ends s → Ends t → text x ++ s = text y ++ t → view x = view y ∧ s = t

/-- Values behind a comma each can be told apart up to the closing bracket. -/
lemma Shows.flatMap {xs ys : List α} (hx : ∀ x ∈ xs, Shows text view x) (hcomma : close ≠ ',')
    (hclose : ∀ rest, Ends (close :: rest))
    (h : (xs.flatMap fun x => ',' :: text x) ++ close :: s =
      (ys.flatMap fun y => ',' :: text y) ++ close :: t) :
    xs.map view = ys.map view ∧ s = t := by
  have hends : ∀ (zs : List α) rest, Ends ((zs.flatMap fun z => ',' :: text z) ++ close :: rest) := by
    intro zs rest
    cases zs with
    | nil => exact hclose rest
    | cons z zs => exact Read.ends_comma _
  induction xs generalizing ys with
  | nil =>
    cases ys with
    | nil => exact ⟨rfl, by simpa using h⟩
    | cons y ys => exact absurd (List.cons.inj h).1 hcomma
  | cons x xs ih =>
    cases ys with
    | nil => exact absurd (List.cons.inj h).1.symm hcomma
    | cons y ys =>
      rw [List.forall_mem_cons] at hx
      simp only [List.flatMap_cons, List.cons_append, List.append_assoc, List.cons.injEq,
        true_and] at h
      obtain ⟨hview, hrest⟩ := hx.1 (hends xs s) (hends ys t) h
      obtain ⟨hmap, hst⟩ := ih hx.2 hrest
      exact ⟨by simp [hview, hmap], hst⟩

/-- A list in brackets shows what its values show; there may be a gap behind each comma. -/
lemma Shows.bracketed (gap : List Char) (body : List α → List Char) (hnil : body [] = [])
    (hcons : ∀ x xs, body (x :: xs) = text x ++ xs.flatMap fun x => ',' :: (gap ++ text x))
    (hhead : ∀ x, ∃ c rest, text x = c :: rest ∧ c ≠ close) (hcomma : close ≠ ',')
    (hclose : ∀ rest, Ends (close :: rest)) {xs ys : List α} (hx : ∀ x ∈ xs, Shows text view x)
    (h : body xs ++ close :: s = body ys ++ close :: t) : xs.map view = ys.map view ∧ s = t := by
  have hopen : ∀ y (rest rest' : List Char), close :: rest' ≠ text y ++ rest := by
    intro y rest rest' heq
    obtain ⟨c, tail, htext, hc⟩ := hhead y
    rw [htext] at heq
    exact hc (List.cons.inj heq).1.symm
  cases xs with
  | nil =>
    cases ys with
    | nil => exact ⟨rfl, by simpa [hnil] using h⟩
    | cons y ys =>
      rw [hnil, List.nil_append, hcons, List.append_assoc] at h
      exact absurd h (hopen y _ _)
  | cons x xs =>
    cases ys with
    | nil =>
      rw [hnil, List.nil_append, hcons, List.append_assoc] at h
      exact absurd h.symm (hopen x _ _)
    | cons y ys =>
      have hbehind : ∀ z ∈ x :: xs, Shows (fun x => gap ++ text x) view z := by
        intro z hz y s t hs ht heq
        rw [List.append_assoc, List.append_assoc] at heq
        exact hx z hz hs ht (List.append_cancel_left heq)
      -- a comma and a gap put before both sides make the first value one of those behind a comma
      refine Shows.flatMap hbehind hcomma hclose ?_
      rw [hcons, hcons] at h
      simpa using h

end Separated

section Inverse

lemma shownItems_eq_map (items : List Json) : shownItems items = items.map shown := by
  induction items with
  | nil => rfl
  | cons item items ih => rw [shownItems, ih, List.map_cons]

lemma shownMembers_eq_map (members : List (String × Json)) :
    shownMembers members = members.map fun member => (member.1, member.2.shown) := by
  induction members with
  | nil => rfl
  | cons member members ih => rw [shownMembers, ih, List.map_cons]

lemma renderMember_shows {member : String × Json} (h : Shows render shown member.2) :
    Shows renderMember (fun member => (member.1, member.2.shown)) member := by
  intro other s t hs ht heq
  simp only [renderMember, List.append_assoc, List.cons_append] at heq
  obtain ⟨hkey, hvalue⟩ := Read.quoted_append_inj heq
  obtain ⟨hshown, hst⟩ := h hs ht (List.cons.inj hvalue).2
  exact ⟨by simp [hkey, hshown], hst⟩

lemma null_of_lead {b : Json} (h : b.lead = 'n') : b.shown = .null ∧ b.render = "null".toList := by
  cases b with
  | null => exact ⟨rfl, rfl⟩
  | float x =>
    have hx : ¬ x.isFinite = true := by
      intro hx
      simp [lead, hx] at h
    exact ⟨by rw [shown, if_neg hx], floatText_of_not_isFinite hx⟩
  | bool b => cases b <;> simp [lead] at h
  | _ => simp [lead] at h

lemma number_of_lead {b : Json} (h : b.lead = '0') :
    b.shown = b ∧ (∀ c ∈ b.render, isNumberChar c) ∧
      ((∃ i, b = .int i) ∨ ∃ x, x.isFinite = true ∧ b = .float x) := by
  cases b with
  | int i => exact ⟨rfl, fun c hc => Decimal.integer_chars hc, .inl ⟨i, rfl⟩⟩
  | float x =>
    have hx : x.isFinite = true := by
      by_contra hx
      simp [lead, hx] at h
    obtain ⟨parts, -, -, htext⟩ := floatText_of_isFinite hx
    refine ⟨by rw [shown, if_pos hx], ?_, .inr ⟨x, hx, rfl⟩⟩
    intro c hc
    rw [render, htext] at hc
    exact Decimal.Layout.render_chars hc
  | bool b => cases b <;> simp [lead] at h
  | _ => simp [lead] at h

/-- Two numbers that are written alike are the same. -/
lemma number_shows {a : Json} (ha : a.lead = '0') : Shows render shown a := by
  intro b s t hs ht h
  have hb : b.lead = '0' := (lead_eq_of_append h).symm.trans ha
  obtain ⟨hshown, hchars, hkind⟩ := number_of_lead ha
  obtain ⟨hshown', hchars', hkind'⟩ := number_of_lead hb
  obtain ⟨htext, hst⟩ := number_append_inj hchars hchars' hs ht h
  refine ⟨?_, hst⟩
  rw [hshown, hshown']
  rcases hkind with ⟨i, rfl⟩ | ⟨x, hx, rfl⟩
  · rcases hkind' with ⟨j, rfl⟩ | ⟨y, hy, rfl⟩
    · rw [Decimal.integer_inj htext]
    · exact absurd htext (integer_ne_floatText hy i)
  · rcases hkind' with ⟨j, rfl⟩ | ⟨y, hy, rfl⟩
    · exact absurd htext.symm (integer_ne_floatText hx j)
    · rw [floatText_inj hx hy htext]

lemma null_shows {a : Json} (ha : a.lead = 'n') : Shows render shown a := by
  intro b s t hs ht h
  obtain ⟨hshown, hrender⟩ := null_of_lead ha
  obtain ⟨hshown', hrender'⟩ := null_of_lead ((lead_eq_of_append h).symm.trans ha)
  rw [hrender, hrender'] at h
  exact ⟨hshown.trans hshown'.symm, List.append_cancel_left h⟩

/-- The other trees are told apart by how their texts start. -/
lemma eq_of_lead (b : Json) :
    (b.lead = 't' → b = .bool true) ∧ (b.lead = 'f' → b = .bool false) ∧
      (b.lead = '"' → ∃ s, b = .str s) ∧ (b.lead = '[' → ∃ items, b = .arr items) ∧
      (b.lead = '\x7b' → ∃ members, b = .obj members) := by
  cases b with
  | bool v => cases v <;> simp [lead]
  | float x => by_cases hx : x.isFinite = true <;> simp [lead, hx]
  | _ => simp [lead]

/-- A text shows all of its tree. -/
lemma render_shows (tree : Json) : Shows render shown tree := by
  induction tree with
  | null => exact null_shows rfl
  | int i => exact number_shows rfl
  | float x =>
    by_cases hx : x.isFinite = true
    · exact number_shows (by simp [lead, hx])
    · exact null_shows (by simp [lead, hx])
  | bool v =>
    intro b s t hs ht h
    obtain ⟨htrue, hfalse, -⟩ := eq_of_lead b
    have hb : b = .bool v := by
      cases v with
      | true => exact htrue (lead_eq_of_append h).symm
      | false => exact hfalse (lead_eq_of_append h).symm
    subst hb
    exact ⟨rfl, List.append_cancel_left h⟩
  | str text =>
    intro b s t hs ht h
    obtain ⟨-, -, hstr, -⟩ := eq_of_lead b
    obtain ⟨text', rfl⟩ := hstr (lead_eq_of_append h).symm
    obtain ⟨hsame, hst⟩ := Read.quoted_append_inj h
    exact ⟨by rw [hsame], hst⟩
  | arr items ih =>
    intro b s t hs ht h
    obtain ⟨-, -, -, harr, -⟩ := eq_of_lead b
    obtain ⟨items', rfl⟩ := harr (lead_eq_of_append h).symm
    have hbody : renderItems items ++ ']' :: s = renderItems items' ++ ']' :: t := by
      simpa [render] using h
    have hhead : ∀ item : Json, ∃ c rest, item.render = c :: rest ∧ c ≠ ']' := by
      intro item
      obtain ⟨c, rest, hrender, -, hc⟩ := render_cons item
      exact ⟨c, rest, hrender, hc⟩
    obtain ⟨hitems, hst⟩ := Shows.bracketed [] renderItems rfl renderItems_cons hhead (by decide)
      Read.ends_bracket ih hbody
    refine ⟨?_, hst⟩
    rw [shown, shown, shownItems_eq_map, shownItems_eq_map, hitems]
  | obj members ih =>
    intro b s t hs ht h
    obtain ⟨-, -, -, -, hobj⟩ := eq_of_lead b
    obtain ⟨members', rfl⟩ := hobj (lead_eq_of_append h).symm
    have hbody : renderMembers members ++ '\x7d' :: s = renderMembers members' ++ '\x7d' :: t := by
      simpa [render] using h
    have hhead : ∀ member, ∃ c rest, renderMember member = c :: rest ∧ c ≠ '\x7d' :=
      fun member => ⟨'"', _, rfl, by decide⟩
    obtain ⟨hmembers, hst⟩ := Shows.bracketed [] renderMembers rfl renderMembers_cons hhead
      (by decide) Read.ends_brace (fun member hmember => renderMember_shows (ih member hmember)) hbody
    refine ⟨?_, hst⟩
    rw [shown, shown, shownMembers_eq_map, shownMembers_eq_map, hmembers]

/-- Trees with the same text show the same. -/
theorem shown_eq_of_toText_eq {a b : Json} (h : a.toText = b.toText) : a.shown = b.shown := by
  have hrender : a.render ++ [] = b.render ++ [] := by
    rw [String.ofList_inj.mp h]
  exact (render_shows a Read.ends_nil Read.ends_nil hrender).1

end Inverse

end Json

end SealedScript
