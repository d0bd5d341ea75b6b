import SealedScript.Host.Engine
import SealedScript.Proofs.Machine.Plain
import SealedScript.Proofs.Rendering

/-! The text of data is unambiguous. Strings are quoted and escaped, so that nothing inside one reads like
its end, and the items of a list can be told apart however deep it is. -/

namespace SealedScript

namespace Value

/-- Nothing, a truth value, an integer, a string, or a list of such. -/
inductive Discrete : Value → Prop
  | none : Discrete .none
  | bool (b : Bool) : Discrete (.bool b)
  | int (i : Int64) : Discrete (.int i)
  | str (s : String) : Discrete (.str s)
  | list {items : List Value} (h : ∀ item ∈ items, Discrete item) : Discrete (.list items)

lemma Discrete.plain {v : Value} (h : v.Discrete) : v.Plain := by
  induction h with
  | none => exact .none
  | bool b => exact .bool b
  | int i => exact .int i
  | str s => exact .str s
  | list _ ih => exact .list ih

lemma Discrete.items {items : List Value} (h : Discrete (.list items)) : ∀ item ∈ items, item.Discrete := by
  cases h with
  | list h => exact h

/-- The characters of a value's own text. -/
def chars (v : Value) : List Char :=
  v.ownText.toList

section Quotes

/-- Takes a character off the inside of a quoted string; there is none before the closing quote. -/
def unescape? : List Char → Option (Char × List Char)
  | [] => Option.none
  | c :: rest =>
    if c = '\'' then Option.none
    else if c = '\\' then
      match rest with
      | [] => Option.none
      | 'n' :: rest => some ('\n', rest)
      | 't' :: rest => some ('\t', rest)
      | 'r' :: rest => some ('\r', rest)
      | d :: rest => some (d, rest)
    else some (c, rest)

lemma unescape?_escape (c : Char) (rest : List Char) : unescape? (escape c ++ rest) = some (c, rest) := by
  unfold escape
  split_ifs with hslash hquote hn ht hr
  · subst hslash
    rfl
  · subst hquote
    rfl
  · subst hn
    rfl
  · subst ht
    rfl
  · subst hr
    rfl
  · simp [unescape?, hslash, hquote]

/-- The inside of a quoted string ends at the first quote that is not escaped. -/
lemma escaped_append_inj {s t rest rest' : List Char}
    (h : s.flatMap escape ++ '\'' :: rest = t.flatMap escape ++ '\'' :: rest') : s = t ∧ rest = rest' := by
  have hend : ∀ rest, unescape? ('\'' :: rest) = Option.none := fun _ => rfl
  induction s generalizing t with
  | nil =>
    cases t with
    | nil => exact ⟨rfl, (List.cons.inj h).2⟩
    | cons d t =>
      rw [List.flatMap_nil, List.nil_append, List.flatMap_cons, List.append_assoc] at h
      have hread := congrArg unescape? h
      rw [hend, unescape?_escape] at hread
      cases hread
  | cons c s ih =>
    rw [List.flatMap_cons, List.append_assoc] at h
    have hread := congrArg unescape? h
    cases t with
    | nil =>
      rw [List.flatMap_nil, List.nil_append, hend, unescape?_escape] at hread
      cases hread
    | cons d t =>
      rw [List.flatMap_cons, List.append_assoc, unescape?_escape, unescape?_escape] at hread
      obtain ⟨rfl, hrest⟩ := Prod.mk.inj (Option.some.inj hread)
      obtain ⟨rfl, hst⟩ := ih hrest
      exact ⟨rfl, hst⟩

lemma chars_str_append (s : String) (rest : List Char) :
    (Value.str s).chars ++ rest = '\'' :: (s.toList.flatMap escape ++ '\'' :: rest) := by
  have hchars : (Value.str s).chars = '\'' :: s.toList.flatMap escape ++ ['\''] := String.toList_ofList
  simp [hchars]

lemma str_append_inj {s t : String} {rest rest' : List Char}
    (h : (Value.str s).chars ++ rest = (Value.str t).chars ++ rest') : s = t ∧ rest = rest' := by
  rw [chars_str_append, chars_str_append] at h
  obtain ⟨hchars, hrest⟩ := escaped_append_inj (List.cons.inj h).2
  exact ⟨String.toList_inj.mp hchars, hrest⟩

end Quotes

section Lists

lemma ownTexts_eq_map (items : List Value) : ownTexts items = items.map ownText := by
  induction items with
  | nil => rfl
  | cons item items ih => rw [ownTexts, ih, List.map_cons]

/-- The items between the brackets: all but the first stand behind a comma and a blank. -/
def itemChars : List Value → List Char
  | [] => []
  | item :: rest => item.chars ++ rest.flatMap fun item => ',' :: ' ' :: item.chars

lemma toList_intercalate_ownTexts (items : List Value) :
    (", ".intercalate (ownTexts items)).toList = itemChars items := by
  rw [ownTexts_eq_map, String.toList_intercalate, List.map_map]
  induction items with
  | nil => rfl
  | cons item items ih =>
    cases items with
    | nil => simp [itemChars, chars]
    | cons second items =>
      rw [List.map_cons, List.map_cons, List.intercalate_cons_cons, ← List.map_cons, ih]
      simp [itemChars, chars]

lemma chars_list_append (items : List Value) (rest : List Char) :
    (Value.list items).chars ++ rest = '[' :: (itemChars items ++ ']' :: rest) := by
  have hchars : (Value.list items).chars = ("[" ++ ", ".intercalate (ownTexts items) ++ "]").toList := rfl
  rw [hchars, String.toList_append, String.toList_append, toList_intercalate_ownTexts]
  simp

end Lists

section Leading

/-- What stands at the start of the text of discrete data, all numbers counted as one. -/
def lead : Value → Char
  | .none => 'N'
  | .bool true => 'T'
  | .bool false => 'F'
  | .int _ => '0'
  | .str _ => '\''
  | .list _ => '['
  | _ => '<'

lemma chars_int (i : Int64) : (Value.int i).chars = Decimal.integer i.toInt :=
  String.toList_ofList

lemma Discrete.chars_cons {v : Value} (h : v.Discrete) :
    ∃ c rest, v.chars = c :: rest ∧ Json.leading c = v.lead ∧ c ≠ ']' := by
  cases h with
  | none => exact ⟨'N', _, rfl, rfl, by decide⟩
  | bool b =>
    cases b with
    | true => exact ⟨'T', _, rfl, rfl, by decide⟩
    | false => exact ⟨'F', _, rfl, rfl, by decide⟩
  | int i =>
    obtain ⟨c, rest, hchars, hc⟩ := Decimal.integer_starts i.toInt
    refine ⟨c, rest, (chars_int i).trans hchars, if_pos hc, ?_⟩
    rintro rfl
    exact absurd hc (by decide)
  | str s => exact ⟨'\'', _, (List.append_nil _).symm.trans (chars_str_append s []), rfl, by decide⟩
  | @list items _ =>
    exact ⟨'[', _, (List.append_nil _).symm.trans (chars_list_append items []), rfl, by decide⟩

lemma Discrete.lead_eq_of_append {u v : Value} (hu : u.Discrete) (hv : v.Discrete) {s t : List Char}
    (h : u.chars ++ s = v.chars ++ t) : u.lead = v.lead := by
  obtain ⟨c, rest, hchars, hc, -⟩ := hu.chars_cons
  obtain ⟨d, rest', hchars', hd, -⟩ := hv.chars_cons
  rw [hchars, hchars'] at h
  rw [← hc, ← hd, (List.cons.inj h).1]

/-- The first character tells what kind of value it is. -/
lemma Discrete.eq_of_lead {v : Value} (h : v.Discrete) :
    (v.lead = 'N' → v = .none) ∧ (∀ b, v.lead = (Value.bool b).lead → v = .bool b) ∧
      (v.lead = '0' → ∃ i, v = .int i) ∧ (v.lead = '\'' → ∃ s, v = .str s) ∧
      (v.lead = '[' → ∃ items, v = .list items) := by
  cases h with
  | bool b => cases b <;> simp [lead]
  | _ => simp [lead]

end Leading

section Reading

open Json.Read (Ends)

/-- Before whatever ends it, the text of the value is the text of no other discrete data. -/
def Reads (u : Value) : Prop :=
  ∀ {v : Value} {s t : List Char}, v.Discrete → Ends s → Ends t → u.chars ++ s = v.chars ++ t →
    u = v ∧ s = t

/-- Items that can be read one by one can be read up to the closing bracket. -/
lemma itemChars_append_inj {xs ys : List {v : Value // v.Discrete}} (hxs : ∀ x ∈ xs, x.1.Reads)
    {s t : List Char}
    (h : itemChars (xs.map Subtype.val) ++ ']' :: s = itemChars (ys.map Subtype.val) ++ ']' :: t) :
    xs.map Subtype.val = ys.map Subtype.val ∧ s = t := by
  have hcons : ∀ (x : {v : Value // v.Discrete}) xs, itemChars ((x :: xs).map Subtype.val) =
      x.1.chars ++ xs.flatMap fun x => ',' :: ([' '] ++ x.1.chars) := by
    intro x xs
    rw [List.map_cons, itemChars, List.flatMap_map]
    rfl
  have hhead : ∀ x : {v : Value // v.Discrete}, ∃ c rest, x.1.chars = c :: rest ∧ c ≠ ']' := by
    intro x
    obtain ⟨c, rest, hchars, -, hc⟩ := x.2.chars_cons
    exact ⟨c, rest, hchars, hc⟩
  have hshows : ∀ x ∈ xs, Json.Shows (fun v : {v : Value // v.Discrete} => v.1.chars) Subtype.val x :=
    fun x hx y _ _ hs ht heq => hxs x hx y.2 hs ht heq
  exact Json.Shows.bracketed [' '] (fun xs => itemChars (xs.map Subtype.val)) rfl hcons hhead (by decide)
    Json.Read.ends_bracket hshows h

lemma Discrete.reads {u : Value} (h : u.Discrete) : u.Reads := by
  induction h with
  | none =>
    intro v s t hv _ _ heq
    obtain rfl := hv.eq_of_lead.1 (Discrete.none.lead_eq_of_append hv heq).symm
    exact ⟨rfl, List.append_cancel_left heq⟩
  | bool b =>
    intro v s t hv _ _ heq
    obtain rfl := hv.eq_of_lead.2.1 b ((Discrete.bool b).lead_eq_of_append hv heq).symm
    exact ⟨rfl, List.append_cancel_left heq⟩
  | int i =>
    intro v s t hv hs ht heq
    obtain ⟨j, rfl⟩ := hv.eq_of_lead.2.2.1 ((Discrete.int i).lead_eq_of_append hv heq).symm
    rw [chars_int, chars_int] at heq
    obtain ⟨htext, hst⟩ := Json.number_append_inj (fun c hc => Decimal.integer_chars hc)
      (fun c hc => Decimal.integer_chars hc) hs ht heq
    exact ⟨by rw [Int64.toInt_inj.mp (Decimal.integer_inj htext)], hst⟩
  | str text =>
    intro v s t hv _ _ heq
    obtain ⟨text', rfl⟩ := hv.eq_of_lead.2.2.2.1 ((Discrete.str text).lead_eq_of_append hv heq).symm
    obtain ⟨rfl, hst⟩ := str_append_inj heq
    exact ⟨rfl, hst⟩
  | @list items h ih =>
    intro v s t hv _ _ heq
    obtain ⟨items', rfl⟩ := hv.eq_of_lead.2.2.2.2 ((Discrete.list h).lead_eq_of_append hv heq).symm
    rw [chars_list_append, chars_list_append] at heq
    obtain ⟨xs, rfl⟩ : ∃ xs : List {v : Value // v.Discrete}, xs.map Subtype.val = items :=
      ⟨items.attachWith _ h, List.attachWith_map_subtype_val h⟩
    obtain ⟨ys, rfl⟩ : ∃ ys : List {v : Value // v.Discrete}, ys.map Subtype.val = items' :=
      ⟨items'.attachWith _ hv.items, List.attachWith_map_subtype_val hv.items⟩
    obtain ⟨hitems, hst⟩ := itemChars_append_inj (fun x hx => ih x.1 (List.mem_map_of_mem hx))
      (List.cons.inj heq).2
    exact ⟨by rw [hitems], hst⟩

lemma Discrete.ownText_inj {u v : Value} (hu : u.Discrete) (hv : v.Discrete) (h : u.ownText = v.ownText) :
    u = v := by
  have hchars : u.chars ++ [] = v.chars ++ [] := by rw [chars, chars, h]
  exact (hu.reads hv Json.Read.ends_nil Json.Read.ends_nil hchars).1

end Reading

/-- Showing discrete data succeeds and changes nothing, and values that look alike are the same, wherever they
are shown. -/
theorem repr_unambiguous :
    (∀ u v : Value, u.Discrete → v.Discrete → ∀ engine engine' m m',
      ∃ s t, u.repr engine m = .ok s m ∧ v.repr engine' m' = .ok t m' ∧ (s = t → u = v)) ∧
    Function.Injective quote := by
  constructor
  · intro u v hu hv engine engine' m m'
    exact ⟨u.ownText, v.ownText, hu.plain.repr_eq engine m, hv.plain.repr_eq engine' m', hu.ownText_inj hv⟩
  · intro s t h
    exact Value.str.inj ((Discrete.str s).ownText_inj (.str t) h)

/-- One item that holds a quote, a comma and a quote does not look like two. -/
theorem repr_unambiguous_quoted_comma :
    (Value.list [.str "a', 'b"]).Discrete ∧ (Value.list [.str "a", .str "b"]).Discrete ∧
      ∃ s t, (Value.list [.str "a', 'b"]).repr (Host.none.engine 0) (.fresh .plain .plain .empty) =
          .ok s (.fresh .plain .plain .empty) ∧
        (Value.list [.str "a", .str "b"]).repr (Host.none.engine 0) (.fresh .plain .plain .empty) =
          .ok t (.fresh .plain .plain .empty) ∧ s ≠ t := by
  have hone : (Value.list [.str "a', 'b"]).Discrete := .list (by simp [Discrete.str])
  have htwo : (Value.list [.str "a", .str "b"]).Discrete := .list (by simp [Discrete.str])
  obtain ⟨s, t, hs, ht, heq⟩ := repr_unambiguous.1 _ _ hone htwo (Host.none.engine 0) (Host.none.engine 0)
    (.fresh .plain .plain .empty) (.fresh .plain .plain .empty)
  refine ⟨hone, htwo, s, t, hs, ht, ?_⟩
  intro hst
  have hitems := Value.list.inj (heq hst)
  simp at hitems

end Value

end SealedScript
