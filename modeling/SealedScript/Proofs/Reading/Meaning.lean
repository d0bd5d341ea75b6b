import Mathlib.Data.List.Forall2
import SealedScript.Proofs.Reading.Passing
import SealedScript.Proofs.Reading.Shape
import SealedScript.Proofs.Reading.Yields

/-! What readers make of a tree. A reader of values looks at the tree only: at neither its layout nor the order
of the members, and a field that may be left out may also be written with its default. -/

namespace SealedScript

section Except

variable {ε α β : Type}

@[simp] lemma Except.toOption_ok (a : α) : (Except.ok a : Except ε α).toOption = some a := rfl

@[simp] lemma Except.toOption_error (e : ε) : (Except.error e : Except ε α).toOption = none := rfl

@[simp] lemma Except.toOption_bind (x : Except ε α) (k : α → Except ε β) :
    (x >>= k).toOption = x.toOption.bind fun a => (k a).toOption := by
  cases x <;> rfl

lemma Except.toOption_eq_some_iff {x : Except ε α} {a : α} : x.toOption = some a ↔ x = .ok a := by
  cases x with
  | error e => exact iff_of_false (by rintro ⟨⟩) (by rintro ⟨⟩)
  | ok b => exact ⟨fun h => congrArg _ (Option.some.inj h), fun h => by rw [h]; rfl⟩

lemma Except.toOption_eq_none_iff {x : Except ε α} : x.toOption = none ↔ ∃ e, x = .error e := by
  cases x with
  | error e => exact ⟨fun _ => ⟨e, rfl⟩, fun _ => rfl⟩
  | ok b => exact iff_of_false (by rintro ⟨⟩) (by rintro ⟨e, ⟨⟩⟩)

end Except

namespace Json

section Trees

/-- A field that may be left out of the objects that have the owner among their keys. -/
structure Default where
  owner : String
  key : String
  value : Node

/-- The tree changes in one place, in a way that no reader should notice. -/
inductive Node.Rewrites (defaults : List Default) : Node → Node → Prop
  | item {node node' : Node} (before after : List Node) (h : node.Rewrites defaults node') :
    Rewrites defaults (.arr (before ++ node :: after)) (.arr (before ++ node' :: after))
  | member {node node' : Node} (key : Reading String) (before after : List (Reading String × Node))
      (h : node.Rewrites defaults node') :
    Rewrites defaults (.obj (before ++ (key, node) :: after)) (.obj (before ++ (key, node') :: after))
  | reordered {members members' : List (Reading String × Node)} (h : members.Perm members') :
    Rewrites defaults (.obj members) (.obj members')
  | defaulted {members : List (Reading String × Node)} {default : Default} (hdefault : default ∈ defaults)
      (howner : .known default.owner ∈ members.map Prod.fst)
      (hlacks : .known default.key ∉ members.map Prod.fst) :
    Rewrites defaults (.obj members) (.obj (members ++ [(.known default.key, default.value)]))

/-- The trees differ in the order of members and in defaults only. -/
def Node.Alike (defaults : List Default) : Node → Node → Prop :=
  Relation.EqvGen (Node.Rewrites defaults)

namespace Node

variable {α : Type}

def null? : Node → Option Unit
  | .null => some ()
  | _ => none

def bool? : Node → Option Bool
  | .bool b => some b
  | _ => none

def number? : Node → Option Read.Number
  | .number n => n.known?
  | _ => none

def text? : Node → Option String
  | .str s => s.known?
  | _ => none

/-- A list or an object, each with a meaning of its own. -/
def container? (list : List Node → Option α) (object : List (Reading String × Node) → Option α) :
    Node → Option α
  | .arr items => list items
  | .obj members => object members
  | _ => none

end Node

end Trees

namespace Read

variable {α β : Type} {defaults : List Default}

/-- The reader makes of every text what the meaning is of its tree, and trees that are alike mean the same. -/
structure Means (defaults : List Default) (read : Read α) (meaning : Node → Option α) : Prop where
  reads : ∀ {node text rest}, Spelled (.value node) text rest →
    (read text).toOption = (meaning node).map (·, rest)
  alike : ∀ {node node'}, node.Rewrites defaults node' → meaning node = meaning node'

def Lawful (defaults : List Default) (read : Read α) : Prop :=
  ∃ meaning, Means defaults read meaning

section Sequence

variable {read : Read α} {meaning : Node → Option α}

lemma Means.ok (h : Means defaults read meaning) {node : Node} {text rest : List Char}
    (htext : Spelled (.value node) text rest) {a : α} (ha : meaning node = some a) :
    read text = .ok (a, rest) := by
  rw [← Except.toOption_eq_some_iff, h.reads htext, ha]
  rfl

lemma Means.error (h : Means defaults read meaning) {node : Node} {text rest : List Char}
    (htext : Spelled (.value node) text rest) (hnone : meaning node = none) :
    ∃ fault, read text = .error fault := by
  rw [← Except.toOption_eq_none_iff, h.reads htext, hnone]
  rfl

lemma Means.eq_of_alike (h : Means defaults read meaning) {node node' : Node} (halike : node.Alike defaults node') :
    meaning node = meaning node' := by
  induction halike with
  | rel node node' hstep => exact h.alike hstep
  | refl node => rfl
  | symm node node' _ ih => exact ih.symm
  | trans node node' node'' _ _ ih ih' => exact ih.trans ih'

/-- A whole text means what its tree means. -/
lemma Means.parse (h : Means defaults read meaning) {text : String} {node : Node} (htext : Denotes text node) :
    (parse read text).toOption = meaning node := by
  obtain ⟨rest, hvalue, hgap⟩ := htext
  have hblank : (rest.dropWhile isBlank).isEmpty = true := by
    rw [hgap.dropWhile_eq]
    rfl
  unfold Read.parse
  rw [Except.toOption_bind, h.reads hvalue]
  cases meaning node with
  | none => rfl
  | some a =>
    rw [Option.map_some, Option.bind_some]
    dsimp only
    rw [if_pos hblank]
    rfl

lemma Yields.toOption_eq_none (h : Yields read fun _ => False) (text : List Char) :
    (read text).toOption = none := by
  cases hread : read text with
  | error fault => rfl
  | ok p => exact (h text p.1 p.2 hread).elim

/-- A reader that refuses every text. -/
lemma Yields.lawful (h : Yields read fun _ => False) : Lawful defaults read :=
  ⟨fun _ => none, fun _ => h.toOption_eq_none _, fun _ => rfl⟩

/-- The value is turned into another one, or refused, without a look at the text. -/
lemma Lawful.bind (h : Lawful defaults read) {next : α → Read β}
    (hnext : ∀ a text, (next a text).toOption = ((next a []).toOption.map Prod.fst).map (·, text)) :
    Lawful defaults (read >>= next) := by
  obtain ⟨meaning, h⟩ := h
  refine ⟨fun node => (meaning node).bind fun a => (next a []).toOption.map Prod.fst, ?_, ?_⟩
  · intro node text rest htext
    rw [bind_run, Except.toOption_bind, h.reads htext]
    cases meaning node with
    | none => rfl
    | some a => exact hnext a rest
  · intro node node' hstep
    rw [h.alike hstep]

lemma Lawful.map (h : Lawful defaults read) (f : α → β) : Lawful defaults (f <$> read) := by
  change Lawful defaults (read >>= fun a => pure (f a))
  exact h.bind fun _ _ => rfl

end Sequence

section Scalars

/-- The first character of a value may be enough to refuse it. -/
lemma refused_of_leads {next : Char → Read α} {node : Node} (hnext : ∀ c, node.Leads c → next c = unexpected)
    {text rest : List Char} (h : Spelled (.value node) text rest) :
    ((solid >>= next) text).toOption = none := by
  obtain ⟨c, tail, hgap, -, hlead⟩ := h.token
  rw [bind_run, hgap.solid hlead.not_blank, Except.ok_bind, hnext c hlead]
  exact yields_unexpected.toOption_eq_none _

lemma refused_of_lead {read : Read α} {node : Node} {c : Char} (hc : ¬ node.Leads c) {text rest : List Char}
    (h : Spelled (.value node) text rest) :
    ((do if (← solid) = c then read else unexpected) text).toOption = none := by
  refine refused_of_leads (fun d hd => if_neg ?_) h
  rintro rfl
  exact hc hd

lemma lawful_null : Lawful defaults null := by
  refine ⟨Node.null?, ?_, ?_⟩
  · intro node text rest h
    cases node with
    | null =>
      cases h with
      | value hgap htoken =>
        cases htoken
        have hsolid : solid text = .ok ('n', "null".toList ++ rest) := Gap.solid hgap (by decide)
        unfold null
        rw [bind_run, hsolid, Except.ok_bind, if_pos rfl, word_run]
        rfl
    | bool | number | str | arr | obj => exact refused_of_lead (by simp [Node.Leads]) h
  · intro node node' hstep
    cases hstep <;> rfl

lemma lawful_boolean : Lawful defaults boolean := by
  refine ⟨Node.bool?, ?_, ?_⟩
  · intro node text rest h
    cases node with
    | bool b =>
      cases h with
      | value hgap htoken =>
        cases htoken
        have hsame : boolean text = boolean ((if b then "true" else "false").toList ++ rest) := by
          unfold boolean
          rw [bind_run, bind_run, hgap.solid_eq]
        rw [hsame, boolean_run]
        rfl
    | null | number | str | arr | obj =>
      refine refused_of_leads (fun c hc => ?_) h
      have htrue : c ≠ 't' := by rintro rfl; simp [Node.Leads] at hc
      have hfalse : c ≠ 'f' := by rintro rfl; simp [Node.Leads] at hc
      rw [if_neg htrue, if_neg hfalse]
  · intro node node' hstep
    cases hstep <;> rfl

lemma lawful_text : Lawful defaults text := by
  refine ⟨Node.text?, ?_, ?_⟩
  · intro node t rest h
    cases node with
    | str s =>
      cases h with
      | value hgap htoken =>
        cases htoken with
        | str hraw =>
          unfold text
          rw [bind_run, hgap.solid (by decide), Except.ok_bind, if_pos rfl, bind_run, advance_run, Except.ok_bind]
          exact quotedRest_toOption hraw rest
    | bool | null | number | arr | obj => exact refused_of_lead (by simp [Node.Leads]) h
  · intro node node' hstep
    cases hstep <;> rfl

lemma lawful_number : Lawful defaults number := by
  refine ⟨Node.number?, ?_, ?_⟩
  · intro node text rest h
    cases node with
    | number n =>
      cases h with
      | value hgap htoken =>
        cases htoken with
        | number n hstops =>
          have hsame : number text = number (n.text ++ rest) := by
            unfold number
            rw [bind_run, bind_run, hgap.solid_eq]
          rw [hsame, (number_text n).toOption_append hstops, Node.number?, Numeral.reading, Reading.known?_of]
    | bool =>
      refine refused_of_leads (fun c hc => ?_) h
      rcases hc with rfl | rfl <;> rfl
    | null | str | arr | obj =>
      refine refused_of_leads (fun c hc => ?_) h
      cases hc
      rfl
  · intro node node' hstep
    cases hstep <;> rfl

lemma lawful_int64 : Lawful defaults int64 := by
  refine lawful_number.bind fun n text => ?_
  cases n with
  | int i => dsimp only; split_ifs <;> rfl
  | float x => rfl

lemma lawful_uint32 : Lawful defaults uint32 := by
  refine lawful_number.bind fun n text => ?_
  cases n with
  | int i => dsimp only; split_ifs <;> rfl
  | float x => rfl

lemma lawful_float : Lawful defaults float := by
  refine lawful_number.bind fun n text => ?_
  cases n with
  | int i => rfl
  | float x => rfl

end Scalars

section Lists

/-- No item follows. -/
lemma moreItems_end {fresh : Bool} {text rest : List Char} (h : Spelled (.items fresh []) text rest) :
    moreItems fresh text = .ok (false, ']' :: rest) := by
  cases h with
  | noItems hgap =>
    unfold moreItems
    rw [bind_run, hgap.solid (by decide)]
    rfl

/-- Another item follows, without the comma and the white space in front of it. -/
lemma moreItems_more {fresh : Bool} {item : Node} {items : List Node} {text rest : List Char}
    (h : Spelled (.items fresh (item :: items)) text rest) :
    ∃ token middle, moreItems fresh text = .ok (true, token) ∧ Spelled (.value item) token middle ∧
      Spelled (.items false items) middle rest ∧ middle.length < text.length := by
  cases h with
  | firstItem hitem hrest =>
    obtain ⟨c, tail, hgap, htoken, hlead⟩ := hitem.token
    refine ⟨c :: tail, _, ?_, .value (.none _) htoken, hrest, hitem.length_lt⟩
    unfold moreItems
    rw [bind_run, hgap.solid hlead.not_blank, Except.ok_bind, if_neg hlead.ne_bracket]
    rfl
  | nextItem hcomma hitem hrest =>
    obtain ⟨c, tail, hgap, htoken, hlead⟩ := hitem.token
    refine ⟨c :: tail, _, ?_, .value (.none _) htoken, hrest,
      Nat.lt_of_lt_of_le (Nat.lt_succ_of_lt hitem.length_lt) hcomma.length_le⟩
    unfold moreItems
    rw [bind_run, hcomma.solid (by decide), Except.ok_bind]
    change (do
      advance
      if (← solid) = ']' then throw .malformed
      return true : Read Bool) _ = _
    rw [bind_run, advance_run, Except.ok_bind, bind_run, hgap.solid hlead.not_blank, Except.ok_bind,
      if_neg hlead.ne_bracket]
    rfl

lemma Means.iterate_itemTurn {item : Read α} {meaning : Node → Option α} (h : Means defaults item meaning)
    {items : List Node} {done : List α} {bound text rest : List Char} (hbound : text.length ≤ bound.length)
    (htext : Spelled (.items done.isEmpty items) text rest) :
    (iterate (itemTurn item) bound done text).toOption =
      (items.mapM meaning).map fun values => (done.reverse ++ values, ']' :: rest) := by
  induction items generalizing bound done text with
  | nil =>
    have hturn : itemTurn item done text = .ok (.inr done.reverse, ']' :: rest) := by
      unfold itemTurn
      rw [bind_run, moreItems_end htext]
      rfl
    cases bound with
    | nil => rw [iterate, bind_run, hturn]; simp
    | cons b bound => rw [iterate, bind_run, hturn]; simp
  | cons node items ih =>
    obtain ⟨token, middle, hmore, hnode, hrest, hlt⟩ := moreItems_more htext
    cases bound with
    | nil => exact absurd (Nat.lt_of_lt_of_le hlt hbound) (Nat.not_lt_zero _)
    | cons b bound =>
      rw [iterate, bind_run, itemTurn, bind_run, hmore, Except.ok_bind, if_pos rfl, bind_run, List.mapM_cons]
      cases hvalue : meaning node with
      | none =>
        obtain ⟨fault, hfault⟩ := h.error hnode hvalue
        rw [hfault]
        rfl
      | some value =>
        rw [h.ok hnode hvalue]
        have hle : middle.length ≤ bound.length := Nat.le_of_lt_succ (Nat.lt_of_lt_of_le hlt hbound)
        have hnext : Spelled (.items (value :: done).isEmpty items) middle rest := hrest
        refine (ih hle hnext).trans ?_
        cases items.mapM meaning with
        | none => rfl
        | some values => simp

lemma lawful_list {depth : Nat} {item : (inner : Nat) → inner < depth → Read α}
    (h : ∀ inner hinner, Lawful defaults (item inner hinner)) : Lawful defaults (list depth item) := by
  cases depth with
  | zero =>
    have hnever : Yields (list 0 item) fun values => 0 < 0 ∧ ∀ value ∈ values, True :=
      yields_list fun _ _ => yields_true _
    exact (hnever.mono fun values hvalues => absurd hvalues.1 (Nat.lt_irrefl 0)).lawful
  | succ depth =>
    obtain ⟨meaning, h⟩ := h depth (Nat.lt_succ_self depth)
    refine ⟨Node.container? (fun items => items.mapM meaning) fun _ => none, ?_, ?_⟩
    · intro node text rest htext
      cases node with
      | arr items =>
        cases htext with
        | value hgap htoken =>
          cases htoken with
          | arr hitems =>
            unfold list
            rw [bind_run, hgap.solid (by decide), Except.ok_bind, if_pos rfl, enter_run, bind_run]
            have hstart : Spelled (.items (List.isEmpty ([] : List α)) items) _ rest := hitems
            have hloop := h.iterate_itemTurn (Nat.le_refl _) hstart
            refine (Except.toOption_bind _ _).trans ((congrArg (Option.bind · _) hloop).trans ?_)
            rw [Node.container?]
            cases items.mapM meaning with
            | none => rfl
            | some values => simp [closing_run ']' (by decide)]
      | bool | null | number | str | obj => exact refused_of_lead (by simp [Node.Leads]) htext
    · intro node node' hstep
      cases hstep with
      | item before after hnode =>
        change List.mapM meaning _ = List.mapM meaning _
        rw [List.mapM_append, List.mapM_append, List.mapM_cons, List.mapM_cons, h.alike hnode]
      | member | reordered | defaulted => rfl

end Lists

end Read

end Json

end SealedScript
