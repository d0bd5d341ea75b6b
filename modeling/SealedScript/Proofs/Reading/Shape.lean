import SealedScript.Proofs.Reading.Number
import SealedScript.Proofs.Reading.Quoted

/-! Lists, records and choices are read back item by item. The outcome of the whole is put together
from those of the items, in the order of the text, so the first item that fails decides. -/

namespace SealedScript.Json

open Read (Gives Ends)

/-- A value starts with a character that is neither blank nor closes a list. -/
lemma render_cons (tree : Json) :
    ∃ c rest, tree.render = c :: rest ∧ Read.isBlank c = false ∧ c ≠ ']' := by
  have hnumber : ∀ text, Decimal.StartsNumber text →
      ∃ c rest, text = c :: rest ∧ Read.isBlank c = false ∧ c ≠ ']' := by
    rintro text ⟨c, rest, rfl, rfl | hc⟩
    · exact ⟨'-', rest, rfl, by decide, by decide⟩
    · refine ⟨c, rest, rfl, Read.isBlank_of_isDigit hc, ?_⟩
      rintro rfl
      exact absurd hc (by decide)
  cases tree with
  | null => exact ⟨'n', _, rfl, by decide, by decide⟩
  | bool b => cases b <;> exact ⟨_, _, rfl, by decide, by decide⟩
  | int i => exact hnumber _ (Decimal.integer_starts i)
  | float x =>
    rw [render]
    unfold floatText
    split
    · exact hnumber _ (Decimal.Layout.render_starts _ _)
    · exact ⟨'n', _, rfl, by decide, by decide⟩
  | str s => exact ⟨'"', _, rfl, by decide, by decide⟩
  | arr items => exact ⟨'[', _, rfl, by decide, by decide⟩
  | obj members => exact ⟨'\x7b', _, rfl, by decide, by decide⟩

/-- The items after the first one, each behind its comma. -/
def renderRest (items : List Json) : List Char :=
  items.flatMap fun item => ',' :: item.render

lemma renderItems_cons (item : Json) (items : List Json) :
    renderItems (item :: items) = item.render ++ renderRest items := by
  induction items generalizing item with
  | nil => simp [renderItems, renderRest]
  | cons next items ih =>
    rw [renderItems, ih]
    · simp [renderRest]
    · simp

/-- A member of an object as it stands in a text. -/
def renderMember (member : String × Json) : List Char :=
  quoted member.1 ++ ':' :: member.2.render

/-- The members after the first one, each behind its comma. -/
def renderRestMembers (members : List (String × Json)) : List Char :=
  members.flatMap fun member => ',' :: renderMember member

lemma renderMembers_cons (member : String × Json) (members : List (String × Json)) :
    renderMembers (member :: members) = renderMember member ++ renderRestMembers members := by
  induction members generalizing member with
  | nil => simp [renderMembers, renderMember, renderRestMembers]
  | cons next members ih =>
    rw [renderMembers, ih]
    · simp [renderMember, renderRestMembers]
    · simp

namespace Read

variable {α β : Type}

lemma moreItems_fresh {c : Char} (hblank : isBlank c = false) (hclose : c ≠ ']')
    (rest : List Char) : moreItems true (c :: rest) = .ok (true, c :: rest) := by
  simp [moreItems, solid_run hblank, hclose]

lemma moreItems_next {c : Char} (hblank : isBlank c = false) (hclose : c ≠ ']')
    (rest : List Char) : moreItems false (',' :: c :: rest) = .ok (true, c :: rest) := by
  simp [moreItems, solid_run (c := ',') (by decide), solid_run hblank, hclose]

lemma moreItems_closed (fresh : Bool) (rest : List Char) :
    moreItems fresh (']' :: rest) = .ok (false, ']' :: rest) := by
  simp [moreItems, solid_run (c := ']') (by decide)]

lemma closing_run (bracket : Char) (h : isBlank bracket = false) (rest : List Char) :
    closing bracket (bracket :: rest) = .ok ((), rest) := by
  simp [closing, solid_run h]

lemma renderRest_ends (items : List Json) (rest : List Char) :
    Ends (renderRest items ++ ']' :: rest) := by
  cases items with
  | nil => exact ends_bracket rest
  | cons item items => exact ends_comma _

lemma length_le_renderRest (items : List Json) : items.length ≤ (renderRest items).length := by
  induction items with
  | nil => simp
  | cons item items ih =>
    simp only [renderRest, List.flatMap_cons, List.length_cons, List.length_append] at ih ⊢
    omega

section List

variable {ξ : Type} (item : Read α) (toTree : ξ → Json) (out : ξ → Except Fault α)

/-- One turn of the loop over a list: another item, or the end. -/
def itemTurn (done : List α) : Read (List α ⊕ List α) := do
  if ← moreItems done.isEmpty then return .inl ((← item) :: done)
  else return .inr done.reverse

variable {item toTree out}

/-- The turns over the items after the first one. The bound counts turns, and every item takes at
least its comma from the text. -/
lemma iterate_itemTurn {xs : List ξ} (hitem : ∀ x ∈ xs, Gives item (toTree x).render (out x))
    {bound : List Char} (hbound : xs.length ≤ bound.length) {done : List α} (hdone : done ≠ [])
    (rest : List Char) :
    iterate (itemTurn item) bound done (renderRest (xs.map toTree) ++ ']' :: rest) =
      xs.mapM out >>= fun values => .ok (done.reverse ++ values, ']' :: rest) := by
  have hfresh : done.isEmpty = false := by simpa using hdone
  -- on the items still to come; those read are kept in reverse
  induction xs generalizing bound done with
  | nil =>
    have hturn : itemTurn item done (']' :: rest) = .ok (.inr done.reverse, ']' :: rest) := by
      simp [itemTurn, moreItems_closed]
    cases bound <;> simp [iterate, renderRest, hturn]
  | cons x xs ih =>
    obtain ⟨b, bound, rfl⟩ : ∃ b bound', bound = b :: bound' := by
      cases bound with
      | nil => simp at hbound
      | cons b bound => exact ⟨b, bound, rfl⟩
    obtain ⟨c, tail, hrender, hblank, hclose⟩ := render_cons (toTree x)
    have hx := hitem x (by simp) (renderRest (xs.map toTree) ++ ']' :: rest) (renderRest_ends _ _)
    have hturn : itemTurn item done
          (',' :: (toTree x).render ++ (renderRest (xs.map toTree) ++ ']' :: rest)) =
        out x >>= fun value =>
          .ok (.inl (value :: done), renderRest (xs.map toTree) ++ ']' :: rest) := by
      rw [hrender] at hx ⊢
      simp only [List.cons_append] at hx ⊢
      simp only [itemTurn, hfresh, bind_run, moreItems_next hblank hclose, Except.ok_bind, if_true,
        hx, bind_assoc, pure_run]
    have htext : renderRest ((x :: xs).map toTree) ++ ']' :: rest =
        ',' :: (toTree x).render ++ (renderRest (xs.map toTree) ++ ']' :: rest) := by
      simp [renderRest]
    rw [htext, iterate, bind_run, hturn, bind_assoc, List.mapM_cons]
    simp only [Except.ok_bind, bind_assoc]
    congr 1
    funext value
    rw [ih (fun y hy => hitem y (by simp [hy])) (by simpa using hbound) (by simp) (by simp)]
    simp only [List.reverse_cons, List.append_assoc, List.singleton_append]
    rfl

end List

/-- A list of any length: each item is read in turn. -/
lemma list_gives {ξ : Type} {depth : Nat} {item : (inner : Nat) → inner < depth + 1 → Read α}
    {toTree : ξ → Json} {out : ξ → Except Fault α} {xs : List ξ}
    (hitem : ∀ x ∈ xs, Gives (item depth (Nat.lt_succ_self depth)) (toTree x).render (out x)) :
    Gives (list (depth + 1) item) (Json.arr (xs.map toTree)).render (xs.mapM out) := by
  intro rest _
  have hopen : ∀ text, list (depth + 1) item ('[' :: text) =
      (loop (itemTurn (item depth (Nat.lt_succ_self depth))) [] >>= fun values =>
        closing ']' >>= fun _ => pure values) text := by
    intro text
    simp only [list, bind_run, solid_run (c := '[') (by decide), Except.ok_bind, if_true, enter_run]
    rfl
  rw [render, List.cons_append, List.cons_append, hopen]
  cases xs with
  | nil =>
    have hturn : itemTurn (item depth (Nat.lt_succ_self depth)) [] (']' :: rest) =
        .ok (.inr [], ']' :: rest) := by
      simp [itemTurn, moreItems_closed]
    simp [renderItems, loop, iterate, hturn, closing_run ']' (by decide)]
  | cons x xs =>
    obtain ⟨c, tail, hrender, hblank, hclose⟩ := render_cons (toTree x)
    have hx := hitem x (by simp) (renderRest (xs.map toTree) ++ ']' :: rest) (renderRest_ends _ _)
    have htext : renderItems ((x :: xs).map toTree) ++ [']'] ++ rest =
        c :: (tail ++ (renderRest (xs.map toTree) ++ ']' :: rest)) := by
      simp [renderItems_cons, hrender]
    rw [hrender, List.cons_append] at hx
    have hturn : itemTurn (item depth (Nat.lt_succ_self depth)) []
          (c :: (tail ++ (renderRest (xs.map toTree) ++ ']' :: rest))) =
        out x >>= fun value => .ok (.inl [value], renderRest (xs.map toTree) ++ ']' :: rest) := by
      simp only [itemTurn, List.isEmpty_nil, bind_run, moreItems_fresh hblank hclose, Except.ok_bind,
        if_true, hx, bind_assoc, pure_run]
    have hbound : xs.length ≤ (tail ++ (renderRest (xs.map toTree) ++ ']' :: rest)).length := by
      have hlength := length_le_renderRest (xs.map toTree)
      simp only [List.length_map, List.length_append] at hlength ⊢
      omega
    rw [htext, bind_run, loop, bind_run, get_run, Except.ok_bind, iterate, bind_run, hturn,
      List.mapM_cons]
    simp only [bind_assoc, Except.ok_bind]
    congr 1
    funext value
    rw [iterate_itemTurn (fun y hy => hitem y (by simp [hy])) hbound (by simp)]
    simp only [bind_assoc, Except.ok_bind, bind_run, closing_run ']' (by decide)]
    rfl

lemma moreMembers_fresh (rest : List Char) :
    moreMembers true ('"' :: rest) = .ok (true, '"' :: rest) := by
  simp [moreMembers, solid_run (c := '"') (by decide)]

lemma moreMembers_next (rest : List Char) :
    moreMembers false (',' :: '"' :: rest) = .ok (true, '"' :: rest) := by
  simp [moreMembers, solid_run (c := ',') (by decide), solid_run (c := '"') (by decide)]

lemma moreMembers_closed (fresh : Bool) (rest : List Char) :
    moreMembers fresh ('\x7d' :: rest) = .ok (false, '\x7d' :: rest) := by
  simp [moreMembers, solid_run (c := '\x7d') (by decide)]

lemma renderRestMembers_ends (members : List (String × Json)) (rest : List Char) :
    Ends (renderRestMembers members ++ '\x7d' :: rest) := by
  cases members with
  | nil => exact ends_brace rest
  | cons member members => exact ends_comma _

lemma length_le_renderRestMembers (members : List (String × Json)) :
    members.length ≤ (renderRestMembers members).length := by
  induction members with
  | nil => simp
  | cons member members ih =>
    simp only [renderRestMembers, List.flatMap_cons, List.length_cons, List.length_append] at ih ⊢
    omega

namespace Fields

/-- One turn of the loop over the members of an object: another member, or the end. -/
def memberTurn (f : Fields α) : Bool × f.Slots → Read ((Bool × f.Slots) ⊕ f.Slots) :=
  fun (fresh, slots) => do
    if ← moreMembers fresh then
      advance
      let key ← quotedRest
      match f.member key slots with
      | some read => return .inl (false, ← read)
      | .none => do
        colon
        skipValue
        return .inl (false, slots)
    else return .inr slots

/-- Members taken one after the other, each by the reader of its field; the first that fails
decides. -/
inductive Absorbs (f : Fields α) :
    f.Slots → List (String × Json) → Except Fault f.Slots → Prop
  | nil (slots : f.Slots) : Absorbs f slots [] (.ok slots)
  | cons {slots : f.Slots} {key : String} {value : Json} {members : List (String × Json)}
      {read : Read f.Slots} {outcome : Except Fault f.Slots}
      {next : f.Slots → Except Fault f.Slots} (field : f.member key slots = some read)
      (first : Gives read (':' :: value.render) outcome)
      (others : ∀ slots', outcome = .ok slots' → Absorbs f slots' members (next slots')) :
      Absorbs f slots ((key, value) :: members) (outcome >>= next)

variable {f : Fields α}

/-- A turn that finds a member reads its key and its value. -/
lemma memberTurn_run {slots : f.Slots} {key : String} {value : Json} {read : Read f.Slots}
    {outcome : Except Fault f.Slots} (field : f.member key slots = some read)
    (first : Gives read (':' :: value.render) outcome) {fresh : Bool} {text rest : List Char}
    (hrest : Ends rest)
    (hmore : moreMembers fresh text = .ok (true, renderMember (key, value) ++ rest)) :
    memberTurn f (fresh, slots) text =
      outcome >>= fun slots' => .ok (.inl (false, slots'), rest) := by
  have hquoted : renderMember (key, value) ++ rest =
      '"' :: (key.toList.flatMap escape ++ '"' :: (':' :: value.render ++ rest)) := by
    rw [renderMember, List.append_assoc, quoted_append, List.cons_append]
  simp only [memberTurn, bind_run, hmore, Except.ok_bind, if_true, hquoted, advance_run,
    quotedRest_run, field, first rest hrest, bind_assoc, pure_run]

lemma memberTurn_closed (fresh : Bool) (slots : f.Slots) (rest : List Char) :
    memberTurn f (fresh, slots) ('\x7d' :: rest) = .ok (.inr slots, '\x7d' :: rest) := by
  simp [memberTurn, moreMembers_closed]

/-- The turns over the members after the first one. -/
lemma Absorbs.iterate {slots : f.Slots} {members : List (String × Json)}
    {outcome : Except Fault f.Slots} (h : Absorbs f slots members outcome) {bound : List Char}
    (hbound : members.length ≤ bound.length) (rest : List Char) :
    Read.iterate (memberTurn f) bound (false, slots)
        (renderRestMembers members ++ '\x7d' :: rest) =
      outcome >>= fun slots' => .ok (slots', '\x7d' :: rest) := by
  induction h generalizing bound with
  | nil slots =>
    have hturn := memberTurn_closed (f := f) false slots rest
    cases bound <;> simp [Read.iterate, renderRestMembers, hturn]
  | @cons slots key value members read outcome next field first others ih =>
    obtain ⟨b, bound, rfl⟩ : ∃ b bound', bound = b :: bound' := by
      cases bound with
      | nil => simp at hbound
      | cons b bound => exact ⟨b, bound, rfl⟩
    have htext : renderRestMembers ((key, value) :: members) ++ '\x7d' :: rest =
        ',' :: (renderMember (key, value) ++ (renderRestMembers members ++ '\x7d' :: rest)) := by
      simp [renderRestMembers]
    have hmore : moreMembers false
          (',' :: (renderMember (key, value) ++ (renderRestMembers members ++ '\x7d' :: rest))) =
        .ok (true, renderMember (key, value) ++ (renderRestMembers members ++ '\x7d' :: rest)) := by
      simp only [renderMember, quoted_append]
      exact moreMembers_next _
    rw [htext, Read.iterate, bind_run,
      memberTurn_run field first (renderRestMembers_ends _ _) hmore, bind_assoc, bind_assoc]
    cases outcome with
    | error fault => rfl
    | ok slots' => exact ih slots' rfl (by simpa using hbound)

/-- All members of a record are taken, and nothing is missing at the end. -/
def Takes (f : Fields α) (members : List (String × Json)) (outcome : Except Fault α) : Prop :=
  ∃ taken, Absorbs f f.none members taken ∧
    ((∃ slots value, taken = .ok slots ∧ f.finish slots = .ok value ∧ outcome = .ok value) ∨
      ∃ fault, taken = .error fault ∧ outcome = .error fault)

lemma one_takes (key : String) {read : Read α} (absent : Option α) {value : Json}
    {outcome : Except Fault α} (h : Gives read value.render outcome) :
    (one key read absent).Takes [(key, value)] outcome := by
  have hread : Gives (do colon; some <$> read : Read (Option α)) (':' :: value.render)
      (some <$> outcome) := by
    intro rest hrest
    rw [List.cons_append, bind_run, colon_run, Except.ok_bind]
    exact h.map some rest hrest
  have hfield : (one key read absent).member key Option.none = some (do colon; some <$> read) := by
    simp [one]
  have habsorbs : (one key read absent).Absorbs Option.none [(key, value)]
      (some <$> outcome >>= .ok) := .cons hfield hread fun slots _ => .nil slots
  refine ⟨_, habsorbs, ?_⟩
  cases outcome with
  | ok value => exact .inl ⟨some value, value, rfl, rfl, rfl⟩
  | error fault => exact .inr ⟨fault, rfl, rfl⟩

variable {g : Fields β}

/-- The fields of `f` have had their members, and those of `g` follow. -/
lemma Absorbs.and_right {t : g.Slots} {members : List (String × Json)}
    {outcome : Except Fault g.Slots} (h : Absorbs g t members outcome) (s : f.Slots)
    (hkeys : ∀ member ∈ members, f.member member.1 s = .none) :
    Absorbs (f.and g) (s, t) members (outcome >>= fun t' => .ok (s, t')) := by
  induction h with
  | nil t => exact .nil (f := f.and g) (s, t)
  | @cons t key value members read outcome next field first others ih =>
    have hfield : (f.and g).member key (s, t) = some (do return (s, ← read)) := by
      simp [Fields.and, hkeys (key, value) (by simp), field]
    have hread : Gives (do return (s, ← read) : Read (f.Slots × g.Slots)) (':' :: value.render)
        (outcome >>= fun t' => .ok (s, t')) := by
      intro rest hrest
      rw [bind_run, first rest hrest, bind_assoc, bind_assoc]
      rfl
    have hothers : ∀ slots, (outcome >>= fun t' => .ok (s, t')) = .ok slots →
        Absorbs (f.and g) slots members (next slots.2 >>= fun t' => .ok (slots.1, t')) := by
      rintro slots hslots
      cases outcome with
      | error fault => exact absurd hslots (by simp)
      | ok t' =>
        obtain rfl : (s, t') = slots := by simpa using hslots
        exact ih t' rfl fun member hmember => hkeys member (by simp [hmember])
    have hcons := Absorbs.cons (f := f.and g) hfield hread hothers
    cases outcome <;> exact hcons

/-- The members of `f` come first, then those of `g`, whose keys are no fields of `f`. -/
lemma Absorbs.and {s : f.Slots} {members : List (String × Json)} {outcome : Except Fault f.Slots}
    (h : Absorbs f s members outcome) {t : g.Slots} {members' : List (String × Json)}
    {outcome' : Except Fault g.Slots} (h' : Absorbs g t members' outcome')
    (hkeys : ∀ member ∈ members', ∀ s, f.member member.1 s = .none) :
    Absorbs (f.and g) (s, t) (members ++ members')
      (outcome >>= fun s' => outcome' >>= fun t' => .ok (s', t')) := by
  induction h with
  | nil s => exact h'.and_right s fun member hmember => hkeys member hmember s
  | @cons s key value members read outcome next field first others ih =>
    have hfield : (f.and g).member key (s, t) = some (do return (← read, t)) := by
      simp [Fields.and, field]
    have hread : Gives (do return (← read, t) : Read (f.Slots × g.Slots)) (':' :: value.render)
        (outcome >>= fun s' => .ok (s', t)) := by
      intro rest hrest
      rw [bind_run, first rest hrest, bind_assoc, bind_assoc]
      rfl
    have hothers : ∀ slots, (outcome >>= fun s' => .ok (s', t)) = .ok slots →
        Absorbs (f.and g) slots (members ++ members')
          (next slots.1 >>= fun s' => outcome' >>= fun t' => .ok (s', t')) := by
      rintro slots hslots
      cases outcome with
      | error fault => exact absurd hslots (by simp)
      | ok s' =>
        obtain rfl : (s', t) = slots := by simpa using hslots
        exact ih s' rfl
    have hcons := Absorbs.cons (f := f.and g) hfield hread hothers
    cases outcome <;> exact hcons

lemma Takes.and {members members' : List (String × Json)} {outcome : Except Fault α}
    {outcome' : Except Fault β} (h : f.Takes members outcome) (h' : g.Takes members' outcome')
    (hkeys : ∀ member ∈ members', ∀ s, f.member member.1 s = .none) :
    (f.and g).Takes (members ++ members')
      (outcome >>= fun a => outcome' >>= fun b => .ok (a, b)) := by
  obtain ⟨taken, habsorbs, hend⟩ := h
  obtain ⟨taken', habsorbs', hend'⟩ := h'
  refine ⟨_, habsorbs.and habsorbs' hkeys, ?_⟩
  rcases hend with ⟨s, a, rfl, hs, rfl⟩ | ⟨fault, rfl, rfl⟩
  · rcases hend' with ⟨t, b, rfl, ht, rfl⟩ | ⟨fault, rfl, rfl⟩
    · exact .inl ⟨(s, t), (a, b), rfl, by simp [Fields.and, hs, ht], rfl⟩
    · exact .inr ⟨fault, rfl, rfl⟩
  · exact .inr ⟨fault, rfl, rfl⟩

/-- One field in front of others that have other keys. -/
lemma one_and_takes (key : String) {read : Read α} (absent : Option α) {value : Json}
    {outcome : Except Fault α} (h : Gives read value.render outcome)
    {members : List (String × Json)} {outcome' : Except Fault β} (h' : g.Takes members outcome')
    (hkeys : ∀ member ∈ members, member.1 ≠ key) :
    ((one key read absent).and g).Takes ((key, value) :: members)
      (outcome >>= fun a => outcome' >>= fun b => .ok (a, b)) :=
  (one_takes key absent h).and h' fun member hmember _ => if_neg (hkeys member hmember)

/-- The whole inside of an object. -/
lemma Takes.members {members : List (String × Json)} {outcome : Except Fault α}
    (h : f.Takes members outcome) (rest : List Char) :
    f.members (renderMembers members ++ '\x7d' :: rest) =
      outcome >>= fun value => .ok (value, '\x7d' :: rest) := by
  obtain ⟨taken, habsorbs, hend⟩ := h
  have hloop : loop (memberTurn f) (true, f.none) (renderMembers members ++ '\x7d' :: rest) =
      taken >>= fun slots => .ok (slots, '\x7d' :: rest) := by
    rw [loop, bind_run, get_run, Except.ok_bind]
    cases habsorbs with
    | nil =>
      have hturn := memberTurn_closed (f := f) true f.none rest
      simp [renderMembers, Read.iterate, hturn]
    | @cons _ key value members read outcome next field first others =>
      have hmore : moreMembers true
            (renderMember (key, value) ++ (renderRestMembers members ++ '\x7d' :: rest)) =
          .ok (true, renderMember (key, value) ++ (renderRestMembers members ++ '\x7d' :: rest)) := by
        simp only [renderMember, quoted_append]
        exact moreMembers_fresh _
      have hturn := memberTurn_run field first (renderRestMembers_ends members rest) hmore
      have hbound := length_le_renderRestMembers members
      rw [renderMembers_cons, List.append_assoc]
      obtain ⟨tail, htail⟩ : ∃ tail, renderMember (key, value) = '"' :: tail := ⟨_, rfl⟩
      rw [htail, List.cons_append] at hturn ⊢
      rw [Read.iterate, bind_run, hturn, bind_assoc, bind_assoc]
      cases outcome with
      | error fault => rfl
      | ok slots =>
        refine (others slots rfl).iterate ?_ rest
        simp only [List.length_append]
        omega
  change (loop (memberTurn f) (true, f.none) >>= fun slots => _) _ = _
  rw [bind_run, hloop, bind_assoc]
  rcases hend with ⟨slots, value, rfl, hfinish, rfl⟩ | ⟨fault, rfl, rfl⟩
  · change (f.finish slots >>= _) = _
    rw [hfinish]
    rfl
  · rfl

end Fields

/-- A record written as an object. -/
lemma record_gives {depth : Nat} {fields : (inner : Nat) → inner < depth + 1 → Fields α}
    {members : List (String × Json)} {outcome : Except Fault α}
    (h : (fields depth (Nat.lt_succ_self depth)).Takes members outcome) :
    Gives (record (depth + 1) fields) (Json.obj members).render outcome := by
  intro rest _
  have htext : (Json.obj members).render ++ rest =
      '\x7b' :: (renderMembers members ++ '\x7d' :: rest) := by
    simp [render]
  simp only [htext, record, bind_run, solid_run (c := '\x7b') (by decide), Except.ok_bind, if_true,
    enter_run, h.members rest, bind_assoc, closing_run '\x7d' (by decide), pure_run]

/-- Two fields written as a list of two. -/
lemma pair_gives {depth : Nat} {fields : (inner : Nat) → inner < depth + 1 → Fields (α × β)}
    {key key' : String} {read : Read α} {read' : Read β} {value value' : Json}
    {outcome : Except Fault α} {outcome' : Except Fault β}
    (hfields : fields depth (Nat.lt_succ_self depth) =
      (Fields.required key read).and (Fields.required key' read'))
    (h : Gives read value.render outcome) (h' : Gives read' value'.render outcome') :
    Gives (tuple (depth + 1) fields) (Json.arr [value, value']).render
      (outcome >>= fun a => outcome' >>= fun b => .ok (a, b)) := by
  intro rest _
  obtain ⟨c, tail, hrender, hblank, hclose⟩ := render_cons value
  obtain ⟨c', tail', hrender', hblank', hclose'⟩ := render_cons value'
  have htext : (Json.arr [value, value']).render ++ rest =
      '[' :: c :: (tail ++ ',' :: c' :: (tail' ++ ']' :: rest)) := by
    simp [render, renderItems, hrender, hrender']
  have hfirst := h (',' :: c' :: (tail' ++ ']' :: rest)) (ends_comma _)
  have hsecond := h' (']' :: rest) (ends_bracket _)
  rw [hrender, List.cons_append] at hfirst
  rw [hrender', List.cons_append] at hsecond
  simp only [htext, tuple, bind_run, solid_run (c := '[') (by decide), Except.ok_bind, if_true,
    enter_run, hfields, Fields.and, Fields.required, Fields.one, moreItems_fresh hblank hclose, hfirst,
    bind_assoc, moreItems_next hblank' hclose', hsecond, pure_run,
    closing_run ']' (by decide)]

/-- An alternative that holds nothing stands as its bare name. -/
lemma choice_bare_gives {depth : Nat} {bare : String → Option α}
    {holding : (inner : Nat) → inner < depth → String → Option (Read α)} {name : String} {value : α}
    (h : bare name = some value) :
    Gives (choice depth bare holding) (Json.str name).render (.ok value) := by
  intro rest _
  rw [render, quoted_append]
  simp only [choice, bind_run, solid_run (c := '"') (by decide), Except.ok_bind, if_true,
    advance_run, quotedRest_run, h, pure_run]

/-- An alternative with content stands as an object of one member. -/
lemma choice_holding_gives {depth : Nat} {bare : String → Option α}
    {holding : (inner : Nat) → inner < depth + 1 → String → Option (Read α)} {tag : String}
    {content : Json} {read : Read α} {outcome : Except Fault α} (hbare : bare tag = none)
    (hholding : holding depth (Nat.lt_succ_self depth) tag = some read)
    (h : Gives read content.render outcome) :
    Gives (choice (depth + 1) bare holding) (Json.obj [(tag, content)]).render outcome := by
  intro rest _
  have htext : (Json.obj [(tag, content)]).render ++ rest =
      '\x7b' :: (quoted tag ++ ':' :: (content.render ++ '\x7d' :: rest)) := by
    simp [render, renderMembers]
  have hquote : ('\x7b' : Char) ≠ '"' := by decide
  simp only [htext, choice, bind_run, solid_run (c := '\x7b') (by decide), Except.ok_bind, if_true,
    if_neg hquote, enter_run, key_run, hbare, hholding, colon_run, h _ (ends_brace rest), bind_assoc,
    closing_run '\x7d' (by decide), pure_run]

end Read

end SealedScript.Json
