import SealedScript.Proofs.Reading.Records

/-! Choices. A choice is a name or an object with one member, so no member can change its place, and no default is
ever written beside it. -/

namespace SealedScript.Json

/-- A name alone, or an object with the name as its only key. -/
def Node.tagged? {α : Type} (bare : String → Option α) (content : String → Node → Option α) : Node → Option α
  | .str s => s.known?.bind bare
  | .obj [member] => member.1.known?.bind fun tag => content tag member.2
  | _ => none

namespace Read

variable {α : Type} {defaults : List Default} {depth : Nat} {bare : String → Option α}
  {holding : (inner : Nat) → inner < depth → String → Option (Read α)}

/-- What the only member of a choice holds. -/
def content (bare : String → Option α) (holding : String → Option (Read α)) (tag : String) : Read α :=
  (bare tag).elim ((holding tag).elim (throw .mismatch) id) fun value => do null; pure value

/-- The meanings of what the alternatives hold; a name that is no alternative has none. -/
lemma exists_content (holding : String → Option (Read α))
    (h : ∀ tag, ∀ read ∈ holding tag, Lawful defaults read) :
    ∃ meaning : String → Node → Option α, ∀ tag, Means defaults (content bare holding tag) (meaning tag) ∧
      (bare tag = none → holding tag = none → meaning tag = fun _ => none) := by
  have hcontent : ∀ tag, ∃ meaning : Node → Option α, Means defaults (content bare holding tag) meaning ∧
      (bare tag = none → holding tag = none → meaning = fun _ => none) := by
    intro tag
    unfold content
    cases hbare : bare tag with
    | some value =>
      have hlawful : Lawful defaults (do null; pure value) := lawful_null.bind fun _ _ => rfl
      obtain ⟨meaning, hmeaning⟩ := hlawful
      exact ⟨meaning, hmeaning, by simp⟩
    | none =>
      cases hholding : holding tag with
      | some read =>
        obtain ⟨meaning, hmeaning⟩ := h tag read hholding
        exact ⟨meaning, hmeaning, by simp⟩
      | none => exact ⟨fun _ => none, ⟨fun _ => rfl, fun _ => rfl⟩, fun _ _ => rfl⟩
  choose meaning hmeaning using hcontent
  exact ⟨meaning, hmeaning⟩

variable {meaning : String → Node → Option α}

lemma tagged?_cons (member : Reading String × Node) (members : List (Reading String × Node)) :
    (Node.obj (member :: members)).tagged? bare meaning =
      if members.isEmpty then member.1.known?.bind fun tag => meaning tag member.2 else none := by
  cases members <;> rfl

/-- A choice has no second member. -/
lemma closing_value {outcome : Except Fault (α × List Char)} {value : Option α} {middle : List Char}
    (houtcome : outcome.toOption = value.map (·, middle)) {members : List (Reading String × Node)}
    {rest : List Char} (h : Spelled (.members false members) middle rest) :
    (outcome >>= fun p => (do closing '\x7d'; return p.1 : Read α) p.2).toOption =
      (if members.isEmpty then value else none).map (·, rest) := by
  rw [Except.toOption_bind, houtcome]
  cases value with
  | none => cases members <;> rfl
  | some a =>
    rw [Option.map_some, Option.bind_some, bind_run, Except.toOption_bind, closing_members h]
    cases members <;> rfl

/-- A choice as an object with one member. -/
lemma choice_obj {holding : (inner : Nat) → inner < depth + 1 → String → Option (Read α)}
    (h : ∀ tag, Means defaults (content bare (holding depth (Nat.lt_succ_self depth)) tag) (meaning tag))
    {members : List (Reading String × Node)} {text rest : List Char}
    (htext : Spelled (.members true members) text rest) :
    (choice (depth + 1) bare holding ('\x7b' :: text)).toOption =
      ((Node.obj members).tagged? bare meaning).map (·, rest) := by
  unfold choice
  rw [bind_run, solid_run (by decide), Except.ok_bind]
  dsimp only
  rw [if_neg (by decide), if_pos rfl, enter_run, bind_run]
  cases htext with
  | noMembers hgap =>
    unfold key
    rw [bind_run, hgap.solid (by decide)]
    rfl
  | @firstMember member members _ middle _ hmember hrest =>
    obtain ⟨tail, hgap, behind, value, hkey, hcolon, hvalue⟩ := Fields.memberRest_of_spelled hmember
    have hrun : (key text).toOption = member.1.known?.map (·, behind) := by
      unfold key
      rw [bind_run, hgap.solid (by decide)]
      exact hkey
    rw [Except.toOption_bind, hrun, tagged?_cons]
    cases member.1.known? with
    | none => cases members <;> rfl
    | some tag =>
      have hend := closing_value ((h tag).reads hvalue) hrest
      unfold content at hend
      rw [Option.bind_some, ← hend, Option.map_some, Option.bind_some]
      cases bare tag with
      | some a =>
        dsimp only
        rw [bind_run, colon_gap hcolon, Except.ok_bind, bind_run]
        cases hnull : null value with
        | error fault => simp [hnull]
        | ok p => simp [hnull]
      | none =>
        cases holding depth (Nat.lt_succ_self depth) tag with
        | some read =>
          dsimp only
          rw [bind_run, colon_gap hcolon]
          rfl
        | none => rfl

lemma tagged?_of_length_ne {members : List (Reading String × Node)} (h : members.length ≠ 1) :
    (Node.obj members).tagged? bare meaning = none := by
  cases members with
  | nil => rfl
  | cons member members =>
    cases members with
    | nil => exact absurd rfl h
    | cons => rfl

/-- A tree with one member keeps that member, unless the member could be the owner of a default. -/
lemma tagged?_alike
    (halike : ∀ tag {node node'}, node.Rewrites defaults node' → meaning tag node = meaning tag node')
    (howner : ∀ default ∈ defaults, ∀ node, meaning default.owner node = none) {node node' : Node}
    (h : node.Rewrites defaults node') : node.tagged? bare meaning = node'.tagged? bare meaning := by
  cases h with
  | item before after hnode => rfl
  | member key before after hnode =>
    cases before with
    | nil => simp only [List.nil_append, tagged?_cons, halike _ hnode]
    | cons first before =>
      rw [tagged?_of_length_ne (by simp), tagged?_of_length_ne (by simp)]
  | @reordered members members' hperm =>
    by_cases hlength : members.length = 1
    · obtain ⟨member, rfl⟩ := List.length_eq_one_iff.mp hlength
      rw [List.singleton_perm.mp hperm]
    · rw [tagged?_of_length_ne hlength, tagged?_of_length_ne (hperm.length_eq ▸ hlength)]
  | @defaulted members default hdefault hmem hlacks =>
    have hadded : (members ++ [(Reading.known default.key, default.value)]).length ≠ 1 := by
      cases members with
      | nil => cases hmem
      | cons => simp
    rw [tagged?_of_length_ne hadded]
    by_cases hlength : members.length = 1
    · obtain ⟨member, rfl⟩ := List.length_eq_one_iff.mp hlength
      rw [List.map_singleton, List.mem_singleton] at hmem
      rw [tagged?_cons, ← hmem]
      exact howner default hdefault _
    · exact tagged?_of_length_ne hlength

/-- What is left to say about a choice once its objects are understood. -/
lemma means_choice
    (hobj : ∀ {members text rest}, Spelled (.members true members) text rest →
      (choice depth bare holding ('\x7b' :: text)).toOption =
        ((Node.obj members).tagged? bare meaning).map (·, rest))
    (halike : ∀ tag {node node'}, node.Rewrites defaults node' → meaning tag node = meaning tag node')
    (howner : ∀ default ∈ defaults, ∀ node, meaning default.owner node = none) :
    Means defaults (choice depth bare holding) (Node.tagged? bare meaning) := by
  refine ⟨?_, tagged?_alike halike howner⟩
  intro node text rest htext
  have hrefused : ∀ {c tail}, Gap text (c :: tail) → isBlank c = false → c ≠ '"' → c ≠ '\x7b' →
      (choice depth bare holding text).toOption = none := by
    intro c tail hgap hblank hquote hbrace
    unfold choice
    rw [bind_run, hgap.solid hblank, Except.ok_bind, if_neg hquote, if_neg hbrace]
    rfl
  cases node with
  | str s =>
    cases htext with
    | value hgap htoken =>
      cases htoken with
      | @str raw _ hraw =>
        unfold choice
        rw [bind_run, hgap.solid (by decide), Except.ok_bind, if_pos rfl, bind_run, advance_run, Except.ok_bind,
          bind_run, Except.toOption_bind, quotedRest_toOption hraw, Node.tagged?]
        cases (quotedReading raw).known? with
        | none => rfl
        | some tag => cases hbare : bare tag <;> simp [hbare]
  | obj members =>
    cases htext with
    | value hgap htoken =>
      cases htoken with
      | obj hmembers =>
        rw [← hobj hmembers]
        unfold choice
        rw [bind_run, bind_run, hgap.solid_eq]
  | null | bool | number | arr =>
    obtain ⟨c, tail, hgap, -, hlead⟩ := htext.token
    refine hrefused hgap hlead.not_blank ?_ ?_
    · rintro rfl
      simp [Node.Leads] at hlead
    · rintro rfl
      simp [Node.Leads] at hlead

/-- No alternative may be called like the owner of a default. -/
lemma lawful_choice (hbare : ∀ default ∈ defaults, bare default.owner = none)
    (hholding : ∀ inner hinner, ∀ default ∈ defaults, holding inner hinner default.owner = none)
    (h : ∀ inner hinner tag, ∀ read ∈ holding inner hinner tag, Lawful defaults read) :
    Lawful defaults (choice depth bare holding) := by
  cases depth with
  | zero =>
    refine ⟨Node.tagged? bare fun _ _ => none, means_choice ?_ (fun _ _ _ _ => rfl) fun _ _ _ => rfl⟩
    intro members text rest _
    have hnone : (Node.obj members).tagged? bare (fun _ _ => none) = none := by
      cases members with
      | nil => rfl
      | cons member members => cases members <;> simp [tagged?_cons]
    rw [hnone]
    rfl
  | succ depth =>
    obtain ⟨meaning, hmeaning⟩ := exists_content _ (h depth (Nat.lt_succ_self depth))
    refine ⟨Node.tagged? bare meaning, means_choice (choice_obj fun tag => (hmeaning tag).1) ?_ ?_⟩
    · exact fun tag => (hmeaning tag).1.alike
    · intro default hdefault node
      rw [(hmeaning default.owner).2 (hbare default hdefault) (hholding _ _ default hdefault)]

end Read

end SealedScript.Json
