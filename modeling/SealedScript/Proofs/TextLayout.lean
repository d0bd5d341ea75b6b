import SealedScript.Proofs.Framing
import SealedScript.Proofs.Reading.Choices

/-! Programs whatever their layout. The same tree gives the same program with any white space, with the members of
its objects in any order, and with the fields that have a default written out or left out. -/

namespace SealedScript

open Json (Node)
open Json.Read
open Json.Read.Fields (required optional one_lawful one_yields)

/-- The fields of statements, branches and calls that may be left out. -/
def Program.defaults : List Json.Default :=
  [⟨"kind", "line", .number (.known (.int 0))⟩, ⟨"then_block", "else_block", .arr []⟩,
    ⟨"func", "args", .arr []⟩, ⟨"func", "kwargs", .arr []⟩]

section Fields

variable {α : Type} {key : String}

lemma required_lawful {read : Json.Read α} (h : Lawful Program.defaults read)
    (hkey : ∀ default ∈ Program.defaults, default.key ≠ key) :
    (required key read).Lawful Program.defaults [key] :=
  one_lawful h fun default hdefault heq => absurd heq (hkey default hdefault)

/-- A list that may be left out if it is empty. -/
lemma optional_list_lawful {read : Json.Read (List α)} (h : Lawful Program.defaults read)
    (hempty : read ['[', ']'] = .ok ([], []))
    (hkey : ∀ default ∈ Program.defaults, default.key = key → default.value = .arr []) :
    (optional key read []).Lawful Program.defaults [key] := by
  refine one_lawful h fun default hdefault heq => ⟨[], ['[', ']'], [], rfl, ?_, hempty⟩
  rw [hkey default hdefault heq]
  exact .value (.none _) (.arr (.noItems (.none _)))

/-- Zero, as it is written where a line may be left out. -/
def Json.Numeral.zero : Json.Numeral where
  negative := false
  whole := ['0']
  fraction := []
  exponent := none
  whole_ne_nil := by decide
  whole_isDigit := by simp
  whole_zero := by rintro tail ⟨⟩; rfl
  fraction_isDigit := by simp

lemma Json.Numeral.reading_zero : Json.Numeral.zero.reading = .known (.int 0) := by
  rfl

lemma optional_line_lawful : (optional "line" uint32 0).Lawful Program.defaults ["line"] := by
  refine one_lawful lawful_uint32 fun default hdefault heq => ⟨0, ['0'], [], rfl, ?_, uint32_gives 0 [] ends_nil⟩
  have hvalue : default.value = .number Json.Numeral.zero.reading := by
    rw [Json.Numeral.reading_zero]
    simp only [Program.defaults, List.mem_cons, List.not_mem_nil, or_false] at hdefault
    rcases hdefault with rfl | rfl | rfl | rfl
    · rfl
    · exact absurd heq (by decide)
    · exact absurd heq (by decide)
    · exact absurd heq (by decide)
  rw [hvalue]
  exact .value (.none _) (.number .zero Json.stops_nil)

end Fields

section Readers

lemma BinaryOp.read_lawful (depth : Nat) : Lawful Program.defaults (BinaryOp.read depth) :=
  lawful_choice (by decide) (fun _ _ _ _ => rfl) (by simp)

lemma UnaryOp.read_lawful (depth : Nat) : Lawful Program.defaults (UnaryOp.read depth) :=
  lawful_choice (by decide) (fun _ _ _ _ => rfl) (by simp)

lemma Constant.read_lawful (depth : Nat) : Lawful Program.defaults (Constant.read depth) := by
  refine lawful_choice (by decide) (by simp [Program.defaults]) ?_
  intro inner hinner tag read hread
  split at hread
  · obtain rfl := Option.some.inj hread
    exact lawful_boolean.map _
  · obtain rfl := Option.some.inj hread
    exact lawful_int64.map _
  · obtain rfl := Option.some.inj hread
    exact lawful_float.map _
  · obtain rfl := Option.some.inj hread
    exact lawful_text.map _
  · cases hread

/-- Where no bracket may be opened, there is no expression. -/
lemma Expr.read_zero : Yields (Expr.read 0) fun _ => False := by
  rw [Expr.read]
  exact yields_choice (by simp) fun inner hinner => absurd hinner (Nat.not_lt_zero inner)

lemma Expr.read_lawful (depth : Nat) : Lawful Program.defaults (Expr.read depth) := by
  induction depth using Nat.strongRecOn with
  | ind depth ih =>
    rw [Expr.read]
    refine lawful_choice (by decide) (by simp [Program.defaults]) ?_
    intro inner hinner tag read hread
    split at hread
    · obtain rfl := Option.some.inj hread
      exact (Constant.read_lawful inner).map _
    · obtain rfl := Option.some.inj hread
      exact lawful_text.map _
    · obtain rfl := Option.some.inj hread
      exact (lawful_list fun d hd => ih d (hd.trans hinner)).map _
    · obtain rfl := Option.some.inj hread
      refine (lawful_record fun d hd _ => ?_).bind fun _ _ => rfl
      have hexpr := ih d (hd.trans hinner)
      exact ⟨_, (required_lawful (BinaryOp.read_lawful d) (by decide)).and
        ((required_lawful hexpr (by decide)).and (required_lawful hexpr (by decide)) (by simp)) (by simp)⟩
    · obtain rfl := Option.some.inj hread
      refine (lawful_record fun d hd _ => ?_).bind fun _ _ => rfl
      exact ⟨_, (required_lawful (UnaryOp.read_lawful d) (by decide)).and
        (required_lawful (ih d (hd.trans hinner)) (by decide)) (by simp)⟩
    · obtain rfl := Option.some.inj hread
      refine (lawful_record_of_pos (fun _ => ?_) fun d hd hpos => ?_).bind fun _ _ => rfl
      · exact ((one_yields _ Expr.read_zero (by simp)).and (Fields.yields_true _)).mono fun _ h => h.1
      · obtain ⟨e, rfl⟩ : ∃ e, d = e + 1 := ⟨d - 1, by omega⟩
        have hexpr : ∀ d' < e + 1, Lawful Program.defaults (Expr.read d') :=
          fun d' hd' => ih d' (hd'.trans (hd.trans hinner))
        have hkwarg : ∀ d' < e + 1, Lawful Program.defaults (tuple d' fun d'' _ =>
            (required "key" text).and (required "value" (Expr.read d''))) := by
          intro d' hd'
          refine lawful_tuple fun d'' hd'' => ?_
          exact ⟨_, (required_lawful lawful_text (by decide)).and
            (required_lawful (hexpr d'' (hd''.trans hd')) (by decide)) (by simp)⟩
        exact ⟨_, (required_lawful (ih (e + 1) (hd.trans hinner)) (by decide)).and
          ((optional_list_lawful (lawful_list hexpr) rfl (by simp [Program.defaults])).and
            (optional_list_lawful (lawful_list hkwarg) rfl (by simp [Program.defaults])) (by simp)) (by simp)⟩
    · cases hread

lemma Stmt.readKind_lawful {depth : Nat} {block : (inner : Nat) → inner < depth → Json.Read (List Stmt)}
    (h : ∀ inner hinner, Lawful Program.defaults (block inner hinner))
    (hempty : ∀ inner hinner, 0 < inner → block inner hinner ['[', ']'] = .ok ([], [])) :
    Lawful Program.defaults (Stmt.readKind depth block) := by
  refine lawful_choice (by decide) (by simp [Program.defaults]) ?_
  intro inner hinner tag read hread
  split at hread
  · obtain rfl := Option.some.inj hread
    refine (lawful_record fun d hd _ => ?_).bind fun _ _ => rfl
    exact ⟨_, (required_lawful lawful_text (by decide)).and
      (required_lawful (Expr.read_lawful d) (by decide)) (by simp)⟩
  · obtain rfl := Option.some.inj hread
    exact (Expr.read_lawful inner).bind fun _ _ => rfl
  · obtain rfl := Option.some.inj hread
    refine (lawful_record_of_pos (fun _ => ?_) fun d hd hpos => ?_).bind fun _ _ => rfl
    · exact ((one_yields _ Expr.read_zero (by simp)).and (Fields.yields_true _)).mono fun _ h => h.1
    · exact ⟨_, (required_lawful (Expr.read_lawful d) (by decide)).and
        ((required_lawful (h d _) (by decide)).and
          (optional_list_lawful (h d _) (hempty d _ hpos) (by simp [Program.defaults])) (by simp)) (by simp)⟩
  · obtain rfl := Option.some.inj hread
    refine (lawful_record fun d hd _ => ?_).bind fun _ _ => rfl
    exact ⟨_, (required_lawful (Expr.read_lawful d) (by decide)).and (required_lawful (h d _) (by decide))
      (by simp)⟩
  · cases hread

lemma Stmt.read_lawful (depth : Nat) : Lawful Program.defaults (Stmt.read depth) := by
  induction depth using Nat.strongRecOn with
  | ind depth ih =>
    rw [Stmt.read]
    refine (lawful_record fun d hd _ => ?_).bind fun _ _ => rfl
    refine ⟨_, optional_line_lawful.and (required_lawful ?_ (by decide)) (by simp)⟩
    refine Stmt.readKind_lawful (fun d' hd' => lawful_list fun d'' hd'' => ?_) fun d' hd' hpos => ?_
    · exact ih d'' (hd''.trans (hd'.trans hd))
    · obtain ⟨e, rfl⟩ : ∃ e, d' = e + 1 := ⟨d' - 1, by omega⟩
      rfl

lemma Code.read_lawful (depth : Nat) : Lawful Program.defaults (Code.read depth) := by
  refine (lawful_record fun d hd _ => ?_).bind fun _ _ => rfl
  exact ⟨_, (required_lawful lawful_text (by decide)).and ((required_lawful lawful_text (by decide)).and
    (required_lawful (lawful_list fun d' _ => Stmt.read_lawful d') (by decide)) (by simp)) (by simp)⟩

lemma Program.read_lawful (depth : Nat) : Lawful Program.defaults (Program.read depth) := by
  refine (lawful_record fun d hd _ => ?_).bind fun _ _ => rfl
  exact ⟨_, (required_lawful lawful_text (by decide)).and (required_lawful (Code.read_lawful d) (by decide))
    (by simp)⟩

end Readers

lemma Program.ofText_of_alike {t t' : String} {node node' : Node} (h : Json.Denotes t node)
    (h' : Json.Denotes t' node') (halike : node.Alike Program.defaults node') :
    (ofText t).toOption = (ofText t').toOption := by
  obtain ⟨meaning, hmeaning⟩ := Program.read_lawful Json.maxDepth
  unfold ofText
  rw [hmeaning.parse h, hmeaning.parse h', hmeaning.eq_of_alike halike]

/-- Once the programs are the same, so is everything but why neither can be read. -/
lemma Program.load_of_ofText {t t' : String} (h : (ofText t).toOption = (ofText t').toOption) (verify : Bool) :
    load t verify = load t' verify ∨ ∃ fault fault',
      load t verify = .error (.unparsable fault) ∧ load t' verify = .error (.unparsable fault') := by
  unfold load
  cases htext : ofText t with
  | ok program =>
    rw [htext, eq_comm, Except.toOption_ok, Except.toOption_eq_some_iff] at h
    rw [h]
    exact .inl rfl
  | error fault =>
    rw [htext, eq_comm, Except.toOption_error, Except.toOption_eq_none_iff] at h
    obtain ⟨fault', h⟩ := h
    rw [h]
    exact .inr ⟨fault, fault', rfl, rfl⟩

/-- Trees that are alike are loaded as the same program, from whatever text and with or without a check, and if
the check fails it compares the same digests. -/
theorem Program.load_of_alike {t t' : String} {node node' : Node} (h : Json.Denotes t node)
    (h' : Json.Denotes t' node') (halike : node.Alike Program.defaults node') (verify : Bool) :
    (∀ program, load t verify = .ok program ↔ load t' verify = .ok program) ∧
    (∀ program, loadBytes t.toByteArray verify = .ok program ↔ loadBytes t'.toByteArray verify = .ok program) ∧
    ∀ expected computed, load t verify = .error (.altered expected computed) ↔
      load t' verify = .error (.altered expected computed) := by
  simp only [loadBytes_toByteArray]
  rcases load_of_ofText (ofText_of_alike h h' halike) verify with hsame | ⟨fault, fault', hfault, hfault'⟩
  · rw [hsame]
    exact ⟨fun _ => .rfl, fun _ => .rfl, fun _ _ => .rfl⟩
  · rw [hfault, hfault']
    simp

/-- The same program twice: on one line, and spread out with its members in another order and a line that is
written out. -/
theorem Program.load_of_alike_spread_out :
    let t := "\x7b\"hash\":\"\",\"code\":[\"\",\"\",[\x7b\"kind\":\"Pass\"\x7d]]\x7d"
    let t' := "\x7b \"code\": [\"\",\"\",[\x7b\"line\": 0,\"kind\": \"Pass\"\x7d]],\n\"hash\": \"\"\x7d\n"
    ∃ program, load t false = .ok program ∧ load t' false = .ok program := by
  intro t t'
  have hhash : Json.Quotable ['h', 'a', 's', 'h'] := Json.quotable_of_plain (by simp)
  have hcode : Json.Quotable ['c', 'o', 'd', 'e'] := Json.quotable_of_plain (by simp)
  have hkind : Json.Quotable ['k', 'i', 'n', 'd'] := Json.quotable_of_plain (by simp)
  have hline : Json.Quotable ['l', 'i', 'n', 'e'] := Json.quotable_of_plain (by simp)
  have hpass : Json.Quotable ['P', 'a', 's', 's'] := Json.quotable_of_plain (by simp)
  have htext : t.toList = ['\x7b', '"', 'h', 'a', 's', 'h', '"', ':', '"', '"', ',', '"', 'c', 'o', 'd', 'e', '"',
      ':', '[', '"', '"', ',', '"', '"', ',', '[', '\x7b', '"', 'k', 'i', 'n', 'd', '"', ':', '"', 'P', 'a', 's',
      's', '"', '\x7d', ']', ']', '\x7d'] := by decide +kernel
  have htext' : t'.toList = ['\x7b', ' ', '"', 'c', 'o', 'd', 'e', '"', ':', ' ', '[', '"', '"', ',', '"', '"', ',',
      '[', '\x7b', '"', 'l', 'i', 'n', 'e', '"', ':', ' ', '0', ',', '"', 'k', 'i', 'n', 'd', '"', ':', ' ', '"',
      'P', 'a', 's', 's', '"', '\x7d', ']', ']', ',', '\n', '"', 'h', 'a', 's', 'h', '"', ':', ' ', '"', '"',
      '\x7d', '\n'] := by decide +kernel
  have hspace : ∀ text, Json.Gap (' ' :: text) text := fun text => .blank rfl (.none text)
  have hbreak : ∀ text, Json.Gap ('\n' :: text) text := fun text => .blank rfl (.none text)
  let empty : Node := .str (.known "")
  let code (stmt : List (Json.Reading String × Node)) : Node := .arr [empty, empty, .arr [.obj stmt]]
  let line : Json.Reading String × Node := (.known "line", .number (.known (.int 0)))
  let kind : Json.Reading String × Node := (.known "kind", .str (.known "Pass"))
  have hempty : ∀ text, Json.Spelled (.value empty) ('"' :: '"' :: text) text :=
    fun text => .value (.none _) (.str .nil)
  have ht : Json.Denotes t (.obj [(.known "hash", empty), (.known "code", code [kind])]) := by
    refine ⟨_, ?_, .none _⟩
    rw [htext]
    refine .value (.none _) (.obj (.firstMember (.member (.none _) hhash (.none _) (hempty _))
      (.nextMember (.none _) (.member (.none _) hcode (.none _) (.value (.none _) (.arr ?_)))
        (.noMembers (.none _)))))
    refine .firstItem (hempty _) (.nextItem (.none _) (hempty _) (.nextItem (.none _) ?_ (.noItems (.none _))))
    refine .value (.none _) (.arr (.firstItem (.value (.none _) (.obj ?_)) (.noItems (.none _))))
    exact .firstMember (.member (.none _) hkind (.none _) (.value (.none _) (.str hpass))) (.noMembers (.none _))
  have ht' : Json.Denotes t' (.obj [(.known "code", code [line, kind]), (.known "hash", empty)]) := by
    refine ⟨_, ?_, hbreak _⟩
    rw [htext']
    refine .value (.none _) (.obj (.firstMember (.member (hspace _) hcode (.none _) (.value (hspace _) (.arr ?_)))
      (.nextMember (.none _) (.member (hbreak _) hhash (.none _) (.value (hspace _) (.str .nil)))
        (.noMembers (.none _)))))
    refine .firstItem (hempty _) (.nextItem (.none _) (hempty _) (.nextItem (.none _) ?_ (.noItems (.none _))))
    refine .value (.none _) (.arr (.firstItem (.value (.none _) (.obj ?_)) (.noItems (.none _))))
    refine .firstMember (.member (.none _) hline (.none _) (.value (hspace _) (.number .zero ?_)))
      (.nextMember (.none _) (.member (.none _) hkind (.none _) (.value (hspace _) (.str hpass)))
        (.noMembers (.none _)))
    simp [Json.Stops]
  have halike : Node.Alike Program.defaults (.obj [(.known "hash", empty), (.known "code", code [kind])])
      (.obj [(.known "code", code [line, kind]), (.known "hash", empty)]) := by
    have hdefault : Json.Default.mk "kind" "line" line.2 ∈ Program.defaults := List.mem_cons_self
    have hwritten : Node.Rewrites Program.defaults (.obj [kind]) (.obj [kind, line]) :=
      .defaulted hdefault List.mem_cons_self (by simp [kind])
    have hmoved : Node.Rewrites Program.defaults (.obj [kind, line]) (.obj [line, kind]) := .reordered (.swap _ _ _)
    refine .trans _ _ _ (.rel _ _ (.member _ [_] [] (.item [_, _] [] (.item [] [] hwritten)))) ?_
    refine .trans _ _ _ (.rel _ _ (.member _ [_] [] (.item [_, _] [] (.item [] [] hmoved)))) ?_
    exact .rel _ _ (.reordered (.swap _ _ _))
  have haccepted : (load t false).isOk = true := by decide +kernel
  cases hload : load t false with
  | error => rw [hload] at haccepted; cases haccepted
  | ok program => exact ⟨program, rfl, ((Program.load_of_alike ht ht' halike false).1 program).mp hload⟩

end SealedScript
