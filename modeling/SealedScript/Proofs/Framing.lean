import SealedScript.Proofs.Reading.Extension
import SealedScript.Proofs.Reading.Loaded

/-! Where the text of a program ends. Behind a program there may be white space and nothing else, so a file that
is cut off or has something appended to it is no program, whether or not digests are checked. -/

namespace SealedScript

open Json.Read
open Json.Read.Fields (one_steady)

section Readers

lemma BinaryOp.read_steady (depth : Nat) : Steady (BinaryOp.read depth) :=
  steady_choice (by simp)

lemma UnaryOp.read_steady (depth : Nat) : Steady (UnaryOp.read depth) :=
  steady_choice (by simp)

lemma Constant.read_steady (depth : Nat) : Steady (Constant.read depth) := by
  refine steady_choice ?_
  intro inner hinner tag read hread
  split at hread
  · obtain rfl := Option.some.inj hread
    exact steady_boolean.map _
  · obtain rfl := Option.some.inj hread
    exact steady_int64.map _
  · obtain rfl := Option.some.inj hread
    exact steady_float.map _
  · obtain rfl := Option.some.inj hread
    exact steady_text.map _
  · cases hread

lemma Expr.read_steady (depth : Nat) : Steady (Expr.read depth) := by
  induction depth using Nat.strongRecOn with
  | ind depth ih =>
    rw [Expr.read]
    refine steady_choice ?_
    intro inner hinner tag read hread
    split at hread
    · obtain rfl := Option.some.inj hread
      exact (Constant.read_steady inner).map _
    · obtain rfl := Option.some.inj hread
      exact steady_text.map _
    · obtain rfl := Option.some.inj hread
      exact (steady_list fun d hd => ih d (hd.trans hinner)).map _
    · obtain rfl := Option.some.inj hread
      refine (closed_record fun d hd => ?_).steady.bind fun _ => steady_pure _
      have hexpr := ih d (hd.trans hinner)
      exact (one_steady _ (BinaryOp.read_steady d) _).and
        ((one_steady _ hexpr _).and (one_steady _ hexpr _))
    · obtain rfl := Option.some.inj hread
      refine (closed_record fun d hd => ?_).steady.bind fun _ => steady_pure _
      exact (one_steady _ (UnaryOp.read_steady d) _).and (one_steady _ (ih d (hd.trans hinner)) _)
    · obtain rfl := Option.some.inj hread
      refine (closed_record fun d hd => ?_).steady.bind fun _ => steady_pure _
      have hexpr : ∀ d' < d, Steady (Expr.read d') := fun d' hd' => ih d' (hd'.trans (hd.trans hinner))
      have hkwarg : ∀ d' < d, Steady (tuple d' fun d'' _ =>
          (Fields.required "key" text).and (Fields.required "value" (Expr.read d''))) := by
        intro d' hd'
        refine (closed_tuple fun d'' hd'' => ?_).steady
        exact (one_steady _ steady_text _).and (one_steady _ (hexpr d'' (hd''.trans hd')) _)
      exact (one_steady _ (ih d (hd.trans hinner)) _).and
        ((one_steady _ (steady_list hexpr) _).and (one_steady _ (steady_list hkwarg) _))
    · cases hread

lemma Stmt.readKind_steady {depth : Nat} {block : (inner : Nat) → inner < depth → Json.Read (List Stmt)}
    (h : ∀ inner hinner, Steady (block inner hinner)) : Steady (Stmt.readKind depth block) := by
  refine steady_choice ?_
  intro inner hinner tag read hread
  split at hread
  · obtain rfl := Option.some.inj hread
    refine (closed_record fun d hd => ?_).steady.bind fun _ => steady_pure _
    exact (one_steady _ steady_text _).and (one_steady _ (Expr.read_steady d) _)
  · obtain rfl := Option.some.inj hread
    exact (Expr.read_steady inner).bind fun _ => steady_pure _
  · obtain rfl := Option.some.inj hread
    refine (closed_record fun d hd => ?_).steady.bind fun _ => steady_pure _
    exact (one_steady _ (Expr.read_steady d) _).and
      ((one_steady _ (h d _) _).and (one_steady _ (h d _) _))
  · obtain rfl := Option.some.inj hread
    refine (closed_record fun d hd => ?_).steady.bind fun _ => steady_pure _
    exact (one_steady _ (Expr.read_steady d) _).and (one_steady _ (h d _) _)
  · cases hread

lemma Stmt.read_steady (depth : Nat) : Steady (Stmt.read depth) := by
  induction depth using Nat.strongRecOn with
  | ind depth ih =>
    rw [Stmt.read]
    refine (closed_record fun d hd => ?_).steady.bind fun _ => steady_pure _
    refine (one_steady _ steady_uint32 _).and (one_steady _ (Stmt.readKind_steady fun d' hd' => ?_) _)
    exact steady_list fun d'' hd'' => ih d'' (hd''.trans (hd'.trans hd))

lemma Code.read_steady (depth : Nat) : Steady (Code.read depth) := by
  refine (closed_record fun d hd => ?_).steady.bind fun _ => steady_pure _
  exact (one_steady _ steady_text _).and ((one_steady _ steady_text _).and
    (one_steady _ (steady_list fun d' _ => Stmt.read_steady d') _))

/-- A program is a record, so its text ends in a bracket. -/
lemma Program.read_closed (depth : Nat) : Closed (Program.read depth) := by
  have hrecord : Closed (record depth fun d _ =>
      (Fields.required "hash" text).and (Fields.required "code" (Code.read d))) :=
    closed_record fun d _ => (one_steady _ steady_text _).and (one_steady _ (Code.read_steady d) _)
  exact hrecord.map fun fields => (⟨fields.1, fields.2⟩ : Program)

end Readers

/-- Nothing but spaces, tabs, line feeds and carriage returns. -/
def Json.Whitespace (text : String) : Prop :=
  ∀ c ∈ text.toList, c ∈ [' ', '\t', '\n', '\r']

instance (text : String) : Decidable (Json.Whitespace text) :=
  inferInstanceAs (Decidable (∀ c ∈ text.toList, _))

lemma Json.whitespace_iff {text : String} : Json.Whitespace text ↔ ∀ c ∈ text.toList, isBlank c = true := by
  simp [Json.Whitespace, isBlank, or_assoc]

/-- Behind a closed value a text may only go on with white space. -/
lemma Json.Read.Closed.parse_append {α : Type} {read : Json.Read α} (h : Closed read) {t : String}
    {value : α} (hparse : parse read t = .ok value) (s : String) :
    parse read (t ++ s) = if Json.Whitespace s then .ok value else .error .malformed := by
  unfold parse at hparse ⊢
  obtain ⟨⟨value', rest⟩, hread, hend⟩ := Except.bind_eq_ok_iff.mp hparse
  dsimp only at hend
  split_ifs at hend with hblank
  · cases hend
    rw [String.toList_append, h.append hread, Except.ok_bind]
    dsimp only
    rw [List.dropWhile_append, if_pos hblank]
    simp only [List.isEmpty_iff, List.dropWhile_eq_nil_iff, Json.whitespace_iff]
    rfl

lemma Program.load_append_iff {t : String} {verify : Bool} {program : Program}
    (h : load t verify = .ok program) (s : String) (other : Program) :
    load (t ++ s) verify = .ok other ↔ other = program ∧ Json.Whitespace s := by
  rw [load_eq_ok_iff_ofText] at h ⊢
  have htext : ofText (t ++ s) = if Json.Whitespace s then .ok program else .error .malformed :=
    (read_closed Json.maxDepth).parse_append h.1 s
  rw [htext]
  constructor
  · rintro ⟨hother, -⟩
    split_ifs at hother with hspace
    · cases hother
      exact ⟨rfl, hspace⟩
  · rintro ⟨rfl, hspace⟩
    exact ⟨if_pos hspace, h.2⟩

section Files

/-- Bytes behind whole characters can only be whole characters again. -/
lemma Json.exists_text_of_append {chars : List Char} {more : ByteArray}
    (h : (chars.utf8Encode ++ more).IsValidUTF8) : ∃ s : String, more = s.toByteArray := by
  induction chars with
  | nil => exact ⟨.ofByteArray more (by simpa using h), rfl⟩
  | cons c chars ih =>
    rw [← List.singleton_append, List.utf8Encode_append, ByteArray.append_assoc,
      ByteArray.isValidUTF8_utf8Encode_singleton_append_iff] at h
    exact ih h

lemma Program.loadBytes_toByteArray (text : String) (verify : Bool) :
    loadBytes text.toByteArray verify = load text verify := by
  have htext : String.fromUTF8? text.toByteArray = some text := dif_pos text.isValidUTF8
  unfold loadBytes
  rw [htext]

/-- A file is cut off or goes on between characters, or it is no text at all. -/
lemma Program.loadBytes_append_iff {t : String} {verify : Bool} {program : Program}
    (h : load t verify = .ok program) (more : ByteArray) (other : Program) :
    loadBytes (t.toByteArray ++ more) verify = .ok other ↔
      other = program ∧ ∃ s : String, more = s.toByteArray ∧ Json.Whitespace s := by
  by_cases hmore : ∃ s : String, more = s.toByteArray
  · obtain ⟨s, rfl⟩ := hmore
    rw [← String.toByteArray_append, loadBytes_toByteArray, load_append_iff h]
    simp [String.toByteArray_inj]
  · have hinvalid : ¬ (t.toByteArray ++ more).IsValidUTF8 := by
      obtain ⟨chars, rfl⟩ := t.exists_eq_ofList
      rw [String.toByteArray_ofList]
      exact fun hvalid => hmore (Json.exists_text_of_append hvalid)
    have hnone : String.fromUTF8? (t.toByteArray ++ more) = none := dif_neg hinvalid
    unfold loadBytes
    rw [hnone]
    constructor
    · intro hload
      cases hload
    · rintro ⟨-, s, hs, -⟩
      exact absurd ⟨s, hs⟩ hmore

end Files

/-- Behind the text of a program nothing but white space is let pass, in a file as in a string, and a text that
is cut off before its end is no program. -/
theorem Program.load_framed {t : String} {verify : Bool} {program : Program}
    (h : load t verify = .ok program) :
    (∀ s other, load (t ++ s) verify = .ok other ↔ other = program ∧ Json.Whitespace s) ∧
    (∀ more other, loadBytes (t.toByteArray ++ more) verify = .ok other ↔
      other = program ∧ ∃ s : String, more = s.toByteArray ∧ Json.Whitespace s) ∧
    ∀ u s, t = u ++ s → ¬ Json.Whitespace s → ∀ other, load u verify ≠ .ok other := by
  refine ⟨load_append_iff h, loadBytes_append_iff h, ?_⟩
  rintro u s rfl hspace other hcut
  exact hspace ((load_append_iff hcut s program).mp h).2

/-- A program as a list, with a field that is passed over and a digest that does not agree: one bracket more or
less makes it unreadable. -/
theorem Program.load_framed_bare_list :
    let u := "[\"\",\x7b\"name\":\"m\",\"x\":[1e5],\"filename\":\"f\",\"body\":[]\x7d"
    ∃ program, load (u ++ "]") false = .ok program ∧ load (u ++ "]" ++ "\r\n") false = .ok program ∧
      (∀ other, load (u ++ "]" ++ " ]") false ≠ .ok other) ∧ ∀ other, load u false ≠ .ok other := by
  intro u
  have haccepted : (load (u ++ "]") false).isOk = true := by decide +kernel
  cases hload : load (u ++ "]") false with
  | error => rw [hload] at haccepted; cases haccepted
  | ok program =>
    obtain ⟨happend, -, hcut⟩ := Program.load_framed hload
    refine ⟨program, rfl, (happend "\r\n" program).mpr ⟨rfl, by simp [Json.Whitespace]⟩, ?_, ?_⟩
    · intro other hother
      exact absurd ((happend " ]" other).mp hother).2 (by simp [Json.Whitespace])
    · exact hcut u "]" rfl (by simp [Json.Whitespace])

end SealedScript
