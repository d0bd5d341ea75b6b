import SealedScript.Proofs.Reading.Loaded
import SealedScript.Proofs.Reading.Program

/-! A sealed program that is saved as text and loaded again with its digest checked. -/

namespace SealedScript

/-- The program's own object is one bracket more around its code. -/
lemma Program.nesting_toJson (program : Program) :
    program.toJson.nesting = program.code.toJson.nesting + 1 := by
  simp [toJson, Json.nesting, Json.nestingMembers]

/-- The text of a sealed program is read as its digest and the code that comes back. -/
lemma Program.ofText_seal {code : Code} (h : code.toJson.nesting < Json.maxDepth) :
    Program.ofText (Program.seal code).toText = Program.mk code.digest <$> code.reread := by
  apply Program.ofText_toText
  rw [Program.nesting_toJson]
  exact h

/-- A sealed program comes back from its text exactly when the text nests within the limit and each
float comes back from its own text. -/
lemma Program.load_seal_eq_ok_iff (code : Code) :
    Program.load (Program.seal code).toText true = .ok (Program.seal code) ↔
      code.toJson.nesting < Json.maxDepth ∧ ∀ x ∈ code.floats, Json.reread x = .ok x := by
  rw [load_eq_ok_iff, ← Code.reread_eq_self_iff]
  constructor
  · rintro ⟨hread, -⟩
    have hnesting : code.toJson.nesting < Json.maxDepth := by
      have hloaded := (loadable_of_ofText hread).nesting_le
      rwa [Program.nesting_toJson] at hloaded
    refine ⟨hnesting, ?_⟩
    rw [ofText_seal hnesting, Except.map_eq_ok_iff] at hread
    obtain ⟨decoded, hdecoded, hseal⟩ := hread
    obtain rfl : decoded = code := congrArg Program.code hseal
    exact hdecoded
  · rintro ⟨hnesting, hreread⟩
    refine ⟨?_, Program.seal_intact code⟩
    rw [ofText_seal hnesting, hreread]
    rfl

/-- Saving a sealed program without floats and loading it again gives back the very same program, and
its digest agrees, as long as the code leaves room for the program's own bracket; and only then. -/
theorem Program.load_seal_of_floats_eq_nil {code : Code} (hfloats : code.floats = []) :
    Program.load (Program.seal code).toText true = .ok (Program.seal code) ↔
      code.toJson.nesting < Json.maxDepth := by
  rw [load_seal_eq_ok_iff, hfloats]
  simp

/-- A call with a repeated keyword, an extreme number and text that must be escaped. -/
theorem Program.load_seal_escaped_call :
    let code : Code := ⟨"<module>", "dir\\a\u2028\"b\".rb",
      [.expression 4294967295 (.call (.name "p") [.constant (.int Int64.minValue)]
        [("sep", .constant (.str "\u0000\n\t𝄞")), ("sep", .list [.constant .none])])]⟩
    code.floats = [] ∧ Program.load (Program.seal code).toText true = .ok (Program.seal code) :=
  ⟨by decide +kernel, (load_seal_of_floats_eq_nil (by decide +kernel)).mpr (by decide +kernel)⟩

/-- One statement that negates a name `count` times. -/
def Code.negations (count : Nat) : Code :=
  ⟨"<module>", "c.rb", [.expression 1 ((Expr.unary .neg)^[count] (.name "x"))]⟩

lemma Code.floats_negations (count : Nat) : (Code.negations count).floats = [] := by
  have hexpr : ((Expr.unary .neg)^[count] (.name "x")).floats = [] := by
    induction count with
    | zero => rfl
    | succ count ih => rw [Function.iterate_succ_apply', Expr.floats, ih]
  simp [negations, floats, Stmt.blockFloats, Stmt.floats, hexpr]

/-- A program whose code nests up to the limit is not read back, though a text of that depth is. -/
theorem Program.load_seal_negations_ne :
    (Code.negations 61).floats = [] ∧ (Code.negations 61).toJson.nesting ≤ Json.maxDepth ∧
      Program.load (Program.seal (Code.negations 61)).toText true ≠
        .ok (Program.seal (Code.negations 61)) := by
  have hnesting : (Code.negations 61).toJson.nesting = Json.maxDepth := by decide +kernel
  refine ⟨Code.floats_negations 61, hnesting.le, ?_⟩
  rw [Ne, load_seal_eq_ok_iff, hnesting]
  simp

/-- One statement that mentions a float. -/
def Code.mentioning (x : Float) : Code :=
  ⟨"<module>", "c.rb", [.expression 1 (.constant (.float x))]⟩

lemma Program.load_seal_mentioning_iff (x : Float) :
    Program.load (Program.seal (Code.mentioning x)).toText true = .ok (Program.seal (Code.mentioning x)) ↔
      Json.reread x = .ok x := by
  have hnesting : (Code.mentioning x).toJson.nesting = 6 := rfl
  have hfloats : (Code.mentioning x).floats = [x] := rfl
  rw [load_seal_eq_ok_iff, hnesting, hfloats]
  simp [Json.maxDepth]

end SealedScript
