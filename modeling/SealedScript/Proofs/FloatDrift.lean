import SealedScript.Proofs.Canonical

/-! A float may come back from its text as another float. The digest is then computed from other code
than it was sealed with, and an untouched program is reported as altered. -/

namespace SealedScript

lemma Code.reread_mentioning {x y : Float} (h : Json.reread x = .ok y) :
    (Code.mentioning x).reread = .ok (Code.mentioning y) := by
  simp [Code.mentioning, Code.reread, Stmt.rereadBlock, Stmt.reread, Expr.reread, Constant.reread, h]

namespace Program

variable {code decoded : Code}

lemma load_seal_of_reread (hnesting : code.toJson.nesting < Json.maxDepth)
    (h : code.reread = .ok decoded) :
    Program.load (Program.seal code).toText true = (Program.mk code.digest decoded).verify := by
  unfold load
  rw [ofText_seal hnesting, h]
  rfl

lemma load_seal_of_fault (hnesting : code.toJson.nesting < Json.maxDepth) {fault : Json.Fault}
    (h : code.reread = .error fault) :
    Program.load (Program.seal code).toText true = .error (.unparsable fault) := by
  unfold load
  rw [ofText_seal hnesting, h]
  rfl

/-- Code that comes back from its own text has finite floats. -/
lemma isFinite_of_reread (hnesting : code.toJson.nesting < Json.maxDepth)
    (h : code.reread = .ok decoded) : ∀ x ∈ decoded.floats, x.isFinite = true := by
  have hread : Program.ofText (Program.seal code).toText = .ok (Program.mk code.digest decoded) := by
    rw [ofText_seal hnesting, h]
    rfl
  exact (loadable_of_ofText hread).isFinite

lemma load_seal_of_drift (hfinite : ∀ x ∈ code.floats, x.isFinite = true)
    (hnesting : code.toJson.nesting < Json.maxDepth) (h : code.reread = .ok decoded)
    (hdrift : decoded ≠ code) (hseparates : Digest.Separates code.canonicalText decoded.canonicalText) :
    Program.load (Program.seal code).toText true = .error (.altered code.digest decoded.digest) := by
  have haltered : ¬ (Program.mk code.digest decoded).Intact := by
    intro hsame
    have htext := hseparates.eq_of_ofText_eq hsame
    exact hdrift (Code.canonicalText_inj hfinite (isFinite_of_reread hnesting h) htext).symm
  rw [load_seal_of_reread hnesting h, verify, if_neg haltered]

/-- An untouched program with finite floats is accepted exactly when its code leaves room for the
program's own bracket and each float comes back from its own text as it was. Where some float comes
back as another one, the program is reported as altered, unless SHA-256 collides; where some float does
not come back at all, its text is refused. -/
theorem load_seal_iff_floats_reread (hfinite : ∀ x ∈ code.floats, x.isFinite = true) :
    (Program.load (Program.seal code).toText true = .ok (Program.seal code) ↔
        code.toJson.nesting < Json.maxDepth ∧ ∀ x ∈ code.floats, Json.reread x = .ok x) ∧
      (code.toJson.nesting < Json.maxDepth →
        (∀ decoded, code.reread = .ok decoded → decoded ≠ code →
          Digest.Separates code.canonicalText decoded.canonicalText →
          Program.load (Program.seal code).toText true =
            .error (.altered code.digest decoded.digest)) ∧
        ∀ fault, code.reread = .error fault →
          Program.load (Program.seal code).toText true = .error (.unparsable fault)) := by
  refine ⟨load_seal_eq_ok_iff code, fun hnesting => ⟨?_, ?_⟩⟩
  · exact fun decoded => load_seal_of_drift hfinite hnesting
  · exact fun fault => load_seal_of_fault hnesting

/-- The float next to the one that was saved comes back, and nobody touched the text. -/
theorem load_seal_tiny_float_altered :
    (∀ x ∈ (Code.mentioning 1e-39).floats, x.isFinite = true) ∧
      (Code.mentioning 1e-39).toJson.nesting < Json.maxDepth ∧
      Program.load (Program.seal (Code.mentioning 1e-39)).toText true =
        .error (.altered (Code.mentioning 1e-39).digest
          (Code.mentioning 1.0000000000000001e-39).digest) := by
  have hfinite : ∀ x ∈ (Code.mentioning 1e-39).floats, x.isFinite = true := by decide +kernel
  have hnesting : (Code.mentioning 1e-39).toJson.nesting < Json.maxDepth := by decide +kernel
  have hreread : (Code.mentioning 1e-39).reread = .ok (Code.mentioning 1.0000000000000001e-39) :=
    Code.reread_mentioning (by decide +kernel)
  have hdrift : Code.mentioning 1.0000000000000001e-39 ≠ Code.mentioning 1e-39 := by
    intro hsame
    have hfloats : [(1.0000000000000001e-39 : Float)] = [1e-39] := congrArg Code.floats hsame
    exact absurd hfloats (by decide +kernel)
  have hseparates : Digest.Separates (Code.mentioning 1e-39).canonicalText
      (Code.mentioning 1.0000000000000001e-39).canonicalText := by
    -- the two digests are computed, so nothing is assumed of SHA-256
    unfold Digest.Separates Code.canonicalText Json.toText
    simp only [Digest.toUTF8_ofList]
    decide +kernel
  exact ⟨hfinite, hnesting,
    ((load_seal_iff_floats_reread hfinite).2 hnesting).1 _ hreread hdrift hseparates⟩

end Program

end SealedScript
