import SealedScript.Digest.Sha256
import SealedScript.Program.Encode

/-! A program is sealed by the digest of its code's canonical text. -/

namespace SealedScript

/-- The text with sorted members, so that it depends on the code alone. -/
def Code.canonicalText (code : Code) : String :=
  code.toJson.sortMembers.toText

def Code.digest (code : Code) : String :=
  Digest.ofText code.canonicalText

/-- Code with its own digest. -/
def Program.seal (code : Code) : Program :=
  ⟨code.digest, code⟩

/-- The digest a program carries is that of its code. -/
def Program.Intact (program : Program) : Prop :=
  program.hash = program.code.digest

instance (program : Program) : Decidable program.Intact :=
  inferInstanceAs (Decidable (_ = _))

theorem Program.seal_intact (code : Code) : (Program.seal code).Intact := rfl

end SealedScript
