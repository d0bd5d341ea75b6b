import SealedScript.Program.Decode
import SealedScript.Program.Seal

/-! Loading a program from its text, with or without a check of its digest. -/

namespace SealedScript

/-- Why a program cannot be loaded. A complaint of the parser or of the encoder is of the type `ε`: the
kind of fault where the library itself decides it, the words of the complaint where it is reported. -/
inductive LoadError (ε : Type) where
  /-- The file cannot be read, for the reason the operating system gives. -/
  | unreadable (reason : String)
  | unparsable (complaint : ε)
  /-- The code has no canonical text to take the digest of. The code of this library always has one; other
  loaders may fail so. -/
  | unencodable (complaint : ε)
  | altered (expected computed : String)
  deriving DecidableEq, Repr

/-- The same error, with the complaint put otherwise. -/
def LoadError.map {ε δ : Type} (f : ε → δ) : LoadError ε → LoadError δ
  | .unreadable reason => .unreadable reason
  | .unparsable complaint => .unparsable (f complaint)
  | .unencodable complaint => .unencodable (f complaint)
  | .altered expected computed => .altered expected computed

def LoadError.message : LoadError String → String
  | .unreadable reason => "I/O Error: " ++ reason
  | .unparsable words => "JSON Parse Error: " ++ words
  | .unencodable words => "AST Error: JSON error: " ++ words
  | .altered expected computed =>
    "Integrity Error: Hash Mismatch. Expected " ++ expected ++ ", computed " ++ computed ++ "."

example : LoadError.message (.unencodable "key must be a string") =
    "AST Error: JSON error: key must be a string" := by decide

/-- Refuses a program whose digest is not that of its code. -/
def Program.verify (program : Program) : Except (LoadError Json.Fault) Program :=
  if program.Intact then .ok program else .error (.altered program.hash program.code.digest)

def Program.load (text : String) (verify : Bool) : Except (LoadError Json.Fault) Program :=
  match Program.ofText text with
  | .error fault => .error (.unparsable fault)
  | .ok program => if verify then program.verify else .ok program

/-- A program in a file: the bytes must be UTF-8. -/
def Program.loadBytes (bytes : ByteArray) (verify : Bool) : Except (LoadError Json.Fault) Program :=
  match String.fromUTF8? bytes with
  | none => .error (.unreadable "stream did not contain valid UTF-8")
  | some text => load text verify

theorem Program.intact_of_load {text : String} {program : Program}
    (h : load text true = .ok program) : program.Intact := by
  unfold load at h
  split at h
  · exact absurd h (by simp)
  · simp only [if_true, verify] at h
    split at h
    · cases h
      assumption
    · exact absurd h (by simp)

/-- What is loaded does not depend on the words for what is refused. -/
theorem Program.load_of_worded {text : String} {verify : Bool} {program : Program}
    {words : Json.Fault → String} (h : (load text verify).mapError (LoadError.map words) = .ok program) :
    load text verify = .ok program := by
  cases hload : load text verify with
  | error e =>
    rw [hload] at h
    cases h
  | ok loaded =>
    rw [hload] at h
    cases h
    rfl

end SealedScript
