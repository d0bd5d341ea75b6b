import SealedScript.Machine.Basic

/-! What running programs rely on beyond their own text: code of the host, and patience for loops. -/

namespace SealedScript

structure Engine where
  /-- Runs the code behind a builtin. -/
  native : Entry → List Value → List (String × Value) → Run Value
  /-- Fills the namespace of a module. -/
  initializer : (symbol : String) → Namespace → Run Namespace
  hook : (symbol : String) → Exception → Run Unit
  /-- The number of turns after which a loop is given up. -/
  turns : Nat

/-- Runs no code and no loop. -/
def Engine.idle : Engine where
  native _ _ _ := Run.exhausted
  initializer _ _ := Run.exhausted
  hook _ _ := Run.exhausted
  turns := 0

end SealedScript
