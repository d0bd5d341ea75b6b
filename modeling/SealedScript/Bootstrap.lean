import SealedScript.Machine.Basic

/-! The globals that every program finds bound. -/

namespace SealedScript.Bootstrap

/-- The name under which the line printer shows itself. -/
def printerName : String := "puts"

def standardNames : List (String × Value) :=
  [("true", .bool true), ("false", .bool false), ("p", .builtin printerName .puts)]

/-- Binds names one after the other and stops at the first that cannot be bound. -/
def bindAll : List (String × Value) → Run Unit
  | [] => pure ()
  | (name, value) :: rest => do
    Run.assign name value
    bindAll rest

def standard : Run Unit :=
  bindAll standardNames

end SealedScript.Bootstrap
