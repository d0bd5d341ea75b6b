import SealedScript.Machine.Basic
import SealedScript.Text.Invisible

/-! One-line descriptions of a machine's parts, for whoever looks into a run. -/

namespace SealedScript

namespace Text

/-- A character as it stands between double quotes; what cannot be seen is given by its number. -/
def escapeShown (c : Char) : List Char :=
  if c = '\x00' then ['\\', '0']
  else if c = '\t' then ['\\', 't']
  else if c = '\r' then ['\\', 'r']
  else if c = '\n' then ['\\', 'n']
  else if c = '"' then ['\\', '"']
  else if c = '\\' then ['\\', '\\']
  else if isInvisible c then '\\' :: 'u' :: '\x7b' :: Nat.toDigits 16 c.toNat ++ ['\x7d']
  else [c]

def shown (s : String) : String :=
  String.ofList ('"' :: s.toList.flatMap escapeShown ++ ['"'])

def shownList (names : List String) : String :=
  "[" ++ ", ".intercalate (names.map shown) ++ "]"

end Text

def Registry.describe (r : Registry) : String :=
  "ModuleRegistry \x7b natives: " ++ Text.shownList (Table.names r.initializers)
    ++ ", loaded: " ++ Text.shownList (Table.names r.loaded) ++ " \x7d"

/-- What a machine reaches besides its globals. -/
def Machine.describeServices (m : Machine) : String :=
  "Services \x7b modules: " ++ m.modules.describe ++ ", excepthook: "
    ++ (if m.hook.isSome then "true" else "false") ++ ", .. \x7d"

def Value.describeBuiltin (name : String) : String :=
  "Builtin(" ++ name ++ ")"

def Stream.description : String := "Stream"

end SealedScript
