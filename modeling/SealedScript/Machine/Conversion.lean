import SealedScript.Machine.Call
import SealedScript.Value.Text

/-! Values as text, and the line printer. Objects may have methods that give their text. -/

namespace SealedScript

open Run

/-- The result of a method that gives the text of an object. -/
def Value.expectText (method : String) : Value → Run String
  | .str s => pure s
  | other => fail (.notText method other.typeName)

/-- The text that a method of the object's class gives, if there is such a method. -/
def Value.textBy (engine : Engine) (method : String) (owner : Value) (cls : Class)
    (otherwise : Run String) : Run String :=
  match Table.get? method cls.methods with
  | some callee => do (← callee.call engine [owner] []).expectText method
  | .none => otherwise

mutual

/-- The text that shows what a value is. -/
def Value.repr (engine : Engine) : Value → Run String
  | .none => pure "None"
  | .bool b => pure (if b then "True" else "False")
  | .int i => pure (intText i.toInt)
  | .float x => pure (floatText x)
  | .str s => pure (quote s)
  | .list items => do return "[" ++ ", ".intercalate (← reprItems engine items) ++ "]"
  | .builtin name _ => pure ("<built-in function " ++ name ++ ">")
  | .type cls => pure ("<class '" ++ cls.name ++ "'>")
  | .object id cls =>
    textBy engine "__repr__" (.object id cls) cls (pure ("<" ++ cls.name ++ " object>"))
  | .module mod => pure ("<module '" ++ mod.name ++ "'>")

def Value.reprItems (engine : Engine) : List Value → Run (List String)
  | [] => pure []
  | item :: rest => do
    let text ← item.repr engine
    return text :: (← reprItems engine rest)

end

/-- The text of a value as output: strings stand for themselves. -/
def Value.toStr (engine : Engine) : Value → Run String
  | .str s => pure s
  | .object id cls =>
    textBy engine "__str__" (.object id cls) cls (Value.repr engine (.object id cls))
  | other => other.repr engine

/-- Prints each value on a line of its own. -/
def puts (engine : Engine) : List Value → Run Value
  | [] => pure .none
  | value :: rest => do
    printLine (← value.toStr engine)
    puts engine rest

end SealedScript
