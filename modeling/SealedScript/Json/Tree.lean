import SealedScript.Decimal.Layout
import SealedScript.Table

/-! JSON trees and their compact text. -/

namespace SealedScript

inductive Json where
  | null
  | bool (b : Bool)
  | int (i : Int)
  | float (x : Float)
  | str (s : String)
  | arr (items : List Json)
  | obj (members : List (String × Json))
  deriving Inhabited

namespace Json

/-- Numbers are positional from `0.00001` up to below `10 ^ 16` and always show a point or an
exponent; of two equally near digit strings the even one is written. -/
def numberLayout : Decimal.Layout where
  tie := .toEven
  positional leading := -5 ≤ leading && leading < 16
  keepsPoint _ := true

/-- A float that is not finite has no JSON number and is written as `null`. -/
def floatText (x : Float) : List Char :=
  match Decimal.FloatClass.ofFloat x with
  | .finite parts => numberLayout.render parts
  | _ => "null".toList

/-- Quotes, backslashes and control characters are escaped, all else stands for itself. -/
def escape (c : Char) : List Char :=
  if c = '"' then ['\\', '"']
  else if c = '\\' then ['\\', '\\']
  else if c = '\n' then ['\\', 'n']
  else if c = '\r' then ['\\', 'r']
  else if c = '\t' then ['\\', 't']
  else if c.toNat = 8 then ['\\', 'b']
  else if c.toNat = 12 then ['\\', 'f']
  else if c.toNat < 32 then
    ['\\', 'u', '0', '0', Nat.digitChar (c.toNat / 16), Nat.digitChar (c.toNat % 16)]
  else [c]

def quoted (s : String) : List Char :=
  '"' :: s.toList.flatMap escape ++ ['"']

mutual

/-- The text without blanks, members in the order they stand. -/
def render : Json → List Char
  | .null => "null".toList
  | .bool b => (if b then "true" else "false").toList
  | .int i => Decimal.integer i
  | .float x => floatText x
  | .str s => quoted s
  | .arr items => '[' :: renderItems items ++ [']']
  | .obj members => '\x7b' :: renderMembers members ++ ['\x7d']

def renderItems : List Json → List Char
  | [] => []
  | [item] => item.render
  | item :: rest => item.render ++ ',' :: renderItems rest

def renderMembers : List (String × Json) → List Char
  | [] => []
  | [(key, value)] => quoted key ++ ':' :: value.render
  | (key, value) :: rest => quoted key ++ ':' :: value.render ++ ',' :: renderMembers rest

end

mutual

/-- Every object with its members in increasing order of their keys. -/
def sortMembers : Json → Json
  | .arr items => .arr (sortItems items)
  | .obj members => .obj (Table.ofList (sortValues members))
  | other => other

def sortItems : List Json → List Json
  | [] => []
  | item :: rest => item.sortMembers :: sortItems rest

def sortValues : List (String × Json) → List (String × Json)
  | [] => []
  | (key, value) :: rest => (key, value.sortMembers) :: sortValues rest

end

def toText (tree : Json) : String :=
  String.ofList tree.render

end Json

end SealedScript
