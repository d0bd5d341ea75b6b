/-! Values of running programs. Classes, objects and modules carry a number that tells them apart
from all others. -/

namespace SealedScript

/-- The code behind a builtin: the line printer, or code of the host known by a symbol. -/
inductive Entry where
  | puts
  | foreign (symbol : String)
  deriving DecidableEq, Repr

/-- A class over values of type `α`: methods are sorted by name. -/
structure ClassOf (α : Type) where
  id : Nat
  name : String
  methods : List (String × α)

/-- An imported module over values of type `α`: bindings are sorted by name. -/
structure ModuleOf (α : Type) where
  id : Nat
  name : String
  bindings : List (String × α)

inductive Value where
  | none
  | bool (b : Bool)
  | int (i : Int64)
  | float (x : Float)
  | str (s : String)
  | list (items : List Value)
  | builtin (name : String) (entry : Entry)
  | type (cls : ClassOf Value)
  | object (id : Nat) (cls : ClassOf Value)
  | module (mod : ModuleOf Value)
  deriving Inhabited

abbrev Class := ClassOf Value

abbrev Module := ModuleOf Value

namespace Value

def typeName : Value → String
  | .none => "NoneType"
  | .bool _ => "bool"
  | .int _ => "int"
  | .float _ => "float"
  | .str _ => "str"
  | .list _ => "list"
  | .builtin _ _ => "builtin_function_or_method"
  | .type _ => "type"
  | .object _ cls => cls.name
  | .module _ => "module"

/-- Zero and what is empty count as false; a float that is not a number counts as true. -/
def truthy : Value → Bool
  | .none => false
  | .bool b => b
  | .int i => i != 0
  | .float x => x != 0.0
  | .str s => !s.isEmpty
  | .list items => !items.isEmpty
  | _ => true

def callable : Value → Bool
  | .builtin _ _ => true
  | .type _ => true
  | _ => false

/-- Bools count as the integers zero and one. -/
def asInt? : Value → Option Int64
  | .bool b => some (if b then 1 else 0)
  | .int i => some i
  | _ => Option.none

mutual

/-- Equality of values of one kind: data by content, floats as numbers, builtins by name and code,
classes, objects and modules by identity. -/
def same : Value → Value → Bool
  | .none, .none => true
  | .bool a, .bool b => a == b
  | .int a, .int b => a == b
  | .float a, .float b => a == b
  | .str a, .str b => a == b
  | .list xs, .list ys => sameItems xs ys
  | .builtin n e, .builtin m f => n == m && e == f
  | .type c, .type d => c.id == d.id
  | .object i _, .object j _ => i == j
  | .module m, .module n => m.id == n.id
  | _, _ => false

def sameItems : List Value → List Value → Bool
  | [], [] => true
  | x :: xs, y :: ys => x.same y && sameItems xs ys
  | _, _ => false

end

end Value

end SealedScript
