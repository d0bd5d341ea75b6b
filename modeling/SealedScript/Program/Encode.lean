import SealedScript.Json.Tree
import SealedScript.Program.Basic

/-! Programs as JSON trees. A choice is an object with one member named for it, or its bare name
when it carries nothing. -/

namespace SealedScript

def BinaryOp.tag : BinaryOp → String
  | .add => "Add"
  | .sub => "Sub"
  | .mul => "Mul"
  | .div => "Div"
  | .mod => "Mod"
  | .pow => "Pow"
  | .lshift => "LShift"
  | .rshift => "RShift"
  | .bitAnd => "BitAnd"
  | .bitOr => "BitOr"
  | .bitXor => "BitXor"

def BinaryOp.all : List BinaryOp :=
  [.add, .sub, .mul, .div, .mod, .pow, .lshift, .rshift, .bitAnd, .bitOr, .bitXor]

def BinaryOp.ofTag? (tag : String) : Option BinaryOp :=
  all.find? (·.tag == tag)

def UnaryOp.tag : UnaryOp → String
  | .neg => "Neg"
  | .pos => "Pos"
  | .invert => "Invert"
  | .not => "Not"

def UnaryOp.all : List UnaryOp :=
  [.neg, .pos, .invert, .not]

def UnaryOp.ofTag? (tag : String) : Option UnaryOp :=
  all.find? (·.tag == tag)

/-- A choice that carries content. -/
def Json.tagged (tag : String) (content : Json) : Json :=
  .obj [(tag, content)]

def Constant.toJson : Constant → Json
  | .none => .str "None"
  | .bool b => .tagged "Bool" (.bool b)
  | .int i => .tagged "Int" (.int i.toInt)
  | .float x => .tagged "Float" (.float x)
  | .str s => .tagged "Str" (.str s)

mutual

def Expr.toJson : Expr → Json
  | .constant c => .tagged "Constant" c.toJson
  | .name ident => .tagged "Name" (.str ident)
  | .list items => .tagged "List" (.arr (itemsToJson items))
  | .binary op lhs rhs =>
    .tagged "BinOp" (.obj [("op", .str op.tag), ("lhs", lhs.toJson), ("rhs", rhs.toJson)])
  | .unary op operand =>
    .tagged "UnaryOp" (.obj [("op", .str op.tag), ("operand", operand.toJson)])
  | .call callee args kwargs =>
    .tagged "Call" (.obj [("func", callee.toJson), ("args", .arr (itemsToJson args)),
      ("kwargs", .arr (kwargsToJson kwargs))])

def Expr.itemsToJson : List Expr → List Json
  | [] => []
  | item :: rest => item.toJson :: itemsToJson rest

def Expr.kwargsToJson : List (String × Expr) → List Json
  | [] => []
  | (key, value) :: rest => .arr [.str key, value.toJson] :: kwargsToJson rest

end

/-- A statement as a record of its line and what it does. -/
def Stmt.record (line : UInt32) (kind : Json) : Json :=
  .obj [("line", .int line.toNat), ("kind", kind)]

mutual

def Stmt.toJson : Stmt → Json
  | .assign line target value =>
    record line (.tagged "Assign" (.obj [("target", .str target), ("value", value.toJson)]))
  | .expression line value => record line (.tagged "Expression" value.toJson)
  | .branch line condition thenBlock elseBlock =>
    record line (.tagged "If" (.obj [("condition", condition.toJson),
      ("then_block", .arr (blockToJson thenBlock)), ("else_block", .arr (blockToJson elseBlock))]))
  | .loop line condition body =>
    record line (.tagged "While" (.obj [("condition", condition.toJson),
      ("body", .arr (blockToJson body))]))
  | .pass line => record line (.str "Pass")

def Stmt.blockToJson : List Stmt → List Json
  | [] => []
  | stmt :: rest => stmt.toJson :: blockToJson rest

end

def Code.toJson (code : Code) : Json :=
  .obj [("name", .str code.name), ("filename", .str code.filename),
    ("body", .arr (Stmt.blockToJson code.body))]

def Program.toJson (program : Program) : Json :=
  .obj [("hash", .str program.hash), ("code", program.code.toJson)]

def Program.toText (program : Program) : String :=
  program.toJson.toText

theorem BinaryOp.ofTag?_tag (op : BinaryOp) : ofTag? op.tag = some op := by
  cases op <;> decide

theorem UnaryOp.ofTag?_tag (op : UnaryOp) : ofTag? op.tag = some op := by
  cases op <;> decide

end SealedScript
