import SealedScript.Operator.Floating
import SealedScript.Operator.Integer
import SealedScript.Operator.Repetition

/-! Operators of expressions on values of every kind. -/

namespace SealedScript

/-- A value as a number; bools are integers. -/
inductive Operator.Numeric where
  | int (i : Int64)
  | float (x : Float)

def Operator.Numeric.toFloat : Numeric → Float
  | .int i => .ofInt i.toInt
  | .float x => x

def Value.numeric? : Value → Option Operator.Numeric
  | .bool b => some (.int (if b then 1 else 0))
  | .int i => some (.int i)
  | .float x => some (.float x)
  | _ => Option.none

namespace BinaryOp

def unsupported (op : BinaryOp) (lhs rhs : Value) : Cause :=
  .binaryOperands op lhs.typeName rhs.typeName

/-- Two numbers: integers if both are, floats otherwise. -/
def applyNumeric (op : BinaryOp) (lhs rhs : Value) : Except Cause Value :=
  match lhs.numeric?, rhs.numeric? with
  | some (.int a), some (.int b) => Operator.integer op a b
  | some a, some b =>
    (Operator.floating op a.toFloat b.toFloat).getD (.error (op.unsupported lhs rhs))
  | _, _ => .error (op.unsupported lhs rhs)

/-- A product of a string or list with an integer, on either side. -/
def applyRepetition? (lhs rhs : Value) : Option (Except Cause Value) :=
  match lhs, rhs with
  | .str s, n => n.asInt?.map fun i => Operator.repeatText s i.toInt
  | n, .str s => n.asInt?.map fun i => Operator.repeatText s i.toInt
  | .list items, n => n.asInt?.map fun i => Operator.repeatList items i.toInt
  | n, .list items => n.asInt?.map fun i => Operator.repeatList items i.toInt
  | _, _ => none

/-- Strings and lists are joined by `+` and repeated by `*`; all else is arithmetic. -/
def apply (op : BinaryOp) (lhs rhs : Value) : Except Cause Value :=
  match op, lhs, rhs with
  | .add, .str a, .str b => .ok (.str (a ++ b))
  | .add, .list a, .list b => .ok (.list (a ++ b))
  | .mul, lhs, rhs => (applyRepetition? lhs rhs).getD (applyNumeric .mul lhs rhs)
  | op, lhs, rhs => op.applyNumeric lhs rhs

end BinaryOp

namespace UnaryOp

def negate (i : Int64) : Except Cause Value :=
  if i = Int64.minValue then .error .negationOverflow else .ok (.int (-i))

def apply (op : UnaryOp) (operand : Value) : Except Cause Value :=
  match op, operand.numeric? with
  | .not, _ => .ok (.bool (!operand.truthy))
  | .neg, some (.float x) => .ok (.float (-x))
  | .pos, some (.float x) => .ok (.float x)
  | .neg, some (.int i) => negate i
  | .pos, some (.int i) => .ok (.int i)
  | .invert, some (.int i) => .ok (.int (~~~i))
  | op, _ => .error (.unaryOperand op operand.typeName)

end UnaryOp

end SealedScript
