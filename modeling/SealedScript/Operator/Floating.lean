import SealedScript.Decimal.FiniteFloat
import SealedScript.Exception
import SealedScript.Value.Basic

/-! Operators on floats. -/

namespace SealedScript.Operator

open Decimal (FloatClass)

def notANumber : Float := 0.0 / 0.0

/-- The remainder of truncated division, exact, with the sign of the dividend. -/
def truncatedRemainder (a b : Float) : Float :=
  match FloatClass.ofFloat a, FloatClass.ofFloat b with
  | .finite x, .finite y => if y.mantissa = 0 then notANumber else (x.rem y).toFloat
  | .finite _, .infinite _ => a
  | _, _ => notANumber

/-- The remainder with the sign of the divisor. -/
def floorRemainder (a b : Float) : Float :=
  let r := truncatedRemainder a b
  if r != 0.0 && (r < 0.0) != (b < 0.0) then r + b else r

/-- No result for the operators that work on bits. -/
def floating (op : BinaryOp) (a b : Float) : Option (Except Cause Value) :=
  match op with
  | .add => some (.ok (.float (a + b)))
  | .sub => some (.ok (.float (a - b)))
  | .mul => some (.ok (.float (a * b)))
  | .div => some (if b == 0.0 then .error .floatDivision else .ok (.float (a / b)))
  | .mod => some (if b == 0.0 then .error .floatDivision else .ok (.float (floorRemainder a b)))
  | .pow => some (if a == 0.0 && b < 0.0 then .error .zeroPower else .ok (.float (a.pow b)))
  | _ => none

end SealedScript.Operator
