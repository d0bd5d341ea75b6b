import SealedScript.Exception
import SealedScript.Value.Basic

/-! Operators on sixty-four-bit integers: the exact result, or an exception. -/

namespace SealedScript.Operator

/-- The integer as a value, if it fits sixty-four bits. -/
def fit (op : BinaryOp) (i : Int) : Except Cause Value :=
  if -2 ^ (63 : Nat) ≤ i ∧ i < 2 ^ (63 : Nat) then .ok (.int (Int64.ofInt i)) else .error (.overflow op)

/-- A base other than zero and one overflows from the sixty-fourth power on. -/
def power (a : Int) (b : Nat) : Except Cause Value :=
  if a = 0 then fit .pow (if b = 0 then 1 else 0)
  else if a = 1 then fit .pow 1
  else if a = -1 then fit .pow (if b % 2 = 0 then 1 else -1)
  else if b < 64 then fit .pow (a ^ b)
  else .error (.overflow .pow)

/-- Shifts by sixty-three places or more overflow whatever the operand is, unless it is zero. -/
def shiftLeft (a : Int) (b : Nat) : Except Cause Value :=
  if 63 ≤ b then
    if a = 0 then fit .lshift 0 else .error (.overflow .lshift)
  else fit .lshift (a * 2 ^ b)

def shiftRight (a : Int) (b : Nat) : Except Cause Value :=
  if 64 ≤ b then fit .rshift (if a < 0 then -1 else 0)
  else fit .rshift (a.fdiv (2 ^ b))

/-- Division rounds down; a negative power is a float. -/
def integer (op : BinaryOp) (a b : Int64) : Except Cause Value :=
  let x := a.toInt
  let y := b.toInt
  match op with
  | .add => fit .add (x + y)
  | .sub => fit .sub (x - y)
  | .mul => fit .mul (x * y)
  | .div => if y = 0 then .error .integerDivision else fit .div (x.fdiv y)
  | .mod => if y = 0 then .error .integerDivision else fit .mod (x.fmod y)
  | .pow =>
    if y < 0 then
      if x = 0 then .error .zeroPower else .ok (.float (Float.pow (.ofInt x) (.ofInt y)))
    else power x y.toNat
  | .lshift => if y < 0 then .error .negativeShift else shiftLeft x y.toNat
  | .rshift => if y < 0 then .error .negativeShift else shiftRight x y.toNat
  | .bitAnd => .ok (.int (a &&& b))
  | .bitOr => .ok (.int (a ||| b))
  | .bitXor => .ok (.int (a ^^^ b))

example : Int.fdiv (-7) 2 = -4 ∧ Int.fmod (-7) 2 = 1 ∧ Int.fmod 7 (-2) = -1 := by decide

end SealedScript.Operator
