import SealedScript.Decimal.FiniteFloat
import SealedScript.Json.Read

/-! Reading numbers. An integer that fits sixty-four bits stays one; any other number becomes a
float by one multiplication or division with a power of ten. -/

namespace SealedScript.Json.Read

/-- An integer from `-2 ^ 63` to `2 ^ 64 - 1`, or a float. -/
inductive Number where
  | int (i : Int)
  | float (x : Float)

def digitValue (c : Char) : Nat :=
  c.toNat - 48

/-- Appends digits to `n` as long as it stays below `2 ^ 64`, and gives back the digits left over. -/
def accumulate : Nat → List Char → Nat × List Char
  | n, [] => (n, [])
  | n, c :: rest =>
    if 2 ^ (64 : Nat) ≤ n * 10 + digitValue c then (n, c :: rest) else accumulate (n * 10 + digitValue c) rest

def natValue (digits : List Char) : Nat :=
  digits.foldl (fun n c => n * 10 + digitValue c) 0

def powerOfTen (k : Nat) : Float :=
  .ofScientific 1 false k

/-- Divides by `10 ^ k`, in steps when the power itself is out of range. -/
def scaleDown (x : Float) (k : Nat) : Float :=
  if k ≤ 308 then x / powerOfTen k
  else if x == 0.0 then x
  else scaleDown (x / powerOfTen 308) (k - 308)
termination_by k

/-- The float nearest to `significand`, moved by `exponent` decimal places. -/
def floatOfParts (significand : Nat) (exponent : Int) : Except Fault Float :=
  let x := (UInt64.ofNat significand).toFloat
  if 0 ≤ exponent then
    if exponent ≤ 308 then
      let scaled := x * powerOfTen exponent.toNat
      if scaled.isInf then .error .malformed else .ok scaled
    else if x == 0.0 then .ok x
    else .error .malformed
  else .ok (scaleDown x exponent.natAbs)

/-- One or more digits; without any the text is malformed, or has ended. -/
def someDigits : Read (List Char) := do
  let ds ← digits
  if ds.isEmpty then
    match ← peek with
    | none => throw .truncated
    | some _ => throw .malformed
  return ds

/-- The largest exponent that is read as a number. -/
def maxExponent : Nat := 2 ^ (31 : Nat) - 1

/-- The part after `e`: the places to move are added to those in `places`. -/
def exponentPart (significand : Nat) (places : Int) : Read Float := do
  advance
  let negative ← match ← peek with
    | some '-' => do advance; pure true
    | some '+' => do advance; pure false
    | _ => pure false
  let exponent := natValue (← someDigits)
  if maxExponent < exponent then
    if significand ≠ 0 ∧ !negative then throw .malformed else return 0.0
  floatOfParts significand (if negative then places - exponent else places + exponent)

def isExponentMark (c : Option Char) : Bool :=
  c == some 'e' || c == some 'E'

/-- The part after the point. -/
def fractionPart (significand : Nat) (places : Int) : Read Float := do
  advance
  let ds ← someDigits
  let (significand, unread) := accumulate significand ds
  let places := places - (ds.length - unread.length : Nat)
  if isExponentMark (← peek) then exponentPart significand places
  else floatOfParts significand places

/-- A zero before point and exponent stands alone. -/
def leadingDigits : Read (List Char) := do
  match ← someDigits with
  | '0' :: _ :: _ => throw .malformed
  | ds => pure ds

/-- The number whose sign has been taken. Minus zero is a float, as are integers out of range. -/
def numberRest (negative : Bool) : Read Number := do
  let ds ← leadingDigits
  let (significand, unread) := accumulate 0 ds
  let signed (x : Float) : Number := .float (if negative then -x else x)
  let next ← peek
  if next == some '.' then signed <$> fractionPart significand unread.length
  else if isExponentMark next then signed <$> exponentPart significand unread.length
  else if !unread.isEmpty then signed <$> floatOfParts significand unread.length
  else if negative ∧ (significand = 0 ∨ 2 ^ (63 : Nat) < significand) then
    return signed (UInt64.ofNat significand).toFloat
  else return .int (if negative then -(significand : Int) else significand)

/-- One or more digits that nobody asks the value of; even at the end of the text, having none is
malformed. -/
def skipDigits : Read (List Char) := do
  let ds ← digits
  if ds.isEmpty then throw .malformed
  return ds

/-- Passes over a number without asking for its value. -/
def skipNumberRest : Read Unit := do
  if let '0' :: _ :: _ ← skipDigits then throw .malformed
  if (← peek) == some '.' then
    advance
    let _ ← skipDigits
  if isExponentMark (← peek) then
    advance
    if (← peek) == some '+' || (← peek) == some '-' then advance
    let _ ← skipDigits

end SealedScript.Json.Read
