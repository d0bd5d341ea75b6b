import SealedScript.Decimal.Shortest

/-! Number texts: integers, and floats laid out positionally or with an exponent. -/

namespace SealedScript.Decimal

def natural (n : Nat) : List Char :=
  Nat.toDigits 10 n

def integer (i : Int) : List Char :=
  if i < 0 then '-' :: natural i.natAbs else natural i.natAbs

/-- The decisions a float format makes beyond the digits themselves; both functions take the
exponent of the leading digit. -/
structure Layout where
  tie : Tie
  positional : Int → Bool
  /-- A whole number is written with a final `.0`. -/
  keepsPoint : Int → Bool

/-- The digits without an exponent. -/
def positionalText (digits : List Char) (exponent : Int) (keepsPoint : Bool) : List Char :=
  if 0 ≤ exponent then
    digits ++ List.replicate exponent.toNat '0' ++ if keepsPoint then ['.', '0'] else []
  else
    let places := (-exponent).toNat
    if places < digits.length then
      digits.take (digits.length - places) ++ '.' :: digits.drop (digits.length - places)
    else '0' :: '.' :: List.replicate (places - digits.length) '0' ++ digits

/-- One digit, the others after a point, and the exponent with its sign. -/
def scientificText (digits : List Char) (leading : Int) : List Char :=
  let mantissa := match digits with
    | [] => []
    | [d] => [d]
    | d :: rest => d :: '.' :: rest
  mantissa ++ 'e' :: (if leading < 0 then '-' else '+') :: natural leading.natAbs

/-- The text of a finite float. -/
def Layout.render (layout : Layout) (x : FiniteFloat) : List Char :=
  let d := shortest layout.tie x
  let digits := natural d.coefficient
  let leading := d.exponent + digits.length - 1
  let text :=
    if layout.positional leading then
      positionalText digits d.exponent (layout.keepsPoint leading)
    else scientificText digits leading
  if x.negative then '-' :: text else text

end SealedScript.Decimal
