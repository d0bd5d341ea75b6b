/-! Binary64 numbers taken apart into sign, mantissa and exponent, and put together again. -/

namespace SealedScript

/-- Inside this namespace powers are those of the core library, also where the algebraic ones are in scope.
The instance does not reach a literal exponent without a type, so the definitions give theirs one. -/
scoped instance (priority := 2000) corePow {α : Type} [NatPow α] : Pow α Nat := instPowNat

end SealedScript

namespace SealedScript.Decimal

/-- A finite binary64 number: the magnitude is `mantissa * 2 ^ exponent`. -/
structure FiniteFloat where
  negative : Bool
  mantissa : Nat
  exponent : Int
  deriving DecidableEq, Repr

/-- What the bits of a float stand for. -/
inductive FloatClass where
  | finite (parts : FiniteFloat)
  | infinite (negative : Bool)
  | nan
  deriving DecidableEq, Repr

/-- The smallest exponent of a binary64 number, that of the subnormal ones. -/
def minExponent : Int := -1074

/-- Reads sign, exponent field and fraction field off the bits. -/
def FloatClass.ofBits (bits : Nat) : FloatClass :=
  let negative := bits / 2 ^ (63 : Nat) % 2 == 1
  let field : Nat := bits / 2 ^ (52 : Nat) % 2 ^ (11 : Nat)
  let fraction : Nat := bits % 2 ^ (52 : Nat)
  if field = 2047 then
    if fraction = 0 then .infinite negative else .nan
  else if field = 0 then .finite ⟨negative, fraction, minExponent⟩
  else .finite ⟨negative, 2 ^ (52 : Nat) + fraction, (field : Int) - 1075⟩

def FloatClass.ofFloat (x : Float) : FloatClass :=
  .ofBits x.toBits.toNat

namespace FiniteFloat

/-- The value is a whole number. -/
def isIntegral (x : FiniteFloat) : Bool :=
  if 0 ≤ x.exponent then true else x.mantissa % 2 ^ (-x.exponent).toNat == 0

/-- The bits of a number whose magnitude is exactly a binary64 number. -/
def toBits (x : FiniteFloat) : Nat :=
  let sign := if x.negative then 2 ^ (63 : Nat) else 0
  if x.mantissa = 0 then sign
  else
    let exponent := max minExponent (x.exponent + x.mantissa.log2 - 52)
    let mantissa :=
      if exponent ≤ x.exponent then x.mantissa * 2 ^ (x.exponent - exponent).toNat
      else x.mantissa / 2 ^ (exponent - x.exponent).toNat
    if mantissa < 2 ^ (52 : Nat) then sign + mantissa
    else sign + (exponent + 1075).toNat * 2 ^ (52 : Nat) + (mantissa - 2 ^ (52 : Nat))

def toFloat (x : FiniteFloat) : Float :=
  .ofBits (.ofNat x.toBits)

/-- The remainder of truncated division, with the sign of `x`. It is exact: both magnitudes are
whole multiples of the smaller power of two. -/
def rem (x y : FiniteFloat) : FiniteFloat :=
  let exponent := min x.exponent y.exponent
  let dividend := x.mantissa * 2 ^ (x.exponent - exponent).toNat
  let divisor := y.mantissa * 2 ^ (y.exponent - exponent).toNat
  ⟨x.negative, dividend % divisor, exponent⟩

end FiniteFloat

example : FloatClass.ofBits 0x8000000000000001 = .finite ⟨true, 1, -1074⟩ := by decide
example : FiniteFloat.toBits ⟨false, 3, -1⟩ = 0x3ff8000000000000 := by decide
example : (FiniteFloat.rem ⟨true, 7, 0⟩ ⟨false, 1, 1⟩) = ⟨true, 1, 0⟩ := by decide

end SealedScript.Decimal
