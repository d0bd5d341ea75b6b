import SealedScript.Decimal.FiniteFloat

/-! The fewest decimal digits that still name one binary64 number among all others. -/

namespace SealedScript.Decimal

/-- Which of two equally near candidates is taken. -/
inductive Tie where
  | up
  | toEven
  deriving DecidableEq, Repr

/-- The number `coefficient * 10 ^ exponent`. -/
structure Digits where
  coefficient : Nat
  exponent : Int
  deriving DecidableEq, Repr

/-- Every magnitude below is multiplied by this much and by `decimalScale`, which makes all of them whole. -/
def binaryScale : Nat := 2 ^ (1076 : Nat)

def decimalScale : Nat := 10 ^ (340 : Nat)

/-- The scaled distance between two neighbours on the grid of multiples of `10 ^ k`. -/
def gridStep (k : Int) : Nat :=
  binaryScale * 10 ^ (k + 340).toNat

/-- The reals that round to a number, scaled: from `low` to `high`, ends included or not. -/
structure RoundingInterval where
  low : Nat
  value : Nat
  high : Nat
  closed : Bool

namespace RoundingInterval

def contains (r : RoundingInterval) (point : Nat) : Bool :=
  if r.closed then r.low ≤ point && point ≤ r.high else r.low < point && point < r.high

/-- The neighbour below a power of two is half as far away as the one above it. -/
def ofFloat (x : FiniteFloat) : RoundingInterval :=
  let quarter := 2 ^ (x.exponent + 1074).toNat * decimalScale
  let narrowBelow := x.mantissa = 2 ^ (52 : Nat) ∧ minExponent < x.exponent
  { low := (4 * x.mantissa - if narrowBelow then 1 else 2) * quarter
    value := 4 * x.mantissa * quarter
    high := (4 * x.mantissa + 2) * quarter
    closed := x.mantissa % 2 = 0 }

/-- The exponent of the leading decimal digit. -/
def leadingExponent (r : RoundingInterval) : Int :=
  ((Nat.toDigits 10 (r.value / binaryScale)).length : Int) - 341

/-- The nearest multiple of `10 ^ k` inside the interval, if one of the value's two neighbours on
that grid lies inside. -/
def nearestOn (r : RoundingInterval) (tie : Tie) (k : Int) : Option Nat :=
  let step := gridStep k
  let below := r.value / step
  let above := below + 1
  match r.contains (below * step), r.contains (above * step) with
  | false, false => none
  | true, false => some below
  | false, true => some above
  | true, true =>
    let toBelow := r.value - below * step
    let toAbove := above * step - r.value
    if toBelow < toAbove then some below
    else if toAbove < toBelow then some above
    else match tie with
      | .up => some above
      | .toEven => some (if below % 2 = 0 then below else above)

/-- Tries the coarsest grid first; seventeen digits always suffice. -/
def search (r : RoundingInterval) (tie : Tie) : (grids : Nat) → Int → Digits
  | 0, k => ⟨r.value / gridStep k, k⟩
  | n + 1, k =>
    match r.nearestOn tie k with
    | some c => ⟨c, k⟩
    | none => r.search tie n (k - 1)

end RoundingInterval

/-- Drops trailing zeros of the coefficient, at most `n` of them. -/
def Digits.trim : Nat → Digits → Digits
  | 0, d => d
  | n + 1, d =>
    if d.coefficient ≠ 0 ∧ d.coefficient % 10 = 0 then
      Digits.trim n ⟨d.coefficient / 10, d.exponent + 1⟩
    else d

/-- The shortest decimal that rounds to `x`, and of those the nearest. -/
def shortest (tie : Tie) (x : FiniteFloat) : Digits :=
  if x.mantissa = 0 then ⟨0, 0⟩
  else
    let interval := RoundingInterval.ofFloat x
    (interval.search tie 17 interval.leadingExponent).trim 17

end SealedScript.Decimal
