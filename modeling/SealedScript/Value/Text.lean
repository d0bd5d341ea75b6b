import SealedScript.Decimal.Layout

/-! How floats and strings look as values of a program. -/

namespace SealedScript

/-- Floats never show an exponent, and whole numbers below `10 ^ 16` keep `.0`; of two equally near
digit strings the larger is written. -/
def Value.floatLayout : Decimal.Layout where
  tie := .up
  positional _ := true
  keepsPoint leading := leading < 16

def Value.floatText (x : Float) : String :=
  match Decimal.FloatClass.ofFloat x with
  | .nan => "nan"
  | .infinite negative => if negative then "-inf" else "inf"
  | .finite parts => String.ofList (floatLayout.render parts)

def Value.escape (c : Char) : List Char :=
  if c = '\\' then ['\\', '\\']
  else if c = '\'' then ['\\', '\'']
  else if c = '\n' then ['\\', 'n']
  else if c = '\t' then ['\\', 't']
  else if c = '\r' then ['\\', 'r']
  else [c]

/-- A string between single quotes. -/
def Value.quote (s : String) : String :=
  String.ofList ('\'' :: s.toList.flatMap escape ++ ['\''])

def Value.intText (i : Int) : String :=
  String.ofList (Decimal.integer i)

end SealedScript
