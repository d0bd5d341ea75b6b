import SealedScript.Json.Number
import SealedScript.Json.Quoted

/-! Passing over a value of any shape and any depth. -/

namespace SealedScript.Json.Read

inductive Bracket where
  | list
  | object
  deriving DecidableEq, Repr

def Bracket.close : Bracket → Char
  | .list => ']'
  | .object => '\x7d'

def colon : Read Unit := do
  if (← solid) = ':' then advance else throw .malformed

def skipScalar : Read Unit := do
  let c ← solid
  if c = 'n' then word "null".toList
  else if c = 't' then word "true".toList
  else if c = 'f' then word "false".toList
  else if c = '-' then do advance; skipNumberRest
  else if c.isDigit then skipNumberRest
  else if c = '"' then do advance; skipQuotedRest
  else throw .malformed

/-- Inside an object a key and a colon stand before the value. -/
def skipKey : Bracket → Read Unit
  | .list => pure ()
  | .object => do
    if (← solid) = '"' then do advance; skipQuotedRest; colon else throw .malformed

/-- Where in a value the reader stands, with the brackets still open, the innermost first. -/
inductive SkipState where
  | value (stack : List Bracket)
  | opened (bracket : Bracket) (stack : List Bracket)
  | after (stack : List Bracket)

def skipStart (stack : List Bracket) : Read SkipState := do
  let c ← solid
  if c = '[' then do advance; return .opened .list stack
  else if c = '\x7b' then do advance; return .opened .object stack
  else do skipScalar; return .after stack

def skipStep : SkipState → Read (SkipState ⊕ Unit)
  | .value stack => .inl <$> skipStart stack
  | .opened bracket stack => do
    if (← solid) = bracket.close then do advance; return .inl (.after stack)
    skipKey bracket
    .inl <$> skipStart (bracket :: stack)
  | .after [] => return .inr ()
  | .after (bracket :: stack) => do
    let c ← solid
    if c = ',' then do advance; skipKey bracket; .inl <$> skipStart (bracket :: stack)
    else if c = bracket.close then do advance; return .inl (.after stack)
    else throw .malformed

def skipValue : Read Unit :=
  loop skipStep (.value [])

end SealedScript.Json.Read
