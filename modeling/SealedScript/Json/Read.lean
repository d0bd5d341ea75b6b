/-! Readers of JSON text: a reader takes characters off the front and stops at the first fault. -/

namespace SealedScript.Json

/-- Why a text is refused: it is not JSON, it is JSON of another shape, or it ends too early. -/
inductive Fault where
  | malformed
  | mismatch
  | truncated
  deriving DecidableEq, Repr

abbrev Read := StateT (List Char) (Except Fault)

namespace Read

def isBlank (c : Char) : Bool :=
  c == ' ' || c == '\t' || c == '\n' || c == '\r'

def skipBlank : Read Unit :=
  modify (·.dropWhile isBlank)

def advance : Read Unit :=
  modify (·.drop 1)

/-- The next character, if there is one; it is not taken. -/
def peek : Read (Option Char) :=
  return (← get).head?

/-- The next character after blanks; it is not taken. -/
def solid : Read Char := do
  skipBlank
  match ← peek with
  | some c => pure c
  | none => throw .truncated

/-- The rest of a word such as `null`. -/
def word : List Char → Read Unit
  | [] => pure ()
  | c :: rest => do
    match ← peek with
    | none => throw .truncated
    | some d => if d = c then do advance; word rest else throw .malformed

/-- Takes the longest run of decimal digits. -/
def digits : Read (List Char) := do
  let text ← get
  set (text.dropWhile Char.isDigit)
  return text.takeWhile Char.isDigit

/-- Repeats `step` until it gives a result, at most once more than `bound` has characters. -/
def iterate {σ α : Type} (step : σ → Read (σ ⊕ α)) : (bound : List Char) → σ → Read α
  | [], s => do
    match ← step s with
    | .inl _ => throw .truncated
    | .inr result => pure result
  | _ :: bound, s => do
    match ← step s with
    | .inl next => iterate step bound next
    | .inr result => pure result

/-- Repeats a step that takes at least one character each time it goes on, so the text itself bounds
the number of turns. -/
def loop {σ α : Type} (step : σ → Read (σ ⊕ α)) (start : σ) : Read α := do
  iterate step (← get) start

/-- Opens one more bracket; `depth` says how many may still be opened. -/
def enter {α : Type} (depth : Nat) (body : (inner : Nat) → inner < depth → Read α) : Read α :=
  match depth with
  | 0 => throw .malformed
  | inner + 1 => do
    advance
    body inner (Nat.lt_succ_self inner)

/-- A text read to its end, with nothing but blanks after the value. -/
def parse {α : Type} (read : Read α) (text : String) : Except Fault α := do
  let (value, rest) ← read text.toList
  if (rest.dropWhile isBlank).isEmpty then pure value else throw .malformed

end Read

end SealedScript.Json
