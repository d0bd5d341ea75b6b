import SealedScript.Json.Read

/-! Reading the inside of a quoted string. -/

namespace SealedScript.Json.Read

def hexValue? (c : Char) : Option Nat :=
  if c.isDigit then some (c.toNat - 48)
  else if 'a' ≤ c ∧ c ≤ 'f' then some (c.toNat - 87)
  else if 'A' ≤ c ∧ c ≤ 'F' then some (c.toNat - 55)
  else none

/-- The character that a backslash before `c` stands for. -/
def unescape? (c : Char) : Option Char :=
  if c = '"' then some '"'
  else if c = '\\' then some '\\'
  else if c = '/' then some '/'
  else if c = 'b' then some '\x08'
  else if c = 'f' then some '\x0c'
  else if c = 'n' then some '\n'
  else if c = 'r' then some '\r'
  else if c = 't' then some '\t'
  else none

/-- How far into an escape the reader is. A first surrogate waits for its second one. -/
inductive QuoteState where
  | plain
  | escape
  | hex (high : Option Nat) (seen value : Nat)
  | awaitBackslash (high : Nat)
  | awaitMark (high : Nat)
  deriving DecidableEq, Repr

def isHighSurrogate (n : Nat) : Bool :=
  0xD800 ≤ n && n ≤ 0xDBFF

def isLowSurrogate (n : Nat) : Bool :=
  0xDC00 ≤ n && n ≤ 0xDFFF

/-- What follows a complete group of four hexadecimal digits: a character, or the wait for a second
surrogate. A lax reader does not mind lone surrogates. -/
def afterHex (lax : Bool) (high : Option Nat) (n : Nat) : Except Fault (Option Char × QuoteState) :=
  match high with
  | none =>
    if lax then .ok (some (Char.ofNat n), .plain)
    else if isLowSurrogate n then .error .malformed
    else if isHighSurrogate n then .ok (none, .awaitBackslash n)
    else .ok (some (Char.ofNat n), .plain)
  | some h =>
    if isLowSurrogate n then
      .ok (some (Char.ofNat (0x10000 + (h - 0xD800) * 0x400 + (n - 0xDC00))), .plain)
    else .error .malformed

/-- The number of UTF-8 bytes of a text. -/
def byteLength (text : List Char) : Nat :=
  text.foldl (fun n c => n + c.utf8Size) 0

/-- A character that is no hexadecimal digit, after `seen` digits. The text counts as ending early
when it has not even four bytes left for the group. -/
def badHex (seen : Nat) (text : List Char) : Fault :=
  if seen + byteLength (text.take 4) < 4 then .truncated else .malformed

/-- Reads up to the closing quote; `done` holds the characters so far, the last one first. -/
def scanQuoted (lax : Bool) :
    QuoteState → List Char → List Char → Except Fault (List Char × List Char)
  | _, _, [] => .error .truncated
  | .plain, done, c :: rest =>
    if c = '"' then .ok (done.reverse, rest)
    else if c = '\\' then scanQuoted lax .escape done rest
    else if c.toNat < 32 then .error .malformed
    else scanQuoted lax .plain (c :: done) rest
  | .escape, done, c :: rest =>
    if c = 'u' then scanQuoted lax (.hex none 0 0) done rest
    else match unescape? c with
      | some d => scanQuoted lax .plain (d :: done) rest
      | none => .error .malformed
  | .hex high seen value, done, c :: rest =>
    match hexValue? c with
    | none => .error (badHex seen (c :: rest))
    | some digit =>
      let value := value * 16 + digit
      if seen < 3 then scanQuoted lax (.hex high (seen + 1) value) done rest
      else match afterHex lax high value with
        | .error fault => .error fault
        | .ok (some d, state) => scanQuoted lax state (d :: done) rest
        | .ok (none, state) => scanQuoted lax state done rest
  | .awaitBackslash high, done, c :: rest =>
    if c = '\\' then scanQuoted lax (.awaitMark high) done rest else .error .malformed
  | .awaitMark high, done, c :: rest =>
    if c = 'u' then scanQuoted lax (.hex (some high) 0 0) done rest else .error .malformed

/-- The string whose opening quote has been taken. -/
def quotedRest : Read String := fun text =>
  match scanQuoted false .plain [] text with
  | .ok (chars, rest) => .ok (String.ofList chars, rest)
  | .error fault => .error fault

/-- Passes over a string without asking whether its escapes name characters. -/
def skipQuotedRest : Read Unit := fun text =>
  match scanQuoted true .plain [] text with
  | .ok (_, rest) => .ok ((), rest)
  | .error fault => .error fault

end SealedScript.Json.Read
