import SealedScript.Json.Skip

/-! Readers for the shapes of typed data: scalars, lists, records and choices. -/

namespace SealedScript.Json.Read

/-- Refuses a value of the wrong shape; a scalar must first be well formed itself. -/
def unexpected {α : Type} : Read α := do
  let c ← solid
  if c = 'n' then word "null".toList
  else if c = 't' then word "true".toList
  else if c = 'f' then word "false".toList
  else if c = '-' then do advance; let _ ← numberRest true
  else if c.isDigit then let _ ← numberRest false
  else if c = '"' then do advance; let _ ← quotedRest
  else if c = '[' ∨ c = '\x7b' then pure ()
  else throw .malformed
  throw .mismatch

def null : Read Unit := do
  if (← solid) = 'n' then word "null".toList else unexpected

def boolean : Read Bool := do
  let c ← solid
  if c = 't' then do word "true".toList; return true
  else if c = 'f' then do word "false".toList; return false
  else unexpected

def text : Read String := do
  if (← solid) = '"' then do advance; quotedRest else unexpected

def number : Read Number := do
  let c ← solid
  if c = '-' then do advance; numberRest true
  else if c.isDigit then numberRest false
  else unexpected

def int64 : Read Int64 := do
  match ← number with
  | .int i => if i < 2 ^ (63 : Nat) then return Int64.ofInt i else throw .mismatch
  | .float _ => throw .mismatch

def uint32 : Read UInt32 := do
  match ← number with
  | .int i => if 0 ≤ i ∧ i < 2 ^ (32 : Nat) then return UInt32.ofNat i.toNat else throw .mismatch
  | .float _ => throw .mismatch

/-- Every number is a float. -/
def float : Read Float := do
  match ← number with
  | .int i => return Float.ofInt i
  | .float x => return x

/-- Whether another item of a list follows; `fresh` holds before the first one. A comma is taken,
the closing bracket is not. -/
def moreItems (fresh : Bool) : Read Bool := do
  let c ← solid
  if c = ']' then return false
  else if fresh then return true
  else if c = ',' then do
    advance
    if (← solid) = ']' then throw .malformed
    return true
  else throw .malformed

/-- Whether another member of an object follows, with its opening quote in front. -/
def moreMembers (fresh : Bool) : Read Bool := do
  let c ← solid
  if c = '\x7d' then return false
  else if fresh then
    if c = '"' then return true else throw .malformed
  else if c = ',' then do
    advance
    if (← solid) = '"' then return true else throw .malformed
  else throw .malformed

def closing (bracket : Char) : Read Unit := do
  if (← solid) = bracket then advance else throw .malformed

/-- A list of any length. -/
def list {α : Type} (depth : Nat) (item : (inner : Nat) → inner < depth → Read α) :
    Read (List α) := do
  if (← solid) = '[' then
    enter depth fun inner h => do
      let items ← loop (fun done => do
        if ← moreItems done.isEmpty then return .inl ((← item inner h) :: done)
        else return .inr done.reverse) []
      closing ']'
      return items
  else unexpected

/-- How the fields of a record are read, as members of an object in any order or as items of a list
in the given order. -/
structure Fields (α : Type) where
  /-- The fields read so far. -/
  Slots : Type
  none : Slots
  /-- The reader for the member `key`, if that is one of the fields. -/
  member : (key : String) → Slots → Option (Read Slots)
  finish : Slots → Except Fault α
  /-- The fields as items; the argument holds before the first item of the list. -/
  items : (fresh : Bool) → Read α

namespace Fields

/-- One field. A second member of the same key is refused, and so is leaving the field out unless
there is a value to take in its place. -/
def one {α : Type} (key : String) (read : Read α) (absent : Option α) : Fields α where
  Slots := Option α
  none := Option.none
  member k slot :=
    if k = key then
      some (match slot with
        | some _ => throw .mismatch
        | .none => do colon; some <$> read)
    else .none
  finish
    | some value => .ok value
    | .none => match absent with
      | some value => .ok value
      | .none => .error .mismatch
  items fresh := do
    if ← moreItems fresh then read
    else match absent with
      | some value => return value
      | .none => throw .mismatch

def required {α : Type} (key : String) (read : Read α) : Fields α :=
  one key read .none

def optional {α : Type} (key : String) (read : Read α) (absent : α) : Fields α :=
  one key read (some absent)

/-- The fields of `f`, followed by those of `g`. -/
def and {α β : Type} (f : Fields α) (g : Fields β) : Fields (α × β) where
  Slots := f.Slots × g.Slots
  none := (f.none, g.none)
  member key := fun (s, t) =>
    match f.member key s with
    | some read => some (do return (← read, t))
    | .none => match g.member key t with
      | some read => some (do return (s, ← read))
      | .none => .none
  finish := fun (s, t) => do return (← f.finish s, ← g.finish t)
  items fresh := do
    let a ← f.items fresh
    let b ← g.items false
    return (a, b)

/-- Members of an object up to the closing brace; those that are no field are passed over. -/
def members {α : Type} (f : Fields α) : Read α := do
  let slots ← loop (fun (fresh, slots) => do
    if ← moreMembers fresh then
      advance
      let key ← quotedRest
      match f.member key slots with
      | some read => return .inl (false, ← read)
      | .none => do
        colon
        skipValue
        return .inl (false, slots)
    else return .inr slots) (true, f.none)
  f.finish slots

end Fields

/-- The fields as a list, with nothing after the last one. -/
def tuple {α : Type} (depth : Nat) (fields : (inner : Nat) → inner < depth → Fields α) :
    Read α := do
  if (← solid) = '[' then
    enter depth fun inner h => do
      let value ← (fields inner h).items true
      closing ']'
      return value
  else unexpected

/-- A record, written as an object or as a list. -/
def record {α : Type} (depth : Nat) (fields : (inner : Nat) → inner < depth → Fields α) :
    Read α := do
  let c ← solid
  if c = '\x7b' then
    enter depth fun inner h => do
      let value ← (fields inner h).members
      closing '\x7d'
      return value
  else tuple depth fields

/-- The key of a member, up to its closing quote. -/
def key : Read String := do
  if (← solid) = '"' then do advance; quotedRest else throw .malformed

/-- One of several alternatives: a bare name for those that hold nothing, or an object whose only
key is the name and whose value is what it holds. -/
def choice {α : Type} (depth : Nat) (bare : String → Option α)
    (holding : (inner : Nat) → inner < depth → String → Option (Read α)) : Read α := do
  let c ← solid
  if c = '"' then do
    advance
    match bare (← quotedRest) with
    | some value => return value
    | none => throw .mismatch
  else if c = '\x7b' then
    enter depth fun inner h => do
      let tag ← key
      let value ← match bare tag, holding inner h tag with
        | some value, _ => do colon; null; pure value
        | none, some read => do colon; read
        | none, none => throw .mismatch
      closing '\x7d'
      return value
  else throw .malformed

end SealedScript.Json.Read
