import Mathlib.Tactic.Common
import SealedScript.Json.Shape

/-! JSON texts and the trees they stand for. White space may stand before every token; numbers and strings stand
for what they are read as, and for their spelling if they cannot be read. -/

namespace SealedScript.Json

section Tokens

/-- The part of a number that moves its point. -/
structure Exponent where
  mark : Char
  sign : List Char
  digits : List Char
  mark_eq : mark = 'e' ∨ mark = 'E'
  sign_eq : sign = [] ∨ sign = ['+'] ∨ sign = ['-']
  digits_ne_nil : digits ≠ []
  digits_isDigit : ∀ c ∈ digits, c.isDigit

def Exponent.text (e : Exponent) : List Char :=
  e.mark :: (e.sign ++ e.digits)

/-- A number as it is written. Without digits behind the point there is no point either. -/
structure Numeral where
  negative : Bool
  whole : List Char
  fraction : List Char
  exponent : Option Exponent
  whole_ne_nil : whole ≠ []
  whole_isDigit : ∀ c ∈ whole, c.isDigit
  whole_zero : ∀ {tail}, whole = '0' :: tail → tail = []
  fraction_isDigit : ∀ c ∈ fraction, c.isDigit

namespace Numeral

def pointed (n : Numeral) : List Char :=
  if n.fraction = [] then [] else '.' :: n.fraction

def marked (n : Numeral) : List Char :=
  (n.exponent.map Exponent.text).getD []

def unsigned (n : Numeral) : List Char :=
  n.whole ++ (n.pointed ++ n.marked)

def text (n : Numeral) : List Char :=
  if n.negative then '-' :: n.unsigned else n.unsigned

end Numeral

/-- What may stand between the quotes of a string. -/
inductive Quotable : List Char → Prop
  | nil : Quotable []
  | plain {c : Char} {raw : List Char} (hquote : c ≠ '"') (hslash : c ≠ '\\') (hcontrol : ¬ c.toNat < 32)
      (h : Quotable raw) : Quotable (c :: raw)
  | escape {c d : Char} {raw : List Char} (hc : Read.unescape? c = some d) (h : Quotable raw) :
    Quotable ('\\' :: c :: raw)
  | hex {a b c d : Char} {i j k l : Nat} {raw : List Char} (ha : Read.hexValue? a = some i)
      (hb : Read.hexValue? b = some j) (hc : Read.hexValue? c = some k) (hd : Read.hexValue? d = some l)
      (h : Quotable raw) : Quotable ('\\' :: 'u' :: a :: b :: c :: d :: raw)

lemma quotable_of_plain {raw : List Char} (h : ∀ c ∈ raw, c ≠ '"' ∧ c ≠ '\\' ∧ ¬ c.toNat < 32) :
    Quotable raw := by
  induction raw with
  | nil => exact .nil
  | cons c raw ih =>
    obtain ⟨hquote, hslash, hcontrol⟩ := h c List.mem_cons_self
    exact .plain hquote hslash hcontrol (ih fun d hd => h d (List.mem_cons_of_mem c hd))

/-- What a token is read as, or else how it is spelled: a number may be too large, and an escape may be half of
a character. -/
inductive Reading (α : Type) where
  | known (value : α)
  | unreadable (spelling : List Char)

namespace Reading

variable {α : Type}

def of (value? : Option α) (spelling : List Char) : Reading α :=
  match value? with
  | some value => .known value
  | none => .unreadable spelling

def known? : Reading α → Option α
  | .known value => some value
  | .unreadable _ => none

@[simp] lemma known?_of (value? : Option α) (spelling : List Char) : (of value? spelling).known? = value? := by
  cases value? <;> rfl

lemma known?_eq_some_iff {reading : Reading α} {value : α} :
    reading.known? = some value ↔ reading = .known value := by
  cases reading <;> simp [known?]

end Reading

def Numeral.reading (n : Numeral) : Reading Read.Number :=
  .of ((Read.number n.text).toOption.map Prod.fst) n.text

/-- The string between the quotes. -/
def quotedReading (raw : List Char) : Reading String :=
  .of ((Read.quotedRest (raw ++ ['"'])).toOption.map Prod.fst) raw

end Tokens

section Texts

/-- A tree with the members of its objects in order. -/
inductive Node where
  | null
  | bool (b : Bool)
  | number (n : Reading Read.Number)
  | str (s : Reading String)
  | arr (items : List Node)
  | obj (members : List (Reading String × Node))

/-- White space, and then the rest. -/
inductive Gap : List Char → List Char → Prop
  | none (text : List Char) : Gap text text
  | blank {c : Char} {text rest : List Char} (hc : Read.isBlank c = true) (h : Gap text rest) : Gap (c :: text) rest

/-- A number does not go on there. -/
def Stops (rest : List Char) : Prop :=
  ∀ c ∈ rest.head?, c.isDigit = false ∧ c ≠ '.' ∧ c ≠ 'e' ∧ c ≠ 'E'

lemma stops_nil : Stops [] := by
  intro c hc
  cases hc

/-- A part of a text. Items and members run up to the closing bracket, and are fresh right after the opening one. -/
inductive Part where
  | token (node : Node)
  | value (node : Node)
  | items (fresh : Bool) (items : List Node)
  | member (member : Reading String × Node)
  | members (fresh : Bool) (members : List (Reading String × Node))

/-- The text begins with the part, and goes on with the rest. -/
inductive Spelled : Part → List Char → List Char → Prop
  | null {rest} : Spelled (.token .null) ("null".toList ++ rest) rest
  | bool (b : Bool) {rest} : Spelled (.token (.bool b)) ((if b then "true" else "false").toList ++ rest) rest
  | number (n : Numeral) {rest} (hstops : Stops rest) : Spelled (.token (.number n.reading)) (n.text ++ rest) rest
  | str {raw rest} (hraw : Quotable raw) :
    Spelled (.token (.str (quotedReading raw))) ('"' :: (raw ++ '"' :: rest)) rest
  | arr {items text rest} (h : Spelled (.items true items) text rest) :
    Spelled (.token (.arr items)) ('[' :: text) rest
  | obj {members text rest} (h : Spelled (.members true members) text rest) :
    Spelled (.token (.obj members)) ('\x7b' :: text) rest
  | value {node text token rest} (hgap : Gap text token) (h : Spelled (.token node) token rest) :
    Spelled (.value node) text rest
  | noItems {fresh text rest} (hgap : Gap text (']' :: rest)) : Spelled (.items fresh []) text rest
  | firstItem {item items text middle rest} (hitem : Spelled (.value item) text middle)
      (hrest : Spelled (.items false items) middle rest) : Spelled (.items true (item :: items)) text rest
  | nextItem {item items text behind middle rest} (hgap : Gap text (',' :: behind))
      (hitem : Spelled (.value item) behind middle) (hrest : Spelled (.items false items) middle rest) :
    Spelled (.items false (item :: items)) text rest
  | member {raw node text behind value rest} (hgap : Gap text ('"' :: (raw ++ '"' :: behind)))
      (hraw : Quotable raw) (hcolon : Gap behind (':' :: value)) (hvalue : Spelled (.value node) value rest) :
    Spelled (.member (quotedReading raw, node)) text rest
  | noMembers {fresh text rest} (hgap : Gap text ('\x7d' :: rest)) : Spelled (.members fresh []) text rest
  | firstMember {member members text middle rest} (hmember : Spelled (.member member) text middle)
      (hrest : Spelled (.members false members) middle rest) :
    Spelled (.members true (member :: members)) text rest
  | nextMember {member members text behind middle rest} (hgap : Gap text (',' :: behind))
      (hmember : Spelled (.member member) behind middle)
      (hrest : Spelled (.members false members) middle rest) :
    Spelled (.members false (member :: members)) text rest

/-- The whole text stands for the tree, with white space around it. -/
def Denotes (text : String) (node : Node) : Prop :=
  ∃ rest, Spelled (.value node) text.toList rest ∧ Gap rest []

end Texts

end SealedScript.Json
