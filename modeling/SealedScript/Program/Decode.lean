import SealedScript.Json.Shape
import SealedScript.Program.Encode

/-! Reading programs from JSON text. -/

namespace SealedScript

open Json (Read Fault)
open Json.Read.Fields (required optional)

/-- How many brackets may be open at once. -/
def Json.maxDepth : Nat := 127

def BinaryOp.read (depth : Nat) : Read BinaryOp :=
  Json.Read.choice depth ofTag? fun _ _ _ => none

def UnaryOp.read (depth : Nat) : Read UnaryOp :=
  Json.Read.choice depth ofTag? fun _ _ _ => none

def Constant.read (depth : Nat) : Read Constant :=
  Json.Read.choice depth (fun tag => if tag = "None" then some .none else .none) fun _ _ tag =>
    match tag with
    | "Bool" => some (.bool <$> Json.Read.boolean)
    | "Int" => some (.int <$> Json.Read.int64)
    | "Float" => some (.float <$> Json.Read.float)
    | "Str" => some (.str <$> Json.Read.text)
    | _ => .none

/-- Expressions nest, and each level opens a bracket, so the depth still allowed decreases. -/
def Expr.read (depth : Nat) : Read Expr :=
  Json.Read.choice depth (fun _ => none) fun d₁ _ tag =>
    match tag with
    | "Constant" => some (.constant <$> Constant.read d₁)
    | "Name" => some (.name <$> Json.Read.text)
    | "List" => some (.list <$> Json.Read.list d₁ fun d₂ _ => Expr.read d₂)
    | "BinOp" => some do
      let (op, lhs, rhs) ← Json.Read.record d₁ fun d₂ _ =>
        (required "op" (BinaryOp.read d₂)).and
          ((required "lhs" (Expr.read d₂)).and (required "rhs" (Expr.read d₂)))
      return .binary op lhs rhs
    | "UnaryOp" => some do
      let (op, operand) ← Json.Read.record d₁ fun d₂ _ =>
        (required "op" (UnaryOp.read d₂)).and (required "operand" (Expr.read d₂))
      return .unary op operand
    | "Call" => some do
      let (callee, args, kwargs) ← Json.Read.record d₁ fun d₂ _ =>
        (required "func" (Expr.read d₂)).and
          ((optional "args" (Json.Read.list d₂ fun d₃ _ => Expr.read d₃) []).and
            (optional "kwargs" (Json.Read.list d₂ fun d₃ _ => Json.Read.tuple d₃ fun d₄ _ =>
              (required "key" Json.Read.text).and (required "value" (Expr.read d₄))) []))
      return .call callee args kwargs
    | _ => none
termination_by depth

/-- What a statement does, still waiting for its line. -/
def Stmt.readKind (depth : Nat) (block : (inner : Nat) → inner < depth → Read (List Stmt)) :
    Read (UInt32 → Stmt) :=
  Json.Read.choice depth (fun tag => if tag = "Pass" then some Stmt.pass else none) fun d₁ h₁ tag =>
    match tag with
    | "Assign" => some do
      let (target, value) ← Json.Read.record d₁ fun d₂ _ =>
        (required "target" Json.Read.text).and (required "value" (Expr.read d₂))
      return fun line => .assign line target value
    | "Expression" => some do
      let value ← Expr.read d₁
      return fun line => .expression line value
    | "If" => some do
      let (condition, thenBlock, elseBlock) ← Json.Read.record d₁ fun d₂ h₂ =>
        (required "condition" (Expr.read d₂)).and
          ((required "then_block" (block d₂ (Nat.lt_trans h₂ h₁))).and
            (optional "else_block" (block d₂ (Nat.lt_trans h₂ h₁)) []))
      return fun line => .branch line condition thenBlock elseBlock
    | "While" => some do
      let (condition, body) ← Json.Read.record d₁ fun d₂ h₂ =>
        (required "condition" (Expr.read d₂)).and
          (required "body" (block d₂ (Nat.lt_trans h₂ h₁)))
      return fun line => .loop line condition body
    | _ => none

/-- A statement without a line is given line zero. -/
def Stmt.read (depth : Nat) : Read Stmt := do
  let (line, kind) ← Json.Read.record depth fun d₁ _ =>
    (optional "line" Json.Read.uint32 0).and
      (required "kind" (Stmt.readKind d₁ fun d₂ _ => Json.Read.list d₂ fun d₃ _ => Stmt.read d₃))
  return kind line
termination_by depth

def Code.read (depth : Nat) : Read Code := do
  let (name, filename, body) ← Json.Read.record depth fun d₁ _ =>
    (required "name" Json.Read.text).and
      ((required "filename" Json.Read.text).and
        (required "body" (Json.Read.list d₁ fun d₂ _ => Stmt.read d₂)))
  return ⟨name, filename, body⟩

def Program.read (depth : Nat) : Read Program := do
  let (hash, code) ← Json.Read.record depth fun d₁ _ =>
    (required "hash" Json.Read.text).and (required "code" (Code.read d₁))
  return ⟨hash, code⟩

def Expr.ofText (text : String) : Except Fault Expr :=
  Json.Read.parse (Expr.read Json.maxDepth) text

def Code.ofText (text : String) : Except Fault Code :=
  Json.Read.parse (Code.read Json.maxDepth) text

def Program.ofText (text : String) : Except Fault Program :=
  Json.Read.parse (Program.read Json.maxDepth) text

end SealedScript
