import Mathlib.Tactic.Common
import SealedScript.Program.Encode

/-! Induction over trees, expressions and statements with a hypothesis for every member of a list,
and the float constants of a code unit. -/

namespace SealedScript

@[elab_as_elim, induction_eliminator]
theorem Json.induction {motive : Json → Prop} (null : motive .null) (bool : ∀ b, motive (.bool b))
    (int : ∀ i, motive (.int i)) (float : ∀ x, motive (.float x)) (str : ∀ s, motive (.str s))
    (arr : ∀ items, (∀ item ∈ items, motive item) → motive (.arr items))
    (obj : ∀ members, (∀ member ∈ members, motive member.2) → motive (.obj members)) :
    ∀ tree, motive tree
  | .null => null
  | .bool b => bool b
  | .int i => int i
  | .float x => float x
  | .str s => str s
  | .arr items => arr items fun item _ => Json.induction null bool int float str arr obj item
  | .obj members => obj members fun member hmember =>
    have : sizeOf member.2 < 1 + sizeOf members := by
      have hlt := List.sizeOf_lt_of_mem hmember
      cases member
      simp at hlt ⊢
      omega
    Json.induction null bool int float str arr obj member.2

@[elab_as_elim, induction_eliminator]
theorem Expr.induction {motive : Expr → Prop} (constant : ∀ c, motive (.constant c))
    (name : ∀ ident, motive (.name ident))
    (list : ∀ items, (∀ item ∈ items, motive item) → motive (.list items))
    (binary : ∀ op lhs rhs, motive lhs → motive rhs → motive (.binary op lhs rhs))
    (unary : ∀ op operand, motive operand → motive (.unary op operand))
    (call : ∀ callee args kwargs, motive callee → (∀ arg ∈ args, motive arg) →
      (∀ kwarg ∈ kwargs, motive kwarg.2) → motive (.call callee args kwargs)) :
    ∀ e, motive e
  | .constant c => constant c
  | .name ident => name ident
  | .list items => list items fun item _ => Expr.induction constant name list binary unary call item
  | .binary op lhs rhs => binary op lhs rhs
    (Expr.induction constant name list binary unary call lhs)
    (Expr.induction constant name list binary unary call rhs)
  | .unary op operand => unary op operand
    (Expr.induction constant name list binary unary call operand)
  | .call callee args kwargs => call callee args kwargs
    (Expr.induction constant name list binary unary call callee)
    (fun arg _ => Expr.induction constant name list binary unary call arg)
    (fun kwarg hkwarg =>
      have : sizeOf kwarg.2 < sizeOf kwargs := by
        have hlt := List.sizeOf_lt_of_mem hkwarg
        cases kwarg
        simp at hlt ⊢
        omega
      Expr.induction constant name list binary unary call kwarg.2)

@[elab_as_elim, induction_eliminator]
theorem Stmt.induction {motive : Stmt → Prop}
    (assign : ∀ line target value, motive (.assign line target value))
    (expression : ∀ line value, motive (.expression line value))
    (branch : ∀ line condition thenBlock elseBlock, (∀ stmt ∈ thenBlock, motive stmt) →
      (∀ stmt ∈ elseBlock, motive stmt) → motive (.branch line condition thenBlock elseBlock))
    (loop : ∀ line condition body, (∀ stmt ∈ body, motive stmt) → motive (.loop line condition body))
    (pass : ∀ line, motive (.pass line)) : ∀ stmt, motive stmt
  | .assign line target value => assign line target value
  | .expression line value => expression line value
  | .branch line condition thenBlock elseBlock => branch line condition thenBlock elseBlock
    (fun stmt _ => Stmt.induction assign expression branch loop pass stmt)
    (fun stmt _ => Stmt.induction assign expression branch loop pass stmt)
  | .loop line condition body => loop line condition body
    fun stmt _ => Stmt.induction assign expression branch loop pass stmt
  | .pass line => pass line

lemma Expr.itemsToJson_eq_map (items : List Expr) : itemsToJson items = items.map toJson := by
  induction items with
  | nil => rfl
  | cons item items ih => simp [itemsToJson, ih]

lemma Expr.kwargsToJson_eq_map (kwargs : List (String × Expr)) :
    kwargsToJson kwargs = kwargs.map fun kwarg => .arr [.str kwarg.1, kwarg.2.toJson] := by
  induction kwargs with
  | nil => rfl
  | cons kwarg kwargs ih => simp [kwargsToJson, ih]

lemma Stmt.blockToJson_eq_map (block : List Stmt) : blockToJson block = block.map toJson := by
  induction block with
  | nil => rfl
  | cons stmt block ih => simp [blockToJson, ih]

mutual

/-- How many arrays and objects stand inside each other. -/
def Json.nesting : Json → Nat
  | .arr items => nestingItems items + 1
  | .obj members => nestingMembers members + 1
  | _ => 0

def Json.nestingItems : List Json → Nat
  | [] => 0
  | item :: rest => max item.nesting (nestingItems rest)

def Json.nestingMembers : List (String × Json) → Nat
  | [] => 0
  | (_, value) :: rest => max value.nesting (nestingMembers rest)

end

/-- A list fits where one bracket more may be open than each of its items needs. -/
lemma Json.nesting_arr_le {items : List Json} {depth : Nat} :
    (Json.arr items).nesting ≤ depth ↔
      ∃ inner, depth = inner + 1 ∧ ∀ item ∈ items, item.nesting ≤ inner := by
  have hitems : ∀ inner, nestingItems items ≤ inner ↔ ∀ item ∈ items, item.nesting ≤ inner := by
    intro inner
    induction items with
    | nil => simp [nestingItems]
    | cons item items ih => rw [nestingItems, Nat.max_le, ih, List.forall_mem_cons]
  cases depth with
  | zero => simp [nesting]
  | succ inner => simp [nesting, hitems]

lemma Json.nesting_obj_le {members : List (String × Json)} {depth : Nat} :
    (Json.obj members).nesting ≤ depth ↔
      ∃ inner, depth = inner + 1 ∧ ∀ member ∈ members, member.2.nesting ≤ inner := by
  have hmembers : ∀ inner,
      nestingMembers members ≤ inner ↔ ∀ member ∈ members, member.2.nesting ≤ inner := by
    intro inner
    induction members with
    | nil => simp [nestingMembers]
    | cons member members ih => rw [nestingMembers, Nat.max_le, ih, List.forall_mem_cons]
  cases depth with
  | zero => simp [nesting]
  | succ inner => simp [nesting, hmembers]

lemma Json.nesting_arr_le_of_lt {items : List Json} {depth : Nat} (hpos : 0 < depth)
    (h : ∀ item ∈ items, item.nesting < depth) : (Json.arr items).nesting ≤ depth :=
  nesting_arr_le.mpr ⟨depth - 1, by omega, fun item hitem => Nat.le_sub_one_of_lt (h item hitem)⟩

lemma Json.nesting_obj_le_of_lt {members : List (String × Json)} {depth : Nat} (hpos : 0 < depth)
    (h : ∀ member ∈ members, member.2.nesting < depth) : (Json.obj members).nesting ≤ depth :=
  nesting_obj_le.mpr
    ⟨depth - 1, by omega, fun member hmember => Nat.le_sub_one_of_lt (h member hmember)⟩

lemma Json.nesting_tagged (tag : String) (content : Json) :
    (Json.tagged tag content).nesting = content.nesting + 1 := by
  simp [Json.tagged, nesting, nestingMembers]

/-- An alternative with content fits where one bracket more may be open than its content needs. -/
lemma Json.nesting_tagged_le {tag : String} {content : Json} {depth : Nat} :
    (Json.tagged tag content).nesting ≤ depth ↔
      ∃ inner, depth = inner + 1 ∧ content.nesting ≤ inner := by
  simp [Json.tagged, nesting_obj_le]

def Constant.floats : Constant → List Float
  | .float x => [x]
  | _ => []

mutual

/-- The float constants of an expression, in the order of its text. -/
def Expr.floats : Expr → List Float
  | .constant c => c.floats
  | .name _ => []
  | .list items => itemFloats items
  | .binary _ lhs rhs => lhs.floats ++ rhs.floats
  | .unary _ operand => operand.floats
  | .call callee args kwargs => callee.floats ++ itemFloats args ++ kwargFloats kwargs

def Expr.itemFloats : List Expr → List Float
  | [] => []
  | item :: rest => item.floats ++ itemFloats rest

def Expr.kwargFloats : List (String × Expr) → List Float
  | [] => []
  | (_, value) :: rest => value.floats ++ kwargFloats rest

end

mutual

def Stmt.floats : Stmt → List Float
  | .assign _ _ value => value.floats
  | .expression _ value => value.floats
  | .branch _ condition thenBlock elseBlock =>
    condition.floats ++ blockFloats thenBlock ++ blockFloats elseBlock
  | .loop _ condition body => condition.floats ++ blockFloats body
  | .pass _ => []

def Stmt.blockFloats : List Stmt → List Float
  | [] => []
  | stmt :: rest => stmt.floats ++ blockFloats rest

end

def Code.floats (code : Code) : List Float :=
  Stmt.blockFloats code.body

lemma Expr.itemFloats_eq_flatMap (items : List Expr) : itemFloats items = items.flatMap floats := by
  induction items with
  | nil => rfl
  | cons item items ih => rw [itemFloats, ih, List.flatMap_cons]

lemma Expr.kwargFloats_eq_flatMap (kwargs : List (String × Expr)) :
    kwargFloats kwargs = kwargs.flatMap fun kwarg => kwarg.2.floats := by
  induction kwargs with
  | nil => rfl
  | cons kwarg kwargs ih => rw [kwargFloats, ih, List.flatMap_cons]

lemma Stmt.blockFloats_eq_flatMap (block : List Stmt) : blockFloats block = block.flatMap floats := by
  induction block with
  | nil => rfl
  | cons stmt block ih => rw [blockFloats, ih, List.flatMap_cons]

end SealedScript
