/-! Compiled programs: expressions, statements, code units and sealed programs, with equality that
compares float constants as numbers. -/

namespace SealedScript

inductive BinaryOp where
  | add
  | sub
  | mul
  | div
  | mod
  | pow
  | lshift
  | rshift
  | bitAnd
  | bitOr
  | bitXor
  deriving DecidableEq, Repr

inductive UnaryOp where
  | neg
  | pos
  | invert
  | not
  deriving DecidableEq, Repr

inductive Constant where
  | none
  | bool (b : Bool)
  | int (i : Int64)
  | float (x : Float)
  | str (s : String)
  deriving Inhabited

inductive Expr where
  | constant (c : Constant)
  | name (ident : String)
  | list (items : List Expr)
  | binary (op : BinaryOp) (lhs rhs : Expr)
  | unary (op : UnaryOp) (operand : Expr)
  | call (callee : Expr) (args : List Expr) (kwargs : List (String × Expr))
  deriving Inhabited

/-- Every statement carries the line it was compiled from. -/
inductive Stmt where
  | assign (line : UInt32) (target : String) (value : Expr)
  | expression (line : UInt32) (value : Expr)
  | branch (line : UInt32) (condition : Expr) (thenBlock elseBlock : List Stmt)
  | loop (line : UInt32) (condition : Expr) (body : List Stmt)
  | pass (line : UInt32)
  deriving Inhabited

def Stmt.line : Stmt → UInt32
  | .assign line _ _ => line
  | .expression line _ => line
  | .branch line _ _ _ => line
  | .loop line _ _ => line
  | .pass line => line

/-- A named block of statements compiled from one file. -/
structure Code where
  name : String
  filename : String
  body : List Stmt

/-- The name of a code unit that is a whole file. -/
def Code.moduleName : String := "<module>"

/-- Code together with the digest it carries. -/
structure Program where
  hash : String
  code : Code

def Constant.same : Constant → Constant → Bool
  | .none, .none => true
  | .bool a, .bool b => a == b
  | .int a, .int b => a == b
  | .float a, .float b => a == b
  | .str a, .str b => a == b
  | _, _ => false

mutual

def Expr.same : Expr → Expr → Bool
  | .constant a, .constant b => a.same b
  | .name a, .name b => a == b
  | .list xs, .list ys => sameItems xs ys
  | .binary op a b, .binary op' a' b' => op == op' && a.same a' && b.same b'
  | .unary op a, .unary op' a' => op == op' && a.same a'
  | .call f xs ks, .call g ys ls => f.same g && sameItems xs ys && sameKwargs ks ls
  | _, _ => false

def Expr.sameItems : List Expr → List Expr → Bool
  | [], [] => true
  | x :: xs, y :: ys => x.same y && sameItems xs ys
  | _, _ => false

def Expr.sameKwargs : List (String × Expr) → List (String × Expr) → Bool
  | [], [] => true
  | (k, x) :: xs, (l, y) :: ys => k == l && x.same y && sameKwargs xs ys
  | _, _ => false

end

mutual

def Stmt.same : Stmt → Stmt → Bool
  | .assign l t e, .assign l' t' e' => l == l' && t == t' && e.same e'
  | .expression l e, .expression l' e' => l == l' && e.same e'
  | .branch l e xs ys, .branch l' e' xs' ys' =>
    l == l' && e.same e' && sameBlock xs xs' && sameBlock ys ys'
  | .loop l e xs, .loop l' e' xs' => l == l' && e.same e' && sameBlock xs xs'
  | .pass l, .pass l' => l == l'
  | _, _ => false

def Stmt.sameBlock : List Stmt → List Stmt → Bool
  | [], [] => true
  | x :: xs, y :: ys => x.same y && sameBlock xs ys
  | _, _ => false

end

def Code.same (c d : Code) : Bool :=
  c.name == d.name && c.filename == d.filename && Stmt.sameBlock c.body d.body

def Program.same (p q : Program) : Bool :=
  p.hash == q.hash && p.code.same q.code

end SealedScript
