import SealedScript.Machine.Call
import SealedScript.Operator.Basic

/-! Evaluating expressions and executing statements. -/

namespace SealedScript

open Run

def Constant.value : Constant → Value
  | .none => .none
  | .bool b => .bool b
  | .int i => .int i
  | .float x => .float x
  | .str s => .str s

mutual

/-- Everything is evaluated from left to right, the callee before its arguments. -/
def Expr.eval (engine : Engine) : Expr → Run Value
  | .constant c => pure c.value
  | .name ident => lookup ident
  | .list items => do return .list (← evalItems engine items)
  | .binary op lhs rhs => do
    let a ← lhs.eval engine
    let b ← rhs.eval engine
    ofExcept (op.apply a b)
  | .unary op operand => do
    let a ← operand.eval engine
    ofExcept (op.apply a)
  | .call callee args kwargs => do
    let f ← callee.eval engine
    let args ← evalItems engine args
    let kwargs ← evalKwargs engine kwargs
    f.call engine args kwargs

def Expr.evalItems (engine : Engine) : List Expr → Run (List Value)
  | [] => pure []
  | item :: rest => do
    let value ← item.eval engine
    return value :: (← evalItems engine rest)

def Expr.evalKwargs (engine : Engine) : List (String × Expr) → Run (List (String × Value))
  | [] => pure []
  | (key, item) :: rest => do
    let value ← item.eval engine
    return (key, value) :: (← evalKwargs engine rest)

end

/-- Takes turns until one answers false, at most `n` of them. -/
def Run.repeatWhile : Nat → Run Bool → Run Unit
  | 0, _ => exhausted
  | n + 1, turn => do
    if ← turn then repeatWhile n turn else pure ()

mutual

def Stmt.exec (engine : Engine) : Stmt → Run Unit
  | .assign _ target value => do Run.assign target (← value.eval engine)
  | .expression _ value => do
    let _ ← value.eval engine
  | .branch _ condition thenBlock elseBlock => do
    if (← condition.eval engine).truthy then execBlock engine thenBlock
    else execBlock engine elseBlock
  | .loop _ condition body =>
    repeatWhile engine.turns do
      if (← condition.eval engine).truthy then
        execBlock engine body
        return true
      else return false
  | .pass _ => pure ()

/-- The line in force is that of the statement begun last. -/
def Stmt.execBlock (engine : Engine) : List Stmt → Run Unit
  | [] => pure ()
  | stmt :: rest => do
    moveToLine stmt.line
    stmt.exec engine
    execBlock engine rest

end

/-- Executes a code unit and comes back to where it was called from. An exception that leaves it
gets an entry in its trace. -/
def Code.exec (engine : Engine) (code : Code) : Run Unit := do
  let outer ← position
  moveTo { outer with filename := code.filename, codeName := code.name }
  let result ← attempt (Stmt.execBlock engine code.body)
  let reached ← position
  moveTo outer
  match result with
  | .ok () => pure ()
  | .error e => raise (e.push ⟨code.filename, reached.line, code.name⟩)

end SealedScript
