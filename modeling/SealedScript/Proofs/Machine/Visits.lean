import Mathlib.Logic.Relation
import SealedScript.Proofs.Machine.Safe

/-! The tasks that are begun while a program runs, each with the state in which it begins. A task begins
others as its own execution comes to them, so the states of a run are those in which some task begins
or ends. -/

namespace SealedScript

open Run

/-- A part of the work of running a program. -/
inductive Task where
  | program (program : Program)
  | block (stmts : List Stmt)
  | stmt (stmt : Stmt)
  /-- A loop with a number of turns left before it is given up. -/
  | turns (left : Nat) (condition : Expr) (body : List Stmt)
  | expr (e : Expr)
  | items (items : List Expr)
  | kwargs (kwargs : List (String × Expr))
  | call (callee : Value) (args : List Value) (kwargs : List (String × Value))
  /-- The line printer at work on the values that are left, with the engine it finds their texts by. -/
  | print (printer : Engine) (values : List Value)

namespace Task

/-- Carries out a task and drops its result. -/
def run (engine : Engine) : Task → Run Unit
  | .program p => do
    assign "__name__" (.str "__main__")
    p.code.exec engine
  | .block stmts => Stmt.execBlock engine stmts
  | .stmt s => s.exec engine
  | .turns left condition body => repeatWhile left (turn engine condition body)
  | .expr e => do
    let _ ← e.eval engine
  | .items es => do
    let _ ← Expr.evalItems engine es
  | .kwargs named => do
    let _ ← Expr.evalKwargs engine named
  | .call f args named => do
    let _ ← f.call engine args named
  | .print printer values => do
    let _ ← puts printer values

/-- While the first task is carried out, the second one begins. -/
inductive Begins (engine : Engine) : Task × Machine → Task × Machine → Prop
  | body {program m m'} (hname : assign "__name__" (.str "__main__") m = .ok () m') :
    Begins engine (.program program, m) (.block program.code.body, m'.inside program.code)
  | first {stmt rest m m'} (hline : moveToLine stmt.line m = .ok () m') :
    Begins engine (.block (stmt :: rest), m) (.stmt stmt, m')
  | rest {stmt rest m m₁ m'} (hline : moveToLine stmt.line m = .ok () m₁)
      (hstmt : stmt.exec engine m₁ = .ok () m') :
    Begins engine (.block (stmt :: rest), m) (.block rest, m')
  | assigned {line target value m} :
    Begins engine (.stmt (.assign line target value), m) (.expr value, m)
  | expression {line value m} :
    Begins engine (.stmt (.expression line value), m) (.expr value, m)
  | condition {line condition thenBlock elseBlock m} :
    Begins engine (.stmt (.branch line condition thenBlock elseBlock), m) (.expr condition, m)
  | branch {line condition thenBlock elseBlock m v m'} (hcondition : condition.eval engine m = .ok v m') :
    Begins engine (.stmt (.branch line condition thenBlock elseBlock), m)
      (.block (if v.truthy then thenBlock else elseBlock), m')
  | loop {line condition body m} :
    Begins engine (.stmt (.loop line condition body), m) (.turns engine.turns condition body, m)
  | turnCondition {left condition body m} :
    Begins engine (.turns (left + 1) condition body, m) (.expr condition, m)
  | turnBody {left condition body m v m'} (hcondition : condition.eval engine m = .ok v m')
      (hv : v.truthy = true) :
    Begins engine (.turns (left + 1) condition body, m) (.block body, m')
  | nextTurn {left condition body m m'} (hturn : turn engine condition body m = .ok true m') :
    Begins engine (.turns (left + 1) condition body, m) (.turns left condition body, m')
  | list {items m} : Begins engine (.expr (.list items), m) (.items items, m)
  | lhs {op lhs rhs m} : Begins engine (.expr (.binary op lhs rhs), m) (.expr lhs, m)
  | rhs {op lhs rhs m v m'} (hlhs : lhs.eval engine m = .ok v m') :
    Begins engine (.expr (.binary op lhs rhs), m) (.expr rhs, m')
  | operand {op operand m} : Begins engine (.expr (.unary op operand), m) (.expr operand, m)
  | callee {callee args kwargs m} : Begins engine (.expr (.call callee args kwargs), m) (.expr callee, m)
  | args {callee args kwargs m f m'} (hcallee : callee.eval engine m = .ok f m') :
    Begins engine (.expr (.call callee args kwargs), m) (.items args, m')
  | kwargs {callee args kwargs m f m₁ values m'} (hcallee : callee.eval engine m = .ok f m₁)
      (hargs : Expr.evalItems engine args m₁ = .ok values m') :
    Begins engine (.expr (.call callee args kwargs), m) (.kwargs kwargs, m')
  | call {callee args kwargs m f m₁ values m₂ named m'} (hcallee : callee.eval engine m = .ok f m₁)
      (hargs : Expr.evalItems engine args m₁ = .ok values m₂)
      (hkwargs : Expr.evalKwargs engine kwargs m₂ = .ok named m') :
    Begins engine (.expr (.call callee args kwargs), m) (.call f values named, m')
  | item {item rest m} : Begins engine (.items (item :: rest), m) (.expr item, m)
  | moreItems {item rest m v m'} (hitem : item.eval engine m = .ok v m') :
    Begins engine (.items (item :: rest), m) (.items rest, m')
  | kwarg {key value rest m} : Begins engine (.kwargs ((key, value) :: rest), m) (.expr value, m)
  | moreKwargs {key value rest m v m'} (hvalue : value.eval engine m = .ok v m') :
    Begins engine (.kwargs ((key, value) :: rest), m) (.kwargs rest, m')
  | print {name args kwargs m printer} (hputs : engine.native .puts args kwargs = puts printer args) :
    Begins engine (.call (.builtin name .puts) args kwargs, m) (.print printer args, m)
  | morePrint {printer value rest m text m₁ m'} (htext : value.toStr printer m = .ok text m₁)
      (hline : printLine text m₁ = .ok () m') :
    Begins engine (.print printer (value :: rest), m) (.print printer rest, m')

/-- The values that a task works on are plain. -/
def Plain : Task → Prop
  | .call callee args _ => callee.Plain ∧ ∀ arg ∈ args, arg.Plain
  | .print _ values => ∀ value ∈ values, value.Plain
  | _ => True

variable {engine : Engine}

/-- From a closed state, a task reaches a closed state. -/
lemma run_safe (hengine : engine.Prints) {task : Task} (h : task.Plain) :
    (task.run engine).Safe fun _ => True := by
  have hdrop : ∀ {α : Type} {step : Run α} {Q : α → Prop}, step.Safe Q →
      (do let _ ← step : Run Unit).Safe fun _ => True :=
    fun hstep => hstep.bind fun _ _ => safe_pure trivial
  cases task with
  | program p => exact (assign_safe _ (.str _)).bind fun _ _ => p.code.exec_safe hengine
  | block stmts => exact Stmt.block_safe hengine stmts
  | stmt s => exact s.exec_safe hengine
  | turns left condition body =>
    exact repeatWhile_safe (turn_safe hengine condition (Stmt.block_safe hengine body)) left
  | expr e => exact hdrop (e.eval_safe hengine)
  | items es => exact hdrop (Expr.evalItems_safe fun e _ => e.eval_safe hengine)
  | kwargs named => exact hdrop (Expr.evalKwargs_safe fun kwarg _ => kwarg.2.eval_safe hengine)
  | call f args named => exact hdrop (Value.call_safe hengine h.1 h.2 named)
  | print printer values => exact hdrop (puts_safe printer h)

/-- What a task begins, it begins in a closed state and on plain values. -/
lemma Begins.closed (hengine : engine.Prints) {task next : Task} {m m' : Machine}
    (hbegins : Begins engine (task, m) (next, m')) (htask : task.Plain) (hm : m.Closed) :
    next.Plain ∧ m'.Closed := by
  have heval : ∀ {e : Expr} {m v m'}, m.Closed → e.eval engine m = .ok v m' → m'.Closed ∧ v.Plain :=
    fun hm hrun => (Expr.eval_safe hengine _).ok hm hrun
  have hitems : ∀ {es m values m'}, m.Closed → Expr.evalItems engine es m = .ok values m' →
      m'.Closed ∧ ∀ value ∈ values, value.Plain :=
    fun hm hrun => (Expr.evalItems_safe fun e _ => e.eval_safe hengine).ok hm hrun
  have hkwargs : ∀ {named m values m'}, m.Closed → Expr.evalKwargs engine named m = .ok values m' →
      m'.Closed :=
    fun hm hrun => ((Expr.evalKwargs_safe fun kwarg _ => kwarg.2.eval_safe hengine).ok hm hrun).1
  cases hbegins with
  | body hname => exact ⟨trivial, ((assign_safe _ (.str _)).ok hm hname).1.congr rfl rfl⟩
  | first hline => exact ⟨trivial, ((moveToLine_safe _).ok hm hline).1⟩
  | rest hline hstmt =>
    have hm₁ := ((moveToLine_safe _).ok hm hline).1
    exact ⟨trivial, ((Stmt.exec_safe hengine _).ok hm₁ hstmt).1⟩
  | branch hcondition => exact ⟨trivial, (heval hm hcondition).1⟩
  | turnBody hcondition _ => exact ⟨trivial, (heval hm hcondition).1⟩
  | nextTurn hturn =>
    exact ⟨trivial, ((turn_safe hengine _ (Stmt.block_safe hengine _)).ok hm hturn).1⟩
  | rhs hlhs => exact ⟨trivial, (heval hm hlhs).1⟩
  | args hcallee => exact ⟨trivial, (heval hm hcallee).1⟩
  | kwargs hcallee hargs => exact ⟨trivial, (hitems (heval hm hcallee).1 hargs).1⟩
  | call hcallee hargs hnamed =>
    obtain ⟨hm₁, hf⟩ := heval hm hcallee
    obtain ⟨hm₂, hvalues⟩ := hitems hm₁ hargs
    exact ⟨⟨hf, hvalues⟩, hkwargs hm₂ hnamed⟩
  | moreItems hitem => exact ⟨trivial, (heval hm hitem).1⟩
  | moreKwargs hvalue => exact ⟨trivial, (heval hm hvalue).1⟩
  | print hputs => exact ⟨htask.2, hm⟩
  | morePrint htext hline =>
    have hvalues := List.forall_mem_cons.mp htask
    have hm₁ := ((toStr_safe _ hvalues.1).ok hm htext).1
    exact ⟨hvalues.2, ((printLine_safe _).ok hm₁ hline).1⟩
  -- the others begin in the state in which their task began
  | _ => exact ⟨trivial, hm⟩

/-- Every task of a run begins in a closed state and on plain values. -/
lemma closed_of_begins (hengine : engine.Prints) {task : Task} {m : Machine} (htask : task.Plain)
    (hm : m.Closed) {reached : Task × Machine}
    (hreached : Relation.ReflTransGen (Begins engine) (task, m) reached) :
    reached.1.Plain ∧ reached.2.Closed := by
  induction hreached with
  | refl => exact ⟨htask, hm⟩
  | tail _ hbegins ih => exact hbegins.closed hengine ih.1 ih.2

end Task

end SealedScript
