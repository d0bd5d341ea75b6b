import SealedScript.Proofs.Machine.Position
import SealedScript.Proofs.Machine.Visits

/-! Nothing comes between the place where an exception is raised and the end of the program. The tasks that
have begun are given up one after the other, and none of them does anything more. -/

namespace SealedScript

open Run

/-- A step whose result is dropped stops where the step itself stops. -/
lemma Run.of_dropped {α : Type} {step : Run α} {stop : Stop} {m m' : Machine}
    (h : (do let _ ← step : Run Unit) m = .error stop m') : step m = .error stop m' := by
  rcases bind_error h with hstep | ⟨a, m₁, _, hpure⟩
  · exact hstep
  · cases hpure

namespace Task

variable {engine : Engine} {stop : Stop} {m m' s : Machine}

/-- A task stops where one that it begins stops. The program is the one task that does more: it leaves its
code unit. -/
lemma Begins.run_error {task next : Task} (hbegins : Begins engine (task, m) (next, s))
    (hinner : ∀ program, task ≠ .program program) (hstops : next.run engine s = .error stop m') :
    task.run engine m = .error stop m' := by
  cases hbegins with
  | body => exact absurd rfl (hinner _)
  | first hline =>
    rw [run, Stmt.execBlock, bind_of_ok hline]
    exact bind_of_error hstops
  | rest hline hstmt =>
    rw [run, Stmt.execBlock, bind_of_ok hline, bind_of_ok hstmt]
    exact hstops
  | assigned =>
    rw [run, Stmt.exec]
    exact bind_of_error (of_dropped hstops)
  | expression =>
    rw [run, Stmt.exec]
    exact hstops
  | condition =>
    rw [run, Stmt.exec]
    exact bind_of_error (of_dropped hstops)
  | branch hcondition =>
    rw [run, Stmt.exec, bind_of_ok hcondition]
    split_ifs at hstops ⊢
    · exact hstops
    · exact hstops
  | loop =>
    rw [run, Stmt.exec]
    exact hstops
  | turnCondition =>
    rw [run, repeatWhile]
    exact bind_of_error (bind_of_error (of_dropped hstops))
  | turnBody hcondition hv =>
    rw [run, repeatWhile]
    refine bind_of_error ?_
    rw [turn, bind_of_ok hcondition, if_pos hv]
    exact bind_of_error hstops
  | nextTurn hturn =>
    rw [run, repeatWhile, bind_of_ok hturn]
    exact hstops
  | list =>
    rw [run, Expr.eval]
    exact bind_of_error (bind_of_error (of_dropped hstops))
  | lhs =>
    rw [run, Expr.eval]
    exact bind_of_error (bind_of_error (of_dropped hstops))
  | rhs hlhs =>
    rw [run, Expr.eval]
    refine bind_of_error ?_
    rw [bind_of_ok hlhs]
    exact bind_of_error (of_dropped hstops)
  | operand =>
    rw [run, Expr.eval]
    exact bind_of_error (bind_of_error (of_dropped hstops))
  | callee =>
    rw [run, Expr.eval]
    exact bind_of_error (bind_of_error (of_dropped hstops))
  | args hcallee =>
    rw [run, Expr.eval]
    refine bind_of_error ?_
    rw [bind_of_ok hcallee]
    exact bind_of_error (of_dropped hstops)
  | kwargs hcallee hargs =>
    rw [run, Expr.eval]
    refine bind_of_error ?_
    rw [bind_of_ok hcallee, bind_of_ok hargs]
    exact bind_of_error (of_dropped hstops)
  | call hcallee hargs hkwargs =>
    rw [run, Expr.eval]
    refine bind_of_error ?_
    rw [bind_of_ok hcallee, bind_of_ok hargs, bind_of_ok hkwargs]
    exact of_dropped hstops
  | item =>
    rw [run, Expr.evalItems]
    exact bind_of_error (bind_of_error (of_dropped hstops))
  | moreItems hitem =>
    rw [run, Expr.evalItems]
    refine bind_of_error ?_
    rw [bind_of_ok hitem]
    exact bind_of_error (of_dropped hstops)
  | kwarg =>
    rw [run, Expr.evalKwargs]
    exact bind_of_error (bind_of_error (of_dropped hstops))
  | moreKwargs hvalue =>
    rw [run, Expr.evalKwargs]
    refine bind_of_error ?_
    rw [bind_of_ok hvalue]
    exact bind_of_error (of_dropped hstops)
  | print hputs =>
    rw [run, Value.call, hputs]
    exact hstops
  | morePrint htext hline =>
    rw [run, puts]
    refine bind_of_error ?_
    rw [bind_of_ok htext, bind_of_ok hline]
    exact of_dropped hstops

/-- No task begins a program. -/
lemma Begins.inner {start next : Task × Machine} (hbegins : Begins engine start next) :
    ∀ program, next.1 ≠ .program program := by
  intro program hnext
  cases hbegins <;> cases hnext

/-- A task stops where any task inside it stops, however deep that one is. -/
lemma run_error_of_reached {start hole : Task × Machine} (hinner : ∀ program, start.1 ≠ .program program)
    (hpath : Relation.ReflTransGen (Begins engine) start hole)
    (hstops : hole.1.run engine hole.2 = .error stop m') : start.1.run engine start.2 = .error stop m' := by
  induction hpath using Relation.ReflTransGen.head_induction_on with
  | refl => exact hstops
  | head hbegins _ ih => exact hbegins.run_error hinner (ih hbegins.inner)

end Task

section Endings

variable {engine : Engine} {m m' : Machine} {e : Exception}

/-- An exception on its way out of a code unit gets one entry more. -/
lemma Code.exec_of_raised {code : Code}
    (hbody : Stmt.execBlock engine code.body (m.inside code) = .error (.raised e) m') :
    code.exec engine m = .error (.raised (e.push ⟨code.filename, m'.position.line, code.name⟩))
      { m' with position := m.position } := by
  rw [exec_run, hbody]

/-- A program that exits gives its status, and nothing is reported. -/
lemma Program.run_of_exit {program : Program}
    (hrun : (Task.program program).run engine m = .error (.raised e) m') (hexit : e.kind = .systemExit) :
    program.run engine m = .ok (e.exitCode.getD 0) m' := by
  refine (bind_of_ok (attempt_of_raised hrun)).trans ?_
  dsimp only
  rw [if_pos hexit]
  rfl

lemma Task.program_samePosition (program : Program) :
    ((Task.program program).run engine).Within Machine.SamePosition :=
  (assign_samePosition _ _).bind fun _ => program.code.exec_samePosition engine

/-- Whatever raises while a program is carried out, the program ends there. -/
lemma Task.program_raised_of_reached {program : Program} {hole : Task × Machine}
    (hpath : Relation.ReflTransGen (Begins engine) (.program program, m) hole)
    (hraised : hole.1.run engine hole.2 = .error (.raised e) m') :
    ∃ raised, (Task.program program).run engine m = .error (.raised raised) { m' with position := m.position } ∧
      raised.kind = e.kind ∧ raised.exitCode = e.exitCode := by
  rcases hpath.cases_head with rfl | ⟨next, hbegins, hrest⟩
  · have hposition : m'.position = m.position := (program_samePosition program).relates (.raised hraised)
    rw [← hposition]
    exact ⟨e, hraised, rfl, rfl⟩
  · cases hbegins with
    | @body _ _ named hname =>
      have hposition : named.position = m.position := (assign_samePosition _ _).relates (.ok hname)
      have hbody := run_error_of_reached (fun _ h => by cases h) hrest hraised
      rw [← hposition]
      exact ⟨_, (bind_of_ok hname).trans (Code.exec_of_raised hbody), rfl, rfl⟩

/-- An exception is raised by some task, in the state that everything carried out before it has led to.
Every task around that one raises the same exception in the same state. A code unit around it does so but
for the entry that it adds to the trace and the position that it puts back. If the exception is an exit,
the program gives its status, zero if it has none, and has not written anything more. -/
theorem Task.raised_of_reached {hole : Task} {s : Machine} (hraised : hole.run engine s = .error (.raised e) m') :
    (∀ task m, (∀ program, task ≠ .program program) →
      Relation.ReflTransGen (Begins engine) (task, m) (hole, s) → task.run engine m = .error (.raised e) m') ∧
    (∀ (code : Code) m, Relation.ReflTransGen (Begins engine) (.block code.body, m.inside code) (hole, s) →
      code.exec engine m = .error (.raised (e.push ⟨code.filename, m'.position.line, code.name⟩))
        { m' with position := m.position }) ∧
    ∀ program m, Relation.ReflTransGen (Begins engine) (.program program, m) (hole, s) →
      e.kind = .systemExit →
      program.run engine m = .ok (e.exitCode.getD 0) { m' with position := m.position } := by
  refine ⟨fun task m hinner hpath => ?_, fun code m hpath => ?_, fun program m hpath hexit => ?_⟩
  · exact run_error_of_reached hinner hpath hraised
  · exact Code.exec_of_raised (run_error_of_reached (fun _ h => by cases h) hpath hraised)
  · obtain ⟨raised, hrun, hkind, hcode⟩ := program_raised_of_reached hpath hraised
    rw [← hcode]
    exact Program.run_of_exit hrun (hkind.trans hexit)

/-- One builtin gives back a true argument and exits on a false one, the other gives back what it is given
by a key. -/
def doorman : Host :=
  { Host.none with
    native := fun symbol args kwargs =>
      if symbol = "last" then pure ((kwargs.map (·.2)).headD .none)
      else if (args.headD .none).truthy then pure (args.headD .none)
      else HostAction.fail (.exit 3) }

def leaving : Expr :=
  .call (.name "leave") [.name "x"] []

def leavingCondition : Expr :=
  .call (.name "last") [] [("k", leaving)]

def leavingBody : List Stmt :=
  [.assign 2 "x" (.constant (.int 0))]

/-- Exits by a keyword argument in the condition of a loop, after one turn. -/
def leavingProgram : Program :=
  ⟨"", "<module>", "c.rb", [.loop 1 leavingCondition leavingBody]⟩

def waiting : Machine :=
  let bindings := ((Namespace.empty.bindings.insert "x" (.int 1)).insert "leave"
    (.builtin "leave" (.foreign "leave"))).insert "last" (.builtin "last" (.foreign "last"))
  { Machine.fresh .plain .plain .empty with globals := { Namespace.empty with bindings } }

/-- The argument is reached with everything before it carried out, and exits. -/
lemma leaving_reached : ∃ named s e m', assign "__name__" (.str "__main__") waiting = .ok () named ∧
    Relation.ReflTransGen (Task.Begins (doorman.engine 2))
      (.block leavingProgram.code.body, named.inside leavingProgram.code) (.expr leaving, s) ∧
    (Task.expr leaving).run (doorman.engine 2) s = .error (.raised e) m' ∧
    e.kind = .systemExit ∧ e.exitCode = some 3 ∧ m'.stderr.history = [] := by
  have hruns : (do
      let named ← (assign "__name__" (.str "__main__")).returned? waiting
      let begun ← (moveToLine 1).returned? (named.2.inside leavingProgram.code)
      let turned ← (turn (doorman.engine 2) leavingCondition leavingBody).returned? begun.2
      let callee ← ((Expr.name "last").eval (doorman.engine 2)).returned? turned.2
      let args ← (Expr.evalItems (doorman.engine 2) []).returned? callee.2
      let raised ← (leaving.eval (doorman.engine 2)).raised? args.2
      return (turned.1, raised.1.kind, raised.1.exitCode, raised.2.stderr.history)) =
        some (true, .systemExit, some 3, []) := by
    decide +kernel
  simp only [Option.bind_eq_bind, Option.bind_eq_some_iff, Option.pure_def, Option.some.injEq,
    Prod.mk.injEq] at hruns
  obtain ⟨⟨_, named⟩, hname, ⟨_, begun⟩, hline, ⟨again, turned⟩, hturn, ⟨f, called⟩, hcallee,
    ⟨values, ready⟩, hargs, ⟨e, m'⟩, hraised, rfl, hexits⟩ := hruns
  refine ⟨named, ready, e, m', of_returned? hname, ?_, bind_of_error (of_raised? hraised), hexits⟩
  refine .head (.first (of_returned? hline)) (.head .loop ?_)
  refine .head (.nextTurn (of_returned? hturn)) (.head .turnCondition ?_)
  exact .head (.kwargs (of_returned? hcallee) (of_returned? hargs)) (.single .kwarg)

/-- The loop and its code unit end with the exit of the argument, and the program gives its status. -/
theorem raised_of_reached_leaving : ∃ named s e m',
    (Task.expr leaving).run (doorman.engine 2) s = .error (.raised e) m' ∧
    Stmt.execBlock (doorman.engine 2) leavingProgram.code.body (named.inside leavingProgram.code) =
      .error (.raised e) m' ∧
    leavingProgram.code.exec (doorman.engine 2) named =
      .error (.raised (e.push ⟨"c.rb", m'.position.line, "<module>"⟩)) { m' with position := named.position } ∧
    leavingProgram.run (doorman.engine 2) waiting = .ok 3 { m' with position := waiting.position } ∧
    m'.stderr.history = [] := by
  obtain ⟨named, s, e, m', hname, hpath, hraised, hkind, hcode, hstderr⟩ := leaving_reached
  obtain ⟨htask, hunit, hprogram⟩ := Task.raised_of_reached hraised
  refine ⟨named, s, e, m', hraised, ?_, hunit _ named hpath, ?_, hstderr⟩
  · exact htask (.block _) _ (fun _ h => by cases h) hpath
  · have hstatus := hprogram leavingProgram waiting (.head (.body hname) hpath) hkind
    rw [hcode] at hstatus
    exact hstatus

end Endings

end SealedScript
