import SealedScript.Machine.Execution

/-! How a program ends: reports of uncaught exceptions and exit statuses. -/

namespace SealedScript

open Run

/-- Failures of standard error itself go unnoticed. -/
def Hook.run (engine : Engine) : Hook → Exception → Run Unit
  | .traceback, e => do
    let _ ← write .stderr e.report
  | .foreign symbol, e => engine.hook symbol e

/-- Hands an exception to the hook in charge; without one its summary is written. -/
def Run.report (engine : Engine) (e : Exception) : Run Unit := do
  match (← get).hook with
  | some hook => hook.run engine e
  | none =>
    let _ ← writeLine .stderr e.summary

/-- Runs a program under the name `__main__`. The status is zero unless the program exits with
another or ends in an exception. A log of runs, which would go to neither stream, is not kept. -/
def Program.run (engine : Engine) (program : Program) : Run Int32 := do
  let result ← attempt do
    assign "__name__" (.str "__main__")
    program.code.exec engine
  match result with
  | .ok () => return 0
  | .error e =>
    if e.kind = .systemExit then return e.exitCode.getD 0
    else do
      report engine e
      return 1

end SealedScript
