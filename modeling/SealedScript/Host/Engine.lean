import SealedScript.Host.Request
import SealedScript.Machine.Conversion
import SealedScript.Machine.Ending
import SealedScript.Machine.Import

/-! Running code of the host. It may call back into the machine, which may call host code again; the
fuel bounds how deep that goes. -/

namespace SealedScript

open Run

/-- Answers a request of host code. -/
def Request.answer (engine : Engine) : (request : Request) → Run request.Answer
  | .globals => return (← get).globals
  | .assign name value => attempt (Run.assign name value)
  | .freeze => modify fun m => { m with globals := m.globals.freeze }
  | .protect name => modify fun m => { m with globals := m.globals.protect name }
  | .position => Run.position
  | .write channel text => Run.write channel text
  | .newClass name methods => Run.newClass name methods
  | .call callee args kwargs => attempt (callee.call engine args kwargs)
  | .str value => attempt (value.toStr engine)
  | .repr value => attempt (value.repr engine)
  | .importModule name => attempt (SealedScript.importModule engine name)
  | .exec code => attempt (code.exec engine)
  | .setHook hook => modify ({ · with hook })

def HostCode.run {α : Type} (engine : Engine) : HostCode α → Run α
  | .done result => pure result
  | .ask request resume => do
    let answer ← request.answer engine
    (resume answer).run engine

def HostAction.run {α : Type} (engine : Engine) (action : HostAction α) : Run α := do
  ofAttempt (← HostCode.run engine (ExceptT.run action))

/-- The engine that runs the host's code, with `fuel` levels of calls from host code back into the
machine and as many turns a loop. -/
def Host.engine (host : Host) : (fuel : Nat) → Engine
  | 0 => .idle
  | fuel + 1 =>
    { native := fun entry args kwargs =>
        match entry with
        | .puts => puts (host.engine fuel) args
        | .foreign symbol => (host.native symbol args kwargs).run (host.engine fuel)
      initializer := fun symbol bindings =>
        (host.initializer symbol bindings).run (host.engine fuel)
      hook := fun symbol e => (host.hook symbol e).run (host.engine fuel)
      turns := fuel + 1 }

end SealedScript
