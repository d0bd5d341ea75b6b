import SealedScript.Machine.Engine

/-! Importing modules. -/

namespace SealedScript

open Run

/-- The module that prints traces puts itself in charge of uncaught exceptions. -/
def Initializer.run (engine : Engine) : Initializer → Namespace → Run Namespace
  | .traceback, bindings => do
    modify ({ · with hook := some .traceback })
    ofExcept (bindings.set "__doc__" (.str "Reports uncaught exceptions on stderr."))
  | .foreign symbol, bindings => engine.initializer symbol bindings

/-- A module that was imported before is found again. Otherwise its initializer runs on a namespace
of its own, and the module is kept once that has succeeded. -/
def importModule (engine : Engine) (name : String) : Run Module := do
  match Table.get? name (← get).modules.loaded with
  | some mod => return mod
  | none =>
    match Table.get? name (← get).modules.initializers with
    | none => fail (.unknownModule name)
    | some init =>
      let start ← ofExcept (Namespace.empty.set "__name__" (.str name))
      let filled ← init.run engine start
      let mod : Module := ⟨← newId, name, filled.toList⟩
      modify fun m =>
        { m with modules := { m.modules with loaded := Table.insert name mod m.modules.loaded } }
      return mod

end SealedScript
