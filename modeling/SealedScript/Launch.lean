import SealedScript.Bootstrap
import SealedScript.Machine.Ending
import SealedScript.Machine.Import
import SealedScript.Program.Load

/-! From settings to an exit status: the module for diagnostics is imported, the globals are bound,
and only then is the program loaded and run. -/

namespace SealedScript

open Run

structure Settings where
  /-- Imported first, so that uncaught exceptions are reported. -/
  diagnosticsModule : String
  /-- The digest of the program is checked. -/
  verify : Bool
  deriving DecidableEq, Repr

def Settings.standard : Settings := ⟨Registry.tracebackName, true⟩

/-- What happens before any code of the program runs. -/
def startup (engine : Engine) (settings : Settings) (bootstrap : Run Unit) : Run Unit := do
  let _ ← importModule engine settings.diagnosticsModule
  bootstrap

/-- How far a launch got. -/
inductive LaunchResult where
  | startupFailed (e : Exception)
  | loadFailed (e : LoadError String)
  | finished (status : Int32)

namespace LaunchResult

def status : LaunchResult → Int32
  | startupFailed _ => 1
  | loadFailed _ => 2
  | finished status => status

/-- The program was asked for. -/
def hasLoaded : LaunchResult → Bool
  | startupFailed _ => false
  | _ => true

end LaunchResult

def startupMessage (e : Exception) : String :=
  "Startup Error: " ++ e.summary

def loadMessage (e : LoadError String) : String :=
  "Load Error: " ++ e.message

/-- Each failure has its own status and, on standard error, its own line or report. A log of launches, which
would go to neither stream, is not kept. -/
def launch (engine : Engine) (settings : Settings) (bootstrap : Run Unit)
    (load : Settings → Except (LoadError String) Program) : Run LaunchResult := do
  match ← attempt (startup engine settings bootstrap) with
  | .error e =>
    report engine e
    return .startupFailed e
  | .ok () =>
    match load settings with
    | .error e =>
      let _ ← writeLine .stderr (loadMessage e)
      return .loadFailed e
    | .ok program => return .finished (← program.run engine)

end SealedScript
