import SealedScript.CommandLine.Basic

/-! The program as it is run from a shell. -/

namespace SealedScript.CommandLine

def usage : String :=
  "usage: [--diagnostics-module NAME] [--no-verify] PROGRAM\n"

/-- The operating system's words for a failure. -/
def reason : IO.Error → String
  | .noFileOrDirectory _ _ _ => PathError.missing.message
  | .inappropriateType _ 20 _ => PathError.notDirectory.message
  | .inappropriateType _ 21 _ => PathError.isDirectory.message
  | .permissionDenied _ _ _ => "Permission denied (os error 13)"
  | e => toString e

/-- The kind of a fault, for want of the parser's own words. -/
def complaint : Json.Fault → String
  | .malformed => "malformed text"
  | .mismatch => "data of another shape"
  | .truncated => "text ends early"

/-- A directory can be opened but not read; any other failure comes from opening. -/
def locate (path : String) : IO Source := do
  try
    return .ok (.ok (← IO.FS.readBinFile path))
  catch e =>
    if reason e = PathError.isDirectory.message then return .ok (.error (reason e))
    else return .error (reason e)

end SealedScript.CommandLine

open SealedScript in
def main (args : List String) : IO UInt32 := do
  match CommandLine.parse args with
  | .refused =>
    IO.eprint CommandLine.usage
    return 2
  | .version =>
    IO.print CommandLine.versionText
    return 0
  | .start path settings =>
    let outcome := CommandLine.start CommandLine.complaint path settings (← CommandLine.locate path)
    IO.print outcome.stdout
    IO.eprint outcome.stderr
    return outcome.status.toUInt32
