import SealedScript.CommandLine.FileTree
import SealedScript.Host.Engine
import SealedScript.Launch

/-! The command line: its arguments, and what one invocation prints. -/

namespace SealedScript.CommandLine

/-- What the arguments ask for. -/
inductive Invocation where
  | refused
  | version
  | start (program : String) (settings : Settings)
  deriving DecidableEq, Repr

/-- The arguments understood so far. -/
structure Options where
  program : Option String
  diagnosticsModule : Option String
  noVerify : Bool

namespace Options

def none : Options := ⟨.none, .none, false⟩

/-- There must be a program. -/
def finish (o : Options) : Invocation :=
  match o.program with
  | .none => .refused
  | some program =>
    .start program
      { diagnosticsModule := o.diagnosticsModule.getD Settings.standard.diagnosticsModule
        verify := !o.noVerify }

/-- A program is named once, and not by an empty text. -/
def withProgram? (o : Options) (path : String) : Option Options :=
  if o.program.isSome || path.isEmpty then .none else some { o with program := some path }

def withModule? (o : Options) (name : String) : Option Options :=
  if o.diagnosticsModule.isSome then .none else some { o with diagnosticsModule := some name }

def withNoVerify? (o : Options) : Option Options :=
  if o.noVerify then .none else some { o with noVerify := true }

end Options

def versionText : String := "gorbe-run 0.1.0\n"

/-- A lone dash is an ordinary text. -/
def looksLikeOption (arg : String) : Bool :=
  arg.startsWith "-" && arg != "-"

def moduleOption : String := "--diagnostics-module"

/-- The value written behind an equals sign. -/
def attachedModule? (arg : String) : Option String :=
  if arg.startsWith (moduleOption ++ "=") then some (arg.drop (moduleOption.length + 1)).toString
  else none

/-- Arguments that can only be programs. -/
def parsePrograms (o : Options) : List String → Invocation
  | [] => o.finish
  | path :: rest =>
    match o.withProgram? path with
    | some o => parsePrograms o rest
    | none => .refused

/-- Reads the arguments from left to right; the first that is refused, or asks for the version,
decides. -/
def parseFrom (o : Options) : List String → Invocation
  | [] => o.finish
  | arg :: rest =>
    if arg = "--" then parsePrograms o rest
    else if arg = "--version" ∨ arg.startsWith "-V" then .version
    else if arg = "--no-verify" then
      match o.withNoVerify? with
      | some o => parseFrom o rest
      | none => .refused
    else if arg = moduleOption then
      match rest with
      | [] => .refused
      | name :: rest =>
        if looksLikeOption name then .refused
        else match o.withModule? name with
          | some o => parseFrom o rest
          | none => .refused
    else match attachedModule? arg with
      | some name =>
        match o.withModule? name with
        | some o => parseFrom o rest
        | none => .refused
      | none =>
        if looksLikeOption arg then .refused
        else match o.withProgram? arg with
          | some o => parseFrom o rest
          | none => .refused

def parse (args : List String) : Invocation :=
  parseFrom .none args

/-- The exit status and the two texts written. -/
structure Outcome where
  status : Int32
  stdout : String
  stderr : String
  deriving DecidableEq, Repr

/-- What is found under the path of a program: a reason why it cannot be opened, a reason why it
cannot be read, or its bytes. -/
abbrev Source := Except String (Except String ByteArray)

def sourceIn (tree : FileTree) (path : String) : Source :=
  match tree.find path with
  | .error e => .error e.message
  | .ok node => .ok (node.contents.mapError PathError.message)

def cannotOpen (path reason : String) : String :=
  "Error: cannot open program " ++ path ++ "\n\nCaused by:\n    " ++ reason ++ "\n"

/-- Loads what was read; `words` says what the parser makes of a fault. -/
def loadSource (words : Json.Fault → String) (source : Except String ByteArray) (settings : Settings) :
    Except (LoadError String) Program :=
  match source with
  | .error reason => .error (.unreadable reason)
  | .ok bytes => (Program.loadBytes bytes settings.verify).mapError (.map words)

/-- How deep calls may nest and how long loops may run. -/
def fuel : Nat := 2 ^ (62 : Nat)

/-- Runs a program with nothing but the standard names and modules. -/
def start (words : Json.Fault → String) (path : String) (settings : Settings) : Source → Outcome
  | .error reason => ⟨1, "", cannotOpen path reason⟩
  | .ok source =>
    let machine := Machine.fresh .plain .plain .standard
    let engine := Host.none.engine fuel
    match launch engine settings Bootstrap.standard (loadSource words source) machine with
    | .ok result m => ⟨result.status, String.join m.stdout.written, String.join m.stderr.written⟩
    | .error _ m => ⟨1, String.join m.stdout.written, String.join m.stderr.written⟩

end SealedScript.CommandLine
