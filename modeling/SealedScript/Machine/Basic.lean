import SealedScript.Namespace
import SealedScript.Stream
import SealedScript.Table

/-! The state of a run and the steps that read and change it. -/

namespace SealedScript

/-- The statement being executed. -/
structure Position where
  filename : String
  line : UInt32
  codeName : String
  deriving DecidableEq, Repr

/-- What reports an exception that nothing caught. -/
inductive Hook where
  | traceback
  | foreign (symbol : String)
  deriving DecidableEq, Repr

/-- What fills a module when it is first imported. -/
inductive Initializer where
  | traceback
  | foreign (symbol : String)
  deriving DecidableEq, Repr

/-- The modules that can be imported and those that have been, each sorted by name. -/
structure Registry where
  initializers : List (String × Initializer)
  loaded : List (String × Module)

namespace Registry

def empty : Registry := ⟨[], []⟩

def register (r : Registry) (name : String) (init : Initializer) : Registry :=
  { r with initializers := Table.insert name init r.initializers }

/-- The module whose import makes uncaught exceptions print their trace. -/
def tracebackName : String := "traceback"

def standard : Registry :=
  empty.register tracebackName .traceback

def isLoaded (r : Registry) (name : String) : Bool :=
  (Table.get? name r.loaded).isSome

end Registry

inductive Channel where
  | stdout
  | stderr
  deriving DecidableEq, Repr

structure Machine where
  globals : Namespace
  position : Position
  stdout : Stream
  stderr : Stream
  modules : Registry
  hook : Option Hook
  /-- The identity the next class, object or module gets. -/
  nextId : Nat

namespace Machine

def startPosition : Position := ⟨"<unknown>", 0, Code.moduleName⟩

/-- Nothing bound and nothing imported. -/
def fresh (stdout stderr : Device) (modules : Registry) : Machine :=
  ⟨.empty, startPosition, .new stdout, .new stderr, modules, none, 0⟩

def stream (m : Machine) : Channel → Stream
  | .stdout => m.stdout
  | .stderr => m.stderr

def offer (m : Machine) (channel : Channel) (text : String) : Machine :=
  match channel with
  | .stdout => { m with stdout := m.stdout.offer text }
  | .stderr => { m with stderr := m.stderr.offer text }

end Machine

/-- Why a run stops short: an exception, or the bound on its length. -/
inductive Stop where
  | raised (e : Exception)
  | exhausted
  deriving DecidableEq, Repr

/-- A step of a run. The state it reaches is kept when it stops short, too. -/
abbrev Run := EStateM Stop Machine

namespace Run

def raise {α : Type} (e : Exception) : Run α :=
  throw (.raised e)

def fail {α : Type} (cause : Cause) : Run α :=
  raise cause.exception

def exhausted {α : Type} : Run α :=
  throw .exhausted

def ofExcept {α : Type} : Except Cause α → Run α
  | .ok a => pure a
  | .error cause => fail cause

/-- Runs a step and hands over the exception it raises; an exhausted run stays exhausted. -/
def attempt {α : Type} (step : Run α) : Run (Except Exception α) := fun m =>
  match step m with
  | .ok a m' => .ok (.ok a) m'
  | .error (.raised e) m' => .ok (.error e) m'
  | .error .exhausted m' => .error .exhausted m'

def ofAttempt {α : Type} : Except Exception α → Run α
  | .ok a => pure a
  | .error e => raise e

/-- The value bound to a global name. -/
def lookup (name : String) : Run Value := do
  match (← get).globals.get? name with
  | some value => return value
  | none => fail (.unbound name)

def assign (name : String) (value : Value) : Run Unit := do
  let globals ← ofExcept ((← get).globals.set name value)
  modify ({ · with globals })

def position : Run Position :=
  return (← get).position

def moveTo (position : Position) : Run Unit :=
  modify ({ · with position })

/-- Moves to a line of the code being executed. -/
def moveToLine (line : UInt32) : Run Unit :=
  modify fun m => { m with position := { m.position with line } }

/-- A number not given to anything before. -/
def newId : Run Nat := do
  let m ← get
  set { m with nextId := m.nextId + 1 }
  return m.nextId

/-- Offers a text to a stream and hands over its complaint, if any. -/
def write (channel : Channel) (text : String) : Run (Except String Unit) := do
  let m ← get
  set (m.offer channel text)
  return match ((m.stream channel).reply text).failure with
    | none => .ok ()
    | some reason => .error reason

def writeLine (channel : Channel) (text : String) : Run (Except String Unit) :=
  write channel (text ++ "\n")

/-- Writes a line on standard output; a failure there is an exception. -/
def printLine (text : String) : Run Unit := do
  match ← writeLine .stdout text with
  | .ok () => pure ()
  | .error reason => fail (.outputFailed reason)

/-- A new class; later methods win over earlier ones of the same name. -/
def newClass (name : String) (methods : List (String × Value)) : Run Value := do
  return .type ⟨← newId, name, Table.ofList methods⟩

end Run

end SealedScript
