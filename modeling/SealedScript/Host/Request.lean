import SealedScript.Machine.Basic

/-! Code of the host as a dialogue with the machine: each request is answered before the next one is
made. The requests are all that such code can do. It cannot register a module, put another stream or another
registry in place of the present one, or change the methods of a class, the attributes of an object or the
bindings of a module that has been made. A result about any host is a result about code that keeps to this. -/

namespace SealedScript

/-- What code of the host may ask for. -/
inductive Request where
  | globals
  | assign (name : String) (value : Value)
  | freeze
  | protect (name : String)
  | position
  | write (channel : Channel) (text : String)
  | newClass (name : String) (methods : List (String × Value))
  | call (callee : Value) (args : List Value) (kwargs : List (String × Value))
  | str (value : Value)
  | repr (value : Value)
  | importModule (name : String)
  | exec (code : Code)
  | setHook (hook : Option Hook)

/-- The type of the answer to a request. -/
def Request.Answer : Request → Type
  | globals => Namespace
  | assign _ _ => Except Exception Unit
  | freeze => Unit
  | protect _ => Unit
  | position => Position
  | write _ _ => Except String Unit
  | newClass _ _ => Value
  | call _ _ _ => Except Exception Value
  | str _ => Except Exception String
  | repr _ => Except Exception String
  | importModule _ => Except Exception Module
  | exec _ => Except Exception Unit
  | setHook _ => Unit

inductive HostCode (α : Type) where
  | done (result : α)
  | ask (request : Request) (resume : request.Answer → HostCode α)

namespace HostCode

def bind {α β : Type} (code : HostCode α) (next : α → HostCode β) : HostCode β :=
  match code with
  | .done a => next a
  | .ask request resume => .ask request fun answer => (resume answer).bind next

instance : Monad HostCode where
  pure := .done
  bind := .bind

/-- Asks for one thing and hands over the answer. -/
def request (r : Request) : HostCode r.Answer :=
  .ask r .done

end HostCode

/-- Code of the host that may raise an exception. -/
abbrev HostAction := ExceptT Exception HostCode

namespace HostAction

def fail {α : Type} (cause : Cause) : HostAction α :=
  throw cause.exception

def globals : HostAction Namespace :=
  ExceptT.lift (.request .globals)

def assign (name : String) (value : Value) : HostAction Unit :=
  ExceptT.mk (.request (.assign name value))

def freeze : HostAction Unit :=
  ExceptT.lift (.request .freeze)

def protect (name : String) : HostAction Unit :=
  ExceptT.lift (.request (.protect name))

def position : HostAction Position :=
  ExceptT.lift (.request .position)

def newClass (name : String) (methods : List (String × Value)) : HostAction Value :=
  ExceptT.lift (.request (.newClass name methods))

def call (callee : Value) (args : List Value) (kwargs : List (String × Value)) :
    HostAction Value :=
  ExceptT.mk (.request (.call callee args kwargs))

def str (value : Value) : HostAction String :=
  ExceptT.mk (.request (.str value))

def repr (value : Value) : HostAction String :=
  ExceptT.mk (.request (.repr value))

def importModule (name : String) : HostAction Module :=
  ExceptT.mk (.request (.importModule name))

def exec (code : Code) : HostAction Unit :=
  ExceptT.mk (.request (.exec code))

def setHook (hook : Option Hook) : HostAction Unit :=
  ExceptT.lift (.request (.setHook hook))

/-- Writes and hands over the complaint of the stream, if any. -/
def write (channel : Channel) (text : String) : HostAction (Except String Unit) :=
  ExceptT.lift (.request (.write channel text))

/-- Writes a line on standard output; a failure there is an exception. -/
def printLine (text : String) : HostAction Unit := do
  match ← write .stdout (text ++ "\n") with
  | .ok () => pure ()
  | .error reason => fail (.outputFailed reason)

/-- Binds a name in a module's own namespace. -/
def bindIn (bindings : Namespace) (name : String) (value : Value) : HostAction Namespace :=
  match bindings.set name value with
  | .ok bindings => pure bindings
  | .error cause => fail cause

end HostAction

/-- The code of the host behind each symbol. -/
structure Host where
  native : (symbol : String) → List Value → List (String × Value) → HostAction Value
  initializer : (symbol : String) → Namespace → HostAction Namespace
  hook : (symbol : String) → Exception → HostCode Unit

/-- No code at all: every symbol raises. -/
def Host.none : Host where
  native symbol _ _ := HostAction.fail (.unbound symbol)
  initializer symbol _ := HostAction.fail (.unknownModule symbol)
  hook _ _ := pure ()

end SealedScript
