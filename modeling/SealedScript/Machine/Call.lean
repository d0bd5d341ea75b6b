import SealedScript.Machine.Engine

/-! Calling builtins and classes. -/

namespace SealedScript

open Run

/-- The method that gets a new object and the arguments of the call. -/
def Class.constructor : String := "__init__"

mutual

/-- A builtin runs its code. A class makes an object, has its constructor fill it, and gives back
the object whatever the constructor returns. -/
def Value.call (engine : Engine) :
    Value → List Value → List (String × Value) → Run Value
  | .builtin _ entry, args, kwargs => engine.native entry args kwargs
  | .type ⟨id, name, methods⟩, args, kwargs => do
    let made := Value.object (← newId) ⟨id, name, methods⟩
    construct engine methods made args kwargs
    return made
  | other, _, _ => fail (.notCallable other.typeName)

/-- Calls the constructor among `methods`. Without one there must be no arguments. -/
def Value.construct (engine : Engine) :
    List (String × Value) → Value → List Value → List (String × Value) → Run Unit
  | [], _, args, kwargs =>
    if args.isEmpty && kwargs.isEmpty then pure () else fail .needlessArguments
  | (name, method) :: rest, made, args, kwargs =>
    if name = Class.constructor then do
      let _ ← method.call engine (made :: args) kwargs
    else construct engine rest made args kwargs

end

end SealedScript
