import SealedScript.Decimal.Layout
import SealedScript.Program.Basic

/-! Exceptions, the causes for which they are raised, and their text. -/

namespace SealedScript

inductive ExceptionKind where
  | importError
  | ioError
  | nameError
  | overflowError
  | runtimeError
  | systemExit
  | typeError
  | valueError
  | zeroDivisionError
  deriving DecidableEq, Repr

def ExceptionKind.name : ExceptionKind → String
  | .importError => "ImportError"
  | .ioError => "IOError"
  | .nameError => "NameError"
  | .overflowError => "OverflowError"
  | .runtimeError => "RuntimeError"
  | .systemExit => "SystemExit"
  | .typeError => "TypeError"
  | .valueError => "ValueError"
  | .zeroDivisionError => "ZeroDivisionError"

def ExceptionKind.all : List ExceptionKind :=
  [.importError, .ioError, .nameError, .overflowError, .runtimeError, .systemExit, .typeError,
    .valueError, .zeroDivisionError]

def ExceptionKind.ofName? (name : String) : Option ExceptionKind :=
  all.find? (·.name == name)

/-- Where an exception left a code unit. -/
structure TraceEntry where
  filename : String
  line : UInt32
  codeName : String
  deriving DecidableEq, Repr

/-- The trace lists the code units left so far, the innermost first. -/
structure Exception where
  kind : ExceptionKind
  message : String
  exitCode : Option Int32
  trace : List TraceEntry
  deriving DecidableEq, Repr

def BinaryOp.symbol : BinaryOp → String
  | .add => "+"
  | .sub => "-"
  | .mul => "*"
  | .div => "/"
  | .mod => "%"
  | .pow => "** or pow()"
  | .lshift => "<<"
  | .rshift => ">>"
  | .bitAnd => "&"
  | .bitOr => "|"
  | .bitXor => "^"

def UnaryOp.symbol : UnaryOp → String
  | .neg => "-"
  | .pos => "+"
  | .invert => "~"
  | .not => "not"

/-- What goes wrong in operators, names, calls, imports and output. Operands and callees are given
by the names of their types. -/
inductive Cause where
  | unbound (name : String)
  | unknownModule (name : String)
  | outputFailed (reason : String)
  | exit (code : Int32)
  | frozen (name : String)
  | readOnly (name : String)
  | notCallable (type : String)
  | needlessArguments
  | notText (method type : String)
  | binaryOperands (op : BinaryOp) (lhs rhs : String)
  | unaryOperand (op : UnaryOp) (operand : String)
  | overflow (op : BinaryOp)
  | negationOverflow
  | longText
  | longList
  | integerDivision
  | floatDivision
  | zeroPower
  | negativeShift
  deriving DecidableEq, Repr

namespace Cause

def kind : Cause → ExceptionKind
  | unbound _ => .nameError
  | unknownModule _ => .importError
  | outputFailed _ => .ioError
  | exit _ => .systemExit
  | frozen _ | readOnly _ | notCallable _ | needlessArguments | notText _ _ | binaryOperands _ _ _
  | unaryOperand _ _ => .typeError
  | overflow _ | negationOverflow | longText | longList => .overflowError
  | integerDivision | floatDivision | zeroPower => .zeroDivisionError
  | negativeShift => .valueError

def message : Cause → String
  | unbound name => "name '" ++ name ++ "' is not defined"
  | unknownModule name => "No module named " ++ name
  | outputFailed reason => reason
  | exit code => String.ofList (Decimal.integer code.toInt)
  | frozen name => "namespace is read-only, cannot assign '" ++ name ++ "'"
  | readOnly name => "'" ++ name ++ "' is read-only"
  | notCallable type => "'" ++ type ++ "' object is not callable"
  | needlessArguments => "this constructor takes no arguments"
  | notText method type => method ++ " returned non-string (type " ++ type ++ ")"
  | binaryOperands op lhs rhs =>
    "unsupported operand type(s) for " ++ op.symbol ++ ": '" ++ lhs ++ "' and '" ++ rhs ++ "'"
  | unaryOperand op operand =>
    "bad operand type for unary " ++ op.symbol ++ ": '" ++ operand ++ "'"
  | overflow op => "integer overflow in " ++ op.symbol
  | negationOverflow => "integer overflow in unary -"
  | longText => "repeated string is too long"
  | longList => "repeated list is too long"
  | integerDivision => "integer division or modulo by zero"
  | floatDivision => "float division by zero"
  | zeroPower => "0.0 cannot be raised to a negative power"
  | negativeShift => "negative shift count"

def exitCode : Cause → Option Int32
  | exit code => some code
  | _ => none

def exception (cause : Cause) : Exception :=
  ⟨cause.kind, cause.message, cause.exitCode, []⟩

end Cause

namespace Exception

def new (kind : ExceptionKind) (message : String) : Exception :=
  ⟨kind, message, none, []⟩

def push (e : Exception) (entry : TraceEntry) : Exception :=
  { e with trace := e.trace ++ [entry] }

/-- The kind, and the message if there is one. -/
def summary (e : Exception) : String :=
  if e.message.isEmpty then e.kind.name else e.kind.name ++ ": " ++ e.message

/-- A trace entry on a line of its own. -/
def traceLine (entry : TraceEntry) : String :=
  "  File \"" ++ entry.filename ++ "\", line " ++ String.ofList (Decimal.natural entry.line.toNat)
    ++ ", in " ++ entry.codeName ++ "\n"

/-- A header, the trace with the outermost entry first, and the summary. -/
def report (e : Exception) : String :=
  "Traceback (most recent call last):\n" ++ String.join (e.trace.reverse.map traceLine)
    ++ e.summary ++ "\n"

end Exception

end SealedScript
