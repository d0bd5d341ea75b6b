import Mathlib.Tactic.Common
import SealedScript.Bootstrap
import SealedScript.Machine.Conversion
import SealedScript.Machine.Execution

/-! Plain values: data and the line printer. Operators give plain values for plain operands, and the
text of a plain value is found without running any code. -/

namespace SealedScript

/-- Data of any nesting, or the line printer under its own name. -/
inductive Value.Plain : Value → Prop
  | none : Plain .none
  | bool (b : Bool) : Plain (.bool b)
  | int (i : Int64) : Plain (.int i)
  | float (x : Float) : Plain (.float x)
  | str (s : String) : Plain (.str s)
  | list {items : List Value} (h : ∀ item ∈ items, Plain item) : Plain (.list items)
  | printer : Plain (.builtin Bootstrap.printerName .puts)

lemma Value.Plain.items {items : List Value} (h : Plain (.list items)) :
    ∀ item ∈ items, item.Plain := by
  cases h with
  | list h => exact h

lemma Constant.value_plain (c : Constant) : c.value.Plain := by
  cases c <;> constructor

/-- What evaluation alone can raise. -/
def ExceptionKind.evaluation : List ExceptionKind :=
  [.nameError, .typeError, .valueError, .zeroDivisionError, .overflowError]

/-- A plain value, or a cause that evaluation alone can have. -/
inductive PlainOutcome : Except Cause Value → Prop
  | value {v : Value} (h : v.Plain) : PlainOutcome (.ok v)
  | cause {cause : Cause} (h : cause.kind ∈ ExceptionKind.evaluation) : PlainOutcome (.error cause)

section Operators

lemma overflow_plain (op : BinaryOp) : PlainOutcome (.error (.overflow op)) :=
  .cause (by simp [Cause.kind, ExceptionKind.evaluation])

lemma Operator.fit_plain (op : BinaryOp) (i : Int) : PlainOutcome (fit op i) := by
  unfold fit
  split_ifs
  · exact .value (.int _)
  · exact overflow_plain op

lemma Operator.power_plain (a : Int) (b : Nat) : PlainOutcome (power a b) := by
  unfold power
  split_ifs
  · exact fit_plain _ _
  · exact fit_plain _ _
  · exact fit_plain _ _
  · exact fit_plain _ _
  · exact fit_plain _ _
  · exact fit_plain _ _
  · exact overflow_plain _

lemma Operator.integer_plain (op : BinaryOp) (a b : Int64) : PlainOutcome (integer op a b) := by
  have hdivision : PlainOutcome (.error .integerDivision) := PlainOutcome.cause (by decide)
  have hshift : PlainOutcome (.error .negativeShift) := PlainOutcome.cause (by decide)
  cases op with
  | add => exact fit_plain _ _
  | sub => exact fit_plain _ _
  | mul => exact fit_plain _ _
  | div =>
    simp only [integer]
    split_ifs
    · exact hdivision
    · exact fit_plain _ _
  | mod =>
    simp only [integer]
    split_ifs
    · exact hdivision
    · exact fit_plain _ _
  | pow =>
    simp only [integer]
    split_ifs
    · exact PlainOutcome.cause (by decide)
    · exact PlainOutcome.value (.float _)
    · exact power_plain _ _
  | lshift =>
    simp only [integer, shiftLeft]
    split_ifs
    · exact hshift
    · exact fit_plain _ _
    · exact PlainOutcome.cause (by decide)
    · exact fit_plain _ _
  | rshift =>
    simp only [integer, shiftRight]
    split_ifs
    · exact hshift
    · exact fit_plain _ _
    · exact fit_plain _ _
    · exact fit_plain _ _
  | bitAnd => exact PlainOutcome.value (.int _)
  | bitOr => exact PlainOutcome.value (.int _)
  | bitXor => exact PlainOutcome.value (.int _)

lemma Operator.floating_plain {op : BinaryOp} {a b : Float} {outcome : Except Cause Value}
    (h : floating op a b = some outcome) : PlainOutcome outcome := by
  have hguard : ∀ (c : Bool) {cause : Cause} (x : Float), cause.kind ∈ ExceptionKind.evaluation →
      PlainOutcome (if c then .error cause else .ok (.float x)) := by
    intro c cause x hcause
    cases c with
    | true => exact .cause hcause
    | false => exact .value (.float x)
  cases op with
  | add => exact Option.some.inj h ▸ .value (.float _)
  | sub => exact Option.some.inj h ▸ .value (.float _)
  | mul => exact Option.some.inj h ▸ .value (.float _)
  | div => exact Option.some.inj h ▸ hguard _ _ (by decide)
  | mod => exact Option.some.inj h ▸ hguard _ _ (by decide)
  | pow => exact Option.some.inj h ▸ hguard _ _ (by decide)
  | _ => cases h

lemma BinaryOp.unsupported_plain (op : BinaryOp) (lhs rhs : Value) :
    PlainOutcome (.error (op.unsupported lhs rhs)) :=
  .cause (by simp [unsupported, Cause.kind, ExceptionKind.evaluation])

lemma BinaryOp.applyNumeric_plain (op : BinaryOp) (lhs rhs : Value) :
    PlainOutcome (op.applyNumeric lhs rhs) := by
  unfold applyNumeric
  split
  · exact Operator.integer_plain op _ _
  · next a b _ _ _ =>
    cases hfloating : Operator.floating op a.toFloat b.toFloat with
    | none => exact op.unsupported_plain lhs rhs
    | some outcome => exact Operator.floating_plain hfloating
  · exact op.unsupported_plain lhs rhs

lemma Operator.repeatText_plain (s : String) (n : Int) : PlainOutcome (repeatText s n) := by
  unfold repeatText repetition
  split_ifs
  · exact .value (.str _)
  · exact .value (.str _)
  · exact .cause (by decide)

/-- Copies of plain items are plain. -/
lemma Operator.repeatList_plain {items : List Value} (h : ∀ item ∈ items, item.Plain) (n : Int) :
    PlainOutcome (repeatList items n) := by
  unfold repeatList repetition
  split_ifs
  · exact .value (.list (by simp))
  · refine .value (.list fun item hitem => ?_)
    dsimp only at hitem
    rw [toList_fill_empty] at hitem
    obtain ⟨copy, hcopy, hitem⟩ := List.mem_flatten.mp hitem
    rw [(List.mem_replicate.mp hcopy).2] at hitem
    exact h item hitem
  · exact .cause (by decide)

lemma BinaryOp.applyRepetition?_plain {lhs rhs : Value} (hl : lhs.Plain) (hr : rhs.Plain)
    {outcome : Except Cause Value} (h : applyRepetition? lhs rhs = some outcome) :
    PlainOutcome outcome := by
  unfold applyRepetition? at h
  split at h
  · obtain ⟨i, -, rfl⟩ := Option.map_eq_some_iff.mp h
    exact Operator.repeatText_plain _ _
  · obtain ⟨i, -, rfl⟩ := Option.map_eq_some_iff.mp h
    exact Operator.repeatText_plain _ _
  · obtain ⟨i, -, rfl⟩ := Option.map_eq_some_iff.mp h
    exact Operator.repeatList_plain hl.items _
  · obtain ⟨i, -, rfl⟩ := Option.map_eq_some_iff.mp h
    exact Operator.repeatList_plain hr.items _
  · cases h

lemma BinaryOp.apply_plain (op : BinaryOp) {lhs rhs : Value} (hl : lhs.Plain) (hr : rhs.Plain) :
    PlainOutcome (op.apply lhs rhs) := by
  unfold apply
  split
  · exact .value (.str _)
  · refine .value (.list fun item hitem => ?_)
    rcases List.mem_append.mp hitem with hitem | hitem
    · exact hl.items item hitem
    · exact hr.items item hitem
  · cases hrepetition : applyRepetition? lhs rhs with
    | none => exact applyNumeric_plain _ _ _
    | some outcome => exact applyRepetition?_plain hl hr hrepetition
  · exact applyNumeric_plain _ _ _

lemma UnaryOp.apply_plain (op : UnaryOp) (operand : Value) : PlainOutcome (op.apply operand) := by
  unfold apply
  split
  · exact .value (.bool _)
  · exact .value (.float _)
  · exact .value (.float _)
  · unfold negate
    split_ifs
    · exact .cause (by decide)
    · exact .value (.int _)
  · exact .value (.int _)
  · exact .value (.int _)
  · exact .cause (by simp [Cause.kind, ExceptionKind.evaluation])

end Operators

section Conversion

/-- The result of a step and the state it reaches, if it succeeds. -/
def Run.returned? {α : Type} (step : Run α) (m : Machine) : Option (α × Machine) :=
  match step m with
  | .ok a m' => some (a, m')
  | .error _ _ => none

/-- The exception that a step raises and the state it reaches, if it raises one. -/
def Run.raised? {α : Type} (step : Run α) (m : Machine) : Option (Exception × Machine) :=
  match step m with
  | .error (.raised e) m' => some (e, m')
  | _ => none

lemma Run.of_returned? {α : Type} {step : Run α} {m m' : Machine} {a : α}
    (h : step.returned? m = some (a, m')) : step m = .ok a m' := by
  unfold returned? at h
  split at h
  · next hrun =>
    cases h
    exact hrun
  · cases h

lemma Run.of_raised? {α : Type} {step : Run α} {m m' : Machine} {e : Exception}
    (h : step.raised? m = some (e, m')) : step m = .error (.raised e) m' := by
  unfold raised? at h
  split at h
  · next hrun =>
    cases h
    exact hrun
  · cases h

lemma Run.bind_of_ok {α β : Type} {step : Run α} {next : α → Run β} {m m' : Machine} {a : α}
    (h : step m = .ok a m') : (step >>= next) m = next a m' := by
  change EStateM.bind step next m = _
  rw [EStateM.bind, h]

lemma Run.bind_of_error {α β : Type} {step : Run α} {next : α → Run β} {m m' : Machine} {stop : Stop}
    (h : step m = .error stop m') : (step >>= next) m = .error stop m' := by
  change EStateM.bind step next m = _
  rw [EStateM.bind, h]

lemma Run.attempt_of_ok {α : Type} {step : Run α} {m m' : Machine} {a : α} (h : step m = .ok a m') :
    attempt step m = .ok (.ok a) m' := by
  rw [attempt, h]

lemma Run.attempt_of_raised {α : Type} {step : Run α} {m m' : Machine} {e : Exception}
    (h : step m = .error (.raised e) m') : attempt step m = .ok (.error e) m' := by
  rw [attempt, h]

lemma Run.attempt_of_exhausted {α : Type} {step : Run α} {m m' : Machine}
    (h : step m = .error .exhausted m') : attempt step m = .error .exhausted m' := by
  rw [attempt, h]

lemma Run.lookup_of_get? {name : String} {value : Value} {m : Machine} (h : m.globals.get? name = some value) :
    lookup name m = .ok value m := by
  have hget : (get : Run Machine) m = .ok m m := rfl
  rw [lookup, bind_of_ok hget, h]
  rfl

lemma Run.lookup_of_get?_none {name : String} {m : Machine} (h : m.globals.get? name = none) :
    lookup name m = .error (.raised (Cause.unbound name).exception) m := by
  have hget : (get : Run Machine) m = .ok m m := rfl
  rw [lookup, bind_of_ok hget, h]
  rfl

lemma Run.assign_of_set {name : String} {value : Value} {m : Machine} {globals : Namespace}
    (h : m.globals.set name value = .ok globals) : assign name value m = .ok () { m with globals } := by
  change (ofExcept (m.globals.set name value) >>= _) m = _
  rw [h]
  rfl

lemma Run.assign_of_set_error {name : String} {value : Value} {m : Machine} {cause : Cause}
    (h : m.globals.set name value = .error cause) :
    assign name value m = .error (.raised cause.exception) m := by
  change (ofExcept (m.globals.set name value) >>= _) m = _
  rw [h]
  rfl

mutual

/-- The text that a value has by itself, when no method is asked for it. -/
def Value.ownText : Value → String
  | .none => "None"
  | .bool b => if b then "True" else "False"
  | .int i => intText i.toInt
  | .float x => floatText x
  | .str s => quote s
  | .list items => "[" ++ ", ".intercalate (ownTexts items) ++ "]"
  | .builtin name _ => "<built-in function " ++ name ++ ">"
  | .type cls => "<class '" ++ cls.name ++ "'>"
  | .object _ cls => "<" ++ cls.name ++ " object>"
  | .module mod => "<module '" ++ mod.name ++ "'>"

def Value.ownTexts : List Value → List String
  | [] => []
  | item :: rest => item.ownText :: ownTexts rest

end

variable (engine : Engine) (m : Machine)

lemma Value.reprItems_of_repr {items : List Value}
    (h : ∀ item ∈ items, item.repr engine m = .ok item.ownText m) :
    Value.reprItems engine items m = .ok (ownTexts items) m := by
  induction items with
  | nil => rfl
  | cons item items ih =>
    rw [List.forall_mem_cons] at h
    rw [reprItems, Run.bind_of_ok h.1, Run.bind_of_ok (ih h.2)]
    rfl

/-- A plain value has its own text whatever the state, and finding it changes nothing. -/
lemma Value.Plain.repr_eq {value : Value} (h : value.Plain) :
    value.repr engine m = .ok value.ownText m := by
  induction h with
  | list h ih =>
    rw [Value.repr, Run.bind_of_ok (Value.reprItems_of_repr engine m ih)]
    rfl
  | _ => rfl

lemma Value.Plain.repr {value : Value} (h : value.Plain) : ∃ text, value.repr engine m = .ok text m :=
  ⟨_, h.repr_eq engine m⟩

lemma Value.Plain.toStr {value : Value} (h : value.Plain) :
    ∃ text, value.toStr engine m = .ok text m := by
  cases h with
  | str s => exact ⟨s, rfl⟩
  | list h => exact (Value.Plain.list h).repr engine m
  | _ => exact ⟨_, rfl⟩

end Conversion

end SealedScript
