import SealedScript.Operator.Basic
import Mathlib.Tactic.Basic

/-! Bools are integers to every operator: an operand that is a bool can be replaced by one or zero. Only the
messages of type errors, which name the types of the operands, tell the two apart. -/

namespace SealedScript

/-- The same operand, or a bool and the integer it counts as. -/
inductive Value.SameOperand : Value → Value → Prop
  | refl (v : Value) : SameOperand v v
  | counted (b : Bool) : SameOperand (.bool b) (.int (if b then 1 else 0))

namespace Value.SameOperand

variable {v w : Value}

lemma numeric? (h : v.SameOperand w) : v.numeric? = w.numeric? := by
  cases h <;> rfl

lemma truthy (h : v.SameOperand w) : v.truthy = w.truthy := by
  cases h with
  | refl => rfl
  | counted b => cases b <;> decide

end Value.SameOperand

/-- The same value is returned, or exceptions of one kind are raised, which differ at most if they are
type errors. -/
inductive Operator.SameOutcome : Except Cause Value → Except Cause Value → Prop
  | returned (v : Value) : SameOutcome (.ok v) (.ok v)
  | raised {cause cause' : Cause} (hkind : cause.exception.kind = cause'.exception.kind)
      (h : cause.exception.kind ≠ .typeError → cause.exception = cause'.exception) :
      SameOutcome (.error cause) (.error cause')

open Operator

lemma Operator.SameOutcome.refl (result : Except Cause Value) : SameOutcome result result := by
  cases result with
  | ok v => exact .returned v
  | error cause => exact .raised rfl fun _ => rfl

lemma Operator.SameOutcome.typeErrors {cause cause' : Cause} (h : cause.kind = .typeError)
    (h' : cause'.kind = .typeError) : SameOutcome (.error cause) (.error cause') :=
  .raised (h.trans h'.symm) fun hne => absurd h hne

namespace BinaryOp

variable {lhs lhs' rhs rhs' : Value}

/-- Arithmetic only sees the numbers that its operands stand for. -/
lemma applyNumeric_congr (op : BinaryOp) (hl : lhs.SameOperand lhs') (hr : rhs.SameOperand rhs') :
    SameOutcome (op.applyNumeric lhs rhs) (op.applyNumeric lhs' rhs') := by
  unfold applyNumeric
  rw [← hl.numeric?, ← hr.numeric?]
  split
  · exact .refl _
  · next a b _ _ _ =>
    cases floating op a.toFloat b.toFloat with
    | none => exact .typeErrors rfl rfl
    | some result => exact .refl result
  · exact .typeErrors rfl rfl

/-- A bool counts the copies of a sequence as its integer does. -/
lemma applyRepetition?_congr (hl : lhs.SameOperand lhs') (hr : rhs.SameOperand rhs') :
    applyRepetition? lhs rhs = applyRepetition? lhs' rhs' := by
  cases hl with
  | refl =>
    cases hr with
    | refl => rfl
    | counted b => cases lhs <;> rfl
  | counted b =>
    cases hr with
    | refl => cases rhs <;> rfl
    | counted => rfl

lemma apply_congr (op : BinaryOp) (hl : lhs.SameOperand lhs') (hr : rhs.SameOperand rhs') :
    SameOutcome (op.apply lhs rhs) (op.apply lhs' rhs') := by
  have hnumeric := op.applyNumeric_congr hl hr
  cases op with
  | mul =>
    change SameOutcome ((applyRepetition? lhs rhs).getD _) ((applyRepetition? lhs' rhs').getD _)
    rw [← applyRepetition?_congr hl hr]
    cases applyRepetition? lhs rhs with
    | none => exact hnumeric
    | some result => exact .refl result
  | add =>
    -- Strings and lists are joined before numbers are looked at, but a replaced operand is neither.
    cases hl with
    | refl =>
      cases hr with
      | refl => exact .refl _
      | counted b => cases lhs <;> exact hnumeric
    | counted b => exact hnumeric
  | _ => exact hnumeric

end BinaryOp

lemma UnaryOp.apply_congr (op : UnaryOp) {v w : Value} (h : v.SameOperand w) :
    SameOutcome (op.apply v) (op.apply w) := by
  unfold apply
  rw [← h.numeric?, ← h.truthy]
  split
  · exact .refl _
  · exact .refl _
  · exact .refl _
  · exact .refl _
  · exact .refl _
  · exact .refl _
  · exact .typeErrors rfl rfl

/-- No operator tells a bool from the integer it counts as, on either side. -/
theorem Value.bool_counts (b : Bool) :
    (∀ (op : BinaryOp) (v : Value),
      SameOutcome (op.apply (.bool b) v) (op.apply (.int (if b then 1 else 0)) v) ∧
      SameOutcome (op.apply v (.bool b)) (op.apply v (.int (if b then 1 else 0)))) ∧
    ∀ op : UnaryOp, SameOutcome (op.apply (.bool b)) (op.apply (.int (if b then 1 else 0))) := by
  have hcounted := SameOperand.counted b
  refine ⟨fun op v => ⟨?_, ?_⟩, ?_⟩
  · exact op.apply_congr hcounted (.refl v)
  · exact op.apply_congr (.refl v) hcounted
  · intro op
    exact op.apply_congr hcounted

end SealedScript
