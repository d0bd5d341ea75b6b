import SealedScript.Machine.Ending
import SealedScript.Proofs.Machine.Plain
import SealedScript.Proofs.Syntax

/-! What every step of a run keeps when the only builtin is the line printer and no name is closed: the
globals hold data and the printer, and an exception is none that only host code could raise. -/

namespace SealedScript

/-- Every global is plain and can be rebound, and uncaught exceptions are not reported by host code. -/
structure Machine.Closed (m : Machine) : Prop where
  plain : ∀ {name value}, m.globals.get? name = some value → value.Plain
  writable : ∀ name, m.globals.Writable name
  hook : ∀ symbol, m.hook ≠ some (.foreign symbol)

/-- Nothing but the globals and the hook matters. -/
lemma Machine.Closed.congr {m m' : Machine} (h : m.Closed) (hglobals : m'.globals = m.globals)
    (hhook : m'.hook = m.hook) : m'.Closed := by
  constructor
  · rw [hglobals]
    exact h.plain
  · rw [hglobals]
    exact h.writable
  · rw [hhook]
    exact h.hook

/-- The device complained about some text. -/
def Stream.Failed (s : Stream) : Prop :=
  ∃ offer ∈ s.history, offer.reply.failure.isSome = true

/-- The exception comes from evaluation, or from standard output that has failed. -/
def Exception.Ordinary (e : Exception) (m : Machine) : Prop :=
  e.kind ∈ ExceptionKind.evaluation ∨ e.kind = .ioError ∧ m.stdout.Failed

namespace Run

variable {α β : Type}

/-- From a closed state, the step reaches a closed state, with a result in `Q` or an ordinary
exception. -/
structure Safe (step : Run α) (Q : α → Prop) : Prop where
  ok : ∀ {m a m'}, m.Closed → step m = .ok a m' → m'.Closed ∧ Q a
  error : ∀ {m stop m'}, m.Closed → step m = .error stop m' →
    m'.Closed ∧ ∀ e, stop = .raised e → e.Ordinary m'

/-- Whether it succeeds or not, the step takes `m` to `m'`. -/
def EndsIn (step : Run α) (m m' : Machine) : Prop :=
  (∃ a, step m = .ok a m') ∨ ∃ stop, step m = .error stop m'

variable {step : Run α} {Q : α → Prop} {R : β → Prop}

lemma Safe.endsIn (h : Safe step Q) {m m' : Machine} (hm : m.Closed) (hends : step.EndsIn m m') :
    m'.Closed := by
  rcases hends with ⟨a, hrun⟩ | ⟨stop, hrun⟩
  · exact (h.ok hm hrun).1
  · exact (h.error hm hrun).1

lemma safe_pure {a : α} (ha : Q a) : Safe (pure a : Run α) Q := by
  constructor
  · intro m b m' hm hrun
    cases hrun
    exact ⟨hm, ha⟩
  · intro m stop m' hm hrun
    cases hrun

lemma bind_ok {next : α → Run β} {m m' : Machine} {b : β} (h : (step >>= next) m = .ok b m') :
    ∃ a m₁, step m = .ok a m₁ ∧ next a m₁ = .ok b m' := by
  change EStateM.bind step next m = _ at h
  unfold EStateM.bind at h
  split at h
  · next a m₁ hstep => exact ⟨a, m₁, hstep, h⟩
  · cases h

lemma bind_error {next : α → Run β} {m m' : Machine} {stop : Stop}
    (h : (step >>= next) m = .error stop m') :
    step m = .error stop m' ∨ ∃ a m₁, step m = .ok a m₁ ∧ next a m₁ = .error stop m' := by
  change EStateM.bind step next m = _ at h
  unfold EStateM.bind at h
  split at h
  · next a m₁ hstep => exact .inr ⟨a, m₁, hstep, h⟩
  · next stop' m₁ hstep =>
    cases h
    exact .inl hstep

lemma Safe.bind (h : Safe step Q) {next : α → Run β} (hnext : ∀ a, Q a → Safe (next a) R) :
    Safe (step >>= next) R := by
  constructor
  · intro m b m' hm hrun
    obtain ⟨a, m₁, hstep, hrest⟩ := bind_ok hrun
    obtain ⟨hm₁, ha⟩ := h.ok hm hstep
    exact (hnext a ha).ok hm₁ hrest
  · intro m stop m' hm hrun
    rcases bind_error hrun with hstep | ⟨a, m₁, hstep, hrest⟩
    · exact h.error hm hstep
    · obtain ⟨hm₁, ha⟩ := h.ok hm hstep
      exact (hnext a ha).error hm₁ hrest

lemma safe_exhausted : Safe (exhausted : Run α) Q := by
  constructor
  · intro m a m' hm hrun
    cases hrun
  · intro m stop m' hm hrun
    cases hrun
    exact ⟨hm, fun e he => nomatch he⟩

lemma safe_fail {cause : Cause} (hkind : cause.kind ∈ ExceptionKind.evaluation) :
    Safe (fail cause : Run α) Q := by
  constructor
  · intro m a m' hm hrun
    cases hrun
  · intro m stop m' hm hrun
    cases hrun
    refine ⟨hm, fun e he => ?_⟩
    cases he
    exact .inl hkind

lemma safe_ofExcept {outcome : Except Cause Value} (h : PlainOutcome outcome) :
    Safe (ofExcept outcome) Value.Plain := by
  cases h with
  | value h => exact safe_pure h
  | cause h => exact safe_fail h

lemma moveToLine_safe (line : UInt32) : Safe (moveToLine line) fun _ => True := by
  constructor
  · intro m a m' hm hrun
    cases hrun
    exact ⟨hm.congr rfl rfl, trivial⟩
  · intro m stop m' hm hrun
    cases hrun

lemma safe_get : Safe (get : Run Machine) Machine.Closed := by
  constructor
  · intro m a m' hm hrun
    cases hrun
    exact ⟨hm, hm⟩
  · intro m stop m' hm hrun
    cases hrun

lemma lookup_safe (name : String) : Safe (lookup name) Value.Plain := by
  refine safe_get.bind fun m hm => ?_
  cases hfound : m.globals.get? name with
  | some value => exact safe_pure (hm.plain hfound)
  | none => exact safe_fail (by simp [Cause.kind, ExceptionKind.evaluation])

/-- Any name can be bound in a closed state. -/
lemma assign_run {m : Machine} (hm : m.Closed) (name : String) (value : Value) :
    ∃ globals, m.globals.set name value = .ok globals ∧
      assign name value m = .ok () { m with globals } := by
  have hset : m.globals.set name value = .ok _ :=
    Namespace.set_eq_ok_iff.mpr ⟨hm.writable name, rfl⟩
  exact ⟨_, hset, assign_of_set hset⟩

lemma assign_safe (name : String) {value : Value} (h : value.Plain) :
    Safe (assign name value) fun _ => True := by
  constructor
  · intro m a m' hm hrun
    obtain ⟨globals, hset, hassign⟩ := assign_run hm name value
    rw [hassign] at hrun
    cases hrun
    obtain ⟨-, hglobals⟩ := Namespace.set_eq_ok_iff.mp hset
    refine ⟨⟨?_, ?_, hm.hook⟩, trivial⟩
    · intro other found hfound
      change globals.get? other = some found at hfound
      rw [Namespace.get?_set hset] at hfound
      split_ifs at hfound
      · exact Option.some.inj hfound ▸ h
      · exact hm.plain hfound
    · intro other
      change globals.Writable other
      rw [hglobals]
      exact hm.writable other
  · intro m stop m' hm hrun
    obtain ⟨globals, -, hassign⟩ := assign_run hm name value
    rw [hassign] at hrun
    cases hrun

/-- The device's reply to the line decides. -/
lemma printLine_run (text : String) (m : Machine) :
    printLine text m =
      match (m.stdout.reply (text ++ "\n")).failure with
      | none => .ok () (m.offer .stdout (text ++ "\n"))
      | some reason =>
        .error (.raised (Cause.outputFailed reason).exception) (m.offer .stdout (text ++ "\n")) := by
  have hwrite : writeLine .stdout text m = .ok _ (m.offer .stdout (text ++ "\n")) := rfl
  rw [printLine, bind_of_ok hwrite]
  simp only [Machine.stream]
  cases (m.stdout.reply (text ++ "\n")).failure <;> rfl

/-- A failed line is the only source of an exception that is not from evaluation. -/
lemma printLine_safe (text : String) : Safe (printLine text) fun _ => True := by
  have hclosed : ∀ {m : Machine}, m.Closed → (m.offer .stdout (text ++ "\n")).Closed :=
    fun hm => hm.congr rfl rfl
  constructor
  · intro m a m' hm hrun
    rw [printLine_run] at hrun
    split at hrun
    · cases hrun
      exact ⟨hclosed hm, trivial⟩
    · cases hrun
  · intro m stop m' hm hrun
    rw [printLine_run] at hrun
    split at hrun
    · cases hrun
    · next reason hfailure =>
      cases hrun
      refine ⟨hclosed hm, fun e he => ?_⟩
      cases he
      refine .inr ⟨rfl, _, List.mem_cons_self, ?_⟩
      simp [hfailure]

lemma toStr_safe (engine : Engine) {value : Value} (h : value.Plain) :
    Safe (value.toStr engine) fun _ => True := by
  constructor
  · intro m text m' hm hrun
    obtain ⟨text', htext⟩ := h.toStr engine m
    rw [htext] at hrun
    cases hrun
    exact ⟨hm, trivial⟩
  · intro m stop m' hm hrun
    obtain ⟨text', htext⟩ := h.toStr engine m
    rw [htext] at hrun
    cases hrun

lemma puts_safe (engine : Engine) {values : List Value} (h : ∀ value ∈ values, value.Plain) :
    Safe (puts engine values) Value.Plain := by
  induction values with
  | nil => exact safe_pure .none
  | cons value values ih =>
    rw [List.forall_mem_cons] at h
    rw [puts]
    exact (toStr_safe engine h.1).bind fun text _ => (printLine_safe text).bind fun _ _ => ih h.2

end Run

/-- The code behind the line printer prints plain arguments, or is not run for want of fuel. -/
def Engine.Prints (engine : Engine) : Prop :=
  ∀ args kwargs, (∀ arg ∈ args, arg.Plain) → (engine.native .puts args kwargs).Safe Value.Plain

section Execution

open Run

variable {engine : Engine}

lemma Value.call_safe (hengine : engine.Prints) {f : Value} (hf : f.Plain) {args : List Value}
    (hargs : ∀ arg ∈ args, arg.Plain) (kwargs : List (String × Value)) :
    (f.call engine args kwargs).Safe Value.Plain := by
  cases hf with
  | printer =>
    rw [Value.call]
    exact hengine args kwargs hargs
  | _ =>
    rw [Value.call]
    · exact safe_fail (by simp [Cause.kind, ExceptionKind.evaluation])
    · simp
    · simp

lemma Expr.evalItems_safe {items : List Expr}
    (h : ∀ item ∈ items, (item.eval engine).Safe Value.Plain) :
    (Expr.evalItems engine items).Safe fun values => ∀ value ∈ values, value.Plain := by
  induction items with
  | nil =>
    rw [evalItems]
    exact safe_pure (by simp)
  | cons item items ih =>
    rw [List.forall_mem_cons] at h
    rw [evalItems]
    exact h.1.bind fun value hvalue => (ih h.2).bind fun values hvalues =>
      safe_pure (by simpa using ⟨hvalue, hvalues⟩)

lemma Expr.evalKwargs_safe {kwargs : List (String × Expr)}
    (h : ∀ kwarg ∈ kwargs, (kwarg.2.eval engine).Safe Value.Plain) :
    (Expr.evalKwargs engine kwargs).Safe fun _ => True := by
  induction kwargs with
  | nil =>
    rw [evalKwargs]
    exact safe_pure trivial
  | cons kwarg kwargs ih =>
    rw [List.forall_mem_cons] at h
    rw [evalKwargs]
    exact h.1.bind fun value _ => (ih h.2).bind fun values _ => safe_pure trivial

/-- Every expression is evaluated to a plain value, or raises an ordinary exception. -/
lemma Expr.eval_safe (hengine : engine.Prints) (e : Expr) : (e.eval engine).Safe Value.Plain := by
  induction e with
  | constant c =>
    rw [eval]
    exact safe_pure c.value_plain
  | name ident =>
    rw [eval]
    exact lookup_safe ident
  | list items ih =>
    rw [eval]
    exact (evalItems_safe ih).bind fun values hvalues => safe_pure (.list hvalues)
  | binary op lhs rhs ihl ihr =>
    rw [eval]
    exact ihl.bind fun a ha => ihr.bind fun b hb => safe_ofExcept (op.apply_plain ha hb)
  | unary op operand ih =>
    rw [eval]
    exact ih.bind fun a _ => safe_ofExcept (op.apply_plain a)
  | call callee args kwargs ihc iha ihk =>
    rw [eval]
    exact ihc.bind fun f hf => (evalItems_safe iha).bind fun values hvalues =>
      (evalKwargs_safe ihk).bind fun named _ => Value.call_safe hengine hf hvalues named

lemma Run.repeatWhile_safe {turn : Run Bool} (h : turn.Safe fun _ => True) (n : Nat) :
    (Run.repeatWhile n turn).Safe fun _ => True := by
  induction n with
  | zero => exact safe_exhausted
  | succ n ih =>
    rw [repeatWhile]
    refine h.bind fun again _ => ?_
    cases again with
    | true => exact ih
    | false => exact safe_pure trivial

/-- One turn of a loop: false when the condition is no longer met. -/
def Run.turn (engine : Engine) (condition : Expr) (body : List Stmt) : Run Bool := do
  if (← condition.eval engine).truthy then
    Stmt.execBlock engine body
    return true
  else return false

lemma Run.turn_safe (hengine : engine.Prints) (condition : Expr) {body : List Stmt}
    (hbody : (Stmt.execBlock engine body).Safe fun _ => True) :
    (Run.turn engine condition body).Safe fun _ => True := by
  refine (condition.eval_safe hengine).bind fun v _ => ?_
  split
  · exact hbody.bind fun _ _ => safe_pure trivial
  · exact safe_pure trivial

lemma Stmt.execBlock_safe {block : List Stmt}
    (h : ∀ stmt ∈ block, (stmt.exec engine).Safe fun _ => True) :
    (Stmt.execBlock engine block).Safe fun _ => True := by
  induction block with
  | nil =>
    rw [execBlock]
    exact safe_pure trivial
  | cons stmt block ih =>
    rw [List.forall_mem_cons] at h
    rw [execBlock]
    exact (moveToLine_safe stmt.line).bind fun _ _ => h.1.bind fun _ _ => ih h.2

lemma Stmt.exec_safe (hengine : engine.Prints) (stmt : Stmt) :
    (stmt.exec engine).Safe fun _ => True := by
  induction stmt with
  | assign line target value =>
    rw [exec]
    exact (value.eval_safe hengine).bind fun v hv => assign_safe target hv
  | expression line value =>
    rw [exec]
    exact (value.eval_safe hengine).bind fun _ _ => safe_pure trivial
  | branch line condition thenBlock elseBlock iht ihe =>
    rw [exec]
    refine (condition.eval_safe hengine).bind fun v _ => ?_
    split
    · exact execBlock_safe iht
    · exact execBlock_safe ihe
  | loop line condition body ih =>
    rw [exec]
    exact repeatWhile_safe (turn_safe hengine condition (execBlock_safe ih)) _
  | pass line =>
    rw [exec]
    exact safe_pure trivial

lemma Stmt.block_safe (hengine : engine.Prints) (block : List Stmt) :
    (Stmt.execBlock engine block).Safe fun _ => True :=
  execBlock_safe fun stmt _ => stmt.exec_safe hengine

/-- The state in which the body of a code unit begins. -/
def Machine.inside (m : Machine) (code : Code) : Machine :=
  { m with position := { m.position with filename := code.filename, codeName := code.name } }

/-- The body runs at the position of its unit, and whatever its end, the position is as before. -/
lemma Code.exec_run (engine : Engine) (code : Code) (m : Machine) :
    code.exec engine m =
      match Stmt.execBlock engine code.body (m.inside code) with
      | .ok () m' => .ok () { m' with position := m.position }
      | .error (.raised e) m' =>
        .error (.raised (e.push ⟨code.filename, m'.position.line, code.name⟩))
          { m' with position := m.position }
      | .error .exhausted m' => .error .exhausted m' := by
  -- the position is set before anything can fail
  have hposition : position m = .ok m.position m := rfl
  have hmove : moveTo { m.position with filename := code.filename, codeName := code.name } m =
    .ok () (m.inside code) := rfl
  rw [Code.exec, bind_of_ok hposition, bind_of_ok hmove]
  cases hrun : Stmt.execBlock engine code.body (m.inside code) with
  | ok a m' =>
    rw [bind_of_ok (attempt_of_ok hrun)]
    rfl
  | error stop m' =>
    cases stop with
    | raised e =>
      rw [bind_of_ok (attempt_of_raised hrun)]
      rfl
    | exhausted => exact bind_of_error (attempt_of_exhausted hrun)

lemma Code.exec_safe (hengine : engine.Prints) (code : Code) :
    (code.exec engine).Safe fun _ => True := by
  have hbody := Stmt.block_safe hengine code.body
  have hinside : ∀ {m : Machine}, m.Closed → (m.inside code).Closed := fun hm => hm.congr rfl rfl
  constructor
  · intro m a m' hm hrun
    rw [exec_run] at hrun
    split at hrun
    · next m₁ hblock =>
      cases hrun
      exact ⟨(hbody.ok (hinside hm) hblock).1.congr rfl rfl, trivial⟩
    · cases hrun
    · cases hrun
  · intro m stop m' hm hrun
    rw [exec_run] at hrun
    split at hrun
    · cases hrun
    · next e m₁ hblock =>
      cases hrun
      obtain ⟨hm₁, hordinary⟩ := hbody.error (hinside hm) hblock
      refine ⟨hm₁.congr rfl rfl, fun raised hraised => ?_⟩
      cases hraised
      exact hordinary e rfl
    · next m₁ hblock =>
      cases hrun
      exact ⟨(hbody.error (hinside hm) hblock).1, fun e he => nomatch he⟩

end Execution

end SealedScript
