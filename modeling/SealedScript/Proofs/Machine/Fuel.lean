import SealedScript.Proofs.Machine.Within

/-! More fuel. A run that comes to its end does so in the same way when loops may take more turns and host
code may call back deeper. So a code unit ends in one way only, or goes on with any fuel. -/

namespace SealedScript

namespace Run

variable {α β : Type}

/-- Wherever the first step comes to its end, the second does the same. -/
structure Approximates (step more : Run α) : Prop where
  same : ∀ {m m' : Machine}, step.Finishes m m' → more m = step m

lemma approximates_refl (step : Run α) : step.Approximates step :=
  ⟨fun _ => rfl⟩

lemma approximates_exhausted (more : Run α) : (exhausted : Run α).Approximates more := by
  refine ⟨fun {m m'} h => ?_⟩
  rcases h with ⟨a, h⟩ | ⟨e, h⟩ <;> cases h

variable {step more : Run α}

lemma Approximates.bind (hstep : step.Approximates more) {next next' : α → Run β}
    (hnext : ∀ a, (next a).Approximates (next' a)) : (step >>= next).Approximates (more >>= next') := by
  refine ⟨fun {m m'} h => ?_⟩
  rcases finishes_bind h with ⟨e, hraised⟩ | ⟨a, m₁, hok, hrest⟩
  · have hmore := (hstep.same (.raised hraised)).trans hraised
    rw [bind_of_error hraised, bind_of_error hmore]
  · have hmore := (hstep.same (.ok hok)).trans hok
    rw [bind_of_ok hok, bind_of_ok hmore]
    exact (hnext a).same hrest

lemma Approximates.attempt (h : step.Approximates more) : (attempt step).Approximates (attempt more) := by
  refine ⟨fun {m m'} hfinishes => ?_⟩
  unfold Run.attempt
  rw [h.same (finishes_attempt.mp hfinishes)]

/-- A loop that comes to its end has no use for more turns. -/
lemma repeatWhile_approximates {turn turn' : Run Bool} (h : turn.Approximates turn') {n n' : Nat}
    (hn : n ≤ n') : (repeatWhile n turn).Approximates (repeatWhile n' turn') := by
  induction n generalizing n' with
  | zero => exact approximates_exhausted _
  | succ n ih =>
    obtain ⟨k, rfl⟩ := Nat.exists_eq_add_of_lt hn
    rw [repeatWhile, repeatWhile]
    refine h.bind fun again => ?_
    cases again with
    | true => exact ih (Nat.le_add_right n k)
    | false => exact approximates_refl _

end Run

open Run

/-- The second engine does what the first one does, and may do so for longer. -/
structure Engine.Approximates (engine more : Engine) : Prop where
  native : ∀ entry args kwargs, (engine.native entry args kwargs).Approximates (more.native entry args kwargs)
  initializer : ∀ symbol bindings,
    (engine.initializer symbol bindings).Approximates (more.initializer symbol bindings)
  turns : engine.turns ≤ more.turns

variable {engine more : Engine}

section Evaluation

lemma Value.construct_approximates {methods : List (String × Value)}
    (hmethods : ∀ method ∈ methods, ∀ args kwargs,
      (method.2.call engine args kwargs).Approximates (method.2.call more args kwargs))
    (made : Value) (args : List Value) (kwargs : List (String × Value)) :
    (Value.construct engine methods made args kwargs).Approximates
      (Value.construct more methods made args kwargs) := by
  induction methods with
  | nil =>
    rw [construct, construct]
    exact approximates_refl _
  | cons method methods ih =>
    rw [List.forall_mem_cons] at hmethods
    rw [construct, construct]
    split_ifs
    · exact (hmethods.1 _ _).bind fun _ => approximates_refl _
    · exact ih hmethods.2

lemma Value.call_approximates (h : engine.Approximates more) (f : Value) (args : List Value)
    (kwargs : List (String × Value)) : (f.call engine args kwargs).Approximates (f.call more args kwargs) := by
  induction f generalizing args kwargs with
  | builtin name entry =>
    rw [call, call]
    exact h.native entry args kwargs
  | type cls ih =>
    rw [call, call]
    exact (approximates_refl _).bind fun id =>
      (construct_approximates ih _ args kwargs).bind fun _ => approximates_refl _
  | _ =>
    rw [call, call]
    · exact approximates_refl _
    all_goals simp

lemma Expr.evalItems_approximates {items : List Expr}
    (hitems : ∀ item ∈ items, (item.eval engine).Approximates (item.eval more)) :
    (Expr.evalItems engine items).Approximates (Expr.evalItems more items) := by
  induction items with
  | nil =>
    rw [evalItems, evalItems]
    exact approximates_refl _
  | cons item items ih =>
    rw [List.forall_mem_cons] at hitems
    rw [evalItems, evalItems]
    exact hitems.1.bind fun value => (ih hitems.2).bind fun values => approximates_refl _

lemma Expr.evalKwargs_approximates {kwargs : List (String × Expr)}
    (hkwargs : ∀ kwarg ∈ kwargs, (kwarg.2.eval engine).Approximates (kwarg.2.eval more)) :
    (Expr.evalKwargs engine kwargs).Approximates (Expr.evalKwargs more kwargs) := by
  induction kwargs with
  | nil =>
    rw [evalKwargs, evalKwargs]
    exact approximates_refl _
  | cons kwarg kwargs ih =>
    rw [List.forall_mem_cons] at hkwargs
    rw [evalKwargs, evalKwargs]
    exact hkwargs.1.bind fun value => (ih hkwargs.2).bind fun values => approximates_refl _

lemma Expr.eval_approximates (h : engine.Approximates more) (e : Expr) :
    (e.eval engine).Approximates (e.eval more) := by
  induction e with
  | constant c =>
    rw [eval, eval]
    exact approximates_refl _
  | name ident =>
    rw [eval, eval]
    exact approximates_refl _
  | list items ih =>
    rw [eval, eval]
    exact (evalItems_approximates ih).bind fun values => approximates_refl _
  | binary op lhs rhs ihl ihr =>
    rw [eval, eval]
    exact ihl.bind fun a => ihr.bind fun b => approximates_refl _
  | unary op operand ih =>
    rw [eval, eval]
    exact ih.bind fun a => approximates_refl _
  | call callee args kwargs ihc iha ihk =>
    rw [eval, eval]
    exact ihc.bind fun f => (evalItems_approximates iha).bind fun values =>
      (evalKwargs_approximates ihk).bind fun named => Value.call_approximates h f values named

lemma Value.textBy_approximates (h : engine.Approximates more) (method : String) (owner : Value) (cls : Class)
    {otherwise otherwise' : Run String} (hotherwise : otherwise.Approximates otherwise') :
    (Value.textBy engine method owner cls otherwise).Approximates
      (Value.textBy more method owner cls otherwise') := by
  unfold textBy
  cases Table.get? method cls.methods with
  | none => exact hotherwise
  | some callee => exact (call_approximates h callee [owner] []).bind fun result => approximates_refl _

lemma Value.reprItems_approximates {items : List Value}
    (hitems : ∀ item ∈ items, (item.repr engine).Approximates (item.repr more)) :
    (Value.reprItems engine items).Approximates (Value.reprItems more items) := by
  induction items with
  | nil =>
    rw [reprItems, reprItems]
    exact approximates_refl _
  | cons item items ih =>
    rw [List.forall_mem_cons] at hitems
    rw [reprItems, reprItems]
    exact hitems.1.bind fun text => (ih hitems.2).bind fun texts => approximates_refl _

lemma Value.repr_approximates (h : engine.Approximates more) (value : Value) :
    (value.repr engine).Approximates (value.repr more) := by
  induction value with
  | list items ih =>
    rw [repr, repr]
    exact (reprItems_approximates ih).bind fun texts => approximates_refl _
  | object id cls =>
    rw [repr, repr]
    exact textBy_approximates h _ _ cls (approximates_refl _)
  | _ =>
    rw [repr, repr]
    exact approximates_refl _

lemma Value.toStr_approximates (h : engine.Approximates more) (value : Value) :
    (value.toStr engine).Approximates (value.toStr more) := by
  cases value with
  | str s =>
    rw [toStr, toStr]
    exact approximates_refl _
  | object id cls =>
    rw [toStr, toStr]
    exact textBy_approximates h _ _ cls (repr_approximates h _)
  | _ =>
    rw [toStr, toStr]
    · exact repr_approximates h _
    all_goals simp

lemma puts_approximates (h : engine.Approximates more) (values : List Value) :
    (puts engine values).Approximates (puts more values) := by
  induction values with
  | nil =>
    rw [puts, puts]
    exact approximates_refl _
  | cons value values ih =>
    rw [puts, puts]
    exact (value.toStr_approximates h).bind fun text => (approximates_refl _).bind fun _ => ih

end Evaluation

section Execution

lemma Run.turn_approximates (h : engine.Approximates more) (condition : Expr) {body : List Stmt}
    (hbody : (Stmt.execBlock engine body).Approximates (Stmt.execBlock more body)) :
    (Run.turn engine condition body).Approximates (Run.turn more condition body) := by
  refine (condition.eval_approximates h).bind fun v => ?_
  split
  · exact hbody.bind fun _ => approximates_refl _
  · exact approximates_refl _

lemma Stmt.execBlock_approximates {block : List Stmt}
    (hblock : ∀ stmt ∈ block, (stmt.exec engine).Approximates (stmt.exec more)) :
    (Stmt.execBlock engine block).Approximates (Stmt.execBlock more block) := by
  induction block with
  | nil =>
    rw [execBlock, execBlock]
    exact approximates_refl _
  | cons stmt block ih =>
    rw [List.forall_mem_cons] at hblock
    rw [execBlock, execBlock]
    exact (approximates_refl _).bind fun _ => hblock.1.bind fun _ => ih hblock.2

lemma Stmt.exec_approximates (h : engine.Approximates more) (stmt : Stmt) :
    (stmt.exec engine).Approximates (stmt.exec more) := by
  have heval : ∀ e : Expr, (e.eval engine).Approximates (e.eval more) := fun e => e.eval_approximates h
  induction stmt with
  | assign line target value =>
    rw [exec, exec]
    exact (heval value).bind fun v => approximates_refl _
  | expression line value =>
    rw [exec, exec]
    exact (heval value).bind fun _ => approximates_refl _
  | branch line condition thenBlock elseBlock iht ihe =>
    rw [exec, exec]
    refine (heval condition).bind fun v => ?_
    split
    · exact execBlock_approximates iht
    · exact execBlock_approximates ihe
  | loop line condition body ih =>
    rw [exec, exec]
    exact repeatWhile_approximates (turn_approximates h condition (execBlock_approximates ih)) h.turns
  | pass line =>
    rw [exec, exec]
    exact approximates_refl _

lemma Code.exec_approximates (h : engine.Approximates more) (code : Code) :
    (code.exec engine).Approximates (code.exec more) := by
  have hbody : (Stmt.execBlock engine code.body).Approximates (Stmt.execBlock more code.body) :=
    Stmt.execBlock_approximates fun stmt _ => stmt.exec_approximates h
  exact (approximates_refl _).bind fun outer => (approximates_refl _).bind fun _ =>
    hbody.attempt.bind fun result => approximates_refl _

end Execution

section Hosts

lemma Initializer.run_approximates (h : engine.Approximates more) (init : Initializer) (bindings : Namespace) :
    (init.run engine bindings).Approximates (init.run more bindings) := by
  cases init with
  | traceback => exact approximates_refl _
  | foreign symbol => exact h.initializer symbol bindings

lemma importModule_approximates (h : engine.Approximates more) (name : String) :
    (importModule engine name).Approximates (importModule more name) := by
  unfold importModule
  refine (approximates_refl _).bind fun m => ?_
  cases Table.get? name m.modules.loaded with
  | some mod => exact approximates_refl _
  | none =>
    refine (approximates_refl _).bind fun m => ?_
    cases Table.get? name m.modules.initializers with
    | none => exact approximates_refl _
    | some init =>
      exact (approximates_refl _).bind fun start =>
        (init.run_approximates h start).bind fun filled => approximates_refl _

lemma Request.answer_approximates (h : engine.Approximates more) (request : Request) :
    (request.answer engine).Approximates (request.answer more) := by
  cases request with
  | call callee args kwargs => exact (callee.call_approximates h args kwargs).attempt
  | str value => exact (value.toStr_approximates h).attempt
  | repr value => exact (value.repr_approximates h).attempt
  | importModule name => exact (importModule_approximates h name).attempt
  | exec code => exact (code.exec_approximates h).attempt
  -- the others run no code
  | _ => exact approximates_refl _

lemma HostCode.run_approximates {α : Type} (h : engine.Approximates more) (code : HostCode α) :
    (code.run engine).Approximates (code.run more) := by
  induction code with
  | done result => exact approximates_refl _
  | ask request resume ih => exact (request.answer_approximates h).bind ih

lemma HostAction.run_approximates {α : Type} (h : engine.Approximates more) (action : HostAction α) :
    (action.run engine).Approximates (action.run more) :=
  (HostCode.run_approximates h (ExceptT.run action)).bind fun _ => approximates_refl _

/-- By induction on the fuel: one level down, both engines have one unit of it less. -/
lemma Host.engine_approximates (host : Host) {fuel fuel' : Nat} (h : fuel ≤ fuel') :
    (host.engine fuel).Approximates (host.engine fuel') := by
  induction fuel generalizing fuel' with
  | zero =>
    exact ⟨fun _ _ _ => approximates_exhausted _, fun _ _ => approximates_exhausted _, Nat.zero_le _⟩
  | succ fuel ih =>
    obtain ⟨fuel', rfl⟩ := Nat.exists_eq_add_one.mpr (Nat.zero_lt_of_lt h)
    have hlower := ih (Nat.le_of_succ_le_succ h)
    refine ⟨fun entry args kwargs => ?_, fun symbol bindings => ?_, h⟩
    · cases entry with
      | puts => exact puts_approximates hlower args
      | foreign symbol => exact HostAction.run_approximates hlower _
    · exact HostAction.run_approximates hlower _

end Hosts

namespace Code

/-- With enough fuel the code unit comes to this end, and to this state. -/
def Ends (host : Host) (code : Code) (m : Machine) (outcome : Except Exception Unit) (m' : Machine) : Prop :=
  ∃ enough, ∀ fuel ≥ enough, attempt (code.exec (host.engine fuel)) m = .ok outcome m'

/-- No fuel is enough. -/
def Diverges (host : Host) (code : Code) (m : Machine) : Prop :=
  ∀ fuel, ∃ m', code.exec (host.engine fuel) m = .error .exhausted m'

/-- An end reached with some fuel is the end with any more. -/
lemma ends_of_attempt {host : Host} {code : Code} {m m' : Machine} {outcome : Except Exception Unit}
    {fuel : Nat} (h : attempt (code.exec (host.engine fuel)) m = .ok outcome m') :
    code.Ends host m outcome m' := by
  refine ⟨fuel, fun fuel' hfuel => ?_⟩
  have hmore := (code.exec_approximates (host.engine_approximates hfuel)).attempt
  rw [hmore.same (.ok h), h]

lemma Ends.unique {host : Host} {code : Code} {m m₁ m₂ : Machine} {outcome₁ outcome₂ : Except Exception Unit}
    (h₁ : code.Ends host m outcome₁ m₁) (h₂ : code.Ends host m outcome₂ m₂) : outcome₁ = outcome₂ ∧ m₁ = m₂ := by
  obtain ⟨enough₁, h₁⟩ := h₁
  obtain ⟨enough₂, h₂⟩ := h₂
  have hboth := h₁ _ (Nat.le_max_left enough₁ enough₂)
  rw [h₂ _ (Nat.le_max_right enough₁ enough₂)] at hboth
  cases hboth
  exact ⟨rfl, rfl⟩

lemma ends_or_diverges (host : Host) (code : Code) (m : Machine) :
    (∃ outcome m', code.Ends host m outcome m') ∨ code.Diverges host m := by
  by_cases hdiverges : code.Diverges host m
  · exact .inr hdiverges
  · obtain ⟨fuel, hfuel⟩ := Classical.not_forall.mp hdiverges
    left
    cases hrun : code.exec (host.engine fuel) m with
    | ok result m' => exact ⟨.ok result, m', ends_of_attempt (attempt_of_ok hrun)⟩
    | error stop m' =>
      cases stop with
      | raised e => exact ⟨.error e, m', ends_of_attempt (attempt_of_raised hrun)⟩
      | exhausted => exact absurd ⟨m', hrun⟩ hfuel

end Code

end SealedScript
