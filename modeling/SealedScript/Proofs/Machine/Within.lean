import Mathlib.Order.Defs.Unbundled
import SealedScript.Host.Engine
import SealedScript.Proofs.Machine.Safe

/-! Relations between the state in which a step begins and the one in which it ends. A preorder that
evaluation keeps to one thing at a time holds over whole evaluations, and over the host code that they run. -/

namespace SealedScript

lemma sizeOf_snd_lt_of_mem {α : Type} [SizeOf α] {entry : String × α} {entries : List (String × α)}
    (h : entry ∈ entries) : sizeOf entry.2 < sizeOf entries := by
  have hlt := List.sizeOf_lt_of_mem h
  cases entry
  simp only [Prod.mk.sizeOf_spec] at hlt ⊢
  omega

@[elab_as_elim, induction_eliminator]
theorem Value.induction {motive : Value → Prop} (none : motive .none) (bool : ∀ b, motive (.bool b))
    (int : ∀ i, motive (.int i)) (float : ∀ x, motive (.float x)) (str : ∀ s, motive (.str s))
    (list : ∀ items, (∀ item ∈ items, motive item) → motive (.list items))
    (builtin : ∀ name entry, motive (.builtin name entry))
    (type : ∀ cls : Class, (∀ method ∈ cls.methods, motive method.2) → motive (.type cls))
    (object : ∀ id, ∀ cls : Class, (∀ method ∈ cls.methods, motive method.2) → motive (.object id cls))
    (module : ∀ mod : Module, (∀ binding ∈ mod.bindings, motive binding.2) → motive (.module mod)) :
    ∀ value, motive value
  | .none => none
  | .bool b => bool b
  | .int i => int i
  | .float x => float x
  | .str s => str s
  | .list items => list items fun item _ =>
    Value.induction none bool int float str list builtin type object module item
  | .builtin name entry => builtin name entry
  | .type ⟨id, name, methods⟩ => type ⟨id, name, methods⟩ fun method hmethod =>
    have : sizeOf method.2 < sizeOf methods := sizeOf_snd_lt_of_mem hmethod
    Value.induction none bool int float str list builtin type object module method.2
  | .object id ⟨cid, name, methods⟩ => object id ⟨cid, name, methods⟩ fun method hmethod =>
    have : sizeOf method.2 < sizeOf methods := sizeOf_snd_lt_of_mem hmethod
    Value.induction none bool int float str list builtin type object module method.2
  | .module ⟨id, name, bindings⟩ => module ⟨id, name, bindings⟩ fun binding hbinding =>
    have : sizeOf binding.2 < sizeOf bindings := sizeOf_snd_lt_of_mem hbinding
    Value.induction none bool int float str list builtin type object module binding.2

namespace Run

variable {α β : Type}

/-- The step comes to its end, with a result or an exception. -/
def Finishes (step : Run α) (m m' : Machine) : Prop :=
  (∃ a, step m = .ok a m') ∨ ∃ e, step m = .error (.raised e) m'

/-- Wherever the step ends, the relation holds from its beginning. -/
structure Within (R : Machine → Machine → Prop) (step : Run α) : Prop where
  relates : ∀ {m m' : Machine}, step.Finishes m m' → R m m'

variable {R : Machine → Machine → Prop} {step : Run α}

lemma Finishes.ok {m m' : Machine} {a : α} (h : step m = .ok a m') : step.Finishes m m' :=
  .inl ⟨a, h⟩

lemma Finishes.raised {m m' : Machine} {e : Exception} (h : step m = .error (.raised e) m') :
    step.Finishes m m' :=
  .inr ⟨e, h⟩

lemma finishes_bind {next : α → Run β} {m m' : Machine} (h : (step >>= next).Finishes m m') :
    (∃ e, step m = .error (.raised e) m') ∨ ∃ a m₁, step m = .ok a m₁ ∧ (next a).Finishes m₁ m' := by
  rcases h with ⟨b, hrun⟩ | ⟨e, hrun⟩
  · obtain ⟨a, m₁, hstep, hnext⟩ := bind_ok hrun
    exact .inr ⟨a, m₁, hstep, .ok hnext⟩
  · rcases bind_error hrun with hstep | ⟨a, m₁, hstep, hnext⟩
    · exact .inl ⟨e, hstep⟩
    · exact .inr ⟨a, m₁, hstep, .raised hnext⟩

/-- An exception that is handed over is an end like any other. -/
lemma finishes_attempt {m m' : Machine} : (attempt step).Finishes m m' ↔ step.Finishes m m' := by
  unfold Finishes attempt
  cases hstep : step m with
  | ok a m₁ => simp
  | error stop m₁ => cases stop <;> simp

lemma attempt_ofAttempt (step : Run α) : (attempt step >>= ofAttempt) = step := by
  funext m
  change EStateM.bind (attempt step) ofAttempt m = step m
  unfold EStateM.bind attempt
  cases step m with
  | ok a m' => rfl
  | error stop m' => cases stop <;> rfl

lemma eq_of_finishes_pure {a : α} {m m' : Machine} (h : (pure a : Run α).Finishes m m') : m' = m := by
  rcases h with ⟨b, h⟩ | ⟨e, h⟩ <;> cases h
  rfl

lemma eq_of_finishes_raise {e : Exception} {m m' : Machine} (h : (raise e : Run α).Finishes m m') :
    m' = m := by
  rcases h with ⟨b, h⟩ | ⟨e, h⟩ <;> cases h
  rfl

lemma eq_of_finishes_ofAttempt {outcome : Except Exception α} {m m' : Machine}
    (h : (ofAttempt outcome).Finishes m m') : m' = m := by
  cases outcome with
  | ok a => exact eq_of_finishes_pure h
  | error e => exact eq_of_finishes_raise h

lemma within_of_state_eq [Std.Refl R] (h : ∀ {m m'}, step.Finishes m m' → m' = m) : Within R step := by
  refine ⟨fun {m m'} hfinishes => ?_⟩
  obtain rfl := h hfinishes
  exact Std.Refl.refl m'

lemma within_pure [Std.Refl R] (a : α) : Within R (pure a : Run α) :=
  within_of_state_eq eq_of_finishes_pure

lemma within_raise [Std.Refl R] (e : Exception) : Within R (raise e : Run α) :=
  within_of_state_eq eq_of_finishes_raise

lemma within_exhausted : Within R (exhausted : Run α) := by
  refine ⟨fun {m m'} h => ?_⟩
  rcases h with ⟨a, h⟩ | ⟨e, h⟩ <;> cases h

lemma within_ofExcept [Std.Refl R] (outcome : Except Cause α) : Within R (ofExcept outcome) := by
  cases outcome with
  | ok a => exact within_pure a
  | error cause => exact within_raise cause.exception

lemma within_ofAttempt [Std.Refl R] (outcome : Except Exception α) : Within R (ofAttempt outcome) :=
  within_of_state_eq eq_of_finishes_ofAttempt

lemma within_modify {f : Machine → Machine} (h : ∀ m, R m (f m)) : Within R (modify f : Run PUnit) := by
  refine ⟨fun {m m'} hfinishes => ?_⟩
  rcases hfinishes with ⟨a, hrun⟩ | ⟨e, hrun⟩ <;> cases hrun
  exact h m

lemma within_get [Std.Refl R] : Within R (get : Run Machine) := by
  refine ⟨fun {m m'} hfinishes => ?_⟩
  rcases hfinishes with ⟨a, hrun⟩ | ⟨e, hrun⟩ <;> cases hrun
  exact Std.Refl.refl m

lemma Within.bind [IsTrans Machine R] (hstep : Within R step) {next : α → Run β}
    (hnext : ∀ a, Within R (next a)) : Within R (step >>= next) := by
  refine ⟨fun {m m'} h => ?_⟩
  rcases finishes_bind h with ⟨e, hraised⟩ | ⟨a, m₁, hok, hrest⟩
  · exact hstep.relates (.raised hraised)
  · exact IsTrans.trans _ _ _ (hstep.relates (.ok hok)) ((hnext a).relates hrest)

lemma Within.attempt (h : Within R step) : Within R (Run.attempt step) :=
  ⟨fun hfinishes => h.relates (finishes_attempt.mp hfinishes)⟩

lemma lookup_within [IsPreorder Machine R] (name : String) : Within R (lookup name) := by
  refine within_get.bind fun m => ?_
  cases m.globals.get? name with
  | some value => exact within_pure value
  | none => exact within_raise _

lemma newId_within (h : ∀ m : Machine, R m { m with nextId := m.nextId + 1 }) : Within R newId := by
  refine ⟨fun {m m'} hfinishes => ?_⟩
  rcases hfinishes with ⟨a, hrun⟩ | ⟨e, hrun⟩ <;> cases hrun
  exact h m

lemma write_within (h : ∀ channel text, ∀ m : Machine, R m (m.offer channel text)) (channel : Channel)
    (text : String) : Within R (write channel text) := by
  refine ⟨fun {m m'} hfinishes => ?_⟩
  rcases hfinishes with ⟨a, hrun⟩ | ⟨e, hrun⟩ <;> cases hrun
  exact h channel text m

lemma printLine_within [IsPreorder Machine R]
    (h : ∀ channel text, ∀ m : Machine, R m (m.offer channel text)) (text : String) :
    Within R (printLine text) := by
  refine (write_within h .stdout (text ++ "\n")).bind fun reply => ?_
  cases reply with
  | ok _ => exact within_pure ()
  | error reason => exact within_raise _

/-- An assignment that fails changes nothing. -/
lemma assign_within [IsPreorder Machine R]
    (h : ∀ {m : Machine} {name value globals}, m.globals.set name value = .ok globals →
      R m { m with globals }) (name : String) (value : Value) : Within R (assign name value) := by
  refine ⟨fun {m m'} hfinishes => ?_⟩
  unfold Finishes at hfinishes
  cases hset : m.globals.set name value with
  | ok globals =>
    rw [assign_of_set hset] at hfinishes
    rcases hfinishes with ⟨a, hend⟩ | ⟨e, hend⟩ <;> cases hend
    exact h hset
  | error cause =>
    rw [assign_of_set_error hset] at hfinishes
    rcases hfinishes with ⟨a, hend⟩ | ⟨e, hend⟩ <;> cases hend
    exact Std.Refl.refl m

end Run

open Run

variable {R : Machine → Machine → Prop} [IsPreorder Machine R] {engine : Engine}

/-- The relation holds over what evaluation does to the state: it takes numbers for new objects and
runs the code behind builtins. -/
structure Engine.Evaluates (engine : Engine) (R : Machine → Machine → Prop) : Prop where
  newId : ∀ m : Machine, R m { m with nextId := m.nextId + 1 }
  native : ∀ entry args kwargs, (engine.native entry args kwargs).Within R

section Evaluation

lemma Value.construct_within {methods : List (String × Value)}
    (hmethods : ∀ method ∈ methods, ∀ args kwargs, (method.2.call engine args kwargs).Within R)
    (made : Value) (args : List Value) (kwargs : List (String × Value)) :
    (Value.construct engine methods made args kwargs).Within R := by
  induction methods with
  | nil =>
    rw [construct]
    split_ifs
    · exact within_pure ()
    · exact within_raise _
  | cons method methods ih =>
    rw [List.forall_mem_cons] at hmethods
    rw [construct]
    split_ifs
    · exact (hmethods.1 _ _).bind fun _ => within_pure ()
    · exact ih hmethods.2

lemma Value.call_within (h : engine.Evaluates R) (f : Value) (args : List Value) (kwargs : List (String × Value)) :
    (f.call engine args kwargs).Within R := by
  induction f generalizing args kwargs with
  | builtin name entry =>
    rw [call]
    exact h.native entry args kwargs
  | type cls ih =>
    rw [call]
    exact (newId_within h.newId).bind fun id =>
      (construct_within ih _ args kwargs).bind fun _ => within_pure _
  | _ =>
    rw [call]
    · exact within_raise _
    · simp
    · simp

lemma Expr.evalItems_within {items : List Expr} (hitems : ∀ item ∈ items, (item.eval engine).Within R) :
    (Expr.evalItems engine items).Within R := by
  induction items with
  | nil =>
    rw [evalItems]
    exact within_pure []
  | cons item items ih =>
    rw [List.forall_mem_cons] at hitems
    rw [evalItems]
    exact hitems.1.bind fun value => (ih hitems.2).bind fun values => within_pure _

lemma Expr.evalKwargs_within {kwargs : List (String × Expr)}
    (hkwargs : ∀ kwarg ∈ kwargs, (kwarg.2.eval engine).Within R) :
    (Expr.evalKwargs engine kwargs).Within R := by
  induction kwargs with
  | nil =>
    rw [evalKwargs]
    exact within_pure []
  | cons kwarg kwargs ih =>
    rw [List.forall_mem_cons] at hkwargs
    rw [evalKwargs]
    exact hkwargs.1.bind fun value => (ih hkwargs.2).bind fun values => within_pure _

lemma Expr.eval_within (h : engine.Evaluates R) (e : Expr) : (e.eval engine).Within R := by
  induction e with
  | constant c =>
    rw [eval]
    exact within_pure _
  | name ident =>
    rw [eval]
    exact lookup_within ident
  | list items ih =>
    rw [eval]
    exact (evalItems_within ih).bind fun values => within_pure _
  | binary op lhs rhs ihl ihr =>
    rw [eval]
    exact ihl.bind fun a => ihr.bind fun b => within_ofExcept _
  | unary op operand ih =>
    rw [eval]
    exact ih.bind fun a => within_ofExcept _
  | call callee args kwargs ihc iha ihk =>
    rw [eval]
    exact ihc.bind fun f => (evalItems_within iha).bind fun values =>
      (evalKwargs_within ihk).bind fun named => Value.call_within h f values named

lemma Value.textBy_within (h : engine.Evaluates R) (method : String) (owner : Value) (cls : Class) {otherwise : Run String}
    (hotherwise : otherwise.Within R) : (Value.textBy engine method owner cls otherwise).Within R := by
  unfold textBy
  cases Table.get? method cls.methods with
  | none => exact hotherwise
  | some callee =>
    refine (call_within h callee [owner] []).bind fun result => ?_
    cases result with
    | str s => exact within_pure s
    | _ => exact within_raise _

lemma Value.reprItems_within {items : List Value} (hitems : ∀ item ∈ items, (item.repr engine).Within R) :
    (Value.reprItems engine items).Within R := by
  induction items with
  | nil =>
    rw [reprItems]
    exact within_pure []
  | cons item items ih =>
    rw [List.forall_mem_cons] at hitems
    rw [reprItems]
    exact hitems.1.bind fun text => (ih hitems.2).bind fun texts => within_pure _

lemma Value.repr_within (h : engine.Evaluates R) (value : Value) : (value.repr engine).Within R := by
  induction value with
  | list items ih =>
    rw [repr]
    exact (reprItems_within ih).bind fun texts => within_pure _
  | object id cls =>
    rw [repr]
    exact textBy_within h _ _ cls (within_pure _)
  | _ =>
    rw [repr]
    exact within_pure _

lemma Value.toStr_within (h : engine.Evaluates R) (value : Value) : (value.toStr engine).Within R := by
  cases value with
  | str s =>
    rw [toStr]
    exact within_pure s
  | object id cls =>
    rw [toStr]
    exact textBy_within h _ _ cls (repr_within h _)
  | _ =>
    rw [toStr]
    · exact repr_within h _
    · simp
    · simp

end Evaluation

section Execution

/-- The relation holds over what statements do, too: they bind globals and move from line to line. -/
structure Engine.Proceeds (engine : Engine) (R : Machine → Machine → Prop) : Prop
    extends engine.Evaluates R where
  bound : ∀ {m : Machine} {name value globals}, m.globals.set name value = .ok globals →
    R m { m with globals }
  lined : ∀ (m : Machine) (line : UInt32), R m { m with position := { m.position with line } }

/-- The relation holds over what code units do: they move to another place and back. -/
structure Engine.Executes (engine : Engine) (R : Machine → Machine → Prop) : Prop
    extends engine.Proceeds R where
  moved : ∀ (m : Machine) (position : Position), R m { m with position }
  lined := fun m line => moved m { m.position with line }

lemma Run.repeatWhile_within {turn : Run Bool} (h : turn.Within R) (n : Nat) :
    (Run.repeatWhile n turn).Within R := by
  induction n with
  | zero => exact within_exhausted
  | succ n ih =>
    rw [repeatWhile]
    refine h.bind fun again => ?_
    cases again with
    | true => exact ih
    | false => exact within_pure ()

lemma Run.turn_within (h : engine.Evaluates R) (condition : Expr) {body : List Stmt}
    (hbody : (Stmt.execBlock engine body).Within R) : (Run.turn engine condition body).Within R := by
  refine (condition.eval_within h).bind fun v => ?_
  split
  · exact hbody.bind fun _ => within_pure true
  · exact within_pure false

lemma Stmt.execBlock_within (h : engine.Proceeds R) {block : List Stmt}
    (hblock : ∀ stmt ∈ block, (stmt.exec engine).Within R) : (Stmt.execBlock engine block).Within R := by
  induction block with
  | nil =>
    rw [execBlock]
    exact within_pure ()
  | cons stmt block ih =>
    rw [List.forall_mem_cons] at hblock
    rw [execBlock]
    exact (within_modify fun m => h.lined m _).bind fun _ => hblock.1.bind fun _ => ih hblock.2

lemma Stmt.exec_within (h : engine.Proceeds R) (stmt : Stmt) : (stmt.exec engine).Within R := by
  have heval : ∀ e : Expr, (e.eval engine).Within R := fun e => e.eval_within h.toEvaluates
  induction stmt with
  | assign line target value =>
    rw [exec]
    exact (heval value).bind fun v => assign_within h.bound target v
  | expression line value =>
    rw [exec]
    exact (heval value).bind fun _ => within_pure ()
  | branch line condition thenBlock elseBlock iht ihe =>
    rw [exec]
    refine (heval condition).bind fun v => ?_
    split
    · exact execBlock_within h iht
    · exact execBlock_within h ihe
  | loop line condition body ih =>
    rw [exec]
    exact repeatWhile_within (turn_within h.toEvaluates condition (execBlock_within h ih)) _
  | pass line =>
    rw [exec]
    exact within_pure ()

lemma Code.exec_within (h : engine.Executes R) (code : Code) : (code.exec engine).Within R := by
  have hmove : ∀ position, (moveTo position).Within R :=
    fun position => within_modify fun m => h.moved m position
  have hposition : Run.position.Within R := within_get.bind fun m => within_pure _
  have hbody := Stmt.execBlock_within h.toProceeds fun stmt (_ : stmt ∈ code.body) =>
    stmt.exec_within h.toProceeds
  refine hposition.bind fun outer => (hmove _).bind fun _ => hbody.attempt.bind fun result =>
    hposition.bind fun reached => (hmove outer).bind fun _ => ?_
  cases result with
  | ok _ => exact within_pure ()
  | error e => exact within_raise _

end Execution

section Requests

/-- The relation holds over whatever host code may ask for. -/
structure Engine.Serves (engine : Engine) (R : Machine → Machine → Prop) : Prop
    extends engine.Evaluates R where
  offered : ∀ (channel : Channel) (text : String) (m : Machine), R m (m.offer channel text)
  bound : ∀ {m : Machine} {name value globals}, m.globals.set name value = .ok globals →
    R m { m with globals }
  frozen : ∀ m : Machine, R m { m with globals := m.globals.freeze }
  closed : ∀ (m : Machine) (name : String), R m { m with globals := m.globals.protect name }
  hooked : ∀ (m : Machine) (hook : Option Hook), R m { m with hook }
  executed : ∀ code : Code, (code.exec engine).Within R
  imported : ∀ name : String, (importModule engine name).Within R

lemma Request.answer_within (h : engine.Serves R) (request : Request) :
    (request.answer engine).Within R := by
  cases request with
  | globals => exact within_get.bind fun m => within_pure m.globals
  | assign name value => exact (assign_within h.bound name value).attempt
  | freeze => exact within_modify h.frozen
  | protect name => exact within_modify fun m => h.closed m name
  | position => exact within_get.bind fun m => within_pure m.position
  | write channel text => exact write_within h.offered channel text
  | newClass name methods => exact (newId_within h.newId).bind fun id => within_pure _
  | call callee args kwargs => exact (callee.call_within h.toEvaluates args kwargs).attempt
  | str value => exact (value.toStr_within h.toEvaluates).attempt
  | repr value => exact (value.repr_within h.toEvaluates).attempt
  | importModule name => exact (h.imported name).attempt
  | exec code => exact (h.executed code).attempt
  | setHook hook => exact within_modify fun m => h.hooked m hook

end Requests

section Imports

/-- The module is kept under its name. -/
def Machine.keep (m : Machine) (name : String) (mod : Module) : Machine :=
  { m with modules := { m.modules with loaded := Table.insert name mod m.modules.loaded } }

/-- The namespace in which a module's initializer begins. -/
def Namespace.named (name : String) : Namespace :=
  { Namespace.empty with bindings := Namespace.empty.bindings.insert "__name__" (.str name) }

/-- What an import does, by what the state knows of the name. -/
lemma importModule_run (engine : Engine) (name : String) (m : Machine) :
    importModule engine name m =
      match Table.get? name m.modules.loaded, Table.get? name m.modules.initializers with
      | some mod, _ => .ok mod m
      | none, none => .error (.raised (Cause.unknownModule name).exception) m
      | none, some init =>
        match init.run engine (.named name) m with
        | .ok filled m' =>
          .ok ⟨m'.nextId, name, filled.toList⟩
            ({ m' with nextId := m'.nextId + 1 }.keep name ⟨m'.nextId, name, filled.toList⟩)
        | .error stop m' => .error stop m' := by
  -- the tables are consulted in the state of the beginning
  have hget : (get : Run Machine) m = .ok m m := rfl
  rw [importModule, bind_of_ok hget]
  cases Table.get? name m.modules.loaded with
  | some mod => rfl
  | none =>
    dsimp only
    rw [bind_of_ok hget]
    cases Table.get? name m.modules.initializers with
    | none => rfl
    | some init =>
      have hstart : ofExcept (Namespace.empty.set "__name__" (.str name)) m = .ok (.named name) m := rfl
      dsimp only
      rw [bind_of_ok hstart]
      cases hinit : init.run engine (.named name) m with
      | ok filled m' =>
        rw [bind_of_ok hinit]
        rfl
      | error stop m' => exact bind_of_error hinit

/-- An import that ends has found the module, or the name unknown, or has run the initializer; and it
keeps the module if that has succeeded. -/
lemma importModule_finishes {name : String} {m m' : Machine}
    (h : (importModule engine name).Finishes m m') :
    m' = m ∨ ∃ init, Table.get? name m.modules.loaded = none ∧
      Table.get? name m.modules.initializers = some init ∧
      ((∃ e, init.run engine (.named name) m = .error (.raised e) m') ∨
        ∃ filled m₁ mod, init.run engine (.named name) m = .ok filled m₁ ∧
          m' = { m₁ with nextId := m₁.nextId + 1 }.keep name mod ∧
          importModule engine name m = .ok mod m') := by
  unfold Finishes at h
  cases hloaded : Table.get? name m.modules.loaded with
  | some mod =>
    left
    rw [importModule_run, hloaded] at h
    rcases h with ⟨a, h⟩ | ⟨e, h⟩ <;> cases h
    rfl
  | none =>
    cases hinit : Table.get? name m.modules.initializers with
    | none =>
      left
      rw [importModule_run, hloaded, hinit] at h
      rcases h with ⟨a, h⟩ | ⟨e, h⟩ <;> cases h
      rfl
    | some init =>
      have hrun := importModule_run engine name m
      rw [hloaded, hinit] at hrun
      refine .inr ⟨init, rfl, rfl, ?_⟩
      cases hfill : init.run engine (.named name) m with
      | ok filled m₁ =>
        simp only [hfill] at hrun
        rw [hrun] at h
        rcases h with ⟨a, h⟩ | ⟨e, h⟩ <;> cases h
        exact .inr ⟨filled, m₁, _, rfl, rfl, hrun⟩
      | error stop m₁ =>
        simp only [hfill] at hrun
        rw [hrun] at h
        rcases h with ⟨a, h⟩ | ⟨e, h⟩ <;> cases h
        exact .inl ⟨e, rfl⟩

lemma Initializer.run_within (hset : ∀ (m : Machine) (hook : Option Hook), R m { m with hook })
    (h : ∀ symbol bindings, (engine.initializer symbol bindings).Within R) (init : Initializer)
    (bindings : Namespace) : (init.run engine bindings).Within R := by
  cases init with
  | traceback =>
    rw [Initializer.run]
    exact (within_modify fun m => hset m _).bind fun _ => within_ofExcept _
  | foreign symbol =>
    rw [Initializer.run]
    exact h symbol bindings

/-- The module that an import keeps has taken a number of its own. -/
lemma importModule_within (hhook : ∀ (m : Machine) (hook : Option Hook), R m { m with hook })
    (hkept : ∀ (m : Machine) (name : String) (mod : Module),
      R m ({ m with nextId := m.nextId + 1 }.keep name mod))
    (h : ∀ symbol bindings, (engine.initializer symbol bindings).Within R) (name : String) :
    (importModule engine name).Within R := by
  refine ⟨fun {m m'} hfinishes => ?_⟩
  have hfill : ∀ init : Initializer, (init.run engine (.named name)).Within R :=
    fun init => init.run_within hhook h _
  rcases importModule_finishes hfinishes with
    rfl | ⟨init, -, -, ⟨e, hraised⟩ | ⟨filled, m₁, mod, hok, rfl, -⟩⟩
  · exact Std.Refl.refl _
  · exact (hfill init).relates (.raised hraised)
  · have hfilled : R m m₁ := (hfill init).relates (.ok hok)
    exact IsTrans.trans _ _ _ hfilled (hkept m₁ name mod)

end Imports

section Changes

/-- The relation holds over every single change that a run makes to the state. -/
structure Machine.Admits (R : Machine → Machine → Prop) : Prop where
  newId : ∀ m : Machine, R m { m with nextId := m.nextId + 1 }
  offered : ∀ (channel : Channel) (text : String) (m : Machine), R m (m.offer channel text)
  bound : ∀ {m : Machine} {name value globals}, m.globals.set name value = .ok globals →
    R m { m with globals }
  frozen : ∀ m : Machine, R m { m with globals := m.globals.freeze }
  closed : ∀ (m : Machine) (name : String), R m { m with globals := m.globals.protect name }
  hooked : ∀ (m : Machine) (hook : Option Hook), R m { m with hook }
  moved : ∀ (m : Machine) (position : Position), R m { m with position }
  kept : ∀ (m : Machine) (name : String) (mod : Module), R m (m.keep name mod)

/-- The code behind builtins, modules and hooks keeps to the relation. -/
structure Engine.Keeps (engine : Engine) (R : Machine → Machine → Prop) : Prop where
  native : ∀ entry args kwargs, (engine.native entry args kwargs).Within R
  initializer : ∀ symbol bindings, (engine.initializer symbol bindings).Within R
  hook : ∀ symbol e, (engine.hook symbol e).Within R

variable {R : Machine → Machine → Prop} [IsPreorder Machine R]

lemma Machine.Admits.serves (h : Machine.Admits R) {engine : Engine} (hkeeps : engine.Keeps R) :
    engine.Serves R where
  newId := h.newId
  native := hkeeps.native
  offered := h.offered
  bound := h.bound
  frozen := h.frozen
  closed := h.closed
  hooked := h.hooked
  executed code := code.exec_within ⟨⟨⟨h.newId, hkeeps.native⟩, h.bound, fun m _ => h.moved m _⟩, h.moved⟩
  imported := importModule_within h.hooked
    (fun m name mod => IsTrans.trans _ _ _ (h.newId m) (h.kept _ name mod)) hkeeps.initializer

end Changes

end SealedScript
