import SealedScript.Proofs.Propagation

/-! Work within work, through code units and code of the host. Host code may ask for code units to be
executed, and these may call host code again. An exception comes out of all of them if the host code on
its way passes it on. -/

namespace SealedScript

open Run

section Place

/-- The file and the name of the code unit that is being executed. -/
def Machine.place (m : Machine) : String × String :=
  (m.position.filename, m.position.codeName)

def Code.place (code : Code) : String × String :=
  (code.filename, code.name)

def TraceEntry.place (entry : TraceEntry) : String × String :=
  (entry.filename, entry.codeName)

/-- The line may have changed, but not the place. -/
def Machine.SamePlace (m m' : Machine) : Prop :=
  m'.place = m.place

instance : IsPreorder Machine Machine.SamePlace where
  refl _ := rfl
  trans _ _ _ h₁ h₂ := Eq.trans h₂ h₁

lemma Machine.SamePosition.samePlace {m m' : Machine} (h : m.SamePosition m') : m.SamePlace m' := by
  unfold Machine.SamePlace Machine.place
  rw [h]

/-- The statements of a block move from line to line and stay in their place. -/
lemma Engine.Stationary.proceeds {engine : Engine} (h : engine.Stationary) :
    engine.Proceeds Machine.SamePlace where
  newId _ := rfl
  native entry args kwargs := ⟨fun hends => ((h entry args kwargs).relates hends).samePlace⟩
  bound _ := rfl
  lined _ _ := rfl

end Place

namespace Task

/-- The task belongs to the evaluation of a code unit. -/
def isInner : Task → Bool
  | .program _ => false
  | .print _ _ => false
  | _ => true

lemma ne_program_of_isInner {task : Task} (h : task.isInner = true) (program : Program) :
    task ≠ .program program := by
  rintro rfl
  cases h

/-- Whatever is begun in a code unit is begun in its place. -/
lemma Begins.samePlace {engine : Engine} (hengine : engine.Stationary) {task next : Task} {m s : Machine}
    (hbegins : Begins engine (task, m) (next, s)) (htask : task.isInner = true) (hnext : next.isInner = true) :
    m.SamePlace s := by
  have hproceeds := hengine.proceeds
  have heval : ∀ {e : Expr} {m v m'}, e.eval engine m = .ok v m' → m.SamePlace m' :=
    fun hrun => (Expr.eval_within hproceeds.toEvaluates _).relates (.ok hrun)
  have hitems : ∀ {es m values m'}, Expr.evalItems engine es m = .ok values m' → m.SamePlace m' :=
    fun hrun => (Expr.evalItems_within fun e _ => e.eval_within hproceeds.toEvaluates).relates (.ok hrun)
  have hkwargs : ∀ {named m values m'}, Expr.evalKwargs engine named m = .ok values m' → m.SamePlace m' :=
    fun hrun => (Expr.evalKwargs_within fun kwarg _ =>
      kwarg.2.eval_within hproceeds.toEvaluates).relates (.ok hrun)
  have hline : ∀ {line m m'}, moveToLine line m = .ok () m' → m.SamePlace m' :=
    fun hrun => (within_modify fun m => hproceeds.lined m _).relates (.ok hrun)
  cases hbegins with
  | body => cases htask
  | first hmove => exact hline hmove
  | rest hmove hstmt =>
    exact IsTrans.trans _ _ _ (hline hmove) ((Stmt.exec_within hproceeds _).relates (.ok hstmt))
  | branch hcondition => exact heval hcondition
  | turnBody hcondition _ => exact heval hcondition
  | nextTurn hturn =>
    refine (turn_within hproceeds.toEvaluates _ ?_).relates (.ok hturn)
    exact Stmt.execBlock_within hproceeds fun stmt _ => stmt.exec_within hproceeds
  | rhs hlhs => exact heval hlhs
  | args hcallee => exact heval hcallee
  | kwargs hcallee hargs => exact IsTrans.trans _ _ _ (heval hcallee) (hitems hargs)
  | call hcallee hargs hnamed =>
    exact IsTrans.trans _ _ _ (heval hcallee) (IsTrans.trans _ _ _ (hitems hargs) (hkwargs hnamed))
  | moreItems hitem => exact heval hitem
  | moreKwargs hvalue => exact heval hvalue
  | print => cases hnext
  | morePrint => cases hnext
  | _ => exact refl m

end Task

lemma Value.construct_of_get? {engine : Engine} {methods : List (String × Value)} {callee made : Value}
    {args : List Value} {kwargs : List (String × Value)}
    (h : Table.get? Class.constructor methods = some callee) :
    Value.construct engine methods made args kwargs =
      (do let _ ← callee.call engine (made :: args) kwargs : Run Unit) := by
  induction methods with
  | nil => cases h
  | cons method methods ih =>
    rw [Table.get?] at h
    rw [construct]
    by_cases hname : Class.constructor = method.1
    · rw [if_pos hname] at h
      rw [if_pos hname.symm]
      cases h
      rfl
    · rw [if_neg hname] at h
      rw [if_neg (Ne.symm hname)]
      exact ih h

lemma HostAction.run_ask {engine : Engine} {α : Type} (request : Request)
    (resume : request.Answer → HostCode (Except Exception α)) :
    HostAction.run engine (ExceptT.mk (.ask request resume)) =
      request.answer engine >>= fun answer => HostAction.run engine (ExceptT.mk (resume answer)) :=
  bind_assoc _ _ _

/-- Something that goes on within the execution of a code unit. -/
inductive Activity : Type 1 where
  | code (unit : Code)
  | task (inner : Task)
  | print (values : List Value)
  | str (value : Value)
  | repr (value : Value)
  | reprItems (values : List Value)
  | importModule (name : String)
  | host {α : Type} (action : HostCode (Except Exception α))

/-- Carries out an activity and drops its result. -/
def Activity.run (engine : Engine) : Activity → Run Unit
  | .code unit => unit.exec engine
  | .task inner => inner.run engine
  | .print values => do
    let _ ← puts engine values
  | .str value => do
    let _ ← value.toStr engine
  | .repr value => do
    let _ ← value.repr engine
  | .reprItems values => do
    let _ ← Value.reprItems engine values
  | .importModule name => do
    let _ ← SealedScript.importModule engine name
  | .host action => do
    let _ ← HostAction.run engine (ExceptT.mk action)

/-- What host code asks the machine to carry out. -/
def Request.work : Request → Option Activity
  | .call callee args kwargs => some (.task (.call callee args kwargs))
  | .str value => some (.str value)
  | .repr value => some (.repr value)
  | .importModule name => some (.importModule name)
  | .exec code => some (.code code)
  | _ => none

/-- An activity about to begin, with the levels of calls from host code that are left to it. -/
structure Moment where
  level : Nat
  activity : Activity
  machine : Machine

namespace Moment

/-- The activity ends in an exception and leaves this state behind. -/
def Raises (host : Host) (x : Moment) (e : Exception) (m' : Machine) : Prop :=
  x.activity.run (host.engine x.level) x.machine = .error (.raised e) m'

/-- While the first activity goes on, the second one begins. All that comes before it has been carried out. -/
inductive Enters (host : Host) : Moment → Moment → Prop
  | begins {level task next m s} (htask : task.isInner = true) (hnext : next.isInner = true)
      (h : Task.Begins (host.engine level) (task, m) (next, s)) :
    Enters host ⟨level, .task task, m⟩ ⟨level, .task next, s⟩
  | constructor {level args kwargs m callee} {cls : Class}
      (h : Table.get? Class.constructor cls.methods = some callee) :
    Enters host ⟨level, .task (.call (.type cls) args kwargs), m⟩
      ⟨level, .task (.call callee (.object m.nextId cls :: args) kwargs), { m with nextId := m.nextId + 1 }⟩
  | native {level name symbol args kwargs m} :
    Enters host ⟨level + 1, .task (.call (.builtin name (.foreign symbol)) args kwargs), m⟩
      ⟨level, .host (ExceptT.run (host.native symbol args kwargs)), m⟩
  | puts {level name args kwargs m} :
    Enters host ⟨level + 1, .task (.call (.builtin name .puts) args kwargs), m⟩ ⟨level, .print args, m⟩
  | printed {level value rest m} : Enters host ⟨level, .print (value :: rest), m⟩ ⟨level, .str value, m⟩
  | morePrint {level value rest m text m₁ s} (htext : value.toStr (host.engine level) m = .ok text m₁)
      (hline : printLine text m₁ = .ok () s) :
    Enters host ⟨level, .print (value :: rest), m⟩ ⟨level, .print rest, s⟩
  | strMethod {level id m callee} {cls : Class} (h : Table.get? "__str__" cls.methods = some callee) :
    Enters host ⟨level, .str (.object id cls), m⟩ ⟨level, .task (.call callee [.object id cls] []), m⟩
  | strRepr {level m} {value : Value} (h : value.toStr (host.engine level) = value.repr (host.engine level)) :
    Enters host ⟨level, .str value, m⟩ ⟨level, .repr value, m⟩
  | reprMethod {level id m callee} {cls : Class} (h : Table.get? "__repr__" cls.methods = some callee) :
    Enters host ⟨level, .repr (.object id cls), m⟩ ⟨level, .task (.call callee [.object id cls] []), m⟩
  | reprList {level items m} : Enters host ⟨level, .repr (.list items), m⟩ ⟨level, .reprItems items, m⟩
  | reprItem {level item rest m} :
    Enters host ⟨level, .reprItems (item :: rest), m⟩ ⟨level, .repr item, m⟩
  | moreItems {level item rest m text s} (h : item.repr (host.engine level) m = .ok text s) :
    Enters host ⟨level, .reprItems (item :: rest), m⟩ ⟨level, .reprItems rest, s⟩
  | initializer {level name symbol m} (hnew : Table.get? name m.modules.loaded = none)
      (hfound : Table.get? name m.modules.initializers = some (.foreign symbol)) :
    Enters host ⟨level + 1, .importModule name, m⟩
      ⟨level, .host (ExceptT.run (host.initializer symbol (.named name))), m⟩
  | answered {level request answer m s} {α : Type}
      {resume : request.Answer → HostCode (Except Exception α)}
      (h : request.answer (host.engine level) m = .ok answer s) :
    Enters host ⟨level, .host (.ask request resume), m⟩ ⟨level, .host (resume answer), s⟩
  /-- Host code gets something done for it. If that raises, the host code passes the exception on. -/
  | asked {level request work m} {α : Type} {resume : request.Answer → HostCode (Except Exception α)}
      (hwork : request.work = some work)
      (hpasses : ∀ e m₁, work.run (host.engine level) m = .error (.raised e) m₁ →
        ∃ m₂, (HostCode.ask request resume).run (host.engine level) m = .ok (.error e) m₂) :
    Enters host ⟨level, .host (.ask request resume), m⟩ ⟨level, work, m⟩

/-- The second activity begins within the first, after the code units have been entered, the innermost of
which comes first. -/
inductive Nests (host : Host) : Moment → List Code → Moment → Prop
  | here (x : Moment) : Nests host x [] x
  | step {x y codes z} (h : Enters host x y) (hrest : Nests host y codes z) : Nests host x codes z
  | inside {level code m codes z}
      (hrest : Nests host ⟨level, .task (.block code.body), m.inside code⟩ codes z) :
    Nests host ⟨level, .code code, m⟩ (codes ++ [code]) z

variable {host : Host} {x y z : Moment} {codes : List Code}

/-- Entering an activity stays in the code unit. -/
lemma Enters.samePlace (h : Enters host x y) : x.machine.SamePlace y.machine := by
  have hserves := host.engine_serves
  cases h with
  | begins htask hnext h => exact h.samePlace (host.engine_stationary _) htask hnext
  | @morePrint level _ _ _ _ _ _ htext hline =>
    have hstr := (Value.toStr_within (hserves level).toEvaluates _).relates (.ok htext)
    have hprint := (printLine_within (hserves level).offered _).relates (.ok hline)
    exact Machine.SamePosition.samePlace (IsTrans.trans _ _ _ hstr hprint)
  | moreItems h => exact ((Value.repr_within (hserves _).toEvaluates _).relates (.ok h)).samePlace
  | answered h => exact ((Request.answer_within (hserves _) _).relates (.ok h)).samePlace
  | _ => exact refl _

/-- What an activity enters raises, and the activity ends in the same exception. -/
lemma Enters.raises (h : Enters host x y) {e : Exception} {m' : Machine} (hraises : y.Raises host e m') :
    ∃ m'', x.Raises host e m'' := by
  unfold Raises at hraises ⊢
  cases h with
  | begins htask _ h => exact ⟨m', h.run_error (Task.ne_program_of_isInner htask) hraises⟩
  | @constructor _ args kwargs m _ cls h =>
    have hnew : newId m = .ok m.nextId { m with nextId := m.nextId + 1 } := rfl
    refine ⟨m', bind_of_error ?_⟩
    rw [Value.call, bind_of_ok hnew, Value.construct_of_get? h]
    exact bind_of_error hraises
  | native =>
    refine ⟨m', bind_of_error ?_⟩
    rw [Value.call]
    exact of_dropped hraises
  | puts =>
    refine ⟨m', bind_of_error ?_⟩
    rw [Value.call]
    exact of_dropped hraises
  | printed =>
    refine ⟨m', bind_of_error ?_⟩
    rw [SealedScript.puts]
    exact bind_of_error (of_dropped hraises)
  | morePrint htext hline =>
    refine ⟨m', bind_of_error ?_⟩
    rw [SealedScript.puts, bind_of_ok htext, bind_of_ok hline]
    exact of_dropped hraises
  | strMethod h =>
    refine ⟨m', bind_of_error ?_⟩
    rw [Value.toStr, Value.textBy, h]
    exact bind_of_error (of_dropped hraises)
  | strRepr h =>
    refine ⟨m', bind_of_error ?_⟩
    rw [h]
    exact of_dropped hraises
  | reprMethod h =>
    refine ⟨m', bind_of_error ?_⟩
    rw [Value.repr, Value.textBy, h]
    exact bind_of_error (of_dropped hraises)
  | reprList =>
    refine ⟨m', bind_of_error ?_⟩
    rw [Value.repr]
    exact bind_of_error (of_dropped hraises)
  | reprItem =>
    refine ⟨m', bind_of_error ?_⟩
    rw [Value.reprItems]
    exact bind_of_error (of_dropped hraises)
  | moreItems h =>
    refine ⟨m', bind_of_error ?_⟩
    rw [Value.reprItems, bind_of_ok h]
    exact bind_of_error (of_dropped hraises)
  | @initializer level name symbol m hnew hfound =>
    have hinit : (Initializer.foreign symbol).run (host.engine (level + 1)) (.named name) m =
      .error (.raised e) m' := of_dropped hraises
    refine ⟨m', bind_of_error ?_⟩
    simp only [importModule_run, hnew, hfound, hinit]
  | answered h =>
    refine ⟨m', bind_of_error ?_⟩
    rw [HostAction.run_ask, bind_of_ok h]
    exact of_dropped hraises
  | asked hwork hpasses =>
    obtain ⟨m₂, hrun⟩ := hpasses e m' hraises
    exact ⟨m₂, bind_of_error (bind_of_ok hrun)⟩

/-- Whatever goes on is in the place of the innermost code unit. -/
lemma Nests.place (h : Nests host x codes z) :
    z.machine.place = (codes.head?.map Code.place).getD x.machine.place := by
  induction h with
  | here => rfl
  | step h _ ih =>
    have hplace := h.samePlace
    rw [ih, hplace]
  | @inside level code m codes z _ ih =>
    rw [ih]
    cases codes with
    | nil => rfl
    | cons inner codes => rfl

/-- An exception comes out of all the code units, and gets an entry from each. -/
lemma Nests.raises (h : Nests host x codes z) {e : Exception} {s : Machine} (hraises : z.Raises host e s) :
    ∃ entries m', x.Raises host { e with trace := e.trace ++ entries } m' ∧
      entries.map TraceEntry.place = codes.map Code.place := by
  induction h with
  | here =>
    refine ⟨[], s, ?_, rfl⟩
    rw [List.append_nil]
    exact hraises
  | step h _ ih =>
    obtain ⟨entries, m₁, hinner, hplaces⟩ := ih hraises
    obtain ⟨m', houter⟩ := h.raises hinner
    exact ⟨entries, m', houter, hplaces⟩
  | @inside level code m codes z _ ih =>
    obtain ⟨entries, m₁, hbody, hplaces⟩ := ih hraises
    have hexec := Code.exec_of_raised hbody
    rw [Exception.push, List.append_assoc] at hexec
    refine ⟨_, _, hexec, ?_⟩
    rw [List.map_append, List.map_append, hplaces]
    rfl

end Moment

end SealedScript
