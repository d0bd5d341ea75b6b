import SealedScript.Proofs.Machine.Layers

/-! Globals that are closed to writing stay as they are through whole runs, whatever code the host has and
however it calls back into the machine. -/

namespace SealedScript

open Run

/-- What was bound is bound, what was closed is closed, and what was closed has not changed. -/
structure Namespace.Preserved (before after : Namespace) : Prop where
  bound : ∀ name, (before.get? name).isSome → (after.get? name).isSome
  staysFrozen : before.frozen = true → after.frozen = true
  staysReadOnly : ∀ name ∈ before.readOnly, name ∈ after.readOnly
  frozen : before.frozen = true → ∀ name, after.get? name = before.get? name
  readOnly : ∀ name ∈ before.readOnly, after.get? name = before.get? name

namespace Namespace

lemma preserved_refl (ns : Namespace) : ns.Preserved ns :=
  ⟨fun _ h => h, fun h => h, fun _ h => h, fun _ _ => rfl, fun _ _ => rfl⟩

lemma Preserved.trans {ns₁ ns₂ ns₃ : Namespace} (h₁ : ns₁.Preserved ns₂) (h₂ : ns₂.Preserved ns₃) :
    ns₁.Preserved ns₃ where
  bound name hbound := h₂.bound name (h₁.bound name hbound)
  staysFrozen hfrozen := h₂.staysFrozen (h₁.staysFrozen hfrozen)
  staysReadOnly name hname := h₂.staysReadOnly name (h₁.staysReadOnly name hname)
  frozen hfrozen name := (h₂.frozen (h₁.staysFrozen hfrozen) name).trans (h₁.frozen hfrozen name)
  readOnly name hname :=
    (h₂.readOnly name (h₁.staysReadOnly name hname)).trans (h₁.readOnly name hname)

/-- A write that succeeds was to an open name of an open table. -/
lemma preserved_set {ns after : Namespace} {name : String} {value : Value}
    (h : ns.set name value = .ok after) : ns.Preserved after := by
  obtain ⟨hwritable, hafter⟩ := set_eq_ok_iff.mp h
  have hopen : ns.frozen ≠ true := by simp [hwritable.1]
  constructor
  · intro other hbound
    rw [get?_set h]
    split_ifs
    · rfl
    · exact hbound
  · intro hfrozen
    exact absurd hfrozen hopen
  · intro other hother
    rw [hafter]
    exact hother
  · intro hfrozen
    exact absurd hfrozen hopen
  · intro other hother
    have hne : other ≠ name := by
      rintro rfl
      exact hwritable.2 hother
    rw [get?_set h, if_neg hne]

lemma preserved_freeze (ns : Namespace) : ns.Preserved ns.freeze :=
  ⟨fun _ h => h, fun _ => rfl, fun _ h => h, fun _ _ => rfl, fun _ _ => rfl⟩

lemma preserved_protect (ns : Namespace) (name : String) : ns.Preserved (ns.protect name) where
  bound _ h := h
  staysFrozen h := h
  staysReadOnly _ hname := Std.TreeSet.mem_insert.mpr (.inr hname)
  frozen _ _ := rfl
  readOnly _ _ := rfl

end Namespace

namespace Machine

def SameGlobals (m m' : Machine) : Prop :=
  m'.globals = m.globals

instance : Std.Refl SameGlobals where
  refl _ := rfl

def GlobalsPreserved (m m' : Machine) : Prop :=
  m.globals.Preserved m'.globals

instance : IsPreorder Machine GlobalsPreserved where
  refl m := m.globals.preserved_refl
  trans _ _ _ := Namespace.Preserved.trans

lemma SameGlobals.preserved {m m' : Machine} (h : m.SameGlobals m') : m.GlobalsPreserved m' := by
  unfold GlobalsPreserved
  rw [h]
  exact m.globals.preserved_refl

lemma admits_globalsPreserved : Machine.Admits GlobalsPreserved where
  newId m := m.globals.preserved_refl
  offered channel _ m := by cases channel <;> exact m.globals.preserved_refl
  bound hset := Namespace.preserved_set hset
  frozen m := m.globals.preserved_freeze
  closed m name := m.globals.preserved_protect name
  hooked m _ := m.globals.preserved_refl
  moved m _ := m.globals.preserved_refl
  kept m _ _ := m.globals.preserved_refl

end Machine

/-- From the first state to the second something is run to its end, be it a result or an exception: a code
unit or a part of one, a program, a call, a conversion to text, an import, or any code of the host. -/
inductive Machine.Runs (engine : Engine) (m m' : Machine) : Prop
  | code (code : Code) (h : (code.exec engine).Finishes m m')
  | block (block : List Stmt) (h : (Stmt.execBlock engine block).Finishes m m')
  | stmt (stmt : Stmt) (h : (stmt.exec engine).Finishes m m')
  | expr (e : Expr) (h : (e.eval engine).Finishes m m')
  | program (program : Program) (h : (program.run engine).Finishes m m')
  | call (f : Value) (args : List Value) (kwargs : List (String × Value))
      (h : (f.call engine args kwargs).Finishes m m')
  | str (value : Value) (h : (value.toStr engine).Finishes m m')
  | repr (value : Value) (h : (value.repr engine).Finishes m m')
  | importModule (name : String) (h : (importModule engine name).Finishes m m')
  | host {α : Type} (step : Run α) (hforeign : step.Foreign SameGlobals engine) (h : step.Finishes m m')

/-- The protection of globals holds through whole runs. The code behind builtins, modules and hooks may do
what it likes to the rest of the state; the globals it changes only by asking the machine for it. -/
theorem Machine.Runs.preserves_globals {engine : Engine} (hengine : engine.Layered SameGlobals)
    {m m' : Machine} (hrun : m.Runs engine m') : m.globals.Preserved m'.globals := by
  have hkeeps : engine.Keeps GlobalsPreserved :=
    hengine.keeps SameGlobals.preserved admits_globalsPreserved.serves
  have hserves := admits_globalsPreserved.serves hkeeps
  have hproceeds : engine.Proceeds GlobalsPreserved :=
    ⟨hserves.toEvaluates, hserves.bound, fun m _ => admits_globalsPreserved.moved m _⟩
  have hstmt : ∀ stmt : Stmt, (stmt.exec engine).Within GlobalsPreserved :=
    fun stmt => stmt.exec_within hproceeds
  cases hrun with
  | code code h => exact (hserves.executed code).relates h
  | block block h => exact (Stmt.execBlock_within hproceeds fun stmt _ => hstmt stmt).relates h
  | stmt stmt h => exact (hstmt stmt).relates h
  | expr e h => exact (e.eval_within hserves.toEvaluates).relates h
  | program program h => exact (program.run_within hserves hkeeps.hook).relates h
  | call f args kwargs h => exact (f.call_within hserves.toEvaluates args kwargs).relates h
  | str value h => exact (value.toStr_within hserves.toEvaluates).relates h
  | repr value h => exact (value.repr_within hserves.toEvaluates).relates h
  | importModule name h => exact (hserves.imported name).relates h
  | host step hforeign h => exact (hforeign.within SameGlobals.preserved hserves).relates h

/-- A host whose builtins write a closed name, pass over the failure, and write another. -/
def meddler : Host :=
  { Host.none with
    native := fun _ _ _ => do
      try HostAction.assign "x" (.int 2) catch _ => pure ()
      HostAction.assign "y" (.int 3)
      return .none }

/-- Calls a builtin and then writes the closed name itself. -/
def meddling : Code :=
  ⟨"<module>", "c.rb",
    [.expression 1 (.call (.name "meddle") [] []), .assign 2 "x" (.constant (.int 5))]⟩

/-- The name `x` is bound and closed. -/
def guarded : Machine :=
  let builtin : Value := .builtin "meddle" (.foreign "meddle")
  let bindings := (Namespace.empty.bindings.insert "meddle" builtin).insert "x" (.int 1)
  { Machine.fresh .plain .plain .empty with globals := { Namespace.empty with bindings }.protect "x" }

/-- The run ends in an exception, and the closed name has its value still. -/
theorem preserves_globals_meddling :
    ∃ e m', meddling.exec (meddler.engine 2) guarded = .error (.raised e) m' ∧
      e.kind = .typeError ∧ m'.globals.get? "x" = some (.int 1) ∧ (m'.globals.get? "meddle").isSome := by
  have hends : ((meddling.exec (meddler.engine 2)).raised? guarded).map (·.1.kind) = some .typeError := by
    decide +kernel
  obtain ⟨⟨e, m'⟩, hraised, hkind⟩ := Option.map_eq_some_iff.mp hends
  have hrun := of_raised? hraised
  have hpreserved := Machine.Runs.preserves_globals (meddler.engine_layered _ 2) (.code meddling (.raised hrun))
  have hclosed : "x" ∈ guarded.globals.readOnly := by decide +kernel
  refine ⟨e, m', hrun, hkind, ?_, hpreserved.bound "meddle" (by decide +kernel)⟩
  rw [hpreserved.readOnly "x" hclosed]
  exact Std.TreeMap.getElem?_insert_self

end SealedScript
