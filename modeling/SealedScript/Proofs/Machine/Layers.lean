import SealedScript.Proofs.Machine.Within

/-! Code behind builtins, modules and hooks, which has steps of its own and calls back into the machine to
any depth. What its own steps leave alone is a parameter: a result about runs assumes of that code only
what it says of runs. -/

namespace SealedScript

open Run

namespace Run

/-- Code whose own steps keep to the relation, and that changes the state otherwise only by asking the
machine for it. -/
inductive Foreign (Own : Machine → Machine → Prop) (engine : Engine) : {α : Type} → Run α → Prop
  | own {α : Type} {step : Run α} (h : step.Within Own) : Foreign Own engine step
  | asks (request : Request) : Foreign Own engine (request.answer engine)
  | bind {α β : Type} {step : Run α} {next : α → Run β} (hstep : Foreign Own engine step)
      (hnext : ∀ a, Foreign Own engine (next a)) : Foreign Own engine (step >>= next)

variable {Own R : Machine → Machine → Prop} {engine : Engine} {α : Type}

lemma foreign_pure [Std.Refl Own] (a : α) : (pure a : Run α).Foreign Own engine :=
  .own (within_pure a)

lemma foreign_ofAttempt [Std.Refl Own] (outcome : Except Exception α) :
    (ofAttempt outcome).Foreign Own engine :=
  .own (within_ofAttempt outcome)

lemma printLine_foreign [Std.Refl Own] (text : String) : (printLine text).Foreign Own engine := by
  have hwrite : (writeLine .stdout text).Foreign Own engine := .asks (.write .stdout (text ++ "\n"))
  refine hwrite.bind fun reply => ?_
  cases reply with
  | ok _ => exact foreign_pure ()
  | error reason => exact .own (within_raise _)

/-- A relation that holds over what the code asks for and over what it does itself holds over all of it. -/
lemma Foreign.within [IsPreorder Machine R] (hown : ∀ {m m' : Machine}, Own m m' → R m m')
    (hserves : engine.Serves R) {step : Run α} (hstep : step.Foreign Own engine) : step.Within R := by
  induction hstep with
  | own h => exact ⟨fun hfinishes => hown (h.relates hfinishes)⟩
  | asks request => exact request.answer_within hserves
  | bind _ _ ihstep ihnext => exact ihstep.bind ihnext

end Run

/-- The code behind builtins, modules and hooks is foreign code, which runs over another such engine when
it calls back. -/
inductive Engine.Layered (Own : Machine → Machine → Prop) : Engine → Prop
  | idle : Layered Own .idle
  | layer {lower engine : Engine} (hlower : Layered Own lower)
      (hnative : ∀ entry args kwargs, (engine.native entry args kwargs).Foreign Own lower)
      (hinitializer : ∀ symbol bindings, (engine.initializer symbol bindings).Foreign Own lower)
      (hhook : ∀ symbol e, (engine.hook symbol e).Foreign Own lower) : Layered Own engine

section Relations

variable {Own R : Machine → Machine → Prop} [IsPreorder Machine R] {engine : Engine}

/-- By induction on the layers: what calls back into the machine finds an engine there that serves. -/
lemma Engine.Layered.keeps (h : engine.Layered Own) (hown : ∀ {m m' : Machine}, Own m m' → R m m')
    (hlayer : ∀ {lower : Engine}, lower.Keeps R → lower.Serves R) : engine.Keeps R := by
  induction h with
  | idle => exact ⟨fun _ _ _ => within_exhausted, fun _ _ => within_exhausted, fun _ _ => within_exhausted⟩
  | layer _ hnative hinitializer hhook ih =>
    constructor
    · exact fun entry args kwargs => (hnative entry args kwargs).within hown (hlayer ih)
    · exact fun symbol bindings => (hinitializer symbol bindings).within hown (hlayer ih)
    · exact fun symbol e => (hhook symbol e).within hown (hlayer ih)

lemma Run.report_within (hserves : engine.Serves R) (hhook : ∀ symbol e, (engine.hook symbol e).Within R)
    (e : Exception) : (Run.report engine e).Within R := by
  refine within_get.bind fun m => ?_
  cases m.hook with
  | none => exact (write_within hserves.offered _ _).bind fun _ => within_pure ()
  | some hook =>
    cases hook with
    | traceback => exact (write_within hserves.offered _ _).bind fun _ => within_pure ()
    | foreign symbol => exact hhook symbol e

lemma Program.run_within (hserves : engine.Serves R) (hhook : ∀ symbol e, (engine.hook symbol e).Within R)
    (program : Program) : (program.run engine).Within R := by
  have hbody : (do
      assign "__name__" (.str "__main__")
      program.code.exec engine : Run Unit).Within R :=
    (assign_within hserves.bound _ _).bind fun _ => hserves.executed program.code
  refine hbody.attempt.bind fun result => ?_
  cases result with
  | ok _ => exact within_pure _
  | error e =>
    dsimp only
    split_ifs
    · exact within_pure _
    · exact (report_within hserves hhook e).bind fun _ => within_pure _

end Relations

section Hosts

variable {Own : Machine → Machine → Prop} [Std.Refl Own] {engine : Engine}

lemma HostCode.run_foreign {α : Type} (code : HostCode α) : (code.run engine).Foreign Own engine := by
  induction code with
  | done result => exact foreign_pure result
  | ask request resume ih => exact .bind (.asks request) ih

lemma HostAction.run_foreign {α : Type} (action : HostAction α) : (action.run engine).Foreign Own engine :=
  .bind (HostCode.run_foreign _) foreign_ofAttempt

/-- The line printer asks for the text of each value. -/
lemma puts_foreign (values : List Value) : (puts engine values).Foreign Own engine := by
  induction values with
  | nil => exact foreign_pure Value.none
  | cons value values ih =>
    have htext : (value.toStr engine).Foreign Own engine := by
      rw [← attempt_ofAttempt (value.toStr engine)]
      exact .bind (.asks (.str value)) foreign_ofAttempt
    rw [puts]
    exact htext.bind fun text => (printLine_foreign text).bind fun _ => ih

variable (Own)

/-- Each engine of a host runs its code over the one with less fuel, and that code does nothing to the
state by itself. -/
lemma Host.engine_layered (host : Host) (fuel : Nat) : (host.engine fuel).Layered Own := by
  induction fuel with
  | zero => exact .idle
  | succ fuel ih =>
    refine .layer ih (fun entry args kwargs => ?_) (fun symbol bindings => ?_) fun symbol e => ?_
    · cases entry with
      | puts => exact puts_foreign args
      | foreign symbol => exact HostAction.run_foreign _
    · exact HostAction.run_foreign _
    · exact HostCode.run_foreign _

variable {R : Machine → Machine → Prop} [IsPreorder Machine R]

lemma Host.engine_serves_of_layer (host : Host)
    (hlayer : ∀ {engine : Engine}, engine.Keeps R → engine.Serves R) (fuel : Nat) :
    (host.engine fuel).Serves R :=
  hlayer ((host.engine_layered Eq fuel).keeps (fun h => h ▸ Std.Refl.refl _) hlayer)

lemma Machine.Admits.host_engine (h : Machine.Admits R) (host : Host) (fuel : Nat) :
    (host.engine fuel).Serves R :=
  host.engine_serves_of_layer h.serves fuel

end Hosts

end SealedScript
