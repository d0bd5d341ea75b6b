import SealedScript.Host.Engine
import SealedScript.Launch
import SealedScript.Proofs.Machine.Visits
import SealedScript.Proofs.Machine.Within
import SealedScript.Proofs.RoundTrip

/-! Runs with the standard globals and modules form a closed world: no class, object or module comes up
among the values of the program, whatever code the host has. -/

namespace SealedScript

open Run

/-- Every engine of a host has the line printer, or no fuel to run it. -/
lemma Host.engine_prints (host : Host) (fuel : Nat) : (host.engine fuel).Prints := by
  intro args kwargs hargs
  cases fuel with
  | zero => exact safe_exhausted
  | succ fuel => exact puts_safe (host.engine fuel) hargs

section Startup

variable (stdout stderr : Device)

lemma Machine.fresh_closed (modules : Registry) :
    (Machine.fresh stdout stderr modules).Closed := by
  constructor
  · intro name value hfound
    cases (Namespace.get?_empty name).symm.trans hfound
  · intro name
    exact ⟨rfl, by simp [Machine.fresh, Namespace.empty]⟩
  · intro symbol hhook
    cases hhook

lemma Bootstrap.bindAll_run {entries : List (String × Value)} (h : ∀ entry ∈ entries, entry.2.Plain)
    {m : Machine} (hm : m.Closed) : ∃ m', bindAll entries m = .ok () m' ∧ m'.Closed := by
  induction entries generalizing m with
  | nil => exact ⟨m, rfl, hm⟩
  | cons entry entries ih =>
    rw [List.forall_mem_cons] at h
    obtain ⟨globals, -, hassign⟩ := assign_run hm entry.1 entry.2
    obtain ⟨m', hrest, hm'⟩ := ih h.2 ((assign_safe entry.1 h.1).ok hm hassign).1
    refine ⟨m', ?_, hm'⟩
    rw [bindAll, bind_of_ok hassign, hrest]

lemma Bootstrap.standardNames_plain : ∀ entry ∈ standardNames, entry.2.Plain := by
  intro entry hentry
  simp only [standardNames, List.mem_cons, List.not_mem_nil, or_false] at hentry
  rcases hentry with rfl | rfl | rfl
  · exact .bool true
  · exact .bool false
  · exact .printer

/-- Of the standard modules only the one that prints traces can be imported; it changes the hook and
no global. -/
lemma importModule_standard (engine : Engine) (name : String) :
    (∃ mod m', importModule engine name (.fresh stdout stderr .standard) = .ok mod m' ∧ m'.Closed) ∨
      ∃ e, importModule engine name (.fresh stdout stderr .standard) =
        .error (.raised e) (.fresh stdout stderr .standard) := by
  have hnew : Table.get? name (Machine.fresh stdout stderr .standard).modules.loaded = none := rfl
  have hknown : Table.get? name (Machine.fresh stdout stderr .standard).modules.initializers =
      if name = Registry.tracebackName then some .traceback else none := rfl
  rw [importModule_run, hnew, hknown]
  split_ifs with hname
  · left
    have hfresh := Machine.fresh_closed stdout stderr .standard
    exact ⟨_, _, rfl, hfresh.plain, hfresh.writable, fun _ hhook => nomatch hhook⟩
  · exact .inr ⟨_, rfl⟩

/-- Startup binds the standard globals, or fails before anything has changed. -/
lemma startup_standard (engine : Engine) (settings : Settings) :
    (∃ m', startup engine settings Bootstrap.standard (.fresh stdout stderr .standard) = .ok () m' ∧
        m'.Closed) ∨
      ∃ e, startup engine settings Bootstrap.standard (.fresh stdout stderr .standard) =
        .error (.raised e) (.fresh stdout stderr .standard) := by
  unfold startup
  rcases importModule_standard stdout stderr engine settings.diagnosticsModule with
    ⟨mod, m, himport, hm⟩ | ⟨e, himport⟩
  · obtain ⟨m', hbind, hm'⟩ := Bootstrap.bindAll_run Bootstrap.standardNames_plain hm
    exact .inl ⟨m', (bind_of_ok himport).trans hbind, hm'⟩
  · exact .inr ⟨e, bind_of_error himport⟩

end Startup

section Ending

/-- An exception can be reported unless host code is in charge of that. -/
lemma Run.report_run (engine : Engine) (e : Exception) {m : Machine} (hm : m.Closed) :
    ∃ m', Run.report engine e m = .ok () m' := by
  have hget : (get : Run Machine) m = .ok m m := rfl
  unfold Run.report
  rw [bind_of_ok hget]
  cases hhook : m.hook with
  | none => exact ⟨_, rfl⟩
  | some hook =>
    cases hook with
    | traceback => exact ⟨_, rfl⟩
    | foreign symbol => exact absurd hhook (hm.hook symbol)

variable {engine : Engine} {program : Program} {m m' : Machine}

lemma Program.run_of_ok (hrun : (Task.program program).run engine m = .ok () m') :
    program.run engine m = .ok 0 m' :=
  bind_of_ok (attempt_of_ok hrun)

/-- An ordinary exception is reported, and the status is one. -/
lemma Program.run_of_raised {e : Exception}
    (hrun : (Task.program program).run engine m = .error (.raised e) m') (hm' : m'.Closed)
    (hordinary : e.Ordinary m') : ∃ m'', program.run engine m = .ok 1 m'' := by
  have hkind : e.kind ≠ .systemExit := by
    intro hkind
    rw [Exception.Ordinary, hkind] at hordinary
    simp [ExceptionKind.evaluation] at hordinary
  obtain ⟨m'', hreport⟩ := report_run engine e hm'
  refine ⟨m'', (bind_of_ok (attempt_of_raised hrun)).trans ?_⟩
  dsimp only
  rw [if_neg hkind, bind_of_ok hreport]
  rfl

lemma Program.run_of_exhausted
    (hrun : (Task.program program).run engine m = .error .exhausted m') :
    program.run engine m = .error .exhausted m' :=
  bind_of_error (attempt_of_exhausted hrun)

end Ending

/-- A run with the standard globals and modules: any host, settings, program text and devices, and any words
of the parser for a text that is refused. The fuel bounds the turns of a loop, so a run that terminates does
so with some fuel. -/
structure StandardRun where
  host : Host
  fuel : Nat
  settings : Settings
  text : String
  words : Json.Fault → String
  stdout : Device
  stderr : Device

namespace StandardRun

variable (run : StandardRun)

def engine : Engine :=
  run.host.engine run.fuel

def start : Machine :=
  .fresh run.stdout run.stderr .standard

def load (settings : Settings) : Except (LoadError String) Program :=
  (Program.load run.text settings.verify).mapError (.map run.words)

def outcome : EStateM.Result Stop Machine LaunchResult :=
  launch run.engine run.settings Bootstrap.standard run.load run.start

/-- Startup has succeeded, in the given state. -/
def Started (m : Machine) : Prop :=
  startup run.engine run.settings Bootstrap.standard run.start = .ok () m

/-- While the program runs, the task begins in the given state. -/
def Visits (task : Task) (m : Machine) : Prop :=
  ∃ program m₁, run.Started m₁ ∧ run.load run.settings = .ok program ∧
    Relation.ReflTransGen (Task.Begins run.engine) (.program program, m₁) (task, m)

/-- The ways in which a run ends. -/
inductive Ends : EStateM.Result Stop Machine LaunchResult → Prop
  | unstarted {e m'} (hstart : ∀ m, ¬ run.Started m) : Ends (.ok (.startupFailed e) m')
  | unloaded {m e m'} (hstart : run.Started m) (hload : run.load run.settings = .error e) :
    Ends (.ok (.loadFailed e) m')
  | completed {m program m'} (hstart : run.Started m) (hload : run.load run.settings = .ok program)
      (hrun : (Task.program program).run run.engine m = .ok () m') : Ends (.ok (.finished 0) m')
  | raised {m program e m₁ m'} (hstart : run.Started m)
      (hload : run.load run.settings = .ok program)
      (hrun : (Task.program program).run run.engine m = .error (.raised e) m₁) :
    Ends (.ok (.finished 1) m')
  | exhausted {m'} : Ends (.error .exhausted m')

variable {run}

lemma Started.closed {m : Machine} (h : run.Started m) : m.Closed := by
  unfold Started start at h
  rcases startup_standard run.stdout run.stderr run.engine run.settings with
    ⟨m', hstart, hm'⟩ | ⟨e, hstart⟩
  · rw [hstart] at h
    cases h
    exact hm'
  · rw [hstart] at h
    cases h

lemma Started.unique {m m' : Machine} (h : run.Started m) (h' : run.Started m') : m = m' := by
  cases h.symm.trans h'
  rfl

lemma Visits.closed {task : Task} {m : Machine} (h : run.Visits task m) : task.Plain ∧ m.Closed := by
  obtain ⟨program, m₁, hstart, -, hreached⟩ := h
  have hplain : (Task.program program).Plain := trivial
  exact Task.closed_of_begins (run.host.engine_prints run.fuel) hplain hstart.closed hreached

/-- The exception that ends a program is an ordinary one. -/
lemma Started.ordinary {m m' : Machine} (h : run.Started m) {program : Program} {e : Exception}
    (hrun : (Task.program program).run run.engine m = .error (.raised e) m') :
    m'.Closed ∧ e.Ordinary m' := by
  have hplain : (Task.program program).Plain := trivial
  obtain ⟨hm', hordinary⟩ :=
    (Task.run_safe (run.host.engine_prints run.fuel) hplain).error h.closed hrun
  exact ⟨hm', hordinary e rfl⟩

lemma outcome_ends (run : StandardRun) : run.Ends run.outcome := by
  unfold outcome launch
  rcases startup_standard run.stdout run.stderr run.engine run.settings with
    ⟨m, hstart, hm⟩ | ⟨e, hstart⟩
  · have hattempt : attempt (startup run.engine run.settings Bootstrap.standard) run.start =
        .ok (.ok ()) m := by
      rw [attempt, start, hstart]
    rw [bind_of_ok hattempt]
    cases hload : run.load run.settings with
    | error e => exact .unloaded hstart hload
    | ok program =>
      dsimp only
      cases hrun : (Task.program program).run run.engine m with
      | ok a m' =>
        rw [bind_of_ok (Program.run_of_ok hrun)]
        exact .completed hstart hload hrun
      | error stop m' =>
        cases stop with
        | raised e =>
          obtain ⟨hm', hordinary⟩ := Started.ordinary hstart hrun
          obtain ⟨m'', hstatus⟩ := Program.run_of_raised hrun hm' hordinary
          rw [bind_of_ok hstatus]
          exact .raised hstart hload hrun
        | exhausted =>
          rw [bind_of_error (Program.run_of_exhausted hrun)]
          exact .exhausted
  · have hattempt : attempt (startup run.engine run.settings Bootstrap.standard) run.start =
        .ok (.error e) run.start := by
      rw [attempt, start, hstart]
    obtain ⟨m', hreport⟩ := report_run run.engine e
      (Machine.fresh_closed run.stdout run.stderr .standard)
    rw [bind_of_ok hattempt]
    dsimp only
    rw [start, bind_of_ok hreport]
    refine .unstarted fun m hstarted => ?_
    cases hstarted.symm.trans hstart

/-- Startup succeeded and the program was loaded and ran to its end. -/
def Completes (run : StandardRun) : Prop :=
  ∃ m program m', run.Started m ∧ run.load run.settings = .ok program ∧
    (Task.program program).run run.engine m = .ok () m'

/-- Startup succeeded, but the program could not be loaded. -/
def FailsToLoad (run : StandardRun) : Prop :=
  (∃ m, run.Started m) ∧ ∃ e, run.load run.settings = .error e

/-- The status tells how far the run got. -/
lemma Ends.status {result : LaunchResult} {m' : Machine} (h : run.Ends (.ok result m')) :
    (result.status = 0 ∨ result.status = 1 ∨ result.status = 2) ∧
      (result.status = 2 ↔ run.FailsToLoad) ∧ (result.status = 0 ↔ run.Completes) := by
  have hload : ∀ {e program}, run.load run.settings = .error e → run.load run.settings ≠ .ok program :=
    fun herror hok => nomatch herror.symm.trans hok
  cases h with
  | unstarted hstart =>
    refine ⟨.inr (.inl rfl), iff_of_false (by simp [LaunchResult.status]) ?_,
      iff_of_false (by simp [LaunchResult.status]) ?_⟩
    · rintro ⟨⟨m, hm⟩, -⟩
      exact hstart m hm
    · rintro ⟨m, program, m', hm, -⟩
      exact hstart m hm
  | unloaded hstart herror =>
    refine ⟨.inr (.inr rfl), iff_of_true rfl ⟨⟨_, hstart⟩, _, herror⟩,
      iff_of_false (by simp [LaunchResult.status]) ?_⟩
    rintro ⟨m, program, m', -, hok, -⟩
    exact hload herror hok
  | completed hstart hok hrun =>
    refine ⟨.inl rfl, iff_of_false (by decide) ?_, iff_of_true rfl ⟨_, _, _, hstart, hok, hrun⟩⟩
    rintro ⟨-, e, herror⟩
    exact hload herror hok
  | raised hstart hok hrun =>
    refine ⟨.inr (.inl rfl), iff_of_false (by simp [LaunchResult.status]) ?_,
      iff_of_false (by simp [LaunchResult.status]) ?_⟩
    · rintro ⟨-, e, herror⟩
      exact hload herror hok
    · rintro ⟨m₂, program₂, m', hstart₂, hok₂, hrun₂⟩
      obtain rfl := hstart.unique hstart₂
      obtain rfl := Except.ok.inj (hok.symm.trans hok₂)
      cases hrun.symm.trans hrun₂

/-- A run keeps to a closed world. Wherever a task begins or ends, all globals are plain; every value of
an expression is plain and has a text, which is found without a change to the state; no text is missing
when a line is printed; no assignment fails; the exception that ends the program is an ordinary one; and
the status is 2 exactly when loading fails after startup, 0 exactly when the program is completed, and 1
otherwise. -/
theorem closed_world (run : StandardRun) :
    (∀ task m, run.Visits task m →
      (∀ name value, m.globals.get? name = some value → value.Plain) ∧
        ∀ m', (task.run run.engine).EndsIn m m' →
          ∀ name value, m'.globals.get? name = some value → value.Plain) ∧
      (∀ e m v m', run.Visits (.expr e) m → e.eval run.engine m = .ok v m' →
        v.Plain ∧ (∃ text, v.toStr run.engine m' = .ok text m') ∧
          ∃ text, v.repr run.engine m' = .ok text m') ∧
      (∀ printer v rest m, run.Visits (.print printer (v :: rest)) m →
        ∃ text, v.toStr printer m = .ok text m) ∧
      (∀ line target e m v m', run.Visits (.stmt (.assign line target e)) m →
        e.eval run.engine m = .ok v m' → ∃ m'', assign target v m' = .ok () m'') ∧
      (∀ program m, run.Visits (.program program) m →
        (∃ m', assign "__name__" (.str "__main__") m = .ok () m') ∧
          ∀ e m', (Task.program program).run run.engine m = .error (.raised e) m' → e.Ordinary m') ∧
      (∀ result m', run.outcome = .ok result m' →
        (result.status = 0 ∨ result.status = 1 ∨ result.status = 2) ∧
          (result.status = 2 ↔ run.FailsToLoad) ∧ (result.status = 0 ↔ run.Completes)) ∧
      ∀ e m', run.outcome ≠ .error (.raised e) m' := by
  have hengine : run.engine.Prints := run.host.engine_prints run.fuel
  have hends := run.outcome_ends
  refine ⟨?_, ?_, ?_, ?_, ?_, ?_, ?_⟩
  · intro task m hvisits
    obtain ⟨hplain, hm⟩ := hvisits.closed
    refine ⟨fun _ _ => hm.plain, fun m' hend _ _ => ?_⟩
    exact ((Task.run_safe hengine hplain).endsIn hm hend).plain
  · intro e m v m' hvisits heval
    have hv := ((e.eval_safe hengine).ok hvisits.closed.2 heval).2
    exact ⟨hv, hv.toStr _ m', hv.repr _ m'⟩
  · intro printer v rest m hvisits
    exact (hvisits.closed.1 v List.mem_cons_self).toStr printer m
  · intro line target e m v m' hvisits heval
    have hm' := ((e.eval_safe hengine).ok hvisits.closed.2 heval).1
    obtain ⟨globals, -, hassign⟩ := assign_run hm' target v
    exact ⟨_, hassign⟩
  · intro program m hvisits
    obtain ⟨hplain, hm⟩ := hvisits.closed
    obtain ⟨globals, -, hassign⟩ := assign_run hm "__name__" (.str "__main__")
    refine ⟨⟨_, hassign⟩, fun e m' hrun => ?_⟩
    exact ((Task.run_safe hengine hplain).error hm hrun).2 e rfl
  · intro result m' houtcome
    rw [houtcome] at hends
    exact hends.status
  · intro e m' houtcome
    rw [houtcome] at hends
    cases hends

/-- A program that prints one line. -/
def greetingCode : Code :=
  ⟨"<module>", "c.rb", [.expression 1 (.call (.name "p") [.constant (.str "hi")] [])]⟩

def greeting : StandardRun :=
  ⟨.none, 1, .standard, (Program.seal greetingCode).toText, fun _ => "", .plain, .plain⟩

lemma load_greeting : greeting.load greeting.settings = .ok (Program.seal greetingCode) := by
  have hload : Program.load greeting.text true = .ok (Program.seal greetingCode) :=
    (Program.load_seal_eq_ok_iff greetingCode).mpr ⟨by decide +kernel, by decide +kernel⟩
  unfold load
  rw [show greeting.settings.verify = true from rfl, hload]
  rfl

/-- Nothing of the text matters but the program loaded from it. -/
lemma outcome_of_load {program : Program} (h : run.load run.settings = .ok program) :
    run.outcome = launch run.engine run.settings Bootstrap.standard (fun _ => .ok program) run.start := by
  unfold outcome launch
  rw [h]

lemma outcome_greeting : ∃ result m', greeting.outcome = .ok result m' ∧ result.status = 0 := by
  have hstatus : ((launch greeting.engine greeting.settings Bootstrap.standard
      (fun _ => .ok (Program.seal greetingCode))).returned? greeting.start).map (·.1.status) = some 0 := by
    decide +kernel
  obtain ⟨⟨result, m'⟩, hrun, hzero⟩ := Option.map_eq_some_iff.mp hstatus
  rw [outcome_of_load load_greeting]
  exact ⟨result, m', of_returned? hrun, hzero⟩

/-- The program that prints a line is completed, and its globals are plain when it begins. -/
theorem closed_world_greeting :
    greeting.Completes ∧ ∃ m, greeting.Visits (.program (Program.seal greetingCode)) m ∧
      ∀ name value, m.globals.get? name = some value → value.Plain := by
  obtain ⟨hglobals, -, -, -, -, hstatus, -⟩ := closed_world greeting
  obtain ⟨result, m', houtcome, hzero⟩ := outcome_greeting
  have hcompletes := (hstatus result m' houtcome).2.2.mp hzero
  obtain ⟨m, program, -, hstarted, -⟩ := id hcompletes
  have hvisits : greeting.Visits (.program (Program.seal greetingCode)) m :=
    ⟨_, m, hstarted, load_greeting, .refl⟩
  exact ⟨hcompletes, m, hvisits, (hglobals _ m hvisits).1⟩

end StandardRun

end SealedScript
