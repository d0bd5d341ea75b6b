import SealedScript.Launch
import SealedScript.Proofs.Machine.Safe

/-! The order of a launch: the program is asked for once and only after startup, it is run only if it was
loaded, and each failure on the way has its own status and leaves the state as it was found. -/

namespace SealedScript

open Run

/-- What asks for the program. It may change a state of its own, which nothing else sees. -/
abbrev Loader (σ : Type) := Settings → σ → Except (LoadError String) Program × σ

/-- A launch with any such loader, and any way to run the program that it gives. -/
def launchWith {σ : Type} (engine : Engine) (settings : Settings) (bootstrap : Run Unit)
    (load : Loader σ) (enter : Program → Run Int32) (s : σ) : Run (LaunchResult × σ) := do
  match ← attempt (startup engine settings bootstrap) with
  | .error e =>
    report engine e
    return (.startupFailed e, s)
  | .ok () =>
    match load settings s with
    | (.error e, s') =>
      let _ ← writeLine .stderr (loadMessage e)
      return (.loadFailed e, s')
    | (.ok program, s') => return (.finished (← enter program), s')

/-- The import of the diagnostics module raises, or the bootstrap after it. -/
inductive StartupRaises (engine : Engine) (settings : Settings) (bootstrap : Run Unit) (m : Machine)
    (e : Exception) (m' : Machine) : Prop
  | diagnostics (himport : importModule engine settings.diagnosticsModule m = .error (.raised e) m')
  | bootstrap {mod m₁} (himport : importModule engine settings.diagnosticsModule m = .ok mod m₁)
      (hbootstrap : bootstrap m₁ = .error (.raised e) m')

/-- The exception is reported once, by the hook in charge or by a line on standard error. -/
def Machine.Reports (engine : Engine) (e : Exception) (m m' : Machine) : Prop :=
  match m.hook with
  | some (.foreign symbol) => engine.hook symbol e m = .ok () m'
  | some .traceback => m' = m.offer .stderr e.report
  | none => m' = m.offer .stderr (e.summary ++ "\n")

section Phases

variable {engine : Engine} {settings : Settings} {bootstrap : Run Unit} {m m₁ m' : Machine} {e : Exception}

lemma startup_raised_iff :
    startup engine settings bootstrap m = .error (.raised e) m' ↔
      StartupRaises engine settings bootstrap m e m' := by
  constructor
  · intro h
    rcases bind_error h with himport | ⟨mod, m₁, himport, hbootstrap⟩
    · exact .diagnostics himport
    · exact .bootstrap himport hbootstrap
  · intro h
    cases h with
    | diagnostics himport => exact bind_of_error himport
    | bootstrap himport hbootstrap => exact (bind_of_ok himport).trans hbootstrap

lemma startup_ok_iff :
    startup engine settings bootstrap m = .ok () m' ↔
      ∃ mod m₁, importModule engine settings.diagnosticsModule m = .ok mod m₁ ∧ bootstrap m₁ = .ok () m' := by
  constructor
  · exact bind_ok
  · rintro ⟨mod, m₁, himport, hbootstrap⟩
    exact (bind_of_ok himport).trans hbootstrap

lemma report_ok_iff : report engine e m = .ok () m' ↔ m.Reports engine e m' := by
  have hget : (get : Run Machine) m = .ok m m := rfl
  unfold report Machine.Reports
  rw [bind_of_ok hget]
  cases m.hook with
  | none =>
    constructor
    · intro h
      cases h
      rfl
    · rintro rfl
      rfl
  | some hook =>
    cases hook with
    | traceback =>
      constructor
      · intro h
        cases h
        rfl
      · rintro rfl
        rfl
    | foreign symbol => exact Iff.rfl

variable {σ : Type} {load : Loader σ} {enter : Program → Run Int32} {s : σ}

/-- After startup the loader is called once, and its answer alone decides how to go on. -/
lemma launchWith_of_started (h : startup engine settings bootstrap m = .ok () m') :
    launchWith engine settings bootstrap load enter s m =
      match load settings s with
      | (.error e, s') => .ok (.loadFailed e, s') (m'.offer .stderr (loadMessage e ++ "\n"))
      | (.ok program, s') => (do return (.finished (← enter program), s') : Run _) m' := by
  rw [launchWith, bind_of_ok (attempt_of_ok h)]
  rcases load settings s with ⟨_ | _, s'⟩ <;> rfl

/-- A failed startup is reported, and the loader never comes in. -/
lemma launchWith_of_raised (h : startup engine settings bootstrap m = .error (.raised e) m') :
    launchWith engine settings bootstrap load enter s m =
      (do report engine e; return (.startupFailed e, s) : Run _) m' := by
  rw [launchWith, bind_of_ok (attempt_of_raised h)]

lemma launchWith_of_exhausted (h : startup engine settings bootstrap m = .error .exhausted m') :
    launchWith engine settings bootstrap load enter s m = .error .exhausted m' :=
  bind_of_error (attempt_of_exhausted h)

/-- The launch of the library is the case of a loader without a state. -/
lemma launchWith_stateless (answer : Settings → Except (LoadError String) Program) :
    launchWith engine settings bootstrap (fun settings s => (answer settings, s)) (Program.run engine) s =
      (·, s) <$> launch engine settings bootstrap answer := by
  rw [launchWith, launch, map_bind]
  refine bind_congr fun started => ?_
  cases started with
  | error e => simp only [map_bind, map_pure]
  | ok _ => cases answer settings <;> simp only [map_bind, map_pure]

/-- The state of the loader tells that it was called once, after a startup without exception, or never. -/
lemma launchWith_ok {result : LaunchResult} {s' : σ}
    (h : launchWith engine settings bootstrap load enter s m = .ok (result, s') m') :
    (s' = s ∧ ∀ other : Loader σ, launchWith engine settings bootstrap other enter s m = .ok (result, s) m') ∨
      s' = (load settings s).2 ∧ ∃ m₁, startup engine settings bootstrap m = .ok () m₁ := by
  cases hstart : startup engine settings bootstrap m with
  | ok u m₁ =>
    right
    refine ⟨?_, m₁, rfl⟩
    rw [launchWith_of_started hstart] at h
    split at h
    · next e s₁ hload =>
      cases h
      rw [hload]
    · next program s₁ hload =>
      obtain ⟨status, m₂, -, hpure⟩ := bind_ok h
      cases hpure
      rw [hload]
  | error stop m₁ =>
    cases stop with
    | raised e =>
      left
      have hother : ∀ other : Loader σ, launchWith engine settings bootstrap other enter s m =
          launchWith engine settings bootstrap load enter s m := fun other => by
        rw [launchWith_of_raised hstart, launchWith_of_raised hstart]
      have hstate : s' = s := by
        rw [launchWith_of_raised hstart] at h
        obtain ⟨-, m₂, -, hpure⟩ := bind_ok h
        cases hpure
        rfl
      exact ⟨hstate, fun other => (hother other).trans (hstate ▸ h)⟩
    | exhausted =>
      rw [launchWith_of_exhausted hstart] at h
      cases h

/-- A failed startup has one outcome, whatever the loader and the program. -/
lemma launchWith_of_startupRaises (h : StartupRaises engine settings bootstrap m e m₁)
    {result : LaunchResult} {s' : σ} :
    launchWith engine settings bootstrap load enter s m = .ok (result, s') m' ↔
      result = .startupFailed e ∧ s' = s ∧ m₁.Reports engine e m' := by
  rw [launchWith_of_raised (startup_raised_iff.mpr h), ← report_ok_iff]
  constructor
  · intro hrun
    obtain ⟨_, m₂, hreport, hpure⟩ := bind_ok hrun
    cases hpure
    exact ⟨rfl, rfl, hreport⟩
  · rintro ⟨rfl, rfl, hreport⟩
    rw [bind_of_ok hreport]
    rfl

/-- Two ways to run programs are the same to a launch if they agree on what the loader may give. -/
lemma launchWith_congr {enter' : Program → Run Int32}
    (h : ∀ program, (load settings s).1 = .ok program → enter program = enter' program) :
    launchWith engine settings bootstrap load enter s = launchWith engine settings bootstrap load enter' s := by
  refine bind_congr fun started => ?_
  cases started with
  | error e => rfl
  | ok _ =>
    rcases hload : load settings s with ⟨_ | program, s'⟩
    · rfl
    · simp only [h program (by rw [hload])]

end Phases

/-- Order and integrity of a launch, from any state and with any code of the host, any bootstrap and any
loader. -/
theorem launch_in_order {σ : Type} (engine : Engine) (settings : Settings) (bootstrap : Run Unit)
    (load : Loader σ) (s : σ) (m : Machine) :
    (∀ answer : Settings → Except (LoadError String) Program,
      launchWith engine settings bootstrap (fun settings s => (answer settings, s)) (Program.run engine) s =
        (·, s) <$> launch engine settings bootstrap answer) ∧
    -- the loader is called once after the import and the bootstrap, or not at all
    (∀ result s' m',
      launchWith engine settings bootstrap load (Program.run engine) s m = .ok (result, s') m' →
        (s' = s ∧ ∀ other : Loader σ,
          launchWith engine settings bootstrap other (Program.run engine) s m = .ok (result, s) m') ∨
        s' = (load settings s).2 ∧ ∃ mod m₁ m₂,
          importModule engine settings.diagnosticsModule m = .ok mod m₁ ∧ bootstrap m₁ = .ok () m₂) ∧
    -- a failed startup: status one and one report, whatever the exception, the loader and the program
    (∀ e m₁, StartupRaises engine settings bootstrap m e m₁ → ∀ enter result s' m',
      (launchWith engine settings bootstrap load enter s m = .ok (result, s') m' ↔
        result = .startupFailed e ∧ s' = s ∧ m₁.Reports engine e m') ∧
      (result = .startupFailed e → result.status = 1)) ∧
    -- a failed load: status two and one line more on standard error
    (∀ m₁ e s', startup engine settings bootstrap m = .ok () m₁ → load settings s = (.error e, s') →
      ∃ m', launchWith engine settings bootstrap load (Program.run engine) s m = .ok (.loadFailed e, s') m' ∧
        (LaunchResult.loadFailed e).status = 2 ∧ m'.globals = m₁.globals ∧ m'.modules = m₁.modules ∧
        m'.stdout = m₁.stdout ∧ m'.stderr = m₁.stderr.offer (loadMessage e ++ "\n")) ∧
    -- with verification, what would be done with a program whose digest is wrong is never done
    (∀ text words, (load settings s).1 = (Program.load text settings.verify).mapError (.map words) →
      settings.verify = true →
      ∀ enter : Program → Run Int32, (∀ program, program.Intact → enter program = program.run engine) →
        launchWith engine settings bootstrap load enter s m =
          launchWith engine settings bootstrap load (Program.run engine) s m) := by
  refine ⟨launchWith_stateless, fun result s' m' hrun => ?_, fun e m₁ hraises enter result s' m' => ?_,
    fun m₁ e s' hstart hload => ?_, fun text words hload hverify enter henter => ?_⟩
  · rcases launchWith_ok hrun with huncalled | ⟨hcalled, m₂, hstart⟩
    · exact .inl huncalled
    · obtain ⟨mod, m₁, himport, hbootstrap⟩ := startup_ok_iff.mp hstart
      exact .inr ⟨hcalled, mod, m₁, m₂, himport, hbootstrap⟩
  · refine ⟨launchWith_of_startupRaises hraises, ?_⟩
    rintro rfl
    rfl
  · refine ⟨m₁.offer .stderr (loadMessage e ++ "\n"), ?_, rfl, rfl, rfl, rfl, rfl⟩
    rw [launchWith_of_started hstart, hload]
  · refine congrFun (launchWith_congr fun program hprogram => henter program ?_) m
    rw [hload, hverify] at hprogram
    exact Program.intact_of_load (Program.load_of_worded hprogram)

/-- What the parser says of the empty text. -/
def emptyTextWords : String := "EOF while parsing a value at line 1 column 0"

/-- Counts its calls, and finds the empty text. -/
def emptyText : Loader Nat := fun settings calls =>
  ((Program.load "" settings.verify).mapError (.map fun _ => emptyTextWords), calls + 1)

/-- A bootstrap that exits with status nine ends the launch with status one and no call of the loader;
with one that does nothing the loader is called once, its complaint is the only line on standard error, and
the status is two. -/
theorem launch_in_order_emptyText :
    (∃ m', launchWith .idle .standard (fail (.exit 9)) emptyText (Program.run .idle) 0
        (.fresh .plain .plain .standard) = .ok (.startupFailed (Cause.exit 9).exception, 0) m' ∧
      m'.stderr.written = [(Cause.exit 9).exception.report]) ∧
    (∃ m', launchWith .idle .standard (pure ()) emptyText (Program.run .idle) 0
        (.fresh .plain .plain .standard) = .ok (.loadFailed (.unparsable emptyTextWords), 1) m' ∧
      m'.stderr.written = ["Load Error: JSON Parse Error: " ++ emptyTextWords ++ "\n"]) ∧
    launchWith .idle .standard (pure ()) emptyText
        (fun program => if program.Intact then program.run .idle else fail (.exit 9)) 0
        (.fresh .plain .plain .standard) =
      launchWith .idle .standard (pure ()) emptyText (Program.run .idle) 0 (.fresh .plain .plain .standard) := by
  obtain ⟨-, -, hfailed, -, -⟩ := launch_in_order .idle .standard (fail (.exit 9)) emptyText 0
    (.fresh .plain .plain .standard)
  obtain ⟨-, -, -, hunloaded, hverified⟩ := launch_in_order .idle .standard (pure ()) emptyText 0
    (.fresh .plain .plain .standard)
  refine ⟨?_, ?_, ?_⟩
  · have hraises : StartupRaises .idle .standard (fail (.exit 9)) (.fresh .plain .plain .standard)
        (Cause.exit 9).exception _ := .bootstrap rfl rfl
    exact ⟨_, ((hfailed _ _ hraises _ _ _ _).1).mpr ⟨rfl, rfl, rfl⟩, rfl⟩
  · obtain ⟨m', hrun, -, -, -, -, hstderr⟩ := hunloaded _ _ _ rfl rfl
    exact ⟨m', hrun, by rw [hstderr]; rfl⟩
  · exact hverified "" _ rfl rfl _ fun program hintact => if_pos hintact

end SealedScript
