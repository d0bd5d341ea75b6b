import SealedScript.Proofs.Machine.Layers

/-! A module that has been imported is found again, the same one, for as long as no older import of its
name is still going on. Such an import replaces it when it succeeds, and leaves it there when it fails. -/

namespace SealedScript

open Run

/-- The same modules have been imported. -/
def Machine.SameModules (m m' : Machine) : Prop :=
  m'.modules.loaded = m.modules.loaded

/-- The imported modules of the second state come about from those of the first by imports of what was not
imported before. -/
inductive Machine.Evolves : Machine → Machine → Prop
  | elsewhere {m m' : Machine} (h : m.SameModules m') : Evolves m m'
  /-- From its beginning to its end, while its initializer takes the state to `m₁`. -/
  | imported {engine : Engine} {m m₁ : Machine} {name mod}
      (hnew : Table.get? name m.modules.loaded = none) (hfill : Evolves m m₁)
      (himport : importModule engine name m =
        .ok mod ({ m₁ with nextId := m₁.nextId + 1 }.keep name mod)) :
    Evolves m ({ m₁ with nextId := m₁.nextId + 1 }.keep name mod)
  | trans {m₁ m₂ m₃ : Machine} (h₁ : Evolves m₁ m₂) (h₂ : Evolves m₂ m₃) : Evolves m₁ m₃

instance : IsPreorder Machine Machine.Evolves where
  refl _ := .elsewhere rfl
  trans _ _ _ := .trans

section Evolving

variable {engine : Engine}

/-- The module kept at the end was unknown at the beginning, whatever its initializer did. -/
lemma importModule_evolves (h : engine.Keeps Machine.Evolves) (name : String) :
    (importModule engine name).Within Machine.Evolves := by
  refine ⟨fun {m m'} hfinishes => ?_⟩
  have hfill : ∀ init : Initializer, (init.run engine (.named name)).Within Machine.Evolves :=
    fun init => init.run_within (fun _ _ => .elsewhere rfl) h.initializer _
  rcases importModule_finishes hfinishes with
    rfl | ⟨init, hnew, -, ⟨e, hraised⟩ | ⟨filled, m₁, mod, hok, rfl, himport⟩⟩
  · exact .elsewhere rfl
  · exact (hfill init).relates (.raised hraised)
  · exact .imported hnew ((hfill init).relates (.ok hok)) himport

lemma Engine.Keeps.serves_evolves (h : engine.Keeps Machine.Evolves) : engine.Serves Machine.Evolves where
  newId _ := .elsewhere rfl
  native := h.native
  offered channel _ _ := by cases channel <;> exact .elsewhere rfl
  bound _ := .elsewhere rfl
  frozen _ := .elsewhere rfl
  closed _ _ := .elsewhere rfl
  hooked _ _ := .elsewhere rfl
  executed code := code.exec_within
    ⟨⟨⟨fun _ => .elsewhere rfl, h.native⟩, fun _ => .elsewhere rfl, fun _ _ => .elsewhere rfl⟩,
      fun _ _ => .elsewhere rfl⟩
  imported := importModule_evolves h

lemma Engine.Layered.keeps_evolves (h : engine.Layered Machine.SameModules) :
    engine.Keeps Machine.Evolves :=
  h.keeps .elsewhere Engine.Keeps.serves_evolves

end Evolving

namespace Machine

/-- The module has been imported under the name. -/
def Holds (m : Machine) (name : String) (mod : Module) : Prop :=
  Table.get? name m.modules.loaded = some mod

/-- From one moment of a run to another, while no import of `name` ends that had begun before the first. -/
inductive Later (name : String) : Machine → Machine → Prop
  | evolves {m m' : Machine} (h : m.Evolves m') : Later name m m'
  /-- An older import, of another module, ends. -/
  | kept (m : Machine) {other : String} (hother : other ≠ name) (mod : Module) :
    Later name m (m.keep other mod)
  | trans {m₁ m₂ m₃ : Machine} (h₁ : Later name m₁ m₂) (h₂ : Later name m₂ m₃) : Later name m₁ m₃

variable {name other : String} {mod kept : Module} {m m' : Machine}

lemma holds_keep : (m.keep name mod).Holds name mod :=
  Table.get?_insert_self name mod _

lemma get?_keep_of_ne (h : other ≠ name) :
    Table.get? name (m.keep other kept).modules.loaded = Table.get? name m.modules.loaded :=
  Table.get?_insert_ne h.symm kept _

/-- An import that has begun finds nothing under its name, so it is not this one that it keeps. -/
lemma Evolves.holds (h : m.Evolves m') (hholds : m.Holds name mod) : m'.Holds name mod := by
  induction h with
  | elsewhere hsame =>
    unfold Holds
    rw [hsame]
    exact hholds
  | @imported _ _ _ other _ hnew _ _ ih =>
    have hother : other ≠ name := by
      rintro rfl
      cases hnew.symm.trans hholds
    exact (get?_keep_of_ne hother).trans (ih hholds)
  | trans _ _ ih₁ ih₂ => exact ih₂ (ih₁ hholds)

lemma Later.holds (h : m.Later name m') (hholds : m.Holds name mod) : m'.Holds name mod := by
  induction h with
  | evolves h => exact h.holds hholds
  | kept m hother mod => exact (get?_keep_of_ne hother).trans hholds
  | trans _ _ ih₁ ih₂ => exact ih₂ (ih₁ hholds)

/-- A module that has come to be held is what some import on the way has returned, one that found nothing
when it began. -/
lemma Evolves.origin (h : m.Evolves m') (hnew : Table.get? name m.modules.loaded = none)
    (hholds : m'.Holds name mod) :
    ∃ engine m₁ m₂, m.Evolves m₁ ∧ Table.get? name m₁.modules.loaded = none ∧
      importModule engine name m₁ = .ok mod m₂ ∧ m₂.Later name m' := by
  induction h with
  | elsewhere hsame =>
    unfold Holds at hholds
    rw [hsame, hnew] at hholds
    cases hholds
  | @imported engine m m₁ other kept _ _ himport ih =>
    by_cases hother : other = name
    · subst hother
      have hkept : kept = mod := Option.some.inj (holds_keep.symm.trans hholds)
      rw [hkept] at himport ⊢
      exact ⟨engine, m, _, .elsewhere rfl, hnew, himport, .evolves (.elsewhere rfl)⟩
    · obtain ⟨inner, m₂, m₃, hbefore, habsent, hinner, hlater⟩ :=
        ih hnew ((get?_keep_of_ne hother).symm.trans hholds)
      have hnext : m₁.Evolves { m₁ with nextId := m₁.nextId + 1 } := .elsewhere rfl
      exact ⟨inner, m₂, m₃, hbefore, habsent, hinner,
        (hlater.trans (.evolves hnext)).trans (.kept _ hother kept)⟩
  | @trans m₁ m₂ m₃ h₁ h₂ ih₁ ih₂ =>
    cases hmiddle : Table.get? name m₂.modules.loaded with
    | none =>
      obtain ⟨inner, m₄, m₅, hbefore, habsent, hinner, hlater⟩ := ih₂ hmiddle hholds
      exact ⟨inner, m₄, m₅, h₁.trans hbefore, habsent, hinner, hlater⟩
    | some found =>
      have hfound : found = mod := Option.some.inj ((h₂.holds hmiddle).symm.trans hholds)
      obtain ⟨inner, m₄, m₅, hbefore, habsent, hinner, hlater⟩ := ih₁ hnew (hfound ▸ hmiddle)
      exact ⟨inner, m₄, m₅, hbefore, habsent, hinner, hlater.trans (.evolves h₂)⟩

end Machine

section Imports

variable {engine : Engine} {name : String} {mod : Module} {m m' : Machine}

lemma importModule_of_holds (h : m.Holds name mod) : importModule engine name m = .ok mod m := by
  rw [importModule_run, show Table.get? name m.modules.loaded = some mod from h]

lemma holds_of_importModule (h : importModule engine name m = .ok mod m') : m'.Holds name mod := by
  rw [importModule_run] at h
  split at h
  · next found _ hloaded =>
    cases h
    exact hloaded
  · cases h
  · next init _ _ =>
    split at h
    · cases h
      exact Machine.holds_keep
    · cases h

lemma get?_eq_none_of_importModule_raised {e : Exception}
    (h : importModule engine name m = .error (.raised e) m') :
    Table.get? name m.modules.loaded = none := by
  cases hloaded : Table.get? name m.modules.loaded with
  | none => rfl
  | some mod => cases (importModule_of_holds hloaded).symm.trans h

/-- An import gives back the module that an earlier one has returned, and does nothing else, as long as
nothing older still goes on under that name. An import that raises found nothing, and what it leaves under
its name was returned by an import inside it. -/
theorem importModule_once (hengine : engine.Layered Machine.SameModules) :
    (importModule engine name m = .ok mod m' → ∀ m₂, m'.Later name m₂ →
      ∀ later : Engine, importModule later name m₂ = .ok mod m₂) ∧
    (∀ e, importModule engine name m = .error (.raised e) m' →
      Table.get? name m.modules.loaded = none ∧ ∀ left, m'.Holds name left →
        ∃ inner m₁ m₂, m.Evolves m₁ ∧ Table.get? name m₁.modules.loaded = none ∧
          importModule inner name m₁ = .ok left m₂ ∧ m₂.Later name m') := by
  refine ⟨fun himport m₂ hlater later => ?_, fun e himport => ?_⟩
  · exact importModule_of_holds (hlater.holds (holds_of_importModule himport))
  · have hnew := get?_eq_none_of_importModule_raised himport
    have hevolves := (importModule_evolves hengine.keeps_evolves name).relates (.raised himport)
    exact ⟨hnew, fun left hleft => hevolves.origin hnew hleft⟩

end Imports

/-- The initializer imports its own module once more, binds what it gets as `inner`, and raises if its
symbol is `fails`. -/
def reentrant : Host :=
  { Host.none with
    initializer := fun symbol bindings => do
      if ((← HostAction.globals).get? "begun").isSome then return bindings
      HostAction.assign "begun" (.bool true)
      HostAction.assign "inner" (.module (← HostAction.importModule "own"))
      if symbol = "fails" then HostAction.fail (.exit 1)
      return bindings }

/-- Nothing is imported yet; the initializer of `own` has the symbol. -/
def beforeOwn (symbol : String) : Machine :=
  .fresh .plain .plain (Registry.empty.register "own" (.foreign symbol))

/-- The number of the module that a global is bound to. -/
def Machine.boundId (m : Machine) (name : String) : Option Nat :=
  match m.globals.get? name with
  | some (.module mod) => some mod.id
  | _ => none

/-- An import inside an import of the same name returns one module, and the outer import then another. -/
theorem importModule_reentrant_ne :
    ∃ outer m', importModule (reentrant.engine 2) "own" (beforeOwn "succeeds") = .ok outer m' ∧
      m'.boundId "inner" = some 0 ∧ outer.id = 1 := by
  have hends : ((importModule (reentrant.engine 2) "own").returned? (beforeOwn "succeeds")).map
      (fun reached => (reached.2.boundId "inner", reached.1.id)) = some (some 0, 1) := by
    decide +kernel
  obtain ⟨⟨outer, m'⟩, hreturned, hids⟩ := Option.map_eq_some_iff.mp hends
  obtain ⟨hinner, houter⟩ := Prod.mk.inj hids
  exact ⟨outer, m', of_returned? hreturned, hinner, houter⟩

/-- The outer import raises, and the module of the inner one stays. -/
theorem importModule_reentrant_kept :
    ∃ e m', importModule (reentrant.engine 2) "own" (beforeOwn "fails") = .error (.raised e) m' ∧
      (beforeOwn "fails").modules.isLoaded "own" = false ∧ m'.modules.isLoaded "own" = true := by
  have hends : ((importModule (reentrant.engine 2) "own").raised? (beforeOwn "fails")).map
      (·.2.modules.isLoaded "own") = some true := by
    decide +kernel
  obtain ⟨⟨e, m'⟩, hraised, hloaded⟩ := Option.map_eq_some_iff.mp hends
  exact ⟨e, m', of_raised? hraised, rfl, hloaded⟩

end SealedScript
