import SealedScript.Proofs.Machine.Layers

/-! The position during a run. Code units put it back when they end, so evaluation and host code leave it as
they find it; only the statements of a block move it. -/

namespace SealedScript

open Run

/-- The position is the same in both states. -/
def Machine.SamePosition (m m' : Machine) : Prop :=
  m'.position = m.position

instance : IsPreorder Machine Machine.SamePosition where
  refl _ := rfl
  trans _ _ _ h₁ h₂ := Eq.trans h₂ h₁

/-- Builtins leave the position as they find it. -/
def Engine.Stationary (engine : Engine) : Prop :=
  ∀ entry args kwargs, (engine.native entry args kwargs).Within Machine.SamePosition

variable {engine : Engine}

lemma Engine.Stationary.evaluates (h : engine.Stationary) : engine.Evaluates Machine.SamePosition where
  newId _ := rfl
  native := h

lemma Run.assign_samePosition (name : String) (value : Value) :
    (assign name value).Within Machine.SamePosition :=
  assign_within (fun _ => rfl) name value

lemma Code.exec_samePosition (engine : Engine) (code : Code) :
    (code.exec engine).Within Machine.SamePosition := by
  refine ⟨fun {m m'} hfinishes => ?_⟩
  unfold Finishes at hfinishes
  rw [Code.exec_run] at hfinishes
  split at hfinishes
  · rcases hfinishes with ⟨a, h⟩ | ⟨e, h⟩ <;> cases h
    rfl
  · rcases hfinishes with ⟨a, h⟩ | ⟨e, h⟩ <;> cases h
    rfl
  · rcases hfinishes with ⟨a, h⟩ | ⟨e, h⟩ <;> cases h

/-- Whatever host code asks for, the position is as before when it is answered. -/
lemma Engine.Keeps.serves_samePosition (h : engine.Keeps Machine.SamePosition) :
    engine.Serves Machine.SamePosition where
  toEvaluates := Engine.Stationary.evaluates h.native
  offered channel _ _ := by cases channel <;> rfl
  bound _ := rfl
  frozen _ := rfl
  closed _ _ := rfl
  hooked _ _ := rfl
  executed code := code.exec_samePosition engine
  imported := importModule_within (fun _ _ => rfl) (fun _ _ _ => rfl) h.initializer

lemma Host.engine_serves (host : Host) (fuel : Nat) : (host.engine fuel).Serves Machine.SamePosition :=
  host.engine_serves_of_layer Engine.Keeps.serves_samePosition fuel

lemma Host.engine_stationary (host : Host) (fuel : Nat) : (host.engine fuel).Stationary :=
  (host.engine_serves fuel).native

end SealedScript
