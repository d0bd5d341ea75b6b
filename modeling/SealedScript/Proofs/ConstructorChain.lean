import SealedScript.Proofs.Machine.Nesting

/-! Classes whose constructors are classes. A call goes down the chain and makes an object at each class on
the way; what the last class has for a constructor decides how the call ends. -/

namespace SealedScript

open Run

/-- The constructor of a class, if it has one. -/
def Class.init? (cls : Class) : Option Value :=
  Table.get? constructor cls.methods

/-- The constructor of each class is the class after it. -/
def Class.Chained (classes : List Class) : Prop :=
  classes.IsChain fun cls next => Class.init? cls = some (.type next)

/-- An object of each class, numbered from `id` on. -/
def Class.instances : (id : Nat) → List Class → List Value
  | _, [] => []
  | id, cls :: rest => .object id cls :: instances (id + 1) rest

/-- The state after `count` objects more have got their numbers. -/
def Machine.numbered (m : Machine) (count : Nat) : Machine :=
  { m with nextId := m.nextId + count }

/-- Of a step that ends like another one, the result can be replaced. -/
lemma Run.dropped_of_eq {α β γ : Type} {step : Run α} {other : Run β} {a : α} {m m' : Machine}
    (h : step m = (do let _ ← other; return a : Run α) m') (c : γ) :
    (do let _ ← step; return c : Run γ) m = (do let _ ← other; return c : Run γ) m' := by
  cases hother : other m' with
  | ok b m'' =>
    rw [bind_of_ok hother] at h ⊢
    exact bind_of_ok h
  | error stop m'' =>
    rw [bind_of_error hother] at h ⊢
    exact bind_of_error h

section Calls

variable (engine : Engine) (args : List Value) (kwargs : List (String × Value)) (m : Machine)

lemma Value.construct_of_get?_none {methods : List (String × Value)} (made : Value)
    (h : Table.get? Class.constructor methods = .none) :
    Value.construct engine methods made args kwargs =
      if args.isEmpty && kwargs.isEmpty then pure () else fail .needlessArguments := by
  induction methods with
  | nil => rw [construct]
  | cons method methods ih =>
    rw [Table.get?] at h
    by_cases hname : Class.constructor = method.1
    · rw [if_pos hname] at h
      cases h
    · rw [if_neg hname] at h
      rw [construct, if_neg (Ne.symm hname)]
      exact ih h

/-- The object is made first and given back last. -/
lemma Value.call_type (cls : Class) :
    (Value.type cls).call engine args kwargs m =
      (do construct engine cls.methods (.object m.nextId cls) args kwargs
          return .object m.nextId cls : Run Value) (m.numbered 1) := by
  have hnew : newId m = .ok m.nextId (m.numbered 1) := rfl
  rw [Value.call, bind_of_ok hnew]

/-- A constructor gets the object in front of the arguments, and its result is dropped. -/
lemma Value.call_type_of_init {cls : Class} {f : Value} (h : Class.init? cls = some f) :
    (Value.type cls).call engine args kwargs m =
      (do let _ ← f.call engine (.object m.nextId cls :: args) kwargs
          return .object m.nextId cls : Run Value) (m.numbered 1) := by
  rw [call_type, construct_of_get? h]
  simp only [bind_assoc, pure_bind]

/-- A class without a constructor runs nothing. -/
lemma Value.call_type_of_no_init {cls : Class} (h : Class.init? cls = .none) :
    (Value.type cls).call engine args kwargs m =
      if args = [] ∧ kwargs = [] then .ok (.object m.nextId cls) (m.numbered 1)
      else .error (.raised Cause.needlessArguments.exception) (m.numbered 1) := by
  rw [call_type, construct_of_get?_none engine args kwargs _ h]
  by_cases hempty : args = [] ∧ kwargs = []
  · obtain ⟨rfl, rfl⟩ := hempty
    rfl
  · have hnot : (args.isEmpty && kwargs.isEmpty) = false := by
      simpa only [Bool.and_eq_false_iff, List.isEmpty_eq_false_iff, ne_eq, ← not_and_or] using hempty
    rw [if_neg hempty, hnot]
    rfl

lemma Value.call_of_not_callable {f : Value} (h : f.callable = false) :
    f.call engine args kwargs m = .error (.raised (Cause.notCallable f.typeName).exception) m := by
  cases f with
  | builtin => cases h
  | type => cases h
  | _ =>
    rw [call]
    · rfl
    · simp
    · simp

end Calls

section Chains

variable {first : Class} {rest : List Class}

lemma Machine.numbered_numbered (m : Machine) (count more : Nat) :
    (m.numbered count).numbered more = m.numbered (count + more) := by
  simp only [numbered, Nat.add_assoc]

lemma Class.instances_reverse_cons (id : Nat) (cls : Class) (rest : List Class) (args : List Value) :
    (instances (id + 1) rest).reverse ++ .object id cls :: args =
      (instances id (cls :: rest)).reverse ++ args := by
  simp [instances]

/-- Down to the last class there is nothing but objects to be made: each goes in front of the arguments. -/
lemma Value.call_chained (engine : Engine) (hchain : Class.Chained (first :: rest)) {f : Value}
    (hlast : Class.init? (rest.getLastD first) = some f) (args : List Value) (kwargs : List (String × Value))
    (m : Machine) :
    (Value.type first).call engine args kwargs m =
      (do let _ ← f.call engine ((Class.instances m.nextId (first :: rest)).reverse ++ args) kwargs
          return .object m.nextId first : Run Value) (m.numbered (rest.length + 1)) := by
  -- on the classes after the first, with the object of the first among the arguments
  induction rest generalizing first args m with
  | nil => exact call_type_of_init engine args kwargs m hlast
  | cons next rest ih =>
    obtain ⟨hinit, htail⟩ := List.isChain_cons_cons.mp hchain
    rw [List.getLastD_cons] at hlast
    rw [call_type_of_init engine args kwargs m hinit]
    have hnext := ih htail hlast (.object m.nextId first :: args) (m.numbered 1)
    rw [Machine.numbered_numbered, Nat.add_comm 1, Machine.numbered, Class.instances_reverse_cons] at hnext
    exact dropped_of_eq hnext _

/-- Below the first class there is an object to give to the next one, which must not be given anything. -/
lemma Value.call_chained_of_no_init (engine : Engine) (hchain : Class.Chained (first :: rest))
    (hlast : Class.init? (rest.getLastD first) = .none) (args : List Value) (kwargs : List (String × Value))
    (m : Machine) :
    (Value.type first).call engine args kwargs m =
      if rest = [] ∧ args = [] ∧ kwargs = [] then .ok (.object m.nextId first) (m.numbered (rest.length + 1))
      else .error (.raised Cause.needlessArguments.exception) (m.numbered (rest.length + 1)) := by
  induction rest generalizing first args m with
  | nil => simpa using call_type_of_no_init engine args kwargs m hlast
  | cons next rest ih =>
    obtain ⟨hinit, htail⟩ := List.isChain_cons_cons.mp hchain
    rw [List.getLastD_cons] at hlast
    have hnext := ih htail hlast (.object m.nextId first :: args) (m.numbered 1)
    rw [if_neg (by simp), Machine.numbered_numbered, Nat.add_comm 1] at hnext
    rw [call_type_of_init engine args kwargs m hinit, if_neg (by simp)]
    exact bind_of_error hnext

/-- Of a chain of classes, the last one decides. If its constructor is a builtin, that is run once, on the
objects made for all the classes, the last of them first, and the arguments; what it returns is dropped, what
it raises goes through. Otherwise no builtin is run, and the call succeeds only if there is a single class,
without a constructor, and nothing to give to it. -/
theorem Value.call_chain (engine : Engine) (hchain : Class.Chained (first :: rest)) (args : List Value)
    (kwargs : List (String × Value)) (m : Machine) :
    let last := rest.getLastD first
    let made := Class.instances m.nextId (first :: rest)
    let ready := m.numbered (rest.length + 1)
    let outcome := (Value.type first).call engine args kwargs m
    (∀ name entry, Class.init? last = some (.builtin name entry) →
      outcome = (do let _ ← engine.native entry (made.reverse ++ args) kwargs
                    return .object m.nextId first : Run Value) ready) ∧
    (Class.init? last = .none →
      outcome =
        if rest = [] ∧ args = [] ∧ kwargs = [] then .ok (.object m.nextId first) ready
        else .error (.raised (.new .typeError "this constructor takes no arguments")) ready) ∧
    ∀ f, Class.init? last = some f → f.callable = false →
      outcome = .error (.raised (.new .typeError ("'" ++ f.typeName ++ "' object is not callable"))) ready := by
  refine ⟨fun name entry hlast => ?_, fun hlast => ?_, fun f hlast hf => ?_⟩
  · have hcall := call_chained engine hchain hlast args kwargs m
    rw [Value.call] at hcall
    exact hcall
  · exact call_chained_of_no_init engine hchain hlast args kwargs m
  · refine (call_chained engine hchain hlast args kwargs m).trans ?_
    exact bind_of_error (call_of_not_callable engine _ kwargs _ hf)

end Chains

section Recorded

/-- A host whose builtins put on record what they are given, and return something else. -/
def recorder : Host :=
  { Host.none with
    native := fun _ args _ => do
      HostAction.assign "given" (.list args)
      return .int 7 }

def engineClass : Class :=
  ⟨0, "Engine", [("__init__", .builtin "record" (.foreign "record"))]⟩

/-- An engine is its constructor. -/
def carClass : Class :=
  ⟨1, "Car", [("__init__", .type engineClass), ("__str__", .none)]⟩

/-- Two classes have got their numbers. -/
def classesMade : Machine :=
  (Machine.fresh .plain .plain .empty).numbered 2

/-- The record has both objects before the argument, and the outer one is what is returned. -/
theorem Value.call_chain_car :
    ∃ m', (Value.type carClass).call (recorder.engine 1) [.int 5] [] classesMade =
        .ok (.object 2 carClass) m' ∧
      m'.globals.get? "given" = some (.list [.object 3 engineClass, .object 2 carClass, .int 5]) := by
  have hchain : Class.Chained [carClass, engineClass] := .cons_cons rfl (.singleton _)
  obtain ⟨hbuiltin, -⟩ := Value.call_chain (recorder.engine 1) hchain [.int 5] [] classesMade
  refine ⟨_, (hbuiltin "record" (.foreign "record") rfl).trans rfl, ?_⟩
  exact Std.TreeMap.getElem?_insert_self

end Recorded

end SealedScript
