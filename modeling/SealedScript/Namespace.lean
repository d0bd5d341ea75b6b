import SealedScript.Exception
import SealedScript.Value.Basic
import Std.Data.TreeMap.Lemmas
import Std.Data.TreeSet.Lemmas

/-! Tables of names that can be closed to writing, as a whole or name by name. What a table holds is
seen through `get?` and `names`; a write changes what is seen under one name, or nothing at all. -/

namespace SealedScript

structure Namespace where
  bindings : Std.TreeMap String Value
  readOnly : Std.TreeSet String
  frozen : Bool

namespace Namespace

def empty : Namespace := ⟨∅, ∅, false⟩

def get? (ns : Namespace) (name : String) : Option Value :=
  ns.bindings[name]?

def contains (ns : Namespace) (name : String) : Bool :=
  ns.bindings.contains name

/-- The name can be bound. -/
def Writable (ns : Namespace) (name : String) : Prop :=
  ns.frozen = false ∧ name ∉ ns.readOnly

instance (ns : Namespace) (name : String) : Decidable (ns.Writable name) :=
  inferInstanceAs (Decidable (_ ∧ _))

/-- Binds a name, unless the table is frozen or the name read-only. -/
def set (ns : Namespace) (name : String) (value : Value) : Except Cause Namespace :=
  if ns.frozen then .error (.frozen name)
  else if name ∈ ns.readOnly then .error (.readOnly name)
  else .ok { ns with bindings := ns.bindings.insert name value }

/-- Closes the whole table. -/
def freeze (ns : Namespace) : Namespace :=
  { ns with frozen := true }

/-- Closes one name; its binding, if any, stays. -/
def protect (ns : Namespace) (name : String) : Namespace :=
  { ns with readOnly := ns.readOnly.insert name }

/-- The bound names in increasing order. -/
def names (ns : Namespace) : List String :=
  ns.bindings.keys

/-- The names with their values, in increasing order of the names. -/
def toList (ns : Namespace) : List (String × Value) :=
  ns.bindings.toList

def size (ns : Namespace) : Nat :=
  ns.bindings.size

def isEmpty (ns : Namespace) : Bool :=
  ns.bindings.isEmpty

@[simp] theorem get?_empty (name : String) : empty.get? name = none := by
  simp [get?, empty]

theorem contains_eq_isSome_get? (ns : Namespace) (name : String) :
    ns.contains name = (ns.get? name).isSome := by
  simp [contains, get?]

theorem set_eq_ok_iff {ns after : Namespace} {name : String} {value : Value} :
    ns.set name value = .ok after ↔
      ns.Writable name ∧ after = { ns with bindings := ns.bindings.insert name value } := by
  unfold set Writable
  by_cases hf : ns.frozen <;> by_cases hr : name ∈ ns.readOnly <;> simp [hf, hr, eq_comm]

theorem set_isOk_iff (ns : Namespace) (name : String) (value : Value) :
    (ns.set name value).isOk ↔ ns.Writable name := by
  unfold set Writable
  by_cases hf : ns.frozen <;> by_cases hr : name ∈ ns.readOnly <;>
    simp [hf, hr, Except.isOk, Except.toBool]

/-- A write is seen under its own name and nowhere else. -/
theorem get?_set {ns after : Namespace} {name : String} {value : Value}
    (h : ns.set name value = .ok after) (other : String) :
    after.get? other = if other = name then some value else ns.get? other := by
  obtain ⟨-, rfl⟩ := set_eq_ok_iff.mp h
  simp only [get?, Std.TreeMap.getElem?_insert, Std.compare_eq_iff_eq, eq_comm (a := name)]

@[simp] theorem get?_freeze (ns : Namespace) (name : String) :
    ns.freeze.get? name = ns.get? name := rfl

@[simp] theorem get?_protect (ns : Namespace) (name other : String) :
    (ns.protect name).get? other = ns.get? other := rfl

theorem mem_names_iff (ns : Namespace) (name : String) :
    name ∈ ns.names ↔ (ns.get? name).isSome := by
  simp [names, get?]

theorem names_increasing (ns : Namespace) : ns.names.Pairwise (· < ·) := by
  have h := Std.TreeMap.ordered_keys (t := ns.bindings)
  exact h.imp fun hlt => compareOfLessAndEq_eq_lt.mp hlt

@[simp] theorem length_names (ns : Namespace) : ns.names.length = ns.size := by
  simp [names, size]

theorem isEmpty_iff (ns : Namespace) : ns.isEmpty ↔ ns.size = 0 := by
  simp [isEmpty, size, Std.TreeMap.isEmpty_eq_size_eq_zero]

end Namespace

end SealedScript
