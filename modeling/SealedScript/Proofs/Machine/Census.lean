import Mathlib.Data.Set.Basic
import SealedScript.Proofs.Machine.Within

/-! Who has which number. Classes, objects and modules take their numbers one after another, so the list of
those that were made tells what a number stands for. -/

namespace SealedScript

/-- What a number was given to. -/
inductive Owner where
  | type (cls : Class)
  | object (cls : Class)
  | module (mod : Module)

/-- The owners of all the numbers given so far, in order. -/
abbrev Census := List Owner

/-- Every class, object and module within the value is the owner of its number. -/
inductive Value.LivesIn (census : Census) : Value → Prop
  | none : LivesIn census .none
  | bool (b : Bool) : LivesIn census (.bool b)
  | int (i : Int64) : LivesIn census (.int i)
  | float (x : Float) : LivesIn census (.float x)
  | str (s : String) : LivesIn census (.str s)
  | list {items : List Value} (hitems : ∀ item ∈ items, LivesIn census item) : LivesIn census (.list items)
  | builtin (name : String) (entry : Entry) : LivesIn census (.builtin name entry)
  | type {cls : Class} (howner : census[cls.id]? = some (.type cls))
      (hmethods : ∀ method ∈ cls.methods, LivesIn census method.2) : LivesIn census (.type cls)
  | object {id : Nat} {cls : Class} (howner : census[id]? = some (.object cls))
      (hclass : LivesIn census (.type cls)) : LivesIn census (.object id cls)
  | module {mod : Module} (howner : census[mod.id]? = some (.module mod))
      (hbindings : ∀ binding ∈ mod.bindings, LivesIn census binding.2) : LivesIn census (.module mod)

namespace Value.LivesIn

variable {census later : Census} {v : Value}

lemma items {items : List Value} (h : (Value.list items).LivesIn census) :
    ∀ item ∈ items, item.LivesIn census := by
  cases h with
  | list hitems => exact hitems

lemma methods {cls : Class} (h : (Value.type cls).LivesIn census) :
    ∀ method ∈ cls.methods, method.2.LivesIn census := by
  cases h with
  | type _ hmethods => exact hmethods

lemma ofClass {id : Nat} {cls : Class} (h : (Value.object id cls).LivesIn census) :
    (Value.type cls).LivesIn census := by
  cases h with
  | object _ hclass => exact hclass

lemma owner_object {id : Nat} {cls : Class} (h : (Value.object id cls).LivesIn census) :
    census[id]? = some (.object cls) := by
  cases h with
  | object howner _ => exact howner

lemma bindings {mod : Module} (h : (Value.module mod).LivesIn census) :
    ∀ binding ∈ mod.bindings, binding.2.LivesIn census := by
  cases h with
  | module _ hbindings => exact hbindings

/-- Owners keep their numbers when others are made. -/
lemma mono (h : v.LivesIn census) (hlater : census <+: later) : v.LivesIn later := by
  have howners : ∀ {id : Nat} {owner}, census[id]? = some owner → later[id]? = some owner := by
    intro id owner howner
    obtain ⟨hlt, rfl⟩ := List.getElem?_eq_some_iff.mp howner
    exact List.prefix_iff_getElem?.mp hlater id hlt
  induction h with
  | list _ ih => exact .list ih
  | type howner _ ih => exact .type (howners howner) ih
  | object howner _ ih => exact .object (howners howner) ih
  | module howner _ ih => exact .module (howners howner) ih
  | _ => constructor

lemma of_plain (h : v.Plain) : v.LivesIn census := by
  induction h with
  | list _ ih => exact .list ih
  | _ => constructor

end Value.LivesIn

namespace Value

/-- What it takes for two values to be equal. -/
inductive Matches : Value → Value → Prop
  | none : Matches .none .none
  | bool (b : Bool) : Matches (.bool b) (.bool b)
  | int (i : Int64) : Matches (.int i) (.int i)
  | float {x y : Float} (h : (x == y) = true) : Matches (.float x) (.float y)
  | str (s : String) : Matches (.str s) (.str s)
  | list {xs ys : List Value} (h : sameItems xs ys = true) : Matches (.list xs) (.list ys)
  | builtin (name : String) (entry : Entry) : Matches (.builtin name entry) (.builtin name entry)
  | type {c d : Class} (h : c.id = d.id) : Matches (.type c) (.type d)
  | object (id : Nat) (c d : Class) : Matches (.object id c) (.object id d)
  | module {m n : Module} (h : m.id = n.id) : Matches (.module m) (.module n)

lemma matches_of_same {u v : Value} (h : u.same v = true) : u.Matches v := by
  unfold same at h
  split at h
  · exact .none
  · exact beq_iff_eq.mp h ▸ .bool _
  · exact beq_iff_eq.mp h ▸ .int _
  · exact .float h
  · exact beq_iff_eq.mp h ▸ .str _
  · exact .list h
  · rw [Bool.and_eq_true, beq_iff_eq, beq_iff_eq] at h
    obtain ⟨rfl, rfl⟩ := h
    exact .builtin _ _
  · exact .type (beq_iff_eq.mp h)
  · exact beq_iff_eq.mp h ▸ .object _ _ _
  · exact .module (beq_iff_eq.mp h)
  · cases h

lemma Matches.same {u v : Value} (h : u.Matches v) : u.same v = true := by
  cases h with
  | float h => exact h
  | list h => exact h
  | _ => simp_all [Value.same]

/-- The number of a class, an object or a module. -/
def id? : Value → Option Nat
  | .type cls => some cls.id
  | .object id _ => some id
  | .module mod => some mod.id
  | _ => Option.none

/-- Whatever gets a number that nobody has yet is equal to nothing that lives already. -/
lemma LivesIn.same_eq_false {census : Census} {u v : Value} {id : Nat} (hu : u.LivesIn census)
    (hid : v.id? = some id) (hnew : census.length ≤ id) : u.same v = false := by
  have hbound : ∀ {id owner}, census[id]? = some owner → id < census.length :=
    fun howner => (List.getElem?_eq_some_iff.mp howner).1
  rw [← Bool.not_eq_true]
  intro hsame
  cases matches_of_same hsame with
  | type hids =>
    cases hid
    cases hu with
    | type howner _ => exact absurd (hbound howner) (by omega)
  | object =>
    cases hid
    exact absurd (hbound hu.owner_object) (by omega)
  | module hids =>
    cases hid
    cases hu with
    | module howner _ => exact absurd (hbound howner) (by omega)
  | _ => cases hid

/-- The value can be put together from those in the pool and from their parts, without a new class, object or
module. -/
inductive From (pool : Set Value) : Value → Prop
  | given {v : Value} (h : v ∈ pool) : From pool v
  | none : From pool .none
  | bool (b : Bool) : From pool (.bool b)
  | int (i : Int64) : From pool (.int i)
  | float (x : Float) : From pool (.float x)
  | str (s : String) : From pool (.str s)
  | builtin (name : String) (entry : Entry) : From pool (.builtin name entry)
  | list {items : List Value} (h : ∀ item ∈ items, From pool item) : From pool (.list items)
  | item {items : List Value} {item : Value} (h : From pool (.list items)) (hitem : item ∈ items) :
    From pool item
  | method {cls : Class} {method : String × Value} (h : From pool (.type cls))
      (hmethod : method ∈ cls.methods) : From pool method.2
  | ofObject {id : Nat} {cls : Class} (h : From pool (.object id cls)) : From pool (.type cls)
  | binding {mod : Module} {binding : String × Value} (h : From pool (.module mod))
      (hbinding : binding ∈ mod.bindings) : From pool binding.2

end Value

/-- All of these values live in the census. -/
def Census.Covers (census : Census) (pool : Set Value) : Prop :=
  ∀ v ∈ pool, v.LivesIn census

namespace Census.Covers

variable {census later : Census} {pool other : Set Value}

lemma mono (h : census.Covers pool) (hlater : census <+: later) : later.Covers pool :=
  fun v hv => (h v hv).mono hlater

lemma union (h : census.Covers pool) (hother : census.Covers other) : census.Covers (pool ∪ other) := by
  rintro v (hv | hv)
  · exact h v hv
  · exact hother v hv

lemma empty : census.Covers ∅ :=
  fun _ hv => hv.elim

/-- Nothing is made by putting together and taking apart. -/
lemma livesIn (hpool : census.Covers pool) {v : Value} (h : v.From pool) : v.LivesIn census := by
  induction h with
  | given h => exact hpool _ h
  | list _ ih => exact .list ih
  | item _ hitem ih => exact ih.items _ hitem
  | method _ hmethod ih => exact ih.methods _ hmethod
  | ofObject _ ih => exact ih.ofClass
  | binding _ hbinding ih => exact ih.bindings _ hbinding
  | _ => constructor

end Census.Covers

end SealedScript
