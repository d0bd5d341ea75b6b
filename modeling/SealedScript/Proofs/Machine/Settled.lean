import Mathlib.Data.List.Induction
import SealedScript.Proofs.Machine.Census

/-! What every step of a run does to the census. Owners are only added, the globals and the imported modules
live in it, and so does every value that comes out, as long as host code makes up no class, object or module
by itself. -/

namespace SealedScript

open Run

namespace Table

variable {α : Type} {table : List (String × α)} {name : String} {value : α} {entry : String × α}

lemma mem_of_get? (h : get? name table = some value) : (name, value) ∈ table := by
  induction table with
  | nil => cases h
  | cons entry table ih =>
    rw [get?] at h
    split_ifs at h with hname
    · cases h
      exact hname ▸ List.mem_cons_self
    · exact List.mem_cons_of_mem _ (ih h)

lemma mem_insert (h : entry ∈ insert name value table) : entry = (name, value) ∨ entry ∈ table := by
  induction table with
  | nil => exact .inl (List.mem_singleton.mp h)
  | cons first table ih =>
    rw [insert] at h
    split_ifs at h
    · rcases List.mem_cons.mp h with rfl | h
      · exact .inl rfl
      · exact .inr (List.mem_cons_of_mem _ h)
    · exact List.mem_cons.mp h
    · rcases List.mem_cons.mp h with rfl | h
      · exact .inr List.mem_cons_self
      · exact (ih h).imp_right (List.mem_cons_of_mem _)

lemma mem_ofList {entries : List (String × α)} (h : entry ∈ ofList entries) : entry ∈ entries := by
  induction entries using List.reverseRecOn with
  | nil => exact h
  | append_singleton entries last ih =>
    rw [ofList, List.foldl_append] at h
    rcases mem_insert h with rfl | h
    · simp
    · exact List.mem_append_left _ (ih h)

end Table

/-- The values bound in a table. -/
def Namespace.values (ns : Namespace) : Set Value :=
  {v | ∃ name, ns.get? name = some v}

/-- The globals and the imported modules. -/
def Machine.values (m : Machine) : Set Value :=
  m.globals.values ∪ {v | ∃ entry ∈ m.modules.loaded, v = .module entry.2}

/-- The census has an owner for each number given, and all that the state holds lives in it. -/
structure Machine.Settled (census : Census) (m : Machine) : Prop where
  count : m.nextId = census.length
  values : census.Covers m.values

/-- Nothing but the globals, the imported modules and the next number matters. -/
lemma Machine.Settled.congr {census : Census} {m m' : Machine} (h : m.Settled census)
    (hnext : m'.nextId = m.nextId) (hglobals : m'.globals.values = m.globals.values)
    (hloaded : m'.modules.loaded = m.modules.loaded) : m'.Settled census := by
  constructor
  · rw [hnext]
    exact h.count
  · unfold Machine.values
    rw [hglobals, hloaded]
    exact h.values

lemma Namespace.values_set {ns after : Namespace} {name : String} {value : Value} {census : Census}
    (h : ns.set name value = .ok after) (hns : census.Covers ns.values) (hvalue : value.LivesIn census) :
    census.Covers after.values := by
  rintro v ⟨other, hother⟩
  rw [Namespace.get?_set h] at hother
  split_ifs at hother
  · exact Option.some.inj hother ▸ hvalue
  · exact hns v ⟨other, hother⟩

namespace Run

variable {α β : Type} {census : Census}

/-- From a state with this census the step reaches one with a later census, and a result that is in `Q` then. -/
structure Keeps (census : Census) (step : Run α) (Q : Census → α → Prop) : Prop where
  ok : ∀ {m a m'}, m.Settled census → step m = .ok a m' →
    ∃ later : Census, census <+: later ∧ m'.Settled later ∧ Q later a
  error : ∀ {m stop m'}, m.Settled census → step m = .error stop m' →
    ∃ later : Census, census <+: later ∧ m'.Settled later

variable {step : Run α} {Q : Census → α → Prop} {R : Census → β → Prop}

lemma keeps_pure {a : α} (ha : Q census a) : Keeps census (pure a : Run α) Q := by
  constructor
  · intro m b m' hm hrun
    cases hrun
    exact ⟨census, List.prefix_rfl, hm, ha⟩
  · intro m stop m' hm hrun
    cases hrun

/-- The rest begins with the census that the first part has reached. -/
lemma Keeps.bind (h : Keeps census step Q) {next : α → Run β}
    (hnext : ∀ {later a}, census <+: later → Q later a → Keeps later (next a) R) :
    Keeps census (step >>= next) R := by
  constructor
  · intro m b m' hm hrun
    obtain ⟨a, m₁, hstep, hrest⟩ := bind_ok hrun
    obtain ⟨mid, hmid, hm₁, ha⟩ := h.ok hm hstep
    obtain ⟨later, hlater, hm', hb⟩ := (hnext hmid ha).ok hm₁ hrest
    exact ⟨later, hmid.trans hlater, hm', hb⟩
  · intro m stop m' hm hrun
    rcases bind_error hrun with hstep | ⟨a, m₁, hstep, hrest⟩
    · exact h.error hm hstep
    · obtain ⟨mid, hmid, hm₁, ha⟩ := h.ok hm hstep
      obtain ⟨later, hlater, hm'⟩ := (hnext hmid ha).error hm₁ hrest
      exact ⟨later, hmid.trans hlater, hm'⟩

lemma Keeps.imp (h : Keeps census step Q) {Q' : Census → α → Prop} (himp : ∀ {later a}, Q later a → Q' later a) :
    Keeps census step Q' := by
  constructor
  · intro m a m' hm hrun
    obtain ⟨later, hlater, hm', ha⟩ := h.ok hm hrun
    exact ⟨later, hlater, hm', himp ha⟩
  · exact h.error

lemma keeps_throw (stop : Stop) : Keeps census (throw stop : Run α) Q := by
  constructor
  · intro m a m' hm hrun
    cases hrun
  · intro m stop m' hm hrun
    cases hrun
    exact ⟨census, List.prefix_rfl, hm⟩

lemma keeps_ofExcept {outcome : Except Cause α} (h : ∀ a, outcome = .ok a → Q census a) :
    Keeps census (ofExcept outcome) Q := by
  cases outcome with
  | ok a => exact keeps_pure (h a rfl)
  | error cause => exact keeps_throw _

lemma keeps_ofAttempt {outcome : Except Exception α} (h : ∀ a, outcome = .ok a → Q census a) :
    Keeps census (ofAttempt outcome) Q := by
  cases outcome with
  | ok a => exact keeps_pure (h a rfl)
  | error e => exact keeps_throw _

lemma Keeps.attempt (h : Keeps census step Q) :
    Keeps census (Run.attempt step) fun later outcome => ∀ a, outcome = .ok a → Q later a := by
  constructor
  · intro m outcome m' hm hrun
    unfold Run.attempt at hrun
    split at hrun
    · next a m₁ hstep =>
      cases hrun
      obtain ⟨later, hlater, hm', ha⟩ := h.ok hm hstep
      refine ⟨later, hlater, hm', fun b hb => ?_⟩
      cases hb
      exact ha
    · next e m₁ hstep =>
      cases hrun
      obtain ⟨later, hlater, hm'⟩ := h.error hm hstep
      exact ⟨later, hlater, hm', by simp⟩
    · cases hrun
  · intro m stop m' hm hrun
    unfold Run.attempt at hrun
    split at hrun
    · cases hrun
    · cases hrun
    · next m₁ hstep =>
      cases hrun
      exact h.error hm hstep

lemma keeps_get : Keeps census (get : Run Machine) fun later m => m.Settled later := by
  constructor
  · intro m a m' hm hrun
    cases hrun
    exact ⟨census, List.prefix_rfl, hm, hm⟩
  · intro m stop m' hm hrun
    cases hrun

lemma keeps_modify {f : Machine → Machine} (h : ∀ m, m.Settled census → (f m).Settled census)
    {Q : Census → PUnit → Prop} (hQ : Q census ⟨⟩) : Keeps census (modify f : Run PUnit) Q := by
  constructor
  · intro m a m' hm hrun
    cases hrun
    exact ⟨census, List.prefix_rfl, h m hm, hQ⟩
  · intro m stop m' hm hrun
    cases hrun

/-- The number goes to the owner, whoever that is. -/
lemma newId_keeps (owner : Owner) :
    Keeps census newId fun later id => id = census.length ∧ later = census ++ [owner] := by
  constructor
  · intro m id m' hm hrun
    cases hrun
    have hlater : census <+: census ++ [owner] := List.prefix_append _ _
    exact ⟨census ++ [owner], hlater, ⟨by simp [hm.count], hm.values.mono hlater⟩, hm.count, rfl⟩
  · intro m stop m' hm hrun
    cases hrun

lemma lookup_keeps (name : String) : Keeps census (lookup name) fun later v => v.LivesIn later := by
  refine keeps_get.bind fun {later m} _ hm => ?_
  cases hfound : m.globals.get? name with
  | some value => exact keeps_pure (hm.values value (.inl ⟨name, hfound⟩))
  | none => exact keeps_throw _

lemma assign_keeps (name : String) {value : Value} (hvalue : value.LivesIn census) :
    Keeps census (assign name value) fun _ _ => True := by
  constructor
  · intro m a m' hm hrun
    cases hset : m.globals.set name value with
    | ok globals =>
      rw [assign_of_set hset] at hrun
      cases hrun
      have hglobals := Namespace.values_set hset (fun v hv => hm.values v (.inl hv)) hvalue
      exact ⟨census, List.prefix_rfl, ⟨hm.count, hglobals.union fun v hv => hm.values v (.inr hv)⟩, trivial⟩
    | error cause =>
      rw [assign_of_set_error hset] at hrun
      cases hrun
  · intro m stop m' hm hrun
    cases hset : m.globals.set name value with
    | ok globals =>
      rw [assign_of_set hset] at hrun
      cases hrun
    | error cause =>
      rw [assign_of_set_error hset] at hrun
      cases hrun
      exact ⟨census, List.prefix_rfl, hm⟩

lemma write_keeps (channel : Channel) (text : String) : Keeps census (write channel text) fun _ _ => True := by
  constructor
  · intro m a m' hm hrun
    cases hrun
    cases channel <;> exact ⟨census, List.prefix_rfl, hm.congr rfl rfl rfl, trivial⟩
  · intro m stop m' hm hrun
    cases hrun

lemma printLine_keeps (text : String) : Keeps census (printLine text) fun _ _ => True := by
  refine (write_keeps .stdout (text ++ "\n")).bind fun {later reply} _ _ => ?_
  cases reply with
  | ok _ => exact keeps_pure trivial
  | error reason => exact keeps_throw _

end Run

/-- The code behind builtins, modules and hooks hands out only what lives, if it is given only such. -/
structure Engine.Settles (engine : Engine) : Prop where
  native : ∀ {census : Census} {args kwargs} (entry : Entry), (∀ arg ∈ args, arg.LivesIn census) →
    (∀ kwarg ∈ kwargs, kwarg.2.LivesIn census) →
    (engine.native entry args kwargs).Keeps census fun later v => v.LivesIn later
  initializer : ∀ {census : Census} {bindings : Namespace} (symbol : String), census.Covers bindings.values →
    (engine.initializer symbol bindings).Keeps census fun later filled => later.Covers filled.values
  hook : ∀ {census : Census} (symbol : String) (e : Exception),
    (engine.hook symbol e).Keeps census fun _ _ => True

section Evaluation

variable {engine : Engine} {census : Census}

lemma Value.construct_keeps {methods : List (String × Value)} {made : Value} {args : List Value}
    {kwargs : List (String × Value)}
    (hmethods : ∀ method ∈ methods,
      (method.2.call engine (made :: args) kwargs).Keeps census fun later v => v.LivesIn later) :
    (Value.construct engine methods made args kwargs).Keeps census fun _ _ => True := by
  induction methods with
  | nil =>
    rw [construct]
    split_ifs
    · exact keeps_pure trivial
    · exact keeps_throw _
  | cons method methods ih =>
    rw [List.forall_mem_cons] at hmethods
    rw [construct]
    split_ifs
    · exact hmethods.1.bind fun _ _ => keeps_pure trivial
    · exact ih hmethods.2

lemma Value.call_keeps (hengine : engine.Settles) {f : Value} (hf : f.LivesIn census) {args : List Value}
    (hargs : ∀ arg ∈ args, arg.LivesIn census) {kwargs : List (String × Value)}
    (hkwargs : ∀ kwarg ∈ kwargs, kwarg.2.LivesIn census) :
    (f.call engine args kwargs).Keeps census fun later v => v.LivesIn later := by
  induction f generalizing census args kwargs with
  | builtin name entry =>
    rw [call]
    exact hengine.native entry hargs hkwargs
  | type cls ih =>
    rw [call]
    refine (newId_keeps (.object cls)).bind fun {later id} hlater hid => ?_
    obtain ⟨rfl, rfl⟩ := hid
    have hmade : (Value.object census.length cls).LivesIn (census ++ [.object cls]) :=
      .object (by simp) (hf.mono hlater)
    -- the constructor is given the new object before the arguments
    have hgiven : ∀ arg ∈ Value.object census.length cls :: args, arg.LivesIn (census ++ [.object cls]) :=
      List.forall_mem_cons.mpr ⟨hmade, fun arg harg => (hargs arg harg).mono hlater⟩
    refine (construct_keeps fun method hmethod => ?_).bind fun hlast _ => keeps_pure (hmade.mono hlast)
    exact ih method hmethod ((hf.mono hlater).methods method hmethod) hgiven
      fun kwarg hkwarg => (hkwargs kwarg hkwarg).mono hlater
  | _ =>
    rw [call]
    · exact keeps_throw _
    · simp
    · simp

lemma PlainOutcome.livesIn {outcome : Except Cause Value} {v : Value} (h : PlainOutcome outcome)
    (hv : outcome = .ok v) : v.LivesIn census := by
  cases h with
  | value hplain =>
    cases hv
    exact .of_plain hplain
  | cause => cases hv

lemma Operator.repeatList_livesIn {items : List Value} {n : Int} {v : Value}
    (hitems : (Value.list items).LivesIn census) (h : repeatList items n = .ok v) : v.LivesIn census := by
  unfold repeatList repetition at h
  split_ifs at h
  · cases h
    exact .list (by simp)
  · cases h
    refine .list fun item hitem => ?_
    dsimp only at hitem
    rw [toList_fill_empty] at hitem
    obtain ⟨copy, hcopy, hitem⟩ := List.mem_flatten.mp hitem
    rw [(List.mem_replicate.mp hcopy).2] at hitem
    exact hitems.items item hitem
  · cases h

lemma BinaryOp.applyRepetition?_livesIn {lhs rhs v : Value} {outcome : Except Cause Value}
    (hl : lhs.LivesIn census) (hr : rhs.LivesIn census) (h : applyRepetition? lhs rhs = some outcome)
    (hv : outcome = .ok v) : v.LivesIn census := by
  unfold applyRepetition? at h
  split at h
  · obtain ⟨i, -, rfl⟩ := Option.map_eq_some_iff.mp h
    exact (Operator.repeatText_plain _ _).livesIn hv
  · obtain ⟨i, -, rfl⟩ := Option.map_eq_some_iff.mp h
    exact (Operator.repeatText_plain _ _).livesIn hv
  · obtain ⟨i, -, rfl⟩ := Option.map_eq_some_iff.mp h
    exact Operator.repeatList_livesIn hl hv
  · obtain ⟨i, -, rfl⟩ := Option.map_eq_some_iff.mp h
    exact Operator.repeatList_livesIn hr hv
  · cases h

/-- Lists are joined and repeated from the items that there are; all else that operators give is data. -/
lemma BinaryOp.apply_livesIn {op : BinaryOp} {lhs rhs v : Value} (hl : lhs.LivesIn census)
    (hr : rhs.LivesIn census) (h : op.apply lhs rhs = .ok v) : v.LivesIn census := by
  unfold apply at h
  split at h
  · cases h
    exact .str _
  · cases h
    refine .list fun item hitem => ?_
    rcases List.mem_append.mp hitem with hitem | hitem
    · exact hl.items item hitem
    · exact hr.items item hitem
  · cases hrepetition : applyRepetition? lhs rhs with
    | none =>
      rw [hrepetition] at h
      exact (applyNumeric_plain _ _ _).livesIn h
    | some outcome =>
      rw [hrepetition] at h
      exact applyRepetition?_livesIn hl hr hrepetition h
  · exact (applyNumeric_plain _ _ _).livesIn h

lemma UnaryOp.apply_livesIn {op : UnaryOp} {operand v : Value} (h : op.apply operand = .ok v) :
    v.LivesIn census :=
  (op.apply_plain operand).livesIn h

lemma Expr.evalItems_keeps {items : List Expr}
    (hitems : ∀ item ∈ items, ∀ {census}, (item.eval engine).Keeps census fun later v => v.LivesIn later) :
    (Expr.evalItems engine items).Keeps census fun later values => ∀ v ∈ values, v.LivesIn later := by
  induction items generalizing census with
  | nil =>
    rw [evalItems]
    exact keeps_pure (by simp)
  | cons item items ih =>
    rw [List.forall_mem_cons] at hitems
    rw [evalItems]
    exact hitems.1.bind fun _ hvalue => (ih hitems.2).bind fun hlater hvalues =>
      keeps_pure (List.forall_mem_cons.mpr ⟨hvalue.mono hlater, hvalues⟩)

lemma Expr.evalKwargs_keeps {kwargs : List (String × Expr)}
    (hkwargs : ∀ kwarg ∈ kwargs, ∀ {census}, (kwarg.2.eval engine).Keeps census fun later v => v.LivesIn later) :
    (Expr.evalKwargs engine kwargs).Keeps census
      fun later values => ∀ kwarg ∈ values, kwarg.2.LivesIn later := by
  induction kwargs generalizing census with
  | nil =>
    rw [evalKwargs]
    exact keeps_pure (by simp)
  | cons kwarg kwargs ih =>
    rw [List.forall_mem_cons] at hkwargs
    rw [evalKwargs]
    exact hkwargs.1.bind fun _ hvalue => (ih hkwargs.2).bind fun hlater hvalues =>
      keeps_pure (List.forall_mem_cons.mpr ⟨hvalue.mono hlater, hvalues⟩)

lemma Expr.eval_keeps (hengine : engine.Settles) (e : Expr) :
    (e.eval engine).Keeps census fun later v => v.LivesIn later := by
  induction e generalizing census with
  | constant c =>
    rw [eval]
    exact keeps_pure (.of_plain c.value_plain)
  | name ident =>
    rw [eval]
    exact lookup_keeps ident
  | list items ih =>
    rw [eval]
    exact (evalItems_keeps ih).bind fun _ hvalues => keeps_pure (.list hvalues)
  | binary op lhs rhs ihl ihr =>
    rw [eval]
    exact ihl.bind fun _ ha => ihr.bind fun hlater hb =>
      keeps_ofExcept fun _ => BinaryOp.apply_livesIn (ha.mono hlater) hb
  | unary op operand ih =>
    rw [eval]
    exact ih.bind fun _ _ => keeps_ofExcept fun _ => UnaryOp.apply_livesIn
  | call callee args kwargs ihc iha ihk =>
    rw [eval]
    refine ihc.bind fun _ hf => (evalItems_keeps iha).bind fun hlater hargs =>
      (evalKwargs_keeps ihk).bind fun hlast hkwargs => ?_
    exact Value.call_keeps hengine (hf.mono (hlater.trans hlast))
      (fun arg harg => (hargs arg harg).mono hlast) hkwargs

/-- The text comes from a method of the class, which is given the object. -/
lemma Value.textBy_keeps (hengine : engine.Settles) (method : String) {id : Nat} {cls : Class}
    (hobject : (Value.object id cls).LivesIn census) {otherwise : Run String}
    (hotherwise : otherwise.Keeps census fun _ _ => True) :
    (Value.textBy engine method (.object id cls) cls otherwise).Keeps census fun _ _ => True := by
  unfold textBy
  cases hfound : Table.get? method cls.methods with
  | none => exact hotherwise
  | some callee =>
    have hcallee := hobject.ofClass.methods _ (Table.mem_of_get? hfound)
    refine (call_keeps hengine hcallee (by simpa using hobject) (by simp)).bind fun {later result} _ _ => ?_
    cases result with
    | str s => exact keeps_pure trivial
    | _ => exact keeps_throw _

lemma Value.reprItems_keeps {items : List Value}
    (hitems : ∀ item ∈ items, ∀ {later}, census <+: later → (item.repr engine).Keeps later fun _ _ => True) :
    (Value.reprItems engine items).Keeps census fun _ _ => True := by
  induction items generalizing census with
  | nil =>
    rw [reprItems]
    exact keeps_pure trivial
  | cons item items ih =>
    rw [List.forall_mem_cons] at hitems
    rw [reprItems]
    refine (hitems.1 List.prefix_rfl).bind fun hlater _ => (ih fun item hitem => ?_).bind fun _ _ =>
      keeps_pure trivial
    exact fun hlast => hitems.2 item hitem (hlater.trans hlast)

lemma Value.repr_keeps (hengine : engine.Settles) {value : Value} (hvalue : value.LivesIn census) :
    (value.repr engine).Keeps census fun _ _ => True := by
  induction value generalizing census with
  | list items ih =>
    rw [repr]
    refine (reprItems_keeps fun item hitem => ?_).bind fun _ _ => keeps_pure trivial
    exact fun hlater => ih item hitem ((hvalue.items item hitem).mono hlater)
  | object id cls =>
    rw [repr]
    exact textBy_keeps hengine _ hvalue (keeps_pure trivial)
  | _ =>
    rw [repr]
    exact keeps_pure trivial

lemma Value.toStr_keeps (hengine : engine.Settles) {value : Value} (hvalue : value.LivesIn census) :
    (value.toStr engine).Keeps census fun _ _ => True := by
  cases value with
  | str s =>
    rw [toStr]
    exact keeps_pure trivial
  | object id cls =>
    rw [toStr]
    exact textBy_keeps hengine _ hvalue (repr_keeps hengine hvalue)
  | _ =>
    rw [toStr]
    · exact repr_keeps hengine hvalue
    · simp
    · simp

lemma puts_keeps (hengine : engine.Settles) {values : List Value} (hvalues : ∀ v ∈ values, v.LivesIn census) :
    (puts engine values).Keeps census fun later v => v.LivesIn later := by
  induction values generalizing census with
  | nil => exact keeps_pure .none
  | cons value values ih =>
    rw [List.forall_mem_cons] at hvalues
    rw [puts]
    exact (Value.toStr_keeps hengine hvalues.1).bind fun hlater _ => (printLine_keeps _).bind fun hlast _ =>
      ih fun v hv => (hvalues.2 v hv).mono (hlater.trans hlast)

end Evaluation

section Execution

variable {engine : Engine} {census : Census}

lemma Run.repeatWhile_keeps {turn : Run Bool} (h : ∀ {census}, turn.Keeps census fun _ _ => True) (n : Nat) :
    (Run.repeatWhile n turn).Keeps census fun _ _ => True := by
  induction n generalizing census with
  | zero => exact keeps_throw _
  | succ n ih =>
    rw [repeatWhile]
    refine h.bind fun {later again} _ _ => ?_
    cases again with
    | true => exact ih
    | false => exact keeps_pure trivial

lemma Run.turn_keeps (hengine : engine.Settles) (condition : Expr) {body : List Stmt}
    (hbody : ∀ {census}, (Stmt.execBlock engine body).Keeps census fun _ _ => True) :
    (Run.turn engine condition body).Keeps census fun _ _ => True := by
  refine (condition.eval_keeps hengine).bind fun _ _ => ?_
  split
  · exact hbody.bind fun _ _ => keeps_pure trivial
  · exact keeps_pure trivial

lemma Run.moveTo_keeps (position : Position) : (moveTo position).Keeps census fun _ _ => True := by
  refine keeps_modify (fun m hm => ?_) trivial
  exact hm.congr rfl rfl rfl

lemma Run.moveToLine_keeps (line : UInt32) : (moveToLine line).Keeps census fun _ _ => True := by
  refine keeps_modify (fun m hm => ?_) trivial
  exact hm.congr rfl rfl rfl

lemma Stmt.execBlock_keeps {block : List Stmt}
    (h : ∀ stmt ∈ block, ∀ {census}, (stmt.exec engine).Keeps census fun _ _ => True) :
    (Stmt.execBlock engine block).Keeps census fun _ _ => True := by
  induction block generalizing census with
  | nil =>
    rw [execBlock]
    exact keeps_pure trivial
  | cons stmt block ih =>
    rw [List.forall_mem_cons] at h
    rw [execBlock]
    exact (moveToLine_keeps stmt.line).bind fun _ _ => h.1.bind fun _ _ => ih h.2

lemma Stmt.exec_keeps (hengine : engine.Settles) (stmt : Stmt) :
    (stmt.exec engine).Keeps census fun _ _ => True := by
  induction stmt generalizing census with
  | assign line target value =>
    rw [exec]
    exact (value.eval_keeps hengine).bind fun _ hv => assign_keeps target hv
  | expression line value =>
    rw [exec]
    exact (value.eval_keeps hengine).bind fun _ _ => keeps_pure trivial
  | branch line condition thenBlock elseBlock iht ihe =>
    rw [exec]
    refine (condition.eval_keeps hengine).bind fun _ _ => ?_
    split
    · exact execBlock_keeps iht
    · exact execBlock_keeps ihe
  | loop line condition body ih =>
    rw [exec]
    exact repeatWhile_keeps (turn_keeps hengine condition (execBlock_keeps ih)) _
  | pass line =>
    rw [exec]
    exact keeps_pure trivial

lemma Stmt.block_keeps (hengine : engine.Settles) (block : List Stmt) :
    (Stmt.execBlock engine block).Keeps census fun _ _ => True :=
  execBlock_keeps fun stmt _ => stmt.exec_keeps hengine

lemma Code.exec_keeps (hengine : engine.Settles) (code : Code) :
    (code.exec engine).Keeps census fun _ _ => True := by
  have hposition : ∀ {census}, Run.position.Keeps census fun _ _ => True :=
    keeps_get.bind fun _ _ => keeps_pure trivial
  refine hposition.bind fun _ _ => (moveTo_keeps _).bind fun _ _ =>
    (Stmt.block_keeps hengine code.body).attempt.bind fun {_ result} _ _ => hposition.bind fun _ _ =>
      (moveTo_keeps _).bind fun _ _ => ?_
  cases result with
  | ok _ => exact keeps_pure trivial
  | error e => exact keeps_throw _

end Execution

section Imports

variable {engine : Engine} {census : Census}

lemma Namespace.covers_named (name : String) : census.Covers (Namespace.named name).values := by
  have hset : Namespace.empty.set "__name__" (.str name) = .ok (.named name) := rfl
  refine Namespace.values_set hset ?_ (.str name)
  rintro v ⟨other, hother⟩
  rw [Namespace.get?_empty] at hother
  cases hother

lemma Initializer.run_keeps (hengine : engine.Settles) (init : Initializer) {bindings : Namespace}
    (hbindings : census.Covers bindings.values) :
    (init.run engine bindings).Keeps census fun later filled => later.Covers filled.values := by
  cases init with
  | traceback =>
    rw [Initializer.run]
    have hhook : (modify ({ · with hook := some .traceback }) : Run PUnit).Keeps census fun _ _ => True := by
      refine keeps_modify (fun m hm => ?_) trivial
      exact hm.congr rfl rfl rfl
    refine hhook.bind fun hlater _ => keeps_ofExcept fun filled hset => ?_
    exact Namespace.values_set hset (hbindings.mono hlater) (.str _)
  | foreign symbol =>
    rw [Initializer.run]
    exact hengine.initializer symbol hbindings

/-- What is kept besides the new module was kept before. -/
lemma Machine.mem_values_keep {m : Machine} {name : String} {mod : Module} {v : Value}
    (h : v ∈ (m.keep name mod).values) : v = .module mod ∨ v ∈ m.values := by
  rcases h with hglobal | ⟨entry, hentry, rfl⟩
  · exact .inr (.inl hglobal)
  · rcases Table.mem_insert hentry with rfl | hentry
    · exact .inl rfl
    · exact .inr (.inr ⟨entry, hentry, rfl⟩)

/-- A new module gets its number when all it holds is there already, and so is everything else that the
state holds then. -/
lemma importModule_new (hengine : engine.Settles) {name : String} {m m' : Machine} {mod : Module}
    (hm : m.Settled census) (hnew : Table.get? name m.modules.loaded = none)
    (h : importModule engine name m = .ok mod m') :
    ∃ later : Census, census <+: later ∧ mod.id = later.length ∧
      later.Covers {v | ∃ binding ∈ mod.bindings, v = binding.2} ∧
      later.Covers (m'.values \ {.module mod}) ∧ m'.Settled (later ++ [.module mod]) := by
  rw [importModule_run, hnew] at h
  cases hfound : Table.get? name m.modules.initializers with
  | none =>
    rw [hfound] at h
    cases h
  | some init =>
    rw [hfound] at h
    dsimp only at h
    cases hfill : init.run engine (.named name) m with
    | error stop m₁ =>
      rw [hfill] at h
      cases h
    | ok filled m₁ =>
      rw [hfill] at h
      cases h
      obtain ⟨later, hlater, hm₁, hfilled⟩ := (init.run_keeps hengine (Namespace.covers_named name)).ok hm hfill
      have hbindings : later.Covers {v | ∃ binding ∈ filled.toList, v = binding.2} := by
        rintro v ⟨binding, hbinding, rfl⟩
        exact hfilled binding.2 ⟨binding.1, Std.TreeMap.mem_toList_iff_getElem?_eq_some.mp hbinding⟩
      refine ⟨later, hlater, hm₁.count, hbindings, ?_, ?_, ?_⟩
      · rintro v ⟨hv, hother⟩
        exact hm₁.values v ((Machine.mem_values_keep hv).resolve_left hother)
      · simp [Machine.keep, hm₁.count]
      · intro v hv
        have hlast : later <+: later ++ [.module ⟨m₁.nextId, name, filled.toList⟩] := List.prefix_append _ _
        rcases Machine.mem_values_keep hv with rfl | hv
        · exact .module (by simp [hm₁.count])
            fun binding hbinding => (hbindings binding.2 ⟨binding, hbinding, rfl⟩).mono hlast
        · exact (hm₁.values v hv).mono hlast

lemma importModule_keeps (hengine : engine.Settles) (name : String) :
    (importModule engine name).Keeps census fun later mod => (Value.module mod).LivesIn later := by
  constructor
  · intro m mod m' hm hrun
    cases hloaded : Table.get? name m.modules.loaded with
    | some known =>
      rw [importModule_run, hloaded] at hrun
      cases hrun
      exact ⟨census, List.prefix_rfl, hm, hm.values _ (.inr ⟨_, Table.mem_of_get? hloaded, rfl⟩)⟩
    | none =>
      obtain ⟨later, hlater, hid, hbindings, -, hm'⟩ := importModule_new hengine hm hloaded hrun
      have hlast : later <+: later ++ [.module mod] := List.prefix_append _ _
      refine ⟨_, hlater.trans hlast, hm', .module (by simp [hid]) fun binding hbinding => ?_⟩
      exact (hbindings binding.2 ⟨binding, hbinding, rfl⟩).mono hlast
  · intro m stop m' hm hrun
    rw [importModule_run] at hrun
    split at hrun
    · cases hrun
    · cases hrun
      exact ⟨census, List.prefix_rfl, hm⟩
    · next init _ _ =>
      split at hrun
      · cases hrun
      · next hfill =>
        cases hrun
        exact (init.run_keeps hengine (Namespace.covers_named name)).error hm hfill

end Imports

section Hosts

/-- The values that host code names in a request. -/
def Request.mentions : Request → Set Value
  | .assign _ value => {value}
  | .newClass _ methods => {v | ∃ method ∈ methods, v = method.2}
  | .call callee args kwargs => {v | v = callee ∨ v ∈ args ∨ ∃ kwarg ∈ kwargs, v = kwarg.2}
  | .str value => {value}
  | .repr value => {value}
  | _ => ∅

/-- The values that an answer brings. -/
def Request.tells : (request : Request) → request.Answer → Set Value
  | .globals, ns => Namespace.values ns
  | .newClass _ _, cls => {v | v = cls}
  | .call _ _ _, outcome => {v | outcome = Except.ok v}
  | .importModule _, outcome => {v | ∃ mod, outcome = Except.ok mod ∧ v = .module mod}
  | _, _ => ∅

/-- Host code that makes up nothing: whatever it names it has been given, or has it from an earlier answer. -/
inductive HostCode.Honest {α : Type} (tells : α → Set Value) : Set Value → HostCode α → Prop
  | done {pool result} (h : ∀ v ∈ tells result, v.From pool) : Honest tells pool (.done result)
  | ask {pool request resume} (hmentions : ∀ v ∈ request.mentions, v.From pool)
      (hresume : ∀ answer, Honest tells (pool ∪ request.tells answer) (resume answer)) :
    Honest tells pool (.ask request resume)

/-- All code of the host is honest. Builtins are given their arguments, and initializers the namespace that
they fill. -/
structure Host.Honest (host : Host) : Prop where
  native : ∀ symbol args kwargs, (ExceptT.run (host.native symbol args kwargs)).Honest
    (fun outcome => {v | outcome = .ok v}) {v | v ∈ args ∨ ∃ kwarg ∈ kwargs, v = kwarg.2}
  initializer : ∀ symbol bindings, (ExceptT.run (host.initializer symbol bindings)).Honest
    (fun outcome => {v | ∃ filled, outcome = .ok filled ∧ v ∈ filled.values}) bindings.values
  hook : ∀ symbol e, (host.hook symbol e).Honest (fun _ => ∅) ∅

variable {engine : Engine} {census : Census}

lemma Run.newClass_keeps (name : String) {methods : List (String × Value)}
    (hmethods : ∀ method ∈ methods, method.2.LivesIn census) :
    (newClass name methods).Keeps census fun later v => v.LivesIn later := by
  refine (newId_keeps (.type ⟨census.length, name, Table.ofList methods⟩)).bind fun {later id} hlater hid => ?_
  obtain ⟨rfl, rfl⟩ := hid
  refine keeps_pure (.type (by simp) fun method hmethod => ?_)
  exact (hmethods method (Table.mem_ofList hmethod)).mono hlater

lemma Request.answer_keeps (hengine : engine.Settles) {request : Request}
    (hmentions : census.Covers request.mentions) :
    (request.answer engine).Keeps census fun later answer => later.Covers (request.tells answer) := by
  cases request with
  | globals =>
    exact keeps_get.bind fun {later m} _ hm => keeps_pure fun v hv => hm.values v (.inl hv)
  | assign name value => exact (assign_keeps name (hmentions _ rfl)).attempt.imp fun _ => .empty
  | freeze =>
    refine keeps_modify (fun m hm => ?_) .empty
    exact hm.congr rfl rfl rfl
  | protect name =>
    refine keeps_modify (fun m hm => ?_) .empty
    exact hm.congr rfl rfl rfl
  | position => exact keeps_get.bind fun _ _ => keeps_pure .empty
  | write channel text => exact (write_keeps channel text).imp fun _ => .empty
  | newClass name methods =>
    refine (newClass_keeps name fun method hmethod => ?_).imp fun h v hv => hv ▸ h
    exact hmentions _ ⟨method, hmethod, rfl⟩
  | call callee args kwargs =>
    refine (Value.call_keeps hengine ?_ (fun arg harg => ?_) fun kwarg hkwarg => ?_).attempt
    · exact hmentions _ (.inl rfl)
    · exact hmentions _ (.inr (.inl harg))
    · exact hmentions _ (.inr (.inr ⟨kwarg, hkwarg, rfl⟩))
  | str value => exact (Value.toStr_keeps hengine (hmentions _ rfl)).attempt.imp fun _ => .empty
  | repr value => exact (Value.repr_keeps hengine (hmentions _ rfl)).attempt.imp fun _ => .empty
  | importModule name =>
    refine (importModule_keeps hengine name).attempt.imp fun h v hv => ?_
    obtain ⟨mod, hmod, rfl⟩ := hv
    exact h mod hmod
  | exec code => exact (code.exec_keeps hengine).attempt.imp fun _ => .empty
  | setHook hook =>
    refine keeps_modify (fun m hm => ?_) .empty
    exact hm.congr rfl rfl rfl

/-- By induction on the dialogue: each answer adds to what the host code has in hand. -/
lemma HostCode.run_keeps {α : Type} (hengine : engine.Settles) {tells : α → Set Value} {pool : Set Value}
    {code : HostCode α} (hcode : code.Honest tells pool) (hpool : census.Covers pool) :
    (code.run engine).Keeps census fun later result => later.Covers (tells result) := by
  induction hcode generalizing census with
  | done h => exact keeps_pure fun v hv => hpool.livesIn (h v hv)
  | ask hmentions _ ih =>
    refine (Request.answer_keeps hengine fun v hv => hpool.livesIn (hmentions v hv)).bind fun hlater htells => ?_
    exact ih _ ((hpool.mono hlater).union htells)

lemma HostAction.run_keeps {α : Type} (hengine : engine.Settles) {tells : Except Exception α → Set Value}
    {pool : Set Value} {action : HostAction α} (haction : (ExceptT.run action).Honest tells pool)
    (hpool : census.Covers pool) :
    (action.run engine).Keeps census fun later a => later.Covers (tells (.ok a)) :=
  (HostCode.run_keeps hengine haction hpool).bind fun _ htells => keeps_ofAttempt fun _ ha => ha ▸ htells

/-- By induction on the fuel: honest code that calls back finds an engine that hands out what lives. -/
lemma Host.Honest.engine_settles {host : Host} (h : host.Honest) (fuel : Nat) : (host.engine fuel).Settles := by
  induction fuel with
  | zero => exact ⟨fun _ _ _ => keeps_throw _, fun _ _ => keeps_throw _, fun _ _ => keeps_throw _⟩
  | succ fuel ih =>
    constructor
    · intro census args kwargs entry hargs hkwargs
      cases entry with
      | puts => exact puts_keeps ih hargs
      | foreign symbol =>
        refine (HostAction.run_keeps ih (h.native symbol args kwargs) ?_).imp fun hv => hv _ rfl
        rintro v (hv | ⟨kwarg, hkwarg, rfl⟩)
        · exact hargs v hv
        · exact hkwargs kwarg hkwarg
    · intro census bindings symbol hbindings
      refine (HostAction.run_keeps ih (h.initializer symbol bindings) hbindings).imp fun hfilled v hv => ?_
      exact hfilled v ⟨_, rfl, hv⟩
    · intro census symbol e
      exact (HostCode.run_keeps ih (h.hook symbol e) .empty).imp fun _ => trivial

lemma Run.report_keeps (hengine : engine.Settles) (e : Exception) :
    (Run.report engine e).Keeps census fun _ _ => True := by
  refine keeps_get.bind fun {later m} _ _ => ?_
  cases m.hook with
  | none => exact (write_keeps _ _).bind fun _ _ => keeps_pure trivial
  | some hook =>
    cases hook with
    | traceback => exact (write_keeps _ _).bind fun _ _ => keeps_pure trivial
    | foreign symbol => exact hengine.hook symbol e

lemma Program.body_keeps (hengine : engine.Settles) (program : Program) :
    (do
      assign "__name__" (.str "__main__")
      program.code.exec engine : Run Unit).Keeps census fun _ _ => True :=
  (assign_keeps _ (.str _)).bind fun _ _ => program.code.exec_keeps hengine

lemma Program.run_keeps (hengine : engine.Settles) (program : Program) :
    (program.run engine).Keeps census fun _ _ => True := by
  refine (program.body_keeps hengine).attempt.bind fun {later result} _ _ => ?_
  cases result with
  | ok _ => exact keeps_pure trivial
  | error e =>
    dsimp only
    split_ifs
    · exact keeps_pure trivial
    · exact (report_keeps hengine e).bind fun _ _ => keeps_pure trivial

end Hosts

end SealedScript
