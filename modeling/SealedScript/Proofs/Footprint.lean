import SealedScript.Proofs.Machine.Fuel

/-! Code without calls reads and writes only the names that it mentions. Two runs that agree on these names
go in lock step to the same end, and nothing else of either state has changed there. -/

namespace SealedScript

open Run

section Mentions

mutual

/-- No call stands in the expression. -/
def Expr.callFree : Expr → Bool
  | .constant _ => true
  | .name _ => true
  | .list items => itemsCallFree items
  | .binary _ lhs rhs => lhs.callFree && rhs.callFree
  | .unary _ operand => operand.callFree
  | .call _ _ _ => false

def Expr.itemsCallFree : List Expr → Bool
  | [] => true
  | item :: rest => item.callFree && itemsCallFree rest

end

mutual

/-- The names that an expression looks up. -/
def Expr.reads : Expr → List String
  | .constant _ => []
  | .name ident => [ident]
  | .list items => itemReads items
  | .binary _ lhs rhs => lhs.reads ++ rhs.reads
  | .unary _ operand => operand.reads
  | .call callee args kwargs => callee.reads ++ itemReads args ++ kwargReads kwargs

def Expr.itemReads : List Expr → List String
  | [] => []
  | item :: rest => item.reads ++ itemReads rest

def Expr.kwargReads : List (String × Expr) → List String
  | [] => []
  | (_, value) :: rest => value.reads ++ kwargReads rest

end

mutual

def Stmt.callFree : Stmt → Bool
  | .assign _ _ value => value.callFree
  | .expression _ value => value.callFree
  | .branch _ condition thenBlock elseBlock =>
    condition.callFree && blockCallFree thenBlock && blockCallFree elseBlock
  | .loop _ condition body => condition.callFree && blockCallFree body
  | .pass _ => true

def Stmt.blockCallFree : List Stmt → Bool
  | [] => true
  | stmt :: rest => stmt.callFree && blockCallFree rest

end

mutual

def Stmt.reads : Stmt → List String
  | .assign _ _ value => value.reads
  | .expression _ value => value.reads
  | .branch _ condition thenBlock elseBlock =>
    condition.reads ++ blockReads thenBlock ++ blockReads elseBlock
  | .loop _ condition body => condition.reads ++ blockReads body
  | .pass _ => []

def Stmt.blockReads : List Stmt → List String
  | [] => []
  | stmt :: rest => stmt.reads ++ blockReads rest

end

mutual

/-- The names that a statement binds. -/
def Stmt.targets : Stmt → List String
  | .assign _ target _ => [target]
  | .expression _ _ => []
  | .branch _ _ thenBlock elseBlock => blockTargets thenBlock ++ blockTargets elseBlock
  | .loop _ _ body => blockTargets body
  | .pass _ => []

def Stmt.blockTargets : List Stmt → List String
  | [] => []
  | stmt :: rest => stmt.targets ++ blockTargets rest

end

def Code.callFree (code : Code) : Bool :=
  Stmt.blockCallFree code.body

def Code.reads (code : Code) : List String :=
  Stmt.blockReads code.body

def Code.targets (code : Code) : List String :=
  Stmt.blockTargets code.body

/-- The statement has no calls and mentions no other names. -/
structure Stmt.Confined (reads targets : List String) (stmt : Stmt) : Prop where
  callFree : stmt.callFree = true
  reads : stmt.reads ⊆ reads
  targets : stmt.targets ⊆ targets

lemma Stmt.confined_of_block {reads targets : List String} {block : List Stmt}
    (hfree : blockCallFree block = true) (hreads : blockReads block ⊆ reads)
    (htargets : blockTargets block ⊆ targets) : ∀ stmt ∈ block, stmt.Confined reads targets := by
  induction block with
  | nil => simp
  | cons stmt block ih =>
    rw [blockCallFree, Bool.and_eq_true] at hfree
    rw [blockReads, List.append_subset] at hreads
    rw [blockTargets, List.append_subset] at htargets
    rw [List.forall_mem_cons]
    exact ⟨⟨hfree.1, hreads.1, htargets.1⟩, ih hfree.2 hreads.2 htargets.2⟩

end Mentions

section Evaluation

variable {α β : Type}

lemma Run.bind_eq_ofExcept {step : Run α} {next : α → Run β} {m : Machine} {x : Except Cause α}
    {f : α → Except Cause β} (hstep : step m = ofExcept x m) (hnext : ∀ a, next a m = ofExcept (f a) m) :
    (step >>= next) m = ofExcept (x >>= f) m := by
  cases x with
  | ok a =>
    rw [bind_of_ok hstep]
    exact hnext a
  | error cause => exact bind_of_error hstep

lemma Expr.evalItems_of_callFree {items : List Expr} {bindings : String → Option Value}
    (hitems : ∀ item ∈ items, item.callFree = true → ∃ outcome, ∀ engine m,
      (∀ name ∈ item.reads, m.globals.get? name = bindings name) → item.eval engine m = ofExcept outcome m)
    (hfree : itemsCallFree items = true) :
    ∃ outcome, ∀ engine m, (∀ name ∈ itemReads items, m.globals.get? name = bindings name) →
      evalItems engine items m = ofExcept outcome m := by
  induction items with
  | nil =>
    refine ⟨.ok [], fun engine m _ => ?_⟩
    rw [evalItems]
    rfl
  | cons item items ih =>
    rw [List.forall_mem_cons] at hitems
    rw [itemsCallFree, Bool.and_eq_true] at hfree
    obtain ⟨first, hfirst⟩ := hitems.1 hfree.1
    obtain ⟨others, hothers⟩ := ih hitems.2 hfree.2
    refine ⟨first >>= fun value => others >>= fun values => .ok (value :: values), fun engine m h => ?_⟩
    simp only [itemReads, List.forall_mem_append] at h
    rw [evalItems]
    exact bind_eq_ofExcept (hfirst engine m h.1) fun value =>
      bind_eq_ofExcept (hothers engine m h.2) fun values => rfl

/-- A call-free expression has one outcome for each choice of values of the names it looks up, whatever the
rest of the state and the engine, and leaves the state as it is. -/
lemma Expr.eval_of_callFree (bindings : String → Option Value) {e : Expr} (hfree : e.callFree = true) :
    ∃ outcome, ∀ engine m, (∀ name ∈ e.reads, m.globals.get? name = bindings name) →
      e.eval engine m = ofExcept outcome m := by
  induction e with
  | constant c =>
    refine ⟨.ok c.value, fun engine m _ => ?_⟩
    rw [eval]
    rfl
  | name ident =>
    cases hbound : bindings ident with
    | some value =>
      refine ⟨.ok value, fun engine m h => ?_⟩
      rw [eval]
      exact lookup_of_get? ((h ident (by simp [reads])).trans hbound)
    | none =>
      refine ⟨.error (.unbound ident), fun engine m h => ?_⟩
      rw [eval]
      exact lookup_of_get?_none ((h ident (by simp [reads])).trans hbound)
  | list items ih =>
    rw [callFree] at hfree
    obtain ⟨values, hvalues⟩ := evalItems_of_callFree ih hfree
    refine ⟨values >>= fun values => .ok (.list values), fun engine m h => ?_⟩
    rw [eval]
    exact bind_eq_ofExcept (hvalues engine m h) fun values => rfl
  | binary op lhs rhs ihl ihr =>
    rw [callFree, Bool.and_eq_true] at hfree
    obtain ⟨left, hleft⟩ := ihl hfree.1
    obtain ⟨right, hright⟩ := ihr hfree.2
    refine ⟨left >>= fun a => right >>= fun b => op.apply a b, fun engine m h => ?_⟩
    simp only [reads, List.forall_mem_append] at h
    rw [eval]
    exact bind_eq_ofExcept (hleft engine m h.1) fun a =>
      bind_eq_ofExcept (hright engine m h.2) fun b => rfl
  | unary op operand ih =>
    obtain ⟨value, hvalue⟩ := ih hfree
    refine ⟨value >>= fun a => op.apply a, fun engine m h => ?_⟩
    rw [eval]
    exact bind_eq_ofExcept (hvalue engine m h) fun a => rfl
  | call => cases hfree

end Evaluation

namespace Run

variable {α β : Type} {I : Machine → Machine → Prop} {step : Run α}

/-- From either state the step ends in the same way, and the relation holds between the ends. -/
inductive EndsAlike (I : Machine → Machine → Prop) (step : Run α) (m₁ m₂ : Machine) : Prop
  | ok {a m₁' m₂'} (h₁ : step m₁ = .ok a m₁') (h₂ : step m₂ = .ok a m₂') (h : I m₁' m₂')
  | error {stop m₁' m₂'} (h₁ : step m₁ = .error stop m₁') (h₂ : step m₂ = .error stop m₂') (h : I m₁' m₂')

/-- The step keeps the relation between the states of two runs. -/
structure Lockstep (I : Machine → Machine → Prop) (step : Run α) : Prop where
  alike : ∀ {m₁ m₂}, I m₁ m₂ → step.EndsAlike I m₁ m₂

lemma EndsAlike.bind {m₁ m₂ : Machine} (hstep : step.EndsAlike I m₁ m₂) {next : α → Run β}
    (hnext : ∀ a, (next a).Lockstep I) : (step >>= next).EndsAlike I m₁ m₂ := by
  cases hstep with
  | @ok a m₁' m₂' h₁ h₂ h =>
    cases (hnext a).alike h with
    | ok hnext₁ hnext₂ hend => exact .ok ((bind_of_ok h₁).trans hnext₁) ((bind_of_ok h₂).trans hnext₂) hend
    | error hnext₁ hnext₂ hend =>
      exact .error ((bind_of_ok h₁).trans hnext₁) ((bind_of_ok h₂).trans hnext₂) hend
  | error h₁ h₂ h => exact .error (bind_of_error h₁) (bind_of_error h₂) h

lemma Lockstep.bind (hstep : step.Lockstep I) {next : α → Run β} (hnext : ∀ a, (next a).Lockstep I) :
    (step >>= next).Lockstep I :=
  ⟨fun h => (hstep.alike h).bind hnext⟩

/-- An end that is a result or an exception is the same from the other state. -/
lemma EndsAlike.attempt {m₁ m₂ m₁' : Machine} (h : step.EndsAlike I m₁ m₂) {outcome : Except Exception α}
    (h₁ : attempt step m₁ = .ok outcome m₁') : ∃ m₂', attempt step m₂ = .ok outcome m₂' ∧ I m₁' m₂' := by
  cases h with
  | ok hstep₁ hstep₂ h =>
    rw [attempt_of_ok hstep₁] at h₁
    cases h₁
    exact ⟨_, attempt_of_ok hstep₂, h⟩
  | @error stop _ _ hstep₁ hstep₂ h =>
    cases stop with
    | raised e =>
      rw [attempt_of_raised hstep₁] at h₁
      cases h₁
      exact ⟨_, attempt_of_raised hstep₂, h⟩
    | exhausted =>
      rw [attempt_of_exhausted hstep₁] at h₁
      cases h₁

lemma EndsAlike.exhausted {m₁ m₂ m₁' : Machine} (h : step.EndsAlike I m₁ m₂)
    (h₁ : step m₁ = .error .exhausted m₁') : ∃ m₂', step m₂ = .error .exhausted m₂' := by
  cases h with
  | ok hstep₁ _ _ =>
    rw [hstep₁] at h₁
    cases h₁
  | error hstep₁ hstep₂ _ =>
    rw [hstep₁] at h₁
    cases h₁
    exact ⟨_, hstep₂⟩

lemma lockstep_pure (a : α) : (pure a : Run α).Lockstep I :=
  ⟨fun h => .ok rfl rfl h⟩

/-- Both runs take the same number of turns, or none of them comes to an end. -/
lemma repeatWhile_lockstep {turn : Run Bool} (h : turn.Lockstep I) (n : Nat) :
    (repeatWhile n turn).Lockstep I := by
  induction n with
  | zero => exact ⟨fun h => .error rfl rfl h⟩
  | succ n ih =>
    rw [repeatWhile]
    refine h.bind fun again => ?_
    cases again with
    | true => exact ih
    | false => exact lockstep_pure ()

end Run

section Agreement

/-- The two tables have the same under the names that are read and those that are bound, and a write to one
of the latter succeeds in both or in none. -/
structure Namespace.AgreesOn (reads targets : List String) (ns₁ ns₂ : Namespace) : Prop where
  read : ∀ name ∈ reads, ns₁.get? name = ns₂.get? name
  bound : ∀ name ∈ targets, ns₁.get? name = ns₂.get? name
  frozen : ns₁.frozen = ns₂.frozen
  readOnly : ∀ name ∈ targets, name ∈ ns₁.readOnly ↔ name ∈ ns₂.readOnly

/-- Nothing has changed but the bindings of some names. -/
structure Machine.SameBut (targets : List String) (m m' : Machine) : Prop where
  globals : ∀ name ∉ targets, m'.globals.get? name = m.globals.get? name
  readOnly : m'.globals.readOnly = m.globals.readOnly
  frozen : m'.globals.frozen = m.globals.frozen
  modules : m'.modules = m.modules
  hook : m'.hook = m.hook
  stdout : m'.stdout = m.stdout
  stderr : m'.stderr = m.stderr
  nextId : m'.nextId = m.nextId

/-- Two runs that began in `start₁` and `start₂` have come to the same line, with the same bindings. -/
structure Machine.Abreast (reads targets : List String) (start₁ start₂ m₁ m₂ : Machine) : Prop where
  agrees : m₁.globals.AgreesOn reads targets m₂.globals
  line : m₁.position.line = m₂.position.line
  first : start₁.SameBut targets m₁
  second : start₂.SameBut targets m₂

variable {reads targets : List String}

lemma Namespace.agreesOn_refl (ns : Namespace) : ns.AgreesOn reads targets ns :=
  ⟨fun _ _ => rfl, fun _ _ => rfl, rfl, fun _ _ => Iff.rfl⟩

/-- A write to one of the names succeeds in both tables, which then agree again, or fails in both for the
same cause. -/
lemma Namespace.AgreesOn.set {ns₁ ns₂ : Namespace} (h : ns₁.AgreesOn reads targets ns₂) {name : String}
    (hname : name ∈ targets) (value : Value) :
    (∃ after₁ after₂, ns₁.set name value = .ok after₁ ∧ ns₂.set name value = .ok after₂ ∧
        after₁.AgreesOn reads targets after₂) ∨
      ∃ cause, ns₁.set name value = .error cause ∧ ns₂.set name value = .error cause := by
  by_cases hfrozen : ns₂.frozen = true
  · exact .inr ⟨.frozen name, by simp [Namespace.set, h.frozen, hfrozen], by simp [Namespace.set, hfrozen]⟩
  by_cases hclosed : name ∈ ns₂.readOnly
  · have hclosed₁ := (h.readOnly name hname).mpr hclosed
    exact .inr ⟨.readOnly name, by simp [Namespace.set, h.frozen, hfrozen, hclosed₁],
      by simp [Namespace.set, hfrozen, hclosed]⟩
  have hwritable₂ : ns₂.Writable name := ⟨by simpa using hfrozen, hclosed⟩
  have hwritable₁ : ns₁.Writable name :=
    ⟨h.frozen.trans hwritable₂.1, fun hclosed₁ => hclosed ((h.readOnly name hname).mp hclosed₁)⟩
  have hset₁ : ns₁.set name value = .ok _ := set_eq_ok_iff.mpr ⟨hwritable₁, rfl⟩
  have hset₂ : ns₂.set name value = .ok _ := set_eq_ok_iff.mpr ⟨hwritable₂, rfl⟩
  have hsame : ∀ other, ns₁.get? other = ns₂.get? other →
      (if other = name then some value else ns₁.get? other) =
        if other = name then some value else ns₂.get? other := by
    intro other hother
    rw [hother]
  refine .inl ⟨_, _, hset₁, hset₂, fun other hother => ?_, fun other hother => ?_, h.frozen, h.readOnly⟩
  · rw [get?_set hset₁, get?_set hset₂]
    exact hsame other (h.read other hother)
  · rw [get?_set hset₁, get?_set hset₂]
    exact hsame other (h.bound other hother)

lemma Machine.sameBut_refl (m : Machine) : m.SameBut targets m :=
  ⟨fun _ _ => rfl, rfl, rfl, rfl, rfl, rfl, rfl, rfl⟩

/-- The position does not count. -/
lemma Machine.SameBut.moved {start m : Machine} (h : start.SameBut targets m) (position : Position) :
    start.SameBut targets { m with position } :=
  ⟨h.globals, h.readOnly, h.frozen, h.modules, h.hook, h.stdout, h.stderr, h.nextId⟩

lemma Machine.SameBut.bound {start m : Machine} (h : start.SameBut targets m) {name : String}
    (hname : name ∈ targets) {value : Value} {globals : Namespace}
    (hset : m.globals.set name value = .ok globals) : start.SameBut targets { m with globals } := by
  obtain ⟨-, hglobals⟩ := Namespace.set_eq_ok_iff.mp hset
  refine ⟨fun other hother => ?_, ?_, ?_, h.modules, h.hook, h.stdout, h.stderr, h.nextId⟩
  · have hne : other ≠ name := by
      rintro rfl
      exact hother hname
    change globals.get? other = _
    rw [Namespace.get?_set hset, if_neg hne]
    exact h.globals other hother
  · rw [← h.readOnly, hglobals]
  · rw [← h.frozen, hglobals]

end Agreement

section Execution

variable {reads targets : List String} {start₁ start₂ : Machine} {engine : Engine}

lemma Run.assign_lockstep {name : String} (hname : name ∈ targets) (value : Value) :
    (assign name value).Lockstep (Machine.Abreast reads targets start₁ start₂) := by
  refine ⟨fun {m₁ m₂} h => ?_⟩
  rcases h.agrees.set hname value with ⟨after₁, after₂, hset₁, hset₂, hagrees⟩ | ⟨cause, hset₁, hset₂⟩
  · exact .ok (assign_of_set hset₁) (assign_of_set hset₂)
      ⟨hagrees, h.line, h.first.bound hname hset₁, h.second.bound hname hset₂⟩
  · exact .error (assign_of_set_error hset₁) (assign_of_set_error hset₂) h

/-- Wherever the two runs stand, they come to the same line. -/
lemma Run.moveToLine_endsAlike {m₁ m₂ : Machine} (hagrees : m₁.globals.AgreesOn reads targets m₂.globals)
    (hfirst : start₁.SameBut targets m₁) (hsecond : start₂.SameBut targets m₂) (line : UInt32) :
    (moveToLine line).EndsAlike (Machine.Abreast reads targets start₁ start₂) m₁ m₂ :=
  .ok rfl rfl ⟨hagrees, rfl, hfirst.moved _, hsecond.moved _⟩

lemma Run.moveToLine_lockstep (line : UInt32) :
    (moveToLine line).Lockstep (Machine.Abreast reads targets start₁ start₂) :=
  ⟨fun h => moveToLine_endsAlike h.agrees h.first h.second line⟩

lemma Expr.eval_lockstep {e : Expr} (hfree : e.callFree = true) (hreads : e.reads ⊆ reads) :
    (e.eval engine).Lockstep (Machine.Abreast reads targets start₁ start₂) := by
  refine ⟨fun {m₁ m₂} h => ?_⟩
  obtain ⟨outcome, heval⟩ := eval_of_callFree m₂.globals.get? hfree
  have heval₁ := heval engine m₁ fun name hname => h.agrees.read name (hreads hname)
  have heval₂ := heval engine m₂ fun _ _ => rfl
  cases outcome with
  | ok value => exact .ok heval₁ heval₂ h
  | error cause => exact .error heval₁ heval₂ h

lemma Run.turn_lockstep {condition : Expr} (hfree : condition.callFree = true)
    (hreads : condition.reads ⊆ reads) {body : List Stmt}
    (hbody : (Stmt.execBlock engine body).Lockstep (Machine.Abreast reads targets start₁ start₂)) :
    (Run.turn engine condition body).Lockstep (Machine.Abreast reads targets start₁ start₂) := by
  refine (Expr.eval_lockstep hfree hreads).bind fun v => ?_
  split
  · exact hbody.bind fun _ => lockstep_pure true
  · exact lockstep_pure false

lemma Stmt.execBlock_lockstep {block : List Stmt}
    (hblock : ∀ stmt ∈ block,
      (stmt.exec engine).Lockstep (Machine.Abreast reads targets start₁ start₂)) :
    (Stmt.execBlock engine block).Lockstep (Machine.Abreast reads targets start₁ start₂) := by
  induction block with
  | nil =>
    rw [execBlock]
    exact lockstep_pure ()
  | cons stmt block ih =>
    rw [List.forall_mem_cons] at hblock
    rw [execBlock]
    exact (moveToLine_lockstep stmt.line).bind fun _ => hblock.1.bind fun _ => ih hblock.2

/-- A call-free statement keeps two runs abreast, through every branch and turn and to every failure. -/
lemma Stmt.exec_lockstep {stmt : Stmt} (h : stmt.Confined reads targets) :
    (stmt.exec engine).Lockstep (Machine.Abreast reads targets start₁ start₂) := by
  induction stmt with
  | assign line target value =>
    have htarget : target ∈ targets := h.targets (by simp [Stmt.targets])
    rw [exec]
    exact (Expr.eval_lockstep h.callFree h.reads).bind fun v => assign_lockstep htarget v
  | expression line value =>
    rw [exec]
    exact (Expr.eval_lockstep h.callFree h.reads).bind fun _ => lockstep_pure ()
  | branch line condition thenBlock elseBlock iht ihe =>
    obtain ⟨hfree, hreads, htargets⟩ := h
    rw [callFree, Bool.and_eq_true, Bool.and_eq_true] at hfree
    rw [Stmt.reads, List.append_subset, List.append_subset] at hreads
    rw [Stmt.targets, List.append_subset] at htargets
    have hthen := confined_of_block hfree.1.2 hreads.1.2 htargets.1
    have helse := confined_of_block hfree.2 hreads.2 htargets.2
    rw [exec]
    refine (Expr.eval_lockstep hfree.1.1 hreads.1.1).bind fun v => ?_
    split
    · exact execBlock_lockstep fun stmt hstmt => iht stmt hstmt (hthen stmt hstmt)
    · exact execBlock_lockstep fun stmt hstmt => ihe stmt hstmt (helse stmt hstmt)
  | loop line condition body ih =>
    obtain ⟨hfree, hreads, htargets⟩ := h
    rw [callFree, Bool.and_eq_true] at hfree
    rw [Stmt.reads, List.append_subset] at hreads
    have hbody := confined_of_block hfree.2 hreads.2 htargets
    have hblock : (execBlock engine body).Lockstep (Machine.Abreast reads targets start₁ start₂) :=
      execBlock_lockstep fun stmt hstmt => ih stmt hstmt (hbody stmt hstmt)
    rw [exec]
    exact repeatWhile_lockstep (turn_lockstep hfree.1 hreads.1 hblock) _
  | pass line =>
    rw [exec]
    exact lockstep_pure ()

/-- The two runs have the same bindings of the code's names, and nothing else has changed in either. -/
structure Machine.Parallel (code : Code) (start₁ start₂ m₁ m₂ : Machine) : Prop where
  agrees : m₁.globals.AgreesOn code.reads code.targets m₂.globals
  first : start₁.SameBut code.targets m₁
  second : start₂.SameBut code.targets m₂

lemma Code.exec_endsAlike {code : Code} (hfree : code.callFree = true) {m₁ m₂ : Machine}
    (hagrees : m₁.globals.AgreesOn code.reads code.targets m₂.globals) (engine : Engine) :
    (code.exec engine).EndsAlike (Machine.Parallel code m₁ m₂) m₁ m₂ := by
  have hinside : ∀ m : Machine, m.SameBut code.targets (m.inside code) :=
    fun m => m.sameBut_refl.moved _
  cases hbody : code.body with
  | nil =>
    have hrun : ∀ m, code.exec engine m = .ok () { m.inside code with position := m.position } := by
      intro m
      rw [Code.exec_run, hbody, Stmt.execBlock]
      rfl
    exact .ok (hrun m₁) (hrun m₂) ⟨hagrees, (hinside m₁).moved _, (hinside m₂).moved _⟩
  | cons stmt rest =>
    have hconfined : ∀ stmt ∈ code.body, stmt.Confined code.reads code.targets :=
      Stmt.confined_of_block hfree (List.Subset.refl _) (List.Subset.refl _)
    rw [hbody, List.forall_mem_cons] at hconfined
    have hblock : (Stmt.execBlock engine code.body).EndsAlike
        (Machine.Abreast code.reads code.targets m₁ m₂) (m₁.inside code) (m₂.inside code) := by
      rw [hbody, Stmt.execBlock]
      -- the runs may begin at different lines, but the first statement puts both at its own
      have hagrees' : (m₁.inside code).globals.AgreesOn code.reads code.targets (m₂.inside code).globals :=
        hagrees
      refine (moveToLine_endsAlike hagrees' (hinside m₁) (hinside m₂) stmt.line).bind fun _ => ?_
      refine (Stmt.exec_lockstep hconfined.1).bind fun _ => ?_
      exact Stmt.execBlock_lockstep fun stmt hstmt => Stmt.exec_lockstep (hconfined.2 stmt hstmt)
    cases hblock with
    | ok h₁ h₂ h =>
      have hrun₁ := Code.exec_run engine code m₁
      have hrun₂ := Code.exec_run engine code m₂
      rw [h₁] at hrun₁
      rw [h₂] at hrun₂
      exact .ok hrun₁ hrun₂ ⟨h.agrees, h.first.moved _, h.second.moved _⟩
    | @error stop _ _ h₁ h₂ h =>
      have hrun₁ := Code.exec_run engine code m₁
      have hrun₂ := Code.exec_run engine code m₂
      rw [h₁] at hrun₁
      rw [h₂] at hrun₂
      cases stop with
      | raised e =>
        dsimp only at hrun₂
        rw [← h.line] at hrun₂
        exact .error hrun₁ hrun₂ ⟨h.agrees, h.first.moved _, h.second.moved _⟩
      | exhausted => exact .error hrun₁ hrun₂ ⟨h.agrees, h.first, h.second⟩

/-- Code without calls depends on the names that it mentions, and changes nothing but those it binds. From
two states that agree on them it goes on forever, or comes to the same end with the same trace, and there
they agree again. Wherever a run stands that is broken off for want of fuel, the rest of the state is as it
was. -/
theorem Code.exec_of_agreesOn (host : Host) {code : Code} (hfree : code.callFree = true) :
    (∀ m₁ m₂ : Machine, m₁.globals.AgreesOn code.reads code.targets m₂.globals →
      (code.Diverges host m₁ ∧ code.Diverges host m₂) ∨
        ∃ outcome m₁' m₂', code.Ends host m₁ outcome m₁' ∧ code.Ends host m₂ outcome m₂' ∧
          Machine.Parallel code m₁ m₂ m₁' m₂') ∧
    ∀ fuel m m', (code.exec (host.engine fuel)).EndsIn m m' → m.SameBut code.targets m' := by
  refine ⟨fun m₁ m₂ hagrees => ?_, fun fuel m m' hends => ?_⟩
  · have halike := fun fuel => exec_endsAlike hfree hagrees (host.engine fuel)
    rcases ends_or_diverges host code m₁ with ⟨outcome, m₁', enough, hends⟩ | hdiverges
    · obtain ⟨m₂', hends₂, hparallel⟩ := (halike enough).attempt (hends enough (Nat.le_refl enough))
      exact .inr ⟨outcome, m₁', m₂', ⟨enough, hends⟩, ends_of_attempt hends₂, hparallel⟩
    · refine .inl ⟨hdiverges, fun fuel => ?_⟩
      obtain ⟨m₁', hexhausted⟩ := hdiverges fuel
      exact (halike fuel).exhausted hexhausted
  · -- a run is abreast of itself
    cases exec_endsAlike hfree m.globals.agreesOn_refl (host.engine fuel) with
    | ok hrun _ h =>
      rcases hends with ⟨a, hend⟩ | ⟨stop, hend⟩ <;> rw [hrun] at hend <;> cases hend
      exact h.first
    | error hrun _ h =>
      rcases hends with ⟨a, hend⟩ | ⟨stop, hend⟩ <;> rw [hrun] at hend <;> cases hend
      exact h.first

/-- Counts `n` down to zero and then divides by it. -/
def countdown : Code :=
  ⟨"<module>", "c.rb",
    [.loop 1 (.name "n") [.assign 2 "n" (.binary .sub (.name "n") (.constant (.int 1)))],
      .expression 3 (.binary .div (.constant (.int 1)) (.name "n"))]⟩

/-- Two turns are left to count. -/
def counting : Machine :=
  let bindings := Namespace.empty.bindings.insert "n" (.int 2)
  { Machine.fresh .plain .plain .empty with globals := { Namespace.empty with bindings } }

/-- The same, but elsewhere, and with another name bound and closed. -/
def countingElsewhere : Machine :=
  let bindings := (Namespace.empty.bindings.insert "n" (.int 2)).insert "other" (.str "kept")
  { Machine.fresh .plain .plain .standard with
    globals := { Namespace.empty with bindings }.protect "other", position := ⟨"d.rb", 9, "d"⟩ }

/-- Both runs end in the same exception, at the same line, and the other name is as it was. -/
theorem exec_of_agreesOn_countdown :
    ∃ e m₁' m₂', countdown.Ends Host.none counting (.error e) m₁' ∧
      countdown.Ends Host.none countingElsewhere (.error e) m₂' ∧ e.trace = [⟨"c.rb", 3, "<module>"⟩] ∧
      m₁'.globals.get? "n" = m₂'.globals.get? "n" ∧ m₂'.globals.get? "other" = some (.str "kept") := by
  have hends : ((countdown.exec (Host.none.engine 3)).raised? counting).map (·.1.trace) =
      some [⟨"c.rb", 3, "<module>"⟩] := by
    decide +kernel
  obtain ⟨⟨e, m₁'⟩, hraised, htrace⟩ := Option.map_eq_some_iff.mp hends
  have hraises := Code.ends_of_attempt (attempt_of_raised (of_raised? hraised))
  have hbound : ∀ name ∈ ["n"], counting.globals.get? name = countingElsewhere.globals.get? name := by
    simp [counting, countingElsewhere, Namespace.get?, Namespace.protect, Std.TreeMap.getElem_insert]
  have hreads : ∀ name ∈ countdown.reads, name ∈ ["n"] := by decide +kernel
  have hopen : ∀ name ∈ ["n"], name ∈ counting.globals.readOnly ↔ name ∈ countingElsewhere.globals.readOnly := by
    decide +kernel
  have hagrees : counting.globals.AgreesOn countdown.reads countdown.targets countingElsewhere.globals :=
    ⟨fun name hname => hbound name (hreads name hname), hbound, rfl, hopen⟩
  rcases (Code.exec_of_agreesOn Host.none (by decide)).1 counting countingElsewhere hagrees with
    ⟨hdiverges, -⟩ | ⟨outcome, m, m₂', hends₁, hends₂, hparallel⟩
  · obtain ⟨m, hexhausted⟩ := hdiverges 3
    rw [of_raised? hraised] at hexhausted
    cases hexhausted
  · obtain ⟨rfl, rfl⟩ := hraises.unique hends₁
    refine ⟨e, m₁', m₂', hends₁, hends₂, htrace, hparallel.agrees.bound "n" (by decide +kernel), ?_⟩
    rw [hparallel.second.globals "other" (by decide +kernel)]
    simp [countingElsewhere, Namespace.get?, Namespace.protect]

end Execution

end SealedScript
