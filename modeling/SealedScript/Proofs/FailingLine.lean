import SealedScript.Proofs.Machine.Position
import SealedScript.Proofs.Machine.Visits

/-! The line that an exception's trace entry names. It is the line of the statement begun last. This is the
statement that raised, but for a loop whose condition fails after the body has been executed: then it is
the line of a statement in the body. -/

namespace SealedScript

open Run

namespace Stmt

/-- What a statement evaluates or binds by itself when its time comes; the blocks inside it are left out. -/
def own (engine : Engine) : Stmt → Run Unit
  | .assign _ target value => do Run.assign target (← value.eval engine)
  | .expression _ value => do
    let _ ← value.eval engine
  | .branch _ condition _ _ => do
    let _ ← condition.eval engine
  | .loop _ condition _ => do
    let _ ← condition.eval engine
  | .pass _ => pure ()

/-- The statements that a loop repeats. -/
def repeated : Stmt → List Stmt
  | .loop _ _ body => body
  | _ => []

/-- The statement has blocks inside it. -/
def isCompound : Stmt → Bool
  | .branch _ _ _ _ => true
  | .loop _ _ _ => true
  | _ => false

/-- The statement begins in the first state, and after a number of turns it comes to its own evaluation
again in the second. -/
inductive Turns (engine : Engine) : Stmt → Machine → Nat → Machine → Prop
  | start (stmt : Stmt) (m : Machine) : Turns engine stmt m 0 m
  | next {line condition body m n m₁ m₂} (h : Turns engine (.loop line condition body) m n m₁)
      (hturn : turn engine condition body m₁ = .ok true m₂) :
    Turns engine (.loop line condition body) m (n + 1) m₂

end Stmt

namespace Task

/-- The statement `site` is begun in `m₁` while the task is carried out, and raises by its own evaluation, in
`m₂` after `n` turns. -/
structure RaisesBy (engine : Engine) (start : Task × Machine) (e : Exception) (m' : Machine)
    (site : Stmt) (m₁ : Machine) (n : Nat) (m₂ : Machine) : Prop where
  reached : Relation.ReflTransGen (Begins engine) start (.stmt site, m₁)
  turns : site.Turns engine m₁ n m₂
  raised : site.own engine m₂ = .error (.raised e) m'

/-- The task is carried out from the first state to the second, and of all statements that it begins `last`
is the last. -/
inductive EndsWith (engine : Engine) (last : Stmt) : Task → Machine → Machine → Prop
  | simple {m m'} (hsimple : last.isCompound = false) (hrun : last.exec engine m = .ok () m') :
    EndsWith engine last (.stmt last) m m'
  | branch {line condition thenBlock elseBlock m v m₁ m'} (hcondition : condition.eval engine m = .ok v m₁)
      (h : EndsWith engine last (.block (if v.truthy then thenBlock else elseBlock)) m₁ m') :
    EndsWith engine last (.stmt (.branch line condition thenBlock elseBlock)) m m'
  | emptyBranch {line condition thenBlock elseBlock m v m'}
      (hlast : last = .branch line condition thenBlock elseBlock)
      (hcondition : condition.eval engine m = .ok v m')
      (hempty : (if v.truthy then thenBlock else elseBlock) = []) :
    EndsWith engine last (.stmt last) m m'
  | loop {line condition body m m'} (h : EndsWith engine last (.turns engine.turns condition body) m m') :
    EndsWith engine last (.stmt (.loop line condition body)) m m'
  | noTurn {line condition body m v m'} (hlast : last = .loop line condition body)
      (hcondition : condition.eval engine m = .ok v m') (hv : v.truthy = false) :
    EndsWith engine last (.stmt last) m m'
  | emptyBody {line condition m m'} (hlast : last = .loop line condition [])
      (hrun : last.exec engine m = .ok () m') : EndsWith engine last (.stmt last) m m'
  | laterTurn {left condition body m m₁ m'} (hturn : turn engine condition body m = .ok true m₁)
      (h : EndsWith engine last (.turns left condition body) m₁ m') :
    EndsWith engine last (.turns (left + 1) condition body) m m'
  | lastTurn {left condition body m v m₁ m₂ w m'} (hcondition : condition.eval engine m = .ok v m₁)
      (hv : v.truthy = true) (h : EndsWith engine last (.block body) m₁ m₂)
      (hend : condition.eval engine m₂ = .ok w m') (hw : w.truthy = false) :
    EndsWith engine last (.turns (left + 1) condition body) m m'
  | final {stmt m m₁ m'} (hline : moveToLine stmt.line m = .ok () m₁)
      (h : EndsWith engine last (.stmt stmt) m₁ m') : EndsWith engine last (.block [stmt]) m m'
  | rest {stmt rest m m₁ m₂ m'} (hline : moveToLine stmt.line m = .ok () m₁)
      (hstmt : stmt.exec engine m₁ = .ok () m₂) (h : EndsWith engine last (.block rest) m₂ m') :
    EndsWith engine last (.block (stmt :: rest)) m m'

end Task

section Origin

variable {engine : Engine} {e : Exception} {m m' : Machine}

/-- Some statement raises by its own evaluation. -/
def Task.HasOrigin (engine : Engine) (start : Task × Machine) (e : Exception) (m' : Machine) : Prop :=
  ∃ site m₁ n m₂, RaisesBy engine start e m' site m₁ n m₂

lemma Task.HasOrigin.of_reached {start next : Task × Machine} (h : HasOrigin engine next e m')
    (hpath : Relation.ReflTransGen (Begins engine) start next) : HasOrigin engine start e m' := by
  obtain ⟨site, m₁, n, m₂, horigin⟩ := h
  exact ⟨site, m₁, n, m₂, hpath.trans horigin.reached, horigin.turns, horigin.raised⟩

lemma Stmt.execBlock_raises {block : List Stmt}
    (hblock : ∀ stmt ∈ block, ∀ {m}, stmt.exec engine m = .error (.raised e) m' →
      Task.HasOrigin engine (.stmt stmt, m) e m')
    (hrun : execBlock engine block m = .error (.raised e) m') :
    Task.HasOrigin engine (.block block, m) e m' := by
  induction block generalizing m with
  | nil =>
    rw [execBlock] at hrun
    cases hrun
  | cons stmt block ih =>
    rw [List.forall_mem_cons] at hblock
    rw [execBlock] at hrun
    rcases bind_error hrun with hline | ⟨_, m₁, hline, hrun⟩
    · cases hline
    rcases bind_error hrun with hstmt | ⟨_, m₂, hstmt, hrest⟩
    · exact (hblock.1 hstmt).of_reached (.single (.first hline))
    · exact (ih hblock.2 hrest).of_reached (.single (.rest hline hstmt))

/-- The turns of a loop that has begun in `start`: in each of them either the condition raises, and the loop
itself is the origin, or the body does. -/
lemma Run.repeatWhile_raises {line : UInt32} {condition : Expr} {body : List Stmt} {start : Machine}
    {left n : Nat}
    (hbody : ∀ {m}, Stmt.execBlock engine body m = .error (.raised e) m' →
      Task.HasOrigin engine (.block body, m) e m')
    (hpath : Relation.ReflTransGen (Task.Begins engine) (.stmt (.loop line condition body), start)
      (.turns left condition body, m))
    (hturns : Stmt.Turns engine (.loop line condition body) start n m)
    (hrun : repeatWhile left (turn engine condition body) m = .error (.raised e) m') :
    Task.HasOrigin engine (.stmt (.loop line condition body), start) e m' := by
  induction left generalizing m n with
  | zero => cases hrun
  | succ left ih =>
    rw [repeatWhile] at hrun
    rcases bind_error hrun with hturn | ⟨again, m₁, hturn, hrest⟩
    · rcases bind_error hturn with hcondition | ⟨v, m₁, hcondition, hblock⟩
      · exact ⟨_, start, n, m, .refl, hturns, bind_of_error hcondition⟩
      · split at hblock
        · next hv =>
          rcases bind_error hblock with hblock | ⟨_, m₂, _, hpure⟩
          · exact (hbody hblock).of_reached (hpath.tail (.turnBody hcondition hv))
          · cases hpure
        · cases hblock
    · cases again with
      | true => exact ih (hpath.tail (.nextTurn hturn)) (hturns.next hturn) hrest
      | false => cases hrest

/-- An exception that leaves a statement was raised by the statement itself or by one inside it. -/
lemma Stmt.exec_raises (stmt : Stmt) (hrun : stmt.exec engine m = .error (.raised e) m') :
    Task.HasOrigin engine (.stmt stmt, m) e m' := by
  induction stmt generalizing m with
  | assign line target value =>
    rw [exec] at hrun
    exact ⟨_, m, 0, m, .refl, .start _ m, hrun⟩
  | expression line value =>
    rw [exec] at hrun
    exact ⟨_, m, 0, m, .refl, .start _ m, hrun⟩
  | branch line condition thenBlock elseBlock iht ihe =>
    rw [exec] at hrun
    rcases bind_error hrun with hcondition | ⟨v, m₁, hcondition, hblock⟩
    · exact ⟨_, m, 0, m, .refl, .start _ m, bind_of_error hcondition⟩
    · have hbegins : Task.Begins engine (.stmt (.branch line condition thenBlock elseBlock), m)
        (.block (if v.truthy then thenBlock else elseBlock), m₁) := .branch hcondition
      split at hblock
      · next hv =>
        rw [if_pos hv] at hbegins
        exact (execBlock_raises iht hblock).of_reached (.single hbegins)
      · next hv =>
        rw [if_neg hv] at hbegins
        exact (execBlock_raises ihe hblock).of_reached (.single hbegins)
  | loop line condition body ih =>
    rw [exec] at hrun
    exact repeatWhile_raises (execBlock_raises ih) (.single .loop) (.start _ m) hrun
  | pass line =>
    rw [exec] at hrun
    cases hrun

end Origin

section Last

variable {engine : Engine} {m m' : Machine}

lemma Run.turn_ok_true {condition : Expr} {body : List Stmt}
    (h : turn engine condition body m = .ok true m') :
    ∃ v m₁, condition.eval engine m = .ok v m₁ ∧ v.truthy = true ∧
      Stmt.execBlock engine body m₁ = .ok () m' := by
  obtain ⟨v, m₁, hcondition, hrest⟩ := bind_ok h
  split at hrest
  · next hv =>
    obtain ⟨_, m₂, hblock, hpure⟩ := bind_ok hrest
    cases hpure
    exact ⟨v, m₁, hcondition, hv, hblock⟩
  · cases hrest

lemma Run.turn_ok_false {condition : Expr} {body : List Stmt}
    (h : turn engine condition body m = .ok false m') :
    ∃ v, condition.eval engine m = .ok v m' ∧ v.truthy = false := by
  obtain ⟨v, m₁, hcondition, hrest⟩ := bind_ok h
  split at hrest
  · obtain ⟨_, m₂, -, hpure⟩ := bind_ok hrest
    cases hpure
  · next hv =>
    cases hrest
    exact ⟨v, hcondition, by simpa using hv⟩

lemma Stmt.execBlock_endsWith {block : List Stmt} (hne : block ≠ [])
    (hblock : ∀ stmt ∈ block, ∀ {m m'}, stmt.exec engine m = .ok () m' →
      ∃ last, Task.EndsWith engine last (.stmt stmt) m m')
    (hrun : execBlock engine block m = .ok () m') :
    ∃ last, Task.EndsWith engine last (.block block) m m' := by
  induction block generalizing m with
  | nil => exact absurd rfl hne
  | cons stmt block ih =>
    rw [List.forall_mem_cons] at hblock
    rw [execBlock] at hrun
    obtain ⟨_, m₁, hline, hrun⟩ := bind_ok hrun
    obtain ⟨_, m₂, hstmt, hrest⟩ := bind_ok hrun
    cases block with
    | nil =>
      rw [execBlock] at hrest
      cases hrest
      obtain ⟨last, hlast⟩ := hblock.1 hstmt
      exact ⟨last, .final hline hlast⟩
    | cons second block =>
      obtain ⟨last, hlast⟩ := ih (by simp) hblock.2 hrest
      exact ⟨last, .rest hline hstmt hlast⟩

/-- Once a turn has been taken, the last statement of the last turn is the last of the loop. -/
lemma Run.repeatWhile_endsWith {condition : Expr} {body : List Stmt} {left : Nat} {m₁ : Machine}
    (hbody : ∀ {m m'}, Stmt.execBlock engine body m = .ok () m' →
      ∃ last, Task.EndsWith engine last (.block body) m m')
    (hturn : turn engine condition body m = .ok true m₁)
    (hrun : repeatWhile left (turn engine condition body) m₁ = .ok () m') :
    ∃ last, Task.EndsWith engine last (.turns (left + 1) condition body) m m' := by
  induction left generalizing m m₁ with
  | zero => cases hrun
  | succ left ih =>
    rw [repeatWhile] at hrun
    obtain ⟨again, m₂, hagain, hrest⟩ := bind_ok hrun
    cases again with
    | true =>
      obtain ⟨last, hlast⟩ := ih hagain hrest
      exact ⟨last, .laterTurn hturn hlast⟩
    | false =>
      cases hrest
      obtain ⟨v, m₃, hcondition, hv, hblock⟩ := turn_ok_true hturn
      obtain ⟨w, hend, hw⟩ := turn_ok_false hagain
      obtain ⟨last, hlast⟩ := hbody hblock
      exact ⟨last, .lastTurn hcondition hv hlast hend hw⟩

/-- A statement that comes to its end begins some statement last, if only itself. -/
lemma Stmt.exec_endsWith (stmt : Stmt) (hrun : stmt.exec engine m = .ok () m') :
    ∃ last, Task.EndsWith engine last (.stmt stmt) m m' := by
  induction stmt generalizing m m' with
  | branch line condition thenBlock elseBlock iht ihe =>
    rw [exec] at hrun
    obtain ⟨v, m₁, hcondition, hrest⟩ := bind_ok hrun
    have hblock : execBlock engine (if v.truthy then thenBlock else elseBlock) m₁ = .ok () m' := by
      split_ifs at hrest ⊢
      · exact hrest
      · exact hrest
    by_cases hempty : (if v.truthy then thenBlock else elseBlock) = []
    · rw [hempty, execBlock] at hblock
      cases hblock
      exact ⟨_, .emptyBranch rfl hcondition hempty⟩
    · have hinside : ∀ stmt ∈ (if v.truthy then thenBlock else elseBlock), ∀ {m m'},
          stmt.exec engine m = .ok () m' → ∃ last, Task.EndsWith engine last (.stmt stmt) m m' := by
        intro stmt hstmt
        split_ifs at hstmt
        · exact iht stmt hstmt
        · exact ihe stmt hstmt
      obtain ⟨last, hlast⟩ := execBlock_endsWith hempty hinside hblock
      exact ⟨last, .branch hcondition hlast⟩
  | loop line condition body ih =>
    by_cases hempty : body = []
    · subst hempty
      exact ⟨_, .emptyBody rfl hrun⟩
    · rw [exec] at hrun
      cases hturns : engine.turns with
      | zero =>
        rw [hturns] at hrun
        cases hrun
      | succ left =>
        rw [hturns, repeatWhile] at hrun
        obtain ⟨again, m₁, hturn, hrest⟩ := bind_ok hrun
        cases again with
        | true =>
          obtain ⟨last, hlast⟩ := repeatWhile_endsWith (execBlock_endsWith hempty ih) hturn hrest
          exact ⟨last, .loop (hturns ▸ hlast)⟩
        | false =>
          cases hrest
          obtain ⟨v, hcondition, hv⟩ := turn_ok_false hturn
          exact ⟨_, .noTurn rfl hcondition hv⟩
  | _ => exact ⟨_, .simple rfl hrun⟩

/-- A statement that begins no other leaves the position where it was. -/
lemma Stmt.own_samePosition (h : engine.Stationary) (stmt : Stmt) :
    (stmt.own engine).Within Machine.SamePosition := by
  have heval : ∀ e : Expr, (e.eval engine).Within Machine.SamePosition :=
    fun e => e.eval_within h.evaluates
  cases stmt with
  | assign line target value => exact (heval value).bind fun v => assign_within (fun _ => rfl) target v
  | expression line value => exact (heval value).bind fun _ => within_pure ()
  | branch line condition thenBlock elseBlock => exact (heval condition).bind fun _ => within_pure ()
  | loop line condition body => exact (heval condition).bind fun _ => within_pure ()
  | pass line => exact within_pure ()

lemma Stmt.own_eq_exec {stmt : Stmt} (h : stmt.isCompound = false) : stmt.own engine = stmt.exec engine := by
  cases stmt with
  | branch => cases h
  | loop => cases h
  | _ => rw [exec, own]

/-- The line in force is that of the statement begun last. -/
lemma Task.EndsWith.line (h : engine.Stationary) {last : Stmt} {task : Task}
    (hends : EndsWith engine last task m m')
    (hbegun : ∀ stmt, task = .stmt stmt → m.position.line = stmt.line) :
    m'.position.line = last.line := by
  have heval : ∀ {e : Expr} {m v m'}, e.eval engine m = .ok v m' → m'.position = m.position :=
    fun hrun => (Expr.eval_within h.evaluates _).relates (.ok hrun)
  have hmove : ∀ {stmt : Stmt} {m m₁}, moveToLine stmt.line m = .ok () m₁ → m₁.position.line = stmt.line := by
    intro stmt m m₁ hline
    cases hline
    rfl
  induction hends with
  | @simple m m' hsimple hrun =>
    rw [← Stmt.own_eq_exec hsimple] at hrun
    have hposition : m'.position = m.position := (last.own_samePosition h).relates (.ok hrun)
    rw [hposition]
    exact hbegun last rfl
  | branch hcondition _ ih => exact ih fun _ hstmt => by cases hstmt
  | emptyBranch hlast hcondition _ =>
    rw [heval hcondition]
    exact hbegun last rfl
  | loop _ ih => exact ih fun _ hstmt => by cases hstmt
  | noTurn hlast hcondition _ =>
    rw [heval hcondition]
    exact hbegun last rfl
  | @emptyBody line condition m m' hlast hrun =>
    have hturns : (Stmt.exec engine (.loop line condition [])).Within Machine.SamePosition := by
      rw [Stmt.exec]
      refine repeatWhile_within (turn_within h.evaluates condition ?_) _
      rw [Stmt.execBlock]
      exact within_pure ()
    rw [hlast] at hrun
    have hposition : m'.position = m.position := hturns.relates (.ok hrun)
    rw [hposition]
    exact hbegun last rfl
  | laterTurn _ _ ih => exact ih fun _ hstmt => by cases hstmt
  | lastTurn _ _ _ hend _ ih =>
    rw [heval hend]
    exact ih fun _ hstmt => by cases hstmt
  | final hline _ ih =>
    refine ih fun stmt hstmt => ?_
    cases hstmt
    exact hmove hline
  | rest _ _ _ ih => exact ih fun _ hstmt => by cases hstmt

end Last

section Line

variable {engine : Engine}

/-- A statement begins at its own line. -/
lemma Task.line_of_reached {block : List Stmt} {m m₁ : Machine} {stmt : Stmt}
    (h : Relation.ReflTransGen (Begins engine) (.block block, m) (.stmt stmt, m₁)) :
    m₁.position.line = stmt.line := by
  cases h with
  | tail _ hbegins =>
    cases hbegins with
    | first hline =>
      cases hline
      rfl

/-- Turns without statements leave the position where it was. -/
lemma Stmt.Turns.samePosition (h : engine.Stationary) {stmt : Stmt} {m₁ m₂ : Machine} {n : Nat}
    (hturns : stmt.Turns engine m₁ n m₂) (hempty : n = 0 ∨ stmt.repeated = []) :
    m₂.position = m₁.position := by
  induction hturns with
  | start => rfl
  | next _ hturn ih =>
    rcases hempty with hzero | hempty
    · cases hzero
    · obtain ⟨v, m₃, hcondition, -, hblock⟩ := turn_ok_true hturn
      have hposition : m₃.position = _ := (Expr.eval_within h.evaluates _).relates (.ok hcondition)
      simp only [repeated] at hempty
      rw [hempty, execBlock] at hblock
      cases hblock
      rw [hposition]
      exact ih (.inr hempty)

/-- After a turn with statements, the line in force is that of the statement begun last in its body. -/
lemma Stmt.Turns.last {stmt : Stmt} {m₁ m₂ : Machine} {n : Nat} (hturns : stmt.Turns engine m₁ n m₂)
    (hn : n ≠ 0) (hne : stmt.repeated ≠ []) :
    ∃ k m₃ m₄ last, n = k + 1 ∧ stmt.Turns engine m₁ k m₃ ∧ stmt.own engine m₃ = .ok () m₄ ∧
      Task.EndsWith engine last (.block stmt.repeated) m₄ m₂ := by
  cases hturns with
  | start => exact absurd rfl hn
  | @next _ _ _ _ k m₃ _ h hturn =>
    obtain ⟨v, m₄, hcondition, -, hblock⟩ := turn_ok_true hturn
    obtain ⟨last, hlast⟩ := execBlock_endsWith hne (fun inner _ => inner.exec_endsWith) hblock
    exact ⟨k, m₃, m₄, last, rfl, h, bind_of_ok hcondition, hlast⟩

/-- The entry that a code unit adds to an exception names the line of the statement whose own evaluation
raised it, as long as this is not a loop past a turn with statements in it. There it names the line of the
statement that was begun last in that turn. -/
theorem Code.exec_raised_line (hengine : engine.Stationary) {code : Code} {m m' : Machine} {e : Exception}
    (hrun : code.exec engine m = .error (.raised e) m') :
    ∃ raised line site n m₁ m₂ m₃, e = raised.push ⟨code.filename, line, code.name⟩ ∧
      m' = { m₃ with position := m.position } ∧
      Task.RaisesBy engine (.block code.body, m.inside code) raised m₃ site m₁ n m₂ ∧
      (n = 0 ∨ site.repeated = [] → line = site.line) ∧
      (n ≠ 0 → site.repeated ≠ [] → ∃ k m₄ m₅ last, n = k + 1 ∧ site.Turns engine m₁ k m₄ ∧
        site.own engine m₄ = .ok () m₅ ∧ Task.EndsWith engine last (.block site.repeated) m₅ m₂ ∧
        line = last.line) := by
  rw [Code.exec_run] at hrun
  split at hrun
  · cases hrun
  · next raised m₃ hblock =>
    cases hrun
    obtain ⟨site, m₁, n, m₂, horigin⟩ := Stmt.execBlock_raises (fun stmt _ => stmt.exec_raises) hblock
    have hbegun := Task.line_of_reached horigin.reached
    have hposition : m₃.position = m₂.position :=
      (site.own_samePosition hengine).relates (.raised horigin.raised)
    refine ⟨raised, _, site, n, m₁, m₂, m₃, rfl, rfl, horigin, fun hempty => ?_, fun hn hne => ?_⟩
    · rw [hposition, horigin.turns.samePosition hengine hempty, hbegun]
    · obtain ⟨k, m₄, m₅, last, hk, hturns, hown, hlast⟩ := horigin.turns.last hn hne
      refine ⟨k, m₄, m₅, last, hk, hturns, hown, hlast, ?_⟩
      rw [hposition]
      exact hlast.line hengine fun _ hstmt => by cases hstmt
  · cases hrun

/-- Divides by `x`, which the body sets to zero. -/
def fadingCondition : Expr :=
  .binary .div (.constant (.int 1)) (.name "x")

def fadingBody : List Stmt :=
  [.assign 2 "x" (.constant (.int 0))]

/-- A loop whose condition fails in the second turn. -/
def fading : Code :=
  ⟨"<module>", "c.rb", [.loop 1 fadingCondition fadingBody]⟩

def lit : Machine :=
  let bindings := Namespace.empty.bindings.insert "x" (.int 1)
  { Machine.fresh .plain .plain .empty with globals := { Namespace.empty with bindings } }

/-- It is the loop that raises, after one turn. -/
lemma fading_raisesBy : ∃ raised m₁ m₂ m₃,
    Task.RaisesBy (Host.none.engine 2) (.block fading.body, lit.inside fading) raised m₃
      (.loop 1 fadingCondition fadingBody) m₁ 1 m₂ := by
  obtain ⟨m₁, hline⟩ : ∃ m₁, moveToLine 1 (lit.inside fading) = .ok () m₁ := ⟨_, rfl⟩
  have hfails : ((turn (Host.none.engine 2) fadingCondition fadingBody).returned? m₁).bind
      (fun turned => ((fadingCondition.eval (Host.none.engine 2)).raised? turned.2).map fun _ => turned.1) =
        some true := by
    cases hline
    decide +kernel
  obtain ⟨⟨again, m₂⟩, hturn, hraises⟩ := Option.bind_eq_some_iff.mp hfails
  obtain ⟨⟨raised, m₃⟩, heval, hagain⟩ := Option.map_eq_some_iff.mp hraises
  cases hagain
  refine ⟨raised, m₁, m₂, m₃, .single (.first hline), ?_, bind_of_error (of_raised? heval)⟩
  exact .next (.start _ m₁) (of_returned? hturn)

/-- The loop stands on line 1, and the trace names line 2. -/
theorem exec_raised_line_fading :
    ∃ e m', fading.exec (Host.none.engine 2) lit = .error (.raised e) m' ∧
      e.trace = [⟨"c.rb", 2, "<module>"⟩] ∧
      (∃ raised site n m₁ m₂ m₃, Task.RaisesBy (Host.none.engine 2) (.block fading.body, lit.inside fading)
        raised m₃ site m₁ n m₂ ∧ (n = 0 → site.line = 2)) ∧
      ∃ raised m₁ m₂ m₃, Task.RaisesBy (Host.none.engine 2) (.block fading.body, lit.inside fading)
        raised m₃ (.loop 1 fadingCondition fadingBody) m₁ 1 m₂ := by
  have hends : ((fading.exec (Host.none.engine 2)).raised? lit).map (·.1.trace) =
      some [⟨"c.rb", 2, "<module>"⟩] := by
    decide +kernel
  obtain ⟨⟨e, m'⟩, hraised, htrace⟩ := Option.map_eq_some_iff.mp hends
  have hrun := of_raised? hraised
  obtain ⟨raised, line, site, n, m₁, m₂, m₃, rfl, -, horigin, hline, -⟩ :=
    Code.exec_raised_line (Host.none.engine_stationary 2) hrun
  refine ⟨_, m', hrun, htrace, ⟨raised, site, n, m₁, m₂, m₃, horigin, fun hn => ?_⟩, fading_raisesBy⟩
  have hnamed : line = 2 := by
    have happend : raised.trace ++ [⟨"c.rb", line, "<module>"⟩] = [] ++ [⟨"c.rb", 2, "<module>"⟩] :=
      htrace
    have hlast := (List.append_inj' happend rfl).2
    cases hlast
    rfl
  rw [← hline (.inl hn), hnamed]

end Line

end SealedScript
