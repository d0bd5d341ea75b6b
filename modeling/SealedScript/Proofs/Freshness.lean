import SealedScript.Proofs.Machine.Nesting
import SealedScript.Proofs.Machine.Settled

/-! Whatever is made in a run is new. At every moment of every run from a fresh start, an object, a class or a
module that is made then differs from all that was there before. -/

namespace SealedScript

open Run

/-- The values that an activity is about. -/
def Activity.values : Activity → Set Value
  | .task (.call callee args kwargs) => {v | v = callee ∨ v ∈ args ∨ ∃ kwarg ∈ kwargs, v = kwarg.2}
  | .print values => {v | v ∈ values}
  | .str value => {value}
  | .repr value => {value}
  | .reprItems values => {v | v ∈ values}
  | .host (.ask request _) => request.mentions
  | _ => ∅

/-- Host code under way is honest, and has in hand only what lives in the census. -/
def Activity.Honest (census : Census) : Activity → Prop
  | .host action => ∃ tells pool, census.Covers pool ∧ HostCode.Honest tells pool action
  | _ => True

namespace Moment

/-- All there is at that moment: what the machine holds, what the activity is about, and what is held besides,
with every part of these and whatever can be put together from them. -/
def present (x : Moment) (held : Set Value) : Set Value :=
  {u | u.From (x.machine.values ∪ x.activity.values ∪ held)}

structure Settled (census : Census) (x : Moment) : Prop where
  machine : x.machine.Settled census
  values : census.Covers x.activity.values
  honest : x.activity.Honest census

/-- While the first activity goes on, the second one begins. Those are the values that have been found in between
and are still needed. -/
inductive Leads (host : Host) : Moment → Set Value → Moment → Prop
  | enters {x y} (h : Enters host x y) : Leads host x ∅ y
  | inside {level code m} :
    Leads host ⟨level, .code code, m⟩ ∅ ⟨level, .task (.block code.body), m.inside code⟩
  | rhs {level op lhs rhs m v m'} (h : Expr.eval (host.engine level) lhs m = .ok v m') :
    Leads host ⟨level, .task (.expr (.binary op lhs rhs)), m⟩ {v} ⟨level, .task (.expr rhs), m'⟩
  | args {level callee args kwargs m f m'} (h : Expr.eval (host.engine level) callee m = .ok f m') :
    Leads host ⟨level, .task (.expr (.call callee args kwargs)), m⟩ {f} ⟨level, .task (.items args), m'⟩
  | kwargs {level callee args kwargs m f m₁ values m'}
      (hcallee : Expr.eval (host.engine level) callee m = .ok f m₁)
      (hargs : Expr.evalItems (host.engine level) args m₁ = .ok values m') :
    Leads host ⟨level, .task (.expr (.call callee args kwargs)), m⟩ {v | v = f ∨ v ∈ values}
      ⟨level, .task (.kwargs kwargs), m'⟩
  | moreItems {level item rest m v m'} (h : Expr.eval (host.engine level) item m = .ok v m') :
    Leads host ⟨level, .task (.items (item :: rest)), m⟩ {v} ⟨level, .task (.items rest), m'⟩
  | moreKwargs {level key item rest m v m'} (h : Expr.eval (host.engine level) item m = .ok v m') :
    Leads host ⟨level, .task (.kwargs ((key, item) :: rest)), m⟩ {v} ⟨level, .task (.kwargs rest), m'⟩
  | asked {level request work m} {α : Type} {resume : request.Answer → HostCode (Except Exception α)}
      (h : request.work = some work) :
    Leads host ⟨level, .host (.ask request resume), m⟩ ∅ ⟨level, work, m⟩
  | answered {level request answer m m'} {α : Type} {resume : request.Answer → HostCode (Except Exception α)}
      (h : request.answer (host.engine level) m = .ok answer m') :
    Leads host ⟨level, .host (.ask request resume), m⟩ (request.tells answer) ⟨level, .host (resume answer), m'⟩

end Moment

section Steps

variable {host : Host} {census : Census}

lemma HostCode.Honest.settled {α : Type} {tells : Except Exception α → Set Value} {pool : Set Value}
    {action : HostCode (Except Exception α)} (h : action.Honest tells pool) (hpool : census.Covers pool)
    {m : Machine} (hm : m.Settled census) (level : Nat) : (Moment.mk level (.host action) m).Settled census := by
  refine ⟨hm, ?_, tells, pool, hpool, h⟩
  cases h with
  | done => exact .empty
  | ask hmentions _ => exact fun v hv => hpool.livesIn (hmentions v hv)

/-- Host code goes on with what it was told. -/
lemma HostCode.Honest.answered_settled (hhost : host.Honest) {level : Nat} {request : Request} {α : Type}
    {resume : request.Answer → HostCode (Except Exception α)} {answer : request.Answer} {m m' : Machine}
    (hvalues : census.Covers request.mentions) (hhonest : (Activity.host (.ask request resume)).Honest census)
    (hm : m.Settled census) (h : request.answer (host.engine level) m = .ok answer m') :
    ∃ later : Census, census <+: later ∧ (Moment.mk level (.host (resume answer)) m').Settled later ∧
      later.Covers (request.tells answer) := by
  obtain ⟨tells, pool, hpool, hcode⟩ := hhonest
  obtain ⟨later, hlater, hm', htells⟩ := (Request.answer_keeps (hhost.engine_settles level) hvalues).ok hm h
  cases hcode with
  | ask _ hresume =>
    exact ⟨later, hlater, (hresume answer).settled ((hpool.mono hlater).union htells) hm' level, htells⟩

/-- A method that gives the text of an object is called with the object. -/
lemma Value.LivesIn.covers_method {id : Nat} {cls : Class} {name : String} {callee : Value}
    (hobject : (Value.object id cls).LivesIn census) (h : Table.get? name cls.methods = some callee) :
    census.Covers (Activity.task (.call callee [.object id cls] [])).values := by
  rintro v (rfl | hv | ⟨kwarg, hkwarg, rfl⟩)
  · exact hobject.ofClass.methods _ (Table.mem_of_get? h)
  · exact List.mem_singleton.mp hv ▸ hobject
  · cases hkwarg

/-- What host code asks for is about the values in the request. -/
lemma Request.work_settled {request : Request} {work : Activity} (h : request.work = some work)
    (hmentions : census.Covers request.mentions) {m : Machine} (hm : m.Settled census) (level : Nat) :
    (Moment.mk level work m).Settled census := by
  cases request <;> cases h <;> exact ⟨hm, hmentions, trivial⟩

/-- What a task begins, it begins on values that live. -/
lemma Task.Begins.settled (hhost : host.Honest) {level : Nat} {task next : Task} {m s : Machine}
    (h : Begins (host.engine level) (task, m) (next, s)) (htask : task.isInner = true)
    (hnext : next.isInner = true) (hm : m.Settled census) :
    ∃ later : Census, census <+: later ∧ (Moment.mk level (.task next) s).Settled later := by
  have hengine := hhost.engine_settles level
  have hsame : (Activity.task next).values = ∅ →
      ∃ later : Census, census <+: later ∧ (Moment.mk level (.task next) m).Settled later :=
    fun hvalues => ⟨census, List.prefix_rfl, hm, hvalues ▸ .empty, trivial⟩
  have hstep : ∀ {α : Type} {step : Run α} {Q : Census → α → Prop} {a : α}, step.Keeps census Q → step m = .ok a s →
      (Activity.task next).values = ∅ →
      ∃ later : Census, census <+: later ∧ (Moment.mk level (.task next) s).Settled later := by
    intro α step Q a hkeeps hrun hvalues
    obtain ⟨later, hlater, hs, -⟩ := hkeeps.ok hm hrun
    exact ⟨later, hlater, hs, hvalues ▸ .empty, trivial⟩
  cases h with
  | body => cases htask
  | first hline => exact hstep (moveToLine_keeps _) hline rfl
  | rest hline hstmt =>
    obtain ⟨mid, hmid, hm₁, -⟩ := (moveToLine_keeps _).ok hm hline
    obtain ⟨later, hlater, hs, -⟩ := (Stmt.exec_keeps hengine _).ok hm₁ hstmt
    exact ⟨later, hmid.trans hlater, hs, .empty, trivial⟩
  | branch hcondition => exact hstep (Expr.eval_keeps hengine _) hcondition rfl
  | turnBody hcondition _ => exact hstep (Expr.eval_keeps hengine _) hcondition rfl
  | nextTurn hturn =>
    exact hstep (turn_keeps hengine _ (Stmt.block_keeps hengine _)) hturn rfl
  | rhs hlhs => exact hstep (Expr.eval_keeps hengine _) hlhs rfl
  | args hcallee => exact hstep (Expr.eval_keeps hengine _) hcallee rfl
  | kwargs hcallee hargs =>
    obtain ⟨mid, hmid, hm₁, -⟩ := (Expr.eval_keeps hengine _).ok hm hcallee
    obtain ⟨later, hlater, hs, -⟩ := (Expr.evalItems_keeps fun e _ => e.eval_keeps hengine).ok hm₁ hargs
    exact ⟨later, hmid.trans hlater, hs, .empty, trivial⟩
  | call hcallee hargs hkwargs =>
    obtain ⟨mid, hmid, hm₁, hf⟩ := (Expr.eval_keeps hengine _).ok hm hcallee
    obtain ⟨mid', hmid', hm₂, hvalues⟩ := (Expr.evalItems_keeps fun e _ => e.eval_keeps hengine).ok hm₁ hargs
    obtain ⟨later, hlater, hs, hnamed⟩ :=
      (Expr.evalKwargs_keeps fun kwarg _ => kwarg.2.eval_keeps hengine).ok hm₂ hkwargs
    refine ⟨later, hmid.trans (hmid'.trans hlater), hs, ?_, trivial⟩
    rintro v (rfl | hv | ⟨kwarg, hkwarg, rfl⟩)
    · exact hf.mono (hmid'.trans hlater)
    · exact (hvalues v hv).mono hlater
    · exact hnamed kwarg hkwarg
  | moreItems hitem => exact hstep (Expr.eval_keeps hengine _) hitem rfl
  | moreKwargs hvalue => exact hstep (Expr.eval_keeps hengine _) hvalue rfl
  | print => cases hnext
  | morePrint => cases htask
  | _ => exact hsame rfl

/-- A new object takes its number before its constructor begins. -/
lemma Machine.Settled.numbered {m : Machine} (hm : m.Settled census) (owner : Owner) :
    { m with nextId := m.nextId + 1 }.Settled (census ++ [owner]) := by
  refine ⟨?_, hm.values.mono (List.prefix_append _ _)⟩
  simp [hm.count]

lemma Moment.Enters.settled (hhost : host.Honest) {x y : Moment} (h : Enters host x y) (hx : x.Settled census) :
    ∃ later : Census, census <+: later ∧ y.Settled later := by
  obtain ⟨hm, hvalues, hhonest⟩ := hx
  cases h with
  | begins htask hnext h => exact h.settled hhost htask hnext hm
  | @constructor level args kwargs m callee cls h =>
    have hlater : census <+: census ++ [.object cls] := List.prefix_append _ _
    have hcls : (Value.type cls).LivesIn census := hvalues _ (.inl rfl)
    have hnumber : m.nextId = census.length := hm.count
    refine ⟨_, hlater, hm.numbered _, ?_, trivial⟩
    rintro v (rfl | hv | ⟨kwarg, hkwarg, rfl⟩)
    · exact (hcls.methods _ (Table.mem_of_get? h)).mono hlater
    · rcases List.mem_cons.mp hv with rfl | hv
      · exact .object (by simp [hnumber]) (hcls.mono hlater)
      · exact (hvalues v (.inr (.inl hv))).mono hlater
    · exact (hvalues _ (.inr (.inr ⟨kwarg, hkwarg, rfl⟩))).mono hlater
  | native =>
    refine ⟨census, List.prefix_rfl, (hhost.native _ _ _).settled ?_ hm _⟩
    exact fun v hv => hvalues v (.inr hv)
  | puts => exact ⟨census, List.prefix_rfl, hm, fun v hv => hvalues v (.inr (.inl hv)), trivial⟩
  | printed =>
    refine ⟨census, List.prefix_rfl, hm, ?_, trivial⟩
    rintro v rfl
    exact hvalues _ List.mem_cons_self
  | morePrint htext hline =>
    have hengine := hhost.engine_settles
    obtain ⟨mid, hmid, hm₁, -⟩ := (Value.toStr_keeps (hengine _) (hvalues _ List.mem_cons_self)).ok hm htext
    obtain ⟨later, hlater, hs, -⟩ := (printLine_keeps _).ok hm₁ hline
    refine ⟨later, hmid.trans hlater, hs, fun v hv => ?_, trivial⟩
    exact (hvalues v (List.mem_cons_of_mem _ hv)).mono (hmid.trans hlater)
  | strMethod h => exact ⟨census, List.prefix_rfl, hm, (hvalues _ rfl).covers_method h, trivial⟩
  | strRepr h => exact ⟨census, List.prefix_rfl, hm, hvalues, trivial⟩
  | reprMethod h => exact ⟨census, List.prefix_rfl, hm, (hvalues _ rfl).covers_method h, trivial⟩
  | reprList => exact ⟨census, List.prefix_rfl, hm, (hvalues _ rfl).items, trivial⟩
  | reprItem =>
    refine ⟨census, List.prefix_rfl, hm, ?_, trivial⟩
    rintro v rfl
    exact hvalues _ List.mem_cons_self
  | moreItems h =>
    obtain ⟨later, hlater, hs, -⟩ :=
      (Value.repr_keeps (hhost.engine_settles _) (hvalues _ List.mem_cons_self)).ok hm h
    exact ⟨later, hlater, hs, fun v hv => (hvalues v (List.mem_cons_of_mem _ hv)).mono hlater, trivial⟩
  | initializer =>
    exact ⟨census, List.prefix_rfl, (hhost.initializer _ _).settled (Namespace.covers_named _) hm _⟩
  | answered h =>
    obtain ⟨later, hlater, hs, -⟩ := HostCode.Honest.answered_settled hhost hvalues hhonest hm h
    exact ⟨later, hlater, hs⟩
  | asked hwork _ => exact ⟨census, List.prefix_rfl, Request.work_settled hwork hvalues hm _⟩

/-- One step: the census grows, and what has been found on the way lives in it. -/
lemma Moment.Leads.settled (hhost : host.Honest) {x y : Moment} {found : Set Value} (h : Leads host x found y)
    (hx : x.Settled census) :
    ∃ later : Census, census <+: later ∧ y.Settled later ∧ later.Covers found := by
  have hengine := hhost.engine_settles
  have heval : ∀ {level : Nat} {e : Expr} {m v m'} {next : Task}, m.Settled census →
      e.eval (host.engine level) m = .ok v m' → (Activity.task next).values = ∅ →
      ∃ later : Census, census <+: later ∧ (Moment.mk level (.task next) m').Settled later ∧ later.Covers {v} := by
    intro level e m v m' next hm hrun hnext
    obtain ⟨later, hlater, hm', hv⟩ := (e.eval_keeps (hengine level)).ok hm hrun
    exact ⟨later, hlater, ⟨hm', hnext ▸ .empty, trivial⟩, fun u hu => hu ▸ hv⟩
  cases h with
  | enters h =>
    obtain ⟨later, hlater, hy⟩ := h.settled hhost hx
    exact ⟨later, hlater, hy, .empty⟩
  | inside => exact ⟨census, List.prefix_rfl, ⟨hx.machine.congr rfl rfl rfl, .empty, trivial⟩, .empty⟩
  | rhs h => exact heval hx.machine h rfl
  | args h => exact heval hx.machine h rfl
  | kwargs hcallee hargs =>
    obtain ⟨mid, hmid, hm₁, hf⟩ := (Expr.eval_keeps (hengine _) _).ok hx.machine hcallee
    obtain ⟨later, hlater, hm', hvalues⟩ :=
      (Expr.evalItems_keeps fun e _ => e.eval_keeps (hengine _)).ok hm₁ hargs
    refine ⟨later, hmid.trans hlater, ⟨hm', .empty, trivial⟩, ?_⟩
    rintro v (rfl | hv)
    · exact hf.mono hlater
    · exact hvalues v hv
  | moreItems h => exact heval hx.machine h rfl
  | moreKwargs h => exact heval hx.machine h rfl
  | asked hwork =>
    exact ⟨census, List.prefix_rfl, Request.work_settled hwork hx.values hx.machine _, .empty⟩
  | answered h => exact HostCode.Honest.answered_settled hhost hx.values hx.honest hx.machine h

end Steps

section Sessions

/-- What a session has come to: the state that is reached, and the values that whoever conducts it has in hand.
Beginning with a fresh state, the machine is asked for one thing after another, or runs a program. -/
inductive Session (host : Host) : Machine → Set Value → Prop
  | fresh (stdout stderr : Device) (initializers : List (String × Initializer)) :
    Session host (.fresh stdout stderr ⟨initializers, []⟩) ∅
  | asked {m m' held} (level : Nat) {request : Request} {answer : request.Answer} (h : Session host m held)
      (hmentions : ∀ v ∈ request.mentions, v.From held)
      (hanswer : request.answer (host.engine level) m = .ok answer m') :
    Session host m' (held ∪ request.tells answer)
  | program {m m' held status} (level : Nat) {program : Program} (h : Session host m held)
      (hrun : program.run (host.engine level) m = .ok status m') : Session host m' held

/-- A moment of a session, with the values in the hands of whoever is at work. They are those that the session
is conducted with, those that the activities under way are about, and those that were found since. -/
inductive Moment.Arises (host : Host) : Moment → Set Value → Prop
  | asked {m held} (level : Nat) {request : Request} (h : Session host m held)
      (hmentions : ∀ v ∈ request.mentions, v.From held) :
    Arises host ⟨level, .host (.ask request fun _ => .done (.ok ())), m⟩ held
  | program {m m' held} (level : Nat) (program : Program) (h : Session host m held)
      (hname : assign "__name__" (.str "__main__") m = .ok () m') :
    Arises host ⟨level, .code program.code, m'⟩ held
  /-- A program has ended in an exception that host code reports. -/
  | hook {m m' held e symbol} (level : Nat) {program : Program} (h : Session host m held)
      (hraised : (do
        assign "__name__" (.str "__main__")
        program.code.exec (host.engine (level + 1)) : Run Unit) m = .error (.raised e) m')
      (hhook : m'.hook = some (.foreign symbol)) :
    Arises host ⟨level, .host ((host.hook symbol e).bind fun _ => .done (.ok ())), m'⟩ held
  | leads {x y held found} (h : Arises host x held) (hleads : Leads host x found y) :
    Arises host y (held ∪ x.activity.values ∪ found)

variable {host : Host}

/-- Whoever conducts the session has nothing in hand that does not live. -/
lemma Session.settled (hhost : host.Honest) {m : Machine} {held : Set Value} (h : Session host m held) :
    ∃ census : Census, m.Settled census ∧ census.Covers held := by
  induction h with
  | fresh stdout stderr initializers =>
    refine ⟨[], ⟨rfl, ?_⟩, .empty⟩
    rintro v (⟨name, hname⟩ | ⟨entry, hentry, -⟩)
    · cases (Namespace.get?_empty name).symm.trans hname
    · cases hentry
  | asked level h hmentions hanswer ih =>
    obtain ⟨census, hm, hheld⟩ := ih
    obtain ⟨later, hlater, hm', htells⟩ :=
      (Request.answer_keeps (hhost.engine_settles level) fun v hv => hheld.livesIn (hmentions v hv)).ok hm hanswer
    exact ⟨later, hm', (hheld.mono hlater).union htells⟩
  | program level h hrun ih =>
    obtain ⟨census, hm, hheld⟩ := ih
    obtain ⟨later, hlater, hm', -⟩ := (Program.run_keeps (hhost.engine_settles level) _).ok hm hrun
    exact ⟨later, hm', hheld.mono hlater⟩

lemma HostCode.Honest.bind_done {α β : Type} {pool : Set Value} {code : HostCode α} {result : α → β}
    {tells : α → Set Value} (h : code.Honest tells pool) :
    (code.bind fun a => .done (result a)).Honest (fun _ => ∅) pool := by
  induction h with
  | done => exact .done fun v hv => hv.elim
  | ask hmentions _ ih => exact .ask hmentions ih

/-- By induction on the way to the moment, one step after the other. -/
lemma Moment.Arises.settled (hhost : host.Honest) {x : Moment} {held : Set Value} (h : Arises host x held) :
    ∃ census : Census, x.Settled census ∧ census.Covers held := by
  induction h with
  | asked level h hmentions =>
    obtain ⟨census, hm, hheld⟩ := h.settled hhost
    have hcode : HostCode.Honest (fun _ : Except Exception Unit => ∅) _ (.ask _ fun _ => .done (.ok ())) :=
      .ask hmentions fun _ => .done fun v hv => hv.elim
    exact ⟨census, hcode.settled hheld hm level, hheld⟩
  | program level program h hname =>
    obtain ⟨census, hm, hheld⟩ := h.settled hhost
    obtain ⟨later, hlater, hm', -⟩ := (assign_keeps _ (.str _)).ok hm hname
    exact ⟨later, ⟨hm', .empty, trivial⟩, hheld.mono hlater⟩
  | hook level h hraised _ =>
    obtain ⟨census, hm, hheld⟩ := h.settled hhost
    obtain ⟨later, hlater, hm'⟩ := (Program.body_keeps (hhost.engine_settles _) _).error hm hraised
    exact ⟨later, (hhost.hook _ _).bind_done.settled .empty hm' level, hheld.mono hlater⟩
  | leads _ hleads ih =>
    obtain ⟨census, hx, hheld⟩ := ih
    obtain ⟨later, hlater, hy, hfound⟩ := hleads.settled hhost hx
    exact ⟨later, hy, ((hheld.union hx.values).mono hlater).union hfound⟩

end Sessions

section Newness

variable {host : Host} {census : Census} {x : Moment} {held : Set Value}

lemma Moment.Settled.present_livesIn (hx : x.Settled census) (hheld : census.Covers held) {u : Value}
    (hu : u ∈ x.present held) : u.LivesIn census :=
  ((hx.machine.values.union hx.values).union hheld).livesIn hu

/-- The object has the next number, whatever its constructor does. -/
lemma Value.call_type_ok {engine : Engine} {cls : Class} {args : List Value} {kwargs : List (String × Value)}
    {m m' : Machine} {v : Value} (h : (Value.type cls).call engine args kwargs m = .ok v m') :
    v = .object m.nextId cls := by
  rw [Value.call] at h
  obtain ⟨id, m₁, hid, h⟩ := bind_ok h
  obtain ⟨_, m₂, _, hmade⟩ := bind_ok h
  cases hid
  cases hmade
  rfl

/-- At every moment of a session, the object that a class makes then, a module that was not loaded and is now,
and a class that is created are all new. A module is new beside all that its import has brought about, too. -/
theorem Moment.Arises.made_is_new (hhost : host.Honest) (h : Arises host x held) :
    (∀ cls args kwargs v m', x.activity = .task (.call (.type cls) args kwargs) →
      (Value.type cls).call (host.engine x.level) args kwargs x.machine = .ok v m' →
      (∃ id, v = .object id cls) ∧ ∀ u ∈ x.present held, u.same v = false) ∧
    (∀ name mod m', x.activity = .importModule name → Table.get? name x.machine.modules.loaded = none →
      importModule (host.engine x.level) name x.machine = .ok mod m' →
      ∀ u, u ∈ x.present held ∨ u.From (m'.values \ {.module mod}) ∨ (∃ binding ∈ mod.bindings, u = binding.2) →
        u.same (.module mod) = false) ∧
    ∀ (α : Type) name methods (resume : Value → HostCode (Except Exception α)) v m',
      x.activity = .host (.ask (.newClass name methods) resume) →
      (Request.newClass name methods).answer (host.engine x.level) x.machine = .ok v m' →
      (∃ cls : Class, v = .type cls ∧ cls.name = name) ∧ ∀ u ∈ x.present held, u.same v = false := by
  obtain ⟨census, hx, hheld⟩ := h.settled hhost
  have hnext : census.length ≤ x.machine.nextId := hx.machine.count.ge
  refine ⟨?_, ?_, ?_⟩
  · intro cls args kwargs v m' _ hcall
    obtain rfl := Value.call_type_ok hcall
    exact ⟨⟨_, rfl⟩, fun u hu => (hx.present_livesIn hheld hu).same_eq_false rfl hnext⟩
  · intro name mod m' _ hnew himport u hu
    obtain ⟨later, hlater, hid, hbindings, hkept, -⟩ :=
      importModule_new (hhost.engine_settles x.level) hx.machine hnew himport
    have hlives : u.LivesIn later := by
      rcases hu with hu | hu | hu
      · exact (hx.present_livesIn hheld hu).mono hlater
      · exact hkept.livesIn hu
      · exact hbindings u hu
    exact hlives.same_eq_false (congrArg some hid) le_rfl
  · intro α name methods resume v m' _ hanswer
    cases hanswer
    exact ⟨⟨_, rfl, rfl⟩, fun u hu => (hx.present_livesIn hheld hu).same_eq_false rfl hnext⟩

end Newness

section Points

lemma Host.none_honest : Host.none.Honest where
  native symbol args kwargs := .done (by simp)
  initializer symbol bindings := .done (by simp)
  hook symbol e := .done (by simp)

def pointClass : Class :=
  ⟨0, "Point", []⟩

lemma call_pointClass (engine : Engine) (m : Machine) :
    (Value.type pointClass).call engine [] [] m =
      .ok (.object m.nextId pointClass) { m with nextId := m.nextId + 1 } := by
  have hnew : newId m = .ok m.nextId { m with nextId := m.nextId + 1 } := rfl
  rw [pointClass, Value.call, bind_of_ok hnew, Value.construct]
  rfl

/-- A class has been created and called once; the class and the object are in the hands of the one who did it,
and nothing is bound. -/
def pointMade : Machine :=
  { Machine.fresh .plain .plain .empty with nextId := 2 }

def pointInHand : Set Value :=
  ∅ ∪ (Request.newClass "Point" []).tells (.type pointClass) ∪
    (Request.call (.type pointClass) [] []).tells (.ok (.object 1 pointClass))

lemma pointMade_session : Session Host.none pointMade pointInHand := by
  have hclass : (Request.newClass "Point" []).answer (Host.none.engine 1) (.fresh .plain .plain .empty) =
    .ok (.type pointClass) { Machine.fresh .plain .plain .empty with nextId := 1 } := rfl
  have hpoint : (Request.call (.type pointClass) [] []).answer (Host.none.engine 1)
      { Machine.fresh .plain .plain .empty with nextId := 1 } = .ok (.ok (.object 1 pointClass)) pointMade :=
    attempt_of_ok (call_pointClass _ _)
  refine .asked 1 (.asked 1 (.fresh .plain .plain []) (by simp [Request.mentions]) hclass) ?_ hpoint
  rintro v (rfl | hv | ⟨kwarg, hkwarg, -⟩)
  · exact .given (.inr rfl)
  · cases hv
  · cases hkwarg

/-- A second point differs from the first, which nothing but the caller's hand holds. -/
theorem second_point_is_new :
    ∃ v m', (Value.type pointClass).call (Host.none.engine 1) [] [] pointMade = .ok v m' ∧
      (∃ id, v = .object id pointClass) ∧ (Value.object 1 pointClass).same v = false := by
  have hasks : ∀ v ∈ (Request.call (.type pointClass) [] []).mentions, v.From pointInHand := by
    rintro v (rfl | hv | ⟨kwarg, hkwarg, -⟩)
    · exact .given (.inl (.inr rfl))
    · cases hv
    · cases hkwarg
  have harises : Moment.Arises Host.none _ _ := .leads (.asked 1 pointMade_session hasks) (.asked rfl)
  obtain ⟨hcall, -⟩ := Moment.Arises.made_is_new Host.none_honest harises
  have hmade := call_pointClass (Host.none.engine 1) pointMade
  obtain ⟨hobject, hnew⟩ := hcall pointClass [] [] _ _ rfl hmade
  exact ⟨_, _, hmade, hobject, hnew _ (.given (.inr (.inl (.inl (.inr rfl)))))⟩

end Points

end SealedScript
