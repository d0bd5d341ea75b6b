import Mathlib.Data.List.Induction
import Mathlib.Data.Nat.Find
import SealedScript.Host.Engine
import SealedScript.Proofs.ByteOrder
import SealedScript.Proofs.Machine.Safe

/-! What the globals hold is told by the history of the changes made to them: a write goes through unless
something before it has closed the table or the name, and what goes through last is found. -/

namespace SealedScript

open Run

section Writes

variable {ns : Namespace} {m : Machine} {name : String}

/-- Why a name cannot be written. -/
def Namespace.refusal (ns : Namespace) (name : String) : Cause :=
  if ns.frozen then .frozen name else .readOnly name

lemma Namespace.refusal_kind : (ns.refusal name).exception.kind = .typeError := by
  unfold refusal
  split_ifs
  · rfl
  · rfl

lemma Namespace.set_of_closed (h : ¬ ns.Writable name) (value : Value) :
    ns.set name value = .error (ns.refusal name) := by
  unfold set refusal
  by_cases hfrozen : ns.frozen
  · rw [if_pos hfrozen, if_pos hfrozen]
  · have hclosed : name ∈ ns.readOnly := by
      by_contra hopen
      exact h ⟨by simpa using hfrozen, hopen⟩
    rw [if_neg hfrozen, if_neg hfrozen, if_pos hclosed]

lemma Run.assign_of_writable (h : m.globals.Writable name) (value : Value) :
    assign name value m = .ok ()
      { m with globals := { m.globals with bindings := m.globals.bindings.insert name value } } :=
  assign_of_set (Namespace.set_eq_ok_iff.mpr ⟨h, rfl⟩)

lemma Run.assign_of_closed (h : ¬ m.globals.Writable name) (value : Value) :
    assign name value m = .error (.raised (m.globals.refusal name).exception) m :=
  assign_of_set_error (Namespace.set_of_closed h value)

end Writes

/-- What host code may do to the globals. -/
inductive Change where
  | write (name : String) (value : Value)
  | freeze
  | protect (name : String)

/-- Changes in the order in which they were made, each with its outcome. -/
abbrev Log := List (Change × Except Exception Unit)

namespace Change

/-- Makes the change; a write hands over the exception that it raises. -/
def make (engine : Engine) : Change → Run (Except Exception Unit)
  | write name value => (Request.assign name value).answer engine
  | freeze => do
    Request.freeze.answer engine
    return .ok ()
  | protect name => do
    (Request.protect name).answer engine
    return .ok ()

/-- Makes one change after the other, also after a write that has failed. -/
def makeAll (engine : Engine) (history : List Change) : Run Log :=
  history.mapM fun change => return (change, ← change.make engine)

/-- Neither the table nor the name is closed by any of the changes. -/
def LeavesOpen (history : List Change) (name : String) : Prop :=
  freeze ∉ history ∧ protect name ∉ history

lemma leavesOpen_nil (name : String) : LeavesOpen [] name :=
  ⟨List.not_mem_nil, List.not_mem_nil⟩

lemma leavesOpen_snoc {history : List Change} {change : Change} {name : String} :
    LeavesOpen (history ++ [change]) name ↔
      LeavesOpen history name ∧ change ≠ freeze ∧ change ≠ protect name := by
  unfold LeavesOpen
  simp only [List.mem_append, List.mem_singleton, not_or]
  constructor
  · rintro ⟨⟨hfreeze, hne⟩, hprotect, hne'⟩
    exact ⟨⟨hfreeze, hprotect⟩, Ne.symm hne, Ne.symm hne'⟩
  · rintro ⟨⟨hfreeze, hprotect⟩, hne, hne'⟩
    exact ⟨⟨hfreeze, Ne.symm hne⟩, hprotect, Ne.symm hne'⟩

end Change

namespace Log

variable {log : Log} {name : String} {value : Value}

/-- The change at place `i` wrote the value to the name, with success. -/
def Wrote (log : Log) (i : Nat) (name : String) (value : Value) : Prop :=
  log[i]? = some (.write name value, .ok ())

/-- No successful write to the name stands behind the one of this value. -/
def LastWrote (log : Log) (name : String) (value : Value) : Prop :=
  ∃ i, log.Wrote i name value ∧ ∀ j other, log.Wrote j name other → j ≤ i

lemma Wrote.lt_length {i : Nat} (h : log.Wrote i name value) : i < log.length :=
  (List.getElem?_eq_some_iff.mp h).1

lemma exists_lastWrote {i : Nat} (h : log.Wrote i name value) : ∃ last, log.LastWrote name last := by
  classical
  obtain ⟨last, hlast⟩ := Nat.findGreatest_spec (P := fun j => ∃ other, log.Wrote j name other)
    (Nat.le_of_lt h.lt_length) ⟨value, h⟩
  refine ⟨last, _, hlast, fun j other hj => ?_⟩
  exact Nat.le_findGreatest (Nat.le_of_lt hj.lt_length) ⟨other, hj⟩

lemma wrote_snoc {entry : Change × Except Exception Unit} {i : Nat} :
    Wrote (log ++ [entry]) i name value ↔
      log.Wrote i name value ∨ i = log.length ∧ entry = (.write name value, .ok ()) := by
  unfold Wrote
  rcases Nat.lt_trichotomy i log.length with hi | rfl | hi
  · rw [List.getElem?_append_left hi]
    simp [Nat.ne_of_lt hi]
  · simp
  · have hend : (log ++ [entry]).length ≤ i := by
      rw [List.length_append, List.length_singleton]
      exact hi
    rw [List.getElem?_eq_none hend, List.getElem?_eq_none (Nat.le_of_lt hi)]
    simp [Nat.ne_of_gt hi]

lemma lastWrote_snoc_write (value other : Value) :
    LastWrote (log ++ [(.write name value, .ok ())]) name other ↔ other = value := by
  have hlast : Wrote (log ++ [(.write name value, .ok ())]) log.length name value :=
    wrote_snoc.mpr (.inr ⟨rfl, rfl⟩)
  constructor
  · rintro ⟨i, hi, hbehind⟩
    have hlength : log.length ≤ i := hbehind _ _ hlast
    rcases wrote_snoc.mp hi with hearlier | ⟨-, hentry⟩
    · exact absurd hearlier.lt_length (Nat.not_lt.mpr hlength)
    · cases hentry
      rfl
  · rintro rfl
    refine ⟨log.length, hlast, fun j other hj => ?_⟩
    have hj := hj.lt_length
    rw [List.length_append, List.length_singleton] at hj
    omega

/-- Other changes, and writes that have failed, do not count. -/
lemma wrote_snoc_of_ne {entry : Change × Except Exception Unit}
    (h : ∀ value, entry ≠ (.write name value, .ok ())) (i : Nat) (value : Value) :
    Wrote (log ++ [entry]) i name value ↔ log.Wrote i name value := by
  rw [wrote_snoc, or_iff_left]
  rintro ⟨-, hentry⟩
  exact h value hentry

lemma lastWrote_snoc_of_ne {entry : Change × Except Exception Unit}
    (h : ∀ value, entry ≠ (.write name value, .ok ())) (value : Value) :
    LastWrote (log ++ [entry]) name value ↔ log.LastWrote name value := by
  unfold LastWrote
  simp only [wrote_snoc_of_ne h]

end Log

namespace Change

variable {engine : Engine} {m m' : Machine}

/-- All that a change can do, with its outcome. -/
inductive Made (m : Machine) : Change → Except Exception Unit → Machine → Prop
  | written {name : String} {value : Value} {globals : Namespace}
      (h : m.globals.set name value = .ok globals) : Made m (.write name value) (.ok ()) { m with globals }
  | refused {name : String} {value : Value} (h : ¬ m.globals.Writable name) :
      Made m (.write name value) (.error (m.globals.refusal name).exception) m
  | frozen : Made m .freeze (.ok ()) { m with globals := m.globals.freeze }
  | closed (name : String) : Made m (.protect name) (.ok ()) { m with globals := m.globals.protect name }

lemma make_run (engine : Engine) (change : Change) (m : Machine) :
    ∃ outcome m', change.make engine m = .ok outcome m' ∧ Made m change outcome m' := by
  cases change with
  | write name value =>
    by_cases h : m.globals.Writable name
    · exact ⟨_, _, attempt_of_ok (assign_of_writable h value), .written (Namespace.set_eq_ok_iff.mpr ⟨h, rfl⟩)⟩
    · exact ⟨_, _, attempt_of_raised (assign_of_closed h value), .refused h⟩
  | freeze => exact ⟨_, _, rfl, .frozen⟩
  | protect name => exact ⟨_, _, rfl, .closed name⟩

/-- A change closes what it says and opens nothing. -/
lemma Made.writable {change : Change} {outcome : Except Exception Unit} (h : Made m change outcome m')
    (name : String) :
    m'.globals.Writable name ↔ m.globals.Writable name ∧ change ≠ freeze ∧ change ≠ protect name := by
  unfold Namespace.Writable
  cases h with
  | written hset =>
    obtain ⟨-, rfl⟩ := Namespace.set_eq_ok_iff.mp hset
    simp
  | refused _ => simp
  | frozen => simp [Namespace.freeze]
  | closed other =>
    simp only [Namespace.protect, Std.TreeSet.mem_insert, Std.compare_eq_iff_eq, not_or, ne_eq, reduceCtorEq,
      not_false_eq_true, protect.injEq, true_and]
    tauto

/-- A change is seen under a name only if it is a successful write to it. -/
lemma Made.get? {change : Change} {outcome : Except Exception Unit} (h : Made m change outcome m')
    (name : String) :
    (∃ value, (change, outcome) = (.write name value, .ok ()) ∧ m'.globals.get? name = some value) ∨
      (∀ value, (change, outcome) ≠ (.write name value, .ok ())) ∧
        m'.globals.get? name = m.globals.get? name := by
  cases h with
  | @written target value globals hset =>
    rw [Namespace.get?_set hset]
    split_ifs with hname
    · subst hname
      exact .inl ⟨value, rfl, rfl⟩
    · refine .inr ⟨fun other hsame => ?_, rfl⟩
      cases hsame
      exact hname rfl
  | refused _ => exact .inr ⟨by simp, rfl⟩
  | frozen => exact .inr ⟨by simp, rfl⟩
  | closed other => exact .inr ⟨by simp, rfl⟩

/-- A write succeeds where it may, and otherwise raises and changes nothing. -/
lemma Made.write_outcome {name : String} {value : Value} {outcome : Except Exception Unit}
    (h : Made m (.write name value) outcome m') :
    (outcome = .ok () ↔ m.globals.Writable name) ∧
      ∀ e, outcome = .error e → e.kind = .typeError ∧ m' = m := by
  cases h with
  | written hset =>
    refine ⟨iff_of_true rfl (Namespace.set_eq_ok_iff.mp hset).1, ?_⟩
    rintro e ⟨⟩
  | refused hclosed =>
    refine ⟨iff_of_false (by simp) hclosed, ?_⟩
    rintro e ⟨⟩
    exact ⟨Namespace.refusal_kind, rfl⟩

lemma makeAll_append (history later : List Change) :
    makeAll engine (history ++ later) = do
      let log ← makeAll engine history
      let rest ← makeAll engine later
      return log ++ rest :=
  List.mapM_append

lemma makeAll_cons (change : Change) (later : List Change) :
    makeAll engine (change :: later) = do
      let outcome ← change.make engine
      let rest ← makeAll engine later
      return (change, outcome) :: rest := by
  simp [makeAll]

lemma makeAll_of_parts {earlier later : List Change} {change : Change} {log rest : Log}
    {outcome : Except Exception Unit} {m₁ m₂ : Machine} (hearlier : makeAll engine earlier m = .ok log m₁)
    (hchange : change.make engine m₁ = .ok outcome m₂) (hlater : makeAll engine later m₂ = .ok rest m') :
    makeAll engine (earlier ++ change :: later) m = .ok (log ++ (change, outcome) :: rest) m' := by
  have hcons : makeAll engine (change :: later) m₁ = .ok ((change, outcome) :: rest) m' := by
    rw [makeAll_cons, bind_of_ok hchange, bind_of_ok hlater]
    rfl
  rw [makeAll_append, bind_of_ok hearlier, bind_of_ok hcons]
  rfl

lemma exists_parts_of_makeAll {earlier later : List Change} {change : Change} {log : Log}
    (h : makeAll engine (earlier ++ change :: later) m = .ok log m') :
    ∃ before m₁ outcome m₂ after, makeAll engine earlier m = .ok before m₁ ∧
      change.make engine m₁ = .ok outcome m₂ ∧ makeAll engine later m₂ = .ok after m' ∧
      log = before ++ (change, outcome) :: after := by
  rw [makeAll_append] at h
  obtain ⟨before, m₁, hearlier, h⟩ := bind_ok h
  obtain ⟨rest, m₃, hrest, hend⟩ := bind_ok h
  rw [makeAll_cons] at hrest
  obtain ⟨outcome, m₂, hchange, hrest⟩ := bind_ok hrest
  obtain ⟨after, m₄, hlater, hcons⟩ := bind_ok hrest
  cases hcons
  cases hend
  exact ⟨before, m₁, outcome, m₂, after, hearlier, hchange, hlater, rfl⟩

/-- The log lists the changes, and the table stands as they have left it. -/
structure Recorded (history : List Change) (log : Log) (ns : Namespace) : Prop where
  changes : log.map Prod.fst = history
  writable : ∀ name, ns.Writable name ↔ LeavesOpen history name
  bound : ∀ name value, ns.get? name = some value ↔ log.LastWrote name value

lemma recorded_empty : Recorded [] [] .empty := by
  refine ⟨rfl, fun name => ?_, fun name value => ?_⟩
  · have hwritable : Namespace.empty.Writable name := ⟨rfl, by simp [Namespace.empty]⟩
    exact iff_of_true hwritable (leavesOpen_nil name)
  · rw [Namespace.get?_empty]
    refine iff_of_false (by simp) ?_
    rintro ⟨i, hi, -⟩
    exact absurd hi.lt_length (Nat.not_lt_zero i)

lemma Recorded.step {history : List Change} {log : Log} {change : Change} {outcome : Except Exception Unit}
    (h : Recorded history log m.globals) (hmade : Made m change outcome m') :
    Recorded (history ++ [change]) (log ++ [(change, outcome)]) m'.globals := by
  refine ⟨by simp [h.changes], fun name => ?_, fun name value => ?_⟩
  · rw [leavesOpen_snoc, ← h.writable, hmade.writable]
  · rcases hmade.get? name with ⟨written, hentry, hget⟩ | ⟨hother, hget⟩
    · rw [hget, hentry, Log.lastWrote_snoc_write, Option.some_inj, eq_comm]
    · rw [hget, h.bound, Log.lastWrote_snoc_of_ne hother]

lemma makeAll_recorded (engine : Engine) (m : Machine) (history : List Change) :
    ∃ log m', makeAll engine history { m with globals := .empty } = .ok log m' ∧
      Recorded history log m'.globals := by
  induction history using List.reverseRecOn with
  | nil => exact ⟨[], _, rfl, recorded_empty⟩
  | append_singleton history change ih =>
    obtain ⟨log, m₁, hmake, hrecorded⟩ := ih
    obtain ⟨outcome, m₂, hchange, hmade⟩ := make_run engine change m₁
    exact ⟨_, m₂, makeAll_of_parts hmake hchange rfl, hrecorded.step hmade⟩

end Change

/-- Whatever is asked of the table, the log has the answer. -/
structure Namespace.Reflects (ns : Namespace) (log : Log) : Prop where
  get?_eq_some : ∀ name value, ns.get? name = some value ↔ log.LastWrote name value
  get?_eq_none : ∀ name, ns.get? name = none ↔ ∀ i value, ¬ log.Wrote i name value
  contains : ∀ name, ns.contains name = (ns.get? name).isSome
  increasing : ns.names.Pairwise fun a b => a.toUTF8.toList < b.toUTF8.toList
  mem_names : ∀ name, name ∈ ns.names ↔ ∃ i value, log.Wrote i name value
  size : ns.size = ns.names.length
  isEmpty : ns.isEmpty = true ↔ ns.names = []

lemma Change.Recorded.reflects {history : List Change} {log : Log} {ns : Namespace}
    (h : Recorded history log ns) : ns.Reflects log := by
  have hnone : ∀ name, ns.get? name = none ↔ ∀ i value, ¬ log.Wrote i name value := by
    intro name
    rw [Option.eq_none_iff_forall_ne_some]
    constructor
    · intro hunbound i value hwrote
      obtain ⟨last, hlast⟩ := Log.exists_lastWrote hwrote
      exact hunbound last ((h.bound name last).mpr hlast)
    · intro hnever value hbound
      obtain ⟨i, hwrote, -⟩ := (h.bound name value).mp hbound
      exact hnever i value hwrote
  refine ⟨h.bound, hnone, ns.contains_eq_isSome_get?, ?_, fun name => ?_, ns.length_names.symm, ?_⟩
  · exact ns.names_increasing.imp ByteOrder.toUTF8_lt
  · rw [ns.mem_names_iff, ← not_iff_not, Bool.not_eq_true, Option.isSome_eq_false_iff, Option.isNone_iff_eq_none,
      hnone]
    simp
  · rw [ns.isEmpty_iff, ← ns.length_names, List.length_eq_zero_iff]

/-- For every sequence of changes to an empty table: each write goes through exactly if no change before it
has closed the table or the name, otherwise it raises a `TypeError` and changes nothing; and all that can be
asked of the table in the end follows from the writes that went through. -/
theorem Change.makeAll_reflects (engine : Engine) (m : Machine) (history : List Change) :
    ∃ log m', makeAll engine history { m with globals := .empty } = .ok log m' ∧
      log.map Prod.fst = history ∧ m'.globals.Reflects log ∧
      ∀ earlier name value later, history = earlier ++ .write name value :: later →
        ∃ before m₁ outcome m₂ after,
          makeAll engine earlier { m with globals := .empty } = .ok before m₁ ∧
          (Change.write name value).make engine m₁ = .ok outcome m₂ ∧
          makeAll engine later m₂ = .ok after m' ∧
          log = before ++ (.write name value, outcome) :: after ∧
          (outcome = .ok () ↔ LeavesOpen earlier name) ∧
          ∀ e, outcome = .error e → e.kind = .typeError ∧ m₂ = m₁ := by
  obtain ⟨log, m', hmake, hrecorded⟩ := makeAll_recorded engine m history
  refine ⟨log, m', hmake, hrecorded.changes, hrecorded.reflects, ?_⟩
  rintro earlier name value later rfl
  obtain ⟨before, m₁, outcome, m₂, after, hearlier, hwrite, hlater, hlog⟩ := exists_parts_of_makeAll hmake
  refine ⟨before, m₁, outcome, m₂, after, hearlier, hwrite, hlater, hlog, ?_⟩
  -- the changes before the write are a history of their own
  obtain ⟨_, _, hearlier', hbefore⟩ := makeAll_recorded engine m earlier
  cases hearlier.symm.trans hearlier'
  obtain ⟨_, _, hwrite', hmade⟩ := make_run engine (.write name value) m₁
  cases hwrite.symm.trans hwrite'
  rw [← hbefore.writable]
  exact hmade.write_outcome

/-- A name is closed before it is ever bound, another is written twice, and then the table is closed. -/
def Change.sealing : List Change :=
  [.protect "b", .write "a" (.int 1), .write "b" (.int 2), .write "a" (.int 3), .freeze, .write "a" (.int 4)]

/-- The closed name is refused while others are written, and after the freeze so is the other one. -/
theorem Change.makeAll_reflects_sealing :
    ∃ log m', makeAll .idle sealing (.fresh .plain .plain .empty) = .ok log m' ∧
      (∃ before after e, log = before ++ (.write "b" (.int 2), .error e) :: after ∧ e.kind = .typeError) ∧
      (∃ before after, log = before ++ (.write "a" (.int 3), .ok ()) :: after) ∧
      ∃ before e, log = before ++ [(.write "a" (.int 4), .error e)] ∧ e.kind = .typeError := by
  obtain ⟨log, m', hmake, -, -, hwrites⟩ := makeAll_reflects .idle (.fresh .plain .plain .empty) sealing
  refine ⟨log, m', hmake, ?_, ?_, ?_⟩
  · obtain ⟨before, m₁, outcome, m₂, after, -, -, -, hlog, hopen, hraised⟩ :=
      hwrites [.protect "b", .write "a" (.int 1)] "b" (.int 2) _ rfl
    cases outcome with
    | ok _ => exact absurd (hopen.mp rfl) (by simp [LeavesOpen])
    | error e => exact ⟨before, after, e, hlog, (hraised e rfl).1⟩
  · obtain ⟨before, m₁, outcome, m₂, after, -, -, -, hlog, hopen, -⟩ :=
      hwrites [.protect "b", .write "a" (.int 1), .write "b" (.int 2)] "a" (.int 3) _ rfl
    have hok : outcome = .ok () := hopen.mpr (by simp [LeavesOpen])
    exact ⟨before, after, hok ▸ hlog⟩
  · obtain ⟨before, m₁, outcome, m₂, after, -, -, hafter, hlog, hopen, hraised⟩ :=
      hwrites (sealing.take 5) "a" (.int 4) [] rfl
    cases hafter
    cases outcome with
    | ok _ => exact absurd (hopen.mp rfl) (by simp [LeavesOpen, sealing])
    | error e => exact ⟨before, e, hlog, (hraised e rfl).1⟩

end SealedScript
