import SealedScript.Proofs.Machine.Nesting

/-! Positions and traces when code units are executed within others. Each unit puts the position back where it
found it, whatever runs inside a unit sees the unit's own place, and the trace of an exception lists the
units that it has left. -/

namespace SealedScript

open Run

section Report

/-- A trace entry as a reader sees it. -/
def TraceEntry.text (entry : TraceEntry) : String :=
  "  File \"" ++ entry.filename ++ "\", line " ++ toString entry.line.toNat ++ ", in " ++ entry.codeName

lemma Exception.traceLine_eq (entry : TraceEntry) : traceLine entry = entry.text ++ "\n" := by
  have hnumber : String.ofList (Decimal.natural entry.line.toNat) = toString entry.line.toNat := by
    rw [Decimal.natural, Nat.toString_eq_ofList_toDigits]
  rw [traceLine, hnumber, TraceEntry.text]

/-- A header, the trace from the outermost entry on, and the summary, each on a line of its own. -/
lemma Exception.report_eq_lines (e : Exception) :
    e.report = String.join (("Traceback (most recent call last):" ::
      (e.trace.reverse.map TraceEntry.text ++ [e.summary])).map (· ++ "\n")) := by
  have hlines : e.trace.reverse.map traceLine = (e.trace.reverse.map TraceEntry.text).map (· ++ "\n") := by
    rw [List.map_map]
    exact List.map_congr_left fun entry _ => traceLine_eq entry
  have hheader : "Traceback (most recent call last):\n" = "Traceback (most recent call last):" ++ "\n" := by
    decide
  unfold report
  simp only [hlines, hheader, List.map_cons, List.map_append, List.map_nil, String.join_cons,
    String.join_append, String.join_nil, String.append_assoc, String.append_empty]

end Report

/-- Evaluation keeps the position, and so does the execution of a code unit, whether they succeed or not.
Whatever goes on inside nested code units is told the file and the name of the innermost one when it asks
where it is. If it raises, and host code on the way passes the exception on, the same exception comes out
of the outermost unit with one entry more for each of the units, the innermost first. The report has them
in the reverse order between a header and the summary, each on a line of its own. -/
theorem Host.nested_execution (host : Host) (level : Nat) :
    (∀ e : Expr, (e.eval (host.engine level)).Within Machine.SamePosition) ∧
    (∀ code : Code, (code.exec (host.engine level)).Within Machine.SamePosition) ∧
    ∀ outer m codes z, Moment.Nests host ⟨level, .code outer, m⟩ codes z →
      (∀ code, codes.head? = some code → ∃ line,
        Request.position.answer (host.engine z.level) z.machine =
          .ok ⟨code.filename, line, code.name⟩ z.machine) ∧
      ∀ e s, z.Raises host e s → ∃ entries raised m',
        outer.exec (host.engine level) m = .error (.raised raised) m' ∧ m'.position = m.position ∧
        raised = { e with trace := e.trace ++ entries } ∧
        entries.map TraceEntry.place = codes.map Code.place ∧
        raised.report = String.join (("Traceback (most recent call last):" ::
          (entries.reverse.map TraceEntry.text ++ e.trace.reverse.map TraceEntry.text ++
            [e.summary])).map (· ++ "\n")) := by
  refine ⟨fun e => ?_, fun code => code.exec_samePosition _, fun outer m codes z hnests => ⟨?_, ?_⟩⟩
  · exact e.eval_within (host.engine_stationary level).evaluates
  · intro code hcode
    have hplace := hnests.place
    rw [hcode] at hplace
    obtain ⟨hfile, hname⟩ := Prod.mk.inj hplace
    refine ⟨z.machine.position.line, ?_⟩
    rw [← hfile, ← hname]
    rfl
  · intro e s hraises
    obtain ⟨entries, m', hrun, hplaces⟩ := hnests.raises hraises
    have hposition : m'.position = m.position := (outer.exec_samePosition _).relates (.raised hrun)
    refine ⟨entries, _, m', hrun, hposition, rfl, hplaces, ?_⟩
    rw [Exception.report_eq_lines, List.reverse_append, List.map_append]
    rfl

section Guest

/-- Fails for want of a name. -/
def searching : Code :=
  ⟨"search", "search.rb", [.expression 7 (.name "missing")]⟩

/-- A host whose builtins execute that code unit. -/
def searcher : Host :=
  { Host.none with
    native := fun _ _ _ => do
      HostAction.exec searching
      return .str "" }

/-- An object whose text is given by a builtin. -/
def guest : Value :=
  .object 0 ⟨1, "Guest", [("__str__", .builtin "describe" (.foreign "describe"))]⟩

def greetingGuest : Code :=
  ⟨"<module>", "main.rb", [.expression 2 (.call (.name "puts") [.name "guest"] [])]⟩

def withGuest : Machine :=
  let bindings := (Namespace.empty.bindings.insert "puts" (.builtin "puts" .puts)).insert "guest" guest
  { Machine.fresh .plain .plain .empty with globals := { Namespace.empty with bindings } }

lemma withGuest_puts : withGuest.globals.get? "puts" = some (.builtin "puts" .puts) := by
  simp [withGuest, Namespace.get?, Std.TreeMap.getElem_insert]

lemma withGuest_guest : withGuest.globals.get? "guest" = some guest := by
  simp [withGuest, Namespace.get?]

lemma withGuest_missing : withGuest.globals.get? "missing" = none := by
  simp [withGuest, Namespace.get?, Namespace.empty]

/-- The builtin asks for the code unit, and passes on what it raises. -/
lemma enters_searching (args : List Value) (m : Machine) :
    Moment.Enters searcher ⟨0, .host (ExceptT.run (searcher.native "describe" args [])), m⟩
      ⟨0, .code searching, m⟩ := by
  refine .asked rfl fun e m₁ hraised => ⟨m₁, ?_⟩
  have hanswer : (Request.exec searching).answer (searcher.engine 0) m = .ok (.error e) m₁ :=
    attempt_of_raised hraised
  exact bind_of_ok hanswer

/-- The printer asks for the text of the object, the builtin behind it for the code unit, and this looks up
the name. -/
lemma nests_guest : ∃ s, Moment.Nests searcher ⟨2, .code greetingGuest, withGuest⟩
    [searching, greetingGuest] ⟨0, .task (.expr (.name "missing")), s⟩ ∧ s.globals = withGuest.globals := by
  obtain ⟨s₁, hline⟩ : ∃ s, moveToLine 2 (withGuest.inside greetingGuest) = .ok () s := ⟨_, rfl⟩
  obtain ⟨s₂, hinner⟩ : ∃ s, moveToLine 7 (s₁.inside searching) = .ok () s := ⟨_, rfl⟩
  have hcallee : (Expr.name "puts").eval (searcher.engine 2) s₁ = .ok (.builtin "puts" .puts) s₁ := by
    rw [Expr.eval]
    cases hline
    exact lookup_of_get? withGuest_puts
  have hguest : (Expr.name "guest").eval (searcher.engine 2) s₁ = .ok guest s₁ := by
    rw [Expr.eval]
    cases hline
    exact lookup_of_get? withGuest_guest
  have hargs : Expr.evalItems (searcher.engine 2) [.name "guest"] s₁ = .ok [guest] s₁ := by
    rw [Expr.evalItems, bind_of_ok hguest, Expr.evalItems]
    rfl
  have hkwargs : Expr.evalKwargs (searcher.engine 2) [] s₁ = .ok [] s₁ := by
    rw [Expr.evalKwargs]
    rfl
  have hsearch : Moment.Nests searcher ⟨0, .code searching, s₁⟩ ([] ++ [searching])
      ⟨0, .task (.expr (.name "missing")), s₂⟩ :=
    .inside (.step (.begins rfl rfl (.first hinner)) (.step (.begins rfl rfl .expression) (.here _)))
  have hprint : Moment.Nests searcher ⟨1, .print [guest], s₁⟩ [searching]
      ⟨0, .task (.expr (.name "missing")), s₂⟩ :=
    .step .printed (.step (.strMethod rfl) (.step .native (.step (enters_searching _ _) hsearch)))
  have hwhole : Moment.Nests searcher ⟨2, .code greetingGuest, withGuest⟩ ([searching] ++ [greetingGuest])
      ⟨0, .task (.expr (.name "missing")), s₂⟩ :=
    .inside (.step (.begins rfl rfl (.first hline)) (.step (.begins rfl rfl .expression)
      (.step (.begins rfl rfl (.call hcallee hargs hkwargs)) (.step .puts hprint))))
  refine ⟨s₂, hwhole, ?_⟩
  cases hline
  cases hinner
  rfl

/-- The name is looked up in the place of the inner unit, and the exception comes out of the outer one with an
entry for each. -/
theorem nested_execution_guest : ∃ s entries raised m',
    lookup "missing" s = .error (.raised (Cause.unbound "missing").exception) s ∧
    (∃ line, Run.position s = .ok ⟨"search.rb", line, "search"⟩ s) ∧
    greetingGuest.exec (searcher.engine 2) withGuest = .error (.raised raised) m' ∧
    m'.position = withGuest.position ∧
    raised = { (Cause.unbound "missing").exception with trace := entries } ∧
    entries.map TraceEntry.place = [("search.rb", "search"), ("main.rb", "<module>")] ∧
    raised.report = String.join (("Traceback (most recent call last):" ::
      (entries.reverse.map TraceEntry.text ++ ["NameError: name 'missing' is not defined"])).map (· ++ "\n")) := by
  obtain ⟨s, hnests, hglobals⟩ := nests_guest
  have hlookup : lookup "missing" s = .error (.raised (Cause.unbound "missing").exception) s := by
    apply lookup_of_get?_none
    rw [hglobals]
    exact withGuest_missing
  have hraises : Moment.Raises searcher ⟨0, .task (.expr (.name "missing")), s⟩
      (Cause.unbound "missing").exception s := by
    refine bind_of_error ?_
    rw [Expr.eval]
    exact hlookup
  have hsummary : (Cause.unbound "missing").exception.summary = "NameError: name 'missing' is not defined" := by
    decide
  obtain ⟨-, -, hnested⟩ := Host.nested_execution searcher 2
  obtain ⟨hplace, hout⟩ := hnested _ _ _ _ hnests
  obtain ⟨entries, raised, m', hrun, hposition, htrace, hplaces, hreport⟩ := hout _ _ hraises
  refine ⟨s, entries, raised, m', hlookup, hplace searching rfl, hrun, hposition, htrace, hplaces, ?_⟩
  rw [hreport, hsummary]
  rw [show (Cause.unbound "missing").exception.trace = [] from rfl, List.reverse_nil, List.map_nil,
    List.append_nil]

end Guest

end SealedScript
