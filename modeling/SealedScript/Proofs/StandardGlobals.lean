import SealedScript.Bootstrap
import SealedScript.Proofs.TableHistory

/-! The standard globals are bound one after the other, up to the first name that is closed. Binding them
once more ends in the same way and changes nothing. -/

namespace SealedScript

open Run

variable {m : Machine} {entries before : List (String × Value)}

/-- The entries have been bound, and nothing else has changed. -/
structure Machine.Binds (entries : List (String × Value)) (m m' : Machine) : Prop where
  bound : ∀ entry ∈ entries, m'.globals.get? entry.1 = some entry.2
  others : ∀ name ∉ entries.map Prod.fst, m'.globals.get? name = m.globals.get? name
  frozen : m'.globals.frozen = m.globals.frozen
  readOnly : m'.globals.readOnly = m.globals.readOnly
  elsewhere : m' = { m with globals := m'.globals }

/-- The state with the entries bound, whether they may be written or not. -/
def Machine.withBindings (m : Machine) (entries : List (String × Value)) : Machine :=
  { m with globals := { m.globals with bindings := m.globals.bindings.insertMany entries } }

lemma Machine.withBindings_append (entries later : List (String × Value)) :
    (m.withBindings entries).withBindings later = m.withBindings (entries ++ later) := by
  simp only [withBindings, Std.TreeMap.insertMany_append]

lemma Machine.binds_withBindings (h : (entries.map Prod.fst).Nodup) :
    m.Binds entries (m.withBindings entries) := by
  refine ⟨fun entry hentry => ?_, fun name hname => ?_, rfl, rfl, rfl⟩
  · have hdistinct : entries.Pairwise fun a b => ¬ compare a.1 b.1 = .eq := by
      refine (List.pairwise_map.mp h).imp fun hne hsame => ?_
      exact hne (Std.compare_eq_iff_eq.mp hsame)
    exact Std.TreeMap.getElem?_insertMany_list_of_mem (Std.compare_eq_iff_eq.mpr rfl) hdistinct hentry
  · exact Std.TreeMap.getElem?_insertMany_list_of_contains_eq_false (by simpa using hname)

/-- What is bound once more is found as before. -/
lemma Machine.binds_nil_withBindings :
    (m.withBindings entries).Binds [] ((m.withBindings entries).withBindings entries) := by
  refine ⟨fun entry hentry => absurd hentry List.not_mem_nil, fun name _ => ?_, rfl, rfl, rfl⟩
  simp only [Namespace.get?, withBindings, Std.TreeMap.getElem?_insertMany_list]
  rw [← Option.or_assoc, Option.or_self]

namespace Bootstrap

/-- Names that may be written are bound, and it goes on behind them. -/
lemma bindAll_append (h : ∀ entry ∈ before, m.globals.Writable entry.1) (after : List (String × Value)) :
    bindAll (before ++ after) m = bindAll after (m.withBindings before) := by
  induction before generalizing m with
  | nil => rfl
  | cons entry before ih =>
    rw [List.forall_mem_cons] at h
    have hrest : ∀ other ∈ before, (m.withBindings [entry]).globals.Writable other.1 := h.2
    have hassign : assign entry.1 entry.2 m = .ok () (m.withBindings [entry]) := assign_of_writable h.1 entry.2
    rw [List.cons_append, bindAll, bind_of_ok hassign, ih hrest, Machine.withBindings_append,
      List.singleton_append]

/-- Writing changes no protection, so what is closed is closed from the beginning. -/
lemma bindAll_of_closed (hopen : ∀ entry ∈ before, m.globals.Writable entry.1) {entry : String × Value}
    (hclosed : ¬ m.globals.Writable entry.1) (after : List (String × Value)) :
    bindAll (before ++ entry :: after) m =
      .error (.raised (m.globals.refusal entry.1).exception) (m.withBindings before) := by
  have hclosed' : ¬ (m.withBindings before).globals.Writable entry.1 := hclosed
  rw [bindAll_append hopen, bindAll, bind_of_error (assign_of_closed hclosed' entry.2)]
  rfl

/-- The entries up to the first whose name is closed. -/
lemma exists_split_of_writable (ns : Namespace) (entries : List (String × Value)) :
    ∃ before after, entries = before ++ after ∧ (∀ entry ∈ before, ns.Writable entry.1) ∧
      ∀ entry ∈ after.head?, ¬ ns.Writable entry.1 := by
  induction entries with
  | nil => exact ⟨[], [], rfl, by simp, by simp⟩
  | cons entry entries ih =>
    by_cases h : ns.Writable entry.1
    · obtain ⟨before, after, hsplit, hbefore, hafter⟩ := ih
      exact ⟨entry :: before, after, congrArg _ hsplit, List.forall_mem_cons.mpr ⟨h, hbefore⟩, hafter⟩
    · exact ⟨[], entry :: entries, rfl, by simp, by simpa using h⟩

/-- In any state, what comes before the first closed name is bound and nothing else changes; if there is such
a name, the exception is the one that writing it raises. Binding the names again ends in the same way and
leaves all globals as they are. -/
theorem standard_writes_prefix (m : Machine) :
    ∃ before after m' m'',
      [("true", .bool true), ("false", .bool false), ("p", .builtin "puts" .puts)] = before ++ after ∧
      (∀ entry ∈ before, m.globals.Writable entry.1) ∧ m.Binds before m' ∧ m'.Binds [] m'' ∧
      (after = [] ∧ standard m = .ok () m' ∧ standard m' = .ok () m'' ∨
        ∃ name value rest e, after = (name, value) :: rest ∧ ¬ m.globals.Writable name ∧
          e.kind = .typeError ∧ assign name value m = .error (.raised e) m ∧
          standard m = .error (.raised e) m' ∧ standard m' = .error (.raised e) m'') := by
  obtain ⟨before, after, hsplit, hopen, hclosed⟩ := exists_split_of_writable m.globals standardNames
  have hnames : ((before ++ after).map Prod.fst).Nodup := by
    rw [← hsplit]
    decide
  have hbefore : (before.map Prod.fst).Nodup := by
    rw [List.map_append] at hnames
    exact (List.nodup_append.mp hnames).1
  -- the second run finds the same names open as the first
  have hopen' : ∀ entry ∈ before, (m.withBindings before).globals.Writable entry.1 := hopen
  refine ⟨before, after, m.withBindings before, (m.withBindings before).withBindings before, hsplit, hopen,
    Machine.binds_withBindings hbefore, Machine.binds_nil_withBindings, ?_⟩
  unfold standard
  rw [hsplit]
  cases after with
  | nil => exact .inl ⟨rfl, bindAll_append hopen [], bindAll_append hopen' []⟩
  | cons entry rest =>
    have hname : ¬ m.globals.Writable entry.1 := hclosed entry rfl
    exact .inr ⟨entry.1, entry.2, rest, _, rfl, hname, Namespace.refusal_kind, assign_of_closed hname entry.2,
      bindAll_of_closed hopen hname rest, bindAll_of_closed hopen' hname rest⟩

end Bootstrap

end SealedScript
