import SealedScript.Proofs.Machine.Layers

/-! The line printer takes its arguments one after the other and stops at the first that cannot be converted
or written. The conversions may run any code of the host, which may print lines of its own; the lines already
written stay. -/

namespace SealedScript

open Run

section Output

/-- Output is only added to: the device is the same, and all that was offered to it is on record. -/
structure Stream.Extends (s s' : Stream) : Prop where
  device : s'.device = s.device
  history : s.history <:+ s'.history

/-- Among the offers made in between there are some of these texts, in this order, which the device took
without complaint. -/
def Stream.Takes (s s' : Stream) (texts : List String) : Prop :=
  ∃ recent taken : List Offer, s'.history = recent ++ s.history ∧ taken.Sublist recent.reverse ∧
    taken.map (·.text) = texts ∧ ∀ offer ∈ taken, offer.reply.failure = none

namespace Stream

variable {s s' s'' : Stream} {texts : List String}

lemma Extends.refl (s : Stream) : s.Extends s :=
  ⟨rfl, List.suffix_refl _⟩

lemma Extends.trans (h₁ : s.Extends s') (h₂ : s'.Extends s'') : s.Extends s'' :=
  ⟨h₂.device.trans h₁.device, h₁.history.trans h₂.history⟩

lemma extends_offer (s : Stream) (text : String) : s.Extends (s.offer text) :=
  ⟨rfl, List.suffix_cons _ _⟩

lemma takes_nil (s : Stream) : s.Takes s [] :=
  ⟨[], [], rfl, List.Sublist.refl _, rfl, by simp⟩

/-- Nothing that is offered later takes a line back. -/
lemma Takes.extends (h : s.Takes s' texts) (hlater : s'.Extends s'') : s.Takes s'' texts := by
  obtain ⟨recent, taken, hrecent, htaken, htexts, haccepted⟩ := h
  obtain ⟨later, hlater⟩ := hlater.history
  refine ⟨later ++ recent, taken, ?_, ?_, htexts, haccepted⟩
  · rw [← hlater, hrecent, List.append_assoc]
  · rw [List.reverse_append]
    exact htaken.trans (List.sublist_append_left _ _)

/-- A text that is taken comes before those taken later. -/
lemma Takes.cons (hbefore : s.Extends s') {text : String} (hreply : (s'.reply text).failure = none)
    (h : (s'.offer text).Takes s'' texts) : s.Takes s'' (text :: texts) := by
  obtain ⟨recent, taken, hrecent, htaken, htexts, haccepted⟩ := h
  obtain ⟨earlier, hearlier⟩ := hbefore.history
  let offer : Offer := ⟨text, s'.reply text, storedBytes s'.history + (s'.reply text).size⟩
  have hoffer : (s'.offer text).history = offer :: s'.history := rfl
  refine ⟨recent ++ offer :: earlier, offer :: taken, ?_, ?_, ?_, ?_⟩
  · rw [hrecent, hoffer, ← hearlier, List.append_assoc, List.cons_append]
  · rw [List.reverse_append, List.reverse_cons, List.append_assoc, List.singleton_append]
    exact (htaken.cons_cons offer).trans (List.sublist_append_right _ _)
  · rw [List.map_cons, htexts]
  · exact List.forall_mem_cons.mpr ⟨hreply, haccepted⟩

end Stream

/-- Standard output is only added to. -/
def Machine.OutputExtends (m m' : Machine) : Prop :=
  m.stdout.Extends m'.stdout

instance : IsPreorder Machine Machine.OutputExtends where
  refl m := Stream.Extends.refl m.stdout
  trans _ _ _ := Stream.Extends.trans

/-- No change of the state takes output back. -/
lemma Machine.admits_outputExtends : Machine.Admits Machine.OutputExtends where
  newId m := Stream.Extends.refl m.stdout
  offered channel text m := by
    cases channel with
    | stdout => exact m.stdout.extends_offer text
    | stderr => exact Stream.Extends.refl m.stdout
  bound {m} _ _ _ _ := Stream.Extends.refl m.stdout
  frozen m := Stream.Extends.refl m.stdout
  closed m _ := Stream.Extends.refl m.stdout
  hooked m _ := Stream.Extends.refl m.stdout
  moved m _ := Stream.Extends.refl m.stdout
  kept m _ _ := Stream.Extends.refl m.stdout

lemma Value.toStr_outputExtends (host : Host) (fuel : Nat) (value : Value) :
    (value.toStr (host.engine fuel)).Within Machine.OutputExtends :=
  value.toStr_within (Machine.admits_outputExtends.host_engine host fuel).toEvaluates

end Output

section Lines

/-- Each value in turn is converted to its text, and the device takes the line without complaint. -/
inductive Prints (engine : Engine) : Machine → List Value → List String → Machine → Prop
  | nil (m : Machine) : Prints engine m [] [] m
  | cons {m m₁ m' : Machine} {value : Value} {text : String} {values : List Value} {texts : List String}
      (hconverted : value.toStr engine m = .ok text m₁)
      (htaken : (m₁.stdout.reply (text ++ "\n")).failure = none)
      (hrest : Prints engine (m₁.offer .stdout (text ++ "\n")) values texts m') :
    Prints engine m (value :: values) (text :: texts) m'

/-- The value cannot be converted, or the device complains about its line. -/
inductive PrintFails (engine : Engine) (value : Value) (m : Machine) : Stop → Machine → Prop
  | conversion {stop : Stop} {m' : Machine} (h : value.toStr engine m = .error stop m') :
    PrintFails engine value m stop m'
  | output {m₁ : Machine} {text reason : String} (hconverted : value.toStr engine m = .ok text m₁)
      (hrefused : (m₁.stdout.reply (text ++ "\n")).failure = some reason) :
    PrintFails engine value m (.raised ⟨.ioError, reason, none, []⟩) (m₁.offer .stdout (text ++ "\n"))

variable {engine : Engine} {m m₁ m' : Machine} {stop : Stop}

lemma printLine_of_taken {text : String} (h : (m.stdout.reply (text ++ "\n")).failure = none) :
    printLine text m = .ok () (m.offer .stdout (text ++ "\n")) := by
  rw [printLine_run, h]

lemma printLine_of_refused {text reason : String}
    (h : (m.stdout.reply (text ++ "\n")).failure = some reason) :
    printLine text m = .error (.raised ⟨.ioError, reason, none, []⟩) (m.offer .stdout (text ++ "\n")) := by
  rw [printLine_run, h]
  rfl

lemma puts_append (engine : Engine) (xs ys : List Value) :
    puts engine (xs ++ ys) = (do let _ ← puts engine xs; puts engine ys) := by
  induction xs with
  | nil => rfl
  | cons x xs ih =>
    rw [List.cons_append, puts, puts, ih]
    simp only [bind_assoc]

/-- The values printed so far do not matter for what follows, but for the state they leave. -/
lemma Prints.puts_append {before : List Value} {texts : List String} (h : Prints engine m before texts m₁)
    (after : List Value) : puts engine (before ++ after) m = puts engine after m₁ := by
  induction h with
  | nil m => rfl
  | cons hconverted htaken _ ih =>
    rw [List.cons_append, puts, bind_of_ok hconverted, bind_of_ok (printLine_of_taken htaken), ih]

lemma Prints.puts {values : List Value} {texts : List String} (h : Prints engine m values texts m') :
    puts engine values m = .ok .none m' := by
  have hall := h.puts_append []
  rwa [List.append_nil] at hall

/-- A failure ends the printing, whatever was to come after. -/
lemma PrintFails.puts_cons {value : Value} (h : PrintFails engine value m stop m') (after : List Value) :
    puts engine (value :: after) m = .error stop m' := by
  cases h with
  | conversion h =>
    rw [puts]
    exact bind_of_error h
  | output hconverted hrefused =>
    rw [puts, bind_of_ok hconverted]
    exact bind_of_error (printLine_of_refused hrefused)

/-- Printing comes to its end, or to a first value that fails. -/
lemma prints_or_fails (engine : Engine) (values : List Value) (m : Machine) :
    (∃ texts m', Prints engine m values texts m') ∨
      ∃ before value after texts m₁ stop m', values = before ++ value :: after ∧
        Prints engine m before texts m₁ ∧ PrintFails engine value m₁ stop m' := by
  induction values generalizing m with
  | nil => exact .inl ⟨[], m, .nil m⟩
  | cons value values ih =>
    cases hconverted : value.toStr engine m with
    | error stop m' => exact .inr ⟨[], value, values, [], m, stop, m', rfl, .nil m, .conversion hconverted⟩
    | ok text m₁ =>
      cases hreply : (m₁.stdout.reply (text ++ "\n")).failure with
      | some reason =>
        exact .inr ⟨[], value, values, [], m, _, _, rfl, .nil m, .output hconverted hreply⟩
      | none =>
        rcases ih (m₁.offer .stdout (text ++ "\n")) with
          ⟨texts, m', hprints⟩ | ⟨before, failing, after, texts, m₂, stop, m', rfl, hprints, hfails⟩
        · exact .inl ⟨text :: texts, m', hprints.cons hconverted hreply⟩
        · exact .inr ⟨value :: before, failing, after, text :: texts, m₂, stop, m', rfl,
            hprints.cons hconverted hreply, hfails⟩

lemma puts_eq_ok_iff {values : List Value} {result : Value} :
    puts engine values m = .ok result m' ↔ result = .none ∧ ∃ texts, Prints engine m values texts m' := by
  constructor
  · intro hrun
    rcases prints_or_fails engine values m with
      ⟨texts, m₁, hprints⟩ | ⟨before, value, after, texts, m₁, stop, m₂, rfl, hprints, hfails⟩
    · rw [hprints.puts] at hrun
      cases hrun
      exact ⟨rfl, texts, hprints⟩
    · rw [hprints.puts_append, hfails.puts_cons] at hrun
      cases hrun
  · rintro ⟨rfl, texts, hprints⟩
    exact hprints.puts

lemma puts_eq_error_iff {values : List Value} :
    puts engine values m = .error stop m' ↔
      ∃ before value after texts m₁, values = before ++ value :: after ∧
        Prints engine m before texts m₁ ∧ PrintFails engine value m₁ stop m' := by
  constructor
  · intro hrun
    rcases prints_or_fails engine values m with
      ⟨texts, m₁, hprints⟩ | ⟨before, value, after, texts, m₁, stop, m₂, rfl, hprints, hfails⟩
    · rw [hprints.puts] at hrun
      cases hrun
    · rw [hprints.puts_append, hfails.puts_cons] at hrun
      cases hrun
      exact ⟨before, value, after, texts, m₁, rfl, hprints, hfails⟩
  · rintro ⟨before, value, after, texts, m₁, rfl, hprints, hfails⟩
    rw [hprints.puts_append, hfails.puts_cons]

end Lines

section Kept

variable {host : Host} {fuel : Nat} {m m₁ m' : Machine} {texts : List String}

/-- What was printed is on the device, among what the conversions have printed themselves. -/
lemma Prints.takes {values : List Value} (h : Prints (host.engine fuel) m values texts m') :
    m.stdout.Takes m'.stdout (texts.map (· ++ "\n")) := by
  induction h with
  | nil m => exact m.stdout.takes_nil
  | @cons m m₁ m' value text values texts hconverted htaken _ ih =>
    have hbefore : m.stdout.Extends m₁.stdout := (value.toStr_outputExtends host fuel).relates (.ok hconverted)
    exact ih.cons hbefore htaken

lemma PrintFails.outputExtends {value : Value} {e : Exception}
    (h : PrintFails (host.engine fuel) value m (.raised e) m') : m.stdout.Extends m'.stdout := by
  have hconversion := value.toStr_outputExtends host fuel
  cases h with
  | conversion h => exact hconversion.relates (.raised h)
  | @output m₁ text reason hconverted _ =>
    have hbefore : m.stdout.Extends m₁.stdout := hconversion.relates (.ok hconverted)
    exact hbefore.trans (m₁.stdout.extends_offer (text ++ "\n"))

end Kept

/-- Calls the line printer. The code behind it has `fuel` levels of calls below its own. -/
def Host.print (host : Host) (fuel : Nat) (args : List Value) (kwargs : List (String × Value)) : Run Value :=
  (Value.builtin Bootstrap.printerName .puts).call (host.engine (fuel + 1)) args kwargs

lemma Host.print_eq (host : Host) (fuel : Nat) (args : List Value) (kwargs : List (String × Value)) :
    host.print fuel args kwargs = puts (host.engine fuel) args := by
  rw [Host.print, Value.call]
  rfl

/-- The line printer is a fold over its positional arguments that stops at the first failure, raises just
that, and leaves the lines before it written. It is so over any engine; of a host's engine it is known
besides that no code takes output back. -/
theorem puts_stops_at_first_failure :
    (∀ engine : Engine,
      (∀ xs ys, puts engine (xs ++ ys) = (do let _ ← puts engine xs; puts engine ys)) ∧
      (∀ x, puts engine [x] = (do printLine (← x.toStr engine); return .none)) ∧
      (∀ args m result m', puts engine args m = .ok result m' ↔
        result = .none ∧ ∃ texts, Prints engine m args texts m') ∧
      (∀ args m stop m', puts engine args m = .error stop m' ↔
        ∃ before x after texts m₁, args = before ++ x :: after ∧
          Prints engine m before texts m₁ ∧ PrintFails engine x m₁ stop m')) ∧
    (∀ (host : Host) (fuel : Nat),
      (∀ args kwargs, host.print fuel args kwargs = puts (host.engine fuel) args) ∧
      (∀ m before texts m₁, Prints (host.engine fuel) m before texts m₁ →
        m.stdout.Takes m₁.stdout (texts.map (· ++ "\n")) ∧
        ∀ x e m', PrintFails (host.engine fuel) x m₁ (.raised e) m' →
          m.stdout.Takes m'.stdout (texts.map (· ++ "\n")))) := by
  refine ⟨fun engine => ⟨puts_append engine, fun x => rfl, fun args m result m' => puts_eq_ok_iff,
    fun args m stop m' => puts_eq_error_iff⟩, fun host fuel => ⟨host.print_eq fuel, ?_⟩⟩
  intro m before texts m₁ hprints
  exact ⟨hprints.takes, fun x e m' hfails => hprints.takes.extends hfails.outputExtends⟩

/-- A host with a text method that prints a line of its own first, and one that fails. -/
def chatter : Host :=
  { Host.none with
    native := fun symbol _ _ => do
      HostAction.printLine "hm"
      if symbol = "refuse" then HostAction.fail (.unbound symbol) else return .str "well" }

/-- An object whose text is what the symbol's code gives. -/
def talker (symbol : String) : Value :=
  .object 0 ⟨0, "Talker", [("__str__", .builtin symbol (.foreign symbol))]⟩

lemma talker_toStr (engine : Engine) (symbol : String) :
    (talker symbol).toStr engine =
      (do (← engine.native (.foreign symbol) [talker symbol] []).expectText "__str__") := by
  have hmethod : (Value.builtin symbol (.foreign symbol)).call engine [talker symbol] [] =
      engine.native (.foreign symbol) [talker symbol] [] := by rw [Value.call]
  rw [← hmethod]
  rfl

/-- The second argument prints a line before its own, the third prints one and fails, the last is not even
asked for its text. -/
theorem puts_stops_at_first_failure_chatter :
    ∃ m₁ m' : Machine,
      Prints (chatter.engine 2) (.fresh .plain .plain .empty) [.int 1, talker "speak"] ["1", "well"] m₁ ∧
      chatter.print 2 [.int 1, talker "speak", talker "refuse", talker "speak"] [("end", .str "")]
        (.fresh .plain .plain .empty) = .error (.raised (Cause.unbound "refuse").exception) m' ∧
      (Machine.fresh .plain .plain .empty).stdout.Takes m'.stdout ["1\n", "well\n"] ∧
      m'.stdout.written = ["1\n", "hm\n", "well\n", "hm\n"] := by
  let m₀ := Machine.fresh .plain .plain .empty
  let m₁ := ((m₀.offer .stdout "1\n").offer .stdout "hm\n").offer .stdout "well\n"
  have hprints : Prints (chatter.engine 2) m₀ [.int 1, talker "speak"] ["1", "well"] m₁ :=
    .cons rfl rfl (.cons (by rw [talker_toStr]; rfl) rfl (.nil m₁))
  have hfails : PrintFails (chatter.engine 2) (talker "refuse") m₁
      (.raised (Cause.unbound "refuse").exception) (m₁.offer .stdout "hm\n") :=
    .conversion (by rw [talker_toStr]; rfl)
  obtain ⟨hevery, hhosts⟩ := puts_stops_at_first_failure
  obtain ⟨-, -, -, herror⟩ := hevery (chatter.engine 2)
  obtain ⟨hprint, hkept⟩ := hhosts chatter 2
  refine ⟨m₁, m₁.offer .stdout "hm\n", hprints, ?_, ?_, ?_⟩
  · rw [hprint]
    exact (herror _ _ _ _).mpr ⟨_, _, [talker "speak"], _, m₁, rfl, hprints, hfails⟩
  · exact (hkept _ _ _ _ hprints).2 _ _ _ hfails
  · rfl

end SealedScript
