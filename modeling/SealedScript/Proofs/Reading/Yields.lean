import SealedScript.Proofs.Reading.Outcome

/-! What holds of every value a reader can give, whatever text it is given. -/

namespace SealedScript.Json.Read

variable {α β : Type}

/-- Every value that the reader gives satisfies `P`. -/
def Yields (read : Read α) (P : α → Prop) : Prop :=
  ∀ text value rest, read text = .ok (value, rest) → P value

variable {P : α → Prop} {Q : β → Prop} {read : Read α}

lemma Yields.mono (h : Yields read P) {P' : α → Prop} (himp : ∀ a, P a → P' a) : Yields read P' :=
  fun text value rest hread => himp value (h text value rest hread)

lemma yields_true (read : Read α) : Yields read fun _ => True :=
  fun _ _ _ _ => trivial

lemma yields_throw (fault : Fault) : Yields (throw fault : Read α) P := by
  intro text value rest h
  cases h

lemma yields_pure {a : α} (h : P a) : Yields (pure a) P := by
  intro text value rest hread
  cases hread
  exact h

lemma Yields.bind {next : α → Read β} (h : Yields read P) (hnext : ∀ a, P a → Yields (next a) Q) :
    Yields (read >>= next) Q := by
  intro text value rest hread
  rw [bind_run, Except.bind_eq_ok_iff] at hread
  obtain ⟨⟨a, rest'⟩, hfirst, hsecond⟩ := hread
  exact hnext a (h text a rest' hfirst) rest' value rest hsecond

/-- A step whose value does not matter. -/
lemma yields_after (read : Read α) {next : α → Read β} (hnext : ∀ a, Yields (next a) Q) :
    Yields (read >>= next) Q :=
  (yields_true read).bind fun a _ => hnext a

lemma Yields.map (h : Yields read P) {f : α → β} (hf : ∀ a, P a → Q (f a)) : Yields (f <$> read) Q := by
  intro text value rest hread
  rw [map_run, Except.bind_eq_ok_iff] at hread
  obtain ⟨⟨a, rest'⟩, hfirst, hsecond⟩ := hread
  cases hsecond
  exact hf _ (h _ _ _ hfirst)

lemma yields_lift {outcome : Except Fault α} (h : ∀ a, outcome = .ok a → P a) :
    Yields (liftM outcome : Read α) P := by
  intro text value rest hread
  rw [lift_run, Except.bind_eq_ok_iff] at hread
  obtain ⟨a, hoka, hsecond⟩ := hread
  cases hsecond
  exact h _ hoka

lemma yields_ite {c : Prop} [Decidable c] {thenRead elseRead : Read α} (hthen : c → Yields thenRead P)
    (helse : ¬ c → Yields elseRead P) : Yields (if c then thenRead else elseRead) P := by
  split_ifs with h
  · exact hthen h
  · exact helse h

lemma Yields.parse (h : Yields read P) {text : String} {value : α} (hparse : parse read text = .ok value) :
    P value := by
  unfold Read.parse at hparse
  obtain ⟨⟨value', rest⟩, hread, hend⟩ := Except.bind_eq_ok_iff.mp hparse
  dsimp only at hend
  split_ifs at hend
  · cases hend
    exact h _ _ _ hread

/-- What every turn of a loop keeps holds at its end. -/
lemma yields_iterate {σ : Type} {step : σ → Read (σ ⊕ α)} {I : σ → Prop}
    (hstep : ∀ s, I s → Yields (step s) fun | .inl s' => I s' | .inr a => P a) (bound : List Char)
    {s : σ} (hs : I s) : Yields (iterate step bound s) P := by
  induction bound generalizing s with
  | nil =>
    refine (hstep s hs).bind fun result hresult => ?_
    cases result with
    | inl s' => exact yields_throw _
    | inr a => exact yields_pure hresult
  | cons c bound ih =>
    refine (hstep s hs).bind fun result hresult => ?_
    cases result with
    | inl s' => exact ih hresult
    | inr a => exact yields_pure hresult

lemma yields_loop {σ : Type} {step : σ → Read (σ ⊕ α)} (I : σ → Prop)
    (hstep : ∀ s, I s → Yields (step s) fun | .inl s' => I s' | .inr a => P a) {s : σ} (hs : I s) :
    Yields (loop step s) P :=
  yields_after _ fun bound => yields_iterate hstep bound hs

lemma yields_enter {depth : Nat} {body : (inner : Nat) → inner < depth → Read α}
    (h : ∀ inner hinner, Yields (body inner hinner) P) : Yields (enter depth body) P := by
  cases depth with
  | zero => exact yields_throw _
  | succ inner => exact yields_after _ fun _ => h inner _

lemma yields_unexpected : Yields (unexpected : Read α) P := by
  unfold unexpected
  have hend : Yields (throw .mismatch : Read α) P := yields_throw _
  refine yields_after _ fun c => ?_
  dsimp only
  split_ifs
  · exact yields_after _ fun _ => hend
  · exact yields_after _ fun _ => hend
  · exact yields_after _ fun _ => hend
  · exact yields_after _ fun _ => yields_after _ fun _ => hend
  · exact yields_after _ fun _ => hend
  · exact yields_after _ fun _ => yields_after _ fun _ => hend
  · exact hend
  · exact yields_after _ fun _ => hend

/-- Every item of a list satisfies what its reader promises, and a bracket could be opened. -/
lemma yields_list {depth : Nat} {item : (inner : Nat) → inner < depth → Read α}
    (h : ∀ inner hinner, Yields (item inner hinner) P) :
    Yields (list depth item) fun values => 0 < depth ∧ ∀ value ∈ values, P value := by
  refine yields_after _ fun c => yields_ite (fun _ => ?_) fun _ => yields_unexpected
  refine yields_enter fun inner hinner => ?_
  refine Yields.bind (P := fun values => ∀ value ∈ values, P value) ?_ fun values hvalues =>
    yields_after _ fun _ => yields_pure ⟨Nat.zero_lt_of_lt hinner, hvalues⟩
  refine yields_loop (fun done => ∀ value ∈ done, P value) (fun done hdone => ?_) (by simp)
  refine yields_after _ fun more => yields_ite (fun _ => ?_) fun _ => yields_pure (by simpa using hdone)
  refine (h inner hinner).bind fun value hvalue => yields_pure ?_
  intro other hother
  rcases List.mem_cons.mp hother with rfl | hother
  · exact hvalue
  · exact hdone other hother

namespace Fields

/-- Every record that the fields are put together to satisfies `P`; `S` is what holds of the fields
read so far. -/
structure Keeps (f : Fields α) (S : f.Slots → Prop) (P : α → Prop) : Prop where
  none : S f.none
  member : ∀ {key slots read}, f.member key slots = some read → S slots → Yields read S
  finish : ∀ {slots value}, f.finish slots = .ok value → S slots → P value
  items : ∀ fresh, Yields (f.items fresh) P

/-- Every record that the fields are put together to satisfies `P`. -/
def Yields (f : Fields α) (P : α → Prop) : Prop :=
  ∃ S, f.Keeps S P

lemma yields_true (f : Fields α) : f.Yields fun _ => True :=
  ⟨fun _ => True, trivial, fun _ _ => Read.yields_true _, fun _ _ => trivial, fun _ => Read.yields_true _⟩

lemma Yields.mono {f : Fields α} (h : f.Yields P) {P' : α → Prop} (himp : ∀ a, P a → P' a) :
    f.Yields P' := by
  obtain ⟨S, hkeeps⟩ := h
  exact ⟨S, hkeeps.none, hkeeps.member, fun hfinish hslots => himp _ (hkeeps.finish hfinish hslots),
    fun fresh => (hkeeps.items fresh).mono himp⟩

lemma one_yields (key : String) (h : read.Yields P) {absent : Option α} (habsent : ∀ a ∈ absent, P a) :
    (one key read absent).Yields P := by
  have hnone : ∀ a ∈ (Option.none : Option α), P a := by simp
  refine ⟨fun slot : Option α => ∀ a ∈ slot, P a, ⟨hnone, ?_, ?_, ?_⟩⟩
  · intro k slots read' hmember hslots
    simp only [one] at hmember
    split_ifs at hmember
    obtain rfl := Option.some.inj hmember
    cases slots with
    | some a => exact yields_throw _
    | none => exact yields_after _ fun _ => h.map fun a ha b hb => Option.some.inj hb ▸ ha
  · intro slots value hfinish hslots
    cases slots with
    | some a =>
      obtain rfl := Except.ok.inj hfinish
      exact hslots a rfl
    | none =>
      cases absent with
      | some a =>
        obtain rfl := Except.ok.inj hfinish
        exact habsent a rfl
      | none => cases hfinish
  · intro fresh
    refine yields_after _ fun more => yields_ite (fun _ => h) fun _ => ?_
    cases absent with
    | some a => exact yields_pure (habsent a rfl)
    | none => exact yields_throw _

lemma Yields.and {f : Fields α} {g : Fields β} (hf : f.Yields P) (hg : g.Yields Q) :
    (f.and g).Yields fun p => P p.1 ∧ Q p.2 := by
  obtain ⟨S, hf⟩ := hf
  obtain ⟨T, hg⟩ := hg
  refine ⟨fun slots => S slots.1 ∧ T slots.2, ⟨⟨hf.none, hg.none⟩, ?_, ?_, ?_⟩⟩
  · rintro key ⟨s, t⟩ read hmember ⟨hs, ht⟩
    simp only [Fields.and] at hmember
    split at hmember
    · next readF hreadF =>
      obtain rfl := Option.some.inj hmember
      exact (hf.member hreadF hs).bind fun s' hs' => yields_pure ⟨hs', ht⟩
    · split at hmember
      · next readG hreadG =>
        obtain rfl := Option.some.inj hmember
        exact (hg.member hreadG ht).bind fun t' ht' => yields_pure ⟨hs, ht'⟩
      · cases hmember
  · rintro ⟨s, t⟩ value hfinish ⟨hs, ht⟩
    obtain ⟨a, ha, hfinish⟩ := Except.bind_eq_ok_iff.mp hfinish
    obtain ⟨b, hb, hfinish⟩ := Except.bind_eq_ok_iff.mp hfinish
    cases hfinish
    exact ⟨hf.finish ha hs, hg.finish hb ht⟩
  · intro fresh
    exact (hf.items fresh).bind fun a ha => (hg.items false).bind fun b hb => yields_pure ⟨ha, hb⟩

lemma Yields.members {f : Fields α} (h : f.Yields P) : f.members.Yields P := by
  obtain ⟨S, h⟩ := h
  refine Read.Yields.bind (P := S) ?_ fun slots hslots => yields_lift fun a ha => h.finish ha hslots
  refine yields_loop (fun state => S state.2) ?_ h.none
  rintro ⟨fresh, slots⟩ hslots
  refine yields_after _ fun more => yields_ite (fun _ => ?_) fun _ => yields_pure hslots
  refine yields_after _ fun _ => yields_after _ fun key => ?_
  split
  · next read hread => exact (h.member hread hslots).bind fun s hs => yields_pure hs
  · exact yields_after _ fun _ => yields_after _ fun _ => yields_pure hslots

end Fields

lemma yields_tuple {depth : Nat} {fields : (inner : Nat) → inner < depth → Fields α}
    (h : ∀ inner hinner, (fields inner hinner).Yields P) : Yields (tuple depth fields) P := by
  refine yields_after _ fun c => yields_ite (fun _ => ?_) fun _ => yields_unexpected
  refine yields_enter fun inner hinner => ?_
  obtain ⟨S, hkeeps⟩ := h inner hinner
  exact (hkeeps.items true).bind fun value hvalue => yields_after _ fun _ => yields_pure hvalue

/-- A record may be written as an object or as a list. -/
lemma yields_record {depth : Nat} {fields : (inner : Nat) → inner < depth → Fields α}
    (h : ∀ inner hinner, (fields inner hinner).Yields P) : Yields (record depth fields) P := by
  refine yields_after _ fun c => yields_ite (fun _ => ?_) fun _ => yields_tuple h
  refine yields_enter fun inner hinner => ?_
  exact (h inner hinner).members.bind fun value hvalue => yields_after _ fun _ => yields_pure hvalue

lemma yields_choice {depth : Nat} {bare : String → Option α}
    {holding : (inner : Nat) → inner < depth → String → Option (Read α)}
    (hbare : ∀ tag, ∀ value ∈ bare tag, P value)
    (hholding : ∀ inner hinner tag, ∀ read ∈ holding inner hinner tag, Yields read P) :
    Yields (choice depth bare holding) P := by
  refine yields_after _ fun c => yields_ite (fun _ => ?_) fun _ => yields_ite (fun _ => ?_) fun _ =>
    yields_throw _
  · refine yields_after _ fun _ => yields_after _ fun tag => ?_
    split
    · next value hvalue => exact yields_pure (hbare tag value hvalue)
    · exact yields_throw _
  · refine yields_enter fun inner hinner => yields_after _ fun tag => ?_
    have hend : ∀ value, P value → Yields (do closing '\x7d'; pure value : Read α) P :=
      fun value hvalue => yields_after _ fun _ => yields_pure hvalue
    dsimp only
    split
    · next value hvalue =>
      exact yields_after _ fun _ => yields_after _ fun _ =>
        (yields_pure (hbare tag value hvalue)).bind hend
    · next read _ hread =>
      exact yields_after _ fun _ => (hholding inner hinner tag read hread).bind hend
    · exact (yields_throw (P := P) _).bind hend

end SealedScript.Json.Read
