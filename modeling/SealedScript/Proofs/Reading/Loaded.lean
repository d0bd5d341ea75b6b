import SealedScript.Program.Load
import SealedScript.Proofs.Decimal.Binary64
import SealedScript.Proofs.Reading.Yields
import SealedScript.Proofs.Syntax

/-! What every loaded program satisfies: its floats are finite, and it nests no deeper than the limit
on its text. -/

namespace SealedScript

open Json (Fault)
open Json.Read
open Json.Read.Fields (one_yields required optional)

namespace Json.Read

section Floats

variable {x : Float}

lemma powerOfTen_isFinite {k : Nat} (hk : k ≤ 308) : (powerOfTen k).isFinite = true := by
  rcases Nat.eq_zero_or_pos k with rfl | hpos
  · decide +kernel
  · obtain ⟨t, ht, -⟩ := Binary64.leading_powerOfTen hpos hk
    exact Binary64.isFinite_of_leading ht

lemma div_powerOfTen_isFinite (hx : x.isFinite = true) {k : Nat} (hpos : 0 < k) (hk : k ≤ 308) :
    (x / powerOfTen k).isFinite = true := by
  obtain ⟨t, ht, hlarge⟩ := Binary64.leading_powerOfTen hpos hk
  exact Binary64.div_isFinite hx ht hlarge

lemma scaleDown_isFinite (hx : x.isFinite = true) {k : Nat} (hpos : 0 < k) :
    (scaleDown x k).isFinite = true := by
  induction k using Nat.strongRecOn generalizing x with
  | ind k ih =>
    rw [scaleDown]
    split_ifs with hk hzero
    · exact div_powerOfTen_isFinite hx hpos hk
    · exact hx
    · exact ih (k - 308) (by omega) (div_powerOfTen_isFinite hx (by decide) (le_refl 308)) (by omega)

/-- A number that is read as a float is a finite one. -/
lemma floatOfParts_isFinite {significand : Nat} {exponent : Int}
    (h : floatOfParts significand exponent = .ok x) : x.isFinite = true := by
  have hstart := (Binary64.toFloat_spec (UInt64.ofNat significand)).1
  unfold floatOfParts at h
  dsimp only at h
  split_ifs at h with hsign hlarge hinf hzero
  · obtain rfl := Except.ok.inj h
    exact Binary64.mul_isFinite hstart (powerOfTen_isFinite (by omega)) (by simpa using hinf)
  · obtain rfl := Except.ok.inj h
    exact hstart
  · obtain rfl := Except.ok.inj h
    exact scaleDown_isFinite hstart (by omega)

lemma exponentPart_yields (significand : Nat) (places : Int) :
    (exponentPart significand places).Yields fun x => x.isFinite = true := by
  have hparts : ∀ exponent, Yields (liftM (floatOfParts significand exponent) : Read Float)
      fun x => x.isFinite = true :=
    fun exponent => yields_lift fun _ => floatOfParts_isFinite
  have hzero : Float.isFinite 0.0 = true := by decide +kernel
  have hend : ∀ negative : Bool, Yields (do
      let exponent := natValue (← someDigits)
      if maxExponent < exponent then
        if significand ≠ 0 ∧ !negative then throw .malformed else return 0.0
      floatOfParts significand (if negative then places - exponent else places + exponent) :
        Read Float) fun x => x.isFinite = true := by
    intro negative
    refine yields_after _ fun ds => yields_ite (fun _ => ?_) fun _ => hparts _
    exact yields_ite (fun _ => yields_after _ fun _ => hparts _) fun _ => yields_pure hzero
  refine yields_after _ fun _ => yields_after _ fun c => ?_
  dsimp only
  split
  · exact yields_after _ fun _ => yields_after _ hend
  · exact yields_after _ fun _ => yields_after _ hend
  · exact yields_after _ hend

lemma fractionPart_yields (significand : Nat) (places : Int) :
    (fractionPart significand places).Yields fun x => x.isFinite = true := by
  refine yields_after _ fun _ => yields_after _ fun ds => yields_after _ fun c => ?_
  exact yields_ite (fun _ => exponentPart_yields _ _) fun _ =>
    yields_lift fun _ => floatOfParts_isFinite

/-- An integer of at most sixty-four bits, or a finite float. -/
def Number.Sound : Number → Prop
  | .int i => i.natAbs < 2 ^ 64
  | .float x => x.isFinite = true

lemma accumulate_lt {n : Nat} (hn : n < 2 ^ 64) (ds : List Char) : (accumulate n ds).1 < 2 ^ 64 := by
  induction ds generalizing n with
  | nil => exact hn
  | cons c ds ih =>
    rw [accumulate]
    split_ifs with hlarge
    · exact hn
    · exact ih (Nat.lt_of_not_le hlarge)

lemma signed_sound (negative : Bool) (hx : x.isFinite = true) :
    Number.Sound (.float (if negative then -x else x)) := by
  cases negative with
  | true => exact Binary64.neg_isFinite hx
  | false => exact hx

lemma numberRest_yields (negative : Bool) : (numberRest negative).Yields Number.Sound := by
  refine yields_after _ fun ds => yields_after _ fun next => ?_
  have hbound := accumulate_lt (n := 0) (by decide) ds
  generalize accumulate 0 ds = taken at *
  obtain ⟨significand, unread⟩ := taken
  dsimp only at hbound ⊢
  have hfloat : ∀ {read : Read Float}, read.Yields (fun x => x.isFinite = true) →
      Yields ((fun x => Number.float (if negative then -x else x)) <$> read) Number.Sound :=
    fun h => h.map fun x hx => signed_sound negative hx
  refine yields_ite (fun _ => hfloat (fractionPart_yields _ _)) fun _ =>
    yields_ite (fun _ => hfloat (exponentPart_yields _ _)) fun _ =>
    yields_ite (fun _ => hfloat (yields_lift fun _ => floatOfParts_isFinite)) fun _ =>
    yields_ite (fun _ => yields_pure (signed_sound _ (Binary64.toFloat_spec _).1)) fun _ =>
    yields_pure ?_
  have habs : (if negative then -(significand : Int) else significand).natAbs = significand := by
    cases negative <;> simp
  change _ < _
  rw [habs]
  exact hbound

lemma number_yields : number.Yields Number.Sound :=
  yields_after _ fun _ => yields_ite (fun _ => yields_after _ fun _ => numberRest_yields true) fun _ =>
    yields_ite (fun _ => numberRest_yields false) fun _ => yields_unexpected

/-- Whatever the text, no infinite float and no other non-number is read. -/
lemma float_yields : float.Yields fun x => x.isFinite = true := by
  refine number_yields.bind fun n hn => ?_
  cases n with
  | int i => exact yields_pure (Binary64.ofInt_isFinite hn)
  | float x => exact yields_pure hn

end Floats

end Json.Read

/-- The text of the value fits the limit on nesting, and its floats are finite. -/
structure Loadable (depth : Nat) (tree : Json) (floats : List Float) : Prop where
  nesting_le : tree.nesting ≤ depth
  isFinite : ∀ x ∈ floats, x.isFinite = true

variable {depth inner : Nat}

/-- A value read under a tag. -/
lemma Loadable.tagged (hinner : inner < depth) {content : Json} {floats : List Float}
    (h : Loadable inner content floats) (tag : String) :
    Loadable depth (.tagged tag content) floats :=
  ⟨by rw [Json.nesting_tagged]; exact (Nat.succ_le_succ h.nesting_le).trans hinner, h.isFinite⟩

lemma Loadable.scalar {content : Json} (h : content.nesting = 0) : Loadable depth content [] :=
  ⟨h.le.trans (Nat.zero_le _), by simp⟩

lemma Constant.read_yields (depth : Nat) :
    (Constant.read depth).Yields fun c => Loadable depth c.toJson c.floats := by
  refine yields_choice ?_ ?_
  · intro tag c hc
    split_ifs at hc
    · obtain rfl := Option.some.inj hc
      exact Loadable.scalar rfl
    · cases hc
  · intro inner hinner tag read hread
    split at hread
    · obtain rfl := Option.some.inj hread
      exact (yields_true _).map fun b _ => (Loadable.scalar rfl).tagged hinner "Bool"
    · obtain rfl := Option.some.inj hread
      exact (yields_true _).map fun i _ => (Loadable.scalar rfl).tagged hinner "Int"
    · obtain rfl := Option.some.inj hread
      refine float_yields.map fun x hx => Loadable.tagged hinner ⟨Nat.zero_le _, ?_⟩ "Float"
      simpa [floats] using hx
    · obtain rfl := Option.some.inj hread
      exact (yields_true _).map fun s _ => (Loadable.scalar rfl).tagged hinner "Str"
    · cases hread

/-- The value fits inside a bracket that is opened at `depth`. -/
structure LoadableInside (depth : Nat) (tree : Json) (floats : List Float) : Prop where
  nesting_lt : tree.nesting < depth
  isFinite : ∀ x ∈ floats, x.isFinite = true

lemma Loadable.inside {tree : Json} {floats : List Float} (h : Loadable inner tree floats)
    (hinner : inner < depth) : LoadableInside depth tree floats :=
  ⟨h.nesting_le.trans_lt hinner, h.isFinite⟩

/-- A list fits where a bracket more may be open than its items need. -/
lemma Loadable.arr {α : Type} {toJson : α → Json} {floats : α → List Float} (hpos : 0 < depth)
    {values : List α} (h : ∀ value ∈ values, LoadableInside depth (toJson value) (floats value)) :
    Loadable depth (.arr (values.map toJson)) (values.flatMap floats) := by
  constructor
  · refine Json.nesting_arr_le_of_lt hpos fun tree htree => ?_
    obtain ⟨value, hvalue, rfl⟩ := List.mem_map.mp htree
    exact (h value hvalue).nesting_lt
  · intro x hx
    obtain ⟨value, hvalue, hx⟩ := List.mem_flatMap.mp hx
    exact (h value hvalue).isFinite x hx

lemma list_loadable {α : Type} {toJson : α → Json} {floats : α → List Float}
    {item : (inner : Nat) → inner < depth → Json.Read α}
    (h : ∀ inner hinner, (item inner hinner).Yields fun value =>
      Loadable inner (toJson value) (floats value)) :
    (Json.Read.list depth item).Yields fun values =>
      Loadable depth (.arr (values.map toJson)) (values.flatMap floats) := by
  have hitem : ∀ inner hinner, (item inner hinner).Yields fun value =>
      LoadableInside depth (toJson value) (floats value) :=
    fun inner hinner => (h inner hinner).mono fun value hvalue => hvalue.inside hinner
  exact (yields_list hitem).mono fun values hvalues => Loadable.arr hvalues.1 hvalues.2

lemma Expr.nesting_pos (e : Expr) : 0 < e.toJson.nesting := by
  cases e <;> simp [toJson, Json.nesting_tagged]

lemma Expr.list_loadable
    (h : ∀ inner < depth, (Expr.read inner).Yields fun e => Loadable inner e.toJson e.floats) :
    (Json.Read.list depth fun inner _ => Expr.read inner).Yields fun items =>
      Loadable depth (.arr (itemsToJson items)) (itemFloats items) := by
  simpa only [itemsToJson_eq_map, itemFloats_eq_flatMap] using SealedScript.list_loadable h

lemma Expr.kwargs_loadable
    (h : ∀ inner < depth, (Expr.read inner).Yields fun e => Loadable inner e.toJson e.floats) :
    (Json.Read.list depth fun inner _ => Json.Read.tuple inner fun inner' _ =>
        (required "key" Json.Read.text).and (required "value" (Expr.read inner'))).Yields fun kwargs =>
      Loadable depth (.arr (kwargsToJson kwargs)) (kwargFloats kwargs) := by
  simp only [kwargsToJson_eq_map, kwargFloats_eq_flatMap]
  refine SealedScript.list_loadable fun inner hinner => yields_tuple fun inner' hinner' => ?_
  refine ((one_yields "key" (yields_true _) (by simp)).and
    (one_yields "value" (h inner' (hinner'.trans hinner)) (by simp))).mono ?_
  rintro ⟨key, value⟩ ⟨-, hvalue⟩
  refine ⟨Json.nesting_arr_le_of_lt (Nat.zero_lt_of_lt hinner') ?_, hvalue.isFinite⟩
  simpa [Json.nesting] using ⟨Nat.zero_lt_of_lt hinner', (hvalue.inside hinner').nesting_lt⟩

/-- Every expression that is read fits the depth it was read at. -/
lemma Expr.read_yields (depth : Nat) :
    (Expr.read depth).Yields fun e => Loadable depth e.toJson e.floats := by
  induction depth using Nat.strongRecOn with
  | ind depth ih =>
    have hinside : ∀ {d inner : Nat}, d < inner → inner ≤ depth →
        (Expr.read d).Yields fun e => LoadableInside inner e.toJson e.floats :=
      fun hd hinner => (ih _ (hd.trans_le hinner)).mono fun e he => he.inside hd
    rw [Expr.read]
    refine yields_choice (by simp) ?_
    intro inner hinner tag read hread
    split at hread
    · obtain rfl := Option.some.inj hread
      exact (Constant.read_yields inner).map fun c hc => hc.tagged hinner "Constant"
    · obtain rfl := Option.some.inj hread
      exact (yields_true _).map fun ident _ => (Loadable.scalar rfl).tagged hinner "Name"
    · obtain rfl := Option.some.inj hread
      exact (Expr.list_loadable fun d hd => ih d (hd.trans hinner)).map fun items hitems =>
        hitems.tagged hinner "List"
    · obtain rfl := Option.some.inj hread
      refine Yields.bind (yields_record fun d hd => (one_yields "op" (yields_true _) (by simp)).and
        ((one_yields "lhs" (hinside hd hinner.le) (by simp)).and
          (one_yields "rhs" (hinside hd hinner.le) (by simp)))) ?_
      rintro ⟨op, lhs, rhs⟩ ⟨-, hl, hr⟩
      have hpos := Nat.zero_lt_of_lt hl.nesting_lt
      refine yields_pure (Loadable.tagged hinner ⟨Json.nesting_obj_le_of_lt hpos ?_, ?_⟩ "BinOp")
      · simpa [Json.nesting] using ⟨hpos, hl.nesting_lt, hr.nesting_lt⟩
      · intro x hx
        rcases List.mem_append.mp hx with hx | hx
        · exact hl.isFinite x hx
        · exact hr.isFinite x hx
    · obtain rfl := Option.some.inj hread
      refine Yields.bind (yields_record fun d hd => (one_yields "op" (yields_true _) (by simp)).and
        (one_yields "operand" (hinside hd hinner.le) (by simp))) ?_
      rintro ⟨op, operand⟩ ⟨-, hoperand⟩
      have hpos := Nat.zero_lt_of_lt hoperand.nesting_lt
      refine yields_pure (Loadable.tagged hinner ⟨Json.nesting_obj_le_of_lt hpos ?_, ?_⟩ "UnaryOp")
      · simpa [Json.nesting] using ⟨hpos, hoperand.nesting_lt⟩
      · exact hoperand.isFinite
    · obtain rfl := Option.some.inj hread
      refine Yields.bind (P := fun p => LoadableInside inner p.1.toJson p.1.floats ∧
        LoadableInside inner (.arr (Expr.itemsToJson p.2.1)) (Expr.itemFloats p.2.1) ∧
        LoadableInside inner (.arr (Expr.kwargsToJson p.2.2)) (Expr.kwargFloats p.2.2))
        (yields_record fun d hd => ?_) ?_
      · have hread : ∀ d' < d, (Expr.read d').Yields fun e => Loadable d' e.toJson e.floats :=
          fun d' hd' => ih d' (hd'.trans (hd.trans hinner))
        -- a list that is left out is written as an empty one, which needs a bracket of its own
        have hargs : (optional "args" (Json.Read.list d fun d' _ => Expr.read d') []).Yields
            fun items => 0 < d → Loadable d (.arr (Expr.itemsToJson items)) (Expr.itemFloats items) :=
          one_yields "args" ((Expr.list_loadable hread).mono fun items h _ => h)
            (by simpa using fun hpos => ⟨hpos, by simp [Expr.itemFloats]⟩)
        have hkwargs : (optional "kwargs" (Json.Read.list d fun d' _ => Json.Read.tuple d' fun d'' _ =>
              (required "key" Json.Read.text).and (required "value" (Expr.read d''))) []).Yields
            fun kwargs => 0 < d →
              Loadable d (.arr (Expr.kwargsToJson kwargs)) (Expr.kwargFloats kwargs) :=
          one_yields "kwargs" ((Expr.kwargs_loadable hread).mono fun kwargs h _ => h)
            (by simpa using fun hpos => ⟨hpos, by simp [Expr.kwargFloats]⟩)
        refine ((one_yields "func" (ih d (hd.trans hinner)) (by simp)).and (hargs.and hkwargs)).mono ?_
        rintro ⟨callee, args, kwargs⟩ ⟨hcallee, hargs, hkwargs⟩
        have hpos := callee.nesting_pos.trans_le hcallee.nesting_le
        exact ⟨hcallee.inside hd, (hargs hpos).inside hd, (hkwargs hpos).inside hd⟩
      · rintro ⟨callee, args, kwargs⟩ ⟨hcallee, hargs, hkwargs⟩
        have hpos := Nat.zero_lt_of_lt hcallee.nesting_lt
        refine yields_pure (Loadable.tagged hinner ⟨Json.nesting_obj_le_of_lt hpos ?_, ?_⟩ "Call")
        · simpa using ⟨hcallee.nesting_lt, hargs.nesting_lt, hkwargs.nesting_lt⟩
        · intro x hx
          rcases List.mem_append.mp hx with hx | hx
          · rcases List.mem_append.mp hx with hx | hx
            · exact hcallee.isFinite x hx
            · exact hargs.isFinite x hx
          · exact hkwargs.isFinite x hx
    · cases hread

lemma Stmt.record_loadable {kind : Json} {floats : List Float} (h : Loadable depth kind floats)
    (line : UInt32) : Loadable (depth + 1) (Stmt.record line kind) floats := by
  refine ⟨Json.nesting_obj_le_of_lt depth.succ_pos ?_, h.isFinite⟩
  simpa [Json.nesting] using Nat.lt_succ_of_le h.nesting_le

/-- What a statement does fits the depth it was read at, whatever its line. -/
lemma Stmt.readKind_yields {block : (inner : Nat) → inner < depth → Json.Read (List Stmt)}
    (hblock : ∀ inner hinner, (block inner hinner).Yields fun stmts =>
      Loadable inner (.arr (blockToJson stmts)) (blockFloats stmts)) :
    (Stmt.readKind depth block).Yields fun kind =>
      ∀ line, Loadable (depth + 1) (kind line).toJson (kind line).floats := by
  refine yields_choice ?_ ?_
  · intro tag kind hkind
    split_ifs at hkind
    · obtain rfl := Option.some.inj hkind
      exact Stmt.record_loadable (Loadable.scalar rfl)
    · cases hkind
  · intro inner hinner tag read hread
    split at hread
    · obtain rfl := Option.some.inj hread
      refine Yields.bind (yields_record fun d hd => (one_yields "target" (yields_true _) (by simp)).and
        (one_yields "value" ((Expr.read_yields d).mono fun e he => he.inside hd) (by simp))) ?_
      rintro ⟨target, value⟩ ⟨-, hvalue⟩
      have hpos := Nat.zero_lt_of_lt hvalue.nesting_lt
      refine yields_pure (Stmt.record_loadable
        (Loadable.tagged hinner ⟨Json.nesting_obj_le_of_lt hpos ?_, ?_⟩ "Assign"))
      · simpa [Json.nesting] using ⟨hpos, hvalue.nesting_lt⟩
      · exact hvalue.isFinite
    · obtain rfl := Option.some.inj hread
      exact (Expr.read_yields inner).bind fun value hvalue =>
        yields_pure (Stmt.record_loadable (hvalue.tagged hinner "Expression"))
    · obtain rfl := Option.some.inj hread
      refine Yields.bind (P := fun p => LoadableInside inner p.1.toJson p.1.floats ∧
        LoadableInside inner (.arr (blockToJson p.2.1)) (blockFloats p.2.1) ∧
        LoadableInside inner (.arr (blockToJson p.2.2)) (blockFloats p.2.2))
        (yields_record fun d hd => ?_) ?_
      · have helse : (optional "else_block" (block d (Nat.lt_trans hd hinner)) []).Yields
            fun stmts => 0 < d → Loadable d (.arr (blockToJson stmts)) (blockFloats stmts) :=
          one_yields "else_block" ((hblock d _).mono fun stmts h _ => h)
            (by simpa using fun hpos => ⟨hpos, by simp [blockFloats]⟩)
        refine ((one_yields "condition" (Expr.read_yields d) (by simp)).and
          ((one_yields "then_block" (hblock d _) (by simp)).and helse)).mono ?_
        rintro ⟨condition, thenBlock, elseBlock⟩ ⟨hcondition, hthen, helse⟩
        have hpos := condition.nesting_pos.trans_le hcondition.nesting_le
        exact ⟨hcondition.inside hd, hthen.inside hd, (helse hpos).inside hd⟩
      · rintro ⟨condition, thenBlock, elseBlock⟩ ⟨hcondition, hthen, helse⟩
        have hpos := Nat.zero_lt_of_lt hcondition.nesting_lt
        refine yields_pure (Stmt.record_loadable
          (Loadable.tagged hinner ⟨Json.nesting_obj_le_of_lt hpos ?_, ?_⟩ "If"))
        · simpa using ⟨hcondition.nesting_lt, hthen.nesting_lt, helse.nesting_lt⟩
        · intro x hx
          rcases List.mem_append.mp hx with hx | hx
          · rcases List.mem_append.mp hx with hx | hx
            · exact hcondition.isFinite x hx
            · exact hthen.isFinite x hx
          · exact helse.isFinite x hx
    · obtain rfl := Option.some.inj hread
      refine Yields.bind (yields_record fun d hd =>
        (one_yields "condition" ((Expr.read_yields d).mono fun e he => he.inside hd) (by simp)).and
          (one_yields "body" ((hblock d _).mono fun stmts h => h.inside hd) (by simp))) ?_
      rintro ⟨condition, body⟩ ⟨hcondition, hbody⟩
      have hpos := Nat.zero_lt_of_lt hcondition.nesting_lt
      refine yields_pure (Stmt.record_loadable
        (Loadable.tagged hinner ⟨Json.nesting_obj_le_of_lt hpos ?_, ?_⟩ "While"))
      · simpa using ⟨hcondition.nesting_lt, hbody.nesting_lt⟩
      · intro x hx
        rcases List.mem_append.mp hx with hx | hx
        · exact hcondition.isFinite x hx
        · exact hbody.isFinite x hx
    · cases hread

lemma Stmt.list_loadable
    (h : ∀ inner < depth, (Stmt.read inner).Yields fun stmt => Loadable inner stmt.toJson stmt.floats) :
    (Json.Read.list depth fun inner _ => Stmt.read inner).Yields fun block =>
      Loadable depth (.arr (blockToJson block)) (blockFloats block) := by
  simpa only [blockToJson_eq_map, blockFloats_eq_flatMap] using SealedScript.list_loadable h

lemma Stmt.read_yields (depth : Nat) :
    (Stmt.read depth).Yields fun stmt => Loadable depth stmt.toJson stmt.floats := by
  induction depth using Nat.strongRecOn with
  | ind depth ih =>
    rw [Stmt.read]
    refine Yields.bind (P := fun p => ∀ line, Loadable depth (p.2 line).toJson (p.2 line).floats)
      (yields_record fun d hd => ?_) fun p hp => yields_pure (hp p.1)
    have hkind := Stmt.readKind_yields fun inner hinner =>
      Stmt.list_loadable fun d' hd' => ih d' (hd'.trans (hinner.trans hd))
    refine ((one_yields "line" (yields_true _) (fun _ _ => trivial)).and
      (one_yields "kind" hkind (by simp))).mono ?_
    intro p hp line
    exact ⟨(hp.2 line).nesting_le.trans hd, (hp.2 line).isFinite⟩

lemma Code.read_yields (depth : Nat) :
    (Code.read depth).Yields fun code => Loadable depth code.toJson code.floats := by
  refine Yields.bind (yields_record fun d hd => (one_yields "name" (yields_true _) (by simp)).and
    ((one_yields "filename" (yields_true _) (by simp)).and (one_yields "body"
      ((Stmt.list_loadable fun d' _ => Stmt.read_yields d').mono fun stmts h => h.inside hd) (by simp)))) ?_
  rintro ⟨name, filename, body⟩ ⟨-, -, hbody⟩
  have hpos := Nat.zero_lt_of_lt hbody.nesting_lt
  refine yields_pure ⟨Json.nesting_obj_le_of_lt hpos ?_, hbody.isFinite⟩
  simpa [Json.nesting] using ⟨hpos, hbody.nesting_lt⟩

lemma Program.read_yields (depth : Nat) :
    (Program.read depth).Yields fun program => Loadable depth program.toJson program.code.floats := by
  refine Yields.bind (yields_record fun d hd => (one_yields "hash" (yields_true _) (by simp)).and
    (one_yields "code" ((Code.read_yields d).mono fun code h => h.inside hd) (by simp))) ?_
  rintro ⟨hash, code⟩ ⟨-, hcode⟩
  have hpos := Nat.zero_lt_of_lt hcode.nesting_lt
  refine yields_pure ⟨Json.nesting_obj_le_of_lt hpos ?_, hcode.isFinite⟩
  simpa [Json.nesting] using ⟨hpos, hcode.nesting_lt⟩

lemma Program.load_eq_ok_iff {text : String} {program : Program} :
    Program.load text true = .ok program ↔ Program.ofText text = .ok program ∧ program.Intact := by
  unfold load
  cases hread : Program.ofText text with
  | error fault => simp
  | ok decoded =>
    by_cases hintact : decoded.Intact
    · simp only [verify, hintact, if_true, Except.ok.injEq]
      constructor
      · rintro rfl
        exact ⟨rfl, hintact⟩
      · exact And.left
    · simp only [verify, hintact, if_true, if_false, Except.ok.injEq, reduceCtorEq, false_iff]
      rintro ⟨rfl, hsame⟩
      exact hintact hsame

lemma Program.load_eq_ok_iff_ofText {text : String} {verify : Bool} {program : Program} :
    load text verify = .ok program ↔ ofText text = .ok program ∧ (verify = true → program.Intact) := by
  cases verify with
  | true => simpa using load_eq_ok_iff
  | false =>
    unfold load
    cases ofText text <;> simp

/-- A program that was read can be written again within the limit, and its floats are finite. -/
theorem Program.loadable_of_ofText {text : String} {program : Program}
    (h : Program.ofText text = .ok program) :
    Loadable Json.maxDepth program.toJson program.code.floats :=
  (Program.read_yields Json.maxDepth).parse h

end SealedScript
