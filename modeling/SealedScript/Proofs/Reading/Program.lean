import SealedScript.Program.Decode
import SealedScript.Proofs.Reading.Float
import SealedScript.Proofs.Reading.Shape
import SealedScript.Proofs.Syntax

/-! What the text of a program is read as: the program itself, except that every float constant comes
back as what its own text is read as. -/

namespace SealedScript

open Json (Fault)
open Json.Read (Gives)
open Json.Read.Fields (one_takes one_and_takes)

def Constant.reread : Constant → Except Fault Constant
  | .float x => .float <$> Json.reread x
  | c => .ok c

mutual

/-- The expression with every float as its text is read. -/
def Expr.reread : Expr → Except Fault Expr
  | .constant c => .constant <$> c.reread
  | .name ident => .ok (.name ident)
  | .list items => .list <$> rereadItems items
  | .binary op lhs rhs => do return .binary op (← lhs.reread) (← rhs.reread)
  | .unary op operand => .unary op <$> operand.reread
  | .call callee args kwargs => do
    return .call (← callee.reread) (← rereadItems args) (← rereadKwargs kwargs)

def Expr.rereadItems : List Expr → Except Fault (List Expr)
  | [] => .ok []
  | item :: rest => do return (← item.reread) :: (← rereadItems rest)

def Expr.rereadKwargs : List (String × Expr) → Except Fault (List (String × Expr))
  | [] => .ok []
  | (key, value) :: rest => do return (key, ← value.reread) :: (← rereadKwargs rest)

end

mutual

def Stmt.reread : Stmt → Except Fault Stmt
  | .assign line target value => .assign line target <$> value.reread
  | .expression line value => .expression line <$> value.reread
  | .branch line condition thenBlock elseBlock => do
    return .branch line (← condition.reread) (← rereadBlock thenBlock) (← rereadBlock elseBlock)
  | .loop line condition body => do return .loop line (← condition.reread) (← rereadBlock body)
  | .pass line => .ok (.pass line)

def Stmt.rereadBlock : List Stmt → Except Fault (List Stmt)
  | [] => .ok []
  | stmt :: rest => do return (← stmt.reread) :: (← rereadBlock rest)

end

def Code.reread (code : Code) : Except Fault Code := do
  return ⟨code.name, code.filename, ← Stmt.rereadBlock code.body⟩

lemma Expr.rereadItems_eq_mapM (items : List Expr) : rereadItems items = items.mapM reread := by
  induction items with
  | nil => rfl
  | cons item items ih => simp [rereadItems, ih]

lemma Expr.rereadKwargs_eq_mapM (kwargs : List (String × Expr)) :
    rereadKwargs kwargs =
      kwargs.mapM fun kwarg => kwarg.2.reread >>= fun value => .ok (kwarg.1, value) := by
  induction kwargs with
  | nil => rfl
  | cons kwarg kwargs ih =>
    simp [rereadKwargs, ih]

lemma Stmt.rereadBlock_eq_mapM (block : List Stmt) : rereadBlock block = block.mapM reread := by
  induction block with
  | nil => rfl
  | cons stmt block ih => simp [rereadBlock, ih]

section Unchanged

lemma Constant.reread_eq_self_iff {c : Constant} :
    c.reread = .ok c ↔ ∀ x ∈ c.floats, Json.reread x = .ok x := by
  cases c <;> simp [reread, floats, Except.map_eq_ok_iff]

lemma Expr.rereadItems_eq_self_iff {items : List Expr}
    (hitems : ∀ item ∈ items, item.reread = .ok item ↔ ∀ x ∈ item.floats, Json.reread x = .ok x) :
    rereadItems items = .ok items ↔ ∀ x ∈ itemFloats items, Json.reread x = .ok x := by
  induction items with
  | nil => simp [rereadItems, itemFloats]
  | cons item items ih =>
    rw [List.forall_mem_cons] at hitems
    simp [rereadItems, itemFloats, Except.bind_eq_ok_iff, ih hitems.2, hitems.1, or_imp, forall_and]

lemma Expr.rereadKwargs_eq_self_iff {kwargs : List (String × Expr)}
    (hkwargs : ∀ kwarg ∈ kwargs,
      kwarg.2.reread = .ok kwarg.2 ↔ ∀ x ∈ kwarg.2.floats, Json.reread x = .ok x) :
    rereadKwargs kwargs = .ok kwargs ↔ ∀ x ∈ kwargFloats kwargs, Json.reread x = .ok x := by
  induction kwargs with
  | nil => simp [rereadKwargs, kwargFloats]
  | cons kwarg kwargs ih =>
    obtain ⟨key, value⟩ := kwarg
    rw [List.forall_mem_cons] at hkwargs
    simp [rereadKwargs, kwargFloats, Except.bind_eq_ok_iff, ih hkwargs.2, hkwargs.1, or_imp,
      forall_and]

/-- An expression comes back unchanged exactly when each of its floats does. -/
lemma Expr.reread_eq_self_iff {e : Expr} :
    e.reread = .ok e ↔ ∀ x ∈ e.floats, Json.reread x = .ok x := by
  induction e with
  | constant c => simp [reread, floats, Except.map_eq_ok_iff, Constant.reread_eq_self_iff]
  | name ident => simp [reread, floats]
  | list items ih => simp [reread, floats, Except.map_eq_ok_iff, rereadItems_eq_self_iff ih]
  | binary op lhs rhs ihl ihr =>
    simp [reread, floats, Except.bind_eq_ok_iff, ihl, ihr, or_imp, forall_and]
  | unary op operand ih => simp [reread, floats, Except.map_eq_ok_iff, ih]
  | call callee args kwargs ihc iha ihk =>
    simp [reread, floats, Except.bind_eq_ok_iff, ihc, rereadItems_eq_self_iff iha,
      rereadKwargs_eq_self_iff ihk, or_imp, forall_and]

lemma Stmt.rereadBlock_eq_self_iff {block : List Stmt}
    (hblock : ∀ stmt ∈ block, stmt.reread = .ok stmt ↔ ∀ x ∈ stmt.floats, Json.reread x = .ok x) :
    rereadBlock block = .ok block ↔ ∀ x ∈ blockFloats block, Json.reread x = .ok x := by
  induction block with
  | nil => simp [rereadBlock, blockFloats]
  | cons stmt block ih =>
    rw [List.forall_mem_cons] at hblock
    simp [rereadBlock, blockFloats, Except.bind_eq_ok_iff, ih hblock.2, hblock.1, or_imp, forall_and]

lemma Stmt.reread_eq_self_iff {stmt : Stmt} :
    stmt.reread = .ok stmt ↔ ∀ x ∈ stmt.floats, Json.reread x = .ok x := by
  induction stmt with
  | assign line target value =>
    simp [reread, floats, Except.map_eq_ok_iff, Expr.reread_eq_self_iff]
  | expression line value => simp [reread, floats, Except.map_eq_ok_iff, Expr.reread_eq_self_iff]
  | branch line condition thenBlock elseBlock ihThen ihElse =>
    simp [reread, floats, Except.bind_eq_ok_iff, Expr.reread_eq_self_iff,
      rereadBlock_eq_self_iff ihThen, rereadBlock_eq_self_iff ihElse, or_imp, forall_and]
  | loop line condition body ih =>
    simp [reread, floats, Except.bind_eq_ok_iff, Expr.reread_eq_self_iff,
      rereadBlock_eq_self_iff ih, or_imp, forall_and]
  | pass line => simp [reread, floats]

/-- Code comes back unchanged exactly when each of its floats does. -/
lemma Code.reread_eq_self_iff {code : Code} :
    code.reread = .ok code ↔ ∀ x ∈ code.floats, Json.reread x = .ok x := by
  cases code
  simp [reread, floats, Except.bind_eq_ok_iff,
    Stmt.rereadBlock_eq_self_iff fun _ _ => Stmt.reread_eq_self_iff]

end Unchanged

section Gives

variable {depth : Nat}

lemma BinaryOp.read_gives (depth : Nat) (op : BinaryOp) :
    Gives (BinaryOp.read depth) (Json.str op.tag).render (.ok op) :=
  Json.Read.choice_bare_gives (BinaryOp.ofTag?_tag op)

lemma UnaryOp.read_gives (depth : Nat) (op : UnaryOp) :
    Gives (UnaryOp.read depth) (Json.str op.tag).render (.ok op) :=
  Json.Read.choice_bare_gives (UnaryOp.ofTag?_tag op)

lemma Constant.read_gives {c : Constant} (h : c.toJson.nesting ≤ depth) :
    Gives (Constant.read depth) c.toJson.render c.reread := by
  cases c with
  | none => exact Json.Read.choice_bare_gives rfl
  | bool b =>
    obtain ⟨inner, rfl, -⟩ := Json.nesting_tagged_le.mp h
    exact Json.Read.choice_holding_gives rfl rfl ((Json.Read.boolean_gives b).map Constant.bool)
  | int i =>
    obtain ⟨inner, rfl, -⟩ := Json.nesting_tagged_le.mp h
    exact Json.Read.choice_holding_gives rfl rfl ((Json.Read.int64_gives i).map Constant.int)
  | float x =>
    obtain ⟨inner, rfl, -⟩ := Json.nesting_tagged_le.mp h
    exact Json.Read.choice_holding_gives rfl rfl ((Json.Read.float_gives x).map Constant.float)
  | str s =>
    obtain ⟨inner, rfl, -⟩ := Json.nesting_tagged_le.mp h
    exact Json.Read.choice_holding_gives rfl rfl ((Json.Read.text_gives s).map Constant.str)

lemma Expr.readItems_gives {items : List Expr}
    (hitems : ∀ item ∈ items, ∀ {depth}, item.toJson.nesting ≤ depth →
      Gives (Expr.read depth) item.toJson.render item.reread)
    (h : (Json.arr (itemsToJson items)).nesting ≤ depth) :
    Gives (Json.Read.list depth fun inner _ => Expr.read inner) (Json.arr (itemsToJson items)).render
      (rereadItems items) := by
  rw [itemsToJson_eq_map] at h ⊢
  obtain ⟨inner, rfl, hfits⟩ := Json.nesting_arr_le.mp h
  rw [rereadItems_eq_mapM]
  exact Json.Read.list_gives fun item hitem => hitems item hitem (hfits _ (List.mem_map_of_mem hitem))

/-- Each keyword argument is read as a pair. -/
lemma Expr.readKwargs_gives {kwargs : List (String × Expr)}
    (hkwargs : ∀ kwarg ∈ kwargs, ∀ {depth}, kwarg.2.toJson.nesting ≤ depth →
      Gives (Expr.read depth) kwarg.2.toJson.render kwarg.2.reread)
    (h : (Json.arr (kwargsToJson kwargs)).nesting ≤ depth) :
    Gives (Json.Read.list depth fun inner _ => Json.Read.tuple inner fun deepest _ =>
        (Json.Read.Fields.required "key" Json.Read.text).and
          (Json.Read.Fields.required "value" (Expr.read deepest)))
      (Json.arr (kwargsToJson kwargs)).render (rereadKwargs kwargs) := by
  rw [kwargsToJson_eq_map] at h ⊢
  obtain ⟨inner, rfl, hfits⟩ := Json.nesting_arr_le.mp h
  rw [rereadKwargs_eq_mapM]
  refine Json.Read.list_gives fun kwarg hkwarg => ?_
  obtain ⟨inner, rfl, hpair⟩ := Json.nesting_arr_le.mp (hfits _ (List.mem_map_of_mem hkwarg))
  exact Json.Read.pair_gives rfl (Json.Read.text_gives kwarg.1)
    (hkwargs kwarg hkwarg (hpair _ (by simp)))

/-- The text of an expression is read as the expression with its floats reread. -/
lemma Expr.read_gives {e : Expr} (h : e.toJson.nesting ≤ depth) :
    Gives (Expr.read depth) e.toJson.render e.reread := by
  induction e generalizing depth with
  | constant c =>
    obtain ⟨inner, rfl, hcontent⟩ := Json.nesting_tagged_le.mp h
    rw [Expr.read]
    exact Json.Read.choice_holding_gives rfl rfl ((Constant.read_gives hcontent).map Expr.constant)
  | name ident =>
    obtain ⟨inner, rfl, -⟩ := Json.nesting_tagged_le.mp h
    rw [Expr.read]
    exact Json.Read.choice_holding_gives rfl rfl ((Json.Read.text_gives ident).map Expr.name)
  | list items ih =>
    obtain ⟨inner, rfl, hcontent⟩ := Json.nesting_tagged_le.mp h
    rw [Expr.read]
    exact Json.Read.choice_holding_gives rfl rfl ((readItems_gives ih hcontent).map Expr.list)
  | binary op lhs rhs ihl ihr =>
    obtain ⟨inner, rfl, hcontent⟩ := Json.nesting_tagged_le.mp h
    obtain ⟨inner, rfl, hmembers⟩ := Json.nesting_obj_le.mp hcontent
    have hfields := one_and_takes "op" none (BinaryOp.read_gives inner op)
      (one_and_takes "lhs" none (ihl (hmembers ("lhs", lhs.toJson) (by simp)))
        (one_takes "rhs" none (ihr (hmembers ("rhs", rhs.toJson) (by simp)))) (by simp)) (by simp)
    rw [Expr.read]
    refine Json.Read.choice_holding_gives rfl rfl ?_
    refine (Json.Read.record_gives hfields).result
      (fun p : BinaryOp × Expr × Expr => Expr.binary p.1 p.2.1 p.2.2) (fun _ => rfl) ?_
    rw [reread]
    cases lhs.reread <;> cases rhs.reread <;> rfl
  | unary op operand ih =>
    obtain ⟨inner, rfl, hcontent⟩ := Json.nesting_tagged_le.mp h
    obtain ⟨inner, rfl, hmembers⟩ := Json.nesting_obj_le.mp hcontent
    have hfields := one_and_takes "op" none (UnaryOp.read_gives inner op)
      (one_takes "operand" none (ih (hmembers ("operand", operand.toJson) (by simp)))) (by simp)
    rw [Expr.read]
    refine Json.Read.choice_holding_gives rfl rfl ?_
    refine (Json.Read.record_gives hfields).result
      (fun p : UnaryOp × Expr => Expr.unary p.1 p.2) (fun _ => rfl) ?_
    rw [reread]
    cases operand.reread <;> rfl
  | call callee args kwargs ihc iha ihk =>
    obtain ⟨inner, rfl, hcontent⟩ := Json.nesting_tagged_le.mp h
    obtain ⟨inner, rfl, hmembers⟩ := Json.nesting_obj_le.mp hcontent
    have hcallee := ihc (hmembers ("func", callee.toJson) (by simp))
    have hargs := readItems_gives iha (hmembers ("args", .arr (itemsToJson args)) (by simp))
    have hkwargs := readKwargs_gives ihk (hmembers ("kwargs", .arr (kwargsToJson kwargs)) (by simp))
    have hfields := one_and_takes "func" none hcallee
      (one_and_takes "args" (some []) hargs (one_takes "kwargs" (some []) hkwargs) (by simp)) (by simp)
    rw [Expr.read]
    refine Json.Read.choice_holding_gives rfl rfl ?_
    refine (Json.Read.record_gives hfields).result
      (fun p : Expr × List Expr × List (String × Expr) => Expr.call p.1 p.2.1 p.2.2)
      (fun _ => rfl) ?_
    rw [reread]
    cases callee.reread <;> cases rereadItems args <;> cases rereadKwargs kwargs <;> rfl

/-- How a statement reads the blocks inside it. -/
def Stmt.readBlock (depth : Nat) : Json.Read (List Stmt) :=
  Json.Read.list depth fun inner _ => Stmt.read inner

lemma Stmt.readBlock_gives {block : List Stmt}
    (hblock : ∀ stmt ∈ block, ∀ {depth}, stmt.toJson.nesting ≤ depth →
      Gives (Stmt.read depth) stmt.toJson.render stmt.reread)
    (h : (Json.arr (blockToJson block)).nesting ≤ depth) :
    Gives (Stmt.readBlock depth) (Json.arr (blockToJson block)).render (rereadBlock block) := by
  rw [blockToJson_eq_map] at h ⊢
  obtain ⟨inner, rfl, hstmts⟩ := Json.nesting_arr_le.mp h
  rw [rereadBlock_eq_mapM]
  exact Json.Read.list_gives fun stmt hstmt =>
    hblock stmt hstmt (hstmts _ (List.mem_map_of_mem hstmt))

/-- A statement is read as its kind, which then takes the line. -/
lemma Stmt.record_gives {line : UInt32} {kind : Json} (outcome : Except Fault (UInt32 → Stmt))
    {outcome' : Except Fault Stmt} (h : (Stmt.record line kind).nesting ≤ depth)
    (hkind : ∀ inner, kind.nesting ≤ inner →
      Gives (Stmt.readKind inner fun d _ => readBlock d) kind.render outcome)
    (houtcome : (fun make => make line) <$> outcome = outcome') :
    Gives (Stmt.read depth) (Stmt.record line kind).render outcome' := by
  obtain ⟨inner, rfl, hmembers⟩ := Json.nesting_obj_le.mp h
  have hfields := one_and_takes "line" (some 0) (Json.Read.uint32_gives line)
    (one_takes "kind" none (hkind inner (hmembers ("kind", kind) (by simp)))) (by simp)
  rw [Stmt.read]
  refine (Json.Read.record_gives hfields).result
    (fun p : UInt32 × (UInt32 → Stmt) => p.2 p.1) (fun _ => rfl) ?_
  rw [← houtcome]
  cases outcome <;> rfl

/-- The text of a statement is read as the statement with its floats reread. -/
lemma Stmt.read_gives {stmt : Stmt} (h : stmt.toJson.nesting ≤ depth) :
    Gives (Stmt.read depth) stmt.toJson.render stmt.reread := by
  induction stmt generalizing depth with
  | assign line target value =>
    refine Stmt.record_gives ((fun value' line' => .assign line' target value') <$> value.reread) h
      (fun inner hkind => ?_) ?_
    · obtain ⟨inner, rfl, hcontent⟩ := Json.nesting_tagged_le.mp hkind
      obtain ⟨inner, rfl, hmembers⟩ := Json.nesting_obj_le.mp hcontent
      have hfields := one_and_takes "target" none (Json.Read.text_gives target)
        (one_takes "value" none (Expr.read_gives (hmembers ("value", value.toJson) (by simp))))
        (by simp)
      refine Json.Read.choice_holding_gives rfl rfl ?_
      refine (Json.Read.record_gives hfields).result
        (fun (p : String × Expr) line' => Stmt.assign line' p.1 p.2) (fun _ => rfl) ?_
      cases value.reread <;> rfl
    · rw [reread]
      cases value.reread <;> rfl
  | expression line value =>
    refine Stmt.record_gives ((fun value' line' => .expression line' value') <$> value.reread) h
      (fun inner hkind => ?_) ?_
    · obtain ⟨inner, rfl, hcontent⟩ := Json.nesting_tagged_le.mp hkind
      refine Json.Read.choice_holding_gives rfl rfl ?_
      exact (Expr.read_gives hcontent).result
        (fun value' line' => Stmt.expression line' value') (fun _ => rfl) rfl
    · rw [reread]
      cases value.reread <;> rfl
  | branch line condition thenBlock elseBlock ihThen ihElse =>
    refine Stmt.record_gives
      (condition.reread >>= fun condition' => rereadBlock thenBlock >>= fun thenBlock' =>
        rereadBlock elseBlock >>= fun elseBlock' =>
          .ok fun line' => .branch line' condition' thenBlock' elseBlock') h
      (fun inner hkind => ?_) ?_
    · obtain ⟨inner, rfl, hcontent⟩ := Json.nesting_tagged_le.mp hkind
      obtain ⟨inner, rfl, hmembers⟩ := Json.nesting_obj_le.mp hcontent
      have hcondition := Expr.read_gives (hmembers ("condition", condition.toJson) (by simp))
      have hthen := readBlock_gives ihThen
        (hmembers ("then_block", .arr (blockToJson thenBlock)) (by simp))
      have helse := readBlock_gives ihElse
        (hmembers ("else_block", .arr (blockToJson elseBlock)) (by simp))
      have hfields := one_and_takes "condition" none hcondition
        (one_and_takes "then_block" none hthen (one_takes "else_block" (some []) helse) (by simp))
        (by simp)
      refine Json.Read.choice_holding_gives rfl rfl ?_
      refine (Json.Read.record_gives hfields).result
        (fun (p : Expr × List Stmt × List Stmt) line' => Stmt.branch line' p.1 p.2.1 p.2.2)
        (fun _ => rfl) ?_
      cases condition.reread <;> cases rereadBlock thenBlock <;> cases rereadBlock elseBlock <;> rfl
    · rw [reread]
      cases condition.reread <;> cases rereadBlock thenBlock <;> cases rereadBlock elseBlock <;> rfl
  | loop line condition body ih =>
    refine Stmt.record_gives
      (condition.reread >>= fun condition' => rereadBlock body >>= fun body' =>
        .ok fun line' => .loop line' condition' body') h
      (fun inner hkind => ?_) ?_
    · obtain ⟨inner, rfl, hcontent⟩ := Json.nesting_tagged_le.mp hkind
      obtain ⟨inner, rfl, hmembers⟩ := Json.nesting_obj_le.mp hcontent
      have hcondition := Expr.read_gives (hmembers ("condition", condition.toJson) (by simp))
      have hbody := readBlock_gives ih (hmembers ("body", .arr (blockToJson body)) (by simp))
      have hfields := one_and_takes "condition" none hcondition (one_takes "body" none hbody)
        (by simp)
      refine Json.Read.choice_holding_gives rfl rfl ?_
      refine (Json.Read.record_gives hfields).result
        (fun (p : Expr × List Stmt) line' => Stmt.loop line' p.1 p.2) (fun _ => rfl) ?_
      cases condition.reread <;> cases rereadBlock body <;> rfl
    · rw [reread]
      cases condition.reread <;> cases rereadBlock body <;> rfl
  | pass line =>
    exact Stmt.record_gives (.ok Stmt.pass) h
      (fun _ _ => Json.Read.choice_bare_gives rfl) rfl

lemma Code.read_gives {code : Code} (h : code.toJson.nesting ≤ depth) :
    Gives (Code.read depth) code.toJson.render code.reread := by
  obtain ⟨inner, rfl, hmembers⟩ := Json.nesting_obj_le.mp h
  have hbody := Stmt.readBlock_gives (fun _ _ => Stmt.read_gives)
    (hmembers ("body", .arr (Stmt.blockToJson code.body)) (by simp))
  have hfields := one_and_takes "name" none (Json.Read.text_gives code.name)
    (one_and_takes "filename" none (Json.Read.text_gives code.filename)
      (one_takes "body" none hbody) (by simp)) (by simp)
  refine (Json.Read.record_gives hfields).result
    (fun p : String × String × List Stmt => Code.mk p.1 p.2.1 p.2.2) (fun _ => rfl) ?_
  rw [reread]
  cases Stmt.rereadBlock code.body <;> rfl

/-- The text of a program is read as the program with the floats of its code reread. -/
lemma Program.read_gives {program : Program} (h : program.toJson.nesting ≤ depth) :
    Gives (Program.read depth) program.toJson.render (Program.mk program.hash <$> program.code.reread) := by
  obtain ⟨inner, rfl, hmembers⟩ := Json.nesting_obj_le.mp h
  have hcode := Code.read_gives (hmembers ("code", program.code.toJson) (by simp))
  have hfields := one_and_takes "hash" none (Json.Read.text_gives program.hash)
    (one_takes "code" none hcode) (by simp)
  refine (Json.Read.record_gives hfields).result
    (fun p : String × Code => Program.mk p.1 p.2) (fun _ => rfl) ?_
  cases program.code.reread <;> rfl

/-- Within the limit on nesting, a written program is read back with its floats reread. -/
lemma Program.ofText_toText {program : Program} (h : program.toJson.nesting ≤ Json.maxDepth) :
    Program.ofText program.toText = Program.mk program.hash <$> program.code.reread :=
  (Program.read_gives h).parse

end Gives

end SealedScript
