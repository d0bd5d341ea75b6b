import SealedScript.Proofs.ByteOrder
import SealedScript.Proofs.Rendering
import SealedScript.Proofs.RoundTrip

/-! The canonical text of code with finite floats determines the code, so that a digest stands for one
program unless SHA-256 collides. -/

namespace SealedScript

lemma Table.insert_map {α β : Type} (f : α → β) (name : String) (value : α)
    (table : List (String × α)) :
    (insert name value table).map (fun entry => (entry.1, f entry.2)) =
      insert name (f value) (table.map fun entry => (entry.1, f entry.2)) := by
  induction table with
  | nil => rfl
  | cons entry rest ih =>
    simp only [insert, List.map_cons]
    split_ifs
    · rfl
    · rfl
    · rw [List.map_cons, ih]

lemma Table.ofList_map {α β : Type} (f : α → β) (entries : List (String × α)) :
    (ofList entries).map (fun entry => (entry.1, f entry.2)) =
      ofList (entries.map fun entry => (entry.1, f entry.2)) := by
  have hfold : ∀ table : List (String × α),
      (entries.foldl (fun table entry => insert entry.1 entry.2 table) table).map
          (fun entry => (entry.1, f entry.2)) =
        (entries.map fun entry => (entry.1, f entry.2)).foldl
          (fun table entry => insert entry.1 entry.2 table)
          (table.map fun entry => (entry.1, f entry.2)) := by
    induction entries with
    | nil => exact fun _ => rfl
    | cons entry rest ih =>
      intro table
      rw [List.foldl_cons, ih, insert_map, List.map_cons, List.foldl_cons]
  exact hfold []

/-- An entry is found again unless a later one has its name. -/
lemma Table.get?_foldl_insert {α : Type} {name : String} {entries : List (String × α)}
    (h : name ∉ names entries) (table : List (String × α)) :
    get? name (entries.foldl (fun table entry => insert entry.1 entry.2 table) table) =
      get? name table := by
  induction entries generalizing table with
  | nil => rfl
  | cons entry rest ih =>
    rw [names, List.map_cons, List.mem_cons, not_or] at h
    rw [List.foldl_cons, ih h.2, get?_insert_ne h.1]

lemma Table.get?_ofList {α : Type} {entries : List (String × α)} (hnodup : (names entries).Nodup)
    {entry : String × α} (h : entry ∈ entries) : get? entry.1 (ofList entries) = some entry.2 := by
  unfold ofList
  generalize ([] : List (String × α)) = table
  induction entries generalizing table with
  | nil => cases h
  | cons first rest ih =>
    rw [names, List.map_cons, List.nodup_cons] at hnodup
    rw [List.foldl_cons]
    rcases List.mem_cons.mp h with rfl | h
    · rw [get?_foldl_insert hnodup.1, get?_insert_self]
    · exact ih hnodup.2 h _

/-- Sorting loses nothing of entries whose names are known and differ. -/
lemma Table.ofList_inj {α : Type} {entries entries' : List (String × α)}
    (hnames : names entries = names entries') (hnodup : (names entries).Nodup)
    (h : ofList entries = ofList entries') : entries = entries' := by
  -- the names and what is found under them give the list back
  have hfound : ∀ {es : List (String × α)}, (names es).Nodup →
      es.map (fun entry => (entry.1, some entry.2)) =
        (names es).map fun name => (name, get? name (ofList es)) := by
    intro es hes
    rw [names, List.map_map]
    refine List.map_congr_left fun entry hentry => ?_
    rw [Function.comp_apply, get?_ofList hes hentry]
  have hmap := hfound hnodup
  rw [h, hnames, ← hfound (hnames ▸ hnodup)] at hmap
  refine List.map_injective_iff.mpr ?_ hmap
  rintro ⟨name, value⟩ ⟨name', value'⟩ heq
  simpa using heq

namespace Json

/-- What the text with sorted members shows of a tree. -/
def canonical (tree : Json) : Json :=
  tree.sortMembers.shown

@[simp] lemma canonical_str (s : String) : (Json.str s).canonical = .str s := rfl

@[simp] lemma canonical_int (i : Int) : (Json.int i).canonical = .int i := rfl

@[simp] lemma canonical_bool (b : Bool) : (Json.bool b).canonical = .bool b := rfl

lemma canonical_float {x : Float} (h : x.isFinite = true) : (Json.float x).canonical = .float x := by
  simp [canonical, sortMembers, shown, h]

@[simp] lemma canonical_arr (items : List Json) :
    (Json.arr items).canonical = .arr (items.map canonical) := by
  have hsort : sortItems items = items.map sortMembers := by
    induction items with
    | nil => rfl
    | cons item items ih => rw [sortItems, ih, List.map_cons]
  simp [canonical, sortMembers, hsort, shown, shownItems_eq_map, Function.comp_def]

lemma canonical_obj (members : List (String × Json)) :
    (Json.obj members).canonical =
      .obj (Table.ofList (members.map fun member => (member.1, member.2.canonical))) := by
  have hsort : sortValues members = members.map fun member => (member.1, member.2.sortMembers) := by
    induction members with
    | nil => rfl
    | cons member members ih => rw [sortValues, ih, List.map_cons]
  simp [canonical, sortMembers, hsort, shown, shownMembers_eq_map, Table.ofList_map, Function.comp_def]

/-- Objects with the same keys show the same exactly when their values do. -/
lemma canonical_obj_inj {members members' : List (String × Json)}
    (hkeys : members.map Prod.fst = members'.map Prod.fst) (hnodup : (members.map Prod.fst).Nodup) :
    (Json.obj members).canonical = (Json.obj members').canonical ↔
      members.map (fun member => member.2.canonical) =
        members'.map fun member => member.2.canonical := by
  have hnames : ∀ ms : List (String × Json),
      Table.names (ms.map fun member => (member.1, member.2.canonical)) = ms.map Prod.fst := by
    intro ms
    rw [Table.names, List.map_map]
    rfl
  rw [canonical_obj, canonical_obj, Json.obj.injEq]
  constructor
  · intro h
    have hsame := Table.ofList_inj (by rw [hnames, hnames, hkeys]) (by rwa [hnames]) h
    simpa [Function.comp_def] using congrArg (List.map Prod.snd) hsame
  · intro h
    have hzip : ∀ ms : List (String × Json), ms.map (fun member => (member.1, member.2.canonical)) =
        (ms.map Prod.fst).zip (ms.map fun member => member.2.canonical) :=
      fun ms => List.zip_of_prod (hnames ms) (by rw [List.map_map]; rfl)
    rw [hzip, hzip, hkeys, h]

@[simp] lemma canonical_tagged (tag : String) (content : Json) :
    (Json.tagged tag content).canonical = .tagged tag content.canonical := by
  rw [tagged, canonical_obj]
  rfl

@[simp] lemma tagged_inj {tag tag' : String} {content content' : Json} :
    Json.tagged tag content = .tagged tag' content' ↔ tag = tag' ∧ content = content' := by
  simp [tagged]

@[simp] lemma str_ne_tagged {s tag : String} {content : Json} : Json.str s ≠ .tagged tag content := by
  simp [tagged]

@[simp] lemma tagged_ne_str {s tag : String} {content : Json} : Json.tagged tag content ≠ .str s := by
  simp [tagged]

end Json

section Injective

/-- Every float has a number in the text. -/
def AllFinite (floats : List Float) : Prop :=
  ∀ x ∈ floats, x.isFinite = true

lemma Constant.canonical_inj {c c' : Constant} (hc : AllFinite c.floats) (hc' : AllFinite c'.floats)
    (h : c.toJson.canonical = c'.toJson.canonical) : c = c' := by
  cases c with
  | none => cases c' <;> simp [toJson] at h ⊢
  | bool b => cases c' <;> simp_all [toJson]
  | int i => cases c' <;> simp_all [toJson, Int64.toInt_inj]
  | float x =>
    rw [toJson, Json.canonical_tagged, Json.canonical_float (hc x (by simp [floats]))] at h
    cases c' with
    | float y =>
      rw [toJson, Json.canonical_tagged, Json.canonical_float (hc' y (by simp [floats]))] at h
      simpa using h
    | _ => simp [toJson] at h
  | str s => cases c' <;> simp_all [toJson]

lemma AllFinite.append {xs ys : List Float} : AllFinite (xs ++ ys) ↔ AllFinite xs ∧ AllFinite ys :=
  List.forall_mem_append

lemma AllFinite.flatMap {α : Type} {values : List α} {floats : α → List Float} :
    AllFinite (values.flatMap floats) ↔ ∀ value ∈ values, AllFinite (floats value) := by
  simp only [AllFinite, List.mem_flatMap]
  constructor
  · exact fun h value hvalue x hx => h x ⟨value, hvalue, hx⟩
  · exact fun h x ⟨value, hvalue, hx⟩ => h value hvalue x hx

/-- Lists are told apart where their items are. -/
lemma list_inj {α β : Type} {view : α → β} {floats : α → List Float} {xs ys : List α}
    (hview : ∀ x ∈ xs, ∀ {y}, AllFinite (floats x) → AllFinite (floats y) → view x = view y → x = y)
    (hxs : AllFinite (xs.flatMap floats)) (hys : AllFinite (ys.flatMap floats))
    (h : xs.map view = ys.map view) : xs = ys := by
  rw [AllFinite.flatMap] at hxs hys
  induction xs generalizing ys with
  | nil => exact (List.map_eq_nil_iff.mp h.symm).symm
  | cons x xs ih =>
    cases ys with
    | nil => cases h
    | cons y ys =>
      rw [List.forall_mem_cons] at hview hxs hys
      obtain ⟨hhead, htail⟩ := List.cons.inj h
      rw [hview.1 hxs.1 hys.1 hhead, ih hview.2 hxs.2 hys.2 htail]

lemma BinaryOp.tag_inj {op op' : BinaryOp} (h : op.tag = op'.tag) : op = op' := by
  have hread := congrArg ofTag? h
  rwa [ofTag?_tag, ofTag?_tag, Option.some.injEq] at hread

lemma UnaryOp.tag_inj {op op' : UnaryOp} (h : op.tag = op'.tag) : op = op' := by
  have hread := congrArg ofTag? h
  rwa [ofTag?_tag, ofTag?_tag, Option.some.injEq] at hread

lemma Expr.canonical_inj {e e' : Expr} (he : AllFinite e.floats) (he' : AllFinite e'.floats)
    (h : e.toJson.canonical = e'.toJson.canonical) : e = e' := by
  induction e generalizing e' with
  | constant c =>
    cases e' with
    | constant c' =>
      simp only [toJson, Json.canonical_tagged, Json.tagged_inj, true_and] at h
      rw [Constant.canonical_inj he he' h]
    | _ => simp [toJson] at h
  | name ident => cases e' <;> simp_all [toJson]
  | list items ih =>
    cases e' with
    | list items' =>
      have hmap : items.map (fun item => item.toJson.canonical) =
          items'.map fun item => item.toJson.canonical := by
        simpa [toJson, itemsToJson_eq_map, Function.comp_def] using h
      rw [floats, itemFloats_eq_flatMap] at he he'
      rw [list_inj ih he he' hmap]
    | _ => simp [toJson] at h
  | binary op lhs rhs ihl ihr =>
    cases e' with
    | binary op' lhs' rhs' =>
      obtain ⟨hop, hlhs, hrhs⟩ : op.tag = op'.tag ∧ lhs.toJson.canonical = lhs'.toJson.canonical ∧
          rhs.toJson.canonical = rhs'.toJson.canonical := by
        simpa [toJson, Json.canonical_obj_inj] using h
      obtain ⟨hl, hr⟩ := AllFinite.append.mp he
      obtain ⟨hl', hr'⟩ := AllFinite.append.mp he'
      rw [BinaryOp.tag_inj hop, ihl hl hl' hlhs, ihr hr hr' hrhs]
    | _ => simp [toJson] at h
  | unary op operand ih =>
    cases e' with
    | unary op' operand' =>
      obtain ⟨hop, hoperand⟩ : op.tag = op'.tag ∧
          operand.toJson.canonical = operand'.toJson.canonical := by
        simpa [toJson, Json.canonical_obj_inj] using h
      rw [floats] at he he'
      rw [UnaryOp.tag_inj hop, ih he he' hoperand]
    | _ => simp [toJson] at h
  | call callee args kwargs ihc iha ihk =>
    cases e' with
    | call callee' args' kwargs' =>
      obtain ⟨hcallee, hargs, hkwargs⟩ : callee.toJson.canonical = callee'.toJson.canonical ∧
          args.map (fun arg => arg.toJson.canonical) = args'.map (fun arg => arg.toJson.canonical) ∧
          kwargs.map (fun kwarg => Json.arr [.str kwarg.1, kwarg.2.toJson.canonical]) =
            kwargs'.map (fun kwarg => Json.arr [.str kwarg.1, kwarg.2.toJson.canonical]) := by
        simpa [toJson, Json.canonical_obj_inj, itemsToJson_eq_map, kwargsToJson_eq_map,
          Function.comp_def] using h
      have hkwarg : ∀ kwarg ∈ kwargs, ∀ {kwarg' : String × Expr}, AllFinite kwarg.2.floats →
          AllFinite kwarg'.2.floats →
          Json.arr [.str kwarg.1, kwarg.2.toJson.canonical] =
            .arr [.str kwarg'.1, kwarg'.2.toJson.canonical] → kwarg = kwarg' := by
        intro kwarg hmem kwarg' hfinite hfinite' heq
        simp only [Json.arr.injEq, List.cons.injEq, Json.str.injEq, and_true] at heq
        exact Prod.ext heq.1 (ihk kwarg hmem hfinite hfinite' heq.2)
      rw [floats, itemFloats_eq_flatMap, kwargFloats_eq_flatMap, AllFinite.append,
        AllFinite.append] at he he'
      obtain ⟨⟨hc, ha⟩, hk⟩ := he
      obtain ⟨⟨hc', ha'⟩, hk'⟩ := he'
      rw [ihc hc hc' hcallee, list_inj iha ha ha' hargs, list_inj hkwarg hk hk' hkwargs]
    | _ => simp [toJson] at h

@[simp] lemma Stmt.record_canonical_inj {line line' : UInt32} {kind kind' : Json} :
    (Stmt.record line kind).canonical = (Stmt.record line' kind').canonical ↔
      line = line' ∧ kind.canonical = kind'.canonical := by
  simp [record, Json.canonical_obj_inj, UInt32.toNat_inj]

lemma Stmt.canonical_inj {stmt stmt' : Stmt} (hs : AllFinite stmt.floats)
    (hs' : AllFinite stmt'.floats) (h : stmt.toJson.canonical = stmt'.toJson.canonical) :
    stmt = stmt' := by
  induction stmt generalizing stmt' with
  | assign line target value =>
    cases stmt' with
    | assign line' target' value' =>
      obtain ⟨hline, htarget, hvalue⟩ : line = line' ∧ target = target' ∧
          value.toJson.canonical = value'.toJson.canonical := by
        simpa [toJson, Json.canonical_obj_inj] using h
      rw [htarget, Expr.canonical_inj hs hs' hvalue, hline]
    | _ => simp [toJson] at h
  | expression line value =>
    cases stmt' with
    | expression line' value' =>
      obtain ⟨hline, hvalue⟩ : line = line' ∧ value.toJson.canonical = value'.toJson.canonical := by
        simpa [toJson] using h
      rw [Expr.canonical_inj hs hs' hvalue, hline]
    | _ => simp [toJson] at h
  | branch line condition thenBlock elseBlock iht ihe =>
    cases stmt' with
    | branch line' condition' thenBlock' elseBlock' =>
      obtain ⟨hline, hcondition, hthen, helse⟩ :
          line = line' ∧ condition.toJson.canonical = condition'.toJson.canonical ∧
            thenBlock.map (fun stmt => stmt.toJson.canonical) =
              thenBlock'.map (fun stmt => stmt.toJson.canonical) ∧
            elseBlock.map (fun stmt => stmt.toJson.canonical) =
              elseBlock'.map (fun stmt => stmt.toJson.canonical) := by
        simpa [toJson, Json.canonical_obj_inj, blockToJson_eq_map, Function.comp_def] using h
      rw [floats, blockFloats_eq_flatMap, blockFloats_eq_flatMap, AllFinite.append,
        AllFinite.append] at hs hs'
      obtain ⟨⟨hc, ht⟩, he⟩ := hs
      obtain ⟨⟨hc', ht'⟩, he'⟩ := hs'
      rw [Expr.canonical_inj hc hc' hcondition, list_inj iht ht ht' hthen, list_inj ihe he he' helse,
        hline]
    | _ => simp [toJson] at h
  | loop line condition body ih =>
    cases stmt' with
    | loop line' condition' body' =>
      obtain ⟨hline, hcondition, hbody⟩ :
          line = line' ∧ condition.toJson.canonical = condition'.toJson.canonical ∧
            body.map (fun stmt => stmt.toJson.canonical) =
              body'.map (fun stmt => stmt.toJson.canonical) := by
        simpa [toJson, Json.canonical_obj_inj, blockToJson_eq_map, Function.comp_def] using h
      rw [floats, blockFloats_eq_flatMap, AllFinite.append] at hs hs'
      rw [Expr.canonical_inj hs.1 hs'.1 hcondition, list_inj ih hs.2 hs'.2 hbody, hline]
    | _ => simp [toJson] at h
  | pass line =>
    cases stmt' with
    | pass line' => simpa [toJson] using h
    | _ => simp [toJson] at h

/-- The canonical text of code with finite floats determines the code. -/
lemma Code.canonicalText_inj {code code' : Code} (hcode : AllFinite code.floats)
    (hcode' : AllFinite code'.floats) (h : code.canonicalText = code'.canonicalText) :
    code = code' := by
  have hshown := Json.shown_eq_of_toText_eq h
  change code.toJson.canonical = code'.toJson.canonical at hshown
  obtain ⟨name, filename, body⟩ := code
  obtain ⟨name', filename', body'⟩ := code'
  obtain ⟨hname, hfilename, hbody⟩ : name = name' ∧ filename = filename' ∧
      body.map (fun stmt => stmt.toJson.canonical) =
        body'.map (fun stmt => stmt.toJson.canonical) := by
    simpa [toJson, Json.canonical_obj_inj, Stmt.blockToJson_eq_map, Function.comp_def] using hshown
  rw [floats, Stmt.blockFloats_eq_flatMap] at hcode hcode'
  have hsame : body = body' := list_inj (fun _ _ _ => Stmt.canonical_inj) hcode hcode' hbody
  rw [hsame, hfilename, hname]

end Injective

namespace Digest

open Json.Read (hexValue?_digitChar)

lemma hexDigit_inj {m n : Nat} (hm : m < 16) (hn : n < 16) (h : hexDigit m = hexDigit n) : m = n := by
  have hvalue := congrArg Json.Read.hexValue? h
  unfold hexDigit at hvalue
  rwa [hexValue?_digitChar hm, hexValue?_digitChar hn, Option.some.injEq] at hvalue

lemma hexText_inj {bytes bytes' : List UInt8} (h : hexText bytes = hexText bytes') :
    bytes = bytes' := by
  have hchars := String.ofList_inj.mp h
  clear h
  induction bytes generalizing bytes' with
  | nil =>
    cases bytes' with
    | nil => rfl
    | cons b' bytes' => simp at hchars
  | cons b bytes ih =>
    cases bytes' with
    | nil => simp at hchars
    | cons b' bytes' =>
      simp only [List.flatMap_cons, List.cons_append, List.nil_append, List.cons.injEq] at hchars
      obtain ⟨hhigh, hlow, hrest⟩ := hchars
      have hb := b.toNat_lt
      have hb' := b'.toNat_lt
      have hdiv := hexDigit_inj (by omega) (by omega) hhigh
      have hmod := hexDigit_inj (by omega) (by omega) hlow
      have hbyte : b = b' := UInt8.toNat_inj.mp (by omega)
      rw [hbyte, ih hrest]

lemma toList_inj {bytes bytes' : ByteArray} (h : bytes.toList = bytes'.toList) : bytes = bytes' := by
  rw [toList_eq, toList_eq] at h
  exact ByteArray.ext (Array.toList_inj.mp h)

/-- The two texts are no collision of SHA-256. -/
def Separates (text text' : String) : Prop :=
  sha256 text.toUTF8.toList = sha256 text'.toUTF8.toList → text.toUTF8.toList = text'.toUTF8.toList

lemma Separates.eq_of_ofText_eq {text text' : String} (h : Separates text text')
    (hdigest : ofText text = ofText text') : text = text' :=
  String.toByteArray_inj.mp (toList_inj (h (hexText_inj hdigest)))

end Digest

/-- Loading never gives a float without a number, and the canonical texts of two loaded programs tell their
codes apart, verified or not. So do the digests of verified programs, unless SHA-256 collides on those
texts. -/
theorem Program.code_eq_of_hash_eq {text text' : String} {verify verify' : Bool} {program program' : Program}
    (hload : Program.load text verify = .ok program) (hload' : Program.load text' verify' = .ok program') :
    (∀ x ∈ program.code.floats, x.isFinite = true) ∧
      (program.code.canonicalText = program'.code.canonicalText → program.code = program'.code) ∧
      (verify = true → verify' = true →
        Digest.Separates program.code.canonicalText program'.code.canonicalText →
          program.hash = program'.hash → program.code = program'.code) := by
  obtain ⟨hread, hintact⟩ := load_eq_ok_iff_ofText.mp hload
  obtain ⟨hread', hintact'⟩ := load_eq_ok_iff_ofText.mp hload'
  have hfinite := (loadable_of_ofText hread).isFinite
  have hinj := Code.canonicalText_inj hfinite (loadable_of_ofText hread').isFinite
  refine ⟨hfinite, hinj, fun hverify hverify' hseparates hhash => hinj (hseparates.eq_of_ofText_eq ?_)⟩
  exact (hintact hverify).symm.trans (hhash.trans (hintact' hverify'))

/-- The zeros compare equal as numbers, but the programs that mention them are told apart. -/
theorem Program.canonicalText_zeros_ne :
    Program.load (Program.seal (Code.mentioning 0.0)).toText true =
        .ok (Program.seal (Code.mentioning 0.0)) ∧
      Program.load (Program.seal (Code.mentioning (-0.0))).toText true =
        .ok (Program.seal (Code.mentioning (-0.0))) ∧
      (Code.mentioning 0.0).canonicalText ≠ (Code.mentioning (-0.0)).canonicalText := by
  have hzero := (load_seal_mentioning_iff 0.0).mpr (by decide +kernel)
  have hnegative := (load_seal_mentioning_iff (-0.0)).mpr (by decide +kernel)
  refine ⟨hzero, hnegative, fun hsame => ?_⟩
  have hcode := (code_eq_of_hash_eq hzero hnegative).2.1 hsame
  have hfloat : [(0.0 : Float)] = [-0.0] := congrArg Code.floats hcode
  exact absurd hfloat (by decide +kernel)

end SealedScript
