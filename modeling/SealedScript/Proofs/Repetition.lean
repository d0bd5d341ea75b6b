import Mathlib.Algebra.Group.Int.Defs
import Mathlib.Tactic.Common
import SealedScript.Operator.Basic

/-! Products of a string or list with an integer: whole copies one after the other, up to a cap on the
length of the result. A list is copied by a loop, which makes as many turns as there are copies. -/

namespace SealedScript

/-- The length of a sequence: a string counts in bytes, a list in items. -/
def Value.length? : Value → Option Nat
  | .str s => some s.utf8ByteSize
  | .list items => some items.length
  | _ => Option.none

/-- Nothing, as a value of the same kind. -/
def Value.emptied : Value → Value
  | .str _ => .str ""
  | .list _ => .list []
  | other => other

/-- `n` copies of a sequence one after the other. -/
def Value.times : Value → Nat → Value
  | .str s, n => .str (String.join (List.replicate n s))
  | .list items, n => .list (List.replicate n items).flatten
  | other, _ => other

namespace Operator

section Loop

variable {α : Type} (items : List α)

/-- The array after some turns of the copying loop. -/
def afterTurns : Nat → Array α
  | 0 => #[]
  | k + 1 => afterTurns k ++ items

lemma toList_afterTurns (k : Nat) : (afterTurns items k).toList = (List.replicate k items).flatten := by
  induction k with
  | zero => rfl
  | succ k ih =>
    rw [afterTurns, Array.toList_appendList, ih, List.replicate_succ', List.flatten_concat]

lemma size_afterTurns (k : Nat) : (afterTurns items k).size = items.length * k := by
  rw [← Array.length_toList, toList_afterTurns]
  simp [Nat.mul_comm]

/-- The loop ends after `n` turns and not before: until then the total is not reached. -/
lemma fill_turns (nonempty : 0 < items.length) (n : Nat) :
    fill items nonempty (items.length * n) #[] = afterTurns items n ∧
      (afterTurns items n).size = items.length * n ∧
      ∀ k < n, (afterTurns items k).size < items.length * n := by
  refine ⟨?_, size_afterTurns items n, ?_⟩
  · apply Array.ext'
    rw [toList_fill_empty, toList_afterTurns]
  · intro k hk
    rw [size_afterTurns]
    exact Nat.mul_lt_mul_of_pos_left hk nonempty

end Loop

lemma copies_eq_join (s : String) (n : Nat) : copies s n = String.join (List.replicate n s) := by
  apply String.toList_inj.mp
  rw [toList_copies, String.toList_join, List.flatMap_def, List.map_replicate]

/-- A repetition, seen from its operand and its count. -/
structure Repeats (s : Value) (size : Nat) (n : Int) (result : Except Cause Value) : Prop where
  nothing : size = 0 ∨ n ≤ 0 → result = .ok s.emptied
  copies : 0 < size → 0 < n → size * n ≤ 2 ^ 28 → result = .ok (s.times n.toNat)
  tooLong : 0 < size → 0 < n → 2 ^ 28 < size * n →
    ∃ cause, result = .error cause ∧ cause.exception.kind = .overflowError

section Cap

variable {α : Type} {empty : α} {size : Nat} {n : Int} {tooLong : Cause} {build : 0 < size → Nat → α}

lemma repetition_of_pos (hsize : 0 < size) (hn : 0 < n) :
    repetition empty size n tooLong build =
      if size * n ≤ 2 ^ 28 then .ok (build hsize n.toNat) else .error tooLong := by
  have hcap : size * n.toNat ≤ maxRepetition ↔ size * n ≤ 2 ^ 28 := by
    obtain ⟨count, rfl⟩ := Int.eq_ofNat_of_zero_le (Int.le_of_lt hn)
    rw [Int.toNat_natCast, maxRepetition]
    norm_cast
  rw [repetition, dif_neg (by omega)]
  exact if_congr hcap rfl rfl

/-- Strings and lists differ only in how their copies are made and in what they are then wrapped. -/
lemma repetition_repeats {wrap : α → Value} {s : Value} (hempty : wrap empty = s.emptied)
    (hbuild : ∀ nonempty count, wrap (build nonempty count) = s.times count)
    (hkind : tooLong.exception.kind = .overflowError) :
    Repeats s size n (wrap <$> repetition empty size n tooLong build) := by
  constructor
  · intro h
    rw [repetition, dif_pos h]
    exact congrArg Except.ok hempty
  · intro hsize hn hcap
    rw [repetition_of_pos hsize hn, if_pos hcap]
    exact congrArg Except.ok (hbuild hsize n.toNat)
  · intro hsize hn hcap
    rw [repetition_of_pos hsize hn, if_neg (Int.not_le.mpr hcap)]
    exact ⟨tooLong, rfl, hkind⟩

end Cap

lemma repeatText_repeats (s : String) (n : Int) : Repeats (.str s) s.utf8ByteSize n (repeatText s n) :=
  repetition_repeats rfl (fun _ count => congrArg Value.str (copies_eq_join s count)) rfl

lemma repeatList_repeats (items : List Value) (n : Int) :
    Repeats (.list items) items.length n (repeatList items n) :=
  repetition_repeats rfl (fun nonempty count => congrArg Value.list (toList_fill_empty items nonempty count)) rfl

end Operator

open Operator

/-- The count may stand on either side. -/
lemma BinaryOp.mul_repeats {s n : Value} {size : Nat} {k : Int64} (hs : s.length? = some size)
    (hn : n.asInt? = some k) :
    BinaryOp.mul.apply s n = BinaryOp.mul.apply n s ∧
      Repeats s size k.toInt (BinaryOp.mul.apply s n) := by
  cases s with
  | str s =>
    cases hs
    cases n with
    | bool b => cases hn; exact ⟨rfl, repeatText_repeats s _⟩
    | int i => cases hn; exact ⟨rfl, repeatText_repeats s _⟩
    | _ => cases hn
  | list items =>
    cases hs
    cases n with
    | bool b => cases hn; exact ⟨rfl, repeatList_repeats items _⟩
    | int i => cases hn; exact ⟨rfl, repeatList_repeats items _⟩
    | _ => cases hn
  | _ => cases hs

/-- A sequence times an integer, in either order, is nothing at all, that many whole copies, or too long for
the cap. The loop that copies a list ends with exactly the items of all copies, after one turn for each. -/
theorem BinaryOp.mul_sequence {s n : Value} {size : Nat} {k : Int64} (hs : s.length? = some size)
    (hn : n.asInt? = some k) :
    BinaryOp.mul.apply s n = BinaryOp.mul.apply n s ∧
    (size = 0 ∨ k.toInt ≤ 0 → BinaryOp.mul.apply s n = .ok s.emptied) ∧
    (0 < size → 0 < k.toInt → size * k.toInt ≤ 2 ^ 28 →
      BinaryOp.mul.apply s n = .ok (s.times k.toInt.toNat)) ∧
    (0 < size → 0 < k.toInt → 2 ^ 28 < size * k.toInt →
      ∃ cause, BinaryOp.mul.apply s n = .error cause ∧ cause.exception.kind = .overflowError) ∧
    ∀ items, s = .list items → ∀ (nonempty : 0 < items.length) (count : Nat),
      (fill items nonempty (size * count) #[]).size = size * count ∧
      fill items nonempty (size * count) #[] = afterTurns items count ∧
      ∀ turn < count, (afterTurns items turn).size < size * count := by
  obtain ⟨hswap, h⟩ := mul_repeats hs hn
  refine ⟨hswap, h.nothing, h.copies, h.tooLong, ?_⟩
  rintro items rfl nonempty count
  cases hs
  obtain ⟨hfill, hsize, hturns⟩ := fill_turns items nonempty count
  rw [hfill]
  exact ⟨hsize, rfl, hturns⟩

/-- Two bytes make up one character here; the largest count is too much even for them. -/
theorem BinaryOp.mul_sequence_accent :
    BinaryOp.mul.apply (.int 3) (.str "é") = .ok (.str "ééé") ∧
    BinaryOp.mul.apply (.list [.none, .bool true]) (.bool false) = .ok (.list []) ∧
    ∃ cause, BinaryOp.mul.apply (.str "é") (.int Int64.maxValue) = .error cause ∧
      cause.exception.kind = .overflowError := by
  obtain ⟨hswap, -, hcopies, -⟩ := @BinaryOp.mul_sequence (.str "é") (.int 3) _ _ rfl rfl
  obtain ⟨-, hnothing, -⟩ := @BinaryOp.mul_sequence (.list [.none, .bool true]) (.bool false) _ _ rfl rfl
  obtain ⟨-, -, -, hlong, -⟩ := @BinaryOp.mul_sequence (.str "é") (.int Int64.maxValue) _ _ rfl rfl
  have htext : String.join (List.replicate (Int64.toInt 3).toNat "é") = "ééé" := by decide
  refine ⟨?_, hnothing (by decide), hlong (by decide) (by decide) (by decide)⟩
  rw [← hswap, hcopies (by decide) (by decide) (by decide)]
  exact congrArg (fun text => Except.ok (Value.str text)) htext

end SealedScript
