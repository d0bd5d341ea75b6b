import SealedScript.Exception
import SealedScript.Value.Basic

/-! Repeating strings and lists. -/

namespace SealedScript.Operator

/-- The longest string, in bytes, or list that a repetition may build. -/
def maxRepetition : Nat := 2 ^ (28 : Nat)

/-- `n` copies of `s` one after the other, by doubling. -/
def copies (s : String) (n : Nat) : String :=
  if n = 0 then ""
  else
    let half := copies s (n / 2)
    if n % 2 = 0 then half ++ half else half ++ half ++ s
termination_by n

/-- Doubling gives the plain concatenation of `n` equal strings. -/
theorem toList_copies (s : String) (n : Nat) :
    (copies s n).toList = (List.replicate n s.toList).flatten := by
  fun_induction copies s n with
  | case1 => rfl
  | case2 n hn half heven ih =>
    have hsplit : n = n / 2 + n / 2 := by omega
    conv => rhs; rw [hsplit, ← List.replicate_append_replicate, List.flatten_append]
    rw [String.toList_append, ih]
  | case3 n hn half hodd ih =>
    have hsplit : n = n / 2 + n / 2 + 1 := by omega
    conv =>
      rhs
      rw [hsplit, ← List.replicate_append_replicate, ← List.replicate_append_replicate,
        List.flatten_append, List.flatten_append]
    simp only [String.toList_append, half, ih, List.replicate_one, List.flatten_singleton]

theorem size_append_list {α : Type} (out : Array α) (items : List α) :
    (out ++ items).size = out.size + items.length := by
  rw [← Array.length_toList, Array.toList_appendList, List.length_append, Array.length_toList]

/-- Appends whole copies of a list until the total is reached. -/
def fill {α : Type} (items : List α) (nonempty : 0 < items.length) (total : Nat) (out : Array α) :
    Array α :=
  if out.size < total then fill items nonempty total (out ++ items) else out
termination_by total - out.size
decreasing_by
  rw [size_append_list]
  omega

/-- Whole copies stay whole: the loop goes on from `k` copies to `n`. -/
theorem toList_fill {α : Type} (items : List α) (nonempty : 0 < items.length) {k n : Nat} (hk : k ≤ n)
    {out : Array α} (hout : out.toList = (List.replicate k items).flatten) :
    (fill items nonempty (items.length * n) out).toList = (List.replicate n items).flatten := by
  have hsize : out.size = items.length * k := by
    rw [← Array.length_toList, hout]
    simp [Nat.mul_comm]
  induction hturns : n - k generalizing k out with
  | zero =>
    obtain rfl : k = n := by omega
    rw [fill, if_neg (by omega), hout]
  | succ turns ih =>
    have hless : items.length * k < items.length * n :=
      Nat.mul_lt_mul_of_pos_left (by omega) nonempty
    rw [fill, if_pos (by omega)]
    refine ih (k := k + 1) (by omega) ?_ ?_ (by omega)
    · rw [Array.toList_appendList, hout, List.replicate_succ', List.flatten_concat]
    · rw [size_append_list, hsize, Nat.mul_succ]

/-- Started with nothing, the loop ends with exactly `n` copies. -/
theorem toList_fill_empty {α : Type} (items : List α) (nonempty : 0 < items.length) (n : Nat) :
    (fill items nonempty (items.length * n) #[]).toList = (List.replicate n items).flatten :=
  toList_fill items nonempty (Nat.zero_le n) rfl

/-- Nothing is left of an empty operand or a count that is not positive. -/
def repetition {α : Type} (empty : α) (size : Nat) (n : Int) (tooLong : Cause)
    (build : 0 < size → Nat → α) : Except Cause α :=
  if h : size = 0 ∨ n ≤ 0 then .ok empty
  else if size * n.toNat ≤ maxRepetition then .ok (build (by omega) n.toNat)
  else .error tooLong

def repeatText (s : String) (n : Int) : Except Cause Value :=
  .str <$> repetition "" s.utf8ByteSize n .longText fun _ count => copies s count

def repeatList (items : List Value) (n : Int) : Except Cause Value :=
  .list <$> repetition [] items.length n .longList fun nonempty count =>
    (fill items nonempty (items.length * count) #[]).toList

end SealedScript.Operator
