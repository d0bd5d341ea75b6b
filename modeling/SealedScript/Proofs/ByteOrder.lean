import Mathlib.Tactic.Common

/-! The bytes of a text as a list. Texts are ordered by their characters, and that is the order of their
bytes. -/

namespace SealedScript

namespace Digest

lemma toList_loop (bytes : ByteArray) (i : Nat) (done : List UInt8) :
    ByteArray.toList.loop bytes i done = done.reverse ++ bytes.data.toList.drop i := by
  have hsize : bytes.data.toList.length = bytes.size := Array.length_toList
  -- on the number of bytes from `i` on
  induction hn : bytes.size - i generalizing i done with
  | zero =>
    have hdrop : bytes.data.toList.drop i = [] := List.drop_eq_nil_of_le (by omega)
    rw [ByteArray.toList.loop, if_neg (by omega), hdrop, List.append_nil]
  | succ n ih =>
    have hi : i < bytes.data.toList.length := by omega
    have hget : bytes.get! i = bytes.data.toList[i] := by
      simp at hi
      simp [ByteArray.get!, hi]
    rw [ByteArray.toList.loop, if_pos (by omega), ih _ _ (by omega), List.drop_eq_getElem_cons hi, hget]
    simp

lemma toList_eq (bytes : ByteArray) : bytes.toList = bytes.data.toList := by
  unfold ByteArray.toList
  rw [toList_loop, List.reverse_nil, List.nil_append, List.drop_zero]

lemma toUTF8_ofList (chars : List Char) :
    (String.ofList chars).toUTF8.toList = chars.flatMap String.utf8EncodeChar := by
  rw [toList_eq]
  simp [List.utf8Encode]

end Digest

namespace ByteOrder

/-- Of two numbers below the bound, the bytes of the smaller come first, whatever follows them. -/
def Ascending (bound : Nat) (bytes : Nat → List UInt8) : Prop :=
  ∀ a b, a < b → b < bound → ∀ xs ys, bytes a ++ xs < bytes b ++ ys

lemma cons_lt_cons_of_lt {a b : Nat} (hlt : a < b) (hb : b < 256) (xs ys : List UInt8) :
    UInt8.ofNat a :: xs < UInt8.ofNat b :: ys := by
  have hbyte : UInt8.ofNat a < UInt8.ofNat b := by
    rw [UInt8.lt_iff_toNat_lt, UInt8.toNat_ofNat', UInt8.toNat_ofNat']
    omega
  exact List.cons_lt_cons_iff.mpr (.inl hbyte)

/-- The first byte: a mark that tells how many follow, and the highest bits. -/
lemma ascending_lead {bound mark : Nat} (h : bound + mark ≤ 256) :
    Ascending bound fun n => [UInt8.ofNat (n % bound + mark)] := by
  intro a b hlt hb xs ys
  dsimp only
  rw [Nat.mod_eq_of_lt hb, Nat.mod_eq_of_lt (Nat.lt_trans hlt hb)]
  exact cons_lt_cons_of_lt (by omega) (by omega) xs ys

/-- Each byte after the first carries six bits. -/
lemma Ascending.extend {bound : Nat} {bytes : Nat → List UInt8} (h : Ascending bound bytes) :
    Ascending (64 * bound) fun n => bytes (n / 64) ++ [UInt8.ofNat (n % 64 + 128)] := by
  intro a b hlt hb xs ys
  simp only [List.append_assoc, List.cons_append, List.nil_append]
  rcases Nat.lt_or_ge (a / 64) (b / 64) with hhigh | hhigh
  · exact h _ _ hhigh (by omega) _ _
  · have hsame : a / 64 = b / 64 := by omega
    rw [hsame]
    exact List.append_left_lt (cons_lt_cons_of_lt (by omega) (by omega) xs ys)

lemma ascending_two : Ascending 2048 fun n =>
    [UInt8.ofNat (n / 64 % 32 + 192), UInt8.ofNat (n % 64 + 128)] := by
  have h : Ascending 32 fun n => [UInt8.ofNat (n % 32 + 192)] := ascending_lead (by decide)
  exact h.extend

lemma ascending_three : Ascending 65536 fun n =>
    [UInt8.ofNat (n / 4096 % 16 + 224), UInt8.ofNat (n / 64 % 64 + 128), UInt8.ofNat (n % 64 + 128)] := by
  have h : Ascending 16 fun n => [UInt8.ofNat (n % 16 + 224)] := ascending_lead (by decide)
  simpa only [Nat.div_div_eq_div_mul] using! h.extend.extend

lemma ascending_four : Ascending 2097152 fun n =>
    [UInt8.ofNat (n / 262144 % 8 + 240), UInt8.ofNat (n / 4096 % 64 + 128),
      UInt8.ofNat (n / 64 % 64 + 128), UInt8.ofNat (n % 64 + 128)] := by
  have h : Ascending 8 fun n => [UInt8.ofNat (n % 8 + 240)] := ascending_lead (by decide)
  simpa only [Nat.div_div_eq_div_mul] using! h.extend.extend.extend

/-- The bytes of a character come before those of any later one. -/
lemma utf8EncodeChar_append_lt {c d : Char} (h : c < d) (xs ys : List UInt8) :
    String.utf8EncodeChar c ++ xs < String.utf8EncodeChar d ++ ys := by
  have hlt : c.val.toNat < d.val.toNat := h
  have hlast : d.val.toNat < 0x110000 := by
    have := d.valid
    grind
  unfold String.utf8EncodeChar
  dsimp only
  generalize c.val.toNat = a at *
  generalize d.val.toNat = b at *
  -- a later character has at least as many bytes, and the first of more is the greater
  split_ifs <;> try omega
  · exact cons_lt_cons_of_lt hlt (by omega) xs ys
  · exact cons_lt_cons_of_lt (by omega) (by omega) _ _
  · exact cons_lt_cons_of_lt (by omega) (by omega) _ _
  · exact cons_lt_cons_of_lt (by omega) (by omega) _ _
  · exact ascending_two a b hlt (by omega) xs ys
  · exact cons_lt_cons_of_lt (by omega) (by omega) _ _
  · exact cons_lt_cons_of_lt (by omega) (by omega) _ _
  · exact ascending_three a b hlt (by omega) xs ys
  · exact cons_lt_cons_of_lt (by omega) (by omega) _ _
  · exact ascending_four a b hlt (by omega) xs ys

lemma flatMap_utf8EncodeChar_lt {chars chars' : List Char} (h : chars < chars') :
    chars.flatMap String.utf8EncodeChar < chars'.flatMap String.utf8EncodeChar := by
  induction chars generalizing chars' with
  | nil =>
    cases chars' with
    | nil => exact absurd h (List.lt_irrefl _)
    | cons d chars' =>
      obtain ⟨byte, bytes, hd⟩ := List.exists_cons_of_ne_nil (String.utf8EncodeChar_ne_nil (c := d))
      rw [List.flatMap_cons, hd]
      exact List.nil_lt_cons _ _
  | cons c chars ih =>
    cases chars' with
    | nil => exact absurd h (List.not_lt_nil _)
    | cons d chars' =>
      rcases List.cons_lt_cons_iff.mp h with hlt | ⟨rfl, hrest⟩
      · exact utf8EncodeChar_append_lt hlt _ _
      · exact List.append_left_lt (ih hrest)

/-- Texts are in the order of their bytes. -/
lemma toUTF8_lt {s t : String} (h : s < t) : s.toUTF8.toList < t.toUTF8.toList := by
  have hbytes := flatMap_utf8EncodeChar_lt h
  rwa [← Digest.toUTF8_ofList, ← Digest.toUTF8_ofList, String.ofList_toList, String.ofList_toList] at hbytes

end ByteOrder

end SealedScript
