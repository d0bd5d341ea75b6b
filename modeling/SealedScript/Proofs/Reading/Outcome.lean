import Mathlib.Tactic.Common
import SealedScript.Json.Shape
import SealedScript.Json.Tree

/-! What a reader makes of a text when something else stands behind it. A reader of values may look
one character past its text, so what stands behind must be able to end a value. -/

namespace SealedScript

section Except

variable {ε α β : Type}

@[simp] lemma Except.ok_bind (a : α) (k : α → Except ε β) : (Except.ok a >>= k) = k a := rfl

@[simp] lemma Except.pure_eq_ok (a : α) : (pure a : Except ε α) = .ok a := rfl

@[simp] lemma Except.error_bind (e : ε) (k : α → Except ε β) :
    ((Except.error e : Except ε α) >>= k) = .error e := rfl

lemma Except.bind_eq_ok_iff {x : Except ε α} {k : α → Except ε β} {b : β} :
    x >>= k = .ok b ↔ ∃ a, x = .ok a ∧ k a = .ok b := by
  cases x <;> simp

lemma Except.map_eq_ok_iff {x : Except ε α} {f : α → β} {b : β} :
    f <$> x = .ok b ↔ ∃ a, x = .ok a ∧ f a = b := by
  cases x with
  | error e => exact iff_of_false (fun h => by cases h) (by simp)
  | ok a =>
    constructor
    · exact fun h => ⟨a, rfl, Except.ok.inj h⟩
    · rintro ⟨_, ⟨⟩, rfl⟩
      rfl

end Except

namespace Json.Read

variable {α β : Type}

@[simp] lemma bind_run (read : Read α) (next : α → Read β) (text : List Char) :
    (read >>= next) text = read text >>= fun p => next p.1 p.2 := rfl

@[simp] lemma pure_run (a : α) (text : List Char) : (pure a : Read α) text = .ok (a, text) := rfl

@[simp] lemma throw_run (fault : Fault) (text : List Char) :
    (throw fault : Read α) text = .error fault := rfl

@[simp] lemma map_run (f : α → β) (read : Read α) (text : List Char) :
    (f <$> read) text = read text >>= fun p => .ok (f p.1, p.2) := rfl

@[simp] lemma lift_run (outcome : Except Fault α) (text : List Char) :
    (liftM outcome : Read α) text = outcome >>= fun a => .ok (a, text) := rfl

@[simp] lemma get_run (text : List Char) : (get : Read (List Char)) text = .ok (text, text) := rfl

@[simp] lemma advance_run (c : Char) (rest : List Char) : advance (c :: rest) = .ok ((), rest) := rfl

@[simp] lemma peek_run (text : List Char) : peek text = .ok (text.head?, text) := rfl

lemma solid_run {c : Char} (h : isBlank c = false) (rest : List Char) :
    solid (c :: rest) = .ok (c, c :: rest) := by
  simp [solid, skipBlank, modify, modifyGet, MonadStateOf.modifyGet, StateT.modifyGet, h]

lemma word_run (letters rest : List Char) : word letters (letters ++ rest) = .ok ((), rest) := by
  induction letters with
  | nil => rfl
  | cons c letters ih => simp [word, ih]

/-- One more bracket may be opened, and the bracket itself is taken. -/
@[simp] lemma enter_run (depth : Nat) (body : (inner : Nat) → inner < depth + 1 → Read α) (c : Char)
    (rest : List Char) :
    enter (depth + 1) body (c :: rest) = body depth (Nat.lt_succ_self depth) rest := rfl

/-- Nothing follows, or a character that ends a value. -/
def Ends (rest : List Char) : Prop :=
  ∀ c ∈ rest.head?, c = ',' ∨ c = ']' ∨ c = '\x7d'

lemma ends_nil : Ends [] := by simp [Ends]

lemma ends_comma (rest : List Char) : Ends (',' :: rest) := by simp [Ends]

lemma ends_bracket (rest : List Char) : Ends (']' :: rest) := by simp [Ends]

lemma ends_brace (rest : List Char) : Ends ('\x7d' :: rest) := by simp [Ends]

/-- Whatever ends the value, `text` is read with the given outcome and the rest is left over. -/
def Gives (read : Read α) (text : List Char) (outcome : Except Fault α) : Prop :=
  ∀ rest, Ends rest → read (text ++ rest) = outcome >>= fun a => .ok (a, rest)

lemma Gives.map {read : Read α} {text : List Char} {outcome : Except Fault α}
    (h : Gives read text outcome) (f : α → β) : Gives (f <$> read) text (f <$> outcome) := by
  intro rest hrest
  rw [map_run, h rest hrest]
  cases outcome <;> rfl

/-- A reader whose result is turned into another value. -/
lemma Gives.result {read : Read α} {text : List Char} {outcome : Except Fault α}
    (h : Gives read text outcome) {next : α → Read β} (f : α → β) (hnext : ∀ a, next a = pure (f a))
    {outcome' : Except Fault β} (houtcome : f <$> outcome = outcome') :
    Gives (read >>= next) text outcome' := by
  subst houtcome
  intro rest hrest
  rw [bind_run, h rest hrest]
  cases outcome with
  | error fault => rfl
  | ok a =>
    change next a rest = _
    rw [hnext]
    rfl

/-- A whole text is parsed with the outcome of its reader. -/
lemma Gives.parse {read : Read α} {text : List Char} {outcome : Except Fault α}
    (h : Gives read text outcome) : parse read (String.ofList text) = outcome := by
  have hread := h [] ends_nil
  rw [List.append_nil] at hread
  unfold Read.parse
  rw [String.toList_ofList, hread]
  cases outcome <;> rfl

end Json.Read

end SealedScript
