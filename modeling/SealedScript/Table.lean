/-! Association lists kept in increasing order of their names, one entry a name. Binding a name
changes what is found under that name alone. -/

namespace SealedScript.Table

variable {α : Type}

/-- Binds `name`, in its place in the order; an earlier entry of that name is replaced. -/
def insert (name : String) (value : α) : List (String × α) → List (String × α)
  | [] => [(name, value)]
  | (other, old) :: rest =>
    if name = other then (name, value) :: rest
    else if name < other then (name, value) :: (other, old) :: rest
    else (other, old) :: insert name value rest

def get? (name : String) : List (String × α) → Option α
  | [] => none
  | (other, value) :: rest => if name = other then some value else get? name rest

def names (table : List (String × α)) : List String :=
  table.map Prod.fst

/-- Later entries win over earlier ones of the same name. -/
def ofList (entries : List (String × α)) : List (String × α) :=
  entries.foldl (fun table entry => insert entry.1 entry.2 table) []

@[simp] theorem get?_insert_self (name : String) (value : α) (table : List (String × α)) :
    get? name (insert name value table) = some value := by
  induction table with
  | nil => simp [insert, get?]
  | cons entry rest ih =>
    obtain ⟨other, old⟩ := entry
    by_cases h : name = other
    · simp [insert, get?, h]
    · by_cases hlt : name < other <;> simp [insert, get?, h, hlt, ih]

@[simp] theorem get?_insert_ne {name other : String} (h : other ≠ name) (value : α)
    (table : List (String × α)) : get? other (insert name value table) = get? other table := by
  induction table with
  | nil => simp [insert, get?, h]
  | cons entry rest ih =>
    obtain ⟨key, old⟩ := entry
    by_cases hk : name = key
    · subst hk
      simp [insert, get?, h]
    · by_cases hlt : name < key
      · simp [insert, get?, hk, hlt, h]
      · by_cases ho : other = key <;> simp [insert, get?, hk, hlt, ho, ih]

end SealedScript.Table
