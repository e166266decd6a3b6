/-!
Named entries.  A table keeps its entries in the order in which their names were first inserted, and
inserting a name again replaces its entry in place.  Records keep theirs in the order of the names.
-/

namespace Blockwork

variable {α : Type}

/-- Entries by name, in order of first insertion. -/
abbrev Table (α : Type) := List (String × α)

namespace Table

/-- The entry of a name. -/
def get? (name : String) : Table α → Option α
  | [] => none
  | (n, a) :: rest => if n = name then some a else get? name rest

/-- Sets the entry of a name: in place if the name is there, else at the end. -/
def insert (name : String) (a : α) : Table α → Table α
  | [] => [(name, a)]
  | (n, b) :: rest => if n = name then (n, a) :: rest else (n, b) :: insert name a rest

/-- Whether a name has an entry. -/
def contains (name : String) (t : Table α) : Bool := (get? name t).isSome

/-- The names, in order. -/
def names (t : Table α) : List String := t.map Prod.fst

/-- The table that results from inserting the entries one after another. -/
def ofList (entries : List (String × α)) : Table α :=
  entries.foldl (fun t e => insert e.1 e.2 t) []

/-- Without the entry of a name. -/
def erase (name : String) : Table α → Table α
  | [] => []
  | (n, a) :: rest => if n = name then rest else (n, a) :: erase name rest

@[simp]
theorem get?_insert_self (name : String) (a : α) (t : Table α) :
    get? name (insert name a t) = some a := by
  induction t with
  | nil => simp [insert, get?]
  | cons e rest ih =>
    obtain ⟨n, b⟩ := e
    by_cases h : n = name <;> simp [insert, get?, h, ih]

theorem get?_insert_of_ne {name other : String} (a : α) (t : Table α) (h : other ≠ name) :
    get? other (insert name a t) = get? other t := by
  induction t with
  | nil => simp [insert, get?, Ne.symm h]
  | cons e rest ih =>
    obtain ⟨n, b⟩ := e
    by_cases hn : n = name
    · subst hn
      simp [insert, get?, Ne.symm h]
    · by_cases ho : n = other
      · subst ho
        simp [insert, get?, h]
      · simp [insert, get?, hn, ho, ih]

/-- Replacing an entry keeps the names and their order. -/
theorem names_insert_of_contains {name : String} (a : α) {t : Table α}
    (h : contains name t = true) : names (insert name a t) = names t := by
  induction t with
  | nil => simp [contains, get?] at h
  | cons e rest ih =>
    obtain ⟨n, b⟩ := e
    by_cases hn : n = name
    · simp [insert, names, hn]
    · have hr : contains name rest = true := by simpa [contains, get?, hn] using h
      simpa [insert, names, hn] using ih hr

end Table

namespace Record

/-- Sets a field of a record whose fields are in increasing order of their names. -/
def insert (name : String) (a : α) : List (String × α) → List (String × α)
  | [] => [(name, a)]
  | (n, b) :: rest =>
    if name < n then (name, a) :: (n, b) :: rest
    else if n = name then (n, a) :: rest
    else (n, b) :: insert name a rest

/-- The record of the given fields: in increasing order of names, a later field replacing an earlier
one of the same name. -/
def ofList (fields : List (String × α)) : List (String × α) :=
  fields.foldl (fun r f => insert f.1 f.2 r) []

/-- A field of a record. -/
def get? (name : String) : List (String × α) → Option α
  | [] => none
  | (n, a) :: rest => if n = name then some a else get? name rest

end Record

end Blockwork
