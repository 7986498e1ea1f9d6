/-!
# Tables

Finite maps as lists of entries. A new entry for a key takes the place of the
old one, so what a table gives for a key is what was last put there.
-/

namespace Highlighter

structure Table (κ α : Type) where
  entries : List (κ × α) := []
  deriving DecidableEq, Repr

namespace Table

variable {κ α : Type} [DecidableEq κ]

def empty : Table κ α := {}

def get? (t : Table κ α) (key : κ) : Option α :=
  (t.entries.find? fun e => e.1 = key).map (·.2)

def has (t : Table κ α) (key : κ) : Bool := (t.get? key).isSome

/-- Drops the entries whose value fails the test. -/
def keep (t : Table κ α) (test : α → Bool) : Table κ α := ⟨t.entries.filter fun e => test e.2⟩

def erase (t : Table κ α) (key : κ) : Table κ α := ⟨t.entries.filter fun e => e.1 ≠ key⟩

def insert (t : Table κ α) (key : κ) (value : α) : Table κ α :=
  ⟨(t.erase key).entries ++ [(key, value)]⟩

def values (t : Table κ α) : List α := t.entries.map (·.2)

@[simp] theorem get?_empty (key : κ) : (empty : Table κ α).get? key = none := rfl

theorem get?_erase (t : Table κ α) (key key' : κ) :
    (t.erase key).get? key' = if key' = key then none else t.get? key' := by
  unfold get? erase
  rw [List.find?_filter]
  split
  · rename_i h
    subst h
    simp
  · rename_i h
    congr 2
    funext e
    by_cases he : e.1 = key' <;> simp [he, h]

theorem mem_entries_insert (t : Table κ α) (key : κ) (value : α) (e : κ × α) :
    e ∈ (t.insert key value).entries ↔ (e ∈ t.entries ∧ e.1 ≠ key) ∨ e = (key, value) := by
  simp [insert, erase]

theorem get?_insert (t : Table κ α) (key key' : κ) (value : α) :
    (t.insert key value).get? key' = if key' = key then some value else t.get? key' := by
  have he := get?_erase t key key'
  unfold get? at he ⊢
  simp only [insert, List.find?_append, Option.map_or, he, List.find?_singleton]
  by_cases h : key' = key
  · simp [h]
  · have h' : ¬ key = key' := fun e => h e.symm
    simp [h, h']

end Table

end Highlighter
