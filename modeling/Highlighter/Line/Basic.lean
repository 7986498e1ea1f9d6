import Highlighter.Text.Basic

/-!
# Lines

A line of a document in two forms: its text, and its text with markup. Records
of dropped lines are kept in a pool and handed out again, cleared.
-/

namespace Highlighter

structure Line where
  raw : Text := []
  formatted : Text := []
  deriving DecidableEq, Repr

namespace Line

def empty : Line := {}

def isEmpty (line : Line) : Bool := line.raw.isEmpty

def set (raw formatted : Text) (_line : Line) : Line := { raw, formatted }

/-- The record with other text, its formatted form left as it is. -/
def setRaw (raw : Text) (line : Line) : Line := { line with raw }

def clear (line : Line) : Line := line.set [] []

end Line

/-- Records of lines that are not in use. They are cleared when they come in. -/
structure LinePool where
  free : List Line
  cleared : ∀ line ∈ free, line = Line.empty

namespace LinePool

def empty : LinePool := ⟨[], fun _ h => absurd h List.not_mem_nil⟩

/-- A cleared line, from the pool if it has one. -/
def take (pool : LinePool) : Line × LinePool :=
  match pool with
  | ⟨[], _⟩ => (Line.empty, .empty)
  | ⟨line :: free, h⟩ => (line, ⟨free, fun l hl => h l (List.mem_cons_of_mem _ hl)⟩)

def give (line : Line) (pool : LinePool) : LinePool where
  free := line.clear :: pool.free
  cleared l hl := by
    rcases List.mem_cons.1 hl with rfl | hl
    · rfl
    · exact pool.cleared l hl

/-- Takes lines back, the first one first. -/
def giveAll (lines : List Line) (pool : LinePool) : LinePool :=
  lines.foldl (fun pool line => pool.give line) pool

@[simp] theorem take_fst (pool : LinePool) : pool.take.1 = Line.empty := by
  obtain ⟨free, h⟩ := pool
  cases free with
  | nil => rfl
  | cons line free => exact h line (List.mem_cons_self ..)

end LinePool

end Highlighter
