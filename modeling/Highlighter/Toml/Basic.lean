import Highlighter.Table
import Highlighter.Text.Basic

/-!
# Values of a TOML file

A file is a table of values. What may still be added to a table depends on how it
came about: a table is opened by one header, a dotted key reaches only tables
that dotted keys have made, and what was written in braces is closed.
-/

namespace Highlighter.Toml

inductive Origin where
  | header
  | implied
  | dotted
  | closed
  deriving DecidableEq, Repr

/-- A value. What no setting is made of is kept without its content. -/
inductive Value where
  | text (t : Text)
  | integer (n : Int)
  | float
  | boolean (b : Bool)
  | moment
  | array (items : List Value)
  | table (origin : Origin) (entries : Table Text Value)
  /-- The tables opened under one name by headers in double brackets. -/
  | tables (elements : List (Table Text Value))

abbrev Entries := Table Text Value

structure Key where
  parents : List Text := []
  name : Text

namespace Entries

def putNew? (name : Text) (value : Value) (t : Entries) : Option Entries :=
  if t.has name then none else some (t.insert name value)

/-- Puts a value under a dotted key. The parents are made where they are missing; else
the last of them must be of the making of a dotted key, and none may have its own header. -/
def put? (name : Text) (value : Value) : List Text → Entries → Option Entries
  | [], t => t.putNew? name value
  | parent :: parents, t =>
    match t.get? parent with
    | none => do return t.insert parent (.table .dotted (← put? name value parents .empty))
    | some (.table .dotted inner) => do
      return t.insert parent (.table .dotted (← put? name value parents inner))
    | some (.table .implied inner) => do
      guard !parents.isEmpty
      return t.insert parent (.table .implied (← put? name value parents inner))
    | some (.tables elements) => do
      guard !parents.isEmpty
      let last ← elements.getLast?
      return t.insert parent (.tables (elements.dropLast ++ [← put? name value parents last]))
    | some _ => none

/-- A table of the pairs, added to those it has. -/
def putAll? (pairs : List (Key × Value)) (t : Entries) : Option Entries :=
  pairs.foldlM (fun t (key, value) => t.put? key.name value key.parents) t

/-- Changes the table that the parents of a header lead to. A table missing on the way is
made; of tables under one name the last counts. -/
def changeAt? (change : Entries → Option Entries) : List Text → Entries → Option Entries
  | [], t => change t
  | parent :: parents, t =>
    match t.get? parent with
    | none => do return t.insert parent (.table .implied (← changeAt? change parents .empty))
    | some (.table .closed _) => none
    | some (.table origin inner) => do
      return t.insert parent (.table origin (← changeAt? change parents inner))
    | some (.tables elements) => do
      let last ← elements.getLast?
      return t.insert parent (.tables (elements.dropLast ++ [← changeAt? change parents last]))
    | some _ => none

/-- Opens a table under a name that is new or only lay on the way of headers. -/
def openTable? (name : Text) (pairs : List (Key × Value)) (t : Entries) : Option Entries :=
  match t.get? name with
  | none => do return t.insert name (.table .header (← putAll? pairs .empty))
  | some (.table .implied inner) => do return t.insert name (.table .header (← putAll? pairs inner))
  | some _ => none

/-- Opens one more table under a name that is new or was opened so before. -/
def openElement? (name : Text) (pairs : List (Key × Value)) (t : Entries) : Option Entries := do
  let element ← putAll? pairs .empty
  match t.get? name with
  | none => return t.insert name (.tables [element])
  | some (.tables elements) => return t.insert name (.tables (elements ++ [element]))
  | some _ => none

end Entries

inductive Statement where
  | pair (key : Key) (value : Value)
  | header (key : Key)
  | element (key : Key)

/-- A header with the pairs up to the next one. -/
structure Section where
  key : Key
  isElement : Bool
  pairs : List (Key × Value)

/-- The pairs before the first header, and the sections. -/
def sections : List Statement → List (Key × Value) × List Section
  | [] => ([], [])
  | .pair key value :: rest =>
    let (pairs, later) := sections rest
    ((key, value) :: pairs, later)
  | .header key :: rest =>
    let (pairs, later) := sections rest
    ([], ⟨key, false, pairs⟩ :: later)
  | .element key :: rest =>
    let (pairs, later) := sections rest
    ([], ⟨key, true, pairs⟩ :: later)

def Section.addTo? (s : Section) (t : Entries) : Option Entries :=
  t.changeAt? (if s.isElement then Entries.openElement? s.key.name s.pairs
    else Entries.openTable? s.key.name s.pairs) s.key.parents

def ofStatements? (statements : List Statement) : Option Entries := do
  let (pairs, rest) := sections statements
  rest.foldlM (fun t s => s.addTo? t) (← Entries.putAll? pairs .empty)

end Highlighter.Toml
