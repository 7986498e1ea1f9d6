import Highlighter.Settings.Basic
import Highlighter.Store.Basic
import Highlighter.Toml.File

/-!
# The settings file

Settings are the table of a TOML file. What the file does not say keeps its default,
and keys without a meaning are passed over; a value of the wrong form makes the
whole file malformed.
-/

namespace Highlighter

namespace Toml

/-! ### Forms of values -/

namespace Value

def text? : Value → Option Text
  | .text t => some t
  | _ => none

def string? (v : Value) : Option String := v.text?.map String.ofList

def boolean? : Value → Option Bool
  | .boolean b => some b
  | _ => none

/-- A whole number that is not negative. -/
def natural? : Value → Option Nat
  | .integer (.ofNat n) => some n
  | _ => none

def char? (v : Value) : Option Char :=
  match v.text? with
  | some [c] => some c
  | _ => none

def items? : Value → Option (List Value)
  | .array items => some items
  | .tables elements => some (elements.map (Value.table .header))
  | _ => none

def listOf? {α : Type} (form : Value → Option α) (v : Value) : Option (List α) := do
  (← v.items?).mapM form

/-- The two texts that an array begins with; nothing after them is looked at. -/
def pair? (v : Value) : Option (Text × Text) :=
  match v.items? with
  | some (.text a :: .text b :: _) => some (a, b)
  | _ => none

/-- A value without content: an empty array or an empty table. -/
def isVoid : Value → Bool
  | .array [] | .tables [] | .table _ ⟨[]⟩ => true
  | _ => false

/-- The name of one of some choices, written as a text or as the key of a void value. -/
def choice? {α : Type} (choices : List (String × α)) (v : Value) : Option α := do
  let name ← match v with
    | .text t => some t
    | .table _ ⟨[(name, inner)]⟩ => if inner.isVoid then some name else none
    | _ => none
  (choices.find? fun (key, _) => key.toList = name).map (·.2)

/-- The entries of a record: a table, or the values of the fields in their order. A moment
counts as a record of which nothing is set. -/
def record? (fields : List String) : Value → Option Entries
  | .table _ t => some t
  | .moment => some .empty
  | v => do return ⟨(fields.map String.toList).zip (← v.items?)⟩

end Value

def Entries.field? {α : Type} (t : Entries) (name : String) (form : Value → Option α) (default : α) :
    Option α :=
  match t.get? name.toList with
  | none => some default
  | some v => form v

end Toml

open Toml

namespace Language

def fields : List String :=
  ["name", "extensions", "keywords", "types", "block_comment", "line_comment", "preprocessor",
    "string_delimiter", "verbatim_prefix", "char_delimiter", "char_lookahead"]

def ofValue? (v : Value) : Option Language := do
  let t ← v.record? fields
  let mark (name : String) (default : Option Char) : Option (Option Char) :=
    t.field? name (fun v => v.char?.map some) default
  return {
    name := ← t.field? "name" Value.string? ""
    extensions := ← t.field? "extensions" (Value.listOf? Value.string?) []
    keywords := ← t.field? "keywords" (Value.listOf? Value.text?) []
    types := ← t.field? "types" (Value.listOf? Value.text?) []
    blockComment := ← t.field? "block_comment" (fun v => v.pair?.map some) none
    lineComment := ← t.field? "line_comment" (fun v => v.text?.map some) none
    preprocessor := ← mark "preprocessor" none
    stringDelimiter := ← mark "string_delimiter" (some '"')
    verbatimMark := ← mark "verbatim_prefix" none
    charDelimiter := ← mark "char_delimiter" none
    charLookahead := ← t.field? "char_lookahead" Value.boolean? false }

end Language

namespace Theme

/-- A theme as given. Colours that cannot be read keep their default. -/
def ofValue? (v : Value) : Option Theme := do
  let t ← v.record? (Slot.all.map Slot.name)
  Slot.all.foldlM (fun theme slot => do
    let written ← t.field? slot.name Value.text? []
    return ((Color.ofText? written).map (theme.set slot)).getD theme) {}

end Theme

namespace Settings

def surfaces : List (String × Surface) := [("ansi", .terminal), ("rich-text", .richText)]

def terminatorPolicies : List (String × TerminatorPolicy) :=
  [("platform", .platform), ("lf", .lf), ("crlf", .crlf)]

def ofEntries? (t : Entries) : Option Settings := do
  let d : Settings := {}
  return normalize {
    highlight := ← t.field? "highlight" Value.boolean? d.highlight
    surface := ← t.field? "markup" (Value.choice? surfaces) d.surface
    terminatorPolicy :=
      ← t.field? "line-terminator" (Value.choice? terminatorPolicies) d.terminatorPolicy
    linesPerScreen := ← t.field? "lines-per-screen" Value.natural? d.linesPerScreen
    backgroundThreshold := ← t.field? "background-threshold" Value.natural? d.backgroundThreshold
    tabWidth := ← t.field? "tab-width" Value.natural? d.tabWidth
    lineNumbers := ← t.field? "line-numbers" Value.boolean? d.lineNumbers
    theme := ← t.field? "theme" Theme.ofValue? d.theme
    languages := ← t.field? "language" (Value.listOf? Language.ofValue?) d.languages }

def ofText (t : Text) : Except Error Settings :=
  match (read? t).bind ofEntries? with
  | some s => .ok s
  | none => .error .settings

/-- The settings of a file. A file that does not exist leaves the defaults. -/
def loadFrom (store : Store) (p : Path) : Except Error Settings :=
  if !store.exists? p then .ok {}
  else
    match store.read p with
    | .ok t => ofText t
    | .error cause => .error (.file cause)

/-- The name of the settings file in the home directory. -/
def fileName : String := ".codelines.toml"

def homePath (home : Path) : Path := home ++ "/" ++ fileName

def load (store : Store) (home : Option Path) : Except Error Settings :=
  match home with
  | some home => loadFrom store (homePath home)
  | none => .ok {}

end Settings

end Highlighter
