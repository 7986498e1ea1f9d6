import Highlighter.Error
import Highlighter.Language.Builtin
import Highlighter.Store.Path
import Highlighter.Table
import Highlighter.Text.LowerCase

/-!
# Registered languages

Languages by name and by file extension, neither case counting. A language takes
the place of one with the same name, and gives up the extensions of the old one;
an extension belongs to the language that claimed it last.
-/

namespace Highlighter

structure Registry where
  /-- What names and extensions are compared by. -/
  lower : String → String := lowerCase
  /-- Languages by lower-case name. -/
  languages : Table String Language := {}
  /-- Lower-case names of languages by lower-case extension. -/
  extensions : Table String String := {}

namespace Registry

def empty : Registry := {}

def add (r : Registry) (lang : Language) : Registry :=
  let key := r.lower lang.name
  let kept := if r.languages.has key then r.extensions.keep (· != key) else r.extensions
  { r with
    languages := r.languages.insert key lang
    extensions := lang.extensions.foldl (fun t e => t.insert (r.lower e) key) kept }

def addAll (r : Registry) (langs : List Language) : Registry := langs.foldl add r

def builtin : Registry := empty.addAll Language.builtin

def get? (r : Registry) (name : String) : Option Language := r.languages.get? (r.lower name)

def find (r : Registry) (name : String) : Except Error Language :=
  match r.get? name with
  | some lang => .ok lang
  | none => .error (.unknownLanguage name)

/-- The name of the language that claims the extension of the path. -/
def detect? (r : Registry) (p : Path) : Option String := do
  let extension ← p.extension?
  let key ← r.extensions.get? (r.lower extension)
  let lang ← r.languages.get? key
  return lang.name

/-- The language for a file. Files of no known language are plain text. -/
def forPath (r : Registry) (p : Path) : Language :=
  (r.get? ((r.detect? p).getD Language.plainName)).getD Language.plain

/-- The names of the languages in the order of their characters. -/
def names (r : Registry) : List String :=
  (r.languages.values.map Language.name).mergeSort fun a b => a ≤ b

end Registry

end Highlighter
