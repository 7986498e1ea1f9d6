import Highlighter.Cache.Edit
import Highlighter.Settings.Basic
import Highlighter.Store.Basic

/-!
# Documents

A document binds a line cache to a file. The last line end of the file is no line of
its own: it is taken off when the file is read and put back when it is written.
-/

namespace Highlighter

structure Document where
  cache : Cache
  name : String
  path? : Option Path := none
  /-- There are edits that have not been saved. -/
  modified : Bool := false
  /-- The file ended with a line end. -/
  finalBreak : Bool := false

namespace Document

def scratchName : String := "*scratch*"

def scratch (cache : Cache) : Document := { cache, name := scratchName }

def nameOf (p : Path) : String := p.fileName?.getD "unnamed"

/-! ### Opening -/

/-- The language of the name that is given, else that of the file. -/
def languageFor (registry : Registry) (language? : Option String) (p : Path) :
    Except Error Language :=
  match language? with
  | some name => registry.find name
  | none => .ok (registry.forPath p)

/-- An empty cache for a text. It writes the line ends of the text, if that shows any. -/
def cacheFor (settings : Settings) (language : Language) (t : Text) : Cache :=
  let cache := ((Cache.new language settings.markup).setTerminator
    ((Terminator.detect? t).getD settings.terminator)).setTabWidth settings.tabWidth
  if settings.highlight then cache else cache.setHighlight false

/-- The document of a file that holds the text, not built yet, and the text to build. -/
def ofText (settings : Settings) (language : Language) (p : Path) (t : Text) : Document × Text :=
  let (body, finalBreak) := t.dropFinalBreak
  ({ cache := cacheFor settings language t, name := nameOf p, path? := some p, finalBreak }, body)

/-- The document of a file, not built yet, and the text to build. -/
def loadDeferred (store : Store) (registry : Registry) (settings : Settings)
    (language? : Option String) (p : Path) : Except Error (Document × Text) := do
  let t ← (store.read p).mapError Error.file
  return ofText settings (← languageFor registry language? p) p t

def build (d : Document) (body : Text) : Document := { d with cache := d.cache.build body }

def load (store : Store) (registry : Registry) (settings : Settings) (language? : Option String)
    (p : Path) : Except Error Document := do
  let (d, body) ← loadDeferred store registry settings language? p
  return d.build body

/-- Puts a cache that was built elsewhere in the place of the present one. -/
def replaceCache (d : Document) (cache : Cache) : Document := { d with cache }

/-! ### Editing -/

def edit (d : Document) : Edited Cache → Edited Document
  | (cache, none) => ({ d with cache, modified := true }, none)
  | (cache, some e) => ({ d with cache }, some e)

def setLine (d : Document) (index : Nat) (value : Text) : Edited Document :=
  d.edit (d.cache.setLine index value true)

/-- Puts a line before the one of the index, or after the last. -/
def insertAbove (d : Document) (index : Nat) (value : Text) : Edited Document :=
  d.edit (d.cache.insertAt index value true)

/-- Puts a line after the one of the index, which must be built already. -/
def insertBelow (d : Document) (index : Nat) (value : Text) : Edited Document :=
  if d.cache.lines.length ≤ index then (d, some (.outOfRange index d.cache.lines.length))
  else d.edit (d.cache.insertAt (index + 1) value true)

def deleteLine (d : Document) (index : Nat) : Edited Document :=
  d.edit (d.cache.removeAt index true)

/-! ### Saving -/

def contents (d : Document) : Text :=
  d.cache.text ++ if d.finalBreak then d.cache.terminator.text else []

/-- Writes the document, built to its end, into a file. -/
def writeTo (d : Document) (store : Store) (p : Path) : Edited (Document × Store) :=
  let d := { d with cache := d.cache.finish }
  match store.write p d.contents with
  | .ok store => (({ d with modified := false }, store), none)
  | .error cause => ((d, store), some (.file cause))

def save (d : Document) (store : Store) : Edited (Document × Store) :=
  match d.path? with
  | some p => d.writeTo store p
  | none => ((d, store), some .noFileName)

/-- Writes the document into a file, which becomes its own. -/
def saveAs (d : Document) (store : Store) (p : Path) : Edited (Document × Store) :=
  match d.writeTo store p with
  | ((d, store), none) => (({ d with name := nameOf p, path? := some p }, store), none)
  | failed => failed

end Document

end Highlighter
