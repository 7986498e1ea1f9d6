import Highlighter.Text.Basic

/-!
# Readers

A reader takes a value from the start of a text and leaves the rest, or fails.
`p <|> q` reads with `q` where `p` fails.
-/

namespace Highlighter.Toml

abbrev Reader := StateT Text Option

namespace Reader

def one (test : Char → Bool) : Reader Char
  | c :: rest => if test c then some (c, rest) else none
  | [] => none

/-- The characters up to the first that fails the test. -/
def span (test : Char → Bool) : Reader Text := fun t => some (t.takeWhile test, t.dropWhile test)

def token (s : Text) : Reader Unit := fun t => (t.after? s).map fun rest => ((), rest)

def atEnd : Reader Unit := fun t => if t.isEmpty then some ((), []) else none

def optional? {α : Type} (p : Reader α) : Reader (Option α) := some <$> p <|> pure none

/-- Reads as often as that takes something off the text. -/
def many {α : Type} (p : Reader α) (t : Text) : Option (List α × Text) :=
  match p t with
  | none => some ([], t)
  | some (a, rest) =>
    if rest.length < t.length then (many p rest).map fun (as, rest) => (a :: as, rest)
    else some ([], t)
termination_by t.length

/-- Any number of items with separators between them. -/
def separated {α : Type} (item : Reader α) (separator : Reader Unit) : Reader (List α) :=
  (do return (← item) :: (← many (separator *> item))) <|> pure []

def exactly (count : Nat) (test : Char → Bool) : Reader Text := fun t =>
  let taken := t.take count
  if taken.length = count ∧ taken.all test then some (taken, t.drop count) else none

end Reader

/-! ### Between the values -/

open Reader

/-- A line ends with LF or CRLF. A bare CR is not allowed. -/
def newline : Reader Unit := token ['\n'] <|> token ['\r', '\n']

def isGap (c : Char) : Bool := c == ' ' || c == '\t'

def gap : Reader Unit := do discard (span isGap)

/-- Characters that may be written as they are: no control characters but the tab. -/
def isShown (c : Char) : Bool := c == '\t' || (0x20 ≤ c.toNat && c.toNat != 0x7F)

def comment : Reader Unit := do
  token ['#']
  discard (span isShown)

/-- The rest of a line behind a value or a header. -/
def lineRest : Reader Unit := do
  gap
  discard (optional? comment)
  newline <|> atEnd

/-- What may stand between the items of an array. -/
def filler : Reader Unit :=
  discard (many (discard (one isGap) <|> do
    discard (optional? comment)
    newline))

end Highlighter.Toml
