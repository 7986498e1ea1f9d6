import Highlighter.Toml.Basic
import Highlighter.Toml.Number

/-!
# Reading a TOML file

The statements of a file, line by line, and from them its table.
-/

namespace Highlighter.Toml

open Reader

/-! ### Keys -/

def keyPart : Reader Text :=
  escaped <|> verbatim <|> do
    let t ← span fun c => c.isAlphanum || c == '-' || c == '_'
    guard !t.isEmpty
    return t

/-- How many parts a key may have, and how many containers may hold a value. -/
def maxDepth : Nat := 79

def key : Reader Key := do
  let part := gap *> keyPart <* gap
  let first ← part
  let more ← many (token ['.'] *> part)
  guard (more.length < maxDepth)
  match more.getLast? with
  | some name => return { parents := first :: more.dropLast, name }
  | none => return { name := first }

def keyValue (value : Reader Value) : Reader (Key × Value) := do
  let k ← key
  token ['=']
  gap
  return (k, ← value)

/-! ### Values -/

def boolean : Reader Bool :=
  (do token "true".toList; return true) <|> do token "false".toList; return false

def scalar : Reader Value :=
  (do return .text (← quoted)) <|> (do return .boolean (← boolean)) <|>
    (do moment; return .moment) <|> (do fraction; return .float) <|>
    (do unbounded; return .float) <|> do return .integer (← integer)

/-- Items in brackets. Only the last may have a comma of no use behind it. -/
def array (value : Reader Value) : Reader Value := do
  token ['[']
  let items ← separated (filler *> value <* filler) (token [','])
  if !items.isEmpty then
    discard (optional? (token [',']))
  filler
  token [']']
  return .array items

def inlineTable (value : Reader Value) : Reader Value := do
  token ['{']
  let pairs ← separated (keyValue value <* gap) (token [','])
  gap
  token ['}']
  match Entries.putAll? pairs .empty with
  | some t => return .table .closed t
  | none => failure

/-- A value in which containers are nested at most so deep. -/
def value : Nat → Reader Value
  | 0 => scalar
  | depth + 1 => array (value depth) <|> inlineTable (value depth) <|> scalar

/-! ### Lines -/

def statement? : Reader (Option Statement) :=
  (do newline; return none) <|>
  (do comment; newline <|> atEnd; return none) <|>
  (do
    token ['[', '[']
    let k ← key
    token [']', ']']
    lineRest
    return some (.element k)) <|>
  (do
    token ['[']
    let k ← key
    token [']']
    lineRest
    return some (.header k)) <|>
  do
    let (k, v) ← keyValue (value maxDepth)
    lineRest
    return some (.pair k v)

/-- The statements of a file. A byte order mark at its start does not count. -/
def statements : Reader (List Statement) := do
  discard (optional? (token ['\uFEFF']))
  gap
  let lines ← many (statement? <* gap)
  atEnd
  return lines.filterMap id

def read? (t : Text) : Option Entries := do
  let (found, _) ← statements t
  ofStatements? found

end Highlighter.Toml
