import Highlighter.Command.Flag

/-!
# Names of commands

The commands by name, with the options and the operands they take.
-/

namespace Highlighter

/-- A line number: decimal digits, a plus sign before them or not, of at most 64 bits. -/
def Command.lineNumber? (t : Text) : Option Nat := do
  let digits := (t.after? ['+']).getD t
  guard (!digits.isEmpty && digits.all Char.isDigit)
  let n := Toml.ofDigits 10 digits
  guard (n < Nat.pow 2 64)
  return n

def Command.file? (t : Text) : Option Path := if t.isEmpty then none else some (String.ofList t)

/-- An argument of a command that is no option. -/
inductive Operand where
  | file
  | line
  | text
  deriving DecidableEq, Repr

namespace Operand

def name : Operand → String
  | .file => "FILE"
  | .line => "LINE"
  | .text => "TEXT"

def accepts (o : Operand) (value : Text) : Bool :=
  match o with
  | .file => (Command.file? value).isSome
  | .line => (Command.lineNumber? value).isSome
  | .text => true

end Operand

inductive Verb where
  | view
  | stats
  | tokens
  | set
  | insert
  | delete
  | page
  | languages
  deriving DecidableEq, Repr

namespace Verb

def all : List Verb := [.view, .stats, .tokens, .set, .insert, .delete, .page, .languages]

def name : Verb → String
  | .view => "view"
  | .stats => "stats"
  | .tokens => "tokens"
  | .set => "set"
  | .insert => "insert"
  | .delete => "delete"
  | .page => "page"
  | .languages => "languages"

def ofName? (name : Text) : Option Verb := all.find? fun v => v.name.toList = name

def about : Verb → String
  | .view => "Print formatted lines"
  | .stats => "Show line, width and block statistics"
  | .tokens => "List the blocks the tokenizer produces"
  | .set => "Replace a line (1-based) and save"
  | .insert => "Insert a line above (or below) line LINE (1-based) and save"
  | .delete => "Delete a line (1-based) and save"
  | .page => "Browse a file interactively"
  | .languages => "List known languages"

/-- The options that the command knows, in the order of the help. -/
def flags : Verb → List Flag
  | .view =>
    [.language, .raw, .markup, .numbers, .noHighlight, .settings, .log, .help]
  | .insert => .below :: Flag.common
  | _ => Flag.common

def operands : Verb → List Operand
  | .view | .stats | .tokens | .page => [.file]
  | .set | .insert => [.file, .line, .text]
  | .delete => [.file, .line]
  | .languages => []

end Verb

end Highlighter
