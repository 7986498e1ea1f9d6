import Highlighter.Theme
import Highlighter.Toml.Reader

/-!
# Quoted text

Text in double quotes has escapes, text in single quotes has none. In three quotes
text may run over several lines.
-/

namespace Highlighter.Toml

open Reader

/-- The value of the digits in a base, the first digit the highest. -/
def ofDigits (base : Nat) (digits : Text) : Nat :=
  digits.foldl (fun n d => base * n + (hexValue? d).getD 0) 0

/-- A character by the hexadecimal digits of its code point. -/
def codePoint (digits : Nat) : Reader Char := do
  let n := ofDigits 16 (← exactly digits isHexDigit)
  guard n.isValidChar
  return Char.ofNat n

def escape : Reader Char := do
  token ['\\']
  match ← one fun _ => true with
  | 'b' => return '\x08'
  | 't' => return '\t'
  | 'n' => return '\n'
  | 'f' => return '\x0c'
  | 'r' => return '\r'
  | '"' => return '"'
  | '\\' => return '\\'
  | 'u' => codePoint 4
  | 'U' => codePoint 8
  | _ => failure

/-- A character that stands for itself between double quotes. -/
def isPlain (c : Char) : Bool := isShown c && c != '"' && c != '\\'

/-- A character that stands for itself between single quotes. -/
def isVerbatim (c : Char) : Bool := isShown c && c != '\''

def escaped : Reader Text := do
  token ['"']
  let t ← many (one isPlain <|> escape)
  token ['"']
  return t

def verbatim : Reader Text := do
  token ['\'']
  let t ← span isVerbatim
  token ['\'']
  return t

/-- A backslash at the end of a line, with the blanks and lines up to the next text. -/
def continuation : Reader Unit := do
  token ['\\']
  gap
  newline
  discard (many (discard (one isGap) <|> newline))

def quotes (quote : Char) : Reader Text := do
  let qs ← span (· == quote)
  guard (0 < qs.length ∧ qs.length < 3)
  return qs

/-- Three quotes that end a text. One or two more before them belong to the text. -/
def closing (quote : Char) : Reader Text := fun t =>
  let count := min (t.takeWhile (· == quote)).length 5
  if count < 3 then none else some (List.replicate (count - 3) quote, t.drop count)

/-- Text over several lines, as pieces. A line end right behind the opening quotes does not count. -/
def multiline (quote : Char) (piece : Reader Text) : Reader Text := do
  token [quote, quote, quote]
  discard (optional? newline)
  let pieces ← many (piece <|> (do newline; return ['\n']) <|> quotes quote)
  return pieces.flatten ++ (← closing quote)

def escapedLines : Reader Text :=
  multiline '"' ((do return [← one isPlain]) <|> (do continuation; return []) <|>
    do return [← escape])

def verbatimLines : Reader Text := multiline '\'' do return [← one isVerbatim]

def quoted : Reader Text := escapedLines <|> escaped <|> verbatimLines <|> verbatim

end Highlighter.Toml
