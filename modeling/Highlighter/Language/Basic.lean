import Highlighter.Text.LineEnd

/-!
# Languages

A language is described by its words, marks and delimiters. Every question about
a place in a text is asked of the characters after the place, and where it
matters, of those before it, nearest first. An answer is the lexeme found there,
so that what was matched and how far to move are one value.
-/

namespace Highlighter

/-- Letters and digits of ASCII, the underscore and everything beyond ASCII. -/
def isIdent (c : Char) : Bool := c.isAlphanum || c == '_' || !isAscii c

/-- The identifier at the start of the text; empty if there is none. -/
def identAt (rest : Text) : Text := rest.takeWhile isIdent

/-- Whether a word may start here: nothing, or no identifier character, comes before. -/
def atWordStart : Text → Bool
  | [] => true
  | c :: _ => !isIdent c

structure Language where
  name : String := ""
  /-- File extensions without the dot. -/
  extensions : List String := []
  keywords : List Text := []
  types : List Text := []
  /-- Opener and closer of block comments. -/
  blockComment : Option (Text × Text) := none
  /-- Opener of comments that run to the end of the line. -/
  lineComment : Option Text := none
  /-- Mark of a directive, the first character on its line other than blanks. -/
  preprocessor : Option Char := none
  stringDelimiter : Option Char := some '"'
  /-- Mark that may stand before the opening delimiter of a string. -/
  verbatimMark : Option Char := none
  charDelimiter : Option Char := none
  /-- A character literal opens only if its closing delimiter is near. -/
  charLookahead : Bool := false
  deriving DecidableEq, Repr

namespace Language

/-- The token, if it is not empty and the text starts with it. -/
def token? (token rest : Text) : Option Text :=
  if !token.isEmpty && token.isPrefixOf rest then some token else none

theorem token?_eq_some {token rest lexeme : Text} (h : token? token rest = some lexeme) :
    lexeme ≠ [] ∧ ∃ after, rest = lexeme ++ after := by
  unfold token? at h
  split at h
  · rename_i hc
    simp only [Bool.and_eq_true, Bool.not_eq_true', List.isEmpty_eq_false_iff] at hc
    cases h
    obtain ⟨after, ha⟩ := List.isPrefixOf_iff_prefix.1 hc.2
    exact ⟨hc.1, after, ha.symm⟩
  · cases h

/-- Whether the word does not come after the other in the order of characters. -/
def notAfter (a b : Text) : Bool := !List.lex b a fun c d => c.toNat < d.toNat

/-- The words of a table in the order of their characters, each once. -/
def sortedWords (ws : List Text) : List Text := (ws.mergeSort notAfter).eraseReps

/-! ### Comments -/

def commentOpener? (lang : Language) (rest : Text) : Option Text :=
  lang.blockComment.bind fun (opener, _) => token? opener rest

def commentCloser? (lang : Language) (rest : Text) : Option Text :=
  lang.blockComment.bind fun (_, closer) => token? closer rest

def lineComment? (lang : Language) (rest : Text) : Option Text :=
  lang.lineComment.bind fun opener => token? opener rest

/-! ### Directives -/

/-- Only spaces and tabs stand between the place and the start of its line. -/
def indentOnly (before : Text) : Bool :=
  (before.takeWhile fun c => !isBreak c).all fun c => c == ' ' || c == '\t'

def directiveAt (lang : Language) (before rest : Text) : Bool :=
  startsWith lang.preprocessor rest && indentOnly before

/-! ### Strings and character literals -/

/-- A delimiter, or the verbatim mark and a delimiter. -/
def stringOpener? (lang : Language) (rest : Text) : Option Text :=
  if startsWith lang.verbatimMark rest && startsWith lang.stringDelimiter rest.tail then
    some (rest.take 2)
  else if startsWith lang.stringDelimiter rest then some (rest.take 1)
  else none

/-- Whether the delimiter is met among the first `budget` bytes, on one line. -/
def delimiterWithin (delimiter : Char) (budget : Nat) : Text → Bool
  | [] => false
  | c :: rest =>
    if budget = 0 then false
    else if isBreak c then false
    else c == delimiter || delimiterWithin delimiter (budget - c.utf8Size) rest

/-- How many bytes an escaped character literal may take after its first two. -/
def escapeWindow : Nat := 10

/-- Whether a character literal that opens right before `rest` is closed nearby:
after one character, or within the window of an escape. -/
def charCloses (delimiter : Char) : Text → Bool
  | '\\' :: c :: rest => delimiterWithin delimiter (escapeWindow + 1 - c.utf8Size) rest
  | c :: d :: _ => !isBreak c && c != delimiter && d == delimiter
  | _ => false

def charOpener? (lang : Language) (rest : Text) : Option Text :=
  match rest with
  | [] => none
  | c :: after =>
    if startsWith lang.charDelimiter rest && (!lang.charLookahead || charCloses c after) then
      some [c]
    else none

def closesString (lang : Language) (c : Char) : Bool := startsWith lang.stringDelimiter [c]

def closesChar (lang : Language) (c : Char) : Bool := startsWith lang.charDelimiter [c]

/-! ### Words -/

def keyword? (lang : Language) (rest : Text) : Option Text :=
  let word := identAt rest
  if !word.isEmpty && lang.keywords.contains word then some word else none

def type? (lang : Language) (rest : Text) : Option Text :=
  let word := identAt rest
  if !word.isEmpty && lang.types.contains word then some word else none

end Language

end Highlighter
