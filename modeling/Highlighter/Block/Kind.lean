import Highlighter.Text.Basic

/-!
# Kinds of blocks

What a stretch of source text is, and the slot of the theme that colours it.
-/

namespace Highlighter

inductive Slot where
  | comment
  | string
  | number
  | keyword
  | type
  | preprocessor
  deriving DecidableEq, Repr

namespace Slot

def all : List Slot := [.comment, .string, .number, .keyword, .type, .preprocessor]

def index (s : Slot) : Nat := s.ctorIdx

def name : Slot → String
  | .comment => "comment"
  | .string => "string"
  | .number => "number"
  | .keyword => "keyword"
  | .type => "type"
  | .preprocessor => "preprocessor"

end Slot

inductive Kind where
  /-- Text of no other kind. -/
  | default
  | string
  | char
  /-- One line of a block comment. -/
  | commentBlock
  | commentLine
  | type
  | keyword
  | number
  | directive
  | lineBreak
  /-- Text read with highlighting off. -/
  | unformatted
  deriving DecidableEq, Repr

namespace Kind

def all : List Kind :=
  [.default, .string, .char, .commentBlock, .commentLine, .type, .keyword, .number, .directive,
    .lineBreak, .unformatted]

/-- The slot that colours the kind, if it is coloured. -/
def slot? : Kind → Option Slot
  | .commentBlock | .commentLine => some .comment
  | .string | .char => some .string
  | .number => some .number
  | .keyword => some .keyword
  | .type => some .type
  | .directive => some .preprocessor
  | .default | .lineBreak | .unformatted => none

def isComment : Kind → Bool
  | .commentBlock | .commentLine => true
  | _ => false

def name : Kind → String
  | .default => "Default"
  | .string => "String"
  | .char => "Char"
  | .commentBlock => "CommentBlock"
  | .commentLine => "CommentLine"
  | .type => "Type"
  | .keyword => "Keyword"
  | .number => "Number"
  | .directive => "PreprocessorDirective"
  | .lineBreak => "LineBreak"
  | .unformatted => "Unformatted"

/-- The name in a column as wide as the longest name needs. -/
def column (k : Kind) : Text := Text.padRight 22 k.name.toList

def ofName? (s : String) : Option Kind := all.find? (·.name == s)

end Kind

end Highlighter
