import Highlighter.Text.Basic

/-!
# Numerals

How a number literal grows, character by character. After the first digit come
digits, underscores, an exponent mark or a suffix; a leading zero may also open
a hexadecimal or a binary literal. The shape remembers as much of the literal as
the next character needs.
-/

namespace Highlighter

inductive Numeral where
  | start
  | zero
  /-- After `0x`. -/
  | hex
  | decimal
  deriving DecidableEq, Repr

namespace Numeral

def isDigitOrSeparator (c : Char) : Bool := c.isDigit || c == '_'

/-- The marks of an exponent and the suffixes that are hexadecimal digits too. -/
def isExponentOrSuffix (c : Char) : Bool :=
  c == 'e' || c == 'E' || c == 'd' || c == 'D' || c == 'f' || c == 'F'

def isHexMark (c : Char) : Bool := c == 'x' || c == 'X'

def isBinaryMark (c : Char) : Bool := c == 'b' || c == 'B'

/-- The suffix of a decimal literal that is no hexadecimal digit. -/
def isMoneySuffix (c : Char) : Bool := c == 'm' || c == 'M'

/-- Hexadecimal digits that are neither digits nor marks of the other groups. -/
def isOtherHexDigit (c : Char) : Bool := c == 'a' || c == 'c' || c == 'A' || c == 'C'

/-- The shape after one more character, if the character belongs to the literal. -/
def next? (n : Numeral) (c : Char) : Option Numeral :=
  match n with
  | .start => if c = '0' then some .zero else if c.isDigit then some .decimal else none
  | .zero =>
    if isHexMark c then some .hex
    else if isDigitOrSeparator c || isExponentOrSuffix c || isBinaryMark c || isMoneySuffix c then
      some .decimal
    else none
  | .hex =>
    if isDigitOrSeparator c || isExponentOrSuffix c || isBinaryMark c || isOtherHexDigit c then
      some .hex
    else none
  | .decimal =>
    if isDigitOrSeparator c || isExponentOrSuffix c || isMoneySuffix c then some .decimal else none

theorem next?_of_isDigit (n : Numeral) {c : Char} (h : c.isDigit) : (n.next? c).isSome := by
  cases n with
  | start => simp only [next?]; split <;> simp_all
  | zero => simp only [next?]; split <;> simp_all [isDigitOrSeparator]
  | hex => simp_all [next?, isDigitOrSeparator]
  | decimal => simp_all [next?, isDigitOrSeparator]

end Numeral

end Highlighter
