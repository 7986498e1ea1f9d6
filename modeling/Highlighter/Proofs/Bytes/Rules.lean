import Highlighter.Scanner.Cursor
import Highlighter.Proofs.Bytes.Utf8

/-!
# Lexical questions of bytes

The questions about a language asked of the bytes of a text and an offset, as a machine
asks them that moves byte by byte. At an offset between two characters the answers are
those that the characters give. Every mark that is looked for byte by byte is ASCII, so
it is never met inside of a character.
-/

namespace Highlighter

def asciiByte (c : Char) : UInt8 := c.toNat.toUInt8

namespace Bytes

/-! ### Questions -/

/-- Letters and digits of ASCII, the underscore and every byte beyond ASCII. -/
def isIdentByte (b : UInt8) : Bool :=
  asciiByte 'a' ≤ b && b ≤ asciiByte 'z' || asciiByte 'A' ≤ b && b ≤ asciiByte 'Z' ||
    asciiByte '0' ≤ b && b ≤ asciiByte '9' || b == asciiByte '_' || 0x80 ≤ b

def isBreakByte (b : UInt8) : Bool := b == asciiByte '\n' || b == asciiByte '\r'

def isDigitByte (b : UInt8) : Bool := asciiByte '0' ≤ b && b ≤ asciiByte '9'

/-- The length of the line end at the offset. -/
def lineEnd? (bs : Bytes) (i : Nat) : Option Nat :=
  match bs[i]? with
  | none => none
  | some b =>
    if b = asciiByte '\n' then some 1
    else if b = asciiByte '\r' then if bs[i + 1]? = some (asciiByte '\n') then some 2 else some 1
    else none

/-- Whether the byte at the offset is the mark, which is ASCII. -/
def byteIs (bs : Bytes) (i : Nat) (mark : Option Char) : Bool :=
  match mark, bs[i]? with
  | some c, some b => isAscii c && b == asciiByte c
  | _, _ => false

/-- The length of the token, if it is not empty and stands at the offset. -/
def token? (bs : Bytes) (i : Nat) (token : Text) : Option Nat :=
  if !token.isEmpty && i < bs.length && token.utf8.isPrefixOf (bs.drop i) then some token.utf8.length
  else none

def firstChar? (bs : Bytes) : Option Char := bs.toByteArray.utf8DecodeChar? 0

/-- The word at the offset, unless the offset is inside of a character. -/
def word? (bs : Bytes) (i : Nat) : Option Bytes :=
  if bs.length ≤ i || !bs.isBoundary i then none
  else
    let stop := i + ((bs.drop i).takeWhile isIdentByte).length
    if stop = i then none else bs.slice? i stop

def atWordStart (bs : Bytes) (i : Nat) : Bool :=
  i == 0 || (bs[i - 1]?).any fun b => !isIdentByte b

/-- Whether the byte goes on with a number literal that is a single zero, or that starts
as a hexadecimal one. -/
def continuesNumber (zero hex : Bool) (b : UInt8) : Bool :=
  let oneOf (cs : List Char) : Bool := cs.any fun c => b == asciiByte c
  if isDigitByte b || oneOf ['_'] then true
  else if oneOf ['x', 'X'] then zero
  else if oneOf ['b', 'B'] then zero || hex
  else if oneOf ['a', 'c', 'A', 'C'] then hex
  else if oneOf ['e', 'E', 'd', 'D', 'f', 'F'] then true
  else if oneOf ['m', 'M'] then !hex
  else false

def isHex : Bytes → Bool
  | a :: b :: _ => a == asciiByte '0' && (b == asciiByte 'x' || b == asciiByte 'X')
  | _ => false

def acceptsNumberByte (soFar : Bytes) (b : UInt8) : Bool :=
  continuesNumber (soFar == [asciiByte '0']) (isHex soFar) b

end Bytes

namespace Language
variable (lang : Language) (bs : Bytes) (i : Nat)

def commentOpenerLen? : Option Nat := lang.blockComment.bind fun (opener, _) => bs.token? i opener

def commentCloserLen? : Option Nat := lang.blockComment.bind fun (_, closer) => bs.token? i closer

def lineCommentLen? : Option Nat := lang.lineComment.bind fun opener => bs.token? i opener

/-- Whether a directive starts at the offset, with only blanks before it on its line. -/
def directiveAtByte : Bool :=
  bs.byteIs i lang.preprocessor &&
    ((bs.take i).reverse.takeWhile fun b => !Bytes.isBreakByte b).all fun b =>
      b == asciiByte ' ' || b == asciiByte '\t'

def stringOpenerLen? : Option Nat :=
  if bs.byteIs i lang.verbatimMark && bs.byteIs (i + 1) lang.stringDelimiter then some 2
  else if bs.byteIs i lang.stringDelimiter then some 1
  else none

/-- Whether a character literal whose delimiter stands at the offset is closed nearby. -/
def charClosesByte (delimiter : UInt8) : Bool :=
  bs.isBoundary (i + 1) &&
    let rest := bs.drop (i + 1)
    match Bytes.firstChar? rest with
    | none => false
    | some c =>
      if c = '\\' then
        (((rest.drop 2).take escapeWindow).takeWhile fun b => !Bytes.isBreakByte b).any fun b =>
          b == delimiter
      else !isBreak c && c.toNat != delimiter.toNat &&
        (Bytes.firstChar? (rest.drop c.utf8Size)).any fun d => d.toNat == delimiter.toNat

def charOpenerLen? : Option Nat :=
  match lang.charDelimiter with
  | none => none
  | some delimiter =>
    if bs.byteIs i (some delimiter) &&
        (!lang.charLookahead || charClosesByte bs i (asciiByte delimiter)) then some 1
    else none

def closesByte (quote : Quote) (b : UInt8) : Bool :=
  let delimiter := match quote with
    | .string => lang.stringDelimiter
    | .char => lang.charDelimiter
  delimiter.any fun d => isAscii d && b == asciiByte d

def keywordLen? : Option Nat :=
  ((bs.word? i).filter fun w => lang.keywords.any fun k => k.utf8 == w).map List.length

def typeLen? : Option Nat :=
  ((bs.word? i).filter fun w => lang.types.any fun t => t.utf8 == w).map List.length

end Language

end Highlighter
