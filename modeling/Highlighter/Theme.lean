import Highlighter.Block.Kind
import Highlighter.Text.Blank

/-!
# Themes

A theme gives each slot a colour. Colours are written as six hexadecimal digits
behind a number sign.
-/

namespace Highlighter

structure Color where
  red : UInt8
  green : UInt8
  blue : UInt8
  deriving DecidableEq, Repr

def hexValue? (c : Char) : Option Nat :=
  if '0' ≤ c ∧ c ≤ '9' then some (c.toNat - '0'.toNat)
  else if 'a' ≤ c ∧ c ≤ 'f' then some (c.toNat - 'a'.toNat + 10)
  else if 'A' ≤ c ∧ c ≤ 'F' then some (c.toNat - 'A'.toNat + 10)
  else none

def isHexDigit (c : Char) : Bool := (hexValue? c).isSome

def hexDigit (n : Nat) : Char :=
  if n < 10 then Char.ofNat ('0'.toNat + n) else Char.ofNat ('A'.toNat + (n - 10))

namespace Color

def channelText (n : UInt8) : Text := [hexDigit (n.toNat / 16), hexDigit (n.toNat % 16)]

def text (c : Color) : Text :=
  '#' :: (channelText c.red ++ channelText c.green ++ channelText c.blue)

def channel? (high low : Char) : Option UInt8 := do
  return UInt8.ofNat (16 * (← hexValue? high) + (← hexValue? low))

/-- Reads `RRGGBB`, with or without the number sign, between white space. -/
def ofText? (t : Text) : Option Color :=
  let t := t.trim
  match (t.after? ['#']).getD t with
  | [r, r', g, g', b, b'] => do
    return ⟨← channel? r r', ← channel? g g', ← channel? b b'⟩
  | _ => none

end Color

structure Theme where
  comment : Color := ⟨0x57, 0xA6, 0x4A⟩
  string : Color := ⟨0xD6, 0x9D, 0x85⟩
  number : Color := ⟨0xB5, 0xCE, 0xA8⟩
  keyword : Color := ⟨0x56, 0x9C, 0xD6⟩
  type : Color := ⟨0x4E, 0xC9, 0xB0⟩
  preprocessor : Color := ⟨0x9B, 0x9B, 0x9B⟩
  deriving DecidableEq, Repr

namespace Theme

def get (theme : Theme) : Slot → Color
  | .comment => theme.comment
  | .string => theme.string
  | .number => theme.number
  | .keyword => theme.keyword
  | .type => theme.type
  | .preprocessor => theme.preprocessor

def set (theme : Theme) (slot : Slot) (color : Color) : Theme :=
  match slot with
  | .comment => { theme with comment := color }
  | .string => { theme with string := color }
  | .number => { theme with number := color }
  | .keyword => { theme with keyword := color }
  | .type => { theme with type := color }
  | .preprocessor => { theme with preprocessor := color }

end Theme

end Highlighter
