import Highlighter.Toml.Quoted

/-!
# Numbers and moments

Whole numbers have 64 bits and may be written in four bases. Fractions, dates
and times are read for their form; no setting has them.
-/

namespace Highlighter.Toml

open Reader

def isSign (c : Char) : Bool := c == '+' || c == '-'

def digits (test : Char → Bool) : Reader Text := do
  return (← one test) :: (← many (one test <|> (token ['_'] *> one test)))

/-! ### Whole numbers -/

def decimalDigits : Reader Text := (do token ['0']; return ['0']) <|> digits Char.isDigit

/-- A number that fits into 64 bits with its sign. -/
def fitting (n : Int) : Reader Int := do
  guard (-(Nat.pow 2 63) ≤ n ∧ n < Nat.pow 2 63)
  return n

def decimal : Reader Int := do
  let sign ← optional? (one isSign)
  let n : Int := ofDigits 10 (← decimalDigits)
  fitting (if sign = some '-' then -n else n)

/-- A number without a sign behind the mark of its base. -/
def based (mark : Text) (base : Nat) : Reader Int := do
  token mark
  fitting (ofDigits base (← digits fun c => (hexValue? c).any (· < base)))

def integer : Reader Int :=
  based ['0', 'x'] 16 <|> based ['0', 'o'] 8 <|> based ['0', 'b'] 2 <|> decimal

/-! ### Fractions -/

/-- Whether `mantissa · 10 ^ exponent` is beyond the finite numbers of double precision, where
half a step above the largest is too much. -/
def overflows (mantissa : Nat) (exponent : Int) : Bool :=
  let magnitude := (Nat.toDigits 10 mantissa).length + exponent
  mantissa != 0 && 308 < magnitude &&
    (310 < magnitude ||
      (Nat.pow 2 1024 - Nat.pow 2 970) * Nat.pow 10 (-exponent).toNat ≤
        mantissa * Nat.pow 10 exponent.toNat)

/-- A fraction or an exponent or both behind the whole digits. -/
def fraction : Reader Unit := do
  let sign ← optional? (one isSign)
  let whole ← decimalDigits
  let places ← optional? (token ['.'] *> digits Char.isDigit)
  let exponent ← optional? do
    discard (one fun c => c == 'e' || c == 'E')
    let sign ← optional? (one isSign)
    let n : Int := ofDigits 10 (← digits Char.isDigit)
    return if sign = some '-' then -n else n
  guard (places.isSome || exponent.isSome)
  let places := places.getD []
  guard (sign = some '-' ||
    !overflows (ofDigits 10 (whole ++ places)) (exponent.getD 0 - places.length))

def unbounded : Reader Unit := do
  discard (optional? (one isSign))
  token "inf".toList <|> token "nan".toList

/-! ### Dates and times -/

def fixed (count low high : Nat) : Reader Nat := do
  let n := ofDigits 10 (← exactly count Char.isDigit)
  guard (low ≤ n ∧ n ≤ high)
  return n

def isLeapYear (year : Nat) : Bool := year % 4 == 0 && (year % 100 != 0 || year % 400 == 0)

def daysIn (year month : Nat) : Nat :=
  if month = 2 then (if isLeapYear year then 29 else 28)
  else if month ∈ [4, 6, 9, 11] then 30
  else 31

def date : Reader Unit := do
  let year ← fixed 4 0 9999
  token ['-']
  let month ← fixed 2 1 12
  token ['-']
  discard (fixed 2 1 (daysIn year month))

def clock : Reader Unit := do
  discard (fixed 2 0 23)
  token [':']
  discard (fixed 2 0 59)

/-- A time of day. A minute may have a leap second. -/
def time : Reader Unit := do
  clock
  token [':']
  discard (fixed 2 0 60)
  discard (optional? do
    token ['.']
    discard (one Char.isDigit)
    discard (span Char.isDigit))

def zone : Reader Unit :=
  discard (one fun c => c == 'Z' || c == 'z') <|> do
    discard (one isSign)
    clock

def moment : Reader Unit :=
  (do
    date
    discard (optional? do
      discard (one fun c => c == 'T' || c == 't' || c == ' ')
      time
      discard (optional? zone)))
  <|> time

end Highlighter.Toml
