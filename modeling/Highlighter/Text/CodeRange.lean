import Highlighter.Text.Basic

/-!
# Ranges of code points

Properties of characters are given as lists of closed ranges of code points.
-/

namespace Highlighter

abbrev CodeRange := Nat × Nat

namespace CodeRange

def has (r : CodeRange) (c : Char) : Bool := r.1 ≤ c.toNat && c.toNat ≤ r.2

/-- Whether one of the ranges has the character. -/
def anyHas (ranges : List CodeRange) (c : Char) : Bool := ranges.any (·.has c)

end CodeRange

end Highlighter
