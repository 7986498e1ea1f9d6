import Highlighter.Block.Kind
import Highlighter.Text.Blank
import Highlighter.Text.Width
import Highlighter.Text.Quoted

/-!
# Blocks

A block is a stretch of source text with its kind. A sequence of blocks is cut
into lines at its line breaks; counts and widths are taken line by line.
-/

namespace Highlighter

structure Block where
  kind : Kind
  content : Text
  deriving DecidableEq, Repr

namespace Block

/-- Only white space, or nothing. -/
def isBlank (b : Block) : Bool := b.content.all Highlighter.isBlank

/-- Whether the block makes its line a line of code. -/
def isCode (b : Block) : Bool := b.kind != .lineBreak && !b.kind.isComment && !b.isBlank

def isLineBreak (b : Block) : Bool := b.kind == .lineBreak

/-- Columns of the block, as if it stood on one line. -/
def width (ruler : Ruler) (b : Block) : Nat := ruler.measure b.content

/-- The kind in a column, then the content in quotes. -/
def describe (b : Block) : Text := b.kind.column ++ [' '] ++ Quoted.quote b.content

end Block

abbrev Blocks := List Block

namespace Blocks

def concat (bs : Blocks) : Text := bs.flatMap Block.content

@[simp] theorem concat_nil : concat [] = [] := rfl

@[simp] theorem concat_cons (b : Block) (bs : Blocks) :
    concat (b :: bs) = b.content ++ concat bs := rfl

@[simp] theorem concat_append (bs cs : Blocks) : concat (bs ++ cs) = concat bs ++ concat cs := by
  simp [concat]

def breaks (bs : Blocks) : Nat := bs.countP Block.isLineBreak

def lineCount (bs : Blocks) : Nat := bs.breaks + 1

/-- The blocks of each line, without the line breaks. There is always a line. -/
def lines : Blocks → List Blocks
  | [] => [[]]
  | b :: bs =>
    if b.isLineBreak then [] :: lines bs
    else match lines bs with
      | [] => [[b]]
      | l :: ls => (b :: l) :: ls

theorem length_lines (bs : Blocks) : (lines bs).length = lineCount bs := by
  induction bs with
  | nil => rfl
  | cons b bs ih =>
    unfold lines
    split
    · simp_all [lineCount, breaks]
    · cases h : lines bs with
      | nil => simp [h, lineCount] at ih
      | cons l ls => simp_all [lineCount, breaks]

/-- Lines that hold more than white space and comments. -/
def codeLineCount (bs : Blocks) : Nat := bs.lines.countP fun line => line.any Block.isCode

/-- The least width reported for a document. -/
def minWidth : Nat := 40

/-- Columns of the blocks, if they all stand on one line. -/
def lineWidth (ruler : Ruler) (bs : Blocks) : Nat :=
  bs.foldr (fun b n => addWord (b.width ruler) n) 0

/-- Columns of the widest line, at least `minWidth`. -/
def maxWidth (ruler : Ruler) (bs : Blocks) : Nat :=
  bs.lines.foldl (fun widest line => max widest (lineWidth ruler line)) minWidth

end Blocks

end Highlighter
