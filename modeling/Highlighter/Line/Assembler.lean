import Highlighter.Line.Basic
import Highlighter.Markup.Basic

/-!
# From blocks to lines

An assembler regroups blocks into lines. It holds the line that is still open,
so the blocks may come in any pieces.
-/

namespace Highlighter

/-- The line being put together, both forms last character first. -/
structure Assembler where
  rawReversed : Text := []
  formattedReversed : Text := []

namespace Assembler

def empty : Assembler := {}

def raw (a : Assembler) : Text := a.rawReversed.reverse

def formatted (a : Assembler) : Text := a.formattedReversed.reverse

def push (markup : Markup) (a : Assembler) (b : Block) : Assembler where
  rawReversed := b.content.reverse ++ a.rawReversed
  formattedReversed := (markup.write b).reverse ++ a.formattedReversed

@[simp] theorem raw_empty : empty.raw = [] := rfl

@[simp] theorem formatted_empty : empty.formatted = [] := rfl

@[simp] theorem raw_push (markup : Markup) (a : Assembler) (b : Block) :
    (a.push markup b).raw = a.raw ++ b.content := by
  simp [raw, push]

@[simp] theorem formatted_push (markup : Markup) (a : Assembler) (b : Block) :
    (a.push markup b).formatted = a.formatted ++ markup.write b := by
  simp [formatted, push]

def line (a : Assembler) : Line := { raw := a.raw, formatted := a.formatted }

/-- Closes the open line into a record from the pool. -/
def close (a : Assembler) (pool : LinePool) : Line × LinePool :=
  let (record, pool) := pool.take
  (record.set a.raw a.formatted, pool)

@[simp] theorem close_fst (a : Assembler) (pool : LinePool) : (a.close pool).1 = a.line := rfl

def reset (_a : Assembler) : Assembler := empty

/-- Puts together the first line of a block sequence, whatever line was open before. -/
def singleLine (markup : Markup) (bs : Blocks) (a : Assembler) : Line × Assembler :=
  let a := (bs.takeWhile fun b => !b.isLineBreak).foldl (push markup) a.reset
  (a.line, a.reset)

/-- Takes in a piece of a block sequence. Gives the lines it completes, and the open line
too when `finished`. -/
def append (markup : Markup) (finished : Bool) :
    Blocks → Assembler → LinePool → List Line × Assembler × LinePool
  | [], a, pool =>
    if finished then
      let (line, pool) := a.close pool
      ([line], empty, pool)
    else ([], a, pool)
  | b :: bs, a, pool =>
    if b.isLineBreak then
      let (line, pool) := a.close pool
      let (lines, a, pool) := append markup finished bs empty pool
      (line :: lines, a, pool)
    else append markup finished bs (a.push markup b) pool

end Assembler

namespace Blocks

def toLines (markup : Markup) (bs : Blocks) : List Line :=
  (Assembler.append markup true bs .empty .empty).1

def firstLine (markup : Markup) (bs : Blocks) : Line :=
  (Assembler.empty.singleLine markup bs).1

end Blocks

end Highlighter
