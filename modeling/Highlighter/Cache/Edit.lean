import Highlighter.Cache.Basic

/-!
# Editing lines

An edit first takes an unfinished build to its end. It reads the new line by
itself, and where `rebuild` is set or the new text has line ends, it builds the
whole document again, so that constructs of several lines settle. An edit of a
line that does not exist is refused.
-/

namespace Highlighter

/-- What an operation leaves, and why it was refused if it was. -/
abbrev Edited (α : Type) := α × Option Error

/-- What an operation leaves, if it was not refused. -/
def Edited.toExcept {α : Type} : Edited α → Except Error α
  | (a, none) => .ok a
  | (_, some e) => .error e

namespace Cache

/-- Reads a line by itself. A text with line ends keeps them until the rebuild. -/
def readLine (c : Cache) (value : Text) : Line × Cache :=
  let scratch := (c.scratch.setText value).finish
  let (line, assembler) := c.assembler.singleLine c.markup scratch.blocks
  (if value.hasBreak then line.setRaw value else line,
    { c with scratch, assembler, width := max c.width (scratch.blocks.maxWidth c.ruler) })

def settle (c : Cache) (rebuild : Bool) : Cache := if rebuild then c.rebuild else c

def setLine (c : Cache) (index : Nat) (value : Text) (rebuild : Bool) : Edited Cache :=
  let c := c.finish
  match c.lines[index]? with
  | none => (c, some (.outOfRange index c.lines.length))
  | some old =>
    let (line, c) := c.readLine value
    let edited := { c with lines := c.lines.set index line, pool := c.pool.give old }
    (edited.settle (rebuild || value.hasBreak), none)

/-- Puts a line before the one of the index, or after the last. -/
def insertAt (c : Cache) (index : Nat) (value : Text) (rebuild : Bool) : Edited Cache :=
  let c := c.finish
  if c.lines.length < index then (c, some (.outOfRange index c.lines.length))
  else
    let (line, c) := c.readLine value
    let edited := { c with lines := c.lines.insertIdx index line }
    (edited.settle (rebuild || value.hasBreak), none)

/-- Removes a line. One empty line is left when it was the only one. -/
def removeAt (c : Cache) (index : Nat) (rebuild : Bool) : Edited Cache :=
  let c := c.finish
  match c.lines[index]? with
  | none => (c, some (.outOfRange index c.lines.length))
  | some old =>
    let rest := c.lines.eraseIdx index
    let edited := { c with
      lines := if rest.isEmpty then [Line.empty] else rest
      pool := c.pool.give old }
    (edited.settle rebuild, none)

def clear (c : Cache) : Cache :=
  let c := c.finish
  { c with
    lines := [Line.empty]
    width := Blocks.minWidth
    codeLines := 0
    scanner := c.scanner.setText []
    pool := c.pool.giveAll c.lines }

end Cache

end Highlighter
