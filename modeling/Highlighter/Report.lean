import Highlighter.Document

/-!
# Reports

What the command line shows of a document: its lines, its counts and its blocks.
-/

namespace Highlighter.Document

/-- The lines, raw or formatted, with or without their numbers. -/
def listing (d : Document) (raw numbers : Bool) : Text :=
  let width := (Text.ofNat d.cache.lines.length).length
  d.cache.lines.zipIdx.flatMap fun (line, index) =>
    let number := if numbers then (Text.ofNat (index + 1)).padLeft width ++ [' '] else []
    Text.outputLine (number ++ if raw then line.raw else line.formatted)

def blockListing (d : Document) : Text := d.cache.blocks.flatMap fun b => Text.outputLine b.describe

/-- The number of blocks of a kind, if there are any. -/
def kindCount (d : Document) (k : Kind) : Text :=
  let count := d.cache.blocks.countP fun b => b.kind == k
  if count = 0 then [] else Text.outputLine ([' ', ' '] ++ k.column ++ [' '] ++ Text.ofNat count)

/-- The counts of a document that was opened under a path. -/
def statistics (d : Document) (p : Path) : Text :=
  let c := d.cache
  Text.outputLine ("file:        ".toList ++ p.toList) ++
    Text.outputLine ("language:    ".toList ++ c.language.name.toList) ++
    Text.outputLine ("lines:       ".toList ++ Text.ofNat c.lines.length) ++
    Text.outputLine ("code lines:  ".toList ++ Text.ofNat c.codeLines) ++
    Text.outputLine ("width:       ".toList ++ Text.ofNat c.width) ++
    Text.outputLine ("terminator:  ".toList ++ c.terminator.name.toList) ++
    Text.outputLine ("blocks:      ".toList ++ Text.ofNat c.blocks.length) ++
    Kind.all.flatMap d.kindCount

def savedNote (d : Document) (p : Path) : Text :=
  Text.outputLine (p.toList ++ [':', ' '] ++ Text.ofNat d.cache.lines.length ++ " lines".toList)

end Highlighter.Document
