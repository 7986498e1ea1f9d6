import Highlighter.Error
import Highlighter.Line.Assembler
import Highlighter.Scanner.Basic

/-!
# The line cache

A cache holds a document as lines with markup. A build reads a whole text, at
once or a number of lines at a time. The text of the document is always that of
the lines, with the terminator between them.
-/

namespace Highlighter

structure Cache where
  lines : List Line := [Line.empty]
  /-- Columns of the widest line; edits without a rebuild never lower it. -/
  width : Nat := Blocks.minWidth
  /-- Lines of the last build that hold more than white space and comments. -/
  codeLines : Nat := 0
  scanner : Scanner
  /-- Reads single lines, so that they leave the last build as it is. -/
  scratch : Scanner
  /-- The line that the build has not completed yet. -/
  assembler : Assembler := .empty
  markup : Markup
  pool : LinePool := .empty
  terminator : Terminator := .platform
  ruler : Ruler := {}
  /-- Blocks of the pass that are already in the lines. -/
  folded : Nat := 0
  complete : Bool := true
  /-- The only line stands in until the build completes one. -/
  standIn : Bool := false

namespace Cache

def new (language : Language) (markup : Markup) : Cache where
  scanner := Scanner.start language true []
  scratch := Scanner.start language true []
  markup

def language (c : Cache) : Language := c.scanner.language

def highlight (c : Cache) : Bool := c.scanner.highlight

/-- A cache of one empty line with the settings of this one. -/
def emptyLike (c : Cache) : Cache where
  scanner := Scanner.start c.language c.highlight []
  scratch := Scanner.start c.language c.highlight []
  markup := c.markup
  terminator := c.terminator
  ruler := c.ruler

/-! ### Reading -/

def text (c : Cache) : Text := c.terminator.joinLines (c.lines.map Line.raw)

/-- The blocks of the last build. Edits without a rebuild do not show in them. -/
def blocks (c : Cache) : Blocks := c.scanner.blocks

def isEmpty (c : Cache) : Bool :=
  match c.lines with
  | [line] => line.isEmpty
  | _ => false

def line (c : Cache) (index : Nat) : Except Error Line :=
  match c.lines[index]? with
  | some line => .ok line
  | none => .error (.outOfRange index c.lines.length)

/-- The language, the number of lines, the width and whether the build is complete. -/
def summary (c : Cache) : Text :=
  "Code \x7b language: ".toList ++ Quoted.quote c.language.name.toList ++
    ", lines: ".toList ++ Text.ofNat c.lines.length ++
    ", width: ".toList ++ Text.ofNat c.width ++
    ", complete: ".toList ++ (toString c.complete).toList ++ " \x7d".toList

/-! ### Building -/

/-- Starts a build of the text. Until a line is complete, an empty one stands in. -/
def begin (c : Cache) (text : Text) : Cache :=
  let (standIn, pool) := (c.pool.giveAll c.lines).take
  { c with
    lines := [standIn]
    width := Blocks.minWidth
    codeLines := 0
    scanner := c.scanner.setText text
    assembler := .empty
    pool
    folded := 0
    complete := false
    standIn := true }

/-- Goes on with the build for at most `count` lines. -/
def buildNext (c : Cache) (count : Nat) : Cache :=
  if c.complete then c
  else
    let scanner := c.scanner.advance (c.scanner.breaks + count)
    let tail : Blocks := scanner.blocks.drop c.folded
    let (kept, pool) := if c.standIn then ([], c.pool.giveAll c.lines) else (c.lines, c.pool)
    let (added, assembler, pool) :=
      Assembler.append c.markup scanner.finished tail c.assembler pool
    let lines := kept ++ added
    let (standIn, pool') := pool.take
    { c with
      lines := if lines.isEmpty then [standIn] else lines
      width := max c.width (tail.maxWidth c.ruler)
      codeLines := c.codeLines + tail.codeLineCount
      scanner
      assembler
      pool := if lines.isEmpty then pool' else pool
      folded := scanner.blocks.length
      complete := scanner.finished
      standIn := lines.isEmpty }

/-- What a call of `buildNext` answers: whether there is nothing more to build. -/
def buildNextAnswer (c : Cache) (count : Nat) : Bool :=
  c.complete || (c.scanner.advance (c.scanner.breaks + count)).finished

def finish (c : Cache) : Cache := c.buildNext c.scanner.everyBreak

def build (c : Cache) (text : Text) : Cache := (c.begin text).finish

/-- Builds the text of the present lines again. -/
def rebuild (c : Cache) : Cache := c.build c.text

/-! ### Settings -/

def setTerminator (c : Cache) (terminator : Terminator) : Cache := { c with terminator }

/-- Sets the width of a tab, which is at least one column. -/
def setTabWidth (c : Cache) (tabWidth : Nat) : Cache :=
  { c with ruler := { c.ruler with tabWidth := max tabWidth 1 } }

def setLanguage (c : Cache) (language : Language) : Cache :=
  let c := c.finish
  { c with
    scanner := c.scanner.setLanguage language
    scratch := c.scratch.setLanguage language }.rebuild

def setMarkup (c : Cache) (markup : Markup) : Cache :=
  { c.finish with markup }.rebuild

def setHighlight (c : Cache) (highlight : Bool) : Cache :=
  let c := c.finish
  { c with
    scanner := c.scanner.setHighlight highlight
    scratch := c.scratch.setHighlight highlight }.rebuild

end Cache

end Highlighter
