import Highlighter.Pager.Basic

/-!
# Frames

A frame is what a pager draws: a row for each line on the screen, and a mode line
below them. A row is written in runs of one style.
-/

namespace Highlighter

inductive Style where
  | normal
  | dim
  | reversed
  deriving DecidableEq, Repr

structure Run where
  style : Style
  text : Text
  deriving DecidableEq, Repr

/-- The runs of a row, none of them empty. -/
abbrev Row := List Run

def Row.ofRuns (runs : List Run) : Row := runs.filter fun run => !run.text.isEmpty

abbrev Frame := List Row

namespace Ruler

/-- The longest start of the text that fits into the columns. -/
def cut (ruler : Ruler) : Nat → Text → Text
  | _, [] => []
  | columns, c :: rest =>
    if ruler.width c ≤ columns then c :: cut ruler (columns - ruler.width c) rest else []

theorem columns_cut_le (ruler : Ruler) (columns : Nat) (t : Text) :
    ruler.columns (ruler.cut columns t) ≤ columns := by
  induction t generalizing columns with
  | nil => simp [cut]
  | cons c rest ih =>
    unfold cut
    split
    · have := ih (columns - ruler.width c)
      rw [columns_cons]
      omega
    · simp

end Ruler

namespace Pager

/-- A character without a width takes a column in a row; the tab is a character like others. -/
def ruler (p : Pager) : Ruler where
  charWidth c := (p.charWidth? c).getD 1
  tabWidth := (p.charWidth? '\t').getD 1

/-- Columns of the line numbers, with a blank behind them. -/
def gutterWidth (p : Pager) : Nat :=
  if p.lineNumbers then max (Text.ofNat p.cache.lines.length).length 3 + 1 else 0

def gutter (p : Pager) (index : Nat) : Run where
  style := .dim
  text := if p.lineNumbers then (Text.ofNat (index + 1)).padLeft (p.gutterWidth - 1) ++ [' '] else []

/-- The row of the line at an index. Raw text is cut at the edge of the screen; markup
cannot be cut. Behind the last line a row has a tilde. -/
def row (p : Pager) (index : Nat) : Row :=
  match p.cache.lines[index]? with
  | none => [⟨.dim, ['~']⟩]
  | some line =>
    let text :=
      if p.raw then p.ruler.cut (p.screen.columns - p.gutterWidth) line.raw else line.formatted
    Row.ofRuns [p.gutter index, ⟨.normal, text⟩]

def position (p : Pager) : String :=
  let count := p.cache.lines.length
  let bottom := min (p.top + p.screen.height) count
  if count ≤ 1 || (p.top = 0 && count ≤ bottom) then "All"
  else if p.top = 0 then "Top"
  else if count ≤ bottom then "Bot"
  else toString (bottom * 100 / count) ++ "%"

/-- The name, the language, the mode and the place. -/
def modeText (p : Pager) : Text :=
  String.toList <|
    "-- " ++ p.document.name ++ " (" ++ p.cache.language.name ++ ") " ++
      (if p.raw then "raw" else "fmt") ++ " L" ++ toString (p.top + 1) ++ "/" ++
      toString p.cache.lines.length ++ " " ++ p.position ++
      (if p.cache.complete then "" else " [building]") ++ " "

/-- The mode line: filled up by its bytes, or cut at the edge of the screen. -/
def modeLine (p : Pager) : Row :=
  let text := p.modeText
  let filled :=
    if text.byteSize < p.screen.columns then
      text ++ List.replicate (p.screen.columns - text.byteSize) '-'
    else p.ruler.cut p.screen.columns text
  Row.ofRuns [⟨.reversed, filled⟩]

def frame (p : Pager) : Frame :=
  (List.range p.screen.height).map (fun n => p.row (p.top + n)) ++ [p.modeLine]

def draw (p : Pager) : Option Frame × Pager :=
  if p.stale then (some p.frame, { p with stale := false }) else (none, p)

/-- What is drawn before each input is waited for, up to the input that quits. -/
def run (p : Pager) : List Input → List (Option Frame)
  | [] => []
  | input :: rest =>
    let (drawn, p) := p.advance.draw
    match p.handle? input with
    | some p => drawn :: run p rest
    | none => [drawn]

end Pager

end Highlighter
