import Highlighter.Builder
import Highlighter.Document

/-!
# The pager

A pager shows a document screen by screen while it is still being read. It reads some
lines at a time between two inputs; a long document it hands to a worker, whose cache
takes the place of the first lines once it is sent. What is on the screen is drawn anew
only when it may have changed.
-/

namespace Highlighter

structure Screen where
  columns : Nat
  rows : Nat
  deriving DecidableEq, Repr

namespace Screen

/-- The rows for lines, all but the last one. There is always one. -/
def height (s : Screen) : Nat := max (s.rows - 1) 1

end Screen

inductive Key where
  | char (c : Char) (control : Bool)
  | enter
  | escape
  | up
  | down
  | pageUp
  | pageDown
  | home
  | endKey
  | other
  deriving DecidableEq, Repr

inductive Input where
  | key (key : Key)
  | resize (screen : Screen)
  | timeout
  deriving DecidableEq, Repr

inductive Action where
  | quit
  | lineDown
  | lineUp
  | pageDown
  | pageUp
  | first
  | last
  | toggleRaw
  | toggleNumbers
  deriving DecidableEq, Repr

def Key.action? : Key → Option Action
  | .char 'q' _ | .escape | .char 'c' true => some .quit
  | .char 'j' _ | .down | .enter => some .lineDown
  | .char 'k' _ | .up => some .lineUp
  | .char ' ' _ | .pageDown => some .pageDown
  | .char 'b' _ | .pageUp => some .pageUp
  | .char 'g' _ | .home => some .first
  | .char 'G' _ | .endKey => some .last
  | .char 'r' _ => some .toggleRaw
  | .char 'n' _ => some .toggleNumbers
  | _ => none

structure Pager where
  document : Document
  builder : Builder := {}
  screen : Screen
  top : Nat := 0
  /-- Lines are shown without markup. -/
  raw : Bool := false
  lineNumbers : Bool
  /-- Lines that are read in one go. -/
  linesPerScreen : Nat
  /-- The screen does not show the present state. -/
  stale : Bool := true
  /-- The columns of a character on the terminal; control characters have no width. -/
  charWidth? : Char → Option Nat := CharWidth.columns?

namespace Pager

def cache (p : Pager) : Cache := p.document.cache

/-- Starts on a document that is not built yet. The first lines are read at once; what is
left of a long text goes to a worker. -/
def start (settings : Settings) (screen : Screen) (document : Document) (body : Text) : Pager :=
  let cache := (document.cache.begin body).buildNext settings.linesPerScreen
  let isLong := !cache.complete && settings.backgroundThreshold ≤ body.byteSize
  { document := document.replaceCache cache
    builder := if isLong then ({} : Builder).start cache body else {}
    screen
    lineNumbers := settings.lineNumbers
    linesPerScreen := settings.linesPerScreen }

/-! ### Reading on -/

/-- Takes over what the worker has sent, or else reads the next lines. -/
def advance (p : Pager) : Pager :=
  if p.builder.isPending then
    let (builder, cache?) := p.builder.poll
    match cache? with
    | some cache => { p with builder, document := p.document.replaceCache cache, stale := true }
    | none => { p with builder }
  else if p.cache.complete then p
  else
    { p with
      document := p.document.replaceCache (p.cache.buildNext p.linesPerScreen)
      stale := true }

def deliver (p : Pager) : Pager :=
  { p with builder := p.builder.deliver p.builder.generation }

def lose (p : Pager) : Pager :=
  { p with builder := p.builder.lose p.builder.generation }

/-- Reads on to the end of the document, as the worker or between inputs. -/
def settle (p : Pager) : Pager :=
  let p := p.deliver.advance
  { p with document := p.document.replaceCache p.cache.finish, stale := true }

/-! ### Input -/

/-- The first line of the last screen. -/
def lastTop (p : Pager) : Nat := p.cache.lines.length - p.screen.height

/-- Shows the lines from an index on, or the last screen. -/
def scrollTo (top : Nat) (p : Pager) : Pager :=
  let top := min top p.lastTop
  { p with top, stale := p.stale || top != p.top }

def act (p : Pager) : Action → Pager
  | .quit => p
  | .lineDown => p.scrollTo (p.top + 1)
  | .lineUp => p.scrollTo (p.top - 1)
  | .pageDown => p.scrollTo (p.top + p.screen.height)
  | .pageUp => p.scrollTo (p.top - p.screen.height)
  | .first => p.scrollTo 0
  | .last => p.scrollTo p.lastTop
  | .toggleRaw => { p with raw := !p.raw, stale := true }.scrollTo p.top
  | .toggleNumbers => { p with lineNumbers := !p.lineNumbers, stale := true }.scrollTo p.top

def handle? (p : Pager) : Input → Option Pager
  | .timeout => some p
  | .resize screen => some (({ p with screen, stale := true } : Pager).scrollTo p.top)
  | .key key =>
    match key.action? with
    | some .quit => none
    | some action => some (p.act action)
    | none => some (p.scrollTo p.top)

end Pager

end Highlighter
