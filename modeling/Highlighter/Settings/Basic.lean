import Highlighter.Language.Registry
import Highlighter.Markup.Basic
import Highlighter.Text.LineEnd

/-!
# Settings

What a user can set: how documents are read and shown, and languages of their own.
-/

namespace Highlighter

inductive Surface where
  | terminal
  | richText
  deriving DecidableEq, Repr

/-- The line end for documents that do not show one. -/
inductive TerminatorPolicy where
  | platform
  | lf
  | crlf
  deriving DecidableEq, Repr

structure Settings where
  highlight : Bool := true
  surface : Surface := .terminal
  terminatorPolicy : TerminatorPolicy := .platform
  linesPerScreen : Nat := 200
  /-- Bytes from which on the pager reads a document in the background. -/
  backgroundThreshold : Nat := 256 * 1024
  tabWidth : Nat := 4
  /-- Whether the pager starts with line numbers. -/
  lineNumbers : Bool := false
  theme : Theme := {}
  languages : List Language := []

namespace Settings

/-- The settings in their bounds: at least one line at a time, tabs of 1 to 16 columns. -/
def normalize (s : Settings) : Settings :=
  { s with
    linesPerScreen := max s.linesPerScreen 1
    tabWidth := min (max s.tabWidth 1) 16 }

def markup (s : Settings) : Markup :=
  match s.surface with
  | .terminal => .ansi s.theme
  | .richText => .richText s.theme

def terminator (s : Settings) : Terminator :=
  match s.terminatorPolicy with
  | .platform => .platform
  | .lf => .lf
  | .crlf => .crlf

/-- The built-in languages and those of the settings. -/
def registry (s : Settings) : Registry := Registry.builtin.addAll s.languages

end Settings

end Highlighter
