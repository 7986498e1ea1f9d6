import Highlighter.Settings.Basic
import Highlighter.Store.Path

/-!
# Commands

What a command line asks for.
-/

namespace Highlighter

structure Options where
  /-- The language, whatever the file name says. -/
  language? : Option String := none
  surface? : Option Surface := none
  noHighlight : Bool := false
  /-- The settings file, if not that of the home directory. -/
  settingsPath? : Option Path := none
  logPath? : Option Path := none

/-- What is to be done. Lines are counted from one. -/
inductive Command where
  | view (file : Path) (raw numbers : Bool)
  | stats (file : Path)
  | tokens (file : Path)
  | set (file : Path) (line : Nat) (text : Text)
  | insert (file : Path) (line : Nat) (text : Text) (below : Bool)
  | delete (file : Path) (line : Nat)
  | page (file : Path)
  | languages

structure Request where
  options : Options
  command : Command

/-- The lines that are logged while a command runs: until it reads its file, from then on until
it writes the file or is done, and after the write. Which they are is left to the logger and to
what it is told to leave out. -/
structure Log where
  beforeReading : Text := []
  beforeWriting : Text := []
  afterWriting : Text := []

end Highlighter
