import Highlighter.Scanner.Cursor

/-!
# Incremental scanning

A scanner owns a text and a pass over it that can be stopped after any number of
line breaks and taken up again. Any change of the text or of the settings starts
the pass anew.
-/

namespace Highlighter

/-- A text, how to read it, and how far it has been read. -/
structure Scanner where
  language : Language
  highlight : Bool := true
  text : Text := []
  cursor : Cursor := Cursor.start highlight text
  finished : Bool := false

namespace Scanner

def start (language : Language) (highlight : Bool) (text : Text) : Scanner :=
  { language, highlight, text }

/-- Takes the pass back to the start of the text. -/
def restart (s : Scanner) : Scanner := start s.language s.highlight s.text

def setText (text : Text) (s : Scanner) : Scanner := start s.language s.highlight text

def setLanguage (language : Language) (s : Scanner) : Scanner := start language s.highlight s.text

def setHighlight (highlight : Bool) (s : Scanner) : Scanner := start s.language highlight s.text

def blocks (s : Scanner) : Blocks := s.cursor.blocks

/-- The line breaks emitted so far in this pass. -/
def breaks (s : Scanner) : Nat := s.cursor.breaks

/-- Goes on until `limit` line breaks have been emitted in this pass, or to the end of
the text, where the open block is emitted too. -/
def advance (limit : Nat) (s : Scanner) : Scanner :=
  if s.finished then s
  else
    let cursor := s.cursor.run s.language limit
    if cursor.rest.isEmpty then { s with cursor := cursor.flush, finished := true }
    else { s with cursor }

/-- More line breaks than the text can have. -/
def everyBreak (s : Scanner) : Nat := s.text.length + 1

def finish (s : Scanner) : Scanner := s.advance s.everyBreak

/-- Replaces one line of the text, its end kept, and reads the whole text again.
`none` if the text has no such line. -/
def setLine? (index : Nat) (value : Text) (s : Scanner) : Option Scanner :=
  if index < s.text.lines.length then some (s.setText (s.text.replaceLine index value)).finish
  else none

end Scanner

def scan (language : Language) (highlight : Bool) (text : Text) : Blocks :=
  (Scanner.start language highlight text).finish.blocks

end Highlighter
