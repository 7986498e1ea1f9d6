import Highlighter.Text.Basic

/-!
# Line ends

A line ends at LF, CRLF or a bare CR. `segments` cuts a text into its lines,
each with the end that closes it; the last line has none, and there is always a
last line. Nothing is lost: `join_segments`.
-/

namespace Highlighter

def isBreak (c : Char) : Bool := c == '\n' || c == '\r'

def lineEnd? : Text → Option Text
  | '\n' :: _ => some ['\n']
  | '\r' :: '\n' :: _ => some ['\r', '\n']
  | '\r' :: _ => some ['\r']
  | _ => none

theorem lineEnd?_eq_some {t e : Text} (h : lineEnd? t = some e) :
    e ≠ [] ∧ ∃ rest, t = e ++ rest := by
  unfold lineEnd? at h
  split at h <;> simp at h <;> subst h <;> simp

structure Segment where
  content : Text
  ending : Text
  deriving DecidableEq, Repr

namespace Segment

def text (s : Segment) : Text := s.content ++ s.ending

/-- Puts a character in front of the first line. -/
def consFirst (c : Char) : List Segment → List Segment
  | [] => [⟨[c], []⟩]
  | s :: rest => { s with content := c :: s.content } :: rest

end Segment

namespace Text

def segments : Text → List Segment
  | [] => [⟨[], []⟩]
  | '\r' :: '\n' :: t => ⟨[], ['\r', '\n']⟩ :: segments t
  | c :: t => if isBreak c then ⟨[], [c]⟩ :: segments t else Segment.consFirst c (segments t)

def join (segs : List Segment) : Text := segs.flatMap Segment.text

theorem join_consFirst (c : Char) (segs : List Segment) :
    join (Segment.consFirst c segs) = c :: join segs := by
  cases segs <;> simp [Segment.consFirst, join, Segment.text]

theorem join_segments (t : Text) : join (segments t) = t := by
  fun_induction segments t with
  | case1 => rfl
  | case2 t ih => simp only [join, List.flatMap_cons, Segment.text] at ih ⊢; simp [ih]
  | case3 c t _ _ ih => simp only [join, List.flatMap_cons, Segment.text] at ih ⊢; simp [ih]
  | case4 c t _ _ ih => rw [join_consFirst, ih]

/-- The lines of a text, without their ends. The empty text is one empty line. -/
def lines (t : Text) : List Text := (segments t).map Segment.content

theorem segments_ne_nil (t : Text) : segments t ≠ [] := by
  fun_induction segments t with
  | case4 c t _ _ _ => cases segments t <;> simp [Segment.consFirst]
  | _ => simp

theorem lines_ne_nil (t : Text) : lines t ≠ [] := by
  simp [lines, segments_ne_nil]

def lineSpans (t : Text) : List (Nat × Nat) := go 0 (segments t)
where
  go (start : Nat) : List Segment → List (Nat × Nat)
    | [] => []
    | s :: rest => (start, start + s.content.byteSize) :: go (start + s.text.byteSize) rest

/-- Whether any line of the text is closed by a line end. -/
def hasBreak (t : Text) : Bool := t.any isBreak

/-- Replaces the content of line `index` and keeps its end. -/
def replaceLine (t : Text) (index : Nat) (value : Text) : Text :=
  join ((segments t).modify index fun s => { s with content := value })

def outputLine (t : Text) : Text := t ++ ['\n']

/-- The text without its last line end, and whether it had one. -/
def dropFinalBreak (t : Text) : Text × Bool :=
  match t.reverse with
  | '\n' :: '\r' :: r => (r.reverse, true)
  | c :: r => if isBreak c then (r.reverse, true) else (t, false)
  | [] => (t, false)

end Text

/-- The line end written between the lines of a document. -/
inductive Terminator where
  | lf
  | crlf
  deriving DecidableEq, Repr

namespace Terminator

def platform : Terminator := .lf

def text : Terminator → Text
  | .lf => ['\n']
  | .crlf => ['\r', '\n']

def name : Terminator → String
  | .lf => "Lf"
  | .crlf => "CrLf"

/-- CRLF if the text has one, else LF if it has one. A bare CR settles nothing. -/
def detect? : Text → Option Terminator
  | [] => none
  | '\r' :: '\n' :: _ => some .crlf
  | c :: t => if c = '\n' then some ((detect? t).getD .lf) else detect? t

/-- The lines with the terminator between them. -/
def joinLines (terminator : Terminator) (lines : List Text) : Text :=
  terminator.text.intercalate lines

end Terminator

end Highlighter
