import Highlighter.Proofs.Cache.Build
import Mathlib.Data.List.InsertIdx

/-!
# Runs of operations

The operations of a cache as data, so that a run is a list. A cache is reachable when a
run leads to it from a new one.
-/

namespace Highlighter

inductive Operation where
  | build (text : Text)
  | begin (text : Text)
  | buildNext (count : Nat)
  | finish
  | setLine (index : Nat) (value : Text) (rebuild : Bool)
  | insertAt (index : Nat) (value : Text) (rebuild : Bool)
  | removeAt (index : Nat) (rebuild : Bool)
  | rebuild
  | clear
  | setLanguage (language : Language)
  | setMarkup (markup : Markup)
  | setHighlight (highlight : Bool)
  | setTerminator (terminator : Terminator)
  | setTabWidth (tabWidth : Nat)
  | emptyLike

/-- Whether no build is under way after the operation. -/
def Operation.finishes : Operation → Bool
  | .begin _ | .buildNext _ | .setTerminator _ | .setTabWidth _ => false
  | .build _ | .finish | .setLine .. | .insertAt .. | .removeAt .. | .rebuild | .clear
  | .setLanguage _ | .setMarkup _ | .setHighlight _ | .emptyLike => true

namespace Cache

/-- Performs an operation. Only edits of lines can be refused. -/
def perform (c : Cache) : Operation → Edited Cache
  | .build text => (c.build text, none)
  | .begin text => (c.begin text, none)
  | .buildNext count => (c.buildNext count, none)
  | .finish => (c.finish, none)
  | .setLine index value rebuild => c.setLine index value rebuild
  | .insertAt index value rebuild => c.insertAt index value rebuild
  | .removeAt index rebuild => c.removeAt index rebuild
  | .rebuild => (c.rebuild, none)
  | .clear => (c.clear, none)
  | .setLanguage language => (c.setLanguage language, none)
  | .setMarkup markup => (c.setMarkup markup, none)
  | .setHighlight highlight => (c.setHighlight highlight, none)
  | .setTerminator terminator => (c.setTerminator terminator, none)
  | .setTabWidth tabWidth => (c.setTabWidth tabWidth, none)
  | .emptyLike => (c.emptyLike, none)

def performAll (c : Cache) : List Operation → Cache × List (Option Error)
  | [] => (c, [])
  | op :: ops =>
    let (c, error) := c.perform op
    let (c, errors) := c.performAll ops
    (c, error :: errors)

inductive Reachable : Cache → Prop where
  | new (language : Language) (markup : Markup) : Reachable (new language markup)
  | perform {c : Cache} (op : Operation) : Reachable c → Reachable (c.perform op).1

/-! ### Edits in two steps -/

def putLine (c : Cache) (index : Nat) (value : Text) : Cache :=
  let (line, d) := c.readLine value
  { d with
    lines := d.lines.set index line
    pool := (c.lines[index]?).elim d.pool d.pool.give }

def spliceLine (c : Cache) (index : Nat) (value : Text) : Cache :=
  let (line, d) := c.readLine value
  { d with lines := d.lines.insertIdx index line }

/-- The cache without a line, or with an empty one if there is no other. -/
def dropLine (c : Cache) (index : Nat) : Cache :=
  let rest := c.lines.eraseIdx index
  { c with
    lines := if rest.isEmpty then [Line.empty] else rest
    pool := (c.lines[index]?).elim c.pool c.pool.give }

section Edits
variable (c : Cache) (index : Nat) (value : Text) (rebuild : Bool)

theorem lines_putLine :
    (c.putLine index value).lines = c.lines.set index (c.readLine value).1 := rfl

theorem lines_spliceLine :
    (c.spliceLine index value).lines = c.lines.insertIdx index (c.readLine value).1 := rfl

theorem lines_dropLine :
    (c.dropLine index).lines =
      if (c.lines.eraseIdx index).isEmpty then [Line.empty] else c.lines.eraseIdx index := rfl

theorem setLine_eq :
    c.setLine index value rebuild =
      if index < c.finish.lines.length then
        ((c.finish.putLine index value).settle (rebuild || value.hasBreak), none)
      else (c.finish, some (.outOfRange index c.finish.lines.length)) := by
  rw [setLine]
  dsimp only
  by_cases h : index < c.finish.lines.length
  · have hget : c.finish.lines[index]? = some c.finish.lines[index] := List.getElem?_eq_getElem h
    rw [if_pos h, putLine, hget]
    rfl
  · have hget : c.finish.lines[index]? = none := List.getElem?_eq_none (by omega)
    rw [if_neg h, hget]

theorem insertAt_eq :
    c.insertAt index value rebuild =
      if index ≤ c.finish.lines.length then
        ((c.finish.spliceLine index value).settle (rebuild || value.hasBreak), none)
      else (c.finish, some (.outOfRange index c.finish.lines.length)) := by
  rw [insertAt]
  dsimp only
  by_cases h : index ≤ c.finish.lines.length
  · rw [if_pos h, if_neg (by omega)]
    rfl
  · rw [if_neg h, if_pos (by omega)]

theorem removeAt_eq :
    c.removeAt index rebuild =
      if index < c.finish.lines.length then ((c.finish.dropLine index).settle rebuild, none)
      else (c.finish, some (.outOfRange index c.finish.lines.length)) := by
  rw [removeAt]
  dsimp only
  by_cases h : index < c.finish.lines.length
  · have hget : c.finish.lines[index]? = some c.finish.lines[index] := List.getElem?_eq_getElem h
    rw [if_pos h, dropLine, hget]
    rfl
  · have hget : c.finish.lines[index]? = none := List.getElem?_eq_none (by omega)
    rw [if_neg h, hget]

end Edits

/-- A text without line ends is read as one line of its own. -/
theorem readLine_of_no_break (c : Cache) {value : Text} (hb : value.hasBreak = false) :
    (c.readLine value).1 =
      Line.ofBlocks c.markup (scan c.scratch.language c.scratch.highlight value) := by
  have hpass := Scanner.onPass_start c.scratch.language c.scratch.highlight value
  have hblocks : (c.scratch.setText value).finish.blocks =
      scan c.scratch.language c.scratch.highlight value := hpass.blocks_finish
  rw [readLine]
  dsimp only
  rw [hb, if_neg (by simp), hblocks, Assembler.line_singleLine c.markup (no_lineBreak_scan hb)]

/-- The line read for a text has that text, also when the text has line ends. -/
theorem raw_readLine (c : Cache) (value : Text) : (c.readLine value).1.raw = value := by
  cases hb : value.hasBreak with
  | true =>
    rw [readLine]
    dsimp only
    rw [hb]
    rfl
  | false =>
    rw [readLine_of_no_break c hb]
    exact concat_scan _ _ value

/-! ### Raw lines after an edit -/

def rawLines (c : Cache) : List Text := c.lines.map Line.raw

theorem text_eq (c : Cache) : c.text = c.terminator.joinLines c.rawLines := rfl

theorem rawLines_putLine (c : Cache) (index : Nat) (value : Text) :
    (c.putLine index value).rawLines = c.rawLines.set index value := by
  rw [rawLines, rawLines, lines_putLine, List.map_set, raw_readLine]

theorem rawLines_spliceLine (c : Cache) (index : Nat) (value : Text) :
    (c.spliceLine index value).rawLines = c.rawLines.insertIdx index value := by
  rw [rawLines, rawLines, lines_spliceLine, List.map_insertIdx, raw_readLine]

/-- The list without an entry, or one empty text if there is no other. -/
def withoutLine (lines : List Text) (index : Nat) : List Text :=
  let rest := lines.eraseIdx index
  if rest.isEmpty then [[]] else rest

theorem rawLines_dropLine (c : Cache) (index : Nat) :
    (c.dropLine index).rawLines = withoutLine c.rawLines index := by
  have h : (c.lines.eraseIdx index).map Line.raw = c.rawLines.eraseIdx index :=
    (List.eraseIdx_map ..).symm
  rw [rawLines, lines_dropLine, withoutLine, ← h]
  cases hl : c.lines.eraseIdx index with
  | nil => rfl
  | cons line lines => rfl

theorem setup_putLine (c : Cache) (index : Nat) (value : Text) :
    (c.putLine index value).setup = c.setup := rfl

theorem setup_spliceLine (c : Cache) (index : Nat) (value : Text) :
    (c.spliceLine index value).setup = c.setup := rfl

theorem setup_dropLine (c : Cache) (index : Nat) : (c.dropLine index).setup = c.setup := rfl

theorem setup_rebuild (c : Cache) : c.rebuild.setup = c.setup := setup_build c c.text

theorem setup_settle (c : Cache) (rebuild : Bool) : (c.settle rebuild).setup = c.setup := by
  cases rebuild with
  | false => rfl
  | true => exact setup_rebuild c

/-! ### Soundness along a run -/

theorem complete_settle {c : Cache} (hc : c.complete = true) (rebuild : Bool) :
    (c.settle rebuild).complete = true := by
  cases rebuild with
  | false => exact hc
  | true => exact complete_build c c.text

section Complete
variable {c : Cache} (h : c.Sound)
include h

theorem complete_setLine (index : Nat) (value : Text) (rebuild : Bool) :
    (c.setLine index value rebuild).1.complete = true := by
  have hedit : (c.finish.putLine index value).complete = true := h.complete_finish
  rw [setLine_eq]
  split
  · exact complete_settle hedit _
  · exact h.complete_finish

theorem complete_insertAt (index : Nat) (value : Text) (rebuild : Bool) :
    (c.insertAt index value rebuild).1.complete = true := by
  have hedit : (c.finish.spliceLine index value).complete = true := h.complete_finish
  rw [insertAt_eq]
  split
  · exact complete_settle hedit _
  · exact h.complete_finish

theorem complete_removeAt (index : Nat) (rebuild : Bool) :
    (c.removeAt index rebuild).1.complete = true := by
  have hedit : (c.finish.dropLine index).complete = true := h.complete_finish
  rw [removeAt_eq]
  split
  · exact complete_settle hedit _
  · exact h.complete_finish

theorem complete_perform {op : Operation} (hop : op.finishes = true) :
    (c.perform op).1.complete = true := by
  cases op with
  | build text => exact complete_build c text
  | «begin» text | buildNext count | setTerminator terminator | setTabWidth tabWidth => cases hop
  | finish | clear => exact h.complete_finish
  | setLine index value rebuild => exact complete_setLine h index value rebuild
  | insertAt index value rebuild => exact complete_insertAt h index value rebuild
  | removeAt index rebuild => exact complete_removeAt h index rebuild
  | rebuild => exact complete_build c c.text
  | setLanguage language => exact complete_build _ _
  | setMarkup markup => exact complete_build _ _
  | setHighlight highlight => exact complete_build _ _
  | emptyLike => rfl

end Complete

theorem Sound.perform {c : Cache} (h : c.Sound) (op : Operation) : (c.perform op).1.Sound := by
  cases hop : op.finishes with
  | true => exact sound_of_complete (complete_perform h hop)
  | false =>
    cases op with
    | «begin» text => exact sound_begin c text
    | buildNext count => exact h.buildNext count
    | setTerminator terminator => exact fun hc => ⟨(h hc).1, (h hc).2, (h hc).3, (h hc).4⟩
    | setTabWidth tabWidth => exact fun hc => ⟨(h hc).1, (h hc).2, (h hc).3, (h hc).4⟩
    | _ => cases hop

theorem Reachable.sound {c : Cache} (h : c.Reachable) : c.Sound := by
  induction h with
  | new language markup => exact sound_of_complete rfl
  | perform op _ ih => exact ih.perform op

end Cache

end Highlighter
