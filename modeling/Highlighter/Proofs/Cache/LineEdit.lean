import Highlighter.Proofs.Cache.LineList
import Highlighter.Proofs.Cache.Rebuild
import Highlighter.Proofs.Scanner.LineReader
import Highlighter.Proofs.Scanner.Pause

/-!
# Edits with and without a rebuild

An edit without a rebuild reads one line by itself, from outside of any comment; a rebuild
reads all the lines in turn. Both leave the same lines where the edited line is outside of a
comment and leaves the lines behind it where they were: `fast_edit_agrees`.
-/

namespace Highlighter

namespace Cache

/-! ### The scanner of single lines -/

/-- Single lines are read with the settings of the whole document. -/
structure InStep (c : Cache) : Prop where
  language : c.scratch.language = c.language
  highlight : c.scratch.highlight = c.highlight

theorem scratch_buildNext (count : Nat) (c : Cache) : (c.buildNext count).scratch = c.scratch := by
  rw [Cache.buildNext]
  split <;> rfl

theorem scratch_putLine (c : Cache) (index : Nat) (value : Text) :
    (c.putLine index value).scratch = (c.scratch.setText value).finish := rfl

theorem scratch_spliceLine (c : Cache) (index : Nat) (value : Text) :
    (c.spliceLine index value).scratch = (c.scratch.setText value).finish := rfl

namespace InStep
variable {c : Cache} (h : c.InStep)
include h

theorem buildNext (count : Nat) : (c.buildNext count).InStep := by
  have hs := setup_buildNext count c
  have hl : (c.buildNext count).language = c.language := congrArg Setup.language hs
  have hh : (c.buildNext count).highlight = c.highlight := congrArg Setup.highlight hs
  refine ⟨?_, ?_⟩
  · rw [scratch_buildNext, hl, h.language]
  · rw [scratch_buildNext, hh, h.highlight]

theorem finish : c.finish.InStep := h.buildNext _

theorem build (text : Text) : (c.build text).InStep := by
  have hbegin : (c.begin text).InStep := ⟨h.language, h.highlight⟩
  exact hbegin.finish

theorem rebuild : c.rebuild.InStep := h.build c.text

theorem settle (rebuild : Bool) : (c.settle rebuild).InStep := by
  cases rebuild with
  | false => exact h
  | true => exact h.rebuild

theorem putLine (index : Nat) (value : Text) : (c.putLine index value).InStep := by
  obtain ⟨hl, hh, -⟩ := Scanner.settings_finish (c.scratch.setText value)
  refine ⟨?_, ?_⟩
  · rw [scratch_putLine, hl]
    exact h.language
  · rw [scratch_putLine, hh]
    exact h.highlight

theorem spliceLine (index : Nat) (value : Text) : (c.spliceLine index value).InStep := by
  obtain ⟨hl, hh, -⟩ := Scanner.settings_finish (c.scratch.setText value)
  refine ⟨?_, ?_⟩
  · rw [scratch_spliceLine, hl]
    exact h.language
  · rw [scratch_spliceLine, hh]
    exact h.highlight

theorem dropLine (index : Nat) : (c.dropLine index).InStep := ⟨h.language, h.highlight⟩

theorem perform (op : Operation) : (c.perform op).1.InStep := by
  have hf := h.finish
  cases op with
  | build text => exact h.build text
  | «begin» text => exact ⟨h.language, h.highlight⟩
  | buildNext count => exact h.buildNext count
  | finish => exact hf
  | setLine index value rebuild =>
    rw [Cache.perform, setLine_eq]
    split
    · exact (hf.putLine index value).settle _
    · exact hf
  | insertAt index value rebuild =>
    rw [Cache.perform, insertAt_eq]
    split
    · exact (hf.spliceLine index value).settle _
    · exact hf
  | removeAt index rebuild =>
    rw [Cache.perform, removeAt_eq]
    split
    · exact (hf.dropLine index).settle _
    · exact hf
  | rebuild => exact h.rebuild
  | clear => exact ⟨hf.language, hf.highlight⟩
  | setLanguage language =>
    have hset : ({ c.finish with
        scanner := c.finish.scanner.setLanguage language
        scratch := c.finish.scratch.setLanguage language } : Cache).InStep := ⟨rfl, hf.highlight⟩
    exact hset.rebuild
  | setMarkup markup =>
    have hset : ({ c.finish with markup } : Cache).InStep := ⟨hf.language, hf.highlight⟩
    exact hset.rebuild
  | setHighlight highlight =>
    have hset : ({ c.finish with
        scanner := c.finish.scanner.setHighlight highlight
        scratch := c.finish.scratch.setHighlight highlight } : Cache).InStep := ⟨hf.language, rfl⟩
    exact hset.rebuild
  | setTerminator terminator => exact ⟨h.language, h.highlight⟩
  | setTabWidth tabWidth => exact ⟨h.language, h.highlight⟩
  | emptyLike => exact ⟨rfl, rfl⟩

end InStep

theorem Reachable.inStep {c : Cache} (h : c.Reachable) : c.InStep := by
  induction h with
  | new language markup => exact ⟨rfl, rfl⟩
  | perform op _ ih => exact ih.perform op

/-! ### Lines of a build, read in turn -/

/-- Reads lines as a build of the cache does. -/
def reader (c : Cache) : LineReader := lineReader c.language c.highlight

/-- The lines of the cache, were they read in turn from these texts. -/
def readInTurn (c : Cache) (ls : List Text) : List Line :=
  (c.reader.blocks false ls).map (Line.ofBlocks c.markup)

theorem line_readLine {c : Cache} (h : c.InStep) {value : Text} (hv : value.hasBreak = false) :
    (c.readLine value).1 = Line.ofBlocks c.markup (c.reader false value).1 := by
  rw [readLine_of_no_break c hv, h.language, h.highlight, reader, lineReader_false _ _ hv]

section
variable {c : Cache} {ls : List Text} {index : Nat} {value : Text}

theorem readInTurn_set (hi : index < ls.length)
    (hbefore : c.reader.stateAfter false (ls.take index) = false)
    (hafter : (c.reader false value).2 = (c.reader false ls[index]).2) :
    c.readInTurn (ls.set index value) =
      (c.readInTurn ls).set index (Line.ofBlocks c.markup (c.reader false value).1) := by
  rw [readInTurn, LineReader.blocks_set hi hbefore hafter, List.map_set]
  rfl

theorem readInTurn_insertIdx (hi : index ≤ ls.length)
    (hbefore : c.reader.stateAfter false (ls.take index) = false)
    (hafter : (c.reader false value).2 = false) :
    c.readInTurn (ls.insertIdx index value) =
      (c.readInTurn ls).insertIdx index (Line.ofBlocks c.markup (c.reader false value).1) := by
  rw [readInTurn, LineReader.blocks_insertIdx hi hbefore hafter, List.map_insertIdx]
  rfl

theorem readInTurn_eraseIdx (hi : index < ls.length)
    (hsame : c.reader.stateAfter false (ls.take index) =
      c.reader.stateAfter false (ls.take (index + 1))) :
    c.readInTurn (ls.eraseIdx index) = (c.readInTurn ls).eraseIdx index := by
  rw [readInTurn, LineReader.blocks_eraseIdx hi hsame, ← List.eraseIdx_map]
  rfl

end

section
variable {c : Cache} (nf : c.language.NewlineFree) (hl : c.language.charLookahead = false)
include nf hl

theorem lines_build_eq_readInTurn (text : Text) :
    (c.build text).lines = c.readInTurn text.lines := by
  rw [lines_build, Blocks.toLines_eq, lines_scan_lineReader nf hl]
  rfl

/-- A cache with the settings of `c` that is built again reads its lines as `c` would. -/
theorem lines_rebuild {d : Cache} {ls : List Text} (hset : d.setup = c.setup)
    (hraw : d.rawLines = ls) (hne : ls ≠ []) (hb : ∀ l ∈ ls, l.hasBreak = false) :
    d.rebuild.lines = c.readInTurn ls := by
  have hlang : d.language = c.language := congrArg Setup.language hset
  have hhigh : d.highlight = c.highlight := congrArg Setup.highlight hset
  have hmark : d.markup = c.markup := congrArg Setup.markup hset
  have hread : d.readInTurn ls = c.readInTurn ls := by
    rw [readInTurn, readInTurn, reader, reader, hlang, hhigh, hmark]
  rw [← hlang] at nf hl
  rw [rebuild, lines_build_eq_readInTurn nf hl, text_eq, hraw,
    Terminator.lines_joinLines _ hne hb, hread]

end

theorem lines_of_view {c d : Cache} (h : c.view = d.view) : c.lines = d.lines :=
  congrArg View.lines h

/-- The lines are those of a fresh build of the text. -/
def Settled (c : Cache) : Prop := c.lines = ((fresh c.setup).build c.text).lines

namespace Settled
variable {c : Cache} (h : c.Settled) (hr : c.Reachable) (nf : c.language.NewlineFree)
include h hr nf

omit nf in
theorem lines_eq : c.lines = (c.build c.text).lines := by
  obtain ⟨-, hview⟩ := showsBuild_build hr.ordinary c.text
  exact h.trans (lines_of_view hview).symm

theorem rawLines_eq : c.rawLines = c.text.lines := by
  have hraw := rawLines_build nf c.text
  rwa [rawLines, ← h.lines_eq hr] at hraw

theorem hasBreak_of_mem {l : Text} (hm : l ∈ c.rawLines) : l.hasBreak = false := by
  rw [h.rawLines_eq hr nf] at hm
  exact Text.hasBreak_of_mem_lines hm

theorem rawLines_ne_nil : c.rawLines ≠ [] := by
  rw [h.rawLines_eq hr nf]
  exact Text.lines_ne_nil c.text

theorem lines_eq_readInTurn (hl : c.language.charLookahead = false) :
    c.lines = c.readInTurn c.rawLines := by
  rw [h.rawLines_eq hr nf, ← lines_build_eq_readInTurn nf hl]
  exact h.lines_eq hr

end Settled

/-! ### One line edited -/

/-- The bit behind the first lines, as a build reads them. -/
def bitAt (c : Cache) (index : Nat) : Bool := c.reader.stateAfter false (c.rawLines.take index)

section Edits
variable {c : Cache} (hr : c.Reachable) (nf : c.language.NewlineFree)
  (hl : c.language.charLookahead = false) (hc : c.complete = true) (hs : c.Settled) {index : Nat}
  {value : Text}
include hr nf hl hc hs

theorem lines_setLine_agree (hi : index < c.lines.length) (hv : value.hasBreak = false)
    (hbefore : c.bitAt index = false)
    (hafter : (c.reader false value).2 = (c.reader false c.lines[index].raw).2) :
    (c.setLine index value false).1.lines = (c.setLine index value true).1.lines := by
  have hi' : index < c.rawLines.length := by
    rwa [rawLines, List.length_map]
  have hold : c.rawLines[index] = c.lines[index].raw := List.getElem_map ..
  have hslow : (c.putLine index value).rebuild.lines =
      c.readInTurn (c.rawLines.set index value) := by
    apply lines_rebuild nf hl (setup_putLine ..) (rawLines_putLine ..)
    · simpa using hs.rawLines_ne_nil hr nf
    · intro l hm
      rcases List.mem_or_eq_of_mem_set hm with hm | rfl
      · exact hs.hasBreak_of_mem hr nf hm
      · exact hv
  -- The rebuild comes to the line from outside of a comment too, and leaves it as before.
  have hread : c.readInTurn (c.rawLines.set index value) =
      (c.readInTurn c.rawLines).set index (Line.ofBlocks c.markup (c.reader false value).1) := by
    apply readInTurn_set hi' hbefore
    rw [hafter, hold]
  rw [setLine_eq, setLine_eq, finish_of_complete hc, if_pos hi, if_pos hi, hv]
  show (c.putLine index value).lines = (c.putLine index value).rebuild.lines
  rw [hslow, hread, ← hs.lines_eq_readInTurn hr nf hl, lines_putLine, line_readLine hr.inStep hv]

theorem lines_insertAt_agree (hi : index ≤ c.lines.length) (hv : value.hasBreak = false)
    (hbefore : c.bitAt index = false) (hafter : (c.reader false value).2 = false) :
    (c.insertAt index value false).1.lines = (c.insertAt index value true).1.lines := by
  have hi' : index ≤ c.rawLines.length := by
    rwa [rawLines, List.length_map]
  have hslow : (c.spliceLine index value).rebuild.lines =
      c.readInTurn (c.rawLines.insertIdx index value) := by
    apply lines_rebuild nf hl (setup_spliceLine ..) (rawLines_spliceLine ..)
    · intro hnil
      have hlen := congrArg List.length hnil
      rw [List.length_insertIdx_of_le_length hi', List.length_nil] at hlen
      omega
    · intro l hm
      rcases (List.mem_insertIdx hi').1 hm with rfl | hm
      · exact hv
      · exact hs.hasBreak_of_mem hr nf hm
  have hread : c.readInTurn (c.rawLines.insertIdx index value) =
      (c.readInTurn c.rawLines).insertIdx index (Line.ofBlocks c.markup (c.reader false value).1) :=
    readInTurn_insertIdx hi' hbefore hafter
  rw [insertAt_eq, insertAt_eq, finish_of_complete hc, if_pos hi, if_pos hi, hv]
  show (c.spliceLine index value).lines = (c.spliceLine index value).rebuild.lines
  rw [hslow, hread, ← hs.lines_eq_readInTurn hr nf hl, lines_spliceLine,
    line_readLine hr.inStep hv]

theorem lines_removeAt_agree (hi : index < c.lines.length)
    (hsame : c.bitAt index = c.bitAt (index + 1)) :
    (c.removeAt index false).1.lines = (c.removeAt index true).1.lines := by
  have hi' : index < c.rawLines.length := by
    rwa [rawLines, List.length_map]
  rw [removeAt_eq, removeAt_eq, finish_of_complete hc, if_pos hi, if_pos hi]
  show (c.dropLine index).lines = (c.dropLine index).rebuild.lines
  cases hrest : c.lines.eraseIdx index with
  | nil =>
    -- The only line goes, and an empty one is left either way.
    have hraw : (c.dropLine index).rawLines = [[]] := by
      rw [rawLines, lines_dropLine, hrest]
      rfl
    have hslow : (c.dropLine index).rebuild.lines = c.readInTurn [[]] := by
      apply lines_rebuild nf hl (setup_dropLine ..) hraw (List.cons_ne_nil _ _)
      intro l hm
      rw [List.mem_singleton.1 hm]
      rfl
    have hempty : (c.reader false []).1 = [] := by
      rw [reader, lineReader_false _ _ rfl, scan_eq_nil_iff]
    rw [hslow, lines_dropLine, hrest, readInTurn, LineReader.blocks, hempty]
    rfl
  | cons line lines =>
    have hfast : (c.dropLine index).lines = c.lines.eraseIdx index := by
      rw [lines_dropLine, hrest]
      rfl
    have hraw : (c.dropLine index).rawLines = c.rawLines.eraseIdx index := by
      rw [rawLines, hfast]
      exact (List.eraseIdx_map ..).symm
    have hslow : (c.dropLine index).rebuild.lines = c.readInTurn (c.rawLines.eraseIdx index) := by
      apply lines_rebuild nf hl (setup_dropLine ..) hraw
      · rw [← hraw, rawLines, hfast, hrest]
        exact List.cons_ne_nil _ _
      · intro l hm
        exact hs.hasBreak_of_mem hr nf (List.mem_of_mem_eraseIdx hm)
    rw [hslow, hfast, readInTurn_eraseIdx hi' hsame, ← hs.lines_eq_readInTurn hr nf hl]

end Edits

/-! ### Bits and comments -/

section Comments
variable {c : Cache} (hr : c.Reachable) (nf : c.language.NewlineFree)
  (hl : c.language.charLookahead = false) (hs : c.Settled)

include hr nf hl hs in
theorem bitAt_on (hh : c.highlight = true) (index : Nat) :
    c.bitAt index = insideComment c.language c.text index := by
  rw [bitAt, reader, hh, hs.rawLines_eq hr nf]
  exact stateAfter_eq_insideComment nf hl c.text index

theorem bitAt_off (hh : c.highlight = false) (index : Nat) : c.bitAt index = false := by
  rw [bitAt, reader, hh]
  exact stateAfter_lineReader_off c.language _

theorem reader_on (hh : c.highlight = true) (content : Text) :
    (c.reader false content).2 = endsInComment c.language content := by
  rw [reader, hh]
  exact scanLine_snd_false c.language content

theorem reader_off (hh : c.highlight = false) (content : Text) :
    (c.reader false content).2 = false := by
  rw [reader, hh]
  rfl

end Comments

/-- An edit leaves the same lines without a rebuild and with one, where the cache shows a
build of its text and, if highlighting is on: a line that is set or put in stands outside of a
block comment, and behind the edit the text is inside of one exactly if it was before. -/
theorem fast_edit_agrees {c : Cache} (hr : c.Reachable) (nf : c.language.NewlineFree)
    (hl : c.language.charLookahead = false) (hc : c.complete = true)
    (hs : c.lines = ((fresh c.setup).build c.text).lines) :
    (∀ (index : Nat) (hi : index < c.lines.length) (value : Text), value.hasBreak = false →
      (c.highlight = true → insideComment c.language c.text index = false ∧
        endsInComment c.language value = endsInComment c.language c.lines[index].raw) →
      (c.setLine index value false).1.lines = (c.setLine index value true).1.lines) ∧
    (∀ (index : Nat) (value : Text), index ≤ c.lines.length → value.hasBreak = false →
      (c.highlight = true → insideComment c.language c.text index = false ∧
        endsInComment c.language value = false) →
      (c.insertAt index value false).1.lines = (c.insertAt index value true).1.lines) ∧
    (∀ index : Nat, index < c.lines.length →
      (c.highlight = true → insideComment c.language c.text index =
        insideComment c.language c.text (index + 1)) →
      (c.removeAt index false).1.lines = (c.removeAt index true).1.lines) := by
  refine ⟨?_, ?_, ?_⟩
  · intro index hi value hv hcomment
    cases hh : c.highlight with
    | true =>
      obtain ⟨hbefore, hafter⟩ := hcomment hh
      apply lines_setLine_agree hr nf hl hc hs hi hv
      · rw [bitAt_on hr nf hl hs hh, hbefore]
      · rw [reader_on hh, reader_on hh, hafter]
    | false =>
      apply lines_setLine_agree hr nf hl hc hs hi hv (bitAt_off hh index)
      rw [reader_off hh, reader_off hh]
  · intro index value hi hv hcomment
    cases hh : c.highlight with
    | true =>
      obtain ⟨hbefore, hafter⟩ := hcomment hh
      apply lines_insertAt_agree hr nf hl hc hs hi hv
      · rw [bitAt_on hr nf hl hs hh, hbefore]
      · rw [reader_on hh, hafter]
    | false =>
      exact lines_insertAt_agree hr nf hl hc hs hi hv (bitAt_off hh index) (reader_off hh value)
  · intro index hi hcomment
    apply lines_removeAt_agree hr nf hl hc hs hi
    cases hh : c.highlight with
    | true => rw [bitAt_on hr nf hl hs hh, bitAt_on hr nf hl hs hh, hcomment hh]
    | false => rw [bitAt_off hh, bitAt_off hh]

/-- Around a comment of two lines: its first line is set to another that opens a comment, a line
is put behind it, and the line before it is removed. -/
theorem fast_edit_agrees_comment :
    let lang : Language := { blockComment := some ("/*".toList, "*/".toList) }
    let c := (new lang (.richText {})).build "a\n/* b\nc */\nd".toList
    lang.NewlineFree ∧ c.highlight = true ∧ c.lines = ((fresh c.setup).build c.text).lines ∧
      insideComment lang c.text 1 = false ∧ insideComment lang c.text 2 = true ∧
      (c.setLine 1 "/* e".toList false).1.lines = (c.setLine 1 "/* e".toList true).1.lines ∧
      (c.insertAt 3 "/* f */".toList false).1.lines =
        (c.insertAt 3 "/* f */".toList true).1.lines ∧
      (c.removeAt 0 false).1.lines = (c.removeAt 0 true).1.lines := by
  intro lang c
  have nf : lang.NewlineFree := by decide
  have hr : c.Reachable := .perform (.build _) (.new lang _)
  have hc : c.complete = true := complete_build _ _
  have hs : c.lines = ((fresh c.setup).build c.text).lines := by decide +kernel
  have hhigh : c.highlight = true := by decide +kernel
  have hlang : c.language = lang := congrArg Setup.language (setup_build (new lang _) _)
  have hnf : c.language.NewlineFree := by rwa [hlang]
  have hlookahead : c.language.charLookahead = false := by rw [hlang]
  obtain ⟨hset, hinsert, hremove⟩ := fast_edit_agrees hr hnf hlookahead hc hs
  refine ⟨nf, hhigh, hs, ?_, ?_, ?_, ?_, ?_⟩
  · decide +kernel
  · decide +kernel
  · apply hset 1 (by decide +kernel) _ (by decide)
    intro _
    decide +kernel
  · apply hinsert 3 _ (by decide +kernel) (by decide)
    intro _
    decide +kernel
  · apply hremove 0 (by decide +kernel)
    intro _
    decide +kernel

end Cache

end Highlighter
