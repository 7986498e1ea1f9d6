import Highlighter.Language.Builtin
import Highlighter.Proofs.Cache.Operation
import Highlighter.Proofs.Markup.Strip

/-!
# Lines and their markup

The two forms of a line come from the same blocks, written under the markup that the cache
has now: so it is for every line of a cache after every run of operations. A line with line
ends in it never stays, since its edit builds the document again. So taking the markup off
a formatted line leaves its text.
-/

namespace Highlighter

namespace Line

/-- Some blocks have the text of the line for their contents and its other form for their
written form. -/
def IsWritten (markup : Markup) (line : Line) : Prop := ∃ bs, line = ofBlocks markup bs

theorem isWritten_ofBlocks (markup : Markup) (bs : Blocks) : (ofBlocks markup bs).IsWritten markup :=
  ⟨bs, rfl⟩

theorem isWritten_empty (markup : Markup) : empty.IsWritten markup := ⟨[], rfl⟩

theorem IsWritten.strip {markup : Markup} {line : Line} (h : line.IsWritten markup)
    (hm : markup.isBuiltin = true) : markup.strip line.formatted = line.raw := by
  obtain ⟨bs, rfl⟩ := h
  exact Markup.strip_writeAll hm bs

end Line

namespace Cache

def Written (c : Cache) : Prop := ∀ line ∈ c.lines, line.IsWritten c.markup

/-! ### Builds -/

theorem written_build (c : Cache) (text : Text) : (c.build text).Written := by
  intro line hl
  have hm : (c.build text).markup = c.markup := congrArg Setup.markup (setup_build c text)
  rw [lines_build] at hl
  rw [hm]
  exact Blocks.exists_ofBlocks_of_mem_toLines hl

theorem written_of_lines_eq_empty {c : Cache} (h : c.lines = [Line.empty]) : c.Written := by
  intro line hl
  rw [h, List.mem_singleton] at hl
  rw [hl]
  exact Line.isWritten_empty _

theorem written_begin (c : Cache) (text : Text) : (c.begin text).Written :=
  written_of_lines_eq_empty (lines_begin c text)

theorem Written.buildNext {c : Cache} (h : c.Written) (hs : c.Sound) (count : Nat) :
    (c.buildNext count).Written := by
  cases hc : c.complete with
  | true =>
    rw [buildNext_of_complete hc]
    exact h
  | false =>
    have hm : (c.buildNext count).markup = c.markup :=
      congrArg Setup.markup (setup_buildNext count c)
    have hgather : c.linesAfter count = (Assembler.gather c.markup (c.scannerAfter count).finished
        (c.scannerAfter count).blocks .empty).1 := by
      rw [(hs hc).gather_scannerAfter]
    intro line hl
    rw [lines_buildNext hc] at hl
    rw [hm]
    split at hl
    · rw [List.mem_singleton] at hl
      rw [hl]
      exact Line.isWritten_empty _
    · rw [hgather] at hl
      exact Blocks.exists_ofBlocks_of_mem_gather hl

theorem Written.finish {c : Cache} (h : c.Written) (hs : c.Sound) : c.finish.Written :=
  h.buildNext hs _

/-! ### Edits -/

/-- The lines of an edited cache need to be written only if nothing is built again. -/
theorem written_settle {c : Cache} {rebuild : Bool} (h : rebuild = false → c.Written) :
    (c.settle rebuild).Written := by
  cases rebuild with
  | true => exact written_build c c.text
  | false => exact h rfl

section Edits
variable {c : Cache} (h : c.Written) {index : Nat}
include h

theorem Written.putLine {value : Text} (hb : value.hasBreak = false) :
    (c.putLine index value).Written := by
  intro line hl
  rw [lines_putLine] at hl
  rcases List.mem_or_eq_of_mem_set hl with hl | rfl
  · exact h line hl
  · rw [readLine_of_no_break c hb]
    exact Line.isWritten_ofBlocks _ _

theorem Written.spliceLine {value : Text} (hb : value.hasBreak = false)
    (hi : index ≤ c.lines.length) : (c.spliceLine index value).Written := by
  intro line hl
  rw [lines_spliceLine] at hl
  rcases (List.mem_insertIdx hi).1 hl with rfl | hl
  · rw [readLine_of_no_break c hb]
    exact Line.isWritten_ofBlocks _ _
  · exact h line hl

theorem Written.dropLine : (c.dropLine index).Written := by
  intro line hl
  rw [lines_dropLine] at hl
  split at hl
  · rw [List.mem_singleton] at hl
    rw [hl]
    exact Line.isWritten_empty _
  · exact h line (List.mem_of_mem_eraseIdx hl)

end Edits

/-! ### Runs -/

theorem Written.perform {c : Cache} (h : c.Written) (hs : c.Sound) (op : Operation) :
    (c.perform op).1.Written := by
  have hfinish : c.finish.Written := h.finish hs
  cases op with
  | build text => exact written_build c text
  | «begin» text => exact written_begin c text
  | buildNext count => exact h.buildNext hs count
  | finish => exact hfinish
  | setLine index value rebuild =>
    rw [Cache.perform, setLine_eq]
    split
    · refine written_settle fun hr => ?_
      rw [Bool.or_eq_false_iff] at hr
      exact hfinish.putLine hr.2
    · exact hfinish
  | insertAt index value rebuild =>
    rw [Cache.perform, insertAt_eq]
    split
    · rename_i hi
      refine written_settle fun hr => ?_
      rw [Bool.or_eq_false_iff] at hr
      exact hfinish.spliceLine hr.2 hi
    · exact hfinish
  | removeAt index rebuild =>
    rw [Cache.perform, removeAt_eq]
    split
    · exact written_settle fun _ => hfinish.dropLine
    · exact hfinish
  | rebuild => exact written_build c c.text
  | clear => exact written_of_lines_eq_empty rfl
  | setLanguage language => exact written_build _ _
  | setMarkup markup => exact written_build _ _
  | setHighlight highlight => exact written_build _ _
  | setTerminator terminator => exact h
  | setTabWidth tabWidth => exact h
  | emptyLike => exact written_of_lines_eq_empty rfl

theorem Reachable.written {c : Cache} (h : c.Reachable) : c.Written := by
  induction h with
  | new language markup => exact written_of_lines_eq_empty rfl
  | perform op hr ih => exact ih.perform hr.sound op

/-- Taking markup off undoes writing it: for any blocks side by side, and so for every line
that a cache holds, under the markup that it has then. -/
theorem strip_undoes_markup {markup : Markup} (hm : markup.isBuiltin = true) :
    (∀ bs : Blocks, markup.strip (markup.writeAll bs) = bs.concat) ∧
      ∀ c : Cache, c.Reachable → c.markup = markup →
        ∀ line ∈ c.lines, markup.strip line.formatted = line.raw := by
  refine ⟨Markup.strip_writeAll hm, ?_⟩
  rintro c hc rfl line hl
  exact (hc.written line hl).strip hm

/-- Content that looks like sequences and like their pictures, in the middle of a build. -/
theorem strip_undoes_markup_ansi :
    let markup : Markup := .ansi {}
    let text : Text := "\"\x1b[0m\" \u241b\u2060\n\x1b".toList
    let c := ((new Language.c markup).begin text).buildNext 1
    markup.isBuiltin = true ∧ c.Reachable ∧ c.markup = markup ∧ c.complete = false ∧
      c.lines.map Line.raw = ["\"\x1b[0m\" \u241b\u2060".toList] ∧
      c.lines.map Line.formatted = ["\x1b[38;2;214;157;133m\"\u241b\u2060[0m\"\x1b[0m ".toList ++
        "\u241b\u241b\u2060".toList] ∧
      (∀ line ∈ c.lines, markup.strip line.formatted = line.raw) ∧
      markup.strip (markup.writeAll [⟨.string, text⟩, ⟨.default, text⟩]) = text ++ text := by
  intro markup text c
  have hm : markup.isBuiltin = true := rfl
  have hc : c.Reachable := .perform (.buildNext 1) (.perform (.begin text) (.new _ markup))
  have hmarkup : c.markup = markup :=
    congrArg Setup.markup (setup_buildNext 1 ((new Language.c markup).begin text))
  obtain ⟨hblocks, hlines⟩ := strip_undoes_markup hm
  refine ⟨hm, hc, hmarkup, ?_, ?_, ?_, hlines c hc hmarkup, ?_⟩
  · decide +kernel
  · decide +kernel
  · decide +kernel
  · have hpair := hblocks [⟨.string, text⟩, ⟨.default, text⟩]
    rw [hpair]
    rfl

end Cache

end Highlighter
