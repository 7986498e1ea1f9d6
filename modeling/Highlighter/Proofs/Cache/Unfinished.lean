import Highlighter.Language.Builtin
import Highlighter.Proofs.Cache.LineList
import Highlighter.Proofs.Cache.Progress

/-!
# Operations in the middle of a build

A change of settings takes an unfinished build to its end before it builds the document
again, so that it keeps every line of the text. A rebuild does not: it takes the lines that
the build has completed so far for the whole document, and the others are gone.
-/

namespace Highlighter

namespace Cache

/-- The cache is complete and has these lines. -/
def Holds (c : Cache) (lines : List Text) : Prop := c.complete = true ∧ c.rawLines = lines

theorem Refines.holds {c : Cache} {m : LineList} (h : c.Refines m) (hc : c.complete = true) :
    c.Holds m.lines :=
  ⟨hc, h.rawLines_of_complete hc⟩

theorem Refines.buildAll {c : Cache} {m : LineList} (h : c.Refines m) (counts : List Nat) :
    (c.buildAll counts).Refines m := by
  induction counts generalizing c with
  | nil => exact h
  | cons count counts ih => exact ih (h.buildNext count)

theorem holds_rebuild {c : Cache} (nf : c.language.NewlineFree) (hne : c.rawLines ≠ [])
    (hb : ∀ l ∈ c.rawLines, l.hasBreak = false) : c.rebuild.Holds c.rawLines := by
  refine ⟨complete_build c c.text, ?_⟩
  rw [rebuild, rawLines_build nf, text_eq, Terminator.lines_joinLines _ hne hb]

section Unfinished
variable {c : Cache} {text : Text} {counts : List Nat}
  (hu : ((c.begin text).buildAll counts).complete = false)
include hu

/-- Calls that leave the build unfinished stop before the end of the text. -/
theorem rest_of_unfinished (hne : counts ≠ []) :
    ((c.begin text).scanner.cursorAt counts.sum).rest ≠ [] := by
  intro hr
  have hview := view_buildAll_begin c text hne hr
  have hc : ((c.begin text).buildAll counts).complete = (c.build text).complete :=
    congrArg View.complete hview
  rw [hu, complete_build] at hc
  cases hc

variable (nf : c.language.NewlineFree)
include nf

theorem sum_lt_of_unfinished (hne : counts ≠ []) : counts.sum < text.lines.length := by
  have hwhole : (c.begin text).scanner.wholeBlocks.lines.map Blocks.concat = text.lines :=
    lines_scan (.inl nf)
  have hlen := congrArg List.length hwhole
  rw [List.length_map, Blocks.length_lines, Blocks.lineCount] at hlen
  have hle : ¬ (c.begin text).scanner.wholeBlocks.breaks < counts.sum := by
    intro hlt
    exact rest_of_unfinished hu hne (Scanner.rest_cursorAt_iff.2 (.inl hlt))
  omega

theorem rawLines_unfinished :
    ((c.begin text).buildAll counts).rawLines =
      if counts.sum = 0 then [[]] else text.lines.take counts.sum := by
  cases hcounts : counts with
  | nil =>
    -- No call was made, and the line that stands in is all there is.
    show ((c.begin text).lines).map Line.raw = [[]]
    rw [lines_begin]
    rfl
  | cons count rest =>
    have hne : counts ≠ [] := by simp [hcounts]
    rw [← hcounts]
    have hr := rest_of_unfinished hu hne
    have hpaused := paused_buildAll_begin c text hr
    have hlang : ((c.begin text).buildAll counts).language = c.language :=
      congrArg Setup.language (setup_buildAll (c.begin text) counts)
    have hwhole : ((((c.begin text).buildAll counts).wholeBlocks).toLines
        ((c.begin text).buildAll counts).markup).map Line.raw = text.lines := by
      rw [Blocks.raw_toLines, wholeBlocks_buildAll]
      exact lines_scan (.inl nf)
    rw [rawLines, hpaused.lines_eq (by rwa [cursorAt_buildAll])]
    split
    · rfl
    · rw [List.map_take, hwhole]

/-- A rebuild takes the lines completed so far for the whole document. -/
theorem holds_rebuild_unfinished :
    ((c.begin text).buildAll counts).rebuild.Holds
      (if counts.sum = 0 then [[]] else text.lines.take counts.sum) := by
  have hlang : ((c.begin text).buildAll counts).language = c.language :=
    congrArg Setup.language (setup_buildAll (c.begin text) counts)
  rw [← rawLines_unfinished hu nf]
  apply holds_rebuild
  · rwa [hlang]
  · rw [rawLines_unfinished hu nf]
    split
    · exact List.cons_ne_nil _ _
    · simp [List.take_eq_nil_iff, Text.lines_ne_nil, *]
  · intro l hl
    rw [rawLines_unfinished hu nf] at hl
    split at hl
    · rw [List.mem_singleton.1 hl]
      rfl
    · exact Text.hasBreak_of_mem_lines (List.mem_of_mem_take hl)

end Unfinished

/-- In the middle of a build, finishing and every change of settings leave a complete document
of all the lines of the text. A rebuild leaves one of the lines completed so far, or of one
empty line, and so it never leaves all of them unless the text is empty. -/
theorem retokenize_unfinished {c : Cache} (nf : c.language.NewlineFree) {text : Text}
    {counts : List Nat} (hu : ((c.begin text).buildAll counts).complete = false) :
    let d := (c.begin text).buildAll counts
    d.finish.Holds text.lines ∧
      (∀ language : Language, language.NewlineFree → (d.setLanguage language).Holds text.lines) ∧
      (∀ markup, (d.setMarkup markup).Holds text.lines) ∧
      (∀ highlight, (d.setHighlight highlight).Holds text.lines) ∧
      d.rebuild.Holds (if counts.sum = 0 then [[]] else text.lines.take counts.sum) ∧
      (d.rebuild.rawLines = text.lines ↔ text = []) := by
  intro d
  let m : LineList := { lines := text.lines, terminator := c.terminator }
  have hd : d.Refines m := (refines_begin nf text).buildAll counts
  have hrebuild := holds_rebuild_unfinished hu nf
  refine ⟨hd.finish.holds hd.complete_finish, ?_, ?_, ?_, ?_, ?_⟩
  · intro language hl
    have hset : Agrees (d.perform (.setLanguage language)) (m.perform (.setLanguage language)) :=
      hd.perform hl
    exact hset.refines.holds (complete_build _ _)
  · intro markup
    have hset : Agrees (d.perform (.setMarkup markup)) (m.perform (.setMarkup markup)) :=
      hd.perform trivial
    exact hset.refines.holds (complete_build _ _)
  · intro highlight
    have hset : Agrees (d.perform (.setHighlight highlight)) (m.perform (.setHighlight highlight)) :=
      hd.perform trivial
    exact hset.refines.holds (complete_build _ _)
  · exact hrebuild
  · rw [hrebuild.2]
    split
    · rw [eq_comm, Text.lines_eq_nil_line_iff]
    · rename_i hsum
      have hcounts : counts ≠ [] := by
        rintro rfl
        exact hsum rfl
      have hlt := sum_lt_of_unfinished hu nf hcounts
      constructor
      · intro htake
        have hlen := congrArg List.length htake
        rw [List.length_take] at hlen
        omega
      · rintro rfl
        have hone : counts.sum < 1 := hlt
        omega

/-- A build of three lines, stopped after the first. -/
theorem retokenize_unfinished_first_line :
    let c := new { blockComment := some ("/*".toList, "*/".toList) } .plain
    let d := (c.begin "a /*\nb\nc".toList).buildAll [0, 1]
    c.language.NewlineFree ∧ d.complete = false ∧
      d.finish.Holds ["a /*".toList, "b".toList, "c".toList] ∧
      (d.setLanguage {}).Holds ["a /*".toList, "b".toList, "c".toList] ∧
      (d.setHighlight false).Holds ["a /*".toList, "b".toList, "c".toList] ∧
      d.rebuild.Holds ["a /*".toList] := by
  intro c d
  have nf : c.language.NewlineFree := by decide
  have nf' : Language.NewlineFree {} := by decide
  have hu : d.complete = false := by decide +kernel
  obtain ⟨hfinish, hlanguage, -, hhighlight, hrebuild, -⟩ := retokenize_unfinished nf hu
  exact ⟨nf, hu, hfinish, hlanguage {} nf', hhighlight false, hrebuild⟩

/-- A rebuild of a document of three lines, of which one has been built, leaves that one. -/
theorem rebuild_unfinished_drops_lines :
    let text : Text := "a\nb\nc".toList
    let c := ((new Language.c .plain).begin text).buildNext 1
    c.complete = false ∧ c.rebuild.complete = true ∧ c.rebuild.rawLines = ["a".toList] ∧
      c.rebuild.rawLines ≠ text.lines := by
  decide +kernel

end Cache

end Highlighter
