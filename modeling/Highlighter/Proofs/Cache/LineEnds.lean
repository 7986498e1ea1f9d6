import Highlighter.Proofs.Cache.LineEdit

/-!
# Builds and line ends

A build shows the lines of a text and not what ends them: texts with the same lines give
caches that show the same, `build_forgets_lineEnds`. The text of a cache has its lines, so
building it again changes nothing.
-/

namespace Highlighter

/-! ### Measures, line by line -/

namespace Blocks

variable {bs cs : Blocks} (h : bs.lines = cs.lines)
include h

theorem toLines_congr (markup : Markup) : bs.toLines markup = cs.toLines markup := by
  rw [toLines_eq, toLines_eq, h]

theorem maxWidth_congr (ruler : Ruler) : bs.maxWidth ruler = cs.maxWidth ruler := by
  rw [maxWidth, maxWidth, h]

theorem codeLineCount_congr : bs.codeLineCount = cs.codeLineCount := by
  rw [codeLineCount, codeLineCount, h]

end Blocks

theorem lines_scan_congr {lang : Language} (nf : lang.NewlineFree)
    (hl : lang.charLookahead = false) (highlight : Bool) {t u : Text} (h : t.lines = u.lines) :
    (scan lang highlight t).lines = (scan lang highlight u).lines := by
  rw [lines_scan_lineReader nf hl, lines_scan_lineReader nf hl, h]

namespace Cache

/-- The caches have the same lines, with markup and without, and the same measures. -/
def ShowsSame (c d : Cache) : Prop :=
  c.lines = d.lines ∧ c.width = d.width ∧ c.codeLines = d.codeLines

theorem ShowsSame.trans {c d e : Cache} (h : c.ShowsSame d) (h' : d.ShowsSame e) :
    c.ShowsSame e :=
  ⟨h.1.trans h'.1, h.2.1.trans h'.2.1, h.2.2.trans h'.2.2⟩

theorem showsSame_of_view {c d : Cache} (h : c.view = d.view) : c.ShowsSame d :=
  ⟨congrArg View.lines h, congrArg View.width h, congrArg View.codeLines h⟩

theorem terminator_of_setup {c d : Cache} (h : c.setup = d.setup) : c.terminator = d.terminator :=
  congrArg Setup.terminator h

/-- A rebuild of a build shows what the cache would show after building its text at once. -/
theorem showsSame_rebuild_build (c : Cache) (t : Text) :
    (c.build t).rebuild.ShowsSame (c.build (c.build t).text) := by
  apply showsSame_of_view
  rw [rebuild, view_build, view_build, setup_build]

section Builds
variable {c : Cache} (nf : c.language.NewlineFree)
include nf

theorem rawLines_build_congr {t u : Text} (h : t.lines = u.lines) :
    (c.build t).rawLines = (c.build u).rawLines := by
  rw [rawLines_build nf, rawLines_build nf, h]

theorem showsSame_build (hl : c.language.charLookahead = false) {t u : Text}
    (h : t.lines = u.lines) : (c.build t).ShowsSame (c.build u) := by
  have hscan := lines_scan_congr nf hl c.highlight h
  refine ⟨?_, ?_, ?_⟩
  · rw [lines_build, lines_build, Blocks.toLines_congr hscan]
  · rw [width_build, width_build, Blocks.maxWidth_congr hscan]
  · rw [codeLines_build, codeLines_build, Blocks.codeLineCount_congr hscan]

/-- Whatever ended the lines of the text, the terminator of the cache ends them now. -/
theorem lines_text_build (t : Text) : (c.build t).text.lines = t.lines := by
  rw [text_eq, rawLines_build nf]
  exact Terminator.lines_joinLines _ (Text.lines_ne_nil t) fun _ hm => Text.hasBreak_of_mem_lines hm

theorem rawLines_rebuild_build (t : Text) :
    (c.build t).rebuild.rawLines = (c.build t).rawLines := by
  rw [rawLines, (showsSame_rebuild_build c t).1]
  exact rawLines_build_congr nf (lines_text_build nf t)

theorem text_rebuild_build (t : Text) : (c.build t).rebuild.text = (c.build t).text := by
  have hterm := terminator_of_setup (setup_rebuild (c.build t))
  rw [text_eq, text_eq, hterm, rawLines_rebuild_build nf]

end Builds

/-- Line ends leave no trace in a build. Texts with the same lines give the same lines and,
without lookahead, the same markup and measures. The text of a build has the lines of the text
that was built, and a rebuild from it shows the same again. -/
theorem build_forgets_lineEnds {c : Cache} (nf : c.language.NewlineFree) :
    (∀ t u : Text, t.lines = u.lines →
      (c.build t).rawLines = (c.build u).rawLines ∧
      (c.language.charLookahead = false → (c.build t).ShowsSame (c.build u))) ∧
    (∀ (terminator : Terminator) (t : Text),
      let d := (c.setTerminator terminator).build t
      d.text.lines = t.lines ∧ d.rebuild.rawLines = d.rawLines ∧ d.rebuild.text = d.text ∧
      (c.language.charLookahead = false → d.rebuild.ShowsSame d)) := by
  refine ⟨?_, ?_⟩
  · intro t u h
    exact ⟨rawLines_build_congr nf h, fun hl => showsSame_build nf hl h⟩
  · intro terminator t d
    have nf' : (c.setTerminator terminator).language.NewlineFree := nf
    have hlines := lines_text_build nf' t
    have hraw := rawLines_rebuild_build nf' t
    have htext := text_rebuild_build nf' t
    have hshows := showsSame_rebuild_build (c.setTerminator terminator) t
    exact ⟨hlines, hraw, htext, fun hl => hshows.trans (showsSame_build nf' hl hlines)⟩

/-- A comment over line ends of three kinds, next to an empty line and at the end. -/
theorem build_forgets_lineEnds_mixed :
    let lang : Language := { blockComment := some ("/*".toList, "*/".toList) }
    let c := new lang (.richText {})
    let t : Text := "a /*\r\r\nb */\"c\n".toList
    let u : Text := "a /*\n\nb */\"c\r\n".toList
    let d := (c.setTerminator .crlf).build t
    c.language.NewlineFree ∧ c.language.charLookahead = false ∧ t.lines = u.lines ∧
      (c.build t).rawLines = (c.build u).rawLines ∧ (c.build t).ShowsSame (c.build u) ∧
      d.text.lines = t.lines ∧ d.rebuild.text = d.text ∧ d.rebuild.ShowsSame d := by
  intro lang c t u d
  have nf : c.language.NewlineFree := by decide
  have hlines : t.lines = u.lines := by decide
  obtain ⟨hsame, hagain⟩ := build_forgets_lineEnds nf
  obtain ⟨hraw, hshows⟩ := hsame t u hlines
  obtain ⟨hcut, -, htext, hrebuild⟩ := hagain .crlf t
  exact ⟨nf, rfl, hlines, hraw, hshows rfl, hcut, htext, hrebuild rfl⟩

end Cache

end Highlighter
