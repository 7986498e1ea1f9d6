import Highlighter.Language.Builtin
import Highlighter.Proofs.Scanner.Pass
import Highlighter.Proofs.Text.Replace

/-!
# Replacing a line of a scanned text

A scanner that replaces a line cuts its bytes out of the text and puts the new line there.
`setLine?_replaces_line`: the lines are the old ones with the new one in its place, each with
the end it had, unless an empty line leaves an LF behind a bare CR. Then the two are one
CRLF, and one line is gone; no text could hold the lines and the ends apart.
-/

namespace Highlighter.Scanner

theorem text_setLine? {s t : Scanner} {index : Nat} {value : Text}
    (h : s.setLine? index value = some t) : t.text = s.text.replaceLine index value := by
  unfold setLine? at h
  split at h
  · have ht : t = (s.setText (s.text.replaceLine index value)).finish := (Option.some.inj h).symm
    obtain ⟨-, -, htext⟩ := settings_finish (s.setText (s.text.replaceLine index value))
    rw [ht, htext]
    rfl
  · cases h

theorem setLine?_replaces_line {s : Scanner} {index : Nat} {value : Text}
    (hindex : index < s.text.lines.length) (hvalue : value.hasBreak = false) :
    ∃ t, s.setLine? index value = some t ∧
      (∃ behind line ahead, s.text = behind ++ (line ++ ahead) ∧
        s.text.lines[index]? = some line ∧
        s.text.lineSpans[index]? = some (behind.byteSize, behind.byteSize + line.byteSize) ∧
        t.text = behind ++ (value ++ ahead)) ∧
      (¬ s.text.FusesAt index value →
        t.text.lines = s.text.lines.set index value ∧ t.text.lineEnds = s.text.lineEnds) ∧
      (s.text.FusesAt index value →
        t.text.lines = s.text.lines.eraseIdx index ∧
        t.text.lineEnds = (s.text.lineEnds.set (index - 1) ['\r', '\n']).eraseIdx index ∧
        ∀ u : Text, ¬ (u.lines = s.text.lines.set index value ∧ u.lineEnds = s.text.lineEnds)) := by
  have hset : s.setLine? index value =
      some (s.setText (s.text.replaceLine index value)).finish := if_pos hindex
  have htext := text_setLine? hset
  refine ⟨_, hset, ?_, ?_, ?_⟩
  · rw [htext]
    exact Text.exists_cut hindex value
  · intro hfuse
    rw [htext]
    exact Text.lines_replaceLine hindex hvalue hfuse
  · intro hfuse
    obtain ⟨hlines, hends⟩ := Text.lines_replaceLine_of_fusesAt hfuse
    rw [htext]
    exact ⟨hlines, hends, Text.lines_ne_set_of_fusesAt hfuse⟩

theorem setLine?_replaces_line_mixed :
    ∃ t, (start Language.c true "a\r\nb\rc\n".toList).setLine? 2 "/* x".toList = some t ∧
      t.text.lines = ["a".toList, "b".toList, "/* x".toList, []] ∧
      t.text.lineEnds = [['\r', '\n'], ['\r'], ['\n'], []] := by
  obtain ⟨t, hset, -, hkeep, -⟩ :=
    @setLine?_replaces_line (start Language.c true "a\r\nb\rc\n".toList) 2 "/* x".toList
      (by decide) (by decide)
  obtain ⟨hlines, hends⟩ := hkeep fun hfuse => absurd hfuse.1 (by decide)
  refine ⟨t, hset, hlines.trans ?_, hends.trans ?_⟩
  · decide
  · decide

/-- Emptying the middle line of CR, x, LF leaves a CRLF, and a text of two lines. -/
theorem setLine?_fuses_line_ends : ¬ ∀ (s : Scanner) (index : Nat) (value : Text),
    index < s.text.lines.length → value.hasBreak = false →
      ∃ t, s.setLine? index value = some t ∧ t.text.lines = s.text.lines.set index value ∧
        t.text.lineEnds = s.text.lineEnds := by
  intro h
  obtain ⟨t, hset, hlines, -⟩ := h (start Language.c true "\rx\n".toList) 1 [] (by decide) rfl
  rw [text_setLine? hset] at hlines
  have hlength := congrArg List.length hlines
  revert hlength
  decide

end Highlighter.Scanner
