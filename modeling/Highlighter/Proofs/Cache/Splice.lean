import Highlighter.Language.Builtin
import Highlighter.Proofs.Cache.LineList
import Highlighter.Proofs.Cache.Rebuild
import Highlighter.Proofs.Text.Replace
import Highlighter.Proofs.Text.Terminator

/-!
# Edits of several lines

An edit puts its text in as one line, and the document is joined and cut again. Joined with
what follows, the text keeps its own lines but in one case: a bare CR at its end and the LF
written behind it are one CRLF. `edit_splices_lines` gives the lines after an edit, and
`edit_drops_line` a text of two lines of which only one arrives.
-/

namespace Highlighter

/-! ### Lines around a line end -/

namespace Text

/-- A line end parts the lines, unless it is an LF behind a bare CR. -/
theorem lines_append_lineEnd {t ending rest : Text} (hend : lineEnd? (ending ++ rest) = some ending)
    (hcr : ending = ['\n'] → t.getLast? ≠ some '\r') :
    lines (t ++ (ending ++ rest)) = lines t ++ lines rest := by
  induction t using segments_induction with
  | last t ht => rw [lines_line ht hend, lines_of_hasBreak_eq_false ht, List.singleton_append]
  | line content ending' rest' hcon hend' ih =>
    have hnext : lineEnd? (ending' ++ (rest' ++ (ending ++ rest))) = some ending' := by
      rw [lineEnd?_append_iff] at hend' ⊢
      refine ⟨hend'.1, fun he => ?_⟩
      cases rest' with
      | cons c rest' => exact hend'.2 he
      | nil =>
        obtain ⟨rfl | rfl | rfl, -⟩ := lineEnd?_append_iff.1 hend
        · simp [he] at hcr
        · simp
        · simp
    have hlast : ending = ['\n'] → rest'.getLast? ≠ some '\r' := by
      intro he hr
      apply hcr he
      simp [hr]
    rw [List.append_assoc, List.append_assoc, lines_line hcon hnext, ih hlast,
      lines_line hcon hend', List.cons_append]

theorem lines_concat_cr (t : Text) : lines (t ++ ['\r']) = lines t ++ [[]] := by
  have hend : lineEnd? (['\r'] ++ []) = some ['\r'] := rfl
  have hne : ['\r'] ≠ ['\n'] := by decide
  exact lines_append_lineEnd hend fun he => absurd he hne

end Text

namespace Terminator
variable (terminator : Terminator)

/-- The lines of a text in front of others, which the terminator parts from it. -/
def linesBefore (value : Text) (after : List Text) : List Text :=
  if after ≠ [] ∧ terminator = .lf ∧ value.getLast? = some '\r' then value.lines.dropLast
  else value.lines

theorem lines_joinLines_value (value : Text) {after : List Text}
    (hafter : ∀ l ∈ after, l.hasBreak = false) :
    (terminator.joinLines (value :: after)).lines = terminator.linesBefore value after ++ after := by
  by_cases hne : after = []
  · rw [hne, joinLines_singleton, linesBefore, if_neg (fun h => h.1 rfl), List.append_nil]
  · have hrest : (terminator.joinLines after).lines = after := lines_joinLines _ hne hafter
    rw [joinLines_cons _ value hne, linesBefore]
    by_cases hcr : terminator = .lf ∧ value.getLast? = some '\r'
    · obtain ⟨rfl, hlast⟩ := hcr
      obtain ⟨front, rfl⟩ := List.getLast?_eq_some_iff.1 hlast
      have hcrlf : front ++ ['\r'] ++ (lf.text ++ lf.joinLines after) =
          front ++ (crlf.text ++ lf.joinLines after) := by
        simp [text]
      have hlines := Text.lines_append_lineEnd (t := front)
        (crlf.lineEnd?_text_append (lf.joinLines after)) fun he => by cases he
      rw [if_pos ⟨hne, rfl, hlast⟩, hcrlf, hlines, hrest, Text.lines_concat_cr,
        List.dropLast_concat]
    · have hlast : terminator.text = ['\n'] → value.getLast? ≠ some '\r' := by
        intro htext hlast
        refine hcr ⟨?_, hlast⟩
        cases terminator with
        | lf => rfl
        | crlf => cases htext
      rw [if_neg (fun h => hcr h.2), Text.lines_append_lineEnd (lineEnd?_text_append ..) hlast,
        hrest]

theorem lines_joinLines_splice {before after : List Text} (value : Text)
    (hbefore : ∀ l ∈ before, l.hasBreak = false) (hafter : ∀ l ∈ after, l.hasBreak = false) :
    (terminator.joinLines (before ++ value :: after)).lines =
      before ++ terminator.linesBefore value after ++ after := by
  induction before with
  | nil => exact lines_joinLines_value terminator value hafter
  | cons l before ih =>
    have hrest := ih fun x hx => hbefore x (List.mem_cons_of_mem _ hx)
    have hl : l.hasBreak = false := hbefore l (List.mem_cons_self ..)
    rw [List.cons_append, joinLines_cons _ l (by simp), Text.lines_line hl
      (lineEnd?_text_append ..), hrest]
    rfl

end Terminator

/-! ### Edits -/

theorem LineList.lines_resplit {m : LineList} {value : Text} (hne : m.lines ≠ [])
    (hb : value.hasBreak = false → ∀ l ∈ m.lines, l.hasBreak = false) :
    (m.resplit value).lines = m.text.lines := by
  cases hv : value.hasBreak with
  | true => rw [resplit, if_pos hv]
  | false =>
    have hw : m.WellFormed := ⟨hne, hb hv⟩
    rw [resplit, if_neg (by simp [hv]), hw.lines_text]

namespace Cache

theorem language_perform (c : Cache) (op : Operation) :
    (c.perform op).1.language = match op with
      | .setLanguage language => language
      | _ => c.language := by
  cases op with
  | build text => exact congrArg Setup.language (setup_build c text)
  | «begin» text => rfl
  | buildNext count => exact congrArg Setup.language (setup_buildNext count c)
  | finish => exact congrArg Setup.language (setup_finish c)
  | setLine index value rebuild => exact congrArg Setup.language (setup_setLine ..)
  | insertAt index value rebuild => exact congrArg Setup.language (setup_insertAt ..)
  | removeAt index rebuild => exact congrArg Setup.language (setup_removeAt ..)
  | rebuild => exact congrArg Setup.language (setup_rebuild c)
  | clear => exact congrArg Setup.language (setup_clear c)
  | setLanguage language => exact congrArg Setup.language (setup_setLanguage c language)
  | setMarkup markup => exact congrArg Setup.language (setup_setMarkup c markup)
  | setHighlight highlight => exact congrArg Setup.language (setup_setHighlight c highlight)
  | setTerminator terminator => rfl
  | setTabWidth tabWidth => rfl
  | emptyLike => rfl

/-- Whatever languages a cache had before, with one whose marks have no line ends it is a
list of lines. -/
theorem Reachable.exists_refines {c : Cache} (h : c.Reachable) (nf : c.language.NewlineFree) :
    ∃ m, c.Refines m := by
  induction h with
  | new language markup => exact ⟨_, refines_new nf markup⟩
  | @perform c op _ ih =>
    rw [language_perform] at nf
    cases op with
    | setLanguage language =>
      have hset : { c.finish with
          scanner := c.finish.scanner.setLanguage language
          scratch := c.finish.scratch.setLanguage language }.language = language := rfl
      exact ⟨_, refines_build (hset ▸ nf) _⟩
    | rebuild => exact ⟨_, refines_build nf c.text⟩
    | _ =>
      obtain ⟨m, hm⟩ := ih nf
      refine ⟨_, Agrees.refines (hm.perform ?_)⟩
      exact trivial

section Edits
variable {c : Cache} {m : LineList} {index : Nat} (value : Text) (rebuild : Bool)

theorem Refines.setLine_inRange (h : c.Refines m) (hi : index < m.lines.length) :
    (c.setLine index value rebuild).2 = none ∧ (c.setLine index value rebuild).1.rawLines =
      (m.terminator.joinLines (m.lines.set index value)).lines := by
  obtain ⟨hrefines, herror⟩ := h.setLine index value rebuild
  have hperform : m.perform (.setLine index value rebuild) =
      (({ m with lines := m.lines.set index value } : LineList).resplit value, none) := by
    rw [LineList.perform, LineList.edit, decide_eq_true hi, if_pos rfl]
  rw [hperform] at hrefines herror
  have hcomplete := complete_setLine h.sound index value rebuild
  refine ⟨herror, ?_⟩
  rw [hrefines.rawLines_of_complete hcomplete, LineList.lines_resplit]
  · rfl
  · simpa using h.wellFormed.1
  · intro hv l hl
    rcases List.mem_or_eq_of_mem_set hl with hl | rfl
    · exact h.wellFormed.2 l hl
    · exact hv

theorem Refines.insertAt_inRange (h : c.Refines m) (hi : index ≤ m.lines.length) :
    (c.insertAt index value rebuild).2 = none ∧ (c.insertAt index value rebuild).1.rawLines =
      (m.terminator.joinLines (m.lines.insertIdx index value)).lines := by
  obtain ⟨hrefines, herror⟩ := h.insertAt index value rebuild
  have hperform : m.perform (.insertAt index value rebuild) =
      (({ m with lines := m.lines.insertIdx index value } : LineList).resplit value, none) := by
    rw [LineList.perform, LineList.edit, decide_eq_true hi, if_pos rfl]
  rw [hperform] at hrefines herror
  have hcomplete := complete_insertAt h.sound index value rebuild
  refine ⟨herror, ?_⟩
  rw [hrefines.rawLines_of_complete hcomplete, LineList.lines_resplit]
  · rfl
  · intro hnil
    have hlen : (m.lines.insertIdx index value).length = m.lines.length + 1 :=
      List.length_insertIdx_of_le_length hi value
    have hzero : (m.lines.insertIdx index value).length = 0 := congrArg List.length hnil
    omega
  · intro hv l hl
    rcases (List.mem_insertIdx hi).1 hl with rfl | hl
    · exact hv
    · exact h.wellFormed.2 l hl

end Edits

/-- An edit of a complete document puts the lines of its text in the place of the line, or in
front of it. A bare CR at the end of the text closes no line if an LF comes to stand behind it. -/
theorem edit_splices_lines {c : Cache} (hr : c.Reachable) (nf : c.language.NewlineFree)
    (hc : c.complete = true) (index : Nat) (value : Text) (rebuild : Bool) :
    (index < c.rawLines.length →
      (c.setLine index value rebuild).2 = none ∧
        (c.setLine index value rebuild).1.rawLines = c.rawLines.take index ++
          c.terminator.linesBefore value (c.rawLines.drop (index + 1)) ++
          c.rawLines.drop (index + 1)) ∧
      (index ≤ c.rawLines.length →
        (c.insertAt index value rebuild).2 = none ∧
          (c.insertAt index value rebuild).1.rawLines = c.rawLines.take index ++
            c.terminator.linesBefore value (c.rawLines.drop index) ++ c.rawLines.drop index) := by
  obtain ⟨m, hm⟩ := hr.exists_refines nf
  have hlines : c.rawLines = m.lines := hm.rawLines_of_complete hc
  have hbreak : ∀ l ∈ m.lines, l.hasBreak = false := hm.wellFormed.2
  rw [hlines, hm.terminator]
  constructor
  · intro hi
    obtain ⟨herror, hset⟩ := hm.setLine_inRange value rebuild hi
    refine ⟨herror, ?_⟩
    rw [hset, List.set_eq_take_append_cons_drop, if_pos hi]
    exact Terminator.lines_joinLines_splice _ value (fun l hl => hbreak l (List.mem_of_mem_take hl))
      fun l hl => hbreak l (List.mem_of_mem_drop hl)
  · intro hi
    obtain ⟨herror, hinsert⟩ := hm.insertAt_inRange value rebuild hi
    refine ⟨herror, ?_⟩
    rw [hinsert, insertIdx_eq_take_append_cons_drop hi]
    exact Terminator.lines_joinLines_splice _ value (fun l hl => hbreak l (List.mem_of_mem_take hl))
      fun l hl => hbreak l (List.mem_of_mem_drop hl)

theorem edit_splices_lines_mixed :
    let c := (new Language.c .plain).build "a\nb".toList
    (c.setLine 1 "x\r\ny\r".toList false).1.rawLines =
        ["a".toList, "x".toList, "y".toList, []] ∧
      (c.insertAt 1 "x\ry\n".toList true).1.rawLines =
        ["a".toList, "x".toList, "y".toList, [], "b".toList] := by
  intro c
  have hr : c.Reachable := .perform (.build "a\nb".toList) (.new Language.c .plain)
  have hc : c.complete = true := complete_build _ _
  have nf : Language.c.NewlineFree := by decide
  have hrefines : c.Refines { lines := ["a".toList, "b".toList], terminator := .lf } :=
    refines_build (c := new Language.c .plain) nf "a\nb".toList
  have hlines : c.rawLines = ["a".toList, "b".toList] := hrefines.rawLines_of_complete hc
  obtain ⟨hset, -⟩ := edit_splices_lines hr hrefines.newlineFree hc 1 "x\r\ny\r".toList false
  obtain ⟨-, hinsert⟩ := edit_splices_lines hr hrefines.newlineFree hc 1 "x\ry\n".toList true
  rw [hlines, hrefines.terminator] at hset hinsert
  obtain ⟨-, hset⟩ := hset (by decide)
  obtain ⟨-, hinsert⟩ := hinsert (by decide)
  refine ⟨hset.trans ?_, hinsert.trans ?_⟩
  · decide
  · decide

/-- With an LF between the lines, a text of two lines that ends in a bare CR loses the second. -/
theorem edit_drops_line :
    ¬ ∀ (c : Cache) (index : Nat) (value : Text) (rebuild : Bool), c.Reachable →
      c.language.NewlineFree → c.complete = true → index < c.rawLines.length →
        (c.setLine index value rebuild).1.rawLines =
          c.rawLines.take index ++ value.lines ++ c.rawLines.drop (index + 1) := by
  intro h
  let c := (new Language.c .plain).build "a\nb".toList
  have hr : c.Reachable := .perform (.build "a\nb".toList) (.new Language.c .plain)
  have nf : Language.c.NewlineFree := by decide
  have hrefines : c.Refines { lines := ["a".toList, "b".toList], terminator := .lf } :=
    refines_build (c := new Language.c .plain) nf "a\nb".toList
  have hc : c.complete = true := complete_build _ _
  have hlines : c.rawLines = ["a".toList, "b".toList] := hrefines.rawLines_of_complete hc
  have hi : 0 < c.rawLines.length := by
    rw [hlines]
    decide
  have hclaim := h c 0 "x\r".toList false hr hrefines.newlineFree hc hi
  obtain ⟨-, hset⟩ := hrefines.setLine_inRange "x\r".toList false (show 0 < 2 by decide)
  rw [hset, hlines] at hclaim
  revert hclaim
  decide

end Cache

end Highlighter
