import Highlighter.Proofs.Cache.Operation

/-!
# A cache is a list of lines

Whatever pieces a build came in, whichever records the pool handed out and whether an edit
built the document again: what a run of operations leaves is what the same run leaves of a
plain list of lines. Only `lines_scan` and `lines_joinLines` speak of the text itself, that
scanning moves no line boundary and that cutting undoes joining.
-/

namespace Highlighter

structure LineList where
  lines : List Text := [[]]
  terminator : Terminator := .platform

namespace LineList

def text (m : LineList) : Text := m.terminator.joinLines m.lines

/-- Cuts the lines again after an edit that put in a text with line ends. -/
def resplit (m : LineList) (value : Text) : LineList :=
  if value.hasBreak then { m with lines := m.text.lines } else m

/-- An edit of a line, refused unless the index is in range. -/
def edit (m : LineList) (inRange : Bool) (index : Nat) (lines : List Text) (value : Text) :
    Edited LineList :=
  if inRange then (({ m with lines } : LineList).resplit value, none)
  else (m, some (.outOfRange index m.lines.length))

/-- The operations on lines alone. A build takes the lines of its text at once, and most
of the others leave the lines as they are. -/
def perform (m : LineList) : Operation → Edited LineList
  | .build text | .begin text => ({ m with lines := text.lines }, none)
  | .setLine index value _ =>
    m.edit (index < m.lines.length) index (m.lines.set index value) value
  | .insertAt index value _ =>
    m.edit (index ≤ m.lines.length) index (m.lines.insertIdx index value) value
  | .removeAt index _ =>
    m.edit (index < m.lines.length) index (Cache.withoutLine m.lines index) []
  | .clear | .emptyLike => ({ m with lines := [[]] }, none)
  | .setTerminator terminator => ({ m with terminator }, none)
  | .buildNext _ | .finish | .rebuild | .setLanguage _ | .setMarkup _ | .setHighlight _
  | .setTabWidth _ => (m, none)

def performAll (m : LineList) : List Operation → LineList × List (Option Error)
  | [] => (m, [])
  | op :: ops =>
    let (m, error) := m.perform op
    let (m, errors) := m.performAll ops
    (m, error :: errors)

def WellFormed (m : LineList) : Prop := m.lines ≠ [] ∧ ∀ l ∈ m.lines, l.hasBreak = false

theorem wellFormed_lines (text : Text) (terminator : Terminator) :
    WellFormed { lines := text.lines, terminator } :=
  ⟨Text.lines_ne_nil text, fun _ hl => Text.hasBreak_of_mem_lines hl⟩

theorem wellFormed_empty (terminator : Terminator) :
    WellFormed { lines := [[]], terminator } := by
  refine ⟨by simp, ?_⟩
  intro l hl
  rw [List.mem_singleton] at hl
  rw [hl]
  rfl

theorem WellFormed.lines_text {m : LineList} (h : m.WellFormed) : m.text.lines = m.lines :=
  Terminator.lines_joinLines m.terminator h.1 h.2

end LineList

namespace Cache

/-- The run asks for a rebuild only of a complete document and sets only languages whose
marks have no line ends. -/
def Admissible (c : Cache) : Operation → Prop
  | .rebuild => c.complete = true
  | .setLanguage language => language.NewlineFree
  | _ => True

instance (c : Cache) (op : Operation) : Decidable (c.Admissible op) :=
  match op with
  | .rebuild => inferInstanceAs (Decidable (c.complete = true))
  | .setLanguage language => inferInstanceAs (Decidable language.NewlineFree)
  | .build _ | .begin _ | .buildNext _ | .finish | .setLine .. | .insertAt .. | .removeAt ..
  | .clear | .setMarkup _ | .setHighlight _ | .setTerminator _ | .setTabWidth _ | .emptyLike =>
    .isTrue trivial

def AllAdmissible (c : Cache) : List Operation → Prop
  | [] => True
  | op :: ops => c.Admissible op ∧ AllAdmissible (c.perform op).1 ops

instance decidableAllAdmissible (c : Cache) : (ops : List Operation) → Decidable (c.AllAdmissible ops)
  | [] => .isTrue trivial
  | op :: ops =>
    have := decidableAllAdmissible (c.perform op).1 ops
    inferInstanceAs (Decidable (c.Admissible op ∧ AllAdmissible (c.perform op).1 ops))

/-- The finished cache has the lines of the list. -/
structure Refines (c : Cache) (m : LineList) : Prop where
  sound : c.Sound
  newlineFree : c.language.NewlineFree
  terminator : c.terminator = m.terminator
  lines : c.finalLines.map Line.raw = m.lines
  wellFormed : m.WellFormed

/-! ### Builds -/

theorem rawLines_build {c : Cache} (hl : c.language.NewlineFree) (text : Text) :
    (c.build text).rawLines = text.lines := by
  rw [rawLines, lines_build, Blocks.raw_toLines]
  exact lines_scan (.inl hl)

theorem rawLines_wholeBlocks {c : Cache} (hl : c.language.NewlineFree) :
    (c.wholeBlocks.toLines c.markup).map Line.raw = c.scanner.text.lines := by
  rw [Blocks.raw_toLines]
  exact lines_scan (.inl hl)

theorem refines_build {c : Cache} (hl : c.language.NewlineFree) (text : Text) :
    (c.build text).Refines { lines := text.lines, terminator := c.terminator } := by
  have hs := setup_build c text
  refine ⟨sound_of_complete (complete_build c text), ?_, ?_, ?_, LineList.wellFormed_lines ..⟩
  · have hlang : (c.build text).language = c.language := congrArg Setup.language hs
    rw [hlang]
    exact hl
  · exact congrArg Setup.terminator hs
  · rw [finalLines_of_complete (complete_build c text)]
    exact rawLines_build hl text

theorem refines_begin {c : Cache} (hl : c.language.NewlineFree) (text : Text) :
    (c.begin text).Refines { lines := text.lines, terminator := c.terminator } :=
  ⟨sound_begin c text, hl, rfl, rawLines_wholeBlocks hl, LineList.wellFormed_lines ..⟩

theorem refines_of_complete {c : Cache} {m : LineList} (hc : c.complete = true)
    (hl : c.language.NewlineFree) (ht : c.terminator = m.terminator) (hr : c.rawLines = m.lines)
    (hw : m.WellFormed) : c.Refines m := by
  refine ⟨sound_of_complete hc, hl, ht, ?_, hw⟩
  rw [finalLines_of_complete hc]
  exact hr

namespace Refines
variable {c : Cache} {m : LineList} (h : c.Refines m)
include h

theorem buildNext (count : Nat) : (c.buildNext count).Refines m := by
  have hs := setup_buildNext count c
  have hlang : (c.buildNext count).language = c.language := congrArg Setup.language hs
  have hterm : (c.buildNext count).terminator = c.terminator := congrArg Setup.terminator hs
  refine ⟨h.sound.buildNext count, ?_, hterm.trans h.terminator, ?_, h.wellFormed⟩
  · rw [hlang]
    exact h.newlineFree
  · rw [h.sound.finalLines_buildNext]
    exact h.lines

theorem finish : c.finish.Refines m := h.buildNext _

theorem complete_finish : c.finish.complete = true := h.sound.complete_finish

theorem rawLines_finish : c.finish.rawLines = m.lines := by
  rw [rawLines, h.sound.lines_finish]
  exact h.lines

theorem rawLines_of_complete (hc : c.complete = true) : c.rawLines = m.lines := by
  have hr := h.rawLines_finish
  rwa [finish_of_complete hc] at hr

theorem text_of_complete (hc : c.complete = true) : c.text = m.text := by
  rw [text_eq, h.terminator, h.rawLines_of_complete hc]
  rfl

theorem rebuild (hc : c.complete = true) : c.rebuild.Refines m := by
  have hb := refines_build h.newlineFree c.text
  rw [h.text_of_complete hc, h.wellFormed.lines_text, h.terminator] at hb
  rw [Cache.rebuild, h.text_of_complete hc]
  exact hb

/-- Building again after a change of settings gives the lines again. -/
theorem rebuild_with {d : Cache} (hl : d.language.NewlineFree)
    (hr : d.rawLines = c.finish.rawLines) (ht : d.terminator = c.terminator) :
    d.rebuild.Refines m := by
  have hb := refines_build hl d.text
  have htext : d.text = m.text := by
    rw [text_eq, hr, h.rawLines_finish, ht, h.terminator]
    rfl
  rw [htext, h.wellFormed.lines_text, ht, h.terminator] at hb
  rw [Cache.rebuild, htext]
  exact hb

end Refines

/-! ### Edits -/

/-- An edit settles on the lines of the edited list, cut again if a text with line ends
went in, whether or not the document is built again. -/
theorem refines_settle {d : Cache} {m : LineList} (value : Text) (rebuild : Bool)
    (hc : d.complete = true) (hl : d.language.NewlineFree) (ht : d.terminator = m.terminator)
    (hr : d.rawLines = m.lines) (hne : m.lines ≠ [])
    (hb : value.hasBreak = false → ∀ l ∈ m.lines, l.hasBreak = false) :
    (d.settle (rebuild || value.hasBreak)).Refines (m.resplit value) := by
  have htext : d.text = m.text := by
    rw [text_eq, ht, hr]
    rfl
  cases hv : value.hasBreak with
  | true =>
    have hd : d.settle (rebuild || true) = d.build m.text := by
      rw [Bool.or_true, settle, if_pos rfl, Cache.rebuild, htext]
    have hm : m.resplit value = { lines := m.text.lines, terminator := d.terminator } := by
      rw [LineList.resplit, if_pos hv, ht]
    rw [hd, hm]
    exact refines_build hl m.text
  | false =>
    have hm : m.resplit value = m := by
      rw [LineList.resplit, if_neg (by simp [hv])]
    have hd : d.Refines m := refines_of_complete hc hl ht hr ⟨hne, hb hv⟩
    rw [hm, Bool.or_false]
    cases rebuild with
    | false => exact hd
    | true => exact hd.rebuild hc

/-- The two sides of an edit: both go through, or both are refused with the same error. -/
structure Agrees (r : Edited Cache) (r' : Edited LineList) : Prop where
  refines : r.1.Refines r'.1
  error : r.2 = r'.2

namespace Refines
variable {c : Cache} {m : LineList} (h : c.Refines m)
include h

theorem length_finish : c.finish.lines.length = m.lines.length := by
  have hl := congrArg List.length h.rawLines_finish
  rwa [rawLines, List.length_map] at hl

theorem setLine (index : Nat) (value : Text) (rebuild : Bool) :
    Agrees (c.setLine index value rebuild) (m.perform (.setLine index value rebuild)) := by
  have hf := h.finish
  rw [setLine_eq, LineList.perform, h.length_finish]
  by_cases hi : index < m.lines.length
  · rw [if_pos hi, decide_eq_true hi]
    refine ⟨refines_settle value rebuild h.complete_finish hf.newlineFree hf.terminator ?_ ?_ ?_, rfl⟩
    · rw [rawLines_putLine, h.rawLines_finish]
    · simpa using h.wellFormed.1
    · intro hv l hl
      rcases List.mem_or_eq_of_mem_set hl with hl | rfl
      · exact h.wellFormed.2 l hl
      · exact hv
  · rw [if_neg hi, decide_eq_false hi]
    exact ⟨hf, rfl⟩

theorem insertAt (index : Nat) (value : Text) (rebuild : Bool) :
    Agrees (c.insertAt index value rebuild) (m.perform (.insertAt index value rebuild)) := by
  have hf := h.finish
  rw [insertAt_eq, LineList.perform, h.length_finish]
  by_cases hi : index ≤ m.lines.length
  · rw [if_pos hi, decide_eq_true hi]
    refine ⟨refines_settle value rebuild h.complete_finish hf.newlineFree hf.terminator ?_ ?_ ?_, rfl⟩
    · rw [rawLines_spliceLine, h.rawLines_finish]
    · intro hnil
      have hlen : (m.lines.insertIdx index value).length = m.lines.length + 1 :=
        List.length_insertIdx_of_le_length hi value
      have hzero : (m.lines.insertIdx index value).length = 0 := congrArg List.length hnil
      omega
    · intro hv l hl
      rcases (List.mem_insertIdx hi).1 hl with rfl | hl
      · exact hv
      · exact h.wellFormed.2 l hl
  · rw [if_neg hi, decide_eq_false hi]
    exact ⟨hf, rfl⟩

theorem removeAt (index : Nat) (rebuild : Bool) :
    Agrees (c.removeAt index rebuild) (m.perform (.removeAt index rebuild)) := by
  have hf := h.finish
  rw [removeAt_eq, LineList.perform, h.length_finish]
  by_cases hi : index < m.lines.length
  · rw [if_pos hi, decide_eq_true hi]
    have hb := refines_settle [] (d := c.finish.dropLine index)
      (m := { m with lines := withoutLine m.lines index }) rebuild h.complete_finish
      hf.newlineFree hf.terminator (by rw [rawLines_dropLine, h.rawLines_finish]) ?_ ?_
    · rw [Text.hasBreak_nil, Bool.or_false] at hb
      exact ⟨hb, rfl⟩
    · intro hnil
      unfold withoutLine at hnil
      cases hrest : m.lines.eraseIdx index <;> simp [hrest] at hnil
    · intro _ l hl
      unfold withoutLine at hl
      cases hrest : m.lines.eraseIdx index with
      | nil =>
        simp only [hrest, List.isEmpty_nil, if_true, List.mem_singleton] at hl
        rw [hl]
        rfl
      | cons x xs =>
        simp only [hrest, List.isEmpty_cons, Bool.false_eq_true, if_false] at hl
        rw [← hrest] at hl
        exact h.wellFormed.2 l (List.mem_of_mem_eraseIdx hl)
  · rw [if_neg hi, decide_eq_false hi]
    exact ⟨hf, rfl⟩

/-! ### Runs -/

theorem perform {op : Operation} (ha : c.Admissible op) :
    Agrees (c.perform op) (m.perform op) := by
  have hf := h.finish
  have hnf := h.newlineFree
  cases op with
  | build text =>
    have hb := refines_build hnf text
    rw [h.terminator] at hb
    exact ⟨hb, rfl⟩
  | «begin» text =>
    have hb := refines_begin hnf text
    rw [h.terminator] at hb
    exact ⟨hb, rfl⟩
  | buildNext count => exact ⟨h.buildNext count, rfl⟩
  | finish => exact ⟨hf, rfl⟩
  | setLine index value rebuild => exact h.setLine index value rebuild
  | insertAt index value rebuild => exact h.insertAt index value rebuild
  | removeAt index rebuild => exact h.removeAt index rebuild
  | rebuild => exact ⟨h.rebuild ha, rfl⟩
  | clear =>
    have hc : c.clear.complete = true := h.complete_finish
    have ht : c.clear.terminator = m.terminator := hf.terminator
    exact ⟨refines_of_complete hc hf.newlineFree ht rfl (LineList.wellFormed_empty _), rfl⟩
  | setLanguage language =>
    have ht : c.finish.terminator = c.terminator := hf.terminator.trans h.terminator.symm
    exact ⟨h.rebuild_with ha rfl ht, rfl⟩
  | setMarkup markup =>
    have ht : c.finish.terminator = c.terminator := hf.terminator.trans h.terminator.symm
    exact ⟨h.rebuild_with hf.newlineFree rfl ht, rfl⟩
  | setHighlight highlight =>
    have ht : c.finish.terminator = c.terminator := hf.terminator.trans h.terminator.symm
    exact ⟨h.rebuild_with hf.newlineFree rfl ht, rfl⟩
  | setTerminator terminator =>
    have hs := h.sound.perform (.setTerminator terminator)
    exact ⟨⟨hs, hnf, rfl, h.lines, h.wellFormed⟩, rfl⟩
  | setTabWidth tabWidth =>
    have hs := h.sound.perform (.setTabWidth tabWidth)
    exact ⟨⟨hs, hnf, h.terminator, h.lines, h.wellFormed⟩, rfl⟩
  | emptyLike =>
    exact ⟨refines_of_complete rfl hnf h.terminator rfl (LineList.wellFormed_empty _), rfl⟩

theorem performAll {ops : List Operation} (ha : c.AllAdmissible ops) :
    (c.performAll ops).1.Refines (m.performAll ops).1 ∧
      (c.performAll ops).2 = (m.performAll ops).2 := by
  induction ops generalizing c m with
  | nil => exact ⟨h, rfl⟩
  | cons op ops ih =>
    have hstep := h.perform ha.1
    obtain ⟨hrun, herr⟩ := ih hstep.refines ha.2
    refine ⟨hrun, ?_⟩
    rw [Cache.performAll, LineList.performAll]
    dsimp only
    rw [hstep.error, herr]

end Refines

theorem refines_new {language : Language} (hl : language.NewlineFree) (markup : Markup) :
    (new language markup).Refines {} :=
  refines_of_complete rfl hl rfl rfl (LineList.wellFormed_empty _)

/-- After any run of operations the finished cache has the lines and the text of the list
after the same run, and the same operations have been refused. -/
theorem performAll_refines_lineList {language : Language} {markup : Markup}
    {ops : List Operation} (hl : language.NewlineFree)
    (ha : (new language markup).AllAdmissible ops) :
    let run := (new language markup).performAll ops
    let model := ({} : LineList).performAll ops
    run.1.finish.complete = true ∧ run.1.finish.rawLines = model.1.lines ∧
      run.1.finish.text = model.1.text ∧ run.2 = model.2 := by
  intro run model
  obtain ⟨hrun, herr⟩ := (refines_new hl markup).performAll ha
  have hc := hrun.complete_finish
  exact ⟨hc, hrun.rawLines_finish, hrun.finish.text_of_complete hc, herr⟩

/-- A build stopped after one line, edits with and without a rebuild, and two refusals. -/
theorem performAll_refines_lineList_edits :
    let lang : Language := { blockComment := some ("/*".toList, "*/".toList) }
    let ops : List Operation := [.begin "a\r\nb /*\rc".toList, .buildNext 1,
      .setLine 1 "x\ny".toList false, .setTerminator .crlf, .insertAt 9 [] true,
      .insertAt 0 "/*".toList true, .removeAt 2 false, .setLine 3 [] false, .rebuild]
    let run := (new lang .plain).performAll ops
    lang.NewlineFree ∧ (new lang .plain).AllAdmissible ops ∧
      run.1.finish.rawLines = ["/*".toList, "a".toList, "y".toList, []] ∧
      run.2 = (({} : LineList).performAll ops).2 := by
  intro lang ops run
  have hl : lang.NewlineFree := by decide
  have ha : (new lang .plain).AllAdmissible ops := by decide +kernel
  obtain ⟨-, hraw, -, herr⟩ := performAll_refines_lineList hl ha
  exact ⟨hl, ha, hraw.trans (by decide +kernel), herr⟩

end Cache

end Highlighter
