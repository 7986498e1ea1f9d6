import Highlighter.Proofs.Scanner.LineBreaks

/-!
# Where a pass pauses

A step emits one line break at most, and no line is open right after it. So a run with a
limit stops at the start of a line, unless the text ends before: its blocks are those of
the whole text up to the line break that the limit names. Whether a limit takes a run to
the end of the text is read off the blocks of the whole text, `rest_cursorAt_iff`.
-/

namespace Highlighter

namespace Cursor

/-- All blocks of the lines behind the cursor are emitted. -/
def AtLineStart (s : Cursor) : Prop := s.pending = [] ∧ s.blocks.Closed

theorem atLineStart_start (highlight : Bool) (t : Text) : (start highlight t).AtLineStart :=
  ⟨rfl, Blocks.closed_nil⟩

theorem atLineStart_breakLine (e : Text) (s : Cursor) : (s.breakLine e).AtLineStart := by
  refine ⟨pending_breakLine e s, ?_⟩
  rw [blocks_breakLine]
  exact Blocks.closed_append_lineBreak _ _

/-! ### Steps and runs -/

/-- A step leaves the count of line breaks, or it is at the start of the next line. -/
def BreaksOnce (s t : Cursor) : Prop :=
  t.breaks = s.breaks ∨ (t.breaks = s.breaks + 1 ∧ t.AtLineStart)

theorem breaksOnce_breakLine (e : Text) (s : Cursor) : s.BreaksOnce (s.breakLine e) :=
  .inr ⟨breaks_breakLine e s, atLineStart_breakLine e s⟩

theorem breaksOnce_breakLine_enter (e : Text) (m : Mode) (s : Cursor) :
    s.BreaksOnce ((s.breakLine e).enter m) :=
  .inr ⟨breaks_breakLine e s, atLineStart_breakLine e s⟩

theorem breaksOnce_stepIdle (lang : Language) (c : Char) (s : Cursor) :
    s.BreaksOnce (s.stepIdle lang c) := by
  unfold stepIdle
  split
  · exact breaksOnce_breakLine _ s
  split
  · left
    rw [breaks_enter, breaks_read, breaks_flush]
  split
  · exact .inl rfl
  split
  · left
    rw [breaks_flushAs, breaks_read, breaks_flush]
  split
  · left
    rw [breaks_enter, breaks_flush]
  · exact .inl rfl

theorem breaksOnce_stepBlockComment (lang : Language) (s : Cursor) :
    s.BreaksOnce (s.stepBlockComment lang) := by
  unfold stepBlockComment
  split
  · left
    rw [breaks_enter, breaks_flush, breaks_read]
  split
  · exact breaksOnce_breakLine _ s
  · exact .inl rfl

theorem breaksOnce_stepToLineEnd (s : Cursor) : s.BreaksOnce s.stepToLineEnd := by
  unfold stepToLineEnd
  split
  · exact breaksOnce_breakLine_enter _ _ s
  · exact .inl rfl

theorem breaksOnce_stepQuoted (lang : Language) (quote : Quote) (escaped : Bool) (c : Char)
    (s : Cursor) : s.BreaksOnce (s.stepQuoted lang quote escaped c) := by
  unfold stepQuoted
  split
  · left
    rw [breaks_enter, breaks_flush, breaks_read]
  split
  · exact .inl rfl
  split
  · exact breaksOnce_breakLine_enter _ _ s
  · exact .inl rfl

theorem breaksOnce_stepNumber (shape : Numeral) (c : Char) (s : Cursor) :
    s.BreaksOnce (s.stepNumber shape c) := by
  unfold stepNumber
  split
  · exact .inl rfl
  · left
    rw [breaks_enter, breaks_flush]

theorem breaksOnce_stepRaw (s : Cursor) : s.BreaksOnce s.stepRaw := by
  unfold stepRaw
  split
  · exact breaksOnce_breakLine _ s
  · exact .inl rfl

theorem breaksOnce_step (lang : Language) (s : Cursor) : s.BreaksOnce (s.step lang) := by
  unfold step
  split
  · exact .inl rfl
  rename_i c rest hr
  split
  · exact breaksOnce_stepIdle lang c s
  · exact breaksOnce_stepBlockComment lang s
  · exact breaksOnce_stepToLineEnd s
  · exact breaksOnce_stepToLineEnd s
  · exact breaksOnce_stepQuoted lang _ _ c s
  · exact breaksOnce_stepNumber _ c s
  · exact breaksOnce_stepRaw s

/-- The limit is still ahead, or the cursor has stopped for it at the start of a line. -/
def Within (limit : Nat) (s : Cursor) : Prop :=
  s.breaks < limit ∨ (s.breaks = limit ∧ s.AtLineStart)

theorem within_step (lang : Language) {limit : Nat} {s : Cursor} (hb : s.breaks < limit) :
    (s.step lang).Within limit := by
  rcases breaksOnce_step lang s with h | ⟨h, hstart⟩
  · left
    omega
  · by_cases hlt : s.breaks + 1 < limit
    · left
      omega
    · exact .inr ⟨by omega, hstart⟩

theorem within_run (lang : Language) {limit : Nat} {s : Cursor} (h : s.Within limit) :
    (s.run lang limit).Within limit := by
  fun_induction run lang limit s with
  | case1 s hd => exact h
  | case2 s hd hlt ih =>
    have hb : s.breaks < limit := by
      by_contra hb
      exact hd (.inr (by omega))
    exact ih (within_step lang hb)

end Cursor

/-! ### Pauses of a pass -/

theorem scan_eq_nil_iff (language : Language) (highlight : Bool) (text : Text) :
    scan language highlight text = [] ↔ text = [] := by
  constructor
  · intro h
    rw [← concat_scan language highlight text, h]
    rfl
  · rintro rfl
    rw [scan_eq, Cursor.run_of_done (.inl rfl), Cursor.flush, Cursor.blocks_flushAs]
    rfl

namespace Scanner
variable (s : Scanner) (limit : Nat)

/-- The blocks of the whole text. -/
def wholeBlocks : Blocks := scan s.language s.highlight s.text

theorem sound_cursorAt : (s.cursorAt limit).Sound s.text :=
  (Cursor.Sound.start s.highlight s.text).run s.language limit

theorem within_cursorAt : (s.cursorAt limit).Within limit := by
  apply Cursor.within_run
  by_cases hl : 0 < limit
  · exact .inl hl
  · refine .inr ⟨?_, Cursor.atLineStart_start s.highlight s.text⟩
    show 0 = limit
    omega

theorem wholeBlocks_eq : s.wholeBlocks = (s.cursorAt s.everyBreak).flush.blocks :=
  scan_eq s.language s.highlight s.text

theorem blocks_cursorAt_prefix : (s.cursorAt limit).blocks <+: s.wholeBlocks := by
  rcases Nat.le_total limit s.everyBreak with hle | hle
  · have hrun := Cursor.blocks_prefix_run s.language s.everyBreak (s.cursorAt limit)
    rw [cursorAt_run, Nat.max_eq_right hle] at hrun
    rw [wholeBlocks_eq]
    exact hrun.trans (Cursor.blocks_prefix_flushAs ..)
  · have hend : (s.cursorAt limit).rest = [] :=
      (Cursor.Sound.start s.highlight s.text).rest_run s.language hle
    rw [wholeBlocks_eq, cursorAt_everyBreak hend]
    exact Cursor.blocks_prefix_flushAs ..

variable {s limit}

/-- A run that its limit stops has emitted the blocks of so many lines. -/
theorem paused_cursorAt (hr : (s.cursorAt limit).rest ≠ []) :
    (s.cursorAt limit).breaks = limit ∧ (s.cursorAt limit).AtLineStart := by
  rcases s.within_cursorAt limit with hb | hb
  · rcases Cursor.run_done s.language limit (Cursor.start s.highlight s.text) with hend | hle
    · exact absurd hend hr
    · have hle : limit ≤ (s.cursorAt limit).breaks := hle
      omega
  · exact hb

/-- A run that has come to the end of the text stays there. -/
theorem rest_cursorAt_of_le {limit' : Nat} (hle : limit ≤ limit')
    (hr : (s.cursorAt limit).rest = []) : (s.cursorAt limit').rest = [] := by
  have hrun : (s.cursorAt limit).run s.language limit' = s.cursorAt limit' := by
    rw [cursorAt_run, Nat.max_eq_right hle]
  rw [← hrun, Cursor.run_of_done (.inl hr), hr]

theorem breaks_blocks_cursorAt (hr : (s.cursorAt limit).rest ≠ []) :
    (s.cursorAt limit).blocks.breaks = limit := by
  rw [← (s.sound_cursorAt limit).breaks]
  exact (paused_cursorAt hr).1

theorem blocks_cursorAt (hr : (s.cursorAt limit).rest ≠ []) :
    (s.cursorAt limit).blocks = s.wholeBlocks.upToBreak limit := by
  obtain ⟨tail, htail⟩ := s.blocks_cursorAt_prefix limit
  have hup := Blocks.upToBreak_append (paused_cursorAt hr).2.2 tail
  rw [breaks_blocks_cursorAt hr, htail] at hup
  exact hup.symm

theorem wholeBlocks_of_rest (hr : (s.cursorAt limit).rest = []) :
    s.wholeBlocks = (s.cursorAt limit).flush.blocks := by
  rw [wholeBlocks_eq, cursorAt_everyBreak hr]

/-- A limit takes a run to the end of the text if it is above the number of line breaks, or
if it is that number and no line is open behind the last of them. -/
theorem rest_cursorAt_iff :
    (s.cursorAt limit).rest = [] ↔
      s.wholeBlocks.breaks < limit ∨ (limit = s.wholeBlocks.breaks ∧ s.wholeBlocks.Closed) := by
  constructor
  · intro hr
    have hwhole := wholeBlocks_of_rest hr
    have hbreaks : s.wholeBlocks.breaks = (s.cursorAt limit).breaks := by
      rw [hwhole, Cursor.flush, Cursor.breaks_blocks_flushAs (Mode.kind_ne_lineBreak _),
        (s.sound_cursorAt limit).breaks]
    rcases s.within_cursorAt limit with hb | ⟨hb, hpending, hclosed⟩
    · left
      omega
    · refine .inr ⟨by omega, ?_⟩
      rw [hwhole, Cursor.flush, Cursor.blocks_flushAs, if_pos hpending, List.append_nil]
      exact hclosed
  · intro h
    by_contra hr
    obtain ⟨tail, htail⟩ := s.blocks_cursorAt_prefix limit
    have hcount := breaks_blocks_cursorAt hr
    have hle : limit ≤ s.wholeBlocks.breaks := by
      rw [← htail, Blocks.breaks_append, hcount]
      omega
    rcases h with hlt | ⟨heq, hclosed⟩
    · omega
    · -- The blocks emitted are all blocks, so that nothing is ahead.
      have hall : (s.cursorAt limit).blocks = s.wholeBlocks := by
        have hup := Blocks.upToBreak_append hclosed []
        rw [List.append_nil, ← heq] at hup
        rw [blocks_cursorAt hr, hup]
      have hsound := s.sound_cursorAt limit
      have hcovered := hsound.covered
      have hconcat : s.wholeBlocks.concat = s.text := concat_scan ..
      rw [hall, hconcat, (paused_cursorAt hr).2.1, List.reverse_nil, List.append_nil] at hcovered
      have htext := hsound.text
      rw [hcovered, List.append_right_eq_self] at htext
      exact hr htext

end Scanner

end Highlighter
