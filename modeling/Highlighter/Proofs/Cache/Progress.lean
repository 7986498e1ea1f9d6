import Mathlib.Algebra.GroupWithZero.Nat
import Highlighter.Proofs.Cache.Rebuild
import Highlighter.Proofs.Scanner.Pause

/-!
# Builds in the middle

A build that has been called for `n` lines in all holds the first `n` lines of the whole
build, their blocks and their measures, and it is complete as soon as the text has no more
lines: `progressive_build_exact`. How the calls share out the `n` lines is not seen.
-/

namespace Highlighter

namespace Cache

/-- Goes on with the build, one call for each count. -/
def buildAll (c : Cache) (counts : List Nat) : Cache :=
  counts.foldl (fun c count => c.buildNext count) c

theorem buildAll_concat (c : Cache) (counts : List Nat) (last : Nat) :
    c.buildAll (counts ++ [last]) = (c.buildAll counts).buildNext last := by
  rw [buildAll, List.foldl_append]
  rfl

theorem buildAll_of_complete {c : Cache} (hc : c.complete = true) (counts : List Nat) :
    c.buildAll counts = c := by
  induction counts with
  | nil => rfl
  | cons count counts ih =>
    show (c.buildNext count).buildAll counts = c
    rw [buildNext_of_complete hc, ih]

/-! ### A build between two calls -/

/-- The build has been called for `n` lines in all, and no line of its blocks is open. -/
structure Paused (c : Cache) (n : Nat) : Prop where
  incomplete : c.complete = false
  midway : c.Midway
  cursor : c.scanner.cursor = c.scanner.cursorAt n
  breaks : c.scanner.breaks = n
  closed : c.blocks.Closed
  lines : c.lines = if c.built.isEmpty then [Line.empty] else c.built
  width : c.width = c.blocks.maxWidth c.ruler
  codeLines : c.codeLines = c.blocks.codeLineCount

theorem paused_begin (c : Cache) (text : Text) : (c.begin text).Paused 0 where
  incomplete := rfl
  midway := midway_begin c text
  cursor := (Cursor.run_of_done (.inr (Nat.le_refl 0))).symm
  breaks := rfl
  closed := Blocks.closed_nil
  lines := lines_begin c text
  width := rfl
  codeLines := rfl

namespace Paused
variable {c : Cache} {n : Nat} (h : c.Paused n) (count : Nat)
include h

theorem scannerAfter_eq :
    c.scannerAfter count =
      if (c.scanner.cursorAt (n + count)).rest = [] then
        { c.scanner with cursor := (c.scanner.cursorAt (n + count)).flush, finished := true }
      else { c.scanner with cursor := c.scanner.cursorAt (n + count) } := by
  have hopen := Scanner.advance_open h.midway.unfinished h.cursor (n + count)
  have hmax : max n (n + count) = n + count := Nat.max_eq_right (Nat.le_add_right n count)
  rw [hmax] at hopen
  rw [scannerAfter, h.breaks]
  exact hopen

/-- The new blocks start a line, so that they can be measured by themselves. -/
theorem width_eq : (c.buildNext count).width = (c.scannerAfter count).blocks.maxWidth c.ruler := by
  rw [width_buildNext h.incomplete, h.width, h.midway.blocks_scannerAfter,
    h.closed.maxWidth_append]

theorem codeLines_eq :
    (c.buildNext count).codeLines = (c.scannerAfter count).blocks.codeLineCount := by
  rw [codeLines_buildNext h.incomplete, h.codeLines, h.midway.blocks_scannerAfter,
    h.closed.codeLineCount_append]

variable {count}

/-- A call that does not come to the end of the text. -/
theorem buildNext (hr : (c.scanner.cursorAt (n + count)).rest ≠ []) :
    (c.buildNext count).Paused (n + count) := by
  have hafter := h.scannerAfter_eq count
  rw [if_neg hr] at hafter
  have hfinished : (c.scannerAfter count).finished = false := by
    rw [hafter]
    exact h.midway.unfinished
  have hpaused := Scanner.paused_cursorAt hr
  have hruler : (c.buildNext count).ruler = c.ruler :=
    congrArg Setup.ruler (setup_buildNext count c)
  have hscanner := scanner_buildNext h.incomplete count
  have hcursor : (c.buildNext count).scanner.cursor = c.scanner.cursorAt (n + count) := by
    rw [hscanner, hafter]
  refine ⟨?_, ?_, ?_, ?_, ?_, ?_, ?_, ?_⟩
  · rw [complete_buildNext h.incomplete, hfinished]
  · exact h.midway.buildNext count h.incomplete hfinished
  · rw [hcursor, hscanner]
    exact (Scanner.cursorAt_advance ..).symm
  · rw [Scanner.breaks, hcursor]
    exact hpaused.1
  · rw [blocks, Scanner.blocks, hcursor]
    exact hpaused.2.2
  · rw [built_buildNext h.incomplete]
    exact lines_buildNext h.incomplete count
  · rw [h.width_eq, hruler, blocks, hscanner]
  · rw [h.codeLines_eq, blocks, hscanner]

/-- A call that comes to the end of the text leaves what a whole build leaves. -/
theorem view_buildNext (hr : (c.scanner.cursorAt (n + count)).rest = []) :
    (c.buildNext count).view = c.setup.view c.scanner.text := by
  have hfinished : (c.scannerAfter count).finished = true := by
    rw [h.scannerAfter_eq, if_pos hr]
  have hblocks : (c.scannerAfter count).blocks = c.wholeBlocks :=
    h.midway.blocks_of_finished count hfinished
  have hwidth : (c.buildNext count).width = max Blocks.minWidth (c.wholeBlocks.maxWidth c.ruler) := by
    rw [h.width_eq, hblocks, Nat.max_eq_right (Blocks.minWidth_le_maxWidth ..)]
  rw [view, h.midway.lines_of_finished count h.incomplete hfinished, hwidth, h.codeLines_eq,
    hblocks, blocks, scanner_buildNext h.incomplete, hblocks, complete_buildNext h.incomplete,
    hfinished]
  rfl

end Paused

/-! ### Runs of calls -/

theorem cursorAt_buildNext (c : Cache) (count limit : Nat) :
    (c.buildNext count).scanner.cursorAt limit = c.scanner.cursorAt limit := by
  cases hc : c.complete with
  | true => rw [buildNext_of_complete hc]
  | false =>
    rw [scanner_buildNext hc]
    exact Scanner.cursorAt_advance ..

theorem cursorAt_buildAll (c : Cache) (counts : List Nat) (limit : Nat) :
    (c.buildAll counts).scanner.cursorAt limit = c.scanner.cursorAt limit := by
  induction counts generalizing c with
  | nil => rfl
  | cons count counts ih => exact (ih (c.buildNext count)).trans (cursorAt_buildNext c count limit)

theorem setup_buildAll (c : Cache) (counts : List Nat) : (c.buildAll counts).setup = c.setup := by
  induction counts generalizing c with
  | nil => rfl
  | cons count counts ih => exact (ih (c.buildNext count)).trans (setup_buildNext count c)

theorem wholeBlocks_buildAll (c : Cache) (counts : List Nat) :
    (c.buildAll counts).wholeBlocks = c.wholeBlocks := by
  induction counts generalizing c with
  | nil => rfl
  | cons count counts ih => exact (ih (c.buildNext count)).trans (wholeBlocks_buildNext count c)

namespace Paused

theorem buildAll {c : Cache} {n : Nat} (h : c.Paused n) {counts : List Nat}
    (hr : (c.scanner.cursorAt (n + counts.sum)).rest ≠ []) :
    (c.buildAll counts).Paused (n + counts.sum) := by
  induction counts generalizing c n with
  | nil => exact h
  | cons count counts ih =>
    rw [List.sum_cons, ← Nat.add_assoc] at hr ⊢
    have hfirst : (c.scanner.cursorAt (n + count)).rest ≠ [] := by
      intro hend
      exact hr (Scanner.rest_cursorAt_of_le (Nat.le_add_right ..) hend)
    apply ih (h.buildNext hfirst)
    rwa [cursorAt_buildNext]

theorem view_buildAll {c : Cache} {n : Nat} (h : c.Paused n) {counts : List Nat}
    (hne : counts ≠ []) (hr : (c.scanner.cursorAt (n + counts.sum)).rest = []) :
    (c.buildAll counts).view = c.setup.view c.scanner.text := by
  induction counts generalizing c n with
  | nil => exact absurd rfl hne
  | cons count counts ih =>
    rw [List.sum_cons, ← Nat.add_assoc] at hr
    show ((c.buildNext count).buildAll counts).view = c.setup.view c.scanner.text
    by_cases hfirst : (c.scanner.cursorAt (n + count)).rest = []
    · have hview := h.view_buildNext hfirst
      have hcomplete : (c.buildNext count).complete = true := congrArg View.complete hview
      rw [buildAll_of_complete hcomplete, hview]
    · have hcounts : counts ≠ [] := by
        rintro rfl
        exact hfirst hr
      have hview := ih (h.buildNext hfirst) hcounts (by rwa [cursorAt_buildNext])
      rw [hview, setup_buildNext, text_buildNext]

end Paused

section Begin
variable (c : Cache) (text : Text) {counts : List Nat}

theorem paused_buildAll_begin (hr : ((c.begin text).scanner.cursorAt counts.sum).rest ≠ []) :
    ((c.begin text).buildAll counts).Paused counts.sum := by
  have hpaused := (paused_begin c text).buildAll (by rwa [Nat.zero_add])
  rwa [Nat.zero_add] at hpaused

theorem view_buildAll_begin (hne : counts ≠ [])
    (hr : ((c.begin text).scanner.cursorAt counts.sum).rest = []) :
    ((c.begin text).buildAll counts).view = (c.build text).view := by
  have hview := (paused_begin c text).view_buildAll hne (by rwa [Nat.zero_add])
  rw [hview, view_build]
  rfl

end Begin

/-! ### What a paused build shows -/

namespace Paused

section Shown
variable {c : Cache} {n : Nat} (h : c.Paused n) (hr : (c.scanner.cursorAt n).rest ≠ [])
include h hr

theorem blocks_eq : c.blocks = c.wholeBlocks.upToBreak n := by
  rw [blocks, Scanner.blocks, h.cursor]
  exact Scanner.blocks_cursorAt hr

/-- The lines of the blocks, without the one that is held back. -/
theorem dropLast_lines : c.blocks.lines.dropLast = c.wholeBlocks.lines.take n := by
  have hblocks : c.blocks = (c.scanner.cursorAt n).blocks := congrArg Cursor.blocks h.cursor
  have hbreaks : c.blocks.breaks = n := by
    rw [hblocks]
    exact Scanner.breaks_blocks_cursorAt hr
  obtain ⟨tail, htail⟩ := c.scanner.blocks_cursorAt_prefix n
  have htake := Blocks.take_lines_append h.closed tail
  rw [hbreaks, hblocks, htail, ← hblocks] at htake
  exact htake.symm

theorem built_eq : c.built = (c.wholeBlocks.toLines c.markup).take n := by
  have hbuilt : c.built = (Assembler.gather c.markup false c.blocks .empty).1 := by
    rw [h.midway.gathered]
  rw [hbuilt, Blocks.gather_false_eq, Blocks.toLines_eq, Blocks.toLines_eq, ← List.map_dropLast,
    h.dropLast_lines hr, List.map_take]

theorem lines_eq :
    c.lines = if n = 0 then [Line.empty] else (c.wholeBlocks.toLines c.markup).take n := by
  rw [h.lines, h.built_eq hr]
  by_cases hn : n = 0
  · subst hn
    rfl
  · have hne : (c.wholeBlocks.toLines c.markup).take n ≠ [] := by
      have hlines := Blocks.toLines_ne_nil c.markup c.wholeBlocks
      simp [List.take_eq_nil_iff, hn, hlines]
    rw [if_neg hn, List.isEmpty_eq_false_iff.2 hne]
    rfl

theorem codeLines_eq_countP :
    c.codeLines = (c.wholeBlocks.lines.take n).countP fun line => line.any Block.isCode := by
  rw [h.codeLines, h.closed.codeLineCount_eq, h.dropLast_lines hr]

end Shown

end Paused

/-- The widest of the lines, and at least the least width. -/
def widest (ruler : Ruler) (lines : List Line) : Nat :=
  lines.foldl (fun widest line => max widest (ruler.measure line.raw)) Blocks.minWidth

theorem widest_ofBlocks (ruler : Ruler) (markup : Markup) (ls : List Blocks) :
    widest ruler (ls.map (Line.ofBlocks markup)) =
      ls.foldl (fun widest line => max widest (Blocks.lineWidth ruler line)) Blocks.minWidth := by
  have hline : ∀ bs : Blocks, ruler.measure (Line.ofBlocks markup bs).raw =
      Blocks.lineWidth ruler bs := fun bs => (Blocks.lineWidth_eq ruler bs).symm
  rw [widest, List.foldl_map]
  simp only [hline]

theorem Paused.width_eq_widest {c : Cache} {n : Nat} (h : c.Paused n)
    (hr : (c.scanner.cursorAt n).rest ≠ []) :
    c.width = widest c.ruler ((c.wholeBlocks.toLines c.markup).take n) := by
  rw [h.width, h.closed.maxWidth_eq, h.dropLast_lines hr, Blocks.toLines_eq, ← List.map_take,
    widest_ofBlocks]

/-! ### Counts that run full -/

/-- The sum of the counts, stopped at a greatest number. -/
def saturatingSum (cap : Nat) (counts : List Nat) : Nat :=
  counts.foldl (fun total count => min (total + count) cap) 0

theorem saturatingSum_eq (cap : Nat) (counts : List Nat) :
    saturatingSum cap counts = min counts.sum cap := by
  have key : ∀ n, n ≤ cap → counts.foldl (fun total count => min (total + count) cap) n =
      min (n + counts.sum) cap := by
    induction counts with
    | nil =>
      intro n hn
      exact (Nat.min_eq_left hn).symm
    | cons count counts ih =>
      intro n hn
      rw [List.foldl_cons, ih _ (Nat.min_le_right ..), List.sum_cons]
      omega
  have hzero := key 0 (Nat.zero_le cap)
  rwa [Nat.zero_add] at hzero

section Saturating
variable {s : Scanner} {cap : Nat} (hcap : s.text.length < cap) (counts : List Nat)
include hcap

/-- A sum that runs full is past the end of the text, like the full number. -/
theorem rest_cursorAt_saturatingSum :
    (s.cursorAt (saturatingSum cap counts)).rest = [] ↔ (s.cursorAt counts.sum).rest = [] := by
  have hpast : ∀ {limit}, cap ≤ limit → (s.cursorAt limit).rest = [] := by
    intro limit hle
    exact (Cursor.Sound.start s.highlight s.text).rest_run s.language (by omega)
  rw [saturatingSum_eq]
  rcases Nat.le_total counts.sum cap with hle | hle
  · rw [Nat.min_eq_left hle]
  · rw [Nat.min_eq_right hle]
    exact iff_of_true (hpast (Nat.le_refl cap)) (hpast hle)

variable {counts}

theorem saturatingSum_of_rest (hr : (s.cursorAt counts.sum).rest ≠ []) :
    saturatingSum cap counts = counts.sum := by
  have hlt : counts.sum < cap := by
    by_contra hlt
    exact hr ((Cursor.Sound.start s.highlight s.text).rest_run s.language (by omega))
  rw [saturatingSum_eq, Nat.min_eq_left hlt.le]

end Saturating

/-! ### Builds with counts -/

theorem closed_blocks_build (c : Cache) (text : Text) :
    (c.build text).blocks.Closed ↔
      text = [] ∨ ∃ b, (c.build text).blocks.getLast? = some b ∧ b.isLineBreak = true := by
  have hnil : (c.build text).blocks = [] ↔ text = [] := by
    rw [blocks_build]
    exact scan_eq_nil_iff ..
  rw [← hnil, Blocks.Closed]
  cases hlast : (c.build text).blocks.getLast? with
  | none => simp [List.getLast?_eq_none_iff.1 hlast]
  | some b =>
    have hne : (c.build text).blocks ≠ [] := by
      intro hbs
      rw [hbs] at hlast
      cases hlast
    simp [hne]

theorem rest_cursorAt_begin_iff (c : Cache) (text : Text) (n : Nat) :
    ((c.begin text).scanner.cursorAt n).rest = [] ↔
      (c.build text).blocks.breaks < n ∨ (n = (c.build text).blocks.breaks ∧ (text = [] ∨
        ∃ b, (c.build text).blocks.getLast? = some b ∧ b.isLineBreak = true)) := by
  have hwhole : (c.begin text).scanner.wholeBlocks = (c.build text).blocks :=
    (blocks_build c text).symm
  rw [← closed_blocks_build, ← hwhole]
  exact Scanner.rest_cursorAt_iff

section Begin
variable (c : Cache) (text : Text) {counts : List Nat}

theorem complete_buildAll_begin_iff (hne : counts ≠ []) :
    ((c.begin text).buildAll counts).complete = true ↔
      ((c.begin text).scanner.cursorAt counts.sum).rest = [] := by
  constructor
  · intro hc
    by_contra hr
    rw [(paused_buildAll_begin c text hr).incomplete] at hc
    cases hc
  · intro hr
    have hview := congrArg View.complete (view_buildAll_begin c text hne hr)
    exact hview.trans (complete_build c text)

/-- What a build shows that stops before the end of the text. -/
theorem shown_buildAll_begin (hr : ((c.begin text).scanner.cursorAt counts.sum).rest ≠ []) :
    let whole := c.build text
    let built := (c.begin text).buildAll counts
    built.lines = (if counts.sum = 0 then [Line.empty] else whole.lines.take counts.sum) ∧
      built.blocks = whole.blocks.upToBreak counts.sum ∧
      built.width = widest c.ruler (whole.lines.take counts.sum) ∧
      built.codeLines =
        (whole.blocks.lines.take counts.sum).countP fun line => line.any Block.isCode := by
  intro whole built
  have hpaused : built.Paused counts.sum := paused_buildAll_begin c text hr
  have hrest : (built.scanner.cursorAt counts.sum).rest ≠ [] := by
    rwa [cursorAt_buildAll]
  have hblocks : built.wholeBlocks = whole.blocks := by
    rw [wholeBlocks_buildAll, blocks_build]
    rfl
  have hsetup : built.setup = c.setup := setup_buildAll (c.begin text) counts
  have hmarkup : built.markup = c.markup := congrArg Setup.markup hsetup
  have hruler : built.ruler = c.ruler := congrArg Setup.ruler hsetup
  have hlines : whole.lines = built.wholeBlocks.toLines built.markup := by
    rw [hblocks, hmarkup, blocks_build]
    exact lines_build c text
  refine ⟨?_, ?_, ?_, ?_⟩
  · rw [hlines]
    exact hpaused.lines_eq hrest
  · rw [← hblocks]
    exact hpaused.blocks_eq hrest
  · rw [hlines, ← hruler]
    exact hpaused.width_eq_widest hrest
  · rw [← hblocks]
    exact hpaused.codeLines_eq_countP hrest

end Begin

/-- A build called with some counts is complete as soon as they pass the line breaks of the
text, or reach the last of them and nothing is behind it; the last call answers so. Before, it
shows as many lines of the whole build as the counts say; from then on it shows all of it and
does not change. -/
theorem progressive_build_exact (c : Cache) (text : Text) (counts : List Nat) (last : Nat)
    {cap : Nat} (hcap : text.length < cap) :
    let whole := c.build text
    let before := (c.begin text).buildAll counts
    let built := before.buildNext last
    let total := saturatingSum cap (counts ++ [last])
    before.buildNextAnswer last = built.complete ∧
    (built.complete = true ↔ whole.blocks.breaks < total ∨ (total = whole.blocks.breaks ∧
      (text = [] ∨ ∃ b, whole.blocks.getLast? = some b ∧ b.isLineBreak = true))) ∧
    (built.complete = false →
      built.lines = (if total = 0 then [Line.empty] else whole.lines.take total) ∧
      built.blocks = whole.blocks.upToBreak total ∧
      built.width = widest c.ruler (whole.lines.take total) ∧
      built.codeLines =
        (whole.blocks.lines.take total).countP fun line => line.any Block.isCode) ∧
    (built.complete = true → built.view = whole.view ∧ ∀ count, built.buildNext count = built) := by
  intro whole before built total
  have hne : counts ++ [last] ≠ [] := by simp
  have hbuilt : built = (c.begin text).buildAll (counts ++ [last]) :=
    (buildAll_concat ..).symm
  have hcomplete : built.complete = true ↔
      ((c.begin text).scanner.cursorAt (counts ++ [last]).sum).rest = [] := by
    rw [hbuilt]
    exact complete_buildAll_begin_iff c text hne
  refine ⟨buildNextAnswer_eq before last, ?_, ?_, ?_⟩
  · rw [hcomplete, ← rest_cursorAt_saturatingSum hcap]
    exact rest_cursorAt_begin_iff c text total
  · intro hc
    have hr : ((c.begin text).scanner.cursorAt (counts ++ [last]).sum).rest ≠ [] := by
      rw [Ne, ← hcomplete, hc]
      exact Bool.false_ne_true
    have htotal : total = (counts ++ [last]).sum := saturatingSum_of_rest hcap hr
    rw [hbuilt, htotal]
    exact shown_buildAll_begin c text hr
  · intro hc
    refine ⟨?_, buildNext_of_complete hc⟩
    rw [hbuilt]
    exact view_buildAll_begin c text hne (hcomplete.1 hc)

/-- A build after its first line, and at its end, to which a count that runs full takes it. -/
theorem progressive_build_exact_comment :
    let cap := 18446744073709551615
    let text : Text := "int a;\n\tb /*\n*/\n".toList
    let c := new { blockComment := some ("/*".toList, "*/".toList) } .plain
    let part := ((c.begin text).buildAll [1]).buildNext 0
    let rest := ((c.begin text).buildAll [1, 0]).buildNext cap
    text.length < cap ∧ part.complete = false ∧ part.lines = [⟨"int a;".toList, "int a;".toList⟩] ∧
      part.blocks = (c.build text).blocks.upToBreak 1 ∧ part.codeLines = 1 ∧
      ((c.begin text).buildAll [1, 0]).buildNextAnswer cap = true ∧
      rest.view = (c.build text).view := by
  intro cap text c part rest
  have hcap : text.length < cap := by decide
  have hincomplete : part.complete = false := by decide +kernel
  have hcomplete : rest.complete = true := by decide +kernel
  obtain ⟨-, -, hpart, -⟩ := progressive_build_exact c text [1] 0 hcap
  obtain ⟨hanswer, -, -, hrest⟩ := progressive_build_exact c text [1, 0] cap hcap
  obtain ⟨hlines, hblocks, -, hcode⟩ := hpart hincomplete
  refine ⟨hcap, hincomplete, ?_, hblocks, ?_, ?_, (hrest hcomplete).1⟩
  · exact hlines.trans (by decide +kernel)
  · exact hcode.trans (by decide +kernel)
  · exact hanswer.trans hcomplete

end Cache

end Highlighter
