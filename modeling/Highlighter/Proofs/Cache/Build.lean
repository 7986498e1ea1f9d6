import Highlighter.Cache.Edit
import Highlighter.Proofs.Line.Assembly

/-!
# Builds

While a build is under way its lines and its assembler are what the blocks of the pass
give, whatever pieces they came in. So at the end of the build the lines are those of the
whole text, and its measures are those of all the blocks.
-/

namespace Highlighter

namespace Cache

/-- The lines that the build has completed. A line that stands in is none of them. -/
def built (c : Cache) : List Line := if c.standIn then [] else c.lines

/-- A build between two calls, before it has come to its end. -/
structure Midway (c : Cache) : Prop where
  unfinished : c.scanner.finished = false
  onPass : c.scanner.OnPass
  gathered : Assembler.gather c.markup false c.blocks .empty = (c.built, c.assembler)
  folded : c.folded = c.blocks.length

theorem lines_begin (c : Cache) (text : Text) : (c.begin text).lines = [Line.empty] :=
  congrArg (fun line => [line]) (LinePool.take_fst _)

theorem midway_begin (c : Cache) (text : Text) : (c.begin text).Midway :=
  ⟨rfl, Scanner.onPass_start _ _ _, rfl, rfl⟩

def scannerAfter (c : Cache) (count : Nat) : Scanner :=
  c.scanner.advance (c.scanner.breaks + count)

def tailAfter (c : Cache) (count : Nat) : Blocks := (c.scannerAfter count).blocks.drop c.folded

/-- The lines that a call for `count` more lines leaves, of which there may be none. -/
def linesAfter (c : Cache) (count : Nat) : List Line :=
  c.built ++ (Assembler.gather c.markup (c.scannerAfter count).finished (c.tailAfter count)
    c.assembler).1

/-! ### Fields after a call -/

section Fields
variable {c : Cache} (hc : c.complete = false) (count : Nat)
include hc

theorem complete_buildNext : (c.buildNext count).complete = (c.scannerAfter count).finished := by
  rw [buildNext, hc]
  rfl

theorem scanner_buildNext : (c.buildNext count).scanner = c.scannerAfter count := by
  rw [buildNext, hc]
  rfl

theorem width_buildNext :
    (c.buildNext count).width = max c.width ((c.tailAfter count).maxWidth c.ruler) := by
  rw [buildNext, hc]
  rfl

theorem codeLines_buildNext :
    (c.buildNext count).codeLines = c.codeLines + (c.tailAfter count).codeLineCount := by
  rw [buildNext, hc]
  rfl

theorem folded_buildNext : (c.buildNext count).folded = (c.scannerAfter count).blocks.length := by
  rw [buildNext, hc]
  rfl

theorem assembler_buildNext :
    (c.buildNext count).assembler = (Assembler.gather c.markup (c.scannerAfter count).finished
      (c.tailAfter count) c.assembler).2 := by
  rw [← Assembler.append_eq_gather _ _ _ _ (if c.standIn then c.pool.giveAll c.lines else c.pool),
    buildNext, hc]
  cases c.standIn <;> rfl

theorem standIn_buildNext : (c.buildNext count).standIn = (c.linesAfter count).isEmpty := by
  rw [linesAfter, ← Assembler.append_eq_gather _ _ _ _
    (if c.standIn then c.pool.giveAll c.lines else c.pool), buildNext, hc, built]
  cases c.standIn <;> rfl

theorem lines_buildNext :
    (c.buildNext count).lines =
      if (c.linesAfter count).isEmpty then [Line.empty] else c.linesAfter count := by
  rw [linesAfter, ← Assembler.append_eq_gather _ _ _ _
    (if c.standIn then c.pool.giveAll c.lines else c.pool), buildNext, hc, built]
  cases c.standIn <;> simp [scannerAfter, tailAfter]

theorem built_buildNext : (c.buildNext count).built = c.linesAfter count := by
  rw [built, standIn_buildNext hc, lines_buildNext hc]
  cases hl : (c.linesAfter count).isEmpty with
  | true => exact (List.isEmpty_iff.1 hl).symm
  | false => rfl

end Fields

theorem buildNext_of_complete {c : Cache} (hc : c.complete = true) (count : Nat) :
    c.buildNext count = c := by
  rw [buildNext, if_pos hc]

theorem finish_of_complete {c : Cache} (hc : c.complete = true) : c.finish = c :=
  buildNext_of_complete hc _

/-- A call only adds lines, unless one stood in. -/
theorem lines_prefix_buildNext {c : Cache} (hs : c.standIn = false) (count : Nat) :
    c.lines <+: (c.buildNext count).lines := by
  cases hc : c.complete with
  | true =>
    have hlines : (c.buildNext count).lines = c.lines := by rw [buildNext_of_complete hc]
    exact hlines.symm ▸ List.prefix_refl _
  | false =>
    have hadded : c.lines <+: c.linesAfter count := by
      rw [linesAfter, built, hs]
      exact List.prefix_append _ _
    rw [lines_buildNext hc]
    split
    · rename_i hnil
      rw [List.isEmpty_iff.1 hnil, List.prefix_nil] at hadded
      rw [hadded]
      exact List.nil_prefix
    · exact hadded

theorem buildNextAnswer_eq (c : Cache) (count : Nat) :
    c.buildNextAnswer count = (c.buildNext count).complete := by
  cases hc : c.complete with
  | true => rw [buildNextAnswer, buildNext_of_complete hc, hc, Bool.true_or]
  | false =>
    rw [buildNextAnswer, complete_buildNext hc, hc, Bool.false_or]
    rfl

/-! ### What a build leaves alone -/

structure Setup where
  language : Language
  highlight : Bool
  markup : Markup
  terminator : Terminator
  ruler : Ruler

def setup (c : Cache) : Setup where
  language := c.language
  highlight := c.highlight
  markup := c.markup
  terminator := c.terminator
  ruler := c.ruler

theorem setup_buildNext (count : Nat) (c : Cache) : (c.buildNext count).setup = c.setup := by
  cases hc : c.complete with
  | true => rw [buildNext_of_complete hc]
  | false =>
    have hl : (c.buildNext count).language = c.language := by
      rw [language, scanner_buildNext hc]
      exact Scanner.language_advance _ _
    have hh : (c.buildNext count).highlight = c.highlight := by
      rw [highlight, scanner_buildNext hc]
      exact Scanner.highlight_advance _ _
    rw [setup, hl, hh, buildNext, hc]
    rfl

theorem setup_finish (c : Cache) : c.finish.setup = c.setup := setup_buildNext _ c

theorem setup_build (c : Cache) (text : Text) : (c.build text).setup = c.setup :=
  setup_finish (c.begin text)

theorem text_buildNext (count : Nat) (c : Cache) :
    (c.buildNext count).scanner.text = c.scanner.text := by
  cases hc : c.complete with
  | true => rw [buildNext_of_complete hc]
  | false =>
    rw [scanner_buildNext hc]
    exact Scanner.text_advance _ _

/-! ### Builds in pieces -/

def wholeBlocks (c : Cache) : Blocks := scan c.language c.highlight c.scanner.text

theorem wholeBlocks_buildNext (count : Nat) (c : Cache) :
    (c.buildNext count).wholeBlocks = c.wholeBlocks := by
  have hs := setup_buildNext count c
  have hl : (c.buildNext count).language = c.language := congrArg Setup.language hs
  have hh : (c.buildNext count).highlight = c.highlight := congrArg Setup.highlight hs
  rw [wholeBlocks, hl, hh, text_buildNext]
  rfl

namespace Midway
variable {c : Cache} (h : c.Midway) (count : Nat)
include h

theorem onPass_scannerAfter : (c.scannerAfter count).OnPass := h.onPass.advance _

theorem blocks_scannerAfter : (c.scannerAfter count).blocks = c.blocks ++ c.tailAfter count := by
  obtain ⟨tail, htail⟩ := Scanner.blocks_prefix_advance (c.scanner.breaks + count) c.scanner
  have hblocks : (c.scannerAfter count).blocks = c.blocks ++ tail := htail.symm
  rw [tailAfter, h.folded, hblocks, List.drop_left]

/-- The blocks read so far give the lines completed before and the new ones. -/
theorem gather_scannerAfter :
    Assembler.gather c.markup (c.scannerAfter count).finished (c.scannerAfter count).blocks .empty =
      (c.linesAfter count, (Assembler.gather c.markup (c.scannerAfter count).finished
        (c.tailAfter count) c.assembler).2) := by
  rw [h.blocks_scannerAfter, Assembler.gather_append, h.gathered]
  rfl

theorem finished_scannerAfter (hn : c.scanner.everyBreak ≤ count) :
    (c.scannerAfter count).finished = true :=
  h.onPass.finished_advance (by omega)

theorem blocks_of_finished (hf : (c.scannerAfter count).finished = true) :
    (c.scannerAfter count).blocks = c.wholeBlocks := by
  have hb := (h.onPass_scannerAfter count).blocks_of_finished hf
  rw [scannerAfter, Scanner.language_advance, Scanner.highlight_advance,
    Scanner.text_advance] at hb
  exact hb

/-- The call that comes to the end of the text leaves the lines of the whole text. -/
theorem lines_of_finished (hc : c.complete = false) (hf : (c.scannerAfter count).finished = true) :
    (c.buildNext count).lines = c.wholeBlocks.toLines c.markup := by
  have hg := h.gather_scannerAfter count
  rw [h.blocks_of_finished count hf, hf] at hg
  have hl : c.linesAfter count = c.wholeBlocks.toLines c.markup := (congrArg Prod.fst hg).symm
  have hne : (c.linesAfter count).isEmpty = false := by
    rw [hl, List.isEmpty_eq_false_iff]
    exact Blocks.toLines_ne_nil _ _
  rw [lines_buildNext hc, hne, hl]
  rfl

theorem buildNext (hc : c.complete = false) (hf : (c.scannerAfter count).finished = false) :
    (c.buildNext count).Midway := by
  have hg := h.gather_scannerAfter count
  rw [hf] at hg
  refine ⟨?_, ?_, ?_, ?_⟩
  · rw [scanner_buildNext hc, hf]
  · rw [scanner_buildNext hc]
    exact h.onPass_scannerAfter count
  · have hm : (c.buildNext count).markup = c.markup :=
      congrArg Setup.markup (setup_buildNext count c)
    rw [blocks, scanner_buildNext hc, hm, built_buildNext hc, assembler_buildNext hc, hf, hg]
  · rw [folded_buildNext hc, blocks, scanner_buildNext hc]

end Midway

/-- A cache whose build, if it is not complete, can be taken up again. -/
def Sound (c : Cache) : Prop := c.complete = false → c.Midway

theorem sound_of_complete {c : Cache} (hc : c.complete = true) : c.Sound := by
  intro h
  rw [hc] at h
  cases h

theorem sound_begin (c : Cache) (text : Text) : (c.begin text).Sound :=
  fun _ => midway_begin c text

def finalLines (c : Cache) : List Line :=
  if c.complete then c.lines else c.wholeBlocks.toLines c.markup

theorem finalLines_of_complete {c : Cache} (hc : c.complete = true) : c.finalLines = c.lines := by
  rw [finalLines, if_pos hc]

namespace Sound
variable {c : Cache} (h : c.Sound)
include h

theorem buildNext (count : Nat) : (c.buildNext count).Sound := by
  intro hn
  cases hc : c.complete with
  | true =>
    rw [buildNext_of_complete hc, hc] at hn
    cases hn
  | false =>
    rw [complete_buildNext hc] at hn
    exact (h hc).buildNext count hc hn

/-- A call brings the end of the build nearer and does not change it. -/
theorem finalLines_buildNext (count : Nat) : (c.buildNext count).finalLines = c.finalLines := by
  cases hc : c.complete with
  | true => rw [buildNext_of_complete hc]
  | false =>
    have hm : (c.buildNext count).markup = c.markup :=
      congrArg Setup.markup (setup_buildNext count c)
    have hcomp := complete_buildNext hc count
    rw [finalLines, finalLines, hc, hcomp]
    cases hf : (c.scannerAfter count).finished with
    | true => exact (h hc).lines_of_finished count hc hf
    | false =>
      rw [wholeBlocks_buildNext, hm]
      rfl

theorem complete_finish : c.finish.complete = true := by
  cases hc : c.complete with
  | true => rw [finish_of_complete hc, hc]
  | false =>
    rw [finish, complete_buildNext hc]
    exact (h hc).finished_scannerAfter _ (Nat.le_refl _)

theorem lines_finish : c.finish.lines = c.finalLines := by
  rw [← finalLines_of_complete h.complete_finish]
  exact h.finalLines_buildNext _

end Sound

/-! ### Whole builds -/

section Whole
variable (c : Cache) (text : Text)

theorem complete_build : (c.build text).complete = true := (sound_begin c text).complete_finish

theorem lines_build :
    (c.build text).lines = (scan c.language c.highlight text).toLines c.markup :=
  (sound_begin c text).lines_finish

theorem scannerAfter_begin : ((c.begin text).scannerAfter (c.begin text).scanner.everyBreak).blocks =
    scan c.language c.highlight text :=
  (midway_begin c text).blocks_of_finished _
    ((midway_begin c text).finished_scannerAfter _ (Nat.le_refl _))

theorem blocks_build : (c.build text).blocks = scan c.language c.highlight text := by
  rw [build, finish, blocks, scanner_buildNext rfl, scannerAfter_begin]

theorem tailAfter_begin : (c.begin text).tailAfter (c.begin text).scanner.everyBreak =
    scan c.language c.highlight text := by
  have h := scannerAfter_begin c text
  rwa [(midway_begin c text).blocks_scannerAfter] at h

theorem width_build :
    (c.build text).width =
      max Blocks.minWidth ((scan c.language c.highlight text).maxWidth c.ruler) := by
  rw [build, finish, width_buildNext rfl, tailAfter_begin]
  rfl

theorem codeLines_build :
    (c.build text).codeLines = (scan c.language c.highlight text).codeLineCount := by
  rw [build, finish, codeLines_buildNext rfl, tailAfter_begin]
  exact Nat.zero_add _

end Whole

end Cache

end Highlighter
