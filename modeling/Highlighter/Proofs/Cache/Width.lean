import Highlighter.Language.Builtin
import Highlighter.Proofs.Cache.Progress
import Mathlib.Data.List.Basic

/-!
# The width of a cache

A build measures the lines as it completes them, an edit measures the line that it puts in and
never lowers the width. So the width bounds all lines, and it is that of the widest of them
whenever they have all been measured anew. Setting the width of a tab measures nothing: only
where no line holds a tab does the width stay a bound, `width_bounds_lines`. All columns are
counted in a word, so a line of more columns than go into one measures only what is left of them.
-/

namespace Highlighter

theorem Ruler.measure_of_no_tab (ruler : Ruler) (tabWidth : Nat) {t : Text} (h : '\t' ∉ t) :
    { ruler with tabWidth }.measure t = ruler.measure t := by
  induction t with
  | nil => rfl
  | cons c t ih =>
    have hc : c ≠ '\t' := fun hc => h (hc ▸ List.mem_cons_self ..)
    have hwidth : { ruler with tabWidth }.width c = ruler.width c := by
      rw [width, width, if_neg hc, if_neg hc]
    rw [measure_cons, measure_cons, hwidth, ih fun ht => h (List.mem_cons_of_mem _ ht)]

namespace Cache

def holdsTab (c : Cache) : Bool := c.lines.any fun line => line.raw.contains '\t'

/-- No line is wider than the cache says. -/
def Bounded (c : Cache) : Prop := ∀ line ∈ c.lines, c.ruler.measure line.raw ≤ c.width

/-- The width is that of the widest line. -/
def Exact (c : Cache) : Prop := c.width = widest c.ruler c.lines

theorem widest_le_iff {ruler : Ruler} {lines : List Line} {bound : Nat} :
    widest ruler lines ≤ bound ↔
      Blocks.minWidth ≤ bound ∧ ∀ line ∈ lines, ruler.measure line.raw ≤ bound :=
  Blocks.foldl_max_le_iff _ lines

theorem Exact.least {c : Cache} (h : c.Exact) : Blocks.minWidth ≤ c.width :=
  (widest_le_iff.1 (Nat.le_of_eq h.symm)).1

theorem Exact.bounded {c : Cache} (h : c.Exact) : c.Bounded :=
  (widest_le_iff.1 (Nat.le_of_eq h.symm)).2

/-! ### Builds -/

theorem exact_build (c : Cache) (text : Text) : (c.build text).Exact := by
  have hruler : (c.build text).ruler = c.ruler := congrArg Setup.ruler (setup_build c text)
  rw [Exact, width_build, lines_build, hruler, Blocks.toLines_eq, widest_ofBlocks,
    Nat.max_eq_right (Blocks.minWidth_le_maxWidth ..)]
  rfl

theorem exact_rebuild (c : Cache) : c.rebuild.Exact := exact_build c c.text

theorem exact_begin (c : Cache) (text : Text) : (c.begin text).Exact := by
  rw [Exact, lines_begin]
  rfl

/-- The lines of a paused build, measured by any ruler, are as wide as its blocks. -/
theorem Paused.widest_eq {c : Cache} {n : Nat} (h : c.Paused n) (ruler : Ruler) :
    widest ruler c.lines = c.blocks.maxWidth ruler := by
  have hbuilt : c.built = c.blocks.lines.dropLast.map (Line.ofBlocks c.markup) := by
    have hgathered : (c.blocks.toLines c.markup).dropLast = c.built := by
      rw [← Blocks.gather_false_eq, h.midway.gathered]
    rw [← hgathered, Blocks.toLines_eq, List.map_dropLast]
  rw [h.closed.maxWidth_eq, ← widest_ofBlocks ruler c.markup, ← hbuilt, h.lines]
  split
  · rename_i hnil
    rw [List.isEmpty_iff.1 hnil]
    rfl
  · rfl

theorem Paused.exact {c : Cache} {n : Nat} (h : c.Paused n) : c.Exact :=
  h.width.trans (h.widest_eq c.ruler).symm

/-- A call of a paused build leaves the width of the lines that are complete by then. -/
theorem Paused.exact_buildNext {c : Cache} {n : Nat} (h : c.Paused n) (count : Nat) :
    (c.buildNext count).Exact := by
  by_cases hr : (c.scanner.cursorAt (n + count)).rest = []
  · have hview : (c.buildNext count).view = (c.build c.scanner.text).view :=
      (h.view_buildNext hr).trans (view_build c c.scanner.text).symm
    have hsetup : (c.buildNext count).setup = (c.build c.scanner.text).setup :=
      (setup_buildNext count c).trans (setup_build c c.scanner.text).symm
    have hwidth : (c.buildNext count).width = (c.build c.scanner.text).width :=
      congrArg View.width hview
    have hlines : (c.buildNext count).lines = (c.build c.scanner.text).lines :=
      congrArg View.lines hview
    have hruler : (c.buildNext count).ruler = (c.build c.scanner.text).ruler :=
      congrArg Setup.ruler hsetup
    rw [Exact, hwidth, hlines, hruler]
    exact exact_build c c.scanner.text
  · exact (h.buildNext hr).exact

/-- A cache whose build, if it is not complete, has paused between two lines. -/
def AtPause (c : Cache) : Prop := c.complete = false → ∃ n, c.Paused n

theorem atPause_of_complete {c : Cache} (hc : c.complete = true) : c.AtPause := by
  intro h
  rw [hc] at h
  cases h

namespace AtPause
variable {c : Cache} (h : c.AtPause)
include h

theorem sound : c.Sound := by
  intro hc
  obtain ⟨n, hpaused⟩ := h hc
  exact hpaused.midway

theorem exact_buildNext (hc : c.complete = false) (count : Nat) : (c.buildNext count).Exact := by
  obtain ⟨n, hpaused⟩ := h hc
  exact hpaused.exact_buildNext count

theorem buildNext (count : Nat) : (c.buildNext count).AtPause := by
  intro hn
  cases hc : c.complete with
  | true =>
    rw [buildNext_of_complete hc, hc] at hn
    cases hn
  | false =>
    obtain ⟨n, hpaused⟩ := h hc
    refine ⟨n + count, hpaused.buildNext fun hr => ?_⟩
    have hcomplete : (c.buildNext count).complete = true :=
      congrArg View.complete (hpaused.view_buildNext hr)
    rw [hcomplete] at hn
    cases hn

end AtPause

/-! ### Edits -/

theorem width_readLine_le (c : Cache) {value : Text} (hb : value.hasBreak = false) :
    c.ruler.measure value ≤ (c.readLine value).2.width := by
  have hwidth : (c.readLine value).2.width =
      max c.width ((c.scratch.setText value).finish.blocks.maxWidth c.ruler) := rfl
  have hblocks : (c.scratch.setText value).finish.blocks =
      scan c.scratch.language c.scratch.highlight value :=
    (Scanner.onPass_start c.scratch.language c.scratch.highlight value).blocks_finish
  have hscan : (scan c.scratch.language c.scratch.highlight value).maxWidth c.ruler =
      max Blocks.minWidth (c.ruler.measure value) := by
    rw [Blocks.maxWidth, Blocks.lines_of_no_lineBreak (no_lineBreak_scan hb), List.foldl_cons,
      List.foldl_nil, Blocks.lineWidth_eq, concat_scan]
  rw [hwidth, hblocks, hscan]
  omega

section Edits
variable {c : Cache} (h : c.Bounded) (index : Nat)
include h

/-- The width that a read line leaves bounds it and the lines held before. -/
theorem measure_le_width_readLine {value : Text} (hb : value.hasBreak = false) {line : Line}
    (hl : line ∈ c.lines ∨ line = (c.readLine value).1) :
    c.ruler.measure line.raw ≤ (c.readLine value).2.width := by
  rcases hl with hl | hl
  · exact (h line hl).trans (Nat.le_max_left ..)
  · rw [hl, raw_readLine]
    exact width_readLine_le c hb

theorem bounded_putLine {value : Text} (hb : value.hasBreak = false) :
    (c.putLine index value).Bounded := by
  intro line hl
  rw [lines_putLine] at hl
  exact measure_le_width_readLine h hb (List.mem_or_eq_of_mem_set hl)

theorem bounded_spliceLine {value : Text} (hb : value.hasBreak = false) :
    (c.spliceLine index value).Bounded := by
  intro line hl
  rw [lines_spliceLine] at hl
  exact measure_le_width_readLine h hb (List.eq_or_mem_of_mem_insertIdx hl).symm

theorem bounded_dropLine : (c.dropLine index).Bounded := by
  intro line hl
  rw [lines_dropLine] at hl
  split at hl
  · rw [List.mem_singleton.1 hl]
    exact Nat.zero_le _
  · exact h line (List.mem_of_mem_eraseIdx hl)

end Edits

/-! ### Operations -/

/-- Whether the operation takes the width anew from the lines that it leaves. An edit does so
if it leads to a build, and if it is refused but takes a build under way to its end. -/
def remeasures (c : Cache) : Operation → Bool
  | .build _ | .begin _ | .rebuild | .clear | .setLanguage _ | .setMarkup _ | .setHighlight _
  | .emptyLike => true
  | .buildNext _ | .finish => !c.complete
  | .setLine index value rebuild =>
    if index < c.finish.lines.length then rebuild || value.hasBreak else !c.complete
  | .insertAt index value rebuild =>
    if index ≤ c.finish.lines.length then rebuild || value.hasBreak else !c.complete
  | .removeAt index rebuild =>
    if index < c.finish.lines.length then rebuild else !c.complete
  | .setTerminator _ | .setTabWidth _ => false

/-- Whether the lines held measure what they did before the operation. -/
def keepsMeasures (c : Cache) : Operation → Bool
  | .setTabWidth _ => !c.holdsTab
  | _ => true

theorem measure_setTabWidth {c : Cache} (h : c.holdsTab = false) (tabWidth : Nat) {line : Line}
    (hl : line ∈ c.lines) :
    (c.setTabWidth tabWidth).ruler.measure line.raw = c.ruler.measure line.raw := by
  refine Ruler.measure_of_no_tab c.ruler _ fun htab => ?_
  have hholds : c.holdsTab = true := List.any_eq_true.2 ⟨line, hl, by simpa using htab⟩
  rw [h] at hholds
  cases hholds

theorem widest_setTabWidth {c : Cache} (h : c.holdsTab = false) (tabWidth : Nat) :
    widest (c.setTabWidth tabWidth).ruler c.lines = widest c.ruler c.lines := by
  refine List.foldl_ext _ _ _ fun widest line hl => ?_
  rw [measure_setTabWidth h tabWidth hl]

/-- What an operation may do if it takes no width anew. -/
inductive FastStep (c : Cache) : Operation → Cache → Prop where
  | idle {op : Operation} (complete : c.complete = true) : FastStep c op c
  | put {op : Operation} (index : Nat) {value : Text} (oneLine : value.hasBreak = false) :
      FastStep c op (c.finish.putLine index value)
  | splice {op : Operation} (index : Nat) {value : Text} (oneLine : value.hasBreak = false) :
      FastStep c op (c.finish.spliceLine index value)
  | drop {op : Operation} (index : Nat) : FastStep c op (c.finish.dropLine index)
  | terminator (terminator : Terminator) :
      FastStep c (.setTerminator terminator) (c.setTerminator terminator)
  | tabWidth (tabWidth : Nat) : FastStep c (.setTabWidth tabWidth) (c.setTabWidth tabWidth)

section Perform
variable {c : Cache}

/-- An edit of a line that is found and leads to a build, or of one that is not found while a
build is under way. -/
theorem exact_edit (h : c.AtPause) {found : Prop} [Decidable found] {d : Cache} {rebuild : Bool}
    {error : Error} (hop : (if found then rebuild else !c.complete) = true) :
    (if found then (d.settle rebuild, none) else (c.finish, some error) : Edited Cache).1.Exact := by
  split at hop
  · rw [if_pos ‹_›, hop]
    exact exact_rebuild d
  · rw [if_neg ‹_›]
    exact h.exact_buildNext (by simpa using hop) _

theorem exact_perform (h : c.AtPause) {op : Operation} (hop : c.remeasures op = true) :
    (c.perform op).1.Exact := by
  cases op with
  | build text => exact exact_build c text
  | «begin» text => exact exact_begin c text
  | buildNext count => exact h.exact_buildNext (by simpa [remeasures] using hop) count
  | finish => exact h.exact_buildNext (by simpa [remeasures] using hop) _
  | setLine index value rebuild =>
    rw [perform, setLine_eq]
    exact exact_edit h hop
  | insertAt index value rebuild =>
    rw [perform, insertAt_eq]
    exact exact_edit h hop
  | removeAt index rebuild =>
    rw [perform, removeAt_eq]
    exact exact_edit h hop
  | rebuild => exact exact_rebuild c
  | setLanguage language => exact exact_rebuild _
  | setMarkup markup => exact exact_rebuild _
  | setHighlight highlight => exact exact_rebuild _
  | clear | emptyLike => rfl
  | setTerminator terminator | setTabWidth tabWidth => cases hop

theorem FastStep.finish {op : Operation} (hc : c.complete = true) : c.FastStep op c.finish := by
  rw [finish_of_complete hc]
  exact .idle hc

theorem fastStep_edit {op : Operation} {found : Prop} [Decidable found] {d : Cache}
    {rebuild : Bool} {error : Error} (hd : rebuild = false → c.FastStep op d)
    (hop : (if found then rebuild else !c.complete) = false) :
    c.FastStep op
      (if found then (d.settle rebuild, none) else (c.finish, some error) : Edited Cache).1 := by
  split at hop
  · rw [if_pos ‹_›, hop]
    exact hd hop
  · rw [if_neg ‹_›]
    exact .finish (by simpa using hop)

theorem fastStep_perform {op : Operation} (hop : c.remeasures op = false) :
    c.FastStep op (c.perform op).1 := by
  cases op with
  | buildNext count =>
    have hc : c.complete = true := by simpa [remeasures] using hop
    rw [perform, buildNext_of_complete hc]
    exact .idle hc
  | finish => exact .finish (by simpa [remeasures] using hop)
  | setLine index value rebuild =>
    rw [perform, setLine_eq]
    exact fastStep_edit (fun hr => .put index (Bool.or_eq_false_iff.1 hr).2) hop
  | insertAt index value rebuild =>
    rw [perform, insertAt_eq]
    exact fastStep_edit (fun hr => .splice index (Bool.or_eq_false_iff.1 hr).2) hop
  | removeAt index rebuild =>
    rw [perform, removeAt_eq]
    exact fastStep_edit (fun _ => .drop index) hop
  | setTerminator terminator => exact .terminator terminator
  | setTabWidth tabWidth => exact .tabWidth tabWidth
  | build text | «begin» text | rebuild | clear | setLanguage language | setMarkup markup
  | setHighlight highlight | emptyLike => cases hop

theorem Paused.setTerminator {n : Nat} (h : c.Paused n) (terminator : Terminator) :
    (c.setTerminator terminator).Paused n :=
  ⟨h.incomplete, ⟨h.midway.unfinished, h.midway.onPass, h.midway.gathered, h.midway.folded⟩,
    h.cursor, h.breaks, h.closed, h.lines, h.width, h.codeLines⟩

theorem Paused.setTabWidth {n : Nat} (h : c.Paused n) (hholds : c.holdsTab = false)
    (tabWidth : Nat) : (c.setTabWidth tabWidth).Paused n := by
  refine ⟨h.incomplete, ⟨h.midway.unfinished, h.midway.onPass, h.midway.gathered, h.midway.folded⟩,
    h.cursor, h.breaks, h.closed, h.lines, ?_, h.codeLines⟩
  calc c.width = widest c.ruler c.lines := h.exact
    _ = widest (c.setTabWidth tabWidth).ruler c.lines := (widest_setTabWidth hholds tabWidth).symm
    _ = c.blocks.maxWidth (c.setTabWidth tabWidth).ruler := h.widest_eq _

theorem AtPause.perform (h : c.AtPause) {op : Operation}
    (htab : c.complete = true ∨ c.keepsMeasures op = true) : (c.perform op).1.AtPause := by
  cases hop : op.finishes with
  | true => exact atPause_of_complete (complete_perform h.sound hop)
  | false =>
    cases op with
    | «begin» text => exact fun _ => ⟨0, paused_begin c text⟩
    | buildNext count => exact h.buildNext count
    | setTerminator terminator =>
      intro hc
      obtain ⟨n, hpaused⟩ := h hc
      exact ⟨n, hpaused.setTerminator terminator⟩
    | setTabWidth tabWidth =>
      intro (hc : c.complete = false)
      obtain ⟨n, hpaused⟩ := h hc
      have hholds : c.holdsTab = false := by simpa [keepsMeasures, hc] using htab
      exact ⟨n, hpaused.setTabWidth hholds tabWidth⟩
    | _ => cases hop

theorem width_le_finish (c : Cache) : c.width ≤ c.finish.width := by
  cases hc : c.complete with
  | true => rw [finish_of_complete hc]
  | false =>
    rw [finish, width_buildNext hc]
    exact Nat.le_max_left ..

/-- Only an operation that takes the width anew can lower it. -/
theorem width_le_perform {op : Operation} (hop : c.remeasures op = false) :
    c.width ≤ (c.perform op).1.width := by
  have hread : ∀ value : Text, c.width ≤ (c.finish.readLine value).2.width := fun value =>
    (width_le_finish c).trans (Nat.le_max_left ..)
  have hstep := fastStep_perform hop
  generalize (c.perform op).1 = d at hstep ⊢
  cases hstep with
  | idle => exact Nat.le_refl _
  | put index | splice index => exact hread _
  | drop index => exact width_le_finish c
  | terminator | tabWidth => exact Nat.le_refl _

theorem AtPause.bounded_finish (h : c.AtPause) (hb : c.Bounded) : c.finish.Bounded := by
  cases hc : c.complete with
  | true =>
    rw [finish_of_complete hc]
    exact hb
  | false => exact (h.exact_buildNext hc _).bounded

theorem AtPause.bounded_perform (h : c.AtPause) (hb : c.Bounded) {op : Operation}
    (htab : c.keepsMeasures op = true) (hop : c.remeasures op = false) :
    (c.perform op).1.Bounded := by
  have hfinish := h.bounded_finish hb
  have hstep := fastStep_perform hop
  generalize (c.perform op).1 = d at hstep ⊢
  cases hstep with
  | idle => exact hb
  | put index oneLine => exact bounded_putLine hfinish index oneLine
  | splice index oneLine => exact bounded_spliceLine hfinish index oneLine
  | drop index => exact bounded_dropLine hfinish index
  | terminator => exact hb
  | tabWidth tabWidth =>
    intro line hl
    have hl : line ∈ c.lines := hl
    have hholds : c.holdsTab = false := by simpa [keepsMeasures] using htab
    rw [measure_setTabWidth hholds tabWidth hl]
    exact hb line hl

end Perform

/-! ### Runs -/

/-- Caches that a run leads to from a new one, with characters of any width. The tab width is
only set while no build is under way, or while no line holds a tab. The flag tells whether all
lines have the width that they were measured with: setting the tab width takes that away where
a line holds a tab, and measuring the lines anew gives it back. -/
inductive Ruled (charWidth : Char → Nat) : Bool → Cache → Prop where
  | new (language : Language) (markup : Markup) :
      Ruled charWidth true { new language markup with ruler := { charWidth } }
  | perform {measured : Bool} {c : Cache} (op : Operation)
      (tab : c.complete = true ∨ c.keepsMeasures op = true) :
      Ruled charWidth measured c →
        Ruled charWidth (c.remeasures op || measured && c.keepsMeasures op) (c.perform op).1

structure Sized (charWidth : Char → Nat) (measured : Bool) (c : Cache) : Prop where
  atPause : c.AtPause
  charWidth : c.ruler.charWidth = charWidth
  least : Blocks.minWidth ≤ c.width
  bounded : measured = true → c.Bounded

theorem Sized.perform {charWidth : Char → Nat} {measured : Bool} {c : Cache}
    (h : c.Sized charWidth measured) {op : Operation}
    (tab : c.complete = true ∨ c.keepsMeasures op = true) :
    (c.perform op).1.Sized charWidth (c.remeasures op || measured && c.keepsMeasures op) := by
  refine ⟨h.atPause.perform tab, ?_, ?_, ?_⟩
  · rw [ruler_perform, ← h.charWidth]
    cases op <;> rfl
  · cases hop : c.remeasures op with
    | true => exact (exact_perform h.atPause hop).least
    | false => exact h.least.trans (width_le_perform hop)
  · cases hop : c.remeasures op with
    | true => exact fun _ => (exact_perform h.atPause hop).bounded
    | false =>
      intro hflag
      obtain ⟨hmeasured, htab⟩ := Bool.and_eq_true_iff.1 hflag
      exact h.atPause.bounded_perform (h.bounded hmeasured) htab hop

theorem Ruled.sized {charWidth : Char → Nat} {measured : Bool} {c : Cache}
    (h : c.Ruled charWidth measured) : c.Sized charWidth measured := by
  induction h with
  | new language markup =>
    have hexact : { Cache.new language markup with ruler := { charWidth } }.Exact := rfl
    exact ⟨atPause_of_complete rfl, rfl, hexact.least, fun _ => hexact.bounded⟩
  | perform op tab _ ih => exact ih.perform tab

/-- The width bounds the lines, unless the tab width was set while a line held a tab and no
operation has measured the lines since. An operation that measures them leaves the width of the
widest, whatever was set before. Both are said of the columns that a word of 64 bits holds, which
are all of them for a line of fewer than that many. -/
theorem width_bounds_lines {charWidth : Char → Nat} {measured : Bool} {c : Cache}
    (h : c.Ruled charWidth measured) :
    c.ruler.charWidth = charWidth ∧ Blocks.minWidth ≤ c.width ∧
      (measured = true → ∀ line ∈ c.lines, c.ruler.columns line.raw % UInt64.size ≤ c.width) ∧
      ∀ op : Operation, c.remeasures op = true →
        let d := (c.perform op).1
        d.width = d.lines.foldl (fun widest line =>
          max widest (d.ruler.columns line.raw % UInt64.size)) Blocks.minWidth := by
  refine ⟨h.sized.charWidth, h.sized.least, ?_, ?_⟩
  · intro hmeasured line hl
    rw [← Ruler.measure_eq]
    exact h.sized.bounded hmeasured line hl
  · intro op hop d
    have hexact : d.Exact := exact_perform h.sized.atPause hop
    simp only [← Ruler.measure_eq]
    exact hexact

/-- An edit that shortens the widest line of a build under way leaves the width as it is, and a
rebuild lowers it. -/
theorem width_bounds_lines_wide :
    let charWidth : Char → Nat := fun _ => 50
    let c := { new Language.c .plain with ruler := { charWidth } }
    let c := (((c.setTabWidth 3).begin "ab\n\tc\n".toList).buildNext 1).setLine 0 ['x'] false |>.1
    c.width = 100 ∧ c.holdsTab = true ∧
      (∀ line ∈ c.lines, c.ruler.columns line.raw % UInt64.size ≤ 100) ∧ c.rebuild.width = 53 := by
  intro charWidth c₀ c
  have hnew : c₀.Ruled charWidth true := .new Language.c .plain
  have hruled : c.Ruled charWidth _ := .perform (.setLine 0 ['x'] false) (.inr rfl) <|
    .perform (.buildNext 1) (.inr rfl) <| .perform (.begin "ab\n\tc\n".toList) (.inr rfl) <|
    .perform (.setTabWidth 3) (.inl rfl) hnew
  have hwidth : c.width = 100 := by decide +kernel
  obtain ⟨-, -, hbound, hexact⟩ := width_bounds_lines hruled
  refine ⟨hwidth, by decide +kernel, ?_, ?_⟩
  · intro line hl
    exact (hbound (by decide +kernel) line hl).trans (Nat.le_of_eq hwidth)
  · exact (hexact .rebuild rfl).trans (by decide +kernel)

/-- Whether the operation builds the lines of a text. -/
def builds : Operation → Bool
  | .build _ | .begin _ | .rebuild | .setLanguage _ | .setMarkup _ | .setHighlight _ => true
  | .setLine _ value rebuild | .insertAt _ value rebuild => rebuild || value.hasBreak
  | .removeAt _ rebuild => rebuild
  | _ => false

/-- A tab put in by an edit, and measured by the tab width set before the first build. -/
theorem width_below_tab : ¬ ∀ ops : List Operation,
    (∀ before tabWidth after, ops = before ++ .setTabWidth tabWidth :: after →
      ∀ op ∈ before, builds op = false) →
    let c := ((new Language.c .plain).performAll ops).1
    ∀ line ∈ c.lines, c.ruler.measure line.raw ≤ c.width := by
  intro h
  have hfirst : ∀ op ∈ [Operation.setLine 0 ['\t'] false, .setTabWidth 41], builds op = false := by
    intro op hop
    rcases List.mem_cons.1 hop with rfl | hop
    · rfl
    · rw [List.mem_singleton.1 hop]
      rfl
  have hbound := h [.setLine 0 ['\t'] false, .setTabWidth 41]
    (fun before _ _ hops op hop => hfirst op (hops ▸ List.mem_append_left _ hop))
    ⟨['\t'], ['\t']⟩ (by decide +kernel)
  revert hbound
  decide +kernel

end Cache

end Highlighter
