import Highlighter.Proofs.Cache.Operation

/-!
# A rebuild forgets the past

What can be seen of a cache after a build is a function of its settings and of the text,
`Setup.view`. The pool, the assembler, the scanner of single lines and an unfinished pass
may be in any state before. So every operation that ends in a build leaves what a new
cache with the same settings would show.
-/

namespace Highlighter

namespace Cache

structure View where
  lines : List Line
  width : Nat
  codeLines : Nat
  blocks : Blocks
  complete : Bool
  deriving DecidableEq

def view (c : Cache) : View where
  lines := c.lines
  width := c.width
  codeLines := c.codeLines
  blocks := c.blocks
  complete := c.complete

/-- A new cache that has been given the settings. -/
def fresh (s : Setup) : Cache :=
  (((new s.language s.markup).setHighlight s.highlight).setTerminator s.terminator).setTabWidth
    s.ruler.tabWidth

/-- The cache shows what a fresh one with the settings shows after building the text. -/
def ShowsBuild (c : Cache) (s : Setup) (text : Text) : Prop :=
  c.setup = s ∧ c.view = ((fresh s).build text).view

def Setup.view (s : Setup) (text : Text) : View :=
  let blocks := scan s.language s.highlight text
  { lines := blocks.toLines s.markup
    width := max Blocks.minWidth (blocks.maxWidth s.ruler)
    codeLines := blocks.codeLineCount
    blocks
    complete := true }

theorem view_build (c : Cache) (text : Text) : (c.build text).view = c.setup.view text := by
  rw [view, lines_build, width_build, codeLines_build, blocks_build, complete_build]
  rfl

/-! ### Settings along a run -/

/-- Only the width of a tab is ever set, and it is at least one column. -/
def Setup.Ordinary (s : Setup) : Prop :=
  s.ruler = { tabWidth := s.ruler.tabWidth } ∧ 1 ≤ s.ruler.tabWidth

theorem setup_setLanguage (c : Cache) (language : Language) :
    (c.setLanguage language).setup = { c.setup with language } := by
  have h := setup_finish c
  rw [setLanguage, setup_rebuild, ← h]
  rfl

theorem setup_setMarkup (c : Cache) (markup : Markup) :
    (c.setMarkup markup).setup = { c.setup with markup } := by
  have h := setup_finish c
  rw [setMarkup, setup_rebuild, ← h]
  rfl

theorem setup_setHighlight (c : Cache) (highlight : Bool) :
    (c.setHighlight highlight).setup = { c.setup with highlight } := by
  have h := setup_finish c
  rw [setHighlight, setup_rebuild, ← h]
  rfl

theorem setup_setLine (c : Cache) (index : Nat) (value : Text) (rebuild : Bool) :
    (c.setLine index value rebuild).1.setup = c.setup := by
  rw [setLine_eq]
  split
  · rw [setup_settle, setup_putLine, setup_finish]
  · exact setup_finish c

theorem setup_insertAt (c : Cache) (index : Nat) (value : Text) (rebuild : Bool) :
    (c.insertAt index value rebuild).1.setup = c.setup := by
  rw [insertAt_eq]
  split
  · rw [setup_settle, setup_spliceLine, setup_finish]
  · exact setup_finish c

theorem setup_removeAt (c : Cache) (index : Nat) (rebuild : Bool) :
    (c.removeAt index rebuild).1.setup = c.setup := by
  rw [removeAt_eq]
  split
  · rw [setup_settle, setup_dropLine, setup_finish]
  · exact setup_finish c

theorem setup_clear (c : Cache) : c.clear.setup = c.setup := setup_finish c

/-- The ruler that an operation leaves. -/
def rulerAfter (ruler : Ruler) : Operation → Ruler
  | .setTabWidth tabWidth => { ruler with tabWidth := max tabWidth 1 }
  | _ => ruler

theorem ruler_perform (c : Cache) (op : Operation) :
    (c.perform op).1.ruler = rulerAfter c.ruler op := by
  cases op with
  | build text => exact congrArg Setup.ruler (setup_build c text)
  | buildNext count => exact congrArg Setup.ruler (setup_buildNext count c)
  | finish => exact congrArg Setup.ruler (setup_finish c)
  | setLine index value rebuild => exact congrArg Setup.ruler (setup_setLine c index value rebuild)
  | insertAt index value rebuild =>
    exact congrArg Setup.ruler (setup_insertAt c index value rebuild)
  | removeAt index rebuild => exact congrArg Setup.ruler (setup_removeAt c index rebuild)
  | rebuild => exact congrArg Setup.ruler (setup_rebuild c)
  | clear => exact congrArg Setup.ruler (setup_clear c)
  | setLanguage language => exact congrArg Setup.ruler (setup_setLanguage c language)
  | setMarkup markup => exact congrArg Setup.ruler (setup_setMarkup c markup)
  | setHighlight highlight => exact congrArg Setup.ruler (setup_setHighlight c highlight)
  | «begin» text | setTerminator terminator | setTabWidth tabWidth | emptyLike => rfl

theorem ordinary_perform {c : Cache} (h : c.setup.Ordinary) (op : Operation) :
    (c.perform op).1.setup.Ordinary := by
  obtain ⟨hruler, htab⟩ : c.ruler = { tabWidth := c.ruler.tabWidth } ∧ 1 ≤ c.ruler.tabWidth := h
  show (c.perform op).1.ruler = { tabWidth := (c.perform op).1.ruler.tabWidth } ∧
    1 ≤ (c.perform op).1.ruler.tabWidth
  rw [ruler_perform]
  cases op with
  | setTabWidth tabWidth =>
    rw [hruler]
    exact ⟨rfl, Nat.le_max_right ..⟩
  | _ => exact ⟨hruler, htab⟩

theorem Reachable.ordinary {c : Cache} (h : c.Reachable) : c.setup.Ordinary := by
  induction h with
  | new language markup => exact ⟨rfl, Nat.le_add_left 1 3⟩
  | perform op _ ih => exact ordinary_perform ih op

theorem setup_setTerminator (c : Cache) (terminator : Terminator) :
    (c.setTerminator terminator).setup = { c.setup with terminator } := rfl

theorem setup_setTabWidth (c : Cache) (tabWidth : Nat) :
    (c.setTabWidth tabWidth).setup =
      { c.setup with ruler := { c.setup.ruler with tabWidth := max tabWidth 1 } } := rfl

theorem setup_fresh {s : Setup} (h : s.Ordinary) : (fresh s).setup = s := by
  obtain ⟨hr, ht⟩ := h
  have hmax : max s.ruler.tabWidth 1 = s.ruler.tabWidth := Nat.max_eq_left ht
  rw [fresh, setup_setTabWidth, setup_setTerminator, setup_setHighlight, hmax]
  have hnew : (new s.language s.markup).setup.ruler = {} := rfl
  dsimp only
  rw [hnew, ← hr]
  rfl

/-! ### Operations that end in a build -/

theorem showsBuild_build {c : Cache} (h : c.setup.Ordinary) (text : Text) :
    (c.build text).ShowsBuild c.setup text := by
  refine ⟨setup_build c text, ?_⟩
  rw [view_build, view_build, setup_fresh h]

/-- A cache made from a finished one shows the build of its own lines. -/
theorem showsBuild_rebuild {c d : Cache} {s : Setup} {lines : List Text} (hs : d.setup = s)
    (h : s.Ordinary) (hr : d.rawLines = lines) (ht : d.terminator = c.finish.terminator) :
    d.rebuild.ShowsBuild s (c.terminator.joinLines lines) := by
  have hterm : c.finish.terminator = c.terminator := congrArg Setup.terminator (setup_finish c)
  have htext : d.text = c.terminator.joinLines lines := by
    rw [text_eq, hr, ht, hterm]
  subst hs
  rw [Cache.rebuild, htext]
  exact showsBuild_build h _

section Edits
variable {c : Cache} (h : c.setup.Ordinary) {index : Nat} {value : Text} {rebuild : Bool}
include h

theorem showsBuild_setLine (hr : rebuild = true ∨ value.hasBreak = true)
    (hok : (c.setLine index value rebuild).2 = none) :
    (c.setLine index value rebuild).1.ShowsBuild c.setup
      (c.terminator.joinLines (c.finish.rawLines.set index value)) := by
  rw [setLine_eq] at hok ⊢
  split at hok
  · rename_i hi
    have hs : (c.finish.putLine index value).setup = c.setup := setup_finish c
    rw [if_pos hi, settle, if_pos (by simpa using hr)]
    exact showsBuild_rebuild hs h (rawLines_putLine ..) rfl
  · cases hok

theorem showsBuild_insertAt (hr : rebuild = true ∨ value.hasBreak = true)
    (hok : (c.insertAt index value rebuild).2 = none) :
    (c.insertAt index value rebuild).1.ShowsBuild c.setup
      (c.terminator.joinLines (c.finish.rawLines.insertIdx index value)) := by
  rw [insertAt_eq] at hok ⊢
  split at hok
  · rename_i hi
    have hs : (c.finish.spliceLine index value).setup = c.setup := setup_finish c
    rw [if_pos hi, settle, if_pos (by simpa using hr)]
    exact showsBuild_rebuild hs h (rawLines_spliceLine ..) rfl
  · cases hok

theorem showsBuild_removeAt (hok : (c.removeAt index true).2 = none) :
    (c.removeAt index true).1.ShowsBuild c.setup
      (c.terminator.joinLines (withoutLine c.finish.rawLines index)) := by
  rw [removeAt_eq] at hok ⊢
  split at hok
  · rename_i hi
    have hs : (c.finish.dropLine index).setup = c.setup := setup_finish c
    rw [if_pos hi, settle, if_pos rfl]
    exact showsBuild_rebuild hs h (rawLines_dropLine ..) rfl
  · cases hok

end Edits

/-- Building anew leaves nothing of what came before: every operation that ends in a build
shows what a fresh cache with the same settings shows after a build of the same text. -/
theorem rebuild_forgets {c : Cache} (h : c.Reachable) :
    (∀ text, (c.build text).ShowsBuild c.setup text) ∧
    (∀ index value rebuild, rebuild = true ∨ value.hasBreak = true →
      (c.setLine index value rebuild).2 = none →
      (c.setLine index value rebuild).1.ShowsBuild c.setup
        (c.terminator.joinLines (c.finish.rawLines.set index value))) ∧
    (∀ index value rebuild, rebuild = true ∨ value.hasBreak = true →
      (c.insertAt index value rebuild).2 = none →
      (c.insertAt index value rebuild).1.ShowsBuild c.setup
        (c.terminator.joinLines (c.finish.rawLines.insertIdx index value))) ∧
    (∀ index, (c.removeAt index true).2 = none →
      (c.removeAt index true).1.ShowsBuild c.setup
        (c.terminator.joinLines (withoutLine c.finish.rawLines index))) ∧
    (∀ language, (c.setLanguage language).ShowsBuild { c.setup with language }
      (c.terminator.joinLines c.finish.rawLines)) ∧
    (∀ markup, (c.setMarkup markup).ShowsBuild { c.setup with markup }
      (c.terminator.joinLines c.finish.rawLines)) ∧
    (∀ highlight, (c.setHighlight highlight).ShowsBuild { c.setup with highlight }
      (c.terminator.joinLines c.finish.rawLines)) ∧
    (c.complete = true → c.rebuild.ShowsBuild c.setup
      (c.terminator.joinLines c.finish.rawLines)) := by
  have ho := h.ordinary
  refine ⟨?_, ?_, ?_, ?_, ?_, ?_, ?_, ?_⟩
  · exact showsBuild_build ho
  · intro index value rebuild hr hok
    exact showsBuild_setLine ho hr hok
  · intro index value rebuild hr hok
    exact showsBuild_insertAt ho hr hok
  · intro index hok
    exact showsBuild_removeAt ho hok
  · intro language
    have hs : { c.finish.setup with language } = { c.setup with language } := by rw [setup_finish]
    exact showsBuild_rebuild hs ho rfl rfl
  · intro markup
    have hs : { c.finish.setup with markup } = { c.setup with markup } := by rw [setup_finish]
    exact showsBuild_rebuild hs ho rfl rfl
  · intro highlight
    have hs : { c.finish.setup with highlight } = { c.setup with highlight } := by rw [setup_finish]
    exact showsBuild_rebuild hs ho rfl rfl
  · intro hc
    rw [finish_of_complete hc]
    exact showsBuild_build ho c.text

/-- Edits in the middle of a build, and a rebuild once it is complete. -/
theorem rebuild_forgets_midway :
    let lang : Language := { blockComment := some ("/*".toList, "*/".toList) }
    let c := (((new lang .plain).setTabWidth 3).begin "a /*\nb\nc".toList).buildNext 1
    c.Reachable ∧ c.complete = false ∧
      (c.setLine 2 "*/ x\ny".toList false).2 = none ∧
      (c.setLine 2 "*/ x\ny".toList false).1.ShowsBuild c.setup "a /*\nb\n*/ x\ny".toList ∧
      (c.insertAt 3 "*/".toList true).2 = none ∧
      (c.insertAt 3 "*/".toList true).1.ShowsBuild c.setup "a /*\nb\nc\n*/".toList ∧
      (c.removeAt 0 true).2 = none ∧
      (c.removeAt 0 true).1.ShowsBuild c.setup "b\nc".toList ∧
      c.finish.complete = true ∧ c.finish.rebuild.ShowsBuild c.finish.setup "a /*\nb\nc".toList := by
  intro lang c
  have hc : c.Reachable :=
    .perform (.buildNext 1) (.perform (.begin _) (.perform (.setTabWidth 3) (.new lang .plain)))
  have hf : c.finish.Reachable := .perform .finish hc
  have hraw : c.finish.rawLines = ["a /*".toList, "b".toList, "c".toList] := by decide +kernel
  have hset : (c.setLine 2 "*/ x\ny".toList false).2 = none := by decide +kernel
  have hins : (c.insertAt 3 "*/".toList true).2 = none := by decide +kernel
  have hrem : (c.removeAt 0 true).2 = none := by decide +kernel
  have hdone : c.finish.complete = true := by decide +kernel
  obtain ⟨-, hs, hi, hr, -⟩ := rebuild_forgets hc
  obtain ⟨-, -, -, -, -, -, -, hb⟩ := rebuild_forgets hf
  have hs := hs 2 "*/ x\ny".toList false (.inr rfl) hset
  have hi := hi 3 "*/".toList true (.inl rfl) hins
  have hr := hr 0 hrem
  have hb := hb hdone
  have hterm : c.terminator = .lf := by decide +kernel
  have htexts : Terminator.lf.joinLines (c.finish.rawLines.set 2 "*/ x\ny".toList) =
      "a /*\nb\n*/ x\ny".toList ∧
      Terminator.lf.joinLines (c.finish.rawLines.insertIdx 3 "*/".toList) =
        "a /*\nb\nc\n*/".toList ∧
      Terminator.lf.joinLines (withoutLine c.finish.rawLines 0) = "b\nc".toList ∧
      Terminator.lf.joinLines c.finish.rawLines = "a /*\nb\nc".toList := by
    rw [hraw]
    decide
  have hfterm : c.finish.terminator = .lf := by decide +kernel
  obtain ⟨h1, h2, h3, h4⟩ := htexts
  rw [hterm, h1] at hs
  rw [hterm, h2] at hi
  rw [hterm, h3] at hr
  rw [finish_of_complete hdone, hfterm, h4] at hb
  exact ⟨hc, by decide +kernel, hset, hs, hins, hi, hrem, hr, hdone, hb⟩

end Cache

end Highlighter
