import Highlighter.Language.Builtin
import Highlighter.Proofs.Scanner.Pause

/-!
# Sequences of calls

The calls on a scanner as data, so that a sequence of them is a list. A call that changes the
text or the settings starts the pass anew, and any other call moves it along. So a scanner
carries nothing over: what it has emitted is the front of one pass over the current text under
the current settings, `blocks_callAll_prefix`.
-/

namespace Highlighter.Scanner

inductive Call where
  | setText (text : Text)
  | setLine (index : Nat) (value : Text)
  | setLanguage (language : Language)
  | setHighlight (highlight : Bool)
  | restart
  | advance (limit : Nat)
  | finish

/-- The text of a scanner and how it is read, without a pass. -/
structure Source where
  language : Language
  highlight : Bool := true
  text : Text := []

namespace Source

/-- What a call leaves to read. A line that the text does not have is not replaced. -/
def update (source : Source) : Call → Source
  | .setText text => { source with text }
  | .setLine index value =>
    if index < source.text.lines.length then
      { source with text := source.text.replaceLine index value }
    else source
  | .setLanguage language => { source with language }
  | .setHighlight highlight => { source with highlight }
  | .restart | .advance _ | .finish => source

def updateAll (source : Source) (calls : List Call) : Source := calls.foldl update source

/-- The blocks of a new scanner that reads all of the text at once. -/
def blocks (source : Source) : Blocks := scan source.language source.highlight source.text

end Source

def source (s : Scanner) : Source := ⟨s.language, s.highlight, s.text⟩

def call (s : Scanner) : Call → Scanner
  | .setText text => s.setText text
  | .setLine index value => (s.setLine? index value).getD s
  | .setLanguage language => s.setLanguage language
  | .setHighlight highlight => s.setHighlight highlight
  | .restart => s.restart
  | .advance limit => s.advance limit
  | .finish => s.finish

def callAll (s : Scanner) (calls : List Call) : Scanner := calls.foldl call s

/-! ### One call -/

theorem source_advance (s : Scanner) (limit : Nat) : (s.advance limit).source = s.source := by
  rw [source, language_advance, highlight_advance, text_advance]
  rfl

theorem source_call (s : Scanner) (call : Call) : (s.call call).source = s.source.update call := by
  cases call with
  | setLine index value =>
    by_cases h : index < s.text.lines.length
    · have hset : s.setLine? index value =
          some (s.setText (s.text.replaceLine index value)).finish := if_pos h
      have hupdate : s.source.update (.setLine index value) =
          (s.setText (s.text.replaceLine index value)).source := if_pos h
      rw [call, hset, hupdate]
      exact source_advance (s.setText (s.text.replaceLine index value)) _
    · have hset : s.setLine? index value = none := if_neg h
      have hupdate : s.source.update (.setLine index value) = s.source := if_neg h
      rw [call, hset, hupdate]
      rfl
  | advance limit => exact source_advance s limit
  | finish => exact source_advance s s.everyBreak
  | setText text | setLanguage language | setHighlight highlight | restart => rfl

theorem OnPass.call {s : Scanner} (h : s.OnPass) (call : Call) : (s.call call).OnPass := by
  cases call with
  | setText text => exact onPass_start ..
  | setLine index value =>
    by_cases hindex : index < s.text.lines.length
    · have hset : s.setLine? index value =
          some (s.setText (s.text.replaceLine index value)).finish := if_pos hindex
      rw [Scanner.call, hset]
      exact (onPass_start ..).advance _
    · have hset : s.setLine? index value = none := if_neg hindex
      rw [Scanner.call, hset]
      exact h
  | setLanguage language => exact onPass_start ..
  | setHighlight highlight => exact onPass_start ..
  | restart => exact onPass_start ..
  | advance limit => exact h.advance limit
  | finish => exact h.advance s.everyBreak

/-! ### Sequences of calls -/

theorem source_callAll (s : Scanner) (calls : List Call) :
    (s.callAll calls).source = s.source.updateAll calls := by
  induction calls generalizing s with
  | nil => rfl
  | cons call calls ih =>
    have hrest := ih (s.call call)
    rw [source_call] at hrest
    exact hrest

theorem OnPass.callAll {s : Scanner} (h : s.OnPass) (calls : List Call) :
    (s.callAll calls).OnPass := by
  induction calls generalizing s with
  | nil => exact h
  | cons call calls ih => exact ih (h.call call)

/-! ### What a scanner on its pass holds -/

namespace OnPass
variable {s : Scanner} (h : s.OnPass)
include h

theorem blocks_prefix : s.blocks <+: s.wholeBlocks := by
  cases h with
  | «open» limit unfinished cursor =>
    rw [blocks, cursor]
    exact s.blocks_cursorAt_prefix limit
  | closed finished cursor =>
    have hblocks : s.blocks = s.wholeBlocks := by rw [blocks, cursor, wholeBlocks_eq]
    exact hblocks.symm ▸ List.prefix_refl _

theorem breaks_eq : s.breaks = s.blocks.breaks := by
  cases h with
  | «open» limit unfinished cursor =>
    rw [breaks, blocks, cursor]
    exact (s.sound_cursorAt limit).breaks
  | closed finished cursor =>
    rw [breaks, blocks, cursor]
    exact (s.sound_cursorAt s.everyBreak).flush.breaks

/-- A call that does not come to the end of the text stops for its limit, or has nothing to
do. It stops behind a line end, where no line and no block is open. -/
theorem paused_advance {limit : Nat} (hs : s.finished = false)
    (ht : (s.advance limit).finished = false) :
    (s.advance limit).breaks = max limit s.breaks ∧ (s.advance limit).cursor.AtLineStart ∧
      (s.advance limit).cursor.Sound s.text := by
  cases h with
  | «open» reached unfinished cursor =>
    have hrest : (s.cursorAt (max reached limit)).rest ≠ [] := by
      intro hend
      rw [advance_open hs cursor, if_pos hend] at ht
      cases ht
    have hrest₀ : (s.cursorAt reached).rest ≠ [] := fun hend =>
      hrest (rest_cursorAt_of_le (Nat.le_max_left ..) hend)
    have hbreaks : s.breaks = reached := by
      rw [breaks, cursor]
      exact (paused_cursorAt hrest₀).1
    have hcursor : (s.advance limit).cursor = s.cursorAt (max reached limit) := by
      rw [advance_open hs cursor, if_neg hrest]
    have hpaused := paused_cursorAt hrest
    rw [breaks, hcursor, hbreaks, Nat.max_comm limit]
    exact ⟨hpaused.1, hpaused.2, s.sound_cursorAt _⟩
  | closed finished cursor =>
    rw [hs] at finished
    cases finished

end OnPass

/-- After any calls on a new scanner its blocks are the first ones of a pass over what there
is to read now, all of them if it is finished, and its line breaks are counted. The next call
with a limit finishes the pass, or stops right behind the line break that the limit names. -/
theorem blocks_callAll_prefix (language : Language) (calls : List Call) :
    let s := (start language true []).callAll calls
    s.source = Source.updateAll { language } calls ∧
      s.blocks <+: s.source.blocks ∧
      s.breaks = s.blocks.breaks ∧
      (s.finished = true → s.blocks = s.source.blocks) ∧
      ∀ limit : Nat, s.finished = false →
        let t := s.advance limit
        t.finished = true ∨
          t.breaks = max limit s.breaks ∧
          (∀ b ∈ t.blocks.getLast?, b.isLineBreak = true) ∧
          t.blocks.concat = t.cursor.before.reverse ∧
          t.text = t.cursor.before.reverse ++ t.cursor.rest := by
  intro s
  have hpass : s.OnPass := (onPass_start language true []).callAll calls
  refine ⟨source_callAll _ calls, hpass.blocks_prefix, hpass.breaks_eq,
    hpass.blocks_of_finished, ?_⟩
  intro limit hs t
  cases ht : t.finished with
  | true => exact .inl rfl
  | false =>
    obtain ⟨hbreaks, hstart, hsound⟩ := hpass.paused_advance hs ht
    refine .inr ⟨hbreaks, hstart.2, ?_, ?_⟩
    · have hcovered := hsound.covered
      rw [hstart.1, List.reverse_nil, List.append_nil] at hcovered
      exact hcovered.symm
    · rw [text_advance]
      exact hsound.text.symm

/-- A pass taken up inside a block comment, after another text and a replaced line, and the
same pass at its end. -/
theorem blocks_callAll_prefix_resumed :
    let calls : List Call := [.setText "/* a".toList, .finish, .setText "x\n/*\n*/".toList,
      .setLine 2 "*/ y".toList, .restart, .advance 1]
    let s := (start Language.c true []).callAll calls
    let t := s.advance 2
    let u := (start Language.c true []).callAll (calls ++ [.finish])
    s.finished = false ∧ t.finished = false ∧ t.breaks = 2 ∧
      t.blocks.concat = "x\n/*\n".toList ∧ u.finished = true ∧
      u.blocks = scan Language.c true "x\n/*\n*/ y".toList := by
  intro calls s t u
  have hs : s.finished = false := by decide +kernel
  have ht : t.finished = false := by decide +kernel
  have hu : u.finished = true := by decide +kernel
  obtain ⟨-, -, -, -, hnext⟩ := blocks_callAll_prefix Language.c calls
  obtain ⟨hsource, -, -, hall, -⟩ := blocks_callAll_prefix Language.c (calls ++ [.finish])
  rcases hnext 2 hs with hend | ⟨hbreaks, -, hconcat, -⟩
  · rw [ht] at hend
    cases hend
  · refine ⟨hs, ht, ?_, ?_, hu, ?_⟩
    · exact hbreaks.trans (by decide +kernel)
    · exact hconcat.trans (by decide +kernel)
    · rw [hall hu, hsource]
      rfl

end Highlighter.Scanner
