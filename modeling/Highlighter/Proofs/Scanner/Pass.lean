import Highlighter.Scanner.Basic
import Highlighter.Proofs.Scanner.Step

/-!
# Passes in pieces

A run that stops and goes on is one run. So a pass may be cut into any pieces: as long
as it is open its cursor is the one run from the start of the text has reached, and once
it is finished its blocks are those of the whole text.
-/

namespace Highlighter

namespace Blocks

theorem breaks_le_length_concat {bs : Blocks} (h : ∀ b ∈ bs, b.content ≠ []) :
    bs.breaks ≤ bs.concat.length := by
  induction bs with
  | nil => exact Nat.le_refl 0
  | cons b bs ih =>
    have hb : 0 < b.content.length := List.length_pos_iff.2 (h b (List.mem_cons_self ..))
    have hbs := ih fun x hx => h x (List.mem_cons_of_mem _ hx)
    have hcount : breaks (b :: bs) ≤ breaks bs + 1 := by
      simp only [breaks, List.countP_cons]
      split <;> omega
    rw [concat_cons, List.length_append]
    omega

end Blocks

namespace Cursor

/-! ### Runs -/

theorem run_of_done {lang : Language} {limit : Nat} {s : Cursor}
    (h : s.rest = [] ∨ limit ≤ s.breaks) : s.run lang limit = s := by
  rw [run, dif_pos h]

theorem run_step {lang : Language} {limit : Nat} {s : Cursor} (hr : s.rest ≠ [])
    (hb : s.breaks < limit) : s.run lang limit = (s.step lang).run lang limit := by
  rw [run, dif_neg]
  rintro (h | h)
  · exact hr h
  · omega

theorem run_done (lang : Language) (limit : Nat) (s : Cursor) :
    (s.run lang limit).rest = [] ∨ limit ≤ (s.run lang limit).breaks := by
  fun_induction run lang limit s with
  | case1 s h => exact h
  | case2 s h hlt ih => exact ih

/-- A run that stops early and goes on is the longer run. -/
theorem run_run {lang : Language} {limit limit' : Nat} (h : limit ≤ limit') (s : Cursor) :
    (s.run lang limit).run lang limit' = s.run lang limit' := by
  fun_induction run lang limit s with
  | case1 s hd => rfl
  | case2 s hd hlt ih =>
    have hr : s.rest ≠ [] := fun hr => hd (.inl hr)
    have hb : s.breaks < limit := by
      by_contra hb
      exact hd (.inr (by omega))
    rw [ih, ← run_step hr (by omega)]

theorem run_run_of_le {lang : Language} {limit limit' : Nat} (h : limit' ≤ limit) (s : Cursor) :
    (s.run lang limit).run lang limit' = s.run lang limit := by
  refine run_of_done ?_
  rcases run_done lang limit s with hr | hb
  · exact .inl hr
  · exact .inr (h.trans hb)

namespace Sound
variable {t : Text} {s : Cursor}

theorem breaks_add_length_le (h : s.Sound t) : s.breaks + s.rest.length ≤ t.length := by
  have hb := Blocks.breaks_le_length_concat h.nonempty
  have hl : s.before.reverse.length = _ := congrArg List.length h.covered
  have ht := congrArg List.length h.text
  have hs := h.breaks
  simp only [List.length_append, List.length_reverse] at hl ht
  omega

theorem rest_run (h : s.Sound t) (lang : Language) {limit : Nat} (hl : t.length < limit) :
    (s.run lang limit).rest = [] := by
  rcases run_done lang limit s with hr | hb
  · exact hr
  · have hle := (h.run lang limit).breaks_add_length_le
    omega

/-- All runs that reach the end of the text are the same run. -/
theorem run_eq_run (h : s.Sound t) {lang : Language} {limit limit' : Nat}
    (hr : (s.run lang limit).rest = []) (hl : t.length < limit') :
    s.run lang limit' = s.run lang limit := by
  rcases Nat.le_total limit limit' with hle | hle
  · rw [← run_run hle s, run_of_done (.inl hr)]
  · rw [← run_run hle s, run_of_done (.inl (h.rest_run lang hl))]

end Sound

end Cursor

namespace Scanner

/-! ### Passes -/

def advanceAll (limits : List Nat) (s : Scanner) : Scanner :=
  limits.foldl (fun s limit => s.advance limit) s

@[simp] theorem language_advance (limit : Nat) (s : Scanner) :
    (s.advance limit).language = s.language := by
  unfold advance; split <;> [rfl; (dsimp only; split <;> rfl)]

@[simp] theorem highlight_advance (limit : Nat) (s : Scanner) :
    (s.advance limit).highlight = s.highlight := by
  unfold advance; split <;> [rfl; (dsimp only; split <;> rfl)]

@[simp] theorem text_advance (limit : Nat) (s : Scanner) : (s.advance limit).text = s.text := by
  unfold advance; split <;> [rfl; (dsimp only; split <;> rfl)]

theorem advance_of_finished {limit : Nat} {s : Scanner} (h : s.finished = true) :
    s.advance limit = s := by
  rw [advance, if_pos h]

/-- The cursor of the pass from the start of the text to a number of line breaks. -/
def cursorAt (s : Scanner) (limit : Nat) : Cursor :=
  (Cursor.start s.highlight s.text).run s.language limit

@[simp] theorem cursorAt_advance (limit limit' : Nat) (s : Scanner) :
    (s.advance limit).cursorAt limit' = s.cursorAt limit' := by
  simp [cursorAt]

@[simp] theorem everyBreak_advance (limit : Nat) (s : Scanner) :
    (s.advance limit).everyBreak = s.everyBreak := by
  simp [everyBreak]

/-- A scanner between two calls: its cursor is where one run from the start of the text
stops, or the pass is finished and the run has come to the end. -/
inductive OnPass (s : Scanner) : Prop where
  | open (limit : Nat) (unfinished : s.finished = false) (cursor : s.cursor = s.cursorAt limit)
  | closed (finished : s.finished = true) (cursor : s.cursor = (s.cursorAt s.everyBreak).flush)

theorem onPass_start (language : Language) (highlight : Bool) (text : Text) :
    (start language highlight text).OnPass := by
  refine .open 0 rfl ?_
  rw [cursorAt, Cursor.run_of_done (.inr (Nat.zero_le _))]
  rfl

theorem cursorAt_run (s : Scanner) (limit limit' : Nat) :
    (s.cursorAt limit).run s.language limit' = s.cursorAt (max limit limit') := by
  rcases Nat.le_total limit limit' with h | h
  · rw [cursorAt, Cursor.run_run h, Nat.max_eq_right h]
    rfl
  · rw [cursorAt, Cursor.run_run_of_le h, Nat.max_eq_left h]
    rfl

theorem cursorAt_everyBreak {s : Scanner} {limit : Nat} (h : (s.cursorAt limit).rest = []) :
    s.cursorAt s.everyBreak = s.cursorAt limit :=
  (Cursor.Sound.start s.highlight s.text).run_eq_run h (Nat.lt_succ_self _)

/-- A call on an open pass moves the cursor, and finishes the pass at the end of the text. -/
theorem advance_open {s : Scanner} {limit : Nat} (hf : s.finished = false)
    (hc : s.cursor = s.cursorAt limit) (limit' : Nat) :
    let cursor := s.cursorAt (max limit limit')
    s.advance limit' =
      if cursor.rest = [] then { s with cursor := cursor.flush, finished := true }
      else { s with cursor } := by
  intro cursor
  have hrun : s.cursor.run s.language limit' = cursor := by rw [hc, cursorAt_run]
  rw [advance, if_neg (by simp [hf]), hrun]
  by_cases h : cursor.rest = []
  · rw [if_pos h]
    simp [h]
  · rw [if_neg h]
    simp [h]

theorem OnPass.advance {s : Scanner} (h : s.OnPass) (limit : Nat) : (s.advance limit).OnPass := by
  cases h with
  | «open» limit₀ hf hc =>
    rw [advance_open hf hc]
    split
    · rename_i hr
      refine .closed rfl ?_
      exact congrArg Cursor.flush (cursorAt_everyBreak hr).symm
    · exact .open _ hf rfl
  | closed hf hc =>
    rw [advance_of_finished hf]
    exact .closed hf hc

theorem OnPass.advanceAll {s : Scanner} (h : s.OnPass) (limits : List Nat) :
    (s.advanceAll limits).OnPass := by
  induction limits generalizing s with
  | nil => exact h
  | cons limit limits ih => exact ih (h.advance limit)

theorem settings_advanceAll (limits : List Nat) (s : Scanner) :
    (s.advanceAll limits).language = s.language ∧
      (s.advanceAll limits).highlight = s.highlight ∧ (s.advanceAll limits).text = s.text := by
  induction limits generalizing s with
  | nil => exact ⟨rfl, rfl, rfl⟩
  | cons limit limits ih =>
    have h := ih (s.advance limit)
    rw [language_advance, highlight_advance, text_advance] at h
    exact h

namespace OnPass
variable {s : Scanner}

theorem finished_advance (h : s.OnPass) {limit : Nat} (hl : s.everyBreak ≤ limit) :
    (s.advance limit).finished = true := by
  cases h with
  | «open» limit₀ hf hc =>
    have hr : (s.cursorAt (max limit₀ limit)).rest = [] :=
      (Cursor.Sound.start s.highlight s.text).rest_run _ (by unfold everyBreak at hl; omega)
    rw [advance_open hf hc, if_pos hr]
  | closed hf hc => rw [advance_of_finished hf, hf]

theorem finished_finish (h : s.OnPass) : s.finish.finished = true :=
  h.finished_advance (Nat.le_refl _)

end OnPass

theorem blocks_prefix_advance (limit : Nat) (s : Scanner) :
    s.blocks <+: (s.advance limit).blocks := by
  have hrun := Cursor.blocks_prefix_run s.language limit s.cursor
  unfold advance
  split
  · exact List.prefix_rfl
  dsimp only
  split
  · exact hrun.trans (Cursor.blocks_prefix_flushAs _ _)
  · exact hrun

theorem settings_finish (s : Scanner) :
    s.finish.language = s.language ∧ s.finish.highlight = s.highlight ∧ s.finish.text = s.text := by
  simp [finish]

end Scanner

theorem scan_eq (language : Language) (highlight : Bool) (text : Text) :
    scan language highlight text =
      ((Cursor.start highlight text).run language (text.length + 1)).flush.blocks := by
  have hpass := Scanner.onPass_start language highlight text
  have hdone := hpass.finished_finish
  cases hpass.advance (Scanner.start language highlight text).everyBreak with
  | «open» limit hf hc =>
    rw [Scanner.finish, hf] at hdone
    cases hdone
  | closed hf hc =>
    rw [Scanner.cursorAt_advance, Scanner.everyBreak_advance] at hc
    rw [scan, Scanner.blocks, Scanner.finish, hc]
    rfl

namespace Scanner

/-- A finished pass has the blocks of the whole text, however it was cut. -/
theorem OnPass.blocks_of_finished {s : Scanner} (h : s.OnPass) (hf : s.finished = true) :
    s.blocks = scan s.language s.highlight s.text := by
  cases h with
  | «open» limit hf' hc =>
    rw [hf] at hf'
    cases hf'
  | closed _ hc =>
    rw [blocks, hc, scan_eq]
    rfl

theorem OnPass.blocks_finish {s : Scanner} (h : s.OnPass) :
    s.finish.blocks = scan s.language s.highlight s.text := by
  have hb := (h.advance s.everyBreak).blocks_of_finished h.finished_finish
  obtain ⟨hl, hh, ht⟩ := settings_finish s
  rw [← finish, hl, hh, ht] at hb
  exact hb

theorem blocks_advanceAll_of_finished {language : Language} {highlight : Bool} {text : Text}
    {limits : List Nat} (hf : ((start language highlight text).advanceAll limits).finished = true) :
    ((start language highlight text).advanceAll limits).blocks = scan language highlight text := by
  have hpass := (onPass_start language highlight text).advanceAll limits
  obtain ⟨hlang, hhigh, htext⟩ := settings_advanceAll limits (start language highlight text)
  rw [hpass.blocks_of_finished hf, hlang, hhigh, htext]
  rfl

end Scanner

end Highlighter
