import Highlighter.Proofs.Bytes.Spans
import Mathlib.Logic.Function.Iterate

/-!
# How many steps a pass takes

A step that turns between the idle state and a number leaves the machine where it is. Both
states ask whether the next character is a digit, and both then read it, so that no second turn
follows. Of two steps in a row one moves, and a pass takes two steps for every byte at most,
however it is cut: `pass_within_two_steps`.
-/

namespace Highlighter

/-! ### Machines that move at every second step -/

section Machine
variable {σ : Type} (step : σ → σ) (left : σ → Nat)

/-- No step leaves more to read, and of two steps in a row one leaves less. -/
structure MovesEverySecond : Prop where
  le (s : σ) : left (step s) ≤ left s
  lt (s : σ) : 0 < left s → left (step s) < left s ∨ left (step (step s)) < left (step s)

/-- The steps to the end, at most: two for every unit, but one for the next unit if the next
step reads it. -/
def stepsLeft (s : σ) : Nat := 2 * left s - if left (step s) < left s then 1 else 0

theorem stepsLeft_le (s : σ) : stepsLeft step left s ≤ 2 * left s := Nat.sub_le ..

variable {step left}

theorem stepsLeft_of_left_eq_zero {s : σ} (hs : left s = 0) : stepsLeft step left s = 0 := by
  have hle := stepsLeft_le step left s
  omega

namespace MovesEverySecond
variable (h : MovesEverySecond step left)
include h

theorem stepsLeft_step_lt {s : σ} (hs : 0 < left s) :
    stepsLeft step left (step s) < stepsLeft step left s := by
  have hnext := stepsLeft_le step left (step s)
  by_cases hmoves : left (step s) < left s
  · have hnow : stepsLeft step left s = 2 * left s - 1 := by rw [stepsLeft, if_pos hmoves]
    omega
  · have hstays : left (step s) = left s := Nat.le_antisymm (h.le s) (Nat.le_of_not_lt hmoves)
    have hsecond := (h.lt s hs).resolve_left hmoves
    have hnow : stepsLeft step left s = 2 * left s := by rw [stepsLeft, if_neg hmoves, Nat.sub_zero]
    have hthen : stepsLeft step left (step s) = 2 * left (step s) - 1 := by
      rw [stepsLeft, if_pos hsecond]
    omega

theorem left_iterate {n : Nat} {s : σ} (hn : stepsLeft step left s ≤ n) : left (step^[n] s) = 0 := by
  induction n generalizing s with
  | zero =>
    show left s = 0
    by_contra hs
    have hlt := h.stepsLeft_step_lt (Nat.pos_of_ne_zero hs)
    omega
  | succ n ih =>
    rw [Function.iterate_succ_apply]
    apply ih
    by_cases hs : 0 < left s
    · have hlt := h.stepsLeft_step_lt hs
      omega
    · have hend := h.le s
      have hle := stepsLeft_le step left (step s)
      omega

section Loop
variable (stop : σ → Prop) [DecidablePred stop]

/-- The steps of a loop that goes on until nothing is left or it has to stop. -/
def loopSteps (s : σ) : Nat :=
  if hs : left s = 0 ∨ stop s then 0
  else
    have : stepsLeft step left (step s) < stepsLeft step left s :=
      h.stepsLeft_step_lt (Nat.pos_of_ne_zero fun hz => hs (.inl hz))
    loopSteps (step s) + 1
termination_by stepsLeft step left s

/-- A loop pays for its steps out of those that were left. -/
theorem loopSteps_add_stepsLeft_le (s : σ) :
    h.loopSteps stop s + stepsLeft step left (step^[h.loopSteps stop s] s) ≤
      stepsLeft step left s := by
  fun_induction h.loopSteps stop s with
  | case1 s hs =>
    rw [Nat.zero_add]
    exact Nat.le_refl _
  | case2 s hs hlt ih =>
    rw [Function.iterate_succ_apply]
    omega

theorem loop_eq_iterate {loop : σ → σ}
    (hloop : ∀ s, loop s = if left s = 0 ∨ stop s then s else loop (step s)) (s : σ) :
    loop s = step^[h.loopSteps stop s] s := by
  fun_induction h.loopSteps stop s with
  | case1 s hs =>
    rw [hloop, if_pos hs]
    rfl
  | case2 s hs hlt ih => rw [hloop, if_neg hs, ih, Function.iterate_succ_apply]

end Loop

end MovesEverySecond

end Machine

/-- What the calls of a sequence cost together, if each costs what it says. -/
def totalCost {σ : Type} (call : Nat → σ → σ) (cost : Nat → σ → Nat) : List Nat → σ → Nat
  | [], _ => 0
  | limit :: limits, s => cost limit s + totalCost call cost limits (call limit s)

theorem totalCost_le {σ : Type} {call : Nat → σ → σ} {cost : Nat → σ → Nat} {budget : σ → Nat}
    (h : ∀ limit s, cost limit s + budget (call limit s) ≤ budget s) (limits : List Nat) (s : σ) :
    totalCost call cost limits s ≤ budget s := by
  induction limits generalizing s with
  | nil => exact Nat.zero_le _
  | cons limit limits ih =>
    have hfirst := h limit s
    have hrest := ih (call limit s)
    rw [totalCost]
    omega

/-! ### The machine on bytes -/

namespace ByteCursor
variable (lang : Language) (bs : Bytes)

def left (s : ByteCursor) : Nat := bs.length - s.index

variable {bs}

/-- A step stays in the bytes and does not go back, and if it stays where it is the next one
does not. -/
theorem index_step {s : ByteCursor} (hs : s.index < bs.length) :
    s.index ≤ (s.step lang bs).index ∧ (s.step lang bs).index ≤ bs.length ∧
      (s.index < (s.step lang bs).index ∨
        (s.step lang bs).index < ((s.step lang bs).step lang bs).index) := by
  rcases @step_cases lang bs s hs with ⟨hlt, hle⟩ | ⟨-, hd, hstep⟩ | ⟨-, hd, hstep⟩
  · exact ⟨Nat.le_of_lt hlt, hle, .inl hlt⟩
  · -- The digit that started the number is part of it.
    have hindex : (s.step lang bs).index = s.index := by rw [hstep]; rfl
    have hkind : (s.step lang bs).kind = .number := by rw [hstep]; rfl
    refine ⟨Nat.le_of_eq hindex.symm, by omega, .inr ?_⟩
    rcases @step_cases lang bs (s.step lang bs) (by omega) with h | ⟨hk, -⟩ | ⟨-, hd', -⟩
    · exact h.1
    · simp [hkind] at hk
    · simp [hindex, hd] at hd'
  · -- What ended the number starts none.
    have hindex : (s.step lang bs).index = s.index := by rw [hstep]; rfl
    have hkind : (s.step lang bs).kind = .default := by rw [hstep]; rfl
    refine ⟨Nat.le_of_eq hindex.symm, by omega, .inr ?_⟩
    rcases @step_cases lang bs (s.step lang bs) (by omega) with h | ⟨-, hd', -⟩ | ⟨hk, -⟩
    · exact h.1
    · simp [hindex, hd] at hd'
    · simp [hkind] at hk

theorem step_of_end {s : ByteCursor} (hs : bs.length ≤ s.index) : s.step lang bs = s := by
  rw [step, List.getElem?_eq_none hs]

variable (bs)

theorem movesEverySecond : MovesEverySecond (step lang bs) (left bs) where
  le s := by
    unfold left
    by_cases hs : s.index < bs.length
    · have h := index_step lang hs
      omega
    · rw [step_of_end lang (by omega)]
  lt s hs := by
    unfold left at hs ⊢
    have h := index_step lang (show s.index < bs.length by omega)
    omega

def runSteps (limit : Nat) (s : ByteCursor) : Nat :=
  (movesEverySecond lang bs).loopSteps (fun s => limit ≤ s.breaks) s

theorem run_eq_iterate (limit : Nat) (s : ByteCursor) :
    s.run lang bs limit = (step lang bs)^[s.runSteps lang bs limit] s := by
  refine (movesEverySecond lang bs).loop_eq_iterate _ (fun s => ?_) s
  have hdone : left bs s = 0 ↔ bs.length ≤ s.index := Nat.sub_eq_zero_iff_le
  split
  · exact run_of_done (by rwa [← hdone])
  · exact run_step (by omega) (by omega)

theorem runSteps_add_stepsLeft_le (limit : Nat) (s : ByteCursor) :
    s.runSteps lang bs limit + stepsLeft (step lang bs) (left bs) (s.run lang bs limit) ≤
      stepsLeft (step lang bs) (left bs) s := by
  rw [run_eq_iterate]
  exact (movesEverySecond lang bs).loopSteps_add_stepsLeft_le _ s

end ByteCursor

namespace ByteScanner

/-- The steps of a call, of which a finished pass takes none. -/
def advanceSteps (limit : Nat) (s : ByteScanner) : Nat :=
  if s.finished then 0 else s.cursor.runSteps s.language s.bytes limit

def steps (limits : List Nat) (s : ByteScanner) : Nat := totalCost advance advanceSteps limits s

def stepsLeft (s : ByteScanner) : Nat :=
  Highlighter.stepsLeft (ByteCursor.step s.language s.bytes) (ByteCursor.left s.bytes) s.cursor

theorem advanceSteps_add_stepsLeft_le (limit : Nat) (s : ByteScanner) :
    s.advanceSteps limit + (s.advance limit).stepsLeft ≤ s.stepsLeft := by
  have hrun := s.cursor.runSteps_add_stepsLeft_le s.language s.bytes limit
  unfold advanceSteps advance
  split
  · rw [Nat.zero_add]
  dsimp only
  split
  · -- The open block is emitted where nothing is left.
    rename_i hend
    have hleft : ((s.cursor.run s.language s.bytes limit).endBlockAt s.bytes.length
        (s.cursor.run s.language s.bytes limit).kind s.bytes.length).left s.bytes = 0 :=
      Nat.sub_eq_zero_of_le hend
    rw [stepsLeft, stepsLeft_of_left_eq_zero hleft, Nat.add_zero]
    exact (Nat.le_add_right ..).trans hrun
  · exact hrun

theorem steps_le (limits : List Nat) (s : ByteScanner) :
    s.steps limits ≤ 2 * (s.bytes.length - s.cursor.index) :=
  (totalCost_le advanceSteps_add_stepsLeft_le limits s).trans (Highlighter.stepsLeft_le ..)

end ByteScanner

/-! ### The machine on characters -/

namespace Cursor
variable (lang : Language)

theorem Advances.length_lt {s t : Cursor} (h : s.Advances t) (hs : s.rest ≠ []) :
    t.rest.length < s.rest.length := by
  obtain ⟨n, hn, hrest⟩ := h
  have hpos := List.length_pos_iff.2 hs
  rw [hrest, List.length_drop]
  omega

/-- A step leaves an end of the text that was ahead, and if it leaves all of it the next one
does not. -/
theorem rest_step {s : Cursor} (hs : s.rest ≠ []) :
    (s.step lang).rest <:+ s.rest ∧
      ((s.step lang).rest.length < s.rest.length ∨
        ((s.step lang).step lang).rest.length < (s.step lang).rest.length) := by
  obtain ⟨c, rest, hr⟩ := List.exists_cons_of_ne_nil hs
  rcases step_cases lang hr with h | ⟨-, hd, hstep⟩ | ⟨-, hd, hstep⟩
  · have hlt := h.length_lt hs
    obtain ⟨n, -, hrest⟩ := h
    exact ⟨hrest ▸ List.drop_suffix n s.rest, .inl hlt⟩
  · -- The digit that started the number is part of it.
    have hrest : (s.step lang).rest = s.rest := by rw [hstep, rest_enter, rest_flush]
    have hmode : (s.step lang).mode = .number .start := by rw [hstep, mode_enter]
    refine ⟨hrest ▸ List.suffix_rfl, .inr ?_⟩
    rcases step_cases lang (hrest.trans hr) with h | ⟨hm, -⟩ | ⟨-, hd', -⟩
    · exact h.length_lt (by rwa [hrest])
    · simp [hmode] at hm
    · simp [hd] at hd'
  · -- What ended the number starts none.
    have hrest : (s.step lang).rest = s.rest := by rw [hstep, rest_enter, rest_flush]
    have hmode : (s.step lang).mode = .idle := by rw [hstep, mode_enter]
    refine ⟨hrest ▸ List.suffix_rfl, .inr ?_⟩
    rcases step_cases lang (hrest.trans hr) with h | ⟨-, hd', -⟩ | ⟨⟨shape, hm⟩, -⟩
    · exact h.length_lt (by rwa [hrest])
    · simp [hd] at hd'
    · simp [hmode] at hm

theorem step_of_end {s : Cursor} (hs : s.rest = []) : s.step lang = s := by
  rw [step, hs]

def left (s : Cursor) : Nat := s.rest.length

theorem movesEverySecond : MovesEverySecond (step lang) left where
  le s := by
    by_cases hs : s.rest = []
    · rw [step_of_end lang hs]
    · exact (rest_step lang hs).1.length_le
  lt s hs := (rest_step lang (List.length_pos_iff.1 hs)).2

def runSteps (limit : Nat) (s : Cursor) : Nat :=
  (movesEverySecond lang).loopSteps (fun s => limit ≤ s.breaks) s

theorem run_eq_iterate (limit : Nat) (s : Cursor) :
    s.run lang limit = (step lang)^[s.runSteps lang limit] s := by
  refine (movesEverySecond lang).loop_eq_iterate _ (fun s => ?_) s
  have hdone : s.left = 0 ↔ s.rest = [] := List.length_eq_zero_iff
  split
  · exact run_of_done (by rwa [← hdone])
  · rename_i hgoes
    exact run_step (fun hr => hgoes (.inl (hdone.2 hr))) (by omega)

theorem runSteps_add_stepsLeft_le (limit : Nat) (s : Cursor) :
    s.runSteps lang limit + stepsLeft (step lang) left (s.run lang limit) ≤
      stepsLeft (step lang) left s := by
  rw [run_eq_iterate]
  exact (movesEverySecond lang).loopSteps_add_stepsLeft_le _ s

end Cursor

namespace Scanner

def advanceSteps (limit : Nat) (s : Scanner) : Nat :=
  if s.finished then 0 else s.cursor.runSteps s.language limit

def steps (limits : List Nat) (s : Scanner) : Nat := totalCost advance advanceSteps limits s

def stepsLeft (s : Scanner) : Nat :=
  Highlighter.stepsLeft (Cursor.step s.language) Cursor.left s.cursor

theorem advanceSteps_add_stepsLeft_le (limit : Nat) (s : Scanner) :
    s.advanceSteps limit + (s.advance limit).stepsLeft ≤ s.stepsLeft := by
  have hrun := s.cursor.runSteps_add_stepsLeft_le s.language limit
  unfold advanceSteps advance
  split
  · rw [Nat.zero_add]
  dsimp only
  split
  · rename_i hend
    have hleft : (s.cursor.run s.language limit).flush.left = 0 := by
      rw [Cursor.left, Cursor.rest_flush, List.isEmpty_iff.1 hend]
      rfl
    rw [stepsLeft, stepsLeft_of_left_eq_zero hleft, Nat.add_zero]
    exact (Nat.le_add_right ..).trans hrun
  · exact hrun

theorem steps_le (limits : List Nat) (s : Scanner) :
    s.steps limits ≤ 2 * s.cursor.rest.length :=
  (totalCost_le advanceSteps_add_stepsLeft_le limits s).trans (Highlighter.stepsLeft_le ..)

end Scanner

/-! ### Passes -/

/-- Of two steps of either machine, wherever it stands, one reads on, and none leaves the text.
So the calls of a pass, which are runs of such steps, take two steps for every unit of the text
at most, and as many steps end it. -/
theorem pass_within_two_steps (lang : Language) (highlight : Bool) (text : Text)
    (limits : List Nat) :
    let bs := text.utf8
    let b := ByteScanner.start lang highlight bs
    let s := Scanner.start lang highlight text
    (∀ v : ByteCursor, v.index < bs.length →
      let w := v.step lang bs
      v.index ≤ w.index ∧ w.index ≤ bs.length ∧
        (v.index < w.index ∨ w.index < (w.step lang bs).index)) ∧
    (∀ (limit : Nat) (v : ByteCursor),
      v.run lang bs limit = (ByteCursor.step lang bs)^[v.runSteps lang bs limit] v) ∧
    b.steps limits ≤ 2 * bs.length ∧
    bs.length ≤ ((ByteCursor.step lang bs)^[2 * bs.length] b.cursor).index ∧
    (∀ v : Cursor, v.rest ≠ [] →
      let w := v.step lang
      w.rest <:+ v.rest ∧
        (w.rest.length < v.rest.length ∨ (w.step lang).rest.length < w.rest.length)) ∧
    (∀ (limit : Nat) (v : Cursor),
      v.run lang limit = (Cursor.step lang)^[v.runSteps lang limit] v) ∧
    s.steps limits ≤ 2 * text.length ∧
    ((Cursor.step lang)^[2 * text.length] s.cursor).rest = [] := by
  intro bs b s
  refine ⟨fun v hv => ByteCursor.index_step lang hv, ByteCursor.run_eq_iterate lang bs,
    b.steps_le limits, ?_, fun v hv => Cursor.rest_step lang hv, Cursor.run_eq_iterate lang,
    s.steps_le limits, ?_⟩
  · have hend := (ByteCursor.movesEverySecond lang bs).left_iterate
      (stepsLeft_le (ByteCursor.step lang bs) (ByteCursor.left bs) b.cursor)
    exact Nat.le_of_sub_eq_zero hend
  · have hend := (Cursor.movesEverySecond lang).left_iterate
      (stepsLeft_le (Cursor.step lang) Cursor.left s.cursor)
    exact List.length_eq_zero_iff.1 hend

/-- A digit takes two steps, and a text of one digit as many as there can be. -/
theorem pass_within_two_steps_digit :
    let lang : Language := { stringDelimiter := none }
    let bs := Text.utf8 ['7']
    let v := ByteCursor.start true
    let s := Scanner.start lang true ['7']
    v.index < bs.length ∧ (v.step lang bs).index = 0 ∧
      (v.step lang bs).index < ((v.step lang bs).step lang bs).index ∧
      s.cursor.rest ≠ [] ∧ (s.cursor.step lang).rest = ['7'] ∧
      ((s.cursor.step lang).step lang).rest.length < (s.cursor.step lang).rest.length ∧
      s.steps [0, 1, 1] = 2 := by
  intro lang bs v s
  have hv : v.index < bs.length := by decide
  have hs : s.cursor.rest ≠ [] := by decide
  obtain ⟨hbytes, -, -, -, hchars, -, hle, -⟩ := pass_within_two_steps lang true ['7'] [0, 1, 1]
  refine ⟨hv, by decide, (hbytes v hv).2.2.resolve_left (by decide), hs, by decide,
    (hchars s.cursor hs).2.resolve_left (by decide), Nat.le_antisymm hle (by decide +kernel)⟩

end Highlighter
