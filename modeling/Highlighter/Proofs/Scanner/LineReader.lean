import Highlighter.Proofs.Scanner.Locality
import Highlighter.Proofs.Scanner.Unformatted
import Mathlib.Data.List.InsertIdx

/-!
# Lines read in turn

A reader takes lines one by one and hands a bit on from each to the next. A change of one
line that does not change the bit behind it changes the blocks of that line and of no other.
A pass is such a reader, `lines_scan_lineReader`, and its bit says whether the text is inside
of a block comment, `stateAfter_eq_insideComment`.
-/

namespace Highlighter

/-- The blocks of a line, and the bit behind it, from the bit before it. -/
abbrev LineReader := Bool → Text → Blocks × Bool

namespace LineReader
variable (read : LineReader)

/-- The blocks of lines that are read in turn. -/
def blocks : Bool → List Text → List Blocks
  | _, [] => []
  | bit, l :: ls => (read bit l).1 :: blocks (read bit l).2 ls

/-- The bit behind the last of the lines. -/
def stateAfter (bit : Bool) (ls : List Text) : Bool := ls.foldl (fun bit l => (read bit l).2) bit

theorem stateAfter_cons (bit : Bool) (l : Text) (ls : List Text) :
    read.stateAfter bit (l :: ls) = read.stateAfter (read bit l).2 ls := rfl

/-! ### Changes of one line -/

section Edits
variable {read} {bit bit' : Bool} {ls : List Text} {i : Nat} {l : Text}

theorem blocks_set (hi : i < ls.length) (hat : read.stateAfter bit (ls.take i) = bit')
    (h : (read bit' l).2 = (read bit' ls[i]).2) :
    read.blocks bit (ls.set i l) = (read.blocks bit ls).set i (read bit' l).1 := by
  induction ls generalizing bit i with
  | nil => cases hi
  | cons m ls ih =>
    cases i with
    | zero =>
      have hbit : bit = bit' := hat
      have hnext : (read bit' l).2 = (read bit' m).2 := h
      show (read bit l).1 :: read.blocks (read bit l).2 ls =
        (read bit' l).1 :: read.blocks (read bit m).2 ls
      rw [hbit, hnext]
    | succ i =>
      apply congrArg (List.cons (read bit m).1)
      exact ih (Nat.lt_of_succ_lt_succ hi) hat h

theorem blocks_insertIdx (hi : i ≤ ls.length) (hat : read.stateAfter bit (ls.take i) = bit')
    (h : (read bit' l).2 = bit') :
    read.blocks bit (ls.insertIdx i l) = (read.blocks bit ls).insertIdx i (read bit' l).1 := by
  induction i generalizing bit ls with
  | zero =>
    have hbit : bit = bit' := hat
    show (read bit l).1 :: read.blocks (read bit l).2 ls = (read bit' l).1 :: read.blocks bit ls
    rw [hbit, h]
  | succ i ih =>
    cases ls with
    | nil => cases hi
    | cons m ls =>
      apply congrArg (List.cons (read bit m).1)
      exact ih (Nat.le_of_succ_le_succ hi) hat

theorem blocks_eraseIdx (hi : i < ls.length)
    (h : read.stateAfter bit (ls.take i) = read.stateAfter bit (ls.take (i + 1))) :
    read.blocks bit (ls.eraseIdx i) = (read.blocks bit ls).eraseIdx i := by
  induction ls generalizing bit i with
  | nil => cases hi
  | cons m ls ih =>
    cases i with
    | zero =>
      have hbit : bit = (read bit m).2 := h
      show read.blocks bit ls = read.blocks (read bit m).2 ls
      rw [← hbit]
    | succ i =>
      apply congrArg (List.cons (read bit m).1)
      exact ih (Nat.lt_of_succ_lt_succ hi) h

end Edits

end LineReader

/-! ### The reader of a pass -/

/-- Reads lines as a pass over their text does. -/
def lineReader (lang : Language) (highlight : Bool) : LineReader :=
  if highlight then scanLine lang else fun _ content => (unformatted content, false)

theorem no_lineBreak_scanLine (lang : Language) (inComment : Bool) {content : Text}
    (hc : content.hasBreak = false) : ∀ b ∈ (scanLine lang inComment content).1,
      b.isLineBreak = false :=
  ((Cursor.unbroken_lineStart inComment hc).run lang _).flush.blocks

theorem lines_scanLines (lang : Language) (inComment : Bool) {segs : List Segment}
    (hne : segs ≠ []) (hb : ∀ s ∈ segs, s.content.hasBreak = false) :
    (scanLines lang inComment segs).lines =
      LineReader.blocks (scanLine lang) inComment (segs.map Segment.content) := by
  induction segs generalizing inComment with
  | nil => exact absurd rfl hne
  | cons s segs ih =>
    have hs := no_lineBreak_scanLine lang inComment (hb s (List.mem_cons_self ..))
    cases segs with
    | nil => exact Blocks.lines_of_no_lineBreak hs
    | cons t segs =>
      have hrest := ih (scanLine lang inComment s.content).2 (List.cons_ne_nil t segs)
        fun x hx => hb x (List.mem_cons_of_mem _ hx)
      rw [scanLines]
      dsimp only
      rw [Blocks.lines_append_lineBreak hs rfl, hrest]
      rfl

theorem lineReader_false (lang : Language) (highlight : Bool) {content : Text}
    (hc : content.hasBreak = false) :
    (lineReader lang highlight false content).1 = scan lang highlight content := by
  cases highlight with
  | true => exact scanLine_false lang content
  | false => exact (scan_unformatted lang hc).symm

theorem stateAfter_lineReader_off (lang : Language) (ls : List Text) :
    (lineReader lang false).stateAfter false ls = false := by
  induction ls with
  | nil => rfl
  | cons l ls ih => exact ih

section
variable {lang : Language} (nf : lang.NewlineFree) (hl : lang.charLookahead = false)
include nf hl

/-- The lines of a text have the blocks that they have read in turn. -/
theorem lines_scan_lineReader (highlight : Bool) (text : Text) :
    (scan lang highlight text).lines = (lineReader lang highlight).blocks false text.lines := by
  cases highlight with
  | true =>
    have hb : ∀ s ∈ text.segments, s.content.hasBreak = false := by
      intro s hs
      exact Text.hasBreak_of_mem_lines (List.mem_map_of_mem hs)
    rw [scan_eq_scanLines nf hl]
    exact lines_scanLines lang false (Text.segments_ne_nil text) hb
  | false =>
    have hmap : ∀ ls : List Text, (lineReader lang false).blocks false ls = ls.map unformatted := by
      intro ls
      induction ls with
      | nil => rfl
      | cons l ls ih => exact congrArg (List.cons _) ih
    rw [lines_scan_unformatted, hmap]

end

/-! ### Inside of a comment -/

/-- Whether the pass over a text is inside of a block comment behind its first `n` line
breaks, or at its end if it has fewer. -/
def insideComment (lang : Language) (text : Text) (n : Nat) : Bool :=
  ((Cursor.start true text).run lang n).mode == .blockComment

/-- Whether the text by itself ends inside of a block comment. -/
def endsInComment (lang : Language) (text : Text) : Bool :=
  insideComment lang text (text.length + 1)

theorem scanLine_snd_false (lang : Language) (content : Text) :
    (scanLine lang false content).2 = endsInComment lang content := rfl

section
variable {lang : Language} (nf : lang.NewlineFree) (hl : lang.charLookahead = false)
include nf hl

/-- Behind `n` more lines the mode of the pass is given by the bit that these hand on. -/
theorem mode_run_lineStart_embed (t : Text) : ∀ (inComment : Bool) (outer : Text) (past : Blocks)
    (k n : Nat), AtBreak outer →
    ((((Cursor.lineStart inComment t).embed outer [] past k).run lang (k + n)).mode ==
      .blockComment) = LineReader.stateAfter (scanLine lang) inComment (t.lines.take n) := by
  -- Where no line is to come, the cursor stays at the start of this one.
  have hzero : ∀ (t : Text) (inComment : Bool) (outer : Text) (past : Blocks) (k : Nat),
      ((((Cursor.lineStart inComment t).embed outer [] past k).run lang (k + 0)).mode ==
        .blockComment) = inComment := by
    intro t inComment outer past k
    rw [Cursor.run_of_done (.inr (Nat.le_refl k))]
    cases inComment <;> rfl
  induction t using Text.segments_induction with
  | last t ht =>
    intro inComment outer past k n houter
    cases n with
    | zero => exact hzero t inComment outer past k
    | succ n =>
      have hlimit : k < k + (n + 1) := by omega
      rw [Cursor.run_lastLine_embed nf hl houter ht hlimit, Text.lines_of_hasBreak_eq_false ht,
        List.take_succ_cons, List.take_nil]
      rfl
  | line content ending rest hcon hend ih =>
    intro inComment outer past k n houter
    cases n with
    | zero => exact hzero _ inComment outer past k
    | succ n =>
      -- One line of the text is behind the cursor now, and one less is to come.
      have hlimit : k < k + (n + 1) := by omega
      obtain ⟨outer', houter', hrun⟩ :=
        Cursor.run_line_embed nf hl houter hcon hlimit inComment past hend
      have hshift : k + (n + 1) = k + 1 + n := by omega
      rw [hrun, hshift, ih _ _ _ _ _ houter', Text.lines_line hcon hend, List.take_succ_cons,
        LineReader.stateAfter_cons]

theorem stateAfter_eq_insideComment (text : Text) (n : Nat) :
    (lineReader lang true).stateAfter false (text.lines.take n) = insideComment lang text n := by
  have hrun := mode_run_lineStart_embed nf hl text false [] [] 0 n atBreak_nil
  have hstart : (Cursor.lineStart false text).embed [] [] [] 0 = Cursor.start true text := by
    simp [Cursor.lineStart, Cursor.embed, Cursor.start]
  rw [hstart, Nat.zero_add] at hrun
  exact hrun.symm

end

end Highlighter
