import Highlighter.Block.Basic

/-!
# Lines of blocks

Blocks are closed when no line of theirs is open: there are none, or the last of them is a
line break. What follows closed blocks starts a line of its own, so lines, widths and
counts of code lines can be taken piece by piece, `lines_append`.
-/

namespace Highlighter

namespace Blocks

theorem breaks_append (bs cs : Blocks) : breaks (bs ++ cs) = bs.breaks + cs.breaks := by
  simp [breaks]

theorem breaks_cons_lineBreak {b : Block} (hb : b.isLineBreak = true) (bs : Blocks) :
    breaks (b :: bs) = bs.breaks + 1 := by
  simp [breaks, hb]

theorem breaks_cons {b : Block} (hb : b.isLineBreak = false) (bs : Blocks) :
    breaks (b :: bs) = bs.breaks := by
  simp [breaks, hb]

theorem lines_cons_lineBreak {b : Block} (hb : b.isLineBreak = true) (bs : Blocks) :
    lines (b :: bs) = [] :: lines bs := by
  rw [lines, if_pos hb]

theorem lines_ne_nil (bs : Blocks) : lines bs ≠ [] := by
  intro h
  have hl := length_lines bs
  rw [h, lineCount] at hl
  simp at hl

theorem lines_cons {b : Block} (hb : b.isLineBreak = false) {bs l : Blocks} {ls : List Blocks}
    (h : lines bs = l :: ls) : lines (b :: bs) = (b :: l) :: ls := by
  rw [lines, if_neg (by simp [hb]), h]

/-- Blocks without a line break and the line break after them are a line. -/
theorem lines_append_lineBreak {bs : Blocks} (h : ∀ b ∈ bs, b.isLineBreak = false) {b : Block}
    (hb : b.isLineBreak = true) (cs : Blocks) : (bs ++ b :: cs).lines = bs :: cs.lines := by
  induction bs with
  | nil => exact lines_cons_lineBreak hb cs
  | cons c bs ih =>
    have hbs := ih fun x hx => h x (List.mem_cons_of_mem _ hx)
    exact lines_cons (h c (List.mem_cons_self ..)) hbs

theorem lines_of_no_lineBreak {bs : Blocks} (h : ∀ b ∈ bs, b.isLineBreak = false) :
    bs.lines = [bs] := by
  induction bs with
  | nil => rfl
  | cons c bs ih =>
    have hbs := ih fun x hx => h x (List.mem_cons_of_mem _ hx)
    exact lines_cons (h c (List.mem_cons_self ..)) hbs

theorem exists_line_of_mem {bs : Blocks} {b : Block} (h : b ∈ bs) (hb : b.isLineBreak = false) :
    ∃ line ∈ bs.lines, b ∈ line := by
  induction bs with
  | nil => cases h
  | cons d bs ih =>
    obtain ⟨l, ls, hl⟩ := List.exists_cons_of_ne_nil (lines_ne_nil bs)
    cases hd : d.isLineBreak with
    | true =>
      have hmem : b ∈ bs := by
        rcases List.mem_cons.1 h with rfl | hmem
        · rw [hb] at hd
          cases hd
        · exact hmem
      obtain ⟨line, hline, hin⟩ := ih hmem
      rw [lines_cons_lineBreak hd]
      exact ⟨line, List.mem_cons_of_mem _ hline, hin⟩
    | false =>
      rw [lines_cons hd hl]
      rcases List.mem_cons.1 h with rfl | hmem
      · exact ⟨b :: l, List.mem_cons_self .., List.mem_cons_self ..⟩
      · obtain ⟨line, hline, hin⟩ := ih hmem
        rw [hl] at hline
        rcases List.mem_cons.1 hline with rfl | hline
        · exact ⟨d :: line, List.mem_cons_self .., List.mem_cons_of_mem _ hin⟩
        · exact ⟨line, List.mem_cons_of_mem _ hline, hin⟩

/-! ### Closed blocks -/

/-- No line of the blocks is open. -/
def Closed (bs : Blocks) : Prop := ∀ b ∈ bs.getLast?, b.isLineBreak = true

theorem closed_nil : Closed [] := by
  intro b hb
  cases hb

theorem closed_append_lineBreak (bs : Blocks) (ending : Text) :
    Closed (bs ++ [⟨.lineBreak, ending⟩]) := by
  intro b hb
  rw [List.getLast?_concat, Option.mem_some_iff] at hb
  subst hb
  rfl

theorem Closed.tail {b : Block} {bs : Blocks} (h : Closed (b :: bs)) : bs.Closed := by
  intro c hc
  apply h
  rw [List.getLast?_cons, Option.mem_def.1 hc]
  rfl

/-- A first block that is no line break is not the last. -/
theorem Closed.breaks_pos {b : Block} {bs : Blocks} (h : Closed (b :: bs))
    (hb : b.isLineBreak = false) : 0 < bs.breaks := by
  induction bs generalizing b with
  | nil =>
    have hlast := h b rfl
    rw [hb] at hlast
    cases hlast
  | cons c bs ih =>
    cases hc : c.isLineBreak with
    | true =>
      rw [breaks_cons_lineBreak hc]
      omega
    | false =>
      rw [breaks_cons hc]
      exact ih h.tail hc

/-- Lines after closed blocks are lines of their own. -/
theorem lines_append {bs : Blocks} (h : bs.Closed) (cs : Blocks) :
    (bs ++ cs).lines = bs.lines.dropLast ++ cs.lines := by
  induction bs with
  | nil => rfl
  | cons b bs ih =>
    have hbs := ih h.tail
    cases hb : b.isLineBreak with
    | true =>
      rw [List.cons_append, lines_cons_lineBreak hb, lines_cons_lineBreak hb, hbs,
        List.dropLast_cons_of_ne_nil (lines_ne_nil bs), List.cons_append]
    | false =>
      obtain ⟨l, ls, hl⟩ := List.exists_cons_of_ne_nil (lines_ne_nil bs)
      -- The line of `b` ends inside of `bs`, so it is not the one that is dropped.
      have hls : ls ≠ [] := by
        intro hnil
        have hlen := length_lines bs
        rw [hl, hnil, lineCount, List.length_singleton] at hlen
        have hpos := h.breaks_pos hb
        omega
      rw [hl, List.dropLast_cons_of_ne_nil hls, List.cons_append] at hbs
      rw [List.cons_append, lines_cons hb hl, lines_cons hb hbs, List.dropLast_cons_of_ne_nil hls,
        List.cons_append]

theorem Closed.lines_eq {bs : Blocks} (h : bs.Closed) : bs.lines = bs.lines.dropLast ++ [[]] := by
  have happ := lines_append h []
  rwa [List.append_nil] at happ

theorem length_dropLast_lines (bs : Blocks) : bs.lines.dropLast.length = bs.breaks := by
  rw [List.length_dropLast, length_lines, lineCount, Nat.add_sub_cancel]

/-! ### Measures in pieces -/

theorem foldl_max_eq {α : Type} (f : α → Nat) (l : List α) (n : Nat) :
    l.foldl (fun widest x => max widest (f x)) n =
      max n (l.foldl (fun widest x => max widest (f x)) 0) := by
  induction l generalizing n with
  | nil => exact (Nat.max_eq_left (Nat.zero_le n)).symm
  | cons x l ih =>
    rw [List.foldl_cons, List.foldl_cons, ih, ih (max 0 (f x)), Nat.max_assoc, Nat.zero_max]

theorem foldl_max_le_iff {α : Type} (f : α → Nat) (l : List α) {n bound : Nat} :
    l.foldl (fun widest x => max widest (f x)) n ≤ bound ↔ n ≤ bound ∧ ∀ x ∈ l, f x ≤ bound := by
  induction l generalizing n with
  | nil => simp
  | cons x l ih =>
    rw [List.foldl_cons, ih, Nat.max_le, List.forall_mem_cons, and_assoc]

theorem minWidth_le_maxWidth (ruler : Ruler) (bs : Blocks) : minWidth ≤ bs.maxWidth ruler := by
  rw [maxWidth, foldl_max_eq]
  exact Nat.le_max_left ..

theorem lineWidth_eq (ruler : Ruler) (bs : Blocks) : lineWidth ruler bs = ruler.measure bs.concat := by
  induction bs with
  | nil => rfl
  | cons b bs ih =>
    rw [concat_cons, Ruler.measure_append, ← ih]
    rfl

namespace Closed
variable {bs : Blocks} (h : bs.Closed)
include h

theorem maxWidth_eq (ruler : Ruler) :
    bs.maxWidth ruler =
      bs.lines.dropLast.foldl (fun widest line => max widest (lineWidth ruler line)) minWidth := by
  rw [maxWidth, h.lines_eq, List.foldl_append, List.dropLast_concat]
  exact Nat.max_eq_left (Nat.zero_le _)

theorem codeLineCount_eq :
    bs.codeLineCount = bs.lines.dropLast.countP fun line => line.any Block.isCode := by
  rw [codeLineCount, h.lines_eq, List.countP_append, List.dropLast_concat]
  rfl

theorem maxWidth_append (ruler : Ruler) (cs : Blocks) :
    (bs ++ cs).maxWidth ruler = max (bs.maxWidth ruler) (cs.maxWidth ruler) := by
  have hmin : max (bs.maxWidth ruler) minWidth = bs.maxWidth ruler :=
    Nat.max_eq_left (minWidth_le_maxWidth ruler bs)
  have hcs : cs.maxWidth ruler =
      max minWidth (cs.lines.foldl (fun widest line => max widest (lineWidth ruler line)) 0) :=
    foldl_max_eq ..
  rw [hcs, ← Nat.max_assoc, hmin, ← foldl_max_eq, h.maxWidth_eq, ← List.foldl_append,
    ← lines_append h, maxWidth]

theorem codeLineCount_append (cs : Blocks) :
    (bs ++ cs).codeLineCount = bs.codeLineCount + cs.codeLineCount := by
  rw [codeLineCount, lines_append h, List.countP_append, ← h.codeLineCount_eq]
  rfl

end Closed

/-! ### The blocks of the first lines -/

/-- The blocks up to and with the line break that ends line `n`, or all blocks. -/
def upToBreak : Nat → Blocks → Blocks
  | 0, _ => []
  | _ + 1, [] => []
  | n + 1, b :: bs => b :: upToBreak (if b.isLineBreak then n else n + 1) bs

/-- A closed piece in front is what stands up to its own last line break. -/
theorem upToBreak_append {bs : Blocks} (h : bs.Closed) (cs : Blocks) :
    upToBreak bs.breaks (bs ++ cs) = bs := by
  induction bs with
  | nil =>
    show upToBreak 0 cs = []
    rw [upToBreak]
  | cons b bs ih =>
    have hbs := ih h.tail
    cases hb : b.isLineBreak with
    | true =>
      rw [breaks_cons_lineBreak hb, List.cons_append, upToBreak, if_pos hb, hbs]
    | false =>
      obtain ⟨n, hn⟩ := Nat.exists_eq_add_one_of_ne_zero (Nat.pos_iff_ne_zero.1 (h.breaks_pos hb))
      rw [hn] at hbs
      rw [breaks_cons hb, hn, List.cons_append, upToBreak, if_neg (by simp [hb]), hbs]

theorem take_lines_append {bs : Blocks} (h : bs.Closed) (cs : Blocks) :
    (bs ++ cs).lines.take bs.breaks = bs.lines.dropLast := by
  rw [lines_append h, ← length_dropLast_lines, List.take_left]

end Blocks

end Highlighter
