import Highlighter.Line.Assembler
import Highlighter.Proofs.Scanner.LineBreaks

/-!
# Lines from blocks

Blocks may be assembled in any pieces: a piece goes on with the line that the one before
it left open. Which records the pool hands out shows in no line. So the lines of a block
sequence are those of its cuts at the line breaks, one by one.
-/

namespace Highlighter

def Line.ofBlocks (markup : Markup) (bs : Blocks) : Line where
  raw := bs.concat
  formatted := markup.writeAll bs

namespace Assembler

variable (markup : Markup)

/-- What a piece completes, and the line that it leaves open. -/
def gather (finished : Bool) (bs : Blocks) (a : Assembler) : List Line × Assembler :=
  let (lines, a, _) := append markup finished bs a .empty
  (lines, a)

variable {markup}

theorem gather_nil_false (a : Assembler) : gather markup false [] a = ([], a) := rfl

theorem gather_nil_true (a : Assembler) : gather markup true [] a = ([a.line], empty) := rfl

/-- The pool decides which records are used, not what is in them. -/
theorem append_eq_gather (markup : Markup) (finished : Bool) (bs : Blocks) (a : Assembler)
    (pool : LinePool) :
    ((append markup finished bs a pool).1, (append markup finished bs a pool).2.1) =
      gather markup finished bs a := by
  have key : ∀ pool pool' : LinePool,
      ((append markup finished bs a pool).1, (append markup finished bs a pool).2.1) =
      ((append markup finished bs a pool').1, (append markup finished bs a pool').2.1) := by
    induction bs generalizing a with
    | nil =>
      intro pool pool'
      cases finished <;> rfl
    | cons b bs ih =>
      intro pool pool'
      cases hb : b.isLineBreak with
      | true =>
        have h := ih empty (a.close pool).2 (a.close pool').2
        rw [Prod.mk.injEq] at h
        simp only [append, hb, if_true, close_fst, h.1, h.2]
      | false =>
        simp only [append, hb, Bool.false_eq_true, if_false]
        exact ih (a.push markup b) pool pool'
  exact key pool .empty

theorem gather_lineBreak (finished : Bool) {b : Block} (hb : b.isLineBreak = true) (bs : Blocks)
    (a : Assembler) :
    gather markup finished (b :: bs) a =
      (a.line :: (gather markup finished bs empty).1, (gather markup finished bs empty).2) := by
  have h := append_eq_gather markup finished bs empty (a.close .empty).2
  rw [← h, gather]
  simp only [append, hb, if_true, close_fst]

theorem gather_cons (finished : Bool) {b : Block} (hb : b.isLineBreak = false) (bs : Blocks)
    (a : Assembler) :
    gather markup finished (b :: bs) a = gather markup finished bs (a.push markup b) := by
  simp only [gather, append, hb, Bool.false_eq_true, if_false]

theorem gather_append (finished : Bool) (bs cs : Blocks) (a : Assembler) :
    gather markup finished (bs ++ cs) a =
      ((gather markup false bs a).1 ++ (gather markup finished cs (gather markup false bs a).2).1,
        (gather markup finished cs (gather markup false bs a).2).2) := by
  induction bs generalizing a with
  | nil => rw [gather_nil_false, List.nil_append, List.nil_append]
  | cons b bs ih =>
    cases hb : b.isLineBreak with
    | true =>
      rw [List.cons_append, gather_lineBreak finished hb, gather_lineBreak false hb, ih empty]
      rfl
    | false => rw [List.cons_append, gather_cons finished hb, gather_cons false hb, ih]

theorem line_foldl_push (bs : Blocks) (a : Assembler) :
    (bs.foldl (push markup) a).line =
      { raw := a.raw ++ bs.concat, formatted := a.formatted ++ markup.writeAll bs } := by
  induction bs generalizing a with
  | nil => simp [line, Markup.writeAll]
  | cons b bs ih =>
    rw [List.foldl_cons, ih, raw_push, formatted_push, Blocks.concat_cons]
    simp [Markup.writeAll]

/-- The lines of the blocks, the first of which goes on with the open line. -/
theorem gather_true (bs : Blocks) (a : Assembler) {l : Blocks} {ls : List Blocks}
    (h : bs.lines = l :: ls) :
    (gather markup true bs a).1 =
      { raw := a.raw ++ l.concat, formatted := a.formatted ++ markup.writeAll l } ::
        ls.map (Line.ofBlocks markup) := by
  induction bs generalizing a l ls with
  | nil =>
    cases h
    simp [gather_nil_true, line, Markup.writeAll]
  | cons b bs ih =>
    obtain ⟨m, ms, hm⟩ := List.exists_cons_of_ne_nil (Blocks.lines_ne_nil bs)
    cases hb : b.isLineBreak with
    | true =>
      rw [Blocks.lines_cons_lineBreak hb, List.cons.injEq] at h
      obtain ⟨rfl, rfl⟩ := h
      rw [gather_lineBreak true hb, ih empty hm, hm, raw_empty, formatted_empty]
      simp [line, Markup.writeAll, Line.ofBlocks]
    | false =>
      rw [Blocks.lines_cons hb hm, List.cons.injEq] at h
      obtain ⟨rfl, rfl⟩ := h
      rw [gather_cons true hb, ih (a.push markup b) hm, raw_push, formatted_push,
        Blocks.concat_cons]
      simp [Markup.writeAll]

/-- As long as there is more to come, the last line is held back. -/
theorem gather_false (bs : Blocks) (a : Assembler) :
    (gather markup false bs a).1 = (gather markup true bs a).1.dropLast := by
  have h : gather markup true (bs ++ []) a = _ := gather_append true bs [] a
  rw [List.append_nil, gather_nil_true] at h
  rw [h, List.dropLast_concat]

end Assembler

namespace Blocks

variable (markup : Markup) (bs : Blocks)

theorem toLines_eq_gather : bs.toLines markup = (Assembler.gather markup true bs .empty).1 := rfl

theorem toLines_eq : bs.toLines markup = bs.lines.map (Line.ofBlocks markup) := by
  obtain ⟨l, ls, h⟩ := List.exists_cons_of_ne_nil (lines_ne_nil bs)
  rw [toLines_eq_gather, Assembler.gather_true bs .empty h, h]
  rfl

theorem raw_toLines : (bs.toLines markup).map Line.raw = bs.lines.map concat := by
  rw [toLines_eq, List.map_map]
  rfl

theorem toLines_ne_nil : bs.toLines markup ≠ [] := by
  rw [toLines_eq]
  simp [lines_ne_nil]

theorem gather_false_eq :
    (Assembler.gather markup false bs .empty).1 = (bs.toLines markup).dropLast :=
  Assembler.gather_false bs .empty

variable {markup bs}

theorem exists_ofBlocks_of_mem_toLines {line : Line} (h : line ∈ bs.toLines markup) :
    ∃ cs, line = Line.ofBlocks markup cs := by
  rw [toLines_eq, List.mem_map] at h
  obtain ⟨cs, -, rfl⟩ := h
  exact ⟨cs, rfl⟩

theorem exists_ofBlocks_of_mem_gather {finished : Bool} {line : Line}
    (h : line ∈ (Assembler.gather markup finished bs .empty).1) :
    ∃ cs, line = Line.ofBlocks markup cs := by
  cases finished with
  | true => exact exists_ofBlocks_of_mem_toLines h
  | false =>
    rw [gather_false_eq] at h
    exact exists_ofBlocks_of_mem_toLines (List.dropLast_subset _ h)

end Blocks

/-- A single line has the blocks before the first line break. What stood in the assembler
before does not show in it. -/
theorem Assembler.singleLine_fst (markup : Markup) (bs : Blocks) (a : Assembler) :
    (a.singleLine markup bs).1 = Line.ofBlocks markup (bs.takeWhile fun b => !b.isLineBreak) := by
  rw [singleLine]
  dsimp only
  rw [line_foldl_push]
  rfl

theorem Assembler.line_singleLine (markup : Markup) {bs : Blocks}
    (h : ∀ b ∈ bs, b.isLineBreak = false) (a : Assembler) :
    (a.singleLine markup bs).1 = Line.ofBlocks markup bs := by
  have htake : bs.takeWhile (fun b => !b.isLineBreak) = bs := by
    rw [List.takeWhile_eq_self_iff]
    intro b hb
    simp [h b hb]
  rw [singleLine_fst, htake]

end Highlighter
