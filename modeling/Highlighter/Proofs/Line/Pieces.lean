import Highlighter.Proofs.Line.Assembly

/-!
# Blocks in pieces

A block sequence may reach an assembler in any pieces, cut in the middle of a line or empty.
The calls for the pieces give what one call for the whole sequence gives, whichever records
the pool hands out: the parts of the sequence between its line breaks, `lines_of_pieces`.
-/

namespace Highlighter

namespace Blocks

/-- The lines of blocks are the parts between the line breaks. -/
theorem lines_eq_splitOnP (bs : Blocks) : bs.lines = bs.splitOnP Block.isLineBreak := by
  induction bs with
  | nil => rfl
  | cons b bs ih =>
    rw [List.splitOnP_cons_eq_if_modifyHead, ← ih]
    cases hb : b.isLineBreak with
    | true =>
      rw [lines_cons_lineBreak hb]
      rfl
    | false =>
      obtain ⟨l, ls, hl⟩ := List.exists_cons_of_ne_nil (lines_ne_nil bs)
      rw [lines_cons hb hl, hl]
      rfl

/-- The first line ends where the first line break stands. -/
theorem head?_lines (bs : Blocks) :
    bs.lines.head? = some (bs.takeWhile fun b => !b.isLineBreak) := by
  induction bs with
  | nil => rfl
  | cons b bs ih =>
    cases hb : b.isLineBreak with
    | true =>
      rw [lines_cons_lineBreak hb, List.takeWhile_cons_of_neg (by simp [hb])]
      rfl
    | false =>
      obtain ⟨l, ls, hl⟩ := List.exists_cons_of_ne_nil (lines_ne_nil bs)
      rw [hl, List.head?_cons, Option.some.injEq] at ih
      rw [lines_cons hb hl, List.takeWhile_cons_of_pos (by simp [hb]), ← ih]
      rfl

end Blocks

namespace Assembler
variable (markup : Markup)

/-- Takes in the pieces one after another, then the last one. Only the call for the last is
`finished`. -/
def appendAll (last : Blocks) :
    List Blocks → Assembler → LinePool → List Line × Assembler × LinePool
  | [], a, pool => append markup true last a pool
  | piece :: pieces, a, pool =>
    let (completed, a, pool) := append markup false piece a pool
    let (lines, a, pool) := appendAll last pieces a pool
    (completed ++ lines, a, pool)

/-- The calls for the pieces leave what one call for all of them leaves. -/
theorem appendAll_eq_gather (last : Blocks) (pieces : List Blocks) (a : Assembler)
    (pool : LinePool) :
    ((appendAll markup last pieces a pool).1, (appendAll markup last pieces a pool).2.1) =
      gather markup true (pieces.flatten ++ last) a := by
  induction pieces generalizing a pool with
  | nil => exact append_eq_gather markup true last a pool
  | cons piece pieces ih =>
    have hpiece := append_eq_gather markup false piece a pool
    have hrest := ih (append markup false piece a pool).2.1 (append markup false piece a pool).2.2
    rw [List.flatten_cons, List.append_assoc, gather_append, ← hpiece, ← hrest]
    rfl

theorem gather_true_snd (bs : Blocks) (a : Assembler) : (gather markup true bs a).2 = empty := by
  have hend := @gather_append markup true bs [] a
  rw [List.append_nil, gather_nil_true] at hend
  rw [hend]

/-- However a block sequence is cut, and whatever records are in the pool, the lines that the
calls for its pieces give are those of the whole sequence, one for each part between the line
breaks, and no line is left open. The first is the line that is made of the sequence alone. -/
theorem lines_of_pieces (pieces : List Blocks) (last : Blocks) (before : Assembler)
    (pool : LinePool) :
    let bs : Blocks := pieces.flatten ++ last
    let calls := appendAll markup last pieces before.reset pool
    let lines := calls.1
    lines = bs.toLines markup ∧ lines.length = bs.lineCount ∧
      (∀ i : Nat, lines[i]? = ((bs.splitOnP Block.isLineBreak)[i]?).map fun part =>
        Line.mk (part.flatMap Block.content) (part.flatMap markup.write)) ∧
      (∀ a : Assembler, lines.head? = some (a.singleLine markup bs).1) ∧ calls.2.1 = empty := by
  intro bs calls lines
  have hcalls := Prod.ext_iff.1 (appendAll_eq_gather markup last pieces before.reset pool)
  have hlines : lines = bs.lines.map (Line.ofBlocks markup) :=
    hcalls.1.trans (Blocks.toLines_eq markup bs)
  refine ⟨hcalls.1, ?_, ?_, ?_, hcalls.2.trans (gather_true_snd markup bs empty)⟩
  · rw [hlines, List.length_map, Blocks.length_lines]
  · intro i
    rw [hlines, List.getElem?_map, Blocks.lines_eq_splitOnP]
    rfl
  · intro a
    rw [hlines, List.head?_map, Blocks.head?_lines, singleLine_fst]
    rfl

/-- A line cut in the middle, an empty piece, and a line break as a piece of its own. -/
example :
    (appendAll .plain [⟨.default, ['c']⟩] [[⟨.keyword, ['a']⟩], [], [⟨.default, ['b']⟩],
      [⟨.lineBreak, ['\n']⟩]] empty .empty).1 =
      [⟨['a', 'b'], ['a', 'b']⟩, ⟨['c'], ['c']⟩] := by decide

end Assembler

end Highlighter
