import Highlighter.Proofs.Scanner.LineBreaks

/-!
# Passes without highlighting

With highlighting off a pass leaves every line whole: it is one block without markup, or no
block if it is empty. The language has no say in it.
-/

namespace Highlighter

/-- The blocks of a line that is left whole. -/
def unformatted (content : Text) : Blocks :=
  if content = [] then [] else [⟨.unformatted, content⟩]

theorem no_lineBreak_unformatted (content : Text) :
    ∀ b ∈ unformatted content, b.isLineBreak = false := by
  intro b hb
  unfold unformatted at hb
  split at hb
  · cases hb
  · rw [List.mem_singleton] at hb
    rw [hb]
    rfl

@[simp] theorem concat_unformatted (content : Text) : (unformatted content).concat = content := by
  unfold unformatted
  split
  · rename_i h
    rw [h]
    rfl
  · rw [Blocks.concat_cons, Blocks.concat_nil, List.append_nil]

namespace Cursor

/-- The lines behind the cursor are left whole, and the open one is not begun. -/
structure LeavesWhole (s : Cursor) : Prop where
  mode : s.mode = .raw
  closed : s.blocks.Closed
  lines : ∀ line ∈ s.blocks.lines, line = unformatted line.concat

theorem leavesWhole_start (t : Text) : (start false t).LeavesWhole where
  mode := rfl
  closed := Blocks.closed_nil
  lines := by
    intro line hl
    rw [List.mem_singleton.1 hl]
    rfl

namespace LeavesWhole
variable {s : Cursor} (h : s.LeavesWhole)
include h

theorem blocks_flush : s.flush.blocks = s.blocks ++ unformatted s.pending.reverse := by
  rw [flush, blocks_flushAs, h.mode, unformatted]
  simp [Mode.kind]

theorem mem_lines {cs : Blocks} (hcs : ∀ line ∈ cs.lines, line = unformatted line.concat) :
    ∀ line ∈ (s.blocks ++ cs).lines, line = unformatted line.concat := by
  intro line hl
  rw [Blocks.lines_append h.closed, List.mem_append] at hl
  rcases hl with hl | hl
  · exact h.lines line (List.dropLast_subset _ hl)
  · exact hcs line hl

theorem breakLine (e : Text) : (s.breakLine e).LeavesWhole := by
  refine ⟨(mode_breakLine e s).trans h.mode, ?_, ?_⟩
  · rw [blocks_breakLine]
    exact Blocks.closed_append_lineBreak _ _
  · rw [blocks_breakLine, h.blocks_flush, List.append_assoc]
    apply h.mem_lines
    intro line hl
    rw [Blocks.lines_append_lineBreak (no_lineBreak_unformatted _) rfl] at hl
    rcases List.mem_cons.1 hl with rfl | hl
    · rw [concat_unformatted]
    · rw [List.mem_singleton.1 hl]
      rfl

theorem step (lang : Language) : (s.step lang).LeavesWhole := by
  cases hr : s.rest with
  | nil =>
    have hstep : s.step lang = s := by
      rw [Cursor.step, hr]
    rw [hstep]
    exact h
  | cons c rest =>
    rw [step_raw lang hr h.mode, stepRaw]
    split
    · exact h.breakLine _
    · exact ⟨h.mode, h.closed, h.lines⟩

theorem lines_flush : ∀ line ∈ s.flush.blocks.lines, line = unformatted line.concat := by
  rw [h.blocks_flush]
  apply h.mem_lines
  intro line hl
  rw [Blocks.lines_of_no_lineBreak (no_lineBreak_unformatted _), List.mem_singleton] at hl
  rw [hl, concat_unformatted]

end LeavesWhole

end Cursor

/-! ### Whole texts -/

theorem lines_scan_unformatted (lang : Language) (text : Text) :
    (scan lang false text).lines = text.lines.map unformatted := by
  have hrun := Cursor.run_induction (P := Cursor.LeavesWhole) lang (fun _ hu => hu.step lang)
    (text.length + 1) (Cursor.leavesWhole_start text)
  have hlines : ∀ line ∈ (scan lang false text).lines, line = unformatted line.concat := by
    rw [scan_eq]
    exact hrun.lines_flush
  have hcontents : (scan lang false text).lines.map Blocks.concat = text.lines :=
    lines_scan (.inr rfl)
  calc (scan lang false text).lines
      = (scan lang false text).lines.map id := (List.map_id _).symm
    _ = (scan lang false text).lines.map (unformatted ∘ Blocks.concat) :=
        List.map_congr_left hlines
    _ = text.lines.map unformatted := by
        rw [← List.map_map, hcontents]

theorem scan_unformatted (lang : Language) {text : Text} (ht : text.hasBreak = false) :
    scan lang false text = unformatted text := by
  have hlines := lines_scan_unformatted lang text
  rw [Blocks.lines_of_no_lineBreak (no_lineBreak_scan ht), Text.lines_of_hasBreak_eq_false ht] at hlines
  exact List.singleton_inj.1 hlines

end Highlighter
