import Highlighter.Proofs.Scanner.Pass

/-!
# Line breaks among the blocks

Blocks lay out a text in lines: a line break closes a line and any other block goes on
with the open one. While a pass reads on, the lines of its blocks, of its open block and
of the text ahead stay those of the whole text. So the line breaks of a text are its
line ends, provided that no mark of the language has one or that highlighting is off.
-/

namespace Highlighter

namespace Blocks

/-- The lines of the blocks in front of other lines: the last open line of the blocks goes
on with the first of these. -/
def layOn (segs : List Segment) (bs : Blocks) : List Segment :=
  bs.foldr (fun b segs =>
    if b.isLineBreak then ⟨[], b.content⟩ :: segs else Text.openWith b.content segs) segs

theorem layOn_cons_lineBreak {b : Block} (hb : b.isLineBreak = true) (segs : List Segment)
    (bs : Blocks) : layOn segs (b :: bs) = ⟨[], b.content⟩ :: layOn segs bs := by
  simp [layOn, hb]

theorem layOn_cons {b : Block} (hb : b.isLineBreak = false) (segs : List Segment) (bs : Blocks) :
    layOn segs (b :: bs) = Text.openWith b.content (layOn segs bs) := by
  simp [layOn, hb]

theorem layOn_append (segs : List Segment) (bs cs : Blocks) :
    layOn segs (bs ++ cs) = layOn (layOn segs cs) bs := by
  simp [layOn]

/-- Laid out on an empty line, the blocks of each line give its content. -/
theorem content_layOn (bs : Blocks) :
    (layOn [⟨[], []⟩] bs).map Segment.content = (lines bs).map concat := by
  induction bs with
  | nil => rfl
  | cons b bs ih =>
    cases hb : b.isLineBreak with
    | true =>
      rw [layOn_cons_lineBreak hb, lines_cons_lineBreak hb, List.map_cons, List.map_cons, ih]
      rfl
    | false =>
      obtain ⟨l, ls, hl⟩ := List.exists_cons_of_ne_nil (lines_ne_nil bs)
      rw [hl, List.map_cons] at ih
      obtain ⟨s, segs, hs⟩ : ∃ s segs, layOn [⟨[], []⟩] bs = s :: segs := by
        cases h : layOn [⟨[], []⟩] bs with
        | nil =>
          rw [h] at ih
          cases ih
        | cons s segs => exact ⟨s, segs, rfl⟩
      rw [hs, List.map_cons, List.cons.injEq] at ih
      rw [layOn_cons hb, hs, Text.openWith_cons, lines_cons hb hl]
      simp [ih.1, ih.2]

theorem hasBreak_content_of_mem {bs : Blocks} (h : Text.hasBreak bs.concat = false) {b : Block}
    (hb : b ∈ bs) : b.content.hasBreak = false := by
  rw [Text.hasBreak_eq_false_iff] at h ⊢
  intro c hc
  exact h c (List.mem_flatMap.2 ⟨b, hb, hc⟩)

end Blocks

namespace Cursor

/-- The lines of the whole text as the pass knows them: those of the blocks, then the open
block, then those of the text ahead. -/
def layout (s : Cursor) : List Segment :=
  s.blocks.layOn (Text.openWith s.pending.reverse (Text.segments s.rest))

theorem layout_read {n : Nat} {s : Cursor} (h : Text.hasBreak (s.rest.take n) = false) :
    (s.read n).layout = s.layout := by
  have hcut : s.rest.take n ++ s.rest.drop n = s.rest := List.take_append_drop n s.rest
  have hsegs := Text.segments_append h (s.rest.drop n)
  rw [hcut] at hsegs
  rw [layout, layout, pending_read, rest_read, blocks_read, List.reverse_append,
    List.reverse_reverse, Text.openWith_append, hsegs]

theorem layout_flushAs {k : Kind} (hk : k ≠ .lineBreak) (s : Cursor) :
    (s.flushAs k).layout = s.layout := by
  rw [layout, layout, pending_flushAs, rest_flushAs, blocks_flushAs, Blocks.layOn_append]
  split
  · rename_i hp
    rw [hp]
    rfl
  · rw [Blocks.layOn_cons (by simp [Block.isLineBreak, hk])]
    rfl

theorem layout_breakLine {e : Text} {s : Cursor} (he : lineEnd? s.rest = some e) :
    (s.breakLine e).layout = s.layout := by
  obtain ⟨-, rest, hrest⟩ := lineEnd?_eq_some he
  have hflush := layout_flushAs (Mode.kind_ne_lineBreak s.mode) s
  have htake : s.rest.take e.length = e := by rw [hrest, List.take_left]
  rw [← hflush, layout, layout, pending_breakLine, rest_breakLine, blocks_breakLine,
    pending_flushAs, rest_flushAs, Blocks.layOn_append, Blocks.layOn_cons_lineBreak rfl, htake,
    Text.segments_lineEnd he]
  rfl

theorem layout_step {lang : Language} {s : Cursor} (h : lang.NewlineFree ∨ s.mode = .raw) :
    (lang.NewlineFree ∨ (s.step lang).mode = .raw) ∧ (s.step lang).layout = s.layout := by
  refine step_induction (P := fun u => (lang.NewlineFree ∨ u.mode = .raw) ∧ u.layout = s.layout)
    lang ?_ ?_ ?_ ?_ ⟨h, rfl⟩
  · rintro m u hu - ⟨hf, hl⟩
    exact ⟨.inl (hf.resolve_right hu), hl⟩
  · rintro n u hcan ⟨hf, hl⟩
    exact ⟨hf, (layout_read (hcan.2 hf)).trans hl⟩
  · rintro k u hk ⟨hf, hl⟩
    exact ⟨hf.imp_right (mode_flushAs k u ▸ ·), (layout_flushAs hk u).trans hl⟩
  · rintro e u he ⟨hf, hl⟩
    exact ⟨hf.imp_right (mode_breakLine e u ▸ ·), (layout_breakLine he).trans hl⟩

theorem layout_run {lang : Language} {s : Cursor} (h : lang.NewlineFree ∨ s.mode = .raw)
    (limit : Nat) : (s.run lang limit).layout = s.layout := by
  have key := run_induction lang
    (P := fun u => (lang.NewlineFree ∨ u.mode = .raw) ∧ u.layout = s.layout)
    (fun u hu => ⟨(layout_step hu.1).1, (layout_step hu.1).2.trans hu.2⟩) limit ⟨h, rfl⟩
  exact key.2

theorem layout_start (highlight : Bool) (t : Text) :
    (Cursor.start highlight t).layout = t.segments := rfl

/-- No line end is ahead, and no line break is behind. -/
structure Unbroken (s : Cursor) : Prop where
  rest : Text.hasBreak s.rest = false
  blocks : ∀ b ∈ s.blocks, b.isLineBreak = false
  breaks : s.breaks = 0

theorem Unbroken.flushAs {s : Cursor} (h : s.Unbroken) {k : Kind} (hk : k ≠ .lineBreak) :
    (s.flushAs k).Unbroken := by
  refine ⟨by simpa using h.rest, ?_, by simpa using h.breaks⟩
  intro b hb
  rw [blocks_flushAs, List.mem_append] at hb
  rcases hb with hb | hb
  · exact h.blocks b hb
  · split at hb
    · cases hb
    · rw [List.mem_singleton] at hb
      simp [hb, Block.isLineBreak, hk]

theorem Unbroken.flush {s : Cursor} (h : s.Unbroken) : s.flush.Unbroken :=
  h.flushAs (Mode.kind_ne_lineBreak _)

theorem Unbroken.step {s : Cursor} (h : s.Unbroken) (lang : Language) : (s.step lang).Unbroken := by
  apply step_induction (P := Unbroken) lang ?_ ?_ ?_ ?_ h
  · rintro m u - - hu
    exact ⟨hu.rest, hu.blocks, hu.breaks⟩
  · rintro n u - hu
    refine ⟨?_, hu.blocks, hu.breaks⟩
    have hrest := hu.rest
    have hcut : u.rest.take n ++ u.rest.drop n = u.rest := List.take_append_drop n u.rest
    rw [← hcut, Text.hasBreak_append, Bool.or_eq_false_iff] at hrest
    exact hrest.2
  · intro k u hk hu
    exact hu.flushAs hk
  · intro e u he hu
    have hrest := hu.rest
    obtain ⟨b, rest, hcons, hbreak⟩ := isBreak_head_of_lineEnd? he
    rw [hcons, Text.hasBreak_cons, hbreak] at hrest
    cases hrest

theorem Unbroken.run {s : Cursor} (h : s.Unbroken) (lang : Language) (limit : Nat) :
    (s.run lang limit).Unbroken :=
  run_induction (P := Unbroken) lang (fun _ hu => hu.step lang) limit h

theorem unbroken_start (highlight : Bool) {t : Text} (ht : t.hasBreak = false) :
    (start highlight t).Unbroken :=
  ⟨ht, by simp [start, blocks], rfl⟩

end Cursor

/-! ### Whole texts -/

variable (language : Language) (highlight : Bool) (text : Text)

theorem concat_scan : (scan language highlight text).concat = text := by
  rw [scan_eq]
  have hs := (Cursor.Sound.start highlight text).run language (text.length + 1)
  have hr := (Cursor.Sound.start highlight text).rest_run language (Nat.lt_succ_self _)
  have hc := hs.flush.covered
  have ht := hs.flush.text
  rw [Cursor.rest_flush, hr, List.append_nil] at ht
  rw [ht, Cursor.pending_flush, List.reverse_nil, List.append_nil] at hc
  exact hc.symm

variable {language highlight text}

/-- The lines of the blocks of a text are the lines of the text, with their ends. -/
theorem layOn_scan (h : language.NewlineFree ∨ highlight = false) :
    (scan language highlight text).layOn [⟨[], []⟩] = text.segments := by
  have hmode : language.NewlineFree ∨ (Cursor.start highlight text).mode = .raw :=
    h.imp_right fun hh => by simp [Cursor.start, hh]
  have hlay := Cursor.layout_run hmode (text.length + 1)
  have hr := (Cursor.Sound.start highlight text).rest_run language (Nat.lt_succ_self _)
  rw [scan_eq]
  rw [← Cursor.layout_flushAs (Mode.kind_ne_lineBreak _), Cursor.layout, Cursor.pending_flushAs,
    Cursor.rest_flushAs, hr, Cursor.layout_start] at hlay
  exact hlay

theorem lines_scan (h : language.NewlineFree ∨ highlight = false) :
    (scan language highlight text).lines.map Blocks.concat = text.lines := by
  rw [← Blocks.content_layOn, layOn_scan h]
  rfl

/-- Only line breaks hold line ends. -/
theorem hasBreak_of_mem_scan (h : language.NewlineFree ∨ highlight = false) {b : Block}
    (hb : b ∈ scan language highlight text) (hkind : b.isLineBreak = false) :
    b.content.hasBreak = false := by
  obtain ⟨line, hline, hmem⟩ := Blocks.exists_line_of_mem hb hkind
  have hcontent : Blocks.concat line ∈ text.lines := by
    rw [← lines_scan h]
    exact List.mem_map_of_mem hline
  exact Blocks.hasBreak_content_of_mem (Text.hasBreak_of_mem_lines hcontent) hmem

theorem no_lineBreak_scan (h : text.hasBreak = false) :
    ∀ b ∈ scan language highlight text, b.isLineBreak = false := by
  rw [scan_eq]
  exact ((Cursor.unbroken_start highlight h).run language _).flush.blocks

end Highlighter
