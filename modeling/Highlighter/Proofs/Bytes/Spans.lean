import Highlighter.Proofs.Bytes.Simulation

/-!
# The spans of a pass

At every moment of a pass the spans emitted stand one after another from the start of the
text on, between characters, and what they cut out of the bytes is what the scanner's
blocks hold. A finished pass has cut up the whole text.
-/

namespace Highlighter

/-- The spans go from one offset to the other without a gap, and none is empty. -/
def Tiles : Nat → List Span → Nat → Prop
  | start, [], stop => start = stop
  | start, sp :: spans, stop => sp.start = start ∧ sp.start < sp.stop ∧ Tiles sp.stop spans stop

namespace Bytes

/-- The contents of the spans one after another, if they can all be sliced. -/
def concat? (bs : Bytes) : List Span → Option Bytes
  | [] => some []
  | sp :: spans => do
    let content ← bs.slice? sp.start sp.stop
    let contents ← concat? bs spans
    return content ++ contents

end Bytes

namespace Blocks

theorem tiles_spansFrom {bs : Blocks} (h : ∀ b ∈ bs, b.content ≠ []) (offset : Nat) :
    Tiles offset (bs.spansFrom offset) (offset + bs.concat.byteSize) := by
  induction bs generalizing offset with
  | nil => exact rfl
  | cons b bs ih =>
    have hb : b.content.byteSize ≠ 0 := by
      intro hz
      exact h b (List.mem_cons_self ..) ((Text.byteSize_eq_zero_iff _).1 hz)
    have hbs := ih (fun x hx => h x (List.mem_cons_of_mem _ hx)) (offset + b.content.byteSize)
    rw [concat_cons, Text.byteSize_append, ← Nat.add_assoc]
    refine ⟨rfl, ?_, hbs⟩
    dsimp only
    omega

/-- Every span of the blocks cuts out the content of its block. -/
theorem slices_spansFrom (before : Text) (bs : Blocks) (after : Text) :
    (bs.spansFrom before.byteSize).map (fun sp =>
        (sp.kind, (before ++ concat bs ++ after).utf8.slice? sp.start sp.stop)) =
      bs.map fun b => (b.kind, some b.content.utf8) := by
  induction bs generalizing before with
  | nil => rfl
  | cons b bs ih =>
    have htext : before ++ concat (b :: bs) ++ after =
        before ++ b.content ++ (concat bs ++ after) := by
      rw [concat_cons]
      simp only [List.append_assoc]
    have hslice := Text.slice?_utf8 before b.content (concat bs ++ after)
    have hrest := ih (before ++ b.content)
    rw [Text.byteSize_append] at hrest
    rw [htext, spansFrom, List.map_cons, List.map_cons, hslice, ← hrest]
    simp only [List.append_assoc]

/-- Spans whose slices are the contents of blocks can all be sliced. -/
theorem concat?_of_slices {bytes : Bytes} {spans : List Span} {bs : Blocks}
    (h : spans.map (fun sp => (sp.kind, bytes.slice? sp.start sp.stop)) =
      bs.map fun b => (b.kind, some b.content.utf8)) :
    bytes.concat? spans = some (Text.utf8 (concat bs)) := by
  induction bs generalizing spans with
  | nil =>
    rw [List.map_nil, List.map_eq_nil_iff] at h
    rw [h]
    rfl
  | cons b bs ih =>
    cases spans with
    | nil => cases h
    | cons sp spans =>
      rw [List.map_cons, List.map_cons, List.cons.injEq, Prod.mk.injEq] at h
      rw [Bytes.concat?, h.1.2, ih h.2, concat_cons, Text.utf8_append]
      rfl

end Blocks

theorem Bytes.isBoundary_of_slice? {bs content : Bytes} {start stop : Nat}
    (h : bs.slice? start stop = some content) :
    bs.isBoundary start = true ∧ bs.isBoundary stop = true := by
  unfold slice? at h
  split at h
  · rename_i hs
    exact hs.2.2
  · cases h

/-! ### Both scanners -/

namespace ByteScanner

/-- The scanners stand at the same place of the same text. -/
structure Agree (b : ByteScanner) (s : Scanner) : Prop where
  language : b.language = s.language
  bytes : b.bytes = s.text.utf8
  finished : b.finished = s.finished
  cursor : b.cursor = s.cursor.toBytes
  sound : s.cursor.Sound s.text
  number : s.finished = false → s.cursor.NumberFits
  /-- A finished pass has nothing left to read or to emit. -/
  done : s.finished = true → s.cursor.rest = [] ∧ s.cursor.pending = []

theorem agree_start (language : Language) (highlight : Bool) (text : Text) :
    (start language highlight text.utf8).Agree (Scanner.start language highlight text) where
  language := rfl
  bytes := rfl
  finished := rfl
  cursor := by cases highlight <;> rfl
  sound := Cursor.Sound.start highlight text
  number := fun _ => Cursor.NumberFits.start highlight text
  done := by
    intro h
    cases h

namespace Agree
variable {b : ByteScanner} {s : Scanner}

theorem advance (h : b.Agree s) (limit : Nat) : (b.advance limit).Agree (s.advance limit) := by
  cases hf : s.finished with
  | true =>
    have hb : b.finished = true := h.finished.trans hf
    rw [ByteScanner.advance, Scanner.advance, if_pos hb, if_pos hf]
    exact h
  | false =>
    have hs : ¬ s.finished = true := by simp [hf]
    have hb : ¬ b.finished = true := by rwa [h.finished]
    have hsound := h.sound.run s.language limit
    have hrun : b.cursor.run b.language b.bytes limit = (s.cursor.run s.language limit).toBytes := by
      rw [h.language, h.bytes, h.cursor]
      exact Cursor.toBytes_run s.language limit h.sound (h.number hf)
    have hlen := hsound.length_utf8
    rw [ByteScanner.advance, Scanner.advance, if_neg hb, if_neg hs]
    dsimp only
    rw [hrun, h.bytes]
    by_cases hr : (s.cursor.run s.language limit).rest = []
    · have hend : s.text.utf8.length = (s.cursor.run s.language limit).toBytes.index := by
        rw [hlen, hr, Text.byteSize_nil, Nat.add_zero]
      have hflush := hsound.toBytes_flush
      rw [← hend] at hflush
      rw [if_pos (Nat.le_of_eq hend), if_pos (by simp [hr])]
      refine ⟨h.language, rfl, rfl, hflush.symm, hsound.flush, ?_, ?_⟩
      · intro hopen
        cases hopen
      · intro _
        exact ⟨by rw [Cursor.rest_flush, hr], Cursor.pending_flush _⟩
    · have hpos : Text.byteSize (s.cursor.run s.language limit).rest ≠ 0 :=
        fun hz => hr ((Text.byteSize_eq_zero_iff _).1 hz)
      rw [if_neg (by omega), if_neg (by simp [hr])]
      refine ⟨h.language, rfl, h.finished, rfl, hsound, ?_, ?_⟩
      · intro _
        exact (h.number hf).run s.language limit
      · intro hdone
        exact absurd hdone hs

theorem advanceAll (h : b.Agree s) (limits : List Nat) :
    (b.advanceAll limits).Agree (s.advanceAll limits) := by
  induction limits generalizing b s with
  | nil => exact h
  | cons limit limits ih => exact ih (h.advance limit)

/-! ### What the spans cover -/

section Covered
variable (h : b.Agree s)
include h

theorem spans_eq : b.spans = s.blocks.spansFrom 0 := by
  rw [spans, ByteCursor.spans, h.cursor]
  exact List.reverse_reverse _

theorem text_eq : s.text = s.blocks.concat ++ (s.cursor.pending.reverse ++ s.cursor.rest) := by
  have htext := h.sound.text
  rw [h.sound.covered, List.append_assoc] at htext
  exact htext.symm

theorem blockStart_eq : b.cursor.blockStart = s.blocks.concat.byteSize := by
  rw [h.cursor]
  exact h.sound.blockStart_eq

theorem slices_eq :
    b.spans.map (fun sp => (sp.kind, s.text.utf8.slice? sp.start sp.stop)) =
      s.blocks.map fun block => (block.kind, some block.content.utf8) := by
  rw [h.spans_eq, h.text_eq]
  exact Blocks.slices_spansFrom [] s.blocks _

theorem tiles : Tiles 0 b.spans b.cursor.blockStart := by
  have ht := Blocks.tiles_spansFrom h.sound.nonempty 0
  rw [Nat.zero_add] at ht
  rw [h.spans_eq, h.blockStart_eq]
  exact ht

theorem blockStart_le_index : b.cursor.blockStart ≤ b.cursor.index := by
  rw [h.cursor]
  exact Nat.sub_le ..

theorem index_le_length : b.cursor.index ≤ s.text.utf8.length := by
  have hlen := h.sound.length_utf8
  rw [h.cursor]
  omega

theorem isBoundary_of_mem {sp : Span} (hsp : sp ∈ b.spans) :
    s.text.utf8.isBoundary sp.start = true ∧ s.text.utf8.isBoundary sp.stop = true := by
  have hmem := List.mem_map_of_mem
    (f := fun sp => (sp.kind, s.text.utf8.slice? sp.start sp.stop)) hsp
  rw [h.slices_eq, List.mem_map] at hmem
  obtain ⟨block, -, heq⟩ := hmem
  rw [Prod.mk.injEq] at heq
  exact Bytes.isBoundary_of_slice? heq.2.symm

theorem concat?_eq : s.text.utf8.concat? b.spans = some (s.text.utf8.take b.cursor.blockStart) := by
  have hlen := Text.length_utf8 s.blocks.concat
  rw [Blocks.concat?_of_slices h.slices_eq, h.blockStart_eq, ← hlen, h.text_eq, Text.utf8_append,
    List.take_left]

theorem concat_of_finished (hf : b.finished = true) : s.blocks.concat = s.text := by
  obtain ⟨hrest, hpending⟩ := h.done (h.finished.symm.trans hf)
  have htext := h.text_eq
  rw [hrest, hpending, List.reverse_nil, List.append_nil, List.append_nil] at htext
  exact htext.symm

theorem blockStart_of_finished (hf : b.finished = true) :
    b.cursor.blockStart = s.text.utf8.length := by
  rw [h.blockStart_eq, h.concat_of_finished hf, Text.length_utf8]

end Covered

end Agree

/-- At every moment of a pass, however it was cut, the spans go from the start of the text
to the open block without a gap, none is empty, each starts and stops between two
characters, and their contents are the scanner's blocks. A call that allows for every line
break finishes the pass, and then the spans reach the end of the text. -/
theorem spans_cover_text (lang : Language) (highlight : Bool) (text : Text) (limits : List Nat) :
    let b := (start lang highlight text.utf8).advanceAll limits
    let s := (Scanner.start lang highlight text).advanceAll limits
    Tiles 0 b.spans b.cursor.blockStart ∧ b.cursor.blockStart ≤ b.cursor.index ∧
      b.cursor.index ≤ text.utf8.length ∧
      (∀ sp ∈ b.spans,
        text.utf8.isBoundary sp.start = true ∧ text.utf8.isBoundary sp.stop = true) ∧
      b.spans.map (fun sp => (sp.kind, text.utf8.slice? sp.start sp.stop)) =
        s.blocks.map (fun block => (block.kind, some block.content.utf8)) ∧
      text.utf8.concat? b.spans = some (text.utf8.take b.cursor.blockStart) ∧
      b.finished = s.finished ∧
      (b.finished = true → Tiles 0 b.spans text.utf8.length ∧
        text.utf8.concat? b.spans = some text.utf8 ∧ s.blocks.concat = text) ∧
      ∀ limit, text.utf8.length < limit → (b.advance limit).finished = true := by
  intro b s
  have h : b.Agree s := (agree_start lang highlight text).advanceAll limits
  have htext : s.text = text := (Scanner.settings_advanceAll limits _).2.2
  have htiles := h.tiles
  have hconcat := h.concat?_eq
  rw [← htext]
  refine ⟨htiles, h.blockStart_le_index, h.index_le_length, fun sp hsp => h.isBoundary_of_mem hsp,
    h.slices_eq, hconcat, h.finished, ?_, ?_⟩
  · intro hf
    have hstart := h.blockStart_of_finished hf
    rw [hstart] at htiles hconcat
    rw [List.take_length] at hconcat
    exact ⟨htiles, hconcat, h.concat_of_finished hf⟩
  · intro limit hl
    have hpass : s.OnPass := (Scanner.onPass_start lang highlight text).advanceAll limits
    have hlen := Text.length_le_byteSize s.text
    rw [Text.length_utf8] at hl
    rw [(h.advance limit).finished]
    refine hpass.finished_advance ?_
    unfold Scanner.everyBreak
    omega

/-- A comment over two lines behind a character of two bytes, read in two calls. -/
theorem spans_cover_text_c :
    let text : Text := "é/*ü\n*/".toList
    let b := (start { blockComment := some ("/*".toList, "*/".toList) } true text.utf8).advanceAll
      [1, 2]
    b.finished = true ∧ Tiles 0 b.spans 9 ∧ text.utf8.concat? b.spans = some text.utf8 := by
  intro text b
  have hfinished : b.finished = true := by decide +kernel
  have hlen : text.utf8.length = 9 := by decide +kernel
  obtain ⟨-, -, -, -, -, -, -, hdone, -⟩ := spans_cover_text
    { blockComment := some ("/*".toList, "*/".toList) } true text [1, 2]
  obtain ⟨htiles, hconcat, -⟩ := hdone hfinished
  rw [hlen] at htiles
  exact ⟨hfinished, htiles, hconcat⟩

end ByteScanner

end Highlighter
