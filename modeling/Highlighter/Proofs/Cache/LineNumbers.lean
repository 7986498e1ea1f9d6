import Highlighter.Proofs.Bytes.Simulation
import Highlighter.Proofs.Cache.Operation
import Highlighter.Proofs.Scanner.LineReplacement
import Highlighter.Proofs.Scanner.Unformatted

/-!
# One numbering of lines

A text is cut into lines in two ways: by looking for its line ends, and by the line breaks that
a pass emits in whatever mode it meets them. `line_breaks_between_lines`: the breaks are the
gaps between the lines, byte for byte. So a scanner that replaces a line and a cache that shows
it count the same lines.
-/

namespace Highlighter

namespace Text

/-- The gaps between neighbours of spans that stand in order. -/
def gaps (spans : List (Nat × Nat)) : List (Nat × Nat) :=
  spans.zipWith (fun span next => (span.2, next.1)) spans.tail

theorem gaps_cons_cons (span next : Nat × Nat) (spans : List (Nat × Nat)) :
    gaps (span :: next :: spans) = (span.2, next.1) :: gaps (next :: spans) := rfl

/-- Where the first span starts makes no difference. -/
theorem gaps_cons (start start' stop : Nat) (spans : List (Nat × Nat)) :
    gaps ((start, stop) :: spans) = gaps ((start', stop) :: spans) := by
  cases spans with
  | nil => rfl
  | cons next spans => rfl

def lineGaps (t : Text) : List (Nat × Nat) := gaps t.lineSpans

theorem length_lineSpans (t : Text) : t.lineSpans.length = t.lines.length := by
  have key : ∀ (segs : List Segment) (start : Nat),
      (lineSpans.go start segs).length = segs.length := by
    intro segs
    induction segs with
    | nil =>
      intro start
      rfl
    | cons s segs ih =>
      intro start
      exact congrArg Nat.succ (ih _)
  rw [lineSpans, key, lines, List.length_map]

end Text

namespace Blocks

/-- The spans of the line breaks among blocks that stand from the offset on. -/
def breakSpansFrom (offset : Nat) (bs : Blocks) : List (Nat × Nat) :=
  ((bs.spansFrom offset).filter fun sp => sp.kind == .lineBreak).map fun sp => (sp.start, sp.stop)

theorem breakSpansFrom_cons_lineBreak {b : Block} (hb : b.isLineBreak = true) (offset : Nat)
    (bs : Blocks) : breakSpansFrom offset (b :: bs) =
      (offset, offset + b.content.byteSize) ::
        breakSpansFrom (offset + b.content.byteSize) bs := by
  have hkind : (b.kind == .lineBreak) = true := hb
  simp [breakSpansFrom, spansFrom, hkind]

theorem breakSpansFrom_cons {b : Block} (hb : b.isLineBreak = false) (offset : Nat) (bs : Blocks) :
    breakSpansFrom offset (b :: bs) = breakSpansFrom (offset + b.content.byteSize) bs := by
  have hkind : (b.kind == .lineBreak) = false := hb
  simp [breakSpansFrom, spansFrom, hkind]

theorem layOn_ne_nil (bs : Blocks) : bs.layOn [⟨[], []⟩] ≠ [] := by
  intro h
  have hlines := content_layOn bs
  rw [h] at hlines
  exact lines_ne_nil bs (List.map_eq_nil_iff.1 hlines.symm)

/-- Laid out in lines, blocks have their line breaks in the gaps. -/
theorem breakSpansFrom_eq_gaps (bs : Blocks) (offset : Nat) :
    breakSpansFrom offset bs =
      Text.gaps (Text.lineSpans.go offset (bs.layOn [⟨[], []⟩])) := by
  induction bs generalizing offset with
  | nil => rfl
  | cons b bs ih =>
    have hrest := ih (offset + b.content.byteSize)
    obtain ⟨s, segs, hs⟩ := List.exists_cons_of_ne_nil (layOn_ne_nil bs)
    cases hb : b.isLineBreak with
    | true =>
      rw [breakSpansFrom_cons_lineBreak hb, layOn_cons_lineBreak hb, hrest, hs]
      simp [Text.lineSpans.go, Text.gaps_cons_cons, Segment.text]
    | false =>
      -- The block goes on with the first line, and only the start of that line is moved.
      rw [breakSpansFrom_cons hb, layOn_cons hb, hrest, hs, Text.openWith_cons]
      simp only [Text.lineSpans.go, Segment.text, Text.byteSize_append, Nat.add_assoc]
      exact Text.gaps_cons ..

end Blocks

/-! ### Passes -/

section
variable {lang : Language} {highlight : Bool} (h : lang.NewlineFree ∨ highlight = false)
  (text : Text)
include h

theorem breakSpans_scan :
    (scan lang highlight text).breakSpansFrom 0 = text.lineGaps := by
  rw [Blocks.breakSpansFrom_eq_gaps, layOn_scan h]
  rfl

theorem lineCount_scan : (scan lang highlight text).lineCount = text.lines.length := by
  rw [← Blocks.length_lines, ← lines_scan h, List.length_map]

theorem hasBreak_iff_lineBreak_scan :
    text.hasBreak = true ↔ ∃ b ∈ scan lang highlight text, b.isLineBreak = true := by
  constructor
  · intro hbreak
    by_contra hnone
    have hfree : text.hasBreak = false := by
      rw [← concat_scan lang highlight text, Text.hasBreak_eq_false_iff]
      intro c hc
      obtain ⟨b, hb, hcb⟩ := List.mem_flatMap.1 hc
      have hkind : b.isLineBreak = false := by
        by_contra hkind
        exact hnone ⟨b, hb, by simpa using hkind⟩
      exact Text.hasBreak_eq_false_iff.1 (hasBreak_of_mem_scan h hb hkind) c hcb
    rw [hfree] at hbreak
    cases hbreak
  · rintro ⟨b, hb, hkind⟩
    by_contra hbreak
    rw [no_lineBreak_scan (by simpa using hbreak) b hb] at hkind
    cases hkind

theorem rawLines_build_scan {c : Cache} (hlang : c.language = lang)
    (hhigh : c.highlight = highlight) : (c.build text).rawLines = text.lines := by
  rw [Cache.rawLines, Cache.lines_build, Blocks.raw_toLines, hlang, hhigh]
  exact lines_scan h

end

/-- In a finished pass the line breaks are the gaps between the lines of the text, and no other
block holds a line end. Without highlighting a line is one block, if it is not empty. The line
that a scanner replaces under an index is the one that a cache of the same text has there. -/
theorem line_breaks_between_lines {lang : Language} {highlight : Bool}
    (h : lang.NewlineFree ∨ highlight = false) {text : Text} {limits : List Nat}
    (hf : ((Scanner.start lang highlight text).advanceAll limits).finished = true) :
    let s := (Scanner.start lang highlight text).advanceAll limits
    s.blocks.breakSpansFrom 0 = text.lineGaps ∧
      (∀ b ∈ s.blocks, b.isLineBreak = false → b.content.hasBreak = false) ∧
      s.blocks.lineCount = text.lineSpans.length ∧
      (text.hasBreak = true ↔ ∃ b ∈ s.blocks, b.isLineBreak = true) ∧
      (highlight = false → s.blocks.lines = text.lines.map unformatted) ∧
      ∀ c : Cache, c.language = lang → c.highlight = highlight →
        (c.build text).rawLines = text.lines ∧
        ∀ (index : Nat) (value : Text),
          (index < (c.build text).lines.length →
            ∃ t behind line ahead, s.setLine? index value = some t ∧
              text = behind ++ (line ++ ahead) ∧
              text.lineSpans[index]? =
                some (behind.byteSize, behind.byteSize + line.byteSize) ∧
              (c.build text).rawLines[index]? = some line ∧
              t.text = behind ++ (value ++ ahead)) ∧
          ((c.build text).lines.length ≤ index → s.setLine? index value = none) := by
  intro s
  have hblocks : s.blocks = scan lang highlight text := Scanner.blocks_advanceAll_of_finished hf
  obtain ⟨-, -, hstext⟩ : _ ∧ _ ∧ s.text = text :=
    Scanner.settings_advanceAll limits (.start lang highlight text)
  rw [hblocks]
  refine ⟨breakSpans_scan h text, fun b hb => hasBreak_of_mem_scan h hb, ?_,
    hasBreak_iff_lineBreak_scan h text, ?_, ?_⟩
  · rw [lineCount_scan h, Text.length_lineSpans]
  · rintro rfl
    exact lines_scan_unformatted lang text
  · intro c hclang hchigh
    have hraw := rawLines_build_scan h text hclang hchigh
    have hlength : (c.build text).lines.length = text.lines.length := by
      rw [← hraw, Cache.rawLines, List.length_map]
    refine ⟨hraw, fun index value => ⟨fun hindex => ?_, fun hindex => ?_⟩⟩
    · rw [hlength] at hindex
      obtain ⟨behind, line, ahead, hcut, hline, hspan, hreplace⟩ := Text.exists_cut hindex value
      have hset : s.setLine? index value =
          some (s.setText (s.text.replaceLine index value)).finish :=
        if_pos (by rwa [hstext])
      refine ⟨_, behind, line, ahead, hset, hcut, hspan, ?_, ?_⟩
      · rw [hraw, hline]
      · rw [Scanner.text_setLine? hset, hstext, hreplace]
    · exact if_neg (by rw [hstext]; omega)

/-- Line ends of every form, met in plain text, in a comment and behind a backslash. -/
theorem line_breaks_between_lines_c :
    let text : Text := "a\r\n/* b\rc */ \"x\\\n7\n".toList
    let s := (Scanner.start Language.c true text).advanceAll [2, 9]
    Language.c.NewlineFree ∧ s.finished = true ∧
      s.blocks.breakSpansFrom 0 = [(1, 3), (7, 8), (16, 17), (18, 19)] ∧ s.blocks.lineCount = 5 ∧
      ∀ markup : Markup, ∃ t behind ahead, s.setLine? 3 ['8'] = some t ∧
        text = behind ++ ('7' :: ahead) ∧ t.text = behind ++ ('8' :: ahead) ∧
        ((Cache.new Language.c markup).build text).rawLines =
          ["a".toList, "/* b".toList, "c */ \"x\\".toList, ['7'], []] := by
  intro text s
  have nf : Language.c.NewlineFree := by decide
  have hf : s.finished = true := by decide +kernel
  have hlines : text.lines = ["a".toList, "/* b".toList, "c */ \"x\\".toList, ['7'], []] := by decide
  have hgaps : text.lineGaps = [(1, 3), (7, 8), (16, 17), (18, 19)] := by decide +kernel
  obtain ⟨hspans, -, hcount, -, -, hcache⟩ :=
    @line_breaks_between_lines Language.c true (.inl nf) text [2, 9] hf
  refine ⟨nf, hf, hspans.trans hgaps, hcount.trans (by decide +kernel), fun markup => ?_⟩
  obtain ⟨hraw, hset⟩ := hcache (Cache.new Language.c markup) rfl rfl
  have hlength : 3 < ((Cache.new Language.c markup).build text).lines.length := by
    have hlength := congrArg List.length hraw
    rw [Cache.rawLines, List.length_map, hlines] at hlength
    rw [hlength]
    decide
  obtain ⟨t, behind, line, ahead, ht, hcut, -, hline, htext⟩ := (hset 3 ['8']).1 hlength
  rw [hraw, hlines] at hline
  obtain rfl : ['7'] = line := Option.some.inj hline
  exact ⟨t, behind, ahead, ht, hcut, htext, hraw.trans hlines⟩

end Highlighter
