import Highlighter.Language.Builtin
import Highlighter.Proofs.Scanner.LineBreaks

/-!
# Line by line

In a language whose marks are free of line ends, and without the lookahead of character
literals, a step inside a line sees nothing of the lines around it: `step_embed`. At the
end of the line every mode gives way to one of two, inside or outside of a block comment.
So the blocks of a text are those of its lines, each read by itself with one bit handed on.
-/

namespace Highlighter

namespace Cursor

def lineStart (inComment : Bool) (content : Text) : Cursor where
  rest := content
  mode := if inComment then .blockComment else .idle

end Cursor

/-- The blocks of a line read by itself, and whether it ends inside a block comment. -/
def scanLine (lang : Language) (inComment : Bool) (content : Text) : Blocks × Bool :=
  let s := (Cursor.lineStart inComment content).run lang (content.length + 1)
  (s.flush.blocks, s.mode == .blockComment)

/-- The blocks of lines read one after another, each line break after its line. -/
def scanLines (lang : Language) : Bool → List Segment → Blocks
  | _, [] => []
  | inComment, [s] => (scanLine lang inComment s.content).1
  | inComment, s :: t :: segs =>
    let (blocks, inComment) := scanLine lang inComment s.content
    blocks ++ ⟨.lineBreak, s.ending⟩ :: scanLines lang inComment (t :: segs)

/-! ### Questions at the edge of a line -/

/-- Nothing, or a text that starts with a line end. -/
def AtBreak (t : Text) : Prop := ∀ c ∈ t.head?, isBreak c = true

theorem atBreak_nil : AtBreak [] := by
  intro c hc
  cases hc

theorem atBreak_of_lineEnd? {t e : Text} (h : lineEnd? t = some e) : AtBreak t := by
  obtain ⟨b, rest, rfl, hb⟩ := isBreak_head_of_lineEnd? h
  intro c hc
  cases hc
  exact hb

theorem length_le_of_lineEnd? {t e : Text} (h : lineEnd? t = some e) : e.length ≤ t.length := by
  obtain ⟨-, rest, rfl⟩ := lineEnd?_eq_some h
  simp

/-- The text read so far stands at a line break when the last of it is one. -/
theorem atBreak_reverse_append {e : Text} (he : e = ['\n'] ∨ e = ['\r', '\n'] ∨ e = ['\r'])
    (t : Text) : AtBreak (e.reverse ++ t) := by
  rcases he with rfl | rfl | rfl <;> intro c hc <;> cases hc <;> rfl

theorem takeWhile_append_of_atBreak {p : Char → Bool} (hp : ∀ c, isBreak c = true → p c = false)
    (t : Text) {u : Text} (hu : AtBreak u) : (t ++ u).takeWhile p = t.takeWhile p := by
  induction t with
  | nil =>
    cases u with
    | nil => rfl
    | cons c u =>
      have hc : p c = false := hp c (hu c rfl)
      simp [hc]
  | cons c t ih =>
    rw [List.cons_append, List.takeWhile_cons, List.takeWhile_cons, ih]

theorem isPrefixOf_append_of_atBreak {token : Text} (ht : token.hasBreak = false) (rest : Text)
    {tail : Text} (htail : AtBreak tail) :
    token.isPrefixOf (rest ++ tail) = token.isPrefixOf rest := by
  induction token generalizing rest with
  | nil => simp
  | cons c token ih =>
    simp only [Text.hasBreak_cons, Bool.or_eq_false_iff] at ht
    cases rest with
    | nil =>
      cases tail with
      | nil => rfl
      | cons d tail =>
        have hd : isBreak d = true := htail d rfl
        have hne : (c == d) = false := by
          rw [beq_eq_false_iff_ne]
          rintro rfl
          rw [ht.1] at hd
          cases hd
        have hfalse : ((c == d) && token.isPrefixOf tail) = false := by
          rw [hne, Bool.false_and]
        exact hfalse
    | cons d rest =>
      rw [List.cons_append, List.isPrefixOf, List.isPrefixOf, ih ht.2]

theorem startsWith_append {rest : Text} (hr : rest ≠ []) (mark : Option Char) (tail : Text) :
    startsWith mark (rest ++ tail) = startsWith mark rest := by
  cases rest with
  | nil => exact absurd rfl hr
  | cons c rest => rfl

namespace Language
variable {lang : Language}

theorem token?_append {token : Text} (ht : token.hasBreak = false) (rest : Text) {tail : Text}
    (htail : AtBreak tail) : token? token (rest ++ tail) = token? token rest := by
  rw [token?, token?, isPrefixOf_append_of_atBreak ht rest htail]

variable (nf : lang.NewlineFree) (rest : Text) {tail : Text} (htail : AtBreak tail)
include nf htail

theorem commentOpener?_append : lang.commentOpener? (rest ++ tail) = lang.commentOpener? rest := by
  unfold commentOpener?
  cases h : lang.blockComment with
  | none => rfl
  | some pair => exact token?_append (nf.blockComment h).1 rest htail

theorem commentCloser?_append : lang.commentCloser? (rest ++ tail) = lang.commentCloser? rest := by
  unfold commentCloser?
  cases h : lang.blockComment with
  | none => rfl
  | some pair => exact token?_append (nf.blockComment h).2 rest htail

theorem lineComment?_append : lang.lineComment? (rest ++ tail) = lang.lineComment? rest := by
  unfold lineComment?
  cases h : lang.lineComment with
  | none => rfl
  | some opener => exact token?_append (nf.lineComment h) rest htail

theorem startsWith_append_of_atBreak (mark : Option Char) (hm : mark ∈ [lang.stringDelimiter,
    lang.charDelimiter, lang.verbatimMark, lang.preprocessor]) :
    startsWith mark (rest ++ tail) = startsWith mark rest := by
  cases rest with
  | cons c rest => rfl
  | nil =>
    cases hs : startsWith mark tail with
    | false => simpa [startsWith] using hs
    | true =>
      obtain ⟨c, after, rfl, rfl, -⟩ := exists_of_startsWith hs
      have hc := htail c rfl
      rw [nf.char hm] at hc
      cases hc

theorem stringOpener?_append : lang.stringOpener? (rest ++ tail) = lang.stringOpener? rest := by
  cases rest with
  | nil =>
    have hv := startsWith_append_of_atBreak nf [] htail lang.verbatimMark (by simp)
    have hs := startsWith_append_of_atBreak nf [] htail lang.stringDelimiter (by simp)
    rw [List.nil_append] at hv hs ⊢
    rw [stringOpener?, stringOpener?, hv, hs]
    rfl
  | cons c rest =>
    have hs := startsWith_append_of_atBreak nf rest htail lang.stringDelimiter (by simp)
    have hone : ∀ mark, startsWith mark (c :: rest ++ tail) = startsWith mark (c :: rest) :=
      fun _ => rfl
    rw [stringOpener?, stringOpener?, hone, hone, List.cons_append, List.tail_cons, List.tail_cons,
      hs]
    split
    · rename_i hv
      rw [Bool.and_eq_true] at hv
      obtain ⟨d, rest, rfl, -⟩ := exists_of_startsWith hv.2
      rfl
    · rfl

theorem charOpener?_append (hl : lang.charLookahead = false) :
    lang.charOpener? (rest ++ tail) = lang.charOpener? rest := by
  cases rest with
  | cons c rest => simp [charOpener?, hl, startsWith]
  | nil =>
    have hs := startsWith_append_of_atBreak nf [] htail lang.charDelimiter (by simp)
    rw [List.nil_append] at hs ⊢
    cases tail with
    | nil => rfl
    | cons c tail =>
      rw [charOpener?, charOpener?, hs, hl]
      rfl

omit nf in
theorem word?_append : lang.word? (rest ++ tail) = lang.word? rest := by
  have hi : identAt (rest ++ tail) = identAt rest :=
    takeWhile_append_of_atBreak (fun c hc => by
      by_contra h
      rw [isBreak_of_isIdent (by simpa using h)] at hc
      cases hc) rest htail
  simp only [word?, keyword?, type?, hi]

omit nf htail in
theorem indentOnly_append {before outer : Text} (houter : AtBreak outer) :
    indentOnly (before ++ outer) = indentOnly before := by
  rw [indentOnly, indentOnly, takeWhile_append_of_atBreak (fun c hc => by simp [hc]) before houter]

theorem opening?_append (hl : lang.charLookahead = false) (hr : rest ≠ []) {before outer : Text}
    (houter : AtBreak outer) :
    lang.opening? (before ++ outer) (rest ++ tail) = lang.opening? before rest := by
  obtain ⟨c, rest, rfl⟩ := List.exists_cons_of_ne_nil hr
  simp only [opening?, commentOpener?_append nf _ htail, lineComment?_append nf _ htail,
    stringOpener?_append nf _ htail, charOpener?_append nf _ htail hl, directiveAt,
    startsWith_append hr, indentOnly_append houter]
  rfl

omit htail in
/-- A block comment is not closed by a line end. -/
theorem commentCloser?_of_lineEnd? {e : Text} (he : lineEnd? rest = some e) :
    lang.commentCloser? rest = none := by
  have h := commentCloser?_append nf [] (atBreak_of_lineEnd? he)
  rw [List.nil_append] at h
  rw [h]
  cases hcloser : lang.commentCloser? [] with
  | none => rfl
  | some closer =>
    have hst := stands_commentCloser? hcloser
    exact absurd (List.prefix_nil.1 hst.pre) hst.ne_nil

end Language

theorem atWordStart_append {outer : Text} (houter : AtBreak outer) (before : Text) :
    atWordStart (before ++ outer) = atWordStart before := by
  cases before with
  | cons c before => rfl
  | nil =>
    cases outer with
    | nil => rfl
    | cons c outer =>
      have hc : isIdent c = false := by
        by_contra h
        have hb := isBreak_of_isIdent (by simpa using h)
        rw [houter c rfl] at hb
        cases hb
      simp [atWordStart, hc]

namespace Cursor

/-! ### A line among others -/

/-- The cursor with more text around it, and with the blocks and breaks of earlier lines. -/
def embed (outer tail : Text) (past : Blocks) (n : Nat) (s : Cursor) : Cursor where
  before := s.before ++ outer
  rest := s.rest ++ tail
  mode := s.mode
  pending := s.pending
  emitted := s.emitted ++ past
  breaks := n + s.breaks

section Embed
variable (outer tail : Text) (past : Blocks) (n : Nat)

theorem enter_embed (m : Mode) (s : Cursor) :
    (s.embed outer tail past n).enter m = (s.enter m).embed outer tail past n := rfl

theorem read_embed {k : Nat} {s : Cursor} (hk : k ≤ s.rest.length) :
    (s.embed outer tail past n).read k = (s.read k).embed outer tail past n := by
  simp [embed, read, List.take_append_of_le_length hk, List.drop_append_of_le_length hk]

theorem flushAs_embed (kind : Kind) (s : Cursor) :
    (s.embed outer tail past n).flushAs kind = (s.flushAs kind).embed outer tail past n := by
  by_cases h : s.pending = [] <;> simp [embed, flushAs, h]

theorem flush_embed (s : Cursor) :
    (s.embed outer tail past n).flush = s.flush.embed outer tail past n :=
  flushAs_embed outer tail past n s.mode.kind s

theorem blocks_embed (s : Cursor) :
    (s.embed outer tail past n).blocks = past.reverse ++ s.blocks := by
  simp [embed, blocks]

end Embed

theorem breakLine_embed_of_length_le (outer tail : Text) (past : Blocks) (n : Nat) {e : Text}
    {s : Cursor} (he : e.length ≤ s.rest.length) :
    (s.embed outer tail past n).breakLine e = (s.breakLine e).embed outer tail past n := by
  rw [breakLine, flush_embed, breakLine]
  simp [embed, List.take_append_of_le_length he, List.drop_append_of_le_length he, Nat.add_assoc]

/-- The cursor is told the same of its place, with more text around it or not. -/
structure SameAnswers (lang : Language) (outer tail : Text) (s : Cursor) : Prop where
  lineEnd : lineEnd? (s.rest ++ tail) = lineEnd? s.rest
  closer : lang.commentCloser? (s.rest ++ tail) = lang.commentCloser? s.rest
  opening : s.mode = .idle →
    lang.opening? (s.before ++ outer) (s.rest ++ tail) = lang.opening? s.before s.rest
  wordStart : atWordStart (s.before ++ outer) = atWordStart s.before
  word : lang.word? (s.rest ++ tail) = lang.word? s.rest

variable {lang : Language} {outer tail : Text} {past : Blocks} {n : Nat}

section StepEmbed
variable {s : Cursor} (h : SameAnswers lang outer tail s) (hlen : 1 ≤ s.rest.length)
include h hlen

theorem stepIdle_embed (hm : s.mode = .idle) (c : Char) :
    (s.embed outer tail past n).stepIdle lang c = (s.stepIdle lang c).embed outer tail past n := by
  have hrest : (s.embed outer tail past n).rest = s.rest ++ tail := rfl
  have hbefore : (s.embed outer tail past n).before = s.before ++ outer := rfl
  have hone := read_embed outer tail past n hlen
  rw [stepIdle, stepIdle, hrest, hbefore, h.lineEnd, h.opening hm, h.wordStart, h.word]
  split
  · rename_i ending he
    exact breakLine_embed_of_length_le _ _ _ _ (length_le_of_lineEnd? he)
  split
  · rename_i mode lexeme ho
    have hle := (Language.stands_opening? ho).1.length_le
    rw [flush_embed, read_embed _ _ _ _ (by simpa using hle), enter_embed]
  split
  · exact hone
  split
  · rename_i kind word ho
    have hle := (Language.word?_cases ho).2.1.length_le
    rw [flush_embed, read_embed _ _ _ _ (by simpa using hle), flushAs_embed]
  split
  · rw [flush_embed, enter_embed]
  · exact hone

theorem stepBlockComment_embed :
    (s.embed outer tail past n).stepBlockComment lang =
      (s.stepBlockComment lang).embed outer tail past n := by
  have hrest : (s.embed outer tail past n).rest = s.rest ++ tail := rfl
  rw [stepBlockComment, stepBlockComment, hrest, h.closer, h.lineEnd]
  split
  · rename_i closer ho
    have hle := (Language.stands_commentCloser? ho).length_le
    rw [read_embed _ _ _ _ hle, flush_embed, enter_embed]
  split
  · rename_i ending he
    exact breakLine_embed_of_length_le _ _ _ _ (length_le_of_lineEnd? he)
  · exact read_embed outer tail past n hlen

theorem stepToLineEnd_embed :
    (s.embed outer tail past n).stepToLineEnd = s.stepToLineEnd.embed outer tail past n := by
  have hrest : (s.embed outer tail past n).rest = s.rest ++ tail := rfl
  rw [stepToLineEnd, stepToLineEnd, hrest, h.lineEnd]
  split
  · rename_i ending he
    rw [breakLine_embed_of_length_le _ _ _ _ (length_le_of_lineEnd? he), enter_embed]
  · exact read_embed outer tail past n hlen

theorem stepQuoted_embed (quote : Quote) (escaped : Bool) (c : Char) :
    (s.embed outer tail past n).stepQuoted lang quote escaped c =
      (s.stepQuoted lang quote escaped c).embed outer tail past n := by
  have hrest : (s.embed outer tail past n).rest = s.rest ++ tail := rfl
  have hone := read_embed outer tail past n hlen
  rw [stepQuoted, stepQuoted, hrest, h.lineEnd]
  split
  · rw [hone, flush_embed, enter_embed]
  split
  · rw [hone, enter_embed]
  split
  · rename_i ending he
    rw [breakLine_embed_of_length_le _ _ _ _ (length_le_of_lineEnd? he), enter_embed]
  · rw [hone, enter_embed]

omit h in
theorem stepNumber_embed (shape : Numeral) (c : Char) :
    (s.embed outer tail past n).stepNumber shape c =
      (s.stepNumber shape c).embed outer tail past n := by
  rw [stepNumber, stepNumber]
  split
  · rw [read_embed outer tail past n hlen, enter_embed]
  · rw [flush_embed, enter_embed]

end StepEmbed

/-- A step does what the answers about its place say. -/
theorem SameAnswers.step_embed {s : Cursor} (h : SameAnswers lang outer tail s) (hr : s.rest ≠ [])
    (hm : s.mode ≠ .raw) :
    (s.embed outer tail past n).step lang = (s.step lang).embed outer tail past n := by
  obtain ⟨c, rest, hrest⟩ := List.exists_cons_of_ne_nil hr
  have hlen : 1 ≤ s.rest.length := List.length_pos_iff.2 hr
  have hrest' : (s.embed outer tail past n).rest = c :: (rest ++ tail) := by
    simp [embed, hrest]
  have hmode : (s.embed outer tail past n).mode = s.mode := rfl
  cases hmd : s.mode with
  | idle =>
    rw [step_idle lang hrest hmd, step_idle lang hrest' (hmode.trans hmd)]
    exact stepIdle_embed h hlen hmd c
  | blockComment =>
    rw [step_blockComment lang hrest hmd, step_blockComment lang hrest' (hmode.trans hmd)]
    exact stepBlockComment_embed h hlen
  | lineComment =>
    rw [step_toLineEnd lang hrest (.inl hmd), step_toLineEnd lang hrest' (.inl (hmode.trans hmd))]
    exact stepToLineEnd_embed h hlen
  | directive =>
    rw [step_toLineEnd lang hrest (.inr hmd), step_toLineEnd lang hrest' (.inr (hmode.trans hmd))]
    exact stepToLineEnd_embed h hlen
  | quoted quote escaped =>
    rw [step_quoted lang hrest hmd, step_quoted lang hrest' (hmode.trans hmd)]
    exact stepQuoted_embed h hlen quote escaped c
  | number shape =>
    rw [step_number lang hrest hmd, step_number lang hrest' (hmode.trans hmd)]
    exact stepNumber_embed hlen shape c
  | raw => exact absurd hmd hm

/-- Inside a line, a step sees nothing of the lines around it. -/
theorem step_embed (nf : lang.NewlineFree) (hl : lang.charLookahead = false)
    (houter : AtBreak outer) (htail : AtBreak tail) {s : Cursor} (hr : s.rest ≠ [])
    (hb : Text.hasBreak s.rest = false) (hm : s.mode ≠ .raw) :
    (s.embed outer tail past n).step lang = (s.step lang).embed outer tail past n := by
  obtain ⟨c, rest, hrest⟩ := List.exists_cons_of_ne_nil hr
  have hc : isBreak c = false := by
    rw [hrest, Text.hasBreak_cons, Bool.or_eq_false_iff] at hb
    exact hb.1
  have hline : lineEnd? (s.rest ++ tail) = lineEnd? s.rest := by
    rw [hrest, (lineEnd?_eq_none_iff c rest).2 hc]
    exact (lineEnd?_eq_none_iff c (rest ++ tail)).2 hc
  have hsame : SameAnswers lang outer tail s :=
    { lineEnd := hline
      closer := Language.commentCloser?_append nf s.rest htail
      opening := fun _ => Language.opening?_append nf s.rest htail hl hr houter
      wordStart := atWordStart_append houter s.before
      word := Language.word?_append s.rest htail }
  exact hsame.step_embed hr hm

theorem mode_ne_raw_step {s : Cursor} (h : s.mode ≠ .raw) : (s.step lang).mode ≠ .raw := by
  refine step_induction (P := fun u => u.mode ≠ .raw) lang ?_ ?_ ?_ ?_ h
  · intro m u _ hm _
    exact hm
  · intro k u _ hu
    exact hu
  · intro k u _ hu
    rwa [mode_flushAs]
  · intro e u _ hu
    rwa [mode_breakLine]

theorem run_embed (limit : Nat) (nf : lang.NewlineFree) (hl : lang.charLookahead = false)
    (houter : AtBreak outer) (htail : AtBreak tail) {limit' : Nat} (hn : n < limit') {s : Cursor}
    (hs : s.Unbroken) (hm : s.mode ≠ .raw) :
    (s.embed outer tail past n).run lang limit' =
      ((s.run lang limit).embed outer tail past n).run lang limit' := by
  fun_induction run lang limit s with
  | case1 s h => rfl
  | case2 s h hlt ih =>
    have hr : s.rest ≠ [] := fun hr => h (.inl hr)
    have hbreaks : (s.embed outer tail past n).breaks < limit' := by
      have he : (s.embed outer tail past n).breaks = n + s.breaks := rfl
      rwa [he, hs.breaks]
    have hr' : (s.embed outer tail past n).rest ≠ [] := by
      simp [embed, hr]
    rw [run_step hr' hbreaks, step_embed nf hl houter htail hr hs.rest hm]
    exact ih (hs.step lang) (mode_ne_raw_step hm)

theorem breakLine_flush_enter (e : Text) (m : Mode) (s : Cursor) :
    (s.flush.enter m).breakLine e = (s.breakLine e).enter m := by
  have hflush : (s.flush.enter m).flush = s.flush.enter m := by
    rw [flush, flushAs, pending_enter, pending_flush]
    rfl
  rw [breakLine, hflush, breakLine]
  rfl

theorem breakLine_enter_self {m : Mode} {s : Cursor} (hm : s.mode = m) (e : Text) :
    s.breakLine e = (s.breakLine e).enter m := by
  have hmode := mode_breakLine e s
  rw [hm] at hmode
  rw [← hmode]
  rfl

/-- At the end of a line every mode gives way to one of two. -/
theorem run_lineEnd (nf : lang.NewlineFree) {s : Cursor} {e : Text} {limit : Nat}
    (he : lineEnd? s.rest = some e) (hm : s.mode ≠ .raw) (hb : s.breaks < limit) :
    s.run lang limit =
      ((s.breakLine e).enter (if s.mode = .blockComment then .blockComment else .idle)).run lang
        limit := by
  obtain ⟨c, rest, hrest, hc⟩ := isBreak_head_of_lineEnd? he
  have hr : s.rest ≠ [] := by simp [hrest]
  cases hmd : s.mode with
  | idle =>
    have hstep : s.step lang = (s.breakLine e).enter .idle := by
      rw [step_idle lang hrest hmd, stepIdle, he]
      exact breakLine_enter_self hmd e
    rw [run_step hr hb, hstep]
    rfl
  | blockComment =>
    have hnone := Language.commentCloser?_of_lineEnd? nf _ he
    have hstep : s.step lang = (s.breakLine e).enter .blockComment := by
      rw [step_blockComment lang hrest hmd, stepBlockComment, hnone, he]
      exact breakLine_enter_self hmd e
    rw [run_step hr hb, hstep]
    rfl
  | lineComment | directive =>
    have hstep : s.step lang = (s.breakLine e).enter .idle := by
      rw [step_toLineEnd lang hrest (by simp [hmd]), stepToLineEnd, he]
    rw [run_step hr hb, hstep]
    rfl
  | quoted quote escaped =>
    have hnc : lang.closes quote c = false := by
      by_contra h
      rw [Language.isBreak_of_closes nf (by simpa using h)] at hc
      cases hc
    have hnb : (c == '\\') = false := by
      rw [beq_eq_false_iff_ne]
      rintro rfl
      cases hc
    have hstep : s.step lang = (s.breakLine e).enter .idle := by
      rw [step_quoted lang hrest hmd, stepQuoted, hnc, hnb, he]
      rfl
    rw [run_step hr hb, hstep]
    rfl
  | number shape =>
    have hnone : shape.next? c = none := by
      cases h : shape.next? c with
      | none => rfl
      | some m =>
        rw [Numeral.isBreak_of_next? h] at hc
        cases hc
    have hfirst : s.step lang = s.flush.enter .idle := by
      rw [step_number lang hrest hmd, stepNumber, hnone]
    have hnext : (s.flush.enter .idle).step lang = (s.breakLine e).enter .idle := by
      have hfr : (s.flush.enter .idle).rest = c :: rest := by simpa using hrest
      rw [step_idle lang hfr (mode_enter ..), stepIdle, rest_enter, rest_flush, he]
      exact breakLine_flush_enter e .idle s
    have hr' : (s.flush.enter .idle).rest ≠ [] := by simpa using hr
    rw [run_step hr hb, hfirst, run_step hr' (by simpa using hb), hnext]
    rfl
  | raw => exact absurd hmd hm

theorem sound_lineStart (inComment : Bool) (content : Text) :
    (lineStart inComment content).Sound content where
  text := rfl
  covered := rfl
  nonempty := by simp [lineStart, blocks]
  breaks := rfl

theorem unbroken_lineStart (inComment : Bool) {content : Text} (hc : content.hasBreak = false) :
    (lineStart inComment content).Unbroken :=
  ⟨hc, by simp [lineStart, blocks], rfl⟩

theorem mode_lineStart_ne_raw (inComment : Bool) (content : Text) :
    (lineStart inComment content).mode ≠ .raw := by
  cases inComment <;> simp [lineStart]

theorem mode_ne_raw_run {s : Cursor} (h : s.mode ≠ .raw) (limit : Nat) :
    (s.run lang limit).mode ≠ .raw :=
  run_induction (P := fun u => u.mode ≠ .raw) lang (fun _ hu => mode_ne_raw_step hu) limit h

/-- Where the line end has been read, the next line starts. -/
theorem breakLine_embed {u : Cursor} (hu : u.rest = []) (outer ending rest : Text) (past : Blocks)
    (n : Nat) :
    ((u.embed outer (ending ++ rest) past n).breakLine ending).enter
        (if u.mode = .blockComment then .blockComment else .idle) =
      (lineStart (u.mode == .blockComment) rest).embed (ending.reverse ++ (u.before ++ outer)) []
        (⟨.lineBreak, ending⟩ :: u.flush.emitted ++ past) (n + u.breaks + 1) := by
  have hrest : (u.embed outer (ending ++ rest) past n).rest = ending ++ rest := by
    simp [embed, hu]
  have hbefore : (u.embed outer (ending ++ rest) past n).before = u.before ++ outer := rfl
  have hbreaks : (u.embed outer (ending ++ rest) past n).breaks = n + u.breaks := rfl
  have hflush : (u.embed outer (ending ++ rest) past n).flush.emitted = u.flush.emitted ++ past := by
    rw [flush_embed]
    rfl
  simp only [breakLine, rest_flush, before_flush, breaks_flush, pending_flush, hrest,
    List.take_left, List.drop_left, hflush, hbefore, hbreaks, enter]
  by_cases hm : u.mode = .blockComment <;> simp [hm, lineStart, embed]

end Cursor

/-! ### Whole texts -/

section
variable {lang : Language} (nf : lang.NewlineFree) (hl : lang.charLookahead = false)
include nf hl

namespace Cursor
variable {outer : Text} (houter : AtBreak outer) {content : Text} (hcon : content.hasBreak = false)
  {n limit : Nat} (hn : n < limit) (inComment : Bool) (past : Blocks)
include houter hcon hn

/-- The last line of a text, other lines being behind it. -/
theorem run_lastLine_embed :
    ((lineStart inComment content).embed outer [] past n).run lang limit =
      ((lineStart inComment content).run lang (content.length + 1)).embed outer [] past n := by
  have hend := (sound_lineStart inComment content).rest_run lang (Nat.lt_succ_self _)
  rw [run_embed (content.length + 1) nf hl houter atBreak_nil hn (unbroken_lineStart inComment hcon)
    (mode_lineStart_ne_raw inComment content), run_of_done]
  left
  simp [embed, hend]

/-- A line that others follow: the pass comes to the start of the next, and only one bit of
the line is known there. -/
theorem run_line_embed {ending rest : Text} (hend : lineEnd? (ending ++ rest) = some ending) :
    ∃ outer', AtBreak outer' ∧
      ((lineStart inComment (content ++ (ending ++ rest))).embed outer [] past n).run lang limit =
        ((lineStart (scanLine lang inComment content).2 rest).embed outer' []
          (⟨.lineBreak, ending⟩ :: ((scanLine lang inComment content).1.reverse ++ past))
          (n + 1)).run lang limit := by
  have hm := mode_lineStart_ne_raw inComment content
  have hunbroken := unbroken_lineStart inComment hcon
  -- The line by itself, with the rest of the text behind it.
  have hstart : (lineStart inComment (content ++ (ending ++ rest))).embed outer [] past n =
      (lineStart inComment content).embed outer (ending ++ rest) past n := by
    simp [lineStart, embed]
  rw [hstart, run_embed (content.length + 1) nf hl houter (atBreak_of_lineEnd? hend) hn hunbroken hm]
  generalize hu : (lineStart inComment content).run lang (content.length + 1) = u
  have hrest : u.rest = [] := by
    rw [← hu]
    exact (sound_lineStart inComment content).rest_run lang (Nat.lt_succ_self _)
  have hmode : u.mode ≠ .raw := hu ▸ mode_ne_raw_run hm _
  have hbreaks : u.breaks = 0 := by
    rw [← hu]
    exact (hunbroken.run lang _).breaks
  have hline : scanLine lang inComment content = (u.flush.blocks, u.mode == .blockComment) := by
    rw [scanLine, hu]
  have hlineEnd : lineEnd? (u.embed outer (ending ++ rest) past n).rest = some ending := by
    have h : (u.embed outer (ending ++ rest) past n).rest = ending ++ rest := by
      simp [embed, hrest]
    rw [h]
    exact hend
  have hbehind : (u.embed outer (ending ++ rest) past n).breaks < limit := by
    have he : (u.embed outer (ending ++ rest) past n).breaks = n + u.breaks := rfl
    rwa [he, hbreaks]
  have hemb : (u.embed outer (ending ++ rest) past n).mode = u.mode := rfl
  -- The line end, and the next line from there.
  refine ⟨ending.reverse ++ (u.before ++ outer), atBreak_reverse_append (lineEnd?_cases hend).1 _, ?_⟩
  rw [run_lineEnd nf hlineEnd hmode hbehind, hemb, breakLine_embed hrest, hline, hbreaks]
  simp [blocks]

end Cursor

/-- From the start of a line on, the pass emits the blocks of the lines to come. -/
theorem run_lineStart_embed (t : Text) : ∀ (inComment : Bool) (outer : Text) (past : Blocks)
    (n limit : Nat), AtBreak outer → n + t.length < limit →
    (((Cursor.lineStart inComment t).embed outer [] past n).run lang limit).flush.blocks =
      past.reverse ++ scanLines lang inComment t.segments := by
  induction t using Text.segments_induction with
  | last t ht =>
    intro inComment outer past n limit houter hn
    have hlimit : n < limit := by omega
    rw [Cursor.run_lastLine_embed nf hl houter ht hlimit, Cursor.flush_embed,
      Cursor.blocks_embed, Text.segments_of_hasBreak_eq_false ht]
    rfl
  | line content ending rest hcon hend ih =>
    intro inComment outer past n limit houter hn
    have hpos : 0 < ending.length := List.length_pos_iff.2 (lineEnd?_eq_some hend).1
    simp only [List.length_append] at hn
    have hlimit : n < limit := by omega
    obtain ⟨outer', houter', hrun⟩ :=
      Cursor.run_line_embed nf hl houter hcon hlimit inComment past hend
    obtain ⟨s, segs, hsegs⟩ := List.exists_cons_of_ne_nil (Text.segments_ne_nil rest)
    rw [hrun, ih _ _ _ _ _ houter' (by omega), Text.segments_line hcon hend, hsegs, scanLines]
    simp

theorem scan_eq_scanLines (text : Text) :
    scan lang true text = scanLines lang false text.segments := by
  have hrun := run_lineStart_embed nf hl text false [] [] 0 (text.length + 1) atBreak_nil (by omega)
  have hstart : (Cursor.lineStart false text).embed [] [] [] 0 = Cursor.start true text := by
    simp [Cursor.lineStart, Cursor.embed, Cursor.start]
  rw [hstart] at hrun
  rw [scan_eq, hrun]
  rfl

end

/-- A line read by itself from outside of a comment has the blocks of that text. -/
theorem scanLine_false (lang : Language) (content : Text) :
    (scanLine lang false content).1 = scan lang true content := by
  rw [scan_eq]
  rfl

/-- The blocks of a finished pass are those of the lines, each read by itself with one bit
handed on from line to line. -/
theorem blocks_line_by_line {lang : Language} (nf : lang.NewlineFree)
    (hl : lang.charLookahead = false) {text : Text} {limits : List Nat}
    (hf : ((Scanner.start lang true text).advanceAll limits).finished = true) :
    ((Scanner.start lang true text).advanceAll limits).blocks =
        scanLines lang false text.segments ∧
      ∀ content : Text, (scanLine lang false content).1 = scan lang true content := by
  constructor
  · have hpass := (Scanner.onPass_start lang true text).advanceAll limits
    obtain ⟨hlang, hhigh, htext⟩ := Scanner.settings_advanceAll limits (.start lang true text)
    rw [hpass.blocks_of_finished hf, hlang, hhigh, htext]
    exact scan_eq_scanLines nf hl text
  · intro content
    exact scanLine_false lang content

/-- A comment over two lines of C, the pass stopped after the first. -/
theorem blocks_line_by_line_c :
    let text : Text := "int a /* \"\r\n b */ 'c".toList
    Language.c.NewlineFree ∧ Language.c.charLookahead = false ∧
      ((Scanner.start Language.c true text).advanceAll [1, 7]).finished = true ∧
      ((Scanner.start Language.c true text).advanceAll [1, 7]).blocks =
        scanLines Language.c false text.segments ∧
      scanLines Language.c false text.segments =
        [⟨.type, "int".toList⟩, ⟨.default, " a ".toList⟩, ⟨.commentBlock, "/* \"".toList⟩,
          ⟨.lineBreak, "\r\n".toList⟩, ⟨.commentBlock, " b */".toList⟩, ⟨.default, " ".toList⟩,
          ⟨.char, "'c".toList⟩] := by
  have nf : Language.c.NewlineFree := by decide
  have hf : ((Scanner.start Language.c true "int a /* \"\r\n b */ 'c".toList).advanceAll
      [1, 7]).finished = true := by decide +kernel
  exact ⟨nf, rfl, hf, (blocks_line_by_line nf rfl hf).1, by decide +kernel⟩

end Highlighter
