import Highlighter.Proofs.Bytes.Inside
import Highlighter.Proofs.Bytes.Number
import Highlighter.Proofs.Bytes.Answers

/-!
# The two machines agree

A cursor on characters is a cursor on bytes that stands between two characters, `toBytes`.
One step on characters is one step on bytes, followed by steps over the bytes that go on
with the character just read: there nothing is found, and no number is open. So the runs
of both machines stop at the same place.
-/

namespace Highlighter

namespace Blocks

/-- The spans of blocks that stand one after another from the offset on. -/
def spansFrom : Nat → Blocks → List Span
  | _, [] => []
  | offset, b :: bs =>
    ⟨offset, offset + b.content.byteSize, b.kind⟩ :: spansFrom (offset + b.content.byteSize) bs

theorem spansFrom_append (offset : Nat) (bs cs : Blocks) :
    spansFrom offset (bs ++ cs) =
      spansFrom offset bs ++ spansFrom (offset + Text.byteSize (concat bs)) cs := by
  induction bs generalizing offset with
  | nil => rfl
  | cons b bs ih =>
    rw [List.cons_append, spansFrom, spansFrom, ih, concat_cons, Text.byteSize_append,
      List.cons_append, Nat.add_assoc]

end Blocks

/-- Whether the mode is that of a literal after a backslash that counts. -/
def Mode.escaped : Mode → Bool
  | .quoted _ escaped => escaped
  | _ => false

namespace Cursor

/-- The cursor as one on bytes. -/
def toBytes (s : Cursor) : ByteCursor where
  index := s.before.byteSize
  blockStart := s.before.byteSize - s.pending.byteSize
  kind := s.mode.kind
  escape := s.mode.escaped
  breaks := s.breaks
  emitted := (s.blocks.spansFrom 0).reverse

theorem toBytes_enter (m : Mode) (s : Cursor) :
    (s.enter m).toBytes = (s.toBytes.setKind m.kind).setEscape m.escaped := rfl

/-- The number literal that is open has the shape that the mode tells, and at its start a
digit comes next. -/
def NumberFits (s : Cursor) : Prop :=
  ∀ shape, s.mode = .number shape → shape.Fits s.pending.reverse ∧
    (shape = .start → ∃ c rest, s.rest = c :: rest ∧ c.isDigit = true)

namespace Sound
variable {t : Text} {s : Cursor} (h : s.Sound t)
include h

theorem place : t.utf8.At s.toBytes.index s.before s.rest := by
  refine ⟨?_, rfl⟩
  rw [h.text]

theorem length_utf8 : t.utf8.length = s.toBytes.index + s.rest.byteSize := h.place.length_eq

theorem byteSize_before :
    s.before.byteSize = s.blocks.concat.byteSize + s.pending.byteSize := by
  have hc := congrArg Text.byteSize h.covered
  rwa [Text.byteSize_append, Text.byteSize_reverse, Text.byteSize_reverse] at hc

theorem blockStart_eq : s.toBytes.blockStart = s.blocks.concat.byteSize := by
  have hb := h.byteSize_before
  have hs : s.toBytes.blockStart = s.before.byteSize - s.pending.byteSize := rfl
  omega

theorem soFar_eq : s.toBytes.soFar t.utf8 = Text.utf8 s.pending.reverse := by
  rw [ByteCursor.soFar, h.place.take_eq, h.covered, Text.utf8_append, h.blockStart_eq,
    List.drop_left' (Text.length_utf8 _)]

theorem toBytes_flushAs (k : Kind) :
    (s.flushAs k).toBytes = s.toBytes.endBlockAt s.toBytes.index k t.utf8.length := by
  have hlen := h.length_utf8
  have hsize := h.byteSize_before
  have hstart := h.blockStart_eq
  have hindex : s.toBytes.index = s.before.byteSize := rfl
  have hmin : min s.toBytes.index t.utf8.length = s.toBytes.index := by omega
  have hblocks := blocks_flushAs k s
  by_cases hp : s.pending = []
  · have hpz : s.pending.byteSize = 0 := by
      rw [hp]
      rfl
    have hflush : s.flushAs k = s := by
      rw [Cursor.flushAs, hp]
      rfl
    rw [hflush]
    refine ByteCursor.ext rfl ?_ rfl rfl rfl ?_
    · simp only [ByteCursor.endBlockAt, hmin]
      omega
    · simp only [ByteCursor.endBlockAt, hmin]
      rw [if_neg (by omega)]
  · have hpz : s.pending.byteSize ≠ 0 := fun hz => hp ((Text.byteSize_eq_zero_iff _).1 hz)
    rw [if_neg hp] at hblocks
    refine ByteCursor.ext ?_ ?_ ?_ ?_ ?_ ?_
    · simp [toBytes, ByteCursor.endBlockAt]
    · have hz : (s.flushAs k).toBytes.blockStart = s.before.byteSize := by simp [toBytes]
      simp only [ByteCursor.endBlockAt, hmin]
      omega
    · simp [toBytes, ByteCursor.endBlockAt]
    · simp [toBytes, ByteCursor.endBlockAt]
    · simp [toBytes, ByteCursor.endBlockAt]
    · have hspans : (s.flushAs k).toBytes.emitted =
          ((s.flushAs k).blocks.spansFrom 0).reverse := rfl
      have hend : s.blocks.concat.byteSize + s.pending.byteSize = s.toBytes.index := by omega
      rw [hspans, hblocks, Blocks.spansFrom_append, List.reverse_append]
      simp only [ByteCursor.endBlockAt, hmin]
      rw [if_pos (by omega), hstart]
      simp [Blocks.spansFrom, Text.byteSize_reverse, toBytes, hsize]

theorem toBytes_flush :
    s.flush.toBytes = s.toBytes.endBlockAt s.toBytes.index s.mode.kind t.utf8.length :=
  h.toBytes_flushAs _

omit h in
theorem toBytes_read (n : Nat) :
    (s.read n).toBytes = s.toBytes.moveTo (s.toBytes.index + Text.byteSize (s.rest.take n)) := by
  have hsize : (s.read n).before.byteSize =
      s.before.byteSize + Text.byteSize (s.rest.take n) := by
    rw [before_read, Text.byteSize_append, Text.byteSize_reverse, Nat.add_comm]
  have hpend : (s.read n).pending.byteSize =
      s.pending.byteSize + Text.byteSize (s.rest.take n) := by
    rw [pending_read, Text.byteSize_append, Text.byteSize_reverse, Nat.add_comm]
  refine ByteCursor.ext hsize ?_ rfl rfl rfl rfl
  have hstart : (s.read n).toBytes.blockStart =
      (s.read n).before.byteSize - (s.read n).pending.byteSize := rfl
  have hstart' : s.toBytes.blockStart = s.before.byteSize - s.pending.byteSize := rfl
  have hmove : (s.toBytes.moveTo (s.toBytes.index + Text.byteSize (s.rest.take n))).blockStart =
      s.toBytes.blockStart := rfl
  omega

theorem toBytes_breakLine {e : Text} (he : lineEnd? s.rest = some e) :
    (s.breakLine e).toBytes =
      (s.toBytes.endBlockAt s.toBytes.index s.mode.kind t.utf8.length).lineBreak s.toBytes.index
        e.byteSize := by
  obtain ⟨-, after, hrest⟩ := lineEnd?_eq_some he
  have hf := h.flush
  have htake : s.rest.take e.length = e := by rw [hrest, List.take_left]
  have hsize := hf.byteSize_before
  rw [pending_flush, Text.byteSize_nil, before_flush] at hsize
  have hbefore : (s.breakLine e).before.byteSize = s.before.byteSize + e.byteSize := by
    rw [before_breakLine, htake, Text.byteSize_append, Text.byteSize_reverse, Nat.add_comm]
  have hflush := h.toBytes_flush
  refine ByteCursor.ext hbefore ?_ ?_ ?_ ?_ ?_
  · have hpend : (s.breakLine e).pending.byteSize = 0 := by
      rw [pending_breakLine]
      rfl
    have hstart : (s.breakLine e).toBytes.blockStart =
        (s.breakLine e).before.byteSize - (s.breakLine e).pending.byteSize := rfl
    have hindex : s.toBytes.index = s.before.byteSize := rfl
    simp only [ByteCursor.lineBreak]
    omega
  · simp [toBytes, ByteCursor.lineBreak, ByteCursor.endBlockAt]
  · simp [toBytes, ByteCursor.lineBreak, ByteCursor.endBlockAt]
  · simp [toBytes, ByteCursor.lineBreak, ByteCursor.endBlockAt]
  · have hemitted : (s.breakLine e).toBytes.emitted =
        ⟨s.toBytes.index, s.toBytes.index + e.byteSize, .lineBreak⟩ :: s.flush.toBytes.emitted := by
      have hspans : (s.breakLine e).toBytes.emitted =
          ((s.breakLine e).blocks.spansFrom 0).reverse := rfl
      rw [hspans, blocks_breakLine, htake, Blocks.spansFrom_append, List.reverse_append]
      simp [Blocks.spansFrom, toBytes, hsize]
    rw [hemitted, hflush]
    rfl

end Sound

end Cursor

/-! ### One step -/

namespace Language
variable (lang : Language) {bs : Bytes} {i : Nat} {before rest : Text} (h : bs.At i before rest)
include h

theorem openingLen?_eq :
    lang.openingLen? bs i =
      (lang.opening? before rest).map fun o => (Text.byteSize o.2, o.1.kind) := by
  rw [openingLen?, opening?, lang.commentOpenerLen?_eq h, lang.lineCommentLen?_eq h,
    lang.stringOpenerLen?_eq h, lang.charOpenerLen?_eq h, lang.directiveAtByte_eq h]
  cases lang.commentOpener? rest with
  | some lexeme => rfl
  | none =>
    cases lang.lineComment? rest with
    | some lexeme => rfl
    | none =>
      cases lang.stringOpener? rest with
      | some lexeme => rfl
      | none =>
        cases lang.charOpener? rest with
        | some lexeme => rfl
        | none =>
          cases hd : lang.directiveAt before rest with
          | false => rfl
          | true =>
            have hmark : startsWith lang.preprocessor rest = true := by
              rw [directiveAt, Bool.and_eq_true] at hd
              exact hd.1
            have hone := byteSize_take_one hmark
            simp [hone, Mode.kind]

theorem wordLen?_eq :
    lang.wordLen? bs i = (lang.word? rest).map fun w => (Text.byteSize w.2, w.1) := by
  rw [wordLen?, word?, lang.keywordLen?_eq h, lang.typeLen?_eq h]
  cases lang.keyword? rest with
  | some word => rfl
  | none => cases lang.type? rest <;> rfl

omit h in
theorem escaped_of_opening? {mode : Mode} {lexeme : Text}
    (ho : lang.opening? before rest = some (mode, lexeme)) : mode.escaped = false := by
  rcases mode_of_opening? ho with rfl | rfl | ⟨quote, rfl⟩ | rfl <;> rfl

end Language

namespace Cursor

section Step
variable {lang : Language} {t : Text} {s : Cursor} {limit : Nat}

/-- Reading one character: the machine on bytes reads its first byte and passes over the
others. -/
theorem run_readOne (lang : Language) (m : Mode) (h : s.Sound t) {c : Char} {after : Text}
    (hr : s.rest = c :: after)
    (hm : isAscii c = true ∨ (∀ shape, m ≠ .number shape) ∧ m.escaped = false)
    (hb : s.breaks < limit) :
    (((s.toBytes.setKind m.kind).setEscape m.escaped).moveTo (s.toBytes.index + 1)).run lang t.utf8
        limit = ((s.read 1).enter m).toBytes.run lang t.utf8 limit := by
  obtain ⟨lead, tail, hc⟩ := encodes c
  have hsize := hc.utf8Size_eq
  have hone : Text.byteSize (s.rest.take 1) = tail.length + 1 := by
    rw [hr, List.take_succ_cons, List.take_zero, Text.byteSize_cons, Text.byteSize_nil]
    omega
  have hread : ((s.read 1).enter m).toBytes =
      ((s.toBytes.setKind m.kind).setEscape m.escaped).moveTo
        (s.toBytes.index + (tail.length + 1)) := by
    rw [toBytes_enter, Sound.toBytes_read, hone]
    rfl
  rw [hread]
  rcases hm with hascii | ⟨hm, he⟩
  · rw [(hc.ascii hascii).2]
    rfl
  · have hin : ∀ k < tail.length, t.utf8.Inside ((((s.toBytes.setKind m.kind).setEscape
        m.escaped).moveTo (s.toBytes.index + 1)).index + k) := by
      intro k hk
      exact h.place.inside hr hc hk
    rw [ByteCursor.run_inside tail.length hin rfl hm he hb, ByteCursor.index_moveTo]
    have hoff : s.toBytes.index + 1 + tail.length = s.toBytes.index + (tail.length + 1) := by omega
    rw [hoff]
    rfl

/-- Both machines jump over a lexeme in one step. -/
theorem toBytes_flush_read (h : s.Sound t) {lexeme : Text} (hl : lexeme <+: s.rest) :
    (s.flush.read lexeme.length).toBytes =
      (s.toBytes.endBlockAt s.toBytes.index s.mode.kind t.utf8.length).moveTo
        (s.toBytes.index + lexeme.byteSize) := by
  obtain ⟨after, hafter⟩ := hl
  have htake : s.flush.rest.take lexeme.length = lexeme := by
    rw [rest_flush, ← hafter, List.take_left]
  rw [Sound.toBytes_read, htake, h.toBytes_flush]
  rfl

theorem escape_eq_false {m : Mode} (hm : s.mode = m) (he : m.escaped = false) :
    s.toBytes.escape = false := by
  have hs : s.toBytes.escape = s.mode.escaped := rfl
  rw [hs, hm, he]

theorem kind_eq {m : Mode} (hm : s.mode = m) : s.toBytes.kind = m.kind := by
  rw [← hm]
  rfl

theorem readOne_enter {m : Mode} (hm : s.mode = m) : (s.read 1).enter m = s.read 1 := by
  rw [← hm]
  rfl

/-- A byte on which nothing is decided, and its character. -/
theorem run_moveOne (lang : Language) (h : s.Sound t) {c : Char} {after : Text}
    (hr : s.rest = c :: after) {m : Mode}
    (hm : s.mode = m) (hnum : ∀ shape, m ≠ .number shape) (he : m.escaped = false)
    (hb : s.breaks < limit) :
    (s.toBytes.moveTo (s.toBytes.index + 1)).run lang t.utf8 limit =
      (s.read 1).toBytes.run lang t.utf8 limit := by
  have hread := run_readOne lang m h hr (.inr ⟨hnum, he⟩) hb
  rw [readOne_enter hm, ByteCursor.setKind_self (kind_eq hm), he,
    ByteCursor.setEscape_self (escape_eq_false hm he)] at hread
  exact hread

theorem run_stepDefault (h : s.Sound t) (hm : s.mode = .idle) {c : Char} {after : Text}
    (hr : s.rest = c :: after) {lead : UInt8} {tail : Bytes} (hc : Encodes c lead tail)
    (hb : s.breaks < limit) :
    (s.toBytes.stepDefault lang t.utf8 lead).run lang t.utf8 limit =
      (s.stepIdle lang c).toBytes.run lang t.utf8 limit := by
  have hplace := h.place
  have hkind := kind_eq hm
  have hesc := escape_eq_false hm rfl
  have hmove := run_moveOne lang h hr hm (by simp) rfl hb
  have hself : s.toBytes.setKind .default = s.toBytes := ByteCursor.setKind_self hkind
  rw [ByteCursor.stepDefault, stepIdle, hplace.lineEnd?_eq]
  cases he : lineEnd? s.rest with
  | some e =>
    have hbreak := h.toBytes_breakLine he
    rw [hm] at hbreak
    rw [hbreak]
    dsimp only [Option.map_some]
    rw [ByteCursor.setKind_self]
    · rfl
    · exact hkind
  | none =>
    rw [Option.map_none, lang.openingLen?_eq hplace]
    dsimp only
    cases ho : lang.opening? s.before s.rest with
    | some o =>
      obtain ⟨mode, lexeme⟩ := o
      rw [toBytes_enter, toBytes_flush_read h (Language.stands_opening? ho).1.pre, hm,
        lang.escaped_of_opening? ho]
      rfl
    | none =>
      rw [Option.map_none, hplace.atWordStart_eq]
      dsimp only
      cases hw : atWordStart s.before with
      | false =>
        rw [hself]
        exact hmove
      | true =>
        rw [lang.wordLen?_eq hplace]
        cases hword : lang.word? s.rest with
        | some w =>
          obtain ⟨kind, word⟩ := w
          have hpre := (Language.word?_cases hword).2.1.pre
          have hsound : (s.flush.read word.length).Sound t := h.flush.read _
          simp only [Bool.not_true, Bool.false_eq_true, if_false, Option.map_some]
          rw [hsound.toBytes_flushAs, toBytes_flush_read h hpre, hm, ByteCursor.setKind_self]
          · rfl
          · exact hkind
        | none =>
          rw [hc.isDigitByte_lead]
          cases hd : c.isDigit with
          | false =>
            rw [Option.map_none, hself]
            exact hmove
          | true =>
            have henter := toBytes_enter (.number .start) s.flush
            rw [h.toBytes_flush, hm] at henter
            simp only [Bool.not_true, Bool.false_eq_true, if_false, if_true, Option.map_none]
            rw [henter, ByteCursor.setEscape_self]
            · rfl
            · exact hesc

theorem run_stepCommentBlock (h : s.Sound t) (hm : s.mode = .blockComment) {c : Char} {after : Text}
    (hr : s.rest = c :: after) (hb : s.breaks < limit) :
    (s.toBytes.stepCommentBlock lang t.utf8).run lang t.utf8 limit =
      (s.stepBlockComment lang).toBytes.run lang t.utf8 limit := by
  have hplace := h.place
  have hesc := escape_eq_false hm rfl
  rw [ByteCursor.stepCommentBlock, stepBlockComment, lang.commentCloserLen?_eq hplace]
  cases hq : lang.commentCloser? s.rest with
  | some closer =>
    have htake := (Language.stands_commentCloser? hq).take_length
    have hflush := (h.read closer.length).toBytes_flush
    rw [mode_read, hm, Sound.toBytes_read, htake] at hflush
    dsimp only [Option.map_some]
    rw [toBytes_enter, hflush, ByteCursor.setEscape_self]
    · rfl
    · exact hesc
  | none =>
    rw [Option.map_none, hplace.lineEnd?_eq]
    cases he : lineEnd? s.rest with
    | some e =>
      have hbreak := h.toBytes_breakLine he
      rw [hm] at hbreak
      rw [hbreak]
      rfl
    | none => exact run_moveOne lang h hr hm (by simp) rfl hb

theorem run_stepToLineEnd (h : s.Sound t) {m : Mode} (hm : s.mode = m)
    (hmode : m = .lineComment ∨ m = .directive) {c : Char} {after : Text}
    (hr : s.rest = c :: after) (hb : s.breaks < limit) :
    (s.toBytes.stepToLineEnd t.utf8).run lang t.utf8 limit =
      s.stepToLineEnd.toBytes.run lang t.utf8 limit := by
  have hnum : ∀ shape, m ≠ .number shape := by
    rcases hmode with rfl | rfl <;> simp
  have hescaped : m.escaped = false := by
    rcases hmode with rfl | rfl <;> rfl
  have hesc := escape_eq_false hm hescaped
  rw [ByteCursor.stepToLineEnd, stepToLineEnd, h.place.lineEnd?_eq]
  cases he : lineEnd? s.rest with
  | some e =>
    dsimp only [Option.map_some]
    rw [toBytes_enter, h.toBytes_breakLine he, ByteCursor.setEscape_self]
    · rfl
    · exact hesc
  | none => exact run_moveOne lang h hr hm hnum hescaped hb

theorem run_stepQuoted (h : s.Sound t) {quote : Quote} {escaped : Bool}
    (hm : s.mode = .quoted quote escaped) {c : Char} {after : Text} (hr : s.rest = c :: after)
    {lead : UInt8} {tail : Bytes} (hc : Encodes c lead tail) (hb : s.breaks < limit) :
    (s.toBytes.stepQuoted lang t.utf8 quote lead).run lang t.utf8 limit =
      (s.stepQuoted lang quote escaped c).toBytes.run lang t.utf8 limit := by
  have hesc : s.toBytes.escape = escaped := by
    have he : s.toBytes.escape = s.mode.escaped := rfl
    rw [he, hm]
    rfl
  have hkind : ∀ e, s.toBytes.kind = (Mode.quoted quote e).kind := by
    intro e
    rw [kind_eq hm]
    cases quote <;> rfl
  have hone : isAscii c = true → Text.byteSize (s.rest.take 1) = 1 := by
    intro hascii
    rw [hr, List.take_succ_cons, List.take_zero, Text.byteSize_cons, hc.utf8Size_eq,
      (hc.ascii hascii).2]
    rfl
  rw [ByteCursor.stepQuoted, stepQuoted, lang.closesByte_lead hc, hc.lead_beq rfl, hesc,
    h.place.lineEnd?_eq]
  split
  · rename_i hclose
    rw [Bool.and_eq_true] at hclose
    have hascii : isAscii c = true := by
      have hstart : ∃ mark, startsWith mark [c] = true := by
        cases quote with
        | string => exact ⟨_, hclose.1⟩
        | char => exact ⟨_, hclose.1⟩
      obtain ⟨mark, hmark⟩ := hstart
      obtain ⟨d, rest, hd, -, hascii⟩ := exists_of_startsWith hmark
      rw [List.cons.injEq] at hd
      rw [hd.1]
      exact hascii
    have hflush := (h.read 1).toBytes_flush
    rw [mode_read, Sound.toBytes_read, hone hascii] at hflush
    rw [toBytes_enter, hflush]
    rfl
  split
  · rename_i hback
    rw [Bool.and_eq_true, beq_iff_eq] at hback
    have hascii : isAscii c = true := by
      rw [hback.1]
      rfl
    rw [toBytes_enter, Sound.toBytes_read, hone hascii, ByteCursor.setKind_self]
    · rfl
    · exact hkind true
  · cases he : lineEnd? s.rest with
    | some e =>
      dsimp only [Option.map_some]
      rw [toBytes_enter, h.toBytes_breakLine he]
      rfl
    | none =>
      have hread := run_readOne lang (.quoted quote false) h hr
        (.inr ⟨by simp, rfl⟩) hb
      rw [ByteCursor.setKind_self (hkind false)] at hread
      exact hread

theorem run_stepNumber (h : s.Sound t) (hn : s.NumberFits) {shape : Numeral}
    (hm : s.mode = .number shape) {c : Char} {after : Text} (hr : s.rest = c :: after)
    {lead : UInt8} {tail : Bytes} (hc : Encodes c lead tail) (hb : s.breaks < limit) :
    (s.toBytes.stepNumber t.utf8 lead).run lang t.utf8 limit =
      (s.stepNumber shape c).toBytes.run lang t.utf8 limit := by
  have hesc := escape_eq_false hm rfl
  obtain ⟨hfits, hstart⟩ := hn shape hm
  have hdigit : shape = .start → c.isDigit = true := by
    intro hs
    obtain ⟨d, rest, hd, hdigit⟩ := hstart hs
    rw [hr, List.cons.injEq] at hd
    rw [hd.1]
    exact hdigit
  have haccept := Numeral.acceptsNumberByte_eq hfits hc hdigit
  rw [ByteCursor.stepNumber, stepNumber, h.soFar_eq, haccept]
  cases hnext : shape.next? c with
  | some shape' =>
    have hascii : isAscii c = true := by
      by_contra hbeyond
      rw [Numeral.next?_of_beyond shape (by simpa using hbeyond)] at hnext
      cases hnext
    have hread := run_readOne lang (.number shape') h hr (.inl hascii) hb
    have hkind : s.toBytes.kind = (Mode.number shape').kind := by
      rw [kind_eq hm]
      rfl
    have hself : s.toBytes.setEscape (Mode.number shape').escaped = s.toBytes :=
      ByteCursor.setEscape_self hesc
    rw [ByteCursor.setKind_self hkind, hself] at hread
    exact hread
  | none =>
    have henter := toBytes_enter .idle s.flush
    rw [h.toBytes_flush, hm, ByteCursor.setEscape_self] at henter
    · dsimp only
      rw [henter]
      rfl
    · exact hesc

theorem run_stepUnformatted (h : s.Sound t) (hm : s.mode = .raw) {c : Char} {after : Text}
    (hr : s.rest = c :: after) (hb : s.breaks < limit) :
    (s.toBytes.stepUnformatted t.utf8).run lang t.utf8 limit =
      s.stepRaw.toBytes.run lang t.utf8 limit := by
  rw [ByteCursor.stepUnformatted, stepRaw, h.place.lineEnd?_eq]
  cases he : lineEnd? s.rest with
  | some e =>
    have hbreak := h.toBytes_breakLine he
    rw [hm] at hbreak
    rw [hbreak]
    rfl
  | none => exact run_moveOne lang h hr hm (by simp) rfl hb

/-- One step on characters is one step on bytes and the bytes that belong to it. -/
theorem run_step_toBytes (h : s.Sound t) (hn : s.NumberFits) (hr : s.rest ≠ [])
    (hb : s.breaks < limit) :
    s.toBytes.run lang t.utf8 limit = (s.step lang).toBytes.run lang t.utf8 limit := by
  obtain ⟨c, after, hrest⟩ := List.exists_cons_of_ne_nil hr
  obtain ⟨lead, tail, hc⟩ := encodes c
  have hget : t.utf8[s.toBytes.index]? = some lead := h.place.getElem?_cons hrest hc
  have hlt : s.toBytes.index < t.utf8.length := (List.getElem?_eq_some_iff.1 hget).1
  rw [ByteCursor.run_step hlt hb, ByteCursor.step, hget]
  dsimp only
  cases hm : s.mode with
  | idle =>
    rw [kind_eq hm, step_idle lang hrest hm]
    exact run_stepDefault h hm hrest hc hb
  | blockComment =>
    rw [kind_eq hm, step_blockComment lang hrest hm]
    exact run_stepCommentBlock h hm hrest hb
  | lineComment =>
    rw [kind_eq hm, step_toLineEnd lang hrest (.inl hm)]
    exact run_stepToLineEnd h hm (.inl rfl) hrest hb
  | directive =>
    rw [kind_eq hm, step_toLineEnd lang hrest (.inr hm)]
    exact run_stepToLineEnd h hm (.inr rfl) hrest hb
  | quoted quote escaped =>
    rw [kind_eq hm, step_quoted lang hrest hm]
    cases quote with
    | string => exact run_stepQuoted h hm hrest hc hb
    | char => exact run_stepQuoted h hm hrest hc hb
  | number shape =>
    rw [kind_eq hm, step_number lang hrest hm]
    exact run_stepNumber h hn hm hrest hc hb
  | raw =>
    rw [kind_eq hm, step_raw lang hrest hm]
    exact run_stepUnformatted h hm hrest hb

theorem stepIdle_number (hm : s.mode = .idle) {c : Char} {shape : Numeral}
    (h : (s.stepIdle lang c).mode = .number shape) :
    shape = .start ∧ c.isDigit = true ∧ s.stepIdle lang c = s.flush.enter (.number .start) := by
  generalize hu : s.stepIdle lang c = u at h ⊢
  unfold stepIdle at hu
  split at hu
  · subst hu
    simp [hm] at h
  split at hu
  · rename_i ho
    subst hu
    exact absurd h ((Language.stands_opening? ho).2.2.2 shape)
  split at hu
  · subst hu
    simp [hm] at h
  split at hu
  · subst hu
    simp [hm] at h
  split at hu
  · rename_i hdigit
    subst hu
    rw [mode_enter, Mode.number.injEq] at h
    exact ⟨h.symm, hdigit, rfl⟩
  · subst hu
    simp [hm] at h

/-- A number is open after a step that met its first digit or went on with it. -/
theorem number_of_step {c : Char} {after : Text} (hr : s.rest = c :: after) {shape : Numeral}
    (h : (s.step lang).mode = .number shape) :
    (shape = .start ∧ c.isDigit = true ∧ s.step lang = s.flush.enter (.number .start)) ∨
      ∃ shape', s.mode = .number shape' ∧ shape'.next? c = some shape ∧
        s.step lang = (s.read 1).enter (.number shape) := by
  cases hm : s.mode with
  | idle =>
    rw [step_idle lang hr hm] at h ⊢
    exact .inl (stepIdle_number hm h)
  | blockComment =>
    rw [step_blockComment lang hr hm, stepBlockComment] at h
    split at h
    · cases h
    split at h
    · simp [hm] at h
    · simp [hm] at h
  | lineComment =>
    rw [step_toLineEnd lang hr (.inl hm), stepToLineEnd] at h
    split at h
    · cases h
    · simp [hm] at h
  | directive =>
    rw [step_toLineEnd lang hr (.inr hm), stepToLineEnd] at h
    split at h
    · cases h
    · simp [hm] at h
  | quoted quote escaped =>
    rw [step_quoted lang hr hm, stepQuoted] at h
    split at h
    · cases h
    split at h
    · cases h
    split at h
    · cases h
    · cases h
  | number shape' =>
    rw [step_number lang hr hm, stepNumber] at h ⊢
    cases hnext : shape'.next? c with
    | some next =>
      rw [hnext] at h
      dsimp only at h ⊢
      rw [mode_enter, Mode.number.injEq] at h
      rw [h] at hnext ⊢
      exact .inr ⟨shape', rfl, hnext, rfl⟩
    | none =>
      rw [hnext] at h
      cases h
  | raw =>
    rw [step_raw lang hr hm, stepRaw] at h
    split at h
    · simp [hm] at h
    · simp [hm] at h

end Step

namespace NumberFits
variable {s : Cursor}

theorem start (highlight : Bool) (t : Text) : (Cursor.start highlight t).NumberFits := by
  intro shape hm
  cases highlight <;> cases hm

theorem step (h : s.NumberFits) (lang : Language) : (s.step lang).NumberFits := by
  intro shape hm
  cases hr : s.rest with
  | nil =>
    have hs : s.step lang = s := by rw [Cursor.step, hr]
    rw [hs] at hm ⊢
    exact h shape hm
  | cons c after =>
    rcases number_of_step hr hm with ⟨rfl, hdigit, hs⟩ | ⟨shape', hmode, hnext, hs⟩
    · rw [hs, pending_enter, pending_flush, rest_enter, rest_flush]
      exact ⟨Numeral.fits_start, fun _ => ⟨c, after, hr, hdigit⟩⟩
    · have hread : ((s.read 1).enter (.number shape)).pending.reverse =
          s.pending.reverse ++ [c] := by
        rw [pending_enter, pending_read, hr]
        simp
      have hfits := (h shape' hmode).1.next hnext
      rw [hs, hread]
      refine ⟨hfits, ?_⟩
      intro hstart
      -- A literal with a character in it is past its start.
      have hempty := hfits.empty.2 hstart
      have hsize : Text.byteSize (s.pending.reverse ++ [c]) = 0 := by
        rw [← Text.length_utf8, hempty, List.length_nil]
      have hpos := c.utf8Size_pos
      rw [Text.byteSize_append, Text.byteSize_cons] at hsize
      omega

theorem run (h : s.NumberFits) (lang : Language) (limit : Nat) : (s.run lang limit).NumberFits :=
  run_induction lang (fun _ h => h.step lang) limit h

end NumberFits

/-- The runs of both machines stop at the same place. -/
theorem toBytes_run (lang : Language) (limit : Nat) {t : Text} {s : Cursor} (h : s.Sound t)
    (hn : s.NumberFits) :
    s.toBytes.run lang t.utf8 limit = (s.run lang limit).toBytes := by
  fun_induction run lang limit s with
  | case1 s hd =>
    refine ByteCursor.run_of_done ?_
    rcases hd with hr | hb
    · left
      rw [h.length_utf8, hr]
      exact Nat.le_refl _
    · exact .inr hb
  | case2 s hd hlt ih =>
    have hr : s.rest ≠ [] := fun hr => hd (.inl hr)
    have hb : s.breaks < limit := by
      by_contra hb
      exact hd (.inr (by omega))
    rw [run_step_toBytes h hn hr hb]
    exact ih (h.step lang) (hn.step lang)

end Cursor

end Highlighter
