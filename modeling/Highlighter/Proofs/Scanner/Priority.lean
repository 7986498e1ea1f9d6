import Highlighter.Language.Builtin
import Highlighter.Proofs.Bytes.Answers
import Highlighter.Proofs.Bytes.Inside
import Highlighter.Proofs.Scanner.Origin

/-!
# The priority of kinds

Where a block begins, its kind is the first of a list that can begin there, asked of the bytes
of the text: `blocks_by_priority`. The list is complete too. No other kind could begin at a
byte inside of a block of plain text, and no two such blocks stand side by side. Only a block
comment that goes on in a new line has begun elsewhere.
-/

namespace Highlighter

/-- The kinds that blocks begin as, the first before the others. -/
def Kind.priority : List Kind :=
  [.lineBreak, .commentBlock, .commentLine, .string, .char, .directive, .keyword, .type, .number]

namespace Language
variable (lang : Language) (bs : Bytes) (i : Nat)

/-- Whether a block of the kind can begin at the offset, whatever else can. Words and numbers
begin only where no identifier byte stands before. -/
def beginsAt : Kind → Bool
  | .lineBreak => (bs.lineEnd? i).isSome
  | .commentBlock => (lang.commentOpenerLen? bs i).isSome
  | .commentLine => (lang.lineCommentLen? bs i).isSome
  | .string => (lang.stringOpenerLen? bs i).isSome
  | .char => (lang.charOpenerLen? bs i).isSome
  | .directive => lang.directiveAtByte bs i
  | .keyword => bs.atWordStart i && (lang.keywordLen? bs i).isSome
  | .type => bs.atWordStart i && (lang.typeLen? bs i).isSome
  | .number => bs.atWordStart i && bs[i]?.any Bytes.isDigitByte
  | .default | .unformatted => false

def kindAt : Kind := (Kind.priority.find? (lang.beginsAt bs i)).getD .default

theorem beginsAt_of_kindAt {lang : Language} {bs : Bytes} {i : Nat} (h : lang.kindAt bs i = .default)
    {k : Kind} (hk : k ∈ Kind.priority) : lang.beginsAt bs i k = false := by
  unfold kindAt at h
  cases hfind : Kind.priority.find? (lang.beginsAt bs i) with
  | none => simpa using List.find?_eq_none.1 hfind k hk
  | some first =>
    rw [hfind, Option.getD_some] at h
    have hmem := List.mem_of_find?_eq_some hfind
    have hnone : Kind.default ∉ Kind.priority := by decide
    rw [h] at hmem
    exact absurd hmem hnone

/-! ### At a place -/

/-- The kind that is found between constructs. -/
def kindBetween (before rest : Text) : Kind :=
  match lineEnd? rest with
  | some _ => .lineBreak
  | none =>
    match lang.opening? before rest with
    | some (mode, _) => mode.kind
    | none =>
      if atWordStart before then
        match lang.word? rest with
        | some (kind, _) => kind
        | none => if rest.head?.any Char.isDigit then .number else .default
      else .default

end Language

/-- Every byte of a text is one of a character. -/
theorem Text.exists_char_at {t : Text} {k : Nat} (hk : k < t.byteSize) :
    ∃ (front : Text) (c : Char) (back : Text), t = front ++ c :: back ∧ front.byteSize ≤ k ∧
      k < front.byteSize + c.utf8Size := by
  induction t generalizing k with
  | nil => exact absurd hk (Nat.not_lt_zero k)
  | cons c t ih =>
    by_cases hc : k < c.utf8Size
    · exact ⟨[], c, t, rfl, Nat.zero_le k, by simpa using hc⟩
    · rw [byteSize_cons] at hk
      obtain ⟨front, d, back, rfl, hle, hlt⟩ := @ih (k - c.utf8Size) (by omega)
      refine ⟨c :: front, d, back, rfl, ?_, ?_⟩
      · rw [byteSize_cons]
        omega
      · rw [byteSize_cons]
        omega

theorem Bytes.At.any_isDigitByte {bs : Bytes} {i : Nat} {before rest : Text}
    (h : bs.At i before rest) : bs[i]?.any isDigitByte = rest.head?.any Char.isDigit := by
  cases hr : rest with
  | nil =>
    rw [h.getElem?_nil hr]
    rfl
  | cons c after =>
    obtain ⟨lead, tail, hc⟩ := encodes c
    rw [h.getElem?_cons hr hc]
    exact hc.isDigitByte_lead

namespace Language
variable (lang : Language) {bs : Bytes} {i : Nat}

theorem kindAt_eq {before rest : Text} (h : bs.At i before rest) :
    lang.kindAt bs i = lang.kindBetween before rest := by
  simp only [kindAt, Kind.priority, List.find?_cons, List.find?_nil, beginsAt, h.lineEnd?_eq,
    lang.commentOpenerLen?_eq h, lang.lineCommentLen?_eq h, lang.stringOpenerLen?_eq h,
    lang.charOpenerLen?_eq h, lang.directiveAtByte_eq h, h.atWordStart_eq, lang.keywordLen?_eq h,
    lang.typeLen?_eq h, h.any_isDigitByte, Option.isSome_map]
  unfold kindBetween opening? word?
  cases lineEnd? rest with
  | some ending => rfl
  | none =>
  cases lang.commentOpener? rest with
  | some lexeme => rfl
  | none =>
  cases lang.lineComment? rest with
  | some lexeme => rfl
  | none =>
  cases lang.stringOpener? rest with
  | some lexeme => rfl
  | none =>
  cases lang.charOpener? rest with
  | some lexeme => rfl
  | none =>
  cases lang.directiveAt before rest with
  | true => rfl
  | false =>
  cases atWordStart before with
  | false => rfl
  | true =>
  cases lang.keyword? rest with
  | some word => rfl
  | none =>
  cases lang.type? rest with
  | some word => rfl
  | none => cases rest.head?.any Char.isDigit <;> rfl

theorem kindBetween_of_plain {lang : Language} {before rest : Text} (h : lang.Plain before rest) :
    lang.kindBetween before rest = .default := by
  rw [kindBetween, h.lineEnd, h.opening]
  dsimp only
  split
  · rename_i hstart
    rw [h.word hstart, h.digit hstart]
    rfl
  · rfl

/-- Inside of a character nothing begins. -/
theorem beginsAt_of_inside (h : bs.Inside i) (k : Kind) : lang.beginsAt bs i k = false := by
  have hbyte : bs.lineEnd? i = none := h.lineEnd?_eq_none
  cases k <;> simp [beginsAt, hbyte, h.commentOpenerLen?_eq_none, h.lineCommentLen?_eq_none,
    h.stringOpenerLen?_eq_none, h.charOpenerLen?_eq_none, h.directiveAtByte_eq_false,
    h.atWordStart_eq_false]

end Language

/-! ### Blocks -/

namespace Cursor
variable {lang : Language} {text : Text} {past : Blocks}

theorem Visited.place {s : Cursor} (h : Visited lang text s) (hpast : s.flush.blocks = past) :
    Bytes.At text.utf8 past.concat.byteSize s.before s.rest := by
  obtain ⟨hbefore, -⟩ := h.before_eq hpast
  refine ⟨?_, ?_⟩
  · rw [h.sound.text]
  · rw [hbefore, Text.byteSize_reverse]

/-- No kind can begin at a byte of a stretch that is plain. -/
theorem PlainRun.beginsAt {content after : Text} (h : PlainRun lang text past content)
    (htext : text = past.concat ++ (content ++ after)) {k : Nat} (hk : k < content.byteSize)
    {kind : Kind} (hkind : kind ∈ Kind.priority) :
    lang.beginsAt text.utf8 (past.concat.byteSize + k) kind = false := by
  obtain ⟨front, c, back, rfl, hle, hlt⟩ := Text.exists_char_at hk
  have hplain := h front (c :: back) after rfl (List.cons_ne_nil c back) htext
  have hplace : Bytes.At text.utf8 (past.concat.byteSize + front.byteSize)
      (front.reverse ++ past.concat.reverse) (c :: back ++ after) := by
    refine ⟨?_, ?_⟩
    · rw [htext]
      simp
    · rw [Text.byteSize_append, Text.byteSize_reverse, Text.byteSize_reverse, Nat.add_comm]
  by_cases hfirst : k = front.byteSize
  · rw [hfirst]
    refine Language.beginsAt_of_kindAt ?_ hkind
    rw [lang.kindAt_eq hplace, Language.kindBetween_of_plain hplain]
  · obtain ⟨lead, tail, hc⟩ := encodes c
    have hsize := hc.utf8Size_eq
    have hinside := hplace.inside (k := k - front.byteSize - 1) rfl hc (by omega)
    have hoffset : past.concat.byteSize + front.byteSize + 1 + (k - front.byteSize - 1) =
        past.concat.byteSize + k := by omega
    rw [hoffset] at hinside
    exact lang.beginsAt_of_inside hinside kind

namespace Origin
variable {b : Block} (h : Origin lang text past b)
include h

theorem kind_eq {after : Text} (htext : text = past.concat ++ (b.content ++ after))
    (hne : b.content ≠ []) (hnew : ¬ ContinuesComment lang text past b) :
    b.kind = lang.kindAt text.utf8 past.concat.byteSize := by
  cases h with
  | lineBreak hs hpast hkind hline =>
    rw [lang.kindAt_eq (hs.place hpast), Language.kindBetween, hline, hkind]
  | opening hs hpast _ hkind hline hopen =>
    rw [lang.kindAt_eq (hs.place hpast), Language.kindBetween, hline, hopen, hkind]
  | word hs hpast _ hline hopen hstart hword =>
    rw [lang.kindAt_eq (hs.place hpast), Language.kindBetween, hline, hopen, if_pos hstart, hword]
  | number hs hpast _ hkind hline hopen hstart hword hdigit =>
    rw [lang.kindAt_eq (hs.place hpast), Language.kindBetween, hline, hopen, if_pos hstart, hword,
      if_pos hdigit, hkind]
  | plain hkind hplain _ =>
    have hpos : 0 < b.content.byteSize :=
      Nat.pos_of_ne_zero fun hzero => hne ((Text.byteSize_eq_zero_iff _).1 hzero)
    have hnone : Kind.priority.find? (lang.beginsAt text.utf8 past.concat.byteSize) = none := by
      rw [List.find?_eq_none]
      intro kind hmem
      simpa using hplain.beginsAt htext hpos hmem
    rw [Language.kindAt, hnone, hkind]
    rfl
  | comment hcomment => exact absurd hcomment hnew

theorem of_word (hb : b.kind = .keyword ∨ b.kind = .type) :
    b.content.utf8 = (text.utf8.drop past.concat.byteSize).takeWhile Bytes.isIdentByte := by
  cases h with
  | word hs hpast _ _ _ _ hword =>
    obtain ⟨hcontent, -⟩ := Language.word?_cases hword
    rw [(hs.place hpast).drop_eq, Text.takeWhile_isIdentByte, hcontent]
  | opening _ _ _ hkind _ hopen =>
    rw [hkind] at hb
    rcases Language.mode_of_opening? hopen with rfl | rfl | ⟨quote, rfl⟩ | rfl
    · simp [Mode.kind] at hb
    · simp [Mode.kind] at hb
    · cases quote <;> simp [Mode.kind] at hb
    · simp [Mode.kind] at hb
  | lineBreak _ _ hkind _ | number _ _ _ hkind _ _ _ _ _ | plain hkind _ _ => simp [hkind] at hb
  | comment hcomment => simp [hcomment.1] at hb

theorem of_default (hb : b.kind = .default) : PlainRun lang text past b.content ∧
    ∀ d, past.getLast? = some d → d.kind ≠ .default := by
  cases h with
  | plain _ hplain hlast => exact ⟨hplain, hlast⟩
  | opening _ _ _ hkind _ hopen =>
    obtain ⟨-, hidle, -⟩ := Language.stands_opening? hopen
    exact absurd (hkind.symm.trans hb) (kind_ne_default hidle)
  | word _ _ _ _ _ _ hword =>
    rcases Language.kind_of_word? hword with h | h <;> simp [h] at hb
  | lineBreak _ _ hkind _ | number _ _ _ hkind _ _ _ _ _ => simp [hkind] at hb
  | comment hcomment => simp [hcomment.1] at hb

end Origin

end Cursor

/-- In a finished pass the kind of each block is the first of the list that can begin at its first
byte, unless it goes on with a comment of an earlier line. A word is the whole identifier. In
plain text nothing else could begin, and plain text is one block. -/
theorem blocks_by_priority {lang : Language} {text : Text} {limits : List Nat}
    (hf : ((Scanner.start lang true text).advanceAll limits).finished = true)
    {past future : Blocks} {b : Block}
    (hb : ((Scanner.start lang true text).advanceAll limits).blocks = past ++ b :: future) :
    let start := past.concat.byteSize
    (¬ Cursor.ContinuesComment lang text past b → b.kind = lang.kindAt text.utf8 start) ∧
      (b.kind = .keyword ∨ b.kind = .type →
        b.content.utf8 = (text.utf8.drop start).takeWhile Bytes.isIdentByte) ∧
      (b.kind = .default →
        (∀ i, start < i → i < start + b.content.byteSize → ∀ kind ∈ Kind.priority,
          lang.beginsAt text.utf8 i kind = false) ∧
        ∀ next, future.head? = some next → next.kind ≠ .default) := by
  intro start
  obtain ⟨s, hs, hend, hblocks⟩ := exists_visited_of_finished hf
  have hall : s.flush.blocks = past ++ b :: future := hblocks.symm.trans hb
  have htext : text = past.concat ++ (b.content ++ future.concat) := by
    obtain ⟨-, htext⟩ := hs.before_eq hall
    rw [htext, hend]
    simp
  have hne : b.content ≠ [] := by
    apply hs.sound.flush.nonempty
    rw [hall]
    simp
  have horigin := origin_of_finished hf hb
  refine ⟨horigin.kind_eq htext hne, horigin.of_word, fun hdefault => ⟨?_, ?_⟩⟩
  · obtain ⟨hplain, -⟩ := horigin.of_default hdefault
    intro i hlo hhi kind hkind
    have hbegins := hplain.beginsAt htext (k := i - start) (by omega) hkind
    have hoffset : start + (i - start) = i := by omega
    rwa [hoffset] at hbegins
  · intro next hnext hkind
    obtain ⟨future, rfl⟩ := List.head?_eq_some_iff.1 hnext
    rw [List.append_cons] at hb
    obtain ⟨-, hlast⟩ := (origin_of_finished hf hb).of_default hkind
    exact hlast b List.getLast?_concat hdefault

/-- A letter beyond ASCII goes on with an identifier, and the digit behind it is no number. -/
theorem blocks_by_priority_c :
    let text : Text := "int é1 /* x\n y */ 7".toList
    let pass := (Scanner.start Language.c true text).advanceAll [1, 9]
    pass.finished = true ∧
      pass.blocks = [⟨.type, "int".toList⟩, ⟨.default, " é1 ".toList⟩,
        ⟨.commentBlock, "/* x".toList⟩, ⟨.lineBreak, ['\n']⟩, ⟨.commentBlock, " y */".toList⟩,
        ⟨.default, [' ']⟩, ⟨.number, ['7']⟩] ∧
      Language.c.kindAt text.utf8 0 = .type ∧
      Text.utf8 "int".toList = (text.utf8.drop 0).takeWhile Bytes.isIdentByte ∧
      ∀ i, 3 < i → i < 8 → ∀ kind ∈ Kind.priority,
        Language.c.beginsAt text.utf8 i kind = false := by
  intro text pass
  have hf : pass.finished = true := by decide +kernel
  have hb : pass.blocks = [⟨.type, "int".toList⟩, ⟨.default, " é1 ".toList⟩,
      ⟨.commentBlock, "/* x".toList⟩, ⟨.lineBreak, ['\n']⟩, ⟨.commentBlock, " y */".toList⟩,
      ⟨.default, [' ']⟩, ⟨.number, ['7']⟩] := by decide +kernel
  obtain ⟨hkind, hword, -⟩ := @blocks_by_priority Language.c text [1, 9] hf [] _ _ hb
  obtain ⟨-, -, hplain⟩ :=
    @blocks_by_priority Language.c text [1, 9] hf [⟨.type, "int".toList⟩] _ _ hb
  have hnew : ¬ Cursor.ContinuesComment Language.c text [] ⟨.type, "int".toList⟩ := by
    rintro ⟨hcomment, -⟩
    cases hcomment
  exact ⟨hf, hb, (hkind hnew).symm, hword (.inr rfl), (hplain rfl).1⟩

end Highlighter
