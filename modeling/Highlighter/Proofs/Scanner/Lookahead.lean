import Highlighter.Proofs.Scanner.Extent

/-!
# The lookahead of character literals

A mark of character literals may stand for something else, so a language can ask for a delimiter
nearby before the mark opens a literal. Two scans meet here. The one ahead looks at a window of the
text, and the one inside of the literal tells which delimiters are escaped and ends with the line.
They do not always agree: `char_literals_closed` says when they do, and what the literal is if not.
-/

namespace Highlighter

/-- A delimiter that no backslash escapes stands on the line. -/
def Language.ClosedOnLine (lang : Language) (quote : Quote) (after : Text) : Prop :=
  ∃ k, lang.ClosesAt quote after k ∧ Text.hasBreak (after.take k) = false

/-- The delimiter that is met in the window of an escape closes nothing: the escaped character is
itself the line end in front of it, or a backslash escapes the delimiter. -/
def Language.Misled (delimiter : Char) (after : Text) : Prop :=
  ∃ c seen more, after = '\\' :: c :: (seen ++ delimiter :: more) ∧
    c.utf8Size + Text.byteSize seen ≤ escapeWindow ∧ Text.hasBreak seen = false ∧
    (isBreak c = true ∨ Text.escapesNext ('\\' :: c :: seen) = true)

namespace Language
variable {lang : Language} {delimiter : Char} {after : Text}

/-! ### Ahead of the literal -/

theorem exists_of_delimiterWithin {budget : Nat} {t : Text}
    (h : delimiterWithin delimiter budget t = true) :
    ∃ seen more, t = seen ++ delimiter :: more ∧ Text.byteSize seen < budget ∧
      Text.hasBreak seen = false := by
  induction t generalizing budget with
  | nil => cases h
  | cons c t ih =>
    rw [delimiterWithin] at h
    split at h
    · cases h
    rename_i hbudget
    split at h
    · cases h
    rename_i hc
    rw [Bool.or_eq_true, beq_iff_eq] at h
    rcases h with rfl | h
    · exact ⟨[], t, rfl, Nat.pos_of_ne_zero hbudget, rfl⟩
    · obtain ⟨seen, more, rfl, hsize, hseen⟩ := ih h
      refine ⟨c :: seen, more, rfl, ?_, ?_⟩
      · rw [Text.byteSize_cons]
        omega
      · simp [hc, hseen]

theorem charOpener?_of_opening? {before rest lexeme : Text} {escaped : Bool}
    (h : lang.opening? before rest = some (.quoted .char escaped, lexeme)) :
    lang.charOpener? rest = some lexeme := by
  unfold opening? at h
  simp only [Option.orElse_eq_orElse, Option.orElse_eq_or, Option.or_eq_some_iff,
    Option.map_eq_some_iff, Prod.mk.injEq] at h
  rcases h with ⟨_, _, h, _⟩ | ⟨-, ⟨_, _, h, _⟩ | ⟨-, ⟨_, _, h, _⟩ | ⟨-, ⟨_, h, _, rfl⟩ | ⟨-, h⟩⟩⟩⟩
  · cases h
  · cases h
  · cases h
  · exact h
  · split at h <;> cases h

/-- A literal that is opened has been looked at before. -/
theorem charCloses_of_opens {past : Blocks} {opener : Text} (hlook : lang.charLookahead = true)
    (hd : lang.charDelimiter = some delimiter)
    (h : lang.Opens past (.quoted .char false) opener after) :
    opener = [delimiter] ∧ isAscii delimiter = true ∧ charCloses delimiter after = true := by
  have hopener := charOpener?_of_opening? h
  have hstands := stands_charOpener? hopener
  obtain ⟨c, front, rfl⟩ := List.exists_cons_of_ne_nil hstands.ne_nil
  rw [List.cons_append, charOpener?] at hopener
  split at hopener
  · rename_i hopens
    rw [Bool.and_eq_true] at hopens
    obtain ⟨e, rest, heq, hmark, hascii⟩ := exists_of_startsWith hopens.1
    cases heq
    cases hd.symm.trans hmark
    cases hopener
    exact ⟨rfl, hascii, by simpa [hlook] using hopens.2⟩
  · cases hopener

/-! ### Inside of the literal -/

theorem closes_char (hd : lang.charDelimiter = some delimiter) (hascii : isAscii delimiter = true) :
    lang.closes .char delimiter = true := by
  simp [closes, closesChar, startsWith, hd, hascii]

theorem eq_of_closes_char (hd : lang.charDelimiter = some delimiter) {c : Char}
    (h : lang.closes .char c = true) : c = delimiter := by
  simp only [closes, closesChar, startsWith, hd, Bool.and_eq_true, beq_iff_eq, Option.some.injEq] at h
  exact h.2.symm

theorem closedOnLine_append {quote : Quote} {c : Char} (hc : lang.closes quote c = true)
    {front : Text} (hescape : Text.escapesNext front = false) (hline : Text.hasBreak front = false)
    (more : Text) : lang.ClosedOnLine quote (front ++ c :: more) := by
  rw [Text.escapesNext, beq_eq_false_iff_ne] at hescape
  refine ⟨front.length, ⟨⟨c, by simp, hc⟩, ?_⟩, ?_⟩
  · rw [List.take_left]
    omega
  · rwa [List.take_left]

/-- What the scan ahead takes for the end of the literal is one, or it is misled. -/
theorem closedOnLine_or_misled (hd : lang.charDelimiter = some delimiter)
    (hascii : isAscii delimiter = true) (h : charCloses delimiter after = true) :
    lang.ClosedOnLine .char after ∨ Misled delimiter after := by
  have hcloses := closes_char hd hascii
  unfold charCloses at h
  split at h
  · rename_i c rest
    obtain ⟨seen, more, rfl, hsize, hseen⟩ := exists_of_delimiterWithin h
    by_cases hmis : isBreak c = true ∨ Text.escapesNext ('\\' :: c :: seen) = true
    · exact .inr ⟨c, seen, more, rfl, by omega, hseen, hmis⟩
    · rw [not_or, Bool.not_eq_true, Bool.not_eq_true] at hmis
      obtain ⟨hc, hescape⟩ := hmis
      have hline : Text.hasBreak ('\\' :: c :: seen) = false := by
        rw [Text.hasBreak_cons, Text.hasBreak_cons, hc, hseen]
        rfl
      exact .inl (closedOnLine_append hcloses hescape hline more)
  · rename_i c e rest hslash
    simp only [Bool.and_eq_true, Bool.not_eq_true', bne_iff_ne, beq_iff_eq] at h
    obtain ⟨⟨hc, -⟩, rfl⟩ := h
    have hne : c ≠ '\\' := by
      rintro rfl
      exact hslash rfl
    have hescape : Text.escapesNext [c] = false := by
      rw [← List.nil_append [c], Text.escapesNext_concat]
      simp [hne]
    have hline : Text.hasBreak [c] = false := by simpa using hc
    exact .inl (closedOnLine_append hcloses hescape hline rest)
  · cases h

theorem LiteralBody.of_closedOnLine {quote : Quote} {body : Text}
    (h : lang.LiteralBody quote after body) (hclosed : lang.ClosedOnLine quote after) :
    ∃ k, lang.ClosesAt quote after k ∧ Text.hasBreak (after.take k) = false ∧
      body = after.take (k + 1) := by
  classical
  obtain ⟨k, hk, hbreak⟩ := hclosed
  have hleast := Nat.isLeast_find ⟨k, hk⟩
  have hshort := Text.hasBreak_take hbreak (hleast.2 hk)
  exact ⟨_, hleast.1, hshort, h.1 _ hleast hshort⟩

theorem LiteralBody.of_not_closedOnLine {quote : Quote} {body : Text}
    (h : lang.LiteralBody quote after body) (hopen : ¬ lang.ClosedOnLine quote after) :
    body = after.firstLine := by
  refine h.2 fun k hk => ?_
  by_contra hbreak
  exact hopen ⟨k, hk.1, by simpa using hbreak⟩

end Language

theorem Cursor.Origin.exists_char {lang : Language} {text : Text} {past : Blocks} {b : Block}
    (h : Origin lang text past b) (hb : b.kind = .char) (hlook : lang.charLookahead = true)
    {delimiter : Char} (hd : lang.charDelimiter = some delimiter) :
    ∃ after s, Opened lang text past (.quoted .char false) [delimiter] after s ∧
      isAscii delimiter = true ∧ Language.charCloses delimiter after = true := by
  have hmem : Mode.quoted .char false ∈ Mode.constructs := by simp [Mode.constructs]
  have hnew : ¬ ContinuesComment lang text past b := by
    rintro ⟨hcomment, -⟩
    rw [hb] at hcomment
    cases hcomment
  obtain ⟨opener, after, s, hs⟩ := h.exists_opened hmem hb hnew
  obtain ⟨rfl, hascii, hcloses⟩ := Language.charCloses_of_opens hlook hd hs.opens
  exact ⟨after, s, hs, hascii, hcloses⟩

/-- Where a language looks ahead, every character literal of a finished pass ends on its line with
a delimiter that is not escaped, if there is one. There is one, unless the scan ahead has been
misled, and then the literal is the rest of its line. -/
theorem char_literals_closed {lang : Language} {delimiter : Char}
    (hlook : lang.charLookahead = true) (hd : lang.charDelimiter = some delimiter)
    (hbreak : isBreak delimiter = false) {text : Text} {limits : List Nat}
    (hf : ((Scanner.start lang true text).advanceAll limits).finished = true)
    {past future : Blocks} {b : Block}
    (hb : ((Scanner.start lang true text).advanceAll limits).blocks = past ++ b :: future)
    (hkind : b.kind = .char) :
    ∃ after : Text, Blocks.concat (b :: future) = delimiter :: after ∧
      (lang.ClosedOnLine .char after ∧
          (∃ body : Text, b.content = delimiter :: (body ++ [delimiter]) ∧
            body.hasBreak = false ∧ body.escapesNext = false) ∨
        ¬ lang.ClosedOnLine .char after ∧ Language.Misled delimiter after ∧
          b.content = delimiter :: after.firstLine) := by
  obtain ⟨u, hu, hend, hblocks⟩ := exists_visited_of_finished hf
  have hall : u.flush.blocks = past ++ b :: future := hblocks.symm.trans hb
  obtain ⟨after, s, hs, hascii, hcloses⟩ := (origin_of_finished hf hb).exists_char hkind hlook hd
  have hquote : ∀ c, lang.closes .char c = true → isBreak c = false := fun c hc => by
    rwa [Language.eq_of_closes_char hd hc]
  obtain ⟨body, hbody, hcontent⟩ := hs.literal_of_closes hu hend hall hquote
  refine ⟨after, hs.concat_eq hu hend hall, ?_⟩
  by_cases hclosed : lang.ClosedOnLine .char after
  · obtain ⟨k, ⟨⟨c, hc, hclose⟩, heven⟩, hline, rfl⟩ := hbody.of_closedOnLine hclosed
    obtain rfl := Language.eq_of_closes_char hd hclose
    refine .inl ⟨hclosed, after.take k, ?_, hline, ?_⟩
    · rw [hcontent, List.take_add_one, hc]
      rfl
    · rw [Text.escapesNext, heven]
      rfl
  · have hmisled := (Language.closedOnLine_or_misled hd hascii hcloses).resolve_left hclosed
    refine .inr ⟨hclosed, hmisled, ?_⟩
    rw [hcontent, hbody.of_not_closedOnLine hclosed]
    rfl

/-- A lifetime opens nothing, a literal that ends with two backslashes is closed, and behind an
escaped line end the scan ahead takes the mark of the next line for the end of the literal. -/
theorem char_literals_closed_rust :
    let text : Text := "&'a '\\\\\\\\' '\\\nx'".toList
    let pass := (Scanner.start Language.rust true text).advanceAll [1, 9]
    let closed : Block := ⟨.char, "'\\\\\\\\'".toList⟩
    let broken : Block := ⟨.char, "'\\".toList⟩
    pass.finished = true ∧
      pass.blocks = [⟨.default, "&'a ".toList⟩, closed, ⟨.default, [' ']⟩, broken,
        ⟨.lineBreak, ['\n']⟩, ⟨.default, "x'".toList⟩] ∧
      (∃ body : Text, closed.content = '\'' :: (body ++ ['\'']) ∧ body.hasBreak = false ∧
        body.escapesNext = false) ∧
      Language.Misled '\'' "\\\nx'".toList := by
  intro text pass closed broken
  have hf : pass.finished = true := by decide +kernel
  have hb : pass.blocks = [⟨.default, "&'a ".toList⟩, closed, ⟨.default, [' ']⟩, broken,
      ⟨.lineBreak, ['\n']⟩, ⟨.default, "x'".toList⟩] := by decide +kernel
  obtain ⟨after, hafter, hfirst⟩ := @char_literals_closed Language.rust '\'' rfl rfl rfl text [1, 9]
    hf [⟨.default, "&'a ".toList⟩] _ _ hb rfl
  obtain ⟨rest, hrest, hsecond⟩ := @char_literals_closed Language.rust '\'' rfl rfl rfl text [1, 9]
    hf [⟨.default, "&'a ".toList⟩, closed, ⟨.default, [' ']⟩] _ _ hb rfl
  obtain rfl : "\\\nx'".toList = rest := (List.cons.inj hrest).2
  refine ⟨hf, hb, ?_, ?_⟩
  · rcases hfirst with ⟨-, hclosed⟩ | ⟨hopen, -⟩
    · exact hclosed
    · obtain rfl : "\\\\\\\\' '\\\nx'".toList = after := (List.cons.inj hafter).2
      exact absurd ⟨4, ⟨⟨'\'', rfl, rfl⟩, rfl⟩, rfl⟩ hopen
  · rcases hsecond with ⟨-, body, hcontent, -⟩ | ⟨-, hmisled, -⟩
    · have hlast := congrArg List.getLast? hcontent
      rw [← List.cons_append, List.getLast?_concat] at hlast
      exact absurd hlast (by decide)
    · exact hmisled

/-- Not every character literal is closed. -/
theorem char_literals_left_open :
    ¬ ∀ (lang : Language) (delimiter : Char) (text : Text) (limits : List Nat),
      lang.charLookahead = true → lang.charDelimiter = some delimiter → isAscii delimiter = true →
      delimiter ≠ '\\' → isBreak delimiter = false →
      ((Scanner.start lang true text).advanceAll limits).finished = true →
      ∀ b ∈ ((Scanner.start lang true text).advanceAll limits).blocks, b.kind = .char →
        ∃ body : Text, b.content = delimiter :: (body ++ [delimiter]) ∧ body.hasBreak = false ∧
          body.escapesNext = false := by
  intro h
  have hf : ((Scanner.start Language.rust true "'\\\nx'".toList).advanceAll [9]).finished = true := by
    decide +kernel
  have hmem : (⟨.char, "'\\".toList⟩ : Block) ∈
      ((Scanner.start Language.rust true "'\\\nx'".toList).advanceAll [9]).blocks := by
    decide +kernel
  obtain ⟨body, hcontent, -⟩ := h Language.rust '\'' _ [9] rfl rfl rfl (by decide) rfl hf _ hmem rfl
  have hlast := congrArg List.getLast? hcontent
  rw [← List.cons_append, List.getLast?_concat] at hlast
  exact absurd hlast (by decide)

end Highlighter
