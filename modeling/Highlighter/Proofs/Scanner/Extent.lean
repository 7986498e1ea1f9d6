import Highlighter.Language.Builtin
import Highlighter.Proofs.Scanner.BlockComment

/-!
# The extent of constructs

What a construct takes of the text behind its opener is said of that text alone. A literal ends
with the first delimiter that no backslash escapes, or before the line end; line comments and
directives end before the line end; a block comment ends with the first closer, and each line
of it is a block. `construct_extents`: so it is in every finished pass.
-/

namespace Highlighter

/-- The modes that openers lead to. -/
def Mode.constructs : List Mode :=
  [.blockComment, .lineComment, .quoted .string false, .quoted .char false, .directive]

theorem Mode.eq_of_kind_eq :
    ∀ m ∈ constructs, ∀ n ∈ constructs, m.kind = n.kind → m = n := by
  decide

theorem Language.mem_constructs_of_opening? {lang : Language} {before rest lexeme : Text}
    {mode : Mode} (h : lang.opening? before rest = some (mode, lexeme)) :
    mode ∈ Mode.constructs := by
  rcases mode_of_opening? h with rfl | rfl | ⟨quote, rfl⟩ | rfl
  · simp [Mode.constructs]
  · simp [Mode.constructs]
  · cases quote <;> simp [Mode.constructs]
  · simp [Mode.constructs]

/-- Behind the blocks the opener of a construct stands in front of the rest. -/
def Language.Opens (lang : Language) (past : Blocks) (mode : Mode) (opener after : Text) : Prop :=
  lang.opening? past.concat.reverse (opener ++ after) = some (mode, opener)

theorem Language.closer_of_opens {lang : Language} {past : Blocks} {opener after : Text}
    (h : lang.Opens past .blockComment opener after) :
    ∃ closer, lang.blockComment = some (opener, closer) := by
  unfold Opens opening? at h
  cases hopen : lang.commentOpener? (opener ++ after) with
  | some lexeme =>
    obtain ⟨⟨token, closer⟩, hb, htoken⟩ := Option.bind_eq_some_iff.1 hopen
    obtain ⟨rfl, -⟩ := token?_cases htoken
    rw [hopen] at h
    cases h
    exact ⟨closer, hb⟩
  | none =>
    simp only [Option.orElse_eq_orElse, Option.orElse_eq_or, Option.or_eq_some_iff,
      Option.map_eq_some_iff, Prod.mk.injEq] at h
    simp [hopen] at h

namespace Cursor
variable {lang : Language} {text : Text} {past : Blocks}

/-- The state right behind the opener of a construct. -/
structure Opened (lang : Language) (text : Text) (past : Blocks) (mode : Mode) (opener after : Text)
    (s : Cursor) : Prop where
  visited : Visited lang text s
  mode_eq : s.mode = mode
  blocks : s.blocks = past
  pending : s.pending.reverse = opener
  rest : s.rest = after
  opens : lang.Opens past mode opener after
  text_eq : text = past.concat ++ (opener ++ after)

theorem Origin.exists_opened {b : Block} (h : Origin lang text past b) {mode : Mode}
    (hmode : mode ∈ Mode.constructs) (hb : b.kind = mode.kind)
    (hnew : ¬ ContinuesComment lang text past b) :
    ∃ opener after s, Opened lang text past mode opener after s := by
  have hkinds : b.kind ∈ Mode.constructs.map Mode.kind := hb ▸ List.mem_map_of_mem hmode
  cases h with
  | @opening s found opener hs hpast hidle hkind hline hopen =>
    have hfound := Mode.eq_of_kind_eq mode hmode found (Language.mem_constructs_of_opening? hopen)
      (hb.symm.trans hkind)
    obtain ⟨hstands, -⟩ := Language.stands_opening? hopen
    obtain ⟨after, hrest⟩ := hstands.pre
    obtain ⟨c, front, hcons⟩ := List.exists_cons_of_ne_nil hstands.ne_nil
    obtain ⟨hbefore, htext⟩ := hs.before_eq hpast
    have hstep : s.step lang = (s.flush.read opener.length).enter mode := by
      have hr : s.rest = c :: (front ++ after) := by
        rw [← hrest, hcons, List.cons_append]
      rw [step_idle lang hr hidle, stepIdle, hline, hopen, hfound]
    refine ⟨opener, after, s.step lang, hs.step, ?_, ?_, ?_, ?_, ?_, ?_⟩
    · rw [hstep, mode_enter]
    · rw [hstep, blocks_enter, blocks_read, hpast]
    · simp [hstep, hstands.take_length]
    · rw [hstep, rest_enter, rest_read, rest_flush, ← hrest, List.drop_left]
    · rw [Language.Opens, hrest, ← hbefore, hopen, hfound]
    · rw [hrest, htext]
  | word _ _ _ _ _ _ hword =>
    rcases Language.kind_of_word? hword with h | h <;> simp [h, Mode.constructs, Mode.kind] at hkinds
  | lineBreak _ _ hkind _ | number _ _ _ hkind _ _ _ _ _ | plain hkind _ _ =>
    simp [hkind, Mode.constructs, Mode.kind] at hkinds
  | comment hcomment => exact absurd hcomment hnew

namespace Opened
variable {mode : Mode} {opener after : Text} {s u : Cursor} {b : Block} {future : Blocks}

theorem pending_ne_nil (h : Opened lang text past mode opener after s) : s.pending ≠ [] := by
  obtain ⟨hstands, -⟩ := Language.stands_opening? h.opens
  have hne := hstands.ne_nil
  rw [← h.pending] at hne
  simpa using hne

theorem hasBreak_pending (h : Opened lang text past mode opener after s) (nf : lang.NewlineFree) :
    s.pending.hasBreak = false := by
  obtain ⟨hstands, -⟩ := Language.stands_opening? h.opens
  have hbreak := hstands.hasBreak nf
  rwa [← h.pending, Text.hasBreak_reverse] at hbreak

theorem first_eq {x : Block} (hall : u.flush.blocks = past ++ b :: future)
    (hx : past ++ [x] <+: u.flush.blocks) : b = x := by
  rw [hall, List.prefix_append_right_inj, List.cons_prefix_cons] at hx
  exact hx.1.symm

section Finished
variable (hu : Visited lang text u) (hend : u.rest = [])
  (hall : u.flush.blocks = past ++ b :: future)
include hu hend hall

theorem concat_eq (h : Opened lang text past mode opener after s) :
    Blocks.concat (b :: future) = opener ++ after := by
  obtain ⟨-, htext⟩ := hu.before_eq hall
  rw [hend, List.append_nil, Blocks.concat_append, h.text_eq] at htext
  exact (List.append_cancel_left htext).symm

theorem literal_of_closes {quote : Quote}
    (h : Opened lang text past (.quoted quote false) opener after s)
    (hquote : ∀ c, lang.closes quote c = true → isBreak c = false) :
    ∃ body, lang.LiteralBody quote after body ∧ b.content = opener ++ body := by
  obtain ⟨body, hbody, hprefix⟩ := h.visited.literal_block hquote h.mode_eq h.pending_ne_nil hu hend
  rw [h.blocks, h.pending] at hprefix
  rw [h.rest] at hbody
  exact ⟨body, hbody, congrArg Block.content (first_eq hall hprefix)⟩

theorem literal {quote : Quote} (h : Opened lang text past (.quoted quote false) opener after s)
    (nf : lang.NewlineFree) :
    ∃ body, lang.LiteralBody quote after body ∧ b.content = opener ++ body :=
  h.literal_of_closes hu hend hall fun _ hclose => Language.isBreak_of_closes nf hclose

theorem line (h : Opened lang text past mode opener after s)
    (hmode : mode = .lineComment ∨ mode = .directive) (nf : lang.NewlineFree) :
    b.content = opener ++ after.firstLine := by
  rw [← h.mode_eq] at hmode
  have hprefix := h.visited.line_block nf hmode h.pending_ne_nil hu hend
  rw [h.blocks, h.pending, h.rest] at hprefix
  exact congrArg Block.content (first_eq hall hprefix)

theorem comment (h : Opened lang text past .blockComment opener after s) {closer : Text}
    (hb : lang.blockComment = some (opener, closer)) (nf : lang.NewlineFree) :
    ∃ (body : Text) (behind : Blocks), Language.CommentBody closer after body ∧
      b :: future = Blocks.byLines .commentBlock (opener ++ body) ++ behind ∧
      ((∃ k, Text.Occurs closer after k) → ∃ v, Visited lang text v ∧ v.mode = .idle ∧
        v.pending = [] ∧ past ++ b :: future = v.blocks ++ behind ∧ v.rest = behind.concat) := by
  obtain ⟨body, hbody, ⟨behind, hprefix⟩, hidle⟩ := h.visited.comment_blocks nf h.mode_eq
    (h.hasBreak_pending nf) hb hu hend
  rw [h.rest] at hbody hidle
  rw [h.blocks, h.pending, hall, List.append_assoc] at hprefix
  have hlines := List.append_cancel_left hprefix
  refine ⟨body, behind, hbody, hlines.symm, fun hclosed => ?_⟩
  obtain ⟨v, hv, hvm, hvp, hvblocks⟩ := hidle hclosed
  rw [h.blocks, h.pending] at hvblocks
  have hsplit : past ++ b :: future = v.blocks ++ behind := by
    rw [← hlines, hvblocks, List.append_assoc]
  have hflush : v.flush.blocks = v.blocks := by
    simp [blocks_flush_eq_piece, hvp, Blocks.piece]
  obtain ⟨-, htext⟩ := hv.before_eq hflush
  obtain ⟨-, hfull⟩ := hu.before_eq (hall.trans hsplit)
  rw [hend, List.append_nil, Blocks.concat_append] at hfull
  exact ⟨v, hv, hvm, hvp, hsplit, List.append_cancel_left (htext.symm.trans hfull)⟩

end Finished

end Opened

end Cursor

/-- In a finished pass every construct takes what it should of the text behind its opener: a
literal up to its delimiter or its line, a line comment or a directive its line, and a block
comment all up to its closer or the end of the text, line by line. Right behind the closer the
scanner is between constructs again. -/
theorem construct_extents {lang : Language} (nf : lang.NewlineFree) {text : Text}
    {limits : List Nat}
    (hf : ((Scanner.start lang true text).advanceAll limits).finished = true)
    {past future : Blocks} {b : Block}
    (hb : ((Scanner.start lang true text).advanceAll limits).blocks = past ++ b :: future) :
    let rest := Blocks.concat (b :: future)
    (∀ quote, b.kind = (Mode.quoted quote false).kind →
      ∃ opener after body, rest = opener ++ after ∧
        lang.Opens past (.quoted quote false) opener after ∧
        lang.LiteralBody quote after body ∧ b.content = opener ++ body) ∧
    (∀ mode ∈ [Mode.lineComment, .directive], b.kind = mode.kind →
      ∃ opener after, rest = opener ++ after ∧ lang.Opens past mode opener after ∧
        b.content = opener ++ after.firstLine) ∧
    (b.kind = .commentBlock → ¬ Cursor.ContinuesComment lang text past b →
      ∃ opener closer after body, ∃ behind : Blocks, rest = opener ++ after ∧
        lang.Opens past .blockComment opener after ∧
        lang.blockComment = some (opener, closer) ∧ Language.CommentBody closer after body ∧
        b :: future = Blocks.byLines .commentBlock (opener ++ body) ++ behind ∧
        ((∃ k, Text.Occurs closer after k) → ∃ s, Cursor.Visited lang text s ∧ s.mode = .idle ∧
          s.pending = [] ∧ past ++ b :: future = s.blocks ++ behind ∧ s.rest = behind.concat)) := by
  obtain ⟨u, hu, hend, hblocks⟩ := exists_visited_of_finished hf
  have hall : u.flush.blocks = past ++ b :: future := hblocks.symm.trans hb
  have horigin := origin_of_finished hf hb
  refine ⟨fun quote hkind => ?_, fun mode hmode hkind => ?_, fun hkind hnew => ?_⟩
  · have hmem : Mode.quoted quote false ∈ Mode.constructs := by
      cases quote <;> simp [Mode.constructs]
    have hnew : ¬ Cursor.ContinuesComment lang text past b := by
      rintro ⟨hcomment, -⟩
      rw [hkind] at hcomment
      cases quote <;> cases hcomment
    obtain ⟨opener, after, s, hs⟩ := horigin.exists_opened hmem hkind hnew
    obtain ⟨body, hbody, hcontent⟩ := hs.literal hu hend hall nf
    exact ⟨opener, after, body, hs.concat_eq hu hend hall, hs.opens, hbody, hcontent⟩
  · have hmode' : mode = .lineComment ∨ mode = .directive := by simpa using hmode
    have hmem : mode ∈ Mode.constructs := by
      rcases hmode' with rfl | rfl <;> simp [Mode.constructs]
    have hnew : ¬ Cursor.ContinuesComment lang text past b := by
      rintro ⟨hcomment, -⟩
      rw [hkind] at hcomment
      rcases hmode' with rfl | rfl <;> cases hcomment
    obtain ⟨opener, after, s, hs⟩ := horigin.exists_opened hmem hkind hnew
    have hcontent := hs.line hu hend hall hmode' nf
    exact ⟨opener, after, hs.concat_eq hu hend hall, hs.opens, hcontent⟩
  · have hmem : Mode.blockComment ∈ Mode.constructs := by simp [Mode.constructs]
    obtain ⟨opener, after, s, hs⟩ := horigin.exists_opened hmem hkind hnew
    obtain ⟨closer, htokens⟩ := Language.closer_of_opens hs.opens
    obtain ⟨body, behind, hbody, hlines, hidle⟩ := hs.comment hu hend hall htokens nf
    exact ⟨opener, closer, after, body, behind, hs.concat_eq hu hend hall, hs.opens, htokens,
      hbody, hlines, hidle⟩

/-- Three backslashes leave the quote behind them escaped, and an opener does not overlap with
the closer. -/
theorem construct_extents_c :
    let text : Text := "\"a\\\\\\\"b\" /*/ x\r\n\r y */ // z".toList
    let pass := (Scanner.start Language.c true text).advanceAll [1, 9]
    let literal : Block := ⟨.string, "\"a\\\\\\\"b\"".toList⟩
    let comment : Blocks := [⟨.commentBlock, "/*/ x".toList⟩, ⟨.lineBreak, ['\r', '\n']⟩,
      ⟨.lineBreak, ['\r']⟩, ⟨.commentBlock, " y */".toList⟩]
    let behind : Blocks := [⟨.default, [' ']⟩, ⟨.commentLine, "// z".toList⟩]
    pass.finished = true ∧ pass.blocks = literal :: ⟨.default, [' ']⟩ :: comment ++ behind ∧
      (∃ opener after body, Language.c.Opens [] (.quoted .string false) opener after ∧
        Language.c.LiteralBody .string after body ∧ literal.content = opener ++ body) ∧
      ∃ s, Cursor.Visited Language.c text s ∧ s.mode = .idle ∧ s.pending = [] ∧
        s.blocks = literal :: ⟨.default, [' ']⟩ :: comment ∧ s.rest = " // z".toList := by
  intro text pass literal comment behind
  have nf : Language.c.NewlineFree := by decide +kernel
  have hf : pass.finished = true := by decide +kernel
  have hb : pass.blocks = literal :: ⟨.default, [' ']⟩ :: comment ++ behind := by decide +kernel
  obtain ⟨hliteral, -⟩ := @construct_extents Language.c nf text [1, 9] hf [] _ _ hb
  obtain ⟨-, -, hcomment⟩ :=
    @construct_extents Language.c nf text [1, 9] hf [literal, ⟨.default, [' ']⟩] _ _ hb
  refine ⟨hf, hb, ?_, ?_⟩
  · obtain ⟨opener, after, body, -, hopens, hbody, hcontent⟩ := hliteral .string rfl
    exact ⟨opener, after, body, hopens, hbody, hcontent⟩
  · have hnew : ¬ Cursor.ContinuesComment Language.c text [literal, ⟨.default, [' ']⟩]
        ⟨.commentBlock, "/*/ x".toList⟩ := by
      rintro ⟨-, ⟨ending, hlast⟩, -⟩
      cases hlast
    obtain ⟨opener, closer, after, body, behind', hrest, -, htokens, hbody, hlines, hidle⟩ :=
      hcomment rfl hnew
    cases htokens
    obtain rfl : after = "/ x\r\n\r y */ // z".toList :=
      @List.append_cancel_left _ "/*".toList _ _ hrest.symm
    have hfirst : IsLeast {k | Text.Occurs "*/".toList "/ x\r\n\r y */ // z".toList k} 9 := by
      refine ⟨by decide, fun k hk => ?_⟩
      have hnone : ∀ k < 9, ¬ Text.Occurs "*/".toList "/ x\r\n\r y */ // z".toList k := by decide
      exact Nat.le_of_not_lt fun hlt => hnone k hlt hk
    rw [hbody.1 9 hfirst] at hlines
    obtain rfl : behind = behind' := @List.append_cancel_left _ comment _ _ hlines
    obtain ⟨s, hs, hmode, hpending, hblocks, hsrest⟩ := hidle ⟨9, hfirst.1⟩
    refine ⟨s, hs, hmode, hpending, ?_, hsrest⟩
    exact (List.append_cancel_right hblocks).symm

end Highlighter
