import Highlighter.Proofs.Scanner.Lookahead
import Highlighter.Proofs.Scanner.Numbers

/-!
# What a line sees of the next

With the lookahead of character literals a step can read past its line at one place only: the
line ends with a mark of such literals and a backslash, and the window of the escape begins
behind the line feed. Up to there two passes over the same lines take the same steps, whatever
follows. `lines_above_iff`: what follows changes the blocks above it exactly if the mark looks for a
delimiter in it, and finds one in one text and not in the other.
-/

namespace Highlighter

/-! ### Questions in front of a line feed -/

theorem atBreak_lf (t : Text) : AtBreak ('\n' :: t) := by
  intro c hc
  cases hc
  rfl

/-- An answer that no line end and nothing behind it changes stays the same whatever is behind. -/
theorem answer_append_lf {α : Type} {answer : Text → α}
    (h : ∀ t tail : Text, AtBreak tail → answer (t ++ tail) = answer t) (t tail : Text) :
    answer (t ++ ['\n'] ++ tail) = answer (t ++ ['\n']) := by
  have hlong := h t ('\n' :: tail) (atBreak_lf tail)
  have hshort := h t ['\n'] (atBreak_lf [])
  rw [List.append_assoc, hshort]
  exact hlong

theorem lineEnd?_append_lf (t tail : Text) :
    lineEnd? (t ++ ['\n'] ++ tail) = lineEnd? (t ++ ['\n']) := by
  cases t with
  | nil => rfl
  | cons c t =>
    cases hc : isBreak c with
    | false =>
      have hnone : ∀ u, lineEnd? (c :: u) = none := fun u => (lineEnd?_eq_none_iff c u).2 hc
      exact (hnone _).trans (hnone _).symm
    | true =>
      rcases eq_of_isBreak hc with rfl | rfl
      · rfl
      · cases t with
        | nil => rfl
        | cons d t =>
          by_cases hd : d = '\n'
          · rw [hd]
            rfl
          · simp [lineEnd?, hd]

namespace Language
variable {lang : Language}

theorem delimiterWithin_append (delimiter : Char) (budget : Nat) (t : Text) {tail : Text}
    (htail : AtBreak tail) :
    delimiterWithin delimiter budget (t ++ tail) = delimiterWithin delimiter budget t := by
  induction t generalizing budget with
  | nil =>
    cases tail with
    | nil => rfl
    | cons c tail =>
      have hc : isBreak c = true := htail c rfl
      simp [delimiterWithin, hc]
  | cons c t ih => rw [List.cons_append, delimiterWithin, delimiterWithin, ih]

theorem charCloses_append_lf (delimiter : Char) {t : Text} (ht : t ≠ ['\\']) (tail : Text) :
    charCloses delimiter (t ++ ['\n'] ++ tail) = charCloses delimiter (t ++ ['\n']) := by
  cases t with
  | nil => cases tail <;> rfl
  | cons c t =>
    cases t with
    | nil =>
      have hc : c ≠ '\\' := fun hc => ht (by rw [hc])
      exact (charCloses_cons_cons hc '\n' tail).trans (charCloses_cons_cons hc '\n' []).symm
    | cons e t =>
      by_cases hc : c = '\\'
      · rw [hc]
        exact answer_append_lf (fun t _ htail => delimiterWithin_append _ _ t htail) t tail
      · exact (charCloses_cons_cons hc e _).trans (charCloses_cons_cons hc e _).symm

/-- What a mark that stands at the end of the line, in front of a backslash, looks for behind. -/
def seesDelimiter (lang : Language) (after : Text) : Bool :=
  lang.charDelimiter.any fun delimiter => delimiterWithin delimiter escapeWindow after

theorem charOpener?_append_lf (nf : lang.NewlineFree) {t tail : Text}
    (h : lang.seesDelimiter tail = true → ∀ delimiter, lang.charDelimiter = some delimiter →
      isAscii delimiter = true → t ≠ [delimiter, '\\']) :
    lang.charOpener? (t ++ ['\n'] ++ tail) = lang.charOpener? (t ++ ['\n']) := by
  cases t with
  | nil =>
    have hnone : startsWith lang.charDelimiter ['\n'] = false := by
      by_contra hs
      have hs : startsWith lang.charDelimiter ['\n'] = true := by simpa using hs
      have hbreak := nf.startsWith (by simp) hs
      cases hbreak
    have hlong : startsWith lang.charDelimiter ('\n' :: tail) = false := hnone
    simp [charOpener?, hnone, hlong]
  | cons c t =>
    have hmark : startsWith lang.charDelimiter (c :: t ++ ['\n'] ++ tail) =
        startsWith lang.charDelimiter (c :: t ++ ['\n']) := rfl
    have hcloses : startsWith lang.charDelimiter (c :: t ++ ['\n']) = true →
        charCloses c (t ++ ['\n'] ++ tail) = charCloses c (t ++ ['\n']) := by
      intro hs
      obtain ⟨d, rest, heq, hd, hascii⟩ := exists_of_startsWith hs
      cases heq
      by_cases ht : t = ['\\']
      · subst ht
        cases hsees : lang.seesDelimiter tail with
        | true => exact absurd rfl (h hsees c hd hascii)
        | false =>
          rw [seesDelimiter, hd] at hsees
          exact hsees
      · exact charCloses_append_lf c ht tail
    simp only [List.cons_append] at hmark hcloses ⊢
    rw [charOpener?, charOpener?, hmark]
    cases hs : startsWith lang.charDelimiter (c :: (t ++ ['\n'])) with
    | false => rfl
    | true => rw [hcloses hs]

section
variable (nf : lang.NewlineFree) (t tail : Text)
include nf

theorem commentOpener?_append_lf :
    lang.commentOpener? (t ++ ['\n'] ++ tail) = lang.commentOpener? (t ++ ['\n']) :=
  answer_append_lf (fun t _ htail => commentOpener?_append nf t htail) t tail

theorem lineComment?_append_lf :
    lang.lineComment? (t ++ ['\n'] ++ tail) = lang.lineComment? (t ++ ['\n']) :=
  answer_append_lf (fun t _ htail => lineComment?_append nf t htail) t tail

theorem stringOpener?_append_lf :
    lang.stringOpener? (t ++ ['\n'] ++ tail) = lang.stringOpener? (t ++ ['\n']) :=
  answer_append_lf (fun t _ htail => stringOpener?_append nf t htail) t tail

end

theorem opening?_append_lf (nf : lang.NewlineFree) (before : Text) {t tail : Text}
    (h : lang.commentOpener? (t ++ ['\n']) = none → lang.lineComment? (t ++ ['\n']) = none →
      lang.stringOpener? (t ++ ['\n']) = none →
      lang.charOpener? (t ++ ['\n'] ++ tail) = lang.charOpener? (t ++ ['\n'])) :
    lang.opening? before (t ++ ['\n'] ++ tail) = lang.opening? before (t ++ ['\n']) := by
  have hdirective : lang.directiveAt before (t ++ ['\n'] ++ tail) =
      lang.directiveAt before (t ++ ['\n']) := by
    rw [directiveAt, directiveAt, startsWith_append (by simp)]
  have hfirst : (t ++ ['\n'] ++ tail).take 1 = (t ++ ['\n']).take 1 :=
    List.take_append_of_le_length (by simp)
  rw [opening?, opening?, commentOpener?_append_lf nf, lineComment?_append_lf nf,
    stringOpener?_append_lf nf, hdirective, hfirst]
  cases hc : lang.commentOpener? (t ++ ['\n']) with
  | some lexeme => rfl
  | none =>
  cases hl : lang.lineComment? (t ++ ['\n']) with
  | some lexeme => rfl
  | none =>
  cases hs : lang.stringOpener? (t ++ ['\n']) with
  | some lexeme => rfl
  | none => rw [h hc hl hs]

end Language

/-! ### The same lines with more behind -/

namespace Cursor
variable {lang : Language} {text tail : Text} {delimiter : Char} {s u : Cursor}

/-- Only a mark of character literals and a backslash are left of the last line, and nothing that
comes first opens there. -/
structure AtEdge (lang : Language) (text : Text) (delimiter : Char) (s : Cursor) : Prop where
  visited : Visited lang (text ++ ['\n']) s
  idle : s.mode = .idle
  rest : s.rest = [delimiter, '\\', '\n']
  mark : lang.charDelimiter = some delimiter
  ascii : isAscii delimiter = true
  comment : lang.commentOpener? s.rest = none
  lineComment : lang.lineComment? s.rest = none
  string : lang.stringOpener? s.rest = none

theorem Visited.exists_rest_lf (h : Visited lang (text ++ ['\n']) s) (hr : s.rest ≠ []) :
    ∃ t, s.rest = t ++ ['\n'] := by
  rcases List.eq_nil_or_concat s.rest with hnil | ⟨t, c, hrest⟩
  · exact absurd hnil hr
  · have htext := h.sound.text
    rw [hrest, List.concat_eq_append, ← List.append_assoc] at htext
    obtain ⟨-, hc⟩ := List.append_inj' htext rfl
    exact ⟨t, by rw [hrest, List.concat_eq_append, hc]⟩

theorem Visited.sameAnswers (nf : lang.NewlineFree) (h : Visited lang (text ++ ['\n']) s)
    (hr : s.rest ≠ []) (hedge : lang.seesDelimiter tail = true → ∀ d, ¬ AtEdge lang text d s) :
    SameAnswers lang [] tail s := by
  obtain ⟨t, hrest⟩ := h.exists_rest_lf hr
  refine ⟨?_, ?_, fun hm => ?_, by rw [List.append_nil], ?_⟩
  · rw [hrest]
    exact lineEnd?_append_lf t tail
  · rw [hrest]
    exact answer_append_lf (fun t _ htail => Language.commentCloser?_append nf t htail) t tail
  · rw [List.append_nil, hrest]
    refine Language.opening?_append_lf nf s.before fun hcomment hline hstring => ?_
    refine Language.charOpener?_append_lf nf fun hsees d hd hascii ht => hedge hsees d ?_
    rw [← hrest] at hcomment hline hstring
    rw [ht] at hrest
    exact ⟨h, hm, hrest, hd, hascii, hcomment, hline, hstring⟩
  · rw [hrest]
    exact answer_append_lf (fun t _ htail => Language.word?_append t htail) t tail

/-- A pass takes the same steps with more behind, as long as no step looks for a delimiter there
and finds it. -/
theorem Visited.embed (nf : lang.NewlineFree) (h : Visited lang (text ++ ['\n']) s)
    (hedge : lang.seesDelimiter tail = true → ∀ d t, AtEdge lang text d t → t.work ≤ s.work) :
    Visited lang (text ++ ['\n'] ++ tail) (s.embed [] tail [] 0) := by
  induction h with
  | start =>
    have hstart : (Cursor.start true (text ++ ['\n'])).embed [] tail [] 0 =
        Cursor.start true (text ++ ['\n'] ++ tail) := by simp [Cursor.embed, Cursor.start]
    rw [hstart]
    exact .start
  | @step s hs ih =>
    by_cases hr : s.rest = []
    · rw [step_of_rest_eq_nil hr] at hedge ⊢
      exact ih hedge
    · -- Less is left to do at every step, so the state is in front of those at the edge.
      have hwork := work_step_lt lang s hr
      have hbefore := ih fun hsees d t ht => (hedge hsees d t ht).trans hwork.le
      have hsame : SameAnswers lang [] tail s := hs.sameAnswers nf hr fun hsees d hs => by
        have hle := hedge hsees d s hs
        omega
      rw [← hsame.step_embed hr hs.mode_ne_raw]
      exact hbefore.step

end Cursor

/-! ### Up to the line feed -/

section
variable {lang : Language} (nf : lang.NewlineFree)
include nf

theorem closed_scan_lf (text : Text) : (scan lang true (text ++ ['\n'])).Closed := by
  intro b hb
  obtain ⟨front, hfront⟩ := List.getLast?_eq_some_iff.1 hb
  obtain ⟨u, hu, -, hscan⟩ := exists_visited_end lang (text ++ ['\n'])
  have hmem : b ∈ scan lang true (text ++ ['\n']) := by
    rw [hfront]
    simp
  have hne : b.content ≠ [] := by
    rw [hscan] at hmem
    exact hu.sound.flush.nonempty b hmem
  -- The last character of the last block is the line feed.
  rcases List.eq_nil_or_concat b.content with hnil | ⟨start, c, hcontent⟩
  · exact absurd hnil hne
  have hconcat := concat_scan lang true (text ++ ['\n'])
  rw [hfront, Blocks.concat_append, Blocks.concat_cons, Blocks.concat_nil, List.append_nil, hcontent,
    List.concat_eq_append, ← List.append_assoc] at hconcat
  obtain ⟨-, hc⟩ := List.append_inj' hconcat rfl
  by_contra hkind
  have hbreak := hasBreak_of_mem_scan (.inl nf) hmem (by simpa using hkind)
  rw [hcontent, List.concat_eq_append, hc, Text.hasBreak_append, Bool.or_eq_false_iff] at hbreak
  cases hbreak.2

variable {text tail : Text}

/-- If no step looks for a delimiter behind the line feed and finds one, the blocks up to there are
those of the text that ends there. -/
theorem scan_lf_prefix (h : lang.seesDelimiter tail = true → ∀ d s, ¬ Cursor.AtEdge lang text d s) :
    scan lang true (text ++ ['\n']) <+: scan lang true (text ++ ['\n'] ++ tail) := by
  obtain ⟨u, hu, -, hscan⟩ := exists_visited_end lang (text ++ ['\n'])
  obtain ⟨v, hv, hend, hscan'⟩ := exists_visited_end lang (text ++ ['\n'] ++ tail)
  have hlast := hu.embed nf fun hsees d t ht => absurd ht (h hsees d t)
  have hclosed := closed_scan_lf nf text
  rw [hscan] at hclosed ⊢
  have hpending : u.pending = [] := by
    by_contra hp
    rw [Cursor.blocks_flush_of_pending hp] at hclosed
    have hkind := hclosed _ List.getLast?_concat
    exact Mode.kind_ne_lineBreak u.mode (by simpa [Block.isLineBreak] using hkind)
  have hblocks := hlast.blocks_prefix hv hend
  rw [Cursor.blocks_embed, List.reverse_nil, List.nil_append] at hblocks
  rw [hscan', Cursor.blocks_flush_of_pending_nil hpending]
  exact hblocks

end

namespace Cursor

theorem Visited.literal_backslash {lang : Language} {text : Text} {s : Cursor}
    (h : Visited lang text s) {quote : Quote} (hm : s.mode = .quoted quote false) {rest : Text}
    (hr : s.rest = '\\' :: rest) : ∃ v, Visited lang text v ∧ v.rest = rest ∧
      v.flush.blocks = s.blocks ++ [⟨s.mode.kind, s.pending.reverse ++ ['\\']⟩] := by
  have hrest : (s.read 1).rest = rest := by rw [rest_read, hr, List.drop_one, List.tail_cons]
  have hpending : (s.read 1).pending = '\\' :: s.pending := by rw [pending_read, hr]; rfl
  have hne : (s.read 1).pending ≠ [] := by
    rw [hpending]
    exact List.cons_ne_nil _ _
  have hblocks : (s.read 1).flush.blocks =
      s.blocks ++ [⟨s.mode.kind, s.pending.reverse ++ ['\\']⟩] := by
    rw [blocks_flush_of_pending hne, hpending]
    simp
  cases hclose : lang.closes quote '\\' with
  | true =>
    have hstep : s.step lang = (s.read 1).flush.enter .idle := by
      rw [step_quoted lang hr hm, stepQuoted, hclose]
      rfl
    refine ⟨s.step lang, h.step, ?_, ?_⟩
    · rw [hstep, rest_enter, rest_flush, hrest]
    · rw [hstep, blocks_flush_of_pending_nil (by simp), blocks_enter, hblocks]
  | false =>
    have hstep : s.step lang = (s.read 1).enter (.quoted quote true) := by
      rw [step_quoted lang hr hm, stepQuoted, hclose]
      rfl
    refine ⟨s.step lang, h.step, ?_, ?_⟩
    · rw [hstep, rest_enter, hrest]
    · have hne' : ((s.read 1).enter (.quoted quote true)).pending ≠ [] := hne
      rw [hstep, blocks_flush_of_pending hne', pending_enter, hpending]
      simp [hm, Mode.kind_quoted]

/-- The blocks up to the line feed if the mark at the edge opens a literal. -/
def openedBlocks (delimiter : Char) (s : Cursor) : Blocks :=
  s.flush.blocks ++ [⟨.char, [delimiter, '\\']⟩, ⟨.lineBreak, ['\n']⟩]

theorem closed_openedBlocks (delimiter : Char) (s : Cursor) :
    (s.openedBlocks delimiter).Closed := by
  rw [openedBlocks, List.append_cons]
  exact Blocks.closed_append_lineBreak _ _

namespace AtEdge
variable {lang : Language} {text tail : Text} {delimiter : Char} {s : Cursor}
  (h : AtEdge lang text delimiter s)
include h

theorem work_eq : s.work = 10 := by
  rw [work, h.idle, h.rest]
  rfl

theorem concat_openedBlocks : (s.openedBlocks delimiter).concat = text ++ ['\n'] := by
  obtain ⟨-, htext⟩ := h.visited.before_eq rfl
  rw [htext, h.rest, openedBlocks]
  simp

theorem opening?_eq (nf : lang.NewlineFree) (hsees : lang.seesDelimiter tail = true) :
    lang.opening? s.before (s.rest ++ tail) = some (.quoted .char false, [delimiter]) := by
  obtain ⟨t, hrest⟩ := h.visited.exists_rest_lf (by simp [h.rest])
  have hcomment : lang.commentOpener? (s.rest ++ tail) = none := by
    rw [← h.comment, hrest]
    exact Language.commentOpener?_append_lf nf t tail
  have hline : lang.lineComment? (s.rest ++ tail) = none := by
    rw [← h.lineComment, hrest]
    exact Language.lineComment?_append_lf nf t tail
  have hstring : lang.stringOpener? (s.rest ++ tail) = none := by
    rw [← h.string, hrest]
    exact Language.stringOpener?_append_lf nf t tail
  have hchar : lang.charOpener? (s.rest ++ tail) = some [delimiter] := by
    rw [Language.seesDelimiter, h.mark] at hsees
    have hcloses : Language.charCloses delimiter ('\\' :: '\n' :: tail) = true := hsees
    simp [h.rest, Language.charOpener?, startsWith, h.mark, h.ascii, hcloses]
  rw [Language.opening?, hcomment, hline, hstring, hchar]
  rfl

theorem exists_opened (nf : lang.NewlineFree) (hsees : lang.seesDelimiter tail = true) :
    ∃ t, Visited lang (text ++ ['\n'] ++ tail) t ∧ t.mode = .quoted .char false ∧
      t.rest = '\\' :: '\n' :: tail ∧ t.pending = [delimiter] ∧ t.blocks = s.flush.blocks := by
  have hs : Visited lang (text ++ ['\n'] ++ tail) (s.embed [] tail [] 0) :=
    h.visited.embed nf fun _ d t ht => (ht.work_eq.trans h.work_eq.symm).le
  have hrest : (s.embed [] tail [] 0).rest = delimiter :: '\\' :: '\n' :: tail :=
    congrArg (fun t => t ++ tail) h.rest
  have hline : lineEnd? (s.embed [] tail [] 0).rest = none := by
    rw [hrest, lineEnd?_eq_none_iff]
    exact nf.char (by simp [h.mark])
  have hopen : lang.opening? (s.embed [] tail [] 0).before (s.embed [] tail [] 0).rest =
      some (.quoted .char false, [delimiter]) := by
    have hbefore : (s.embed [] tail [] 0).before = s.before := List.append_nil s.before
    rw [hbefore]
    exact h.opening?_eq nf hsees
  have hstep : (s.embed [] tail [] 0).step lang =
      ((s.embed [] tail [] 0).flush.read 1).enter (.quoted .char false) := by
    rw [step_idle lang hrest h.idle, stepIdle, hline, hopen]
    rfl
  refine ⟨_, hs.step, ?_, ?_, ?_, ?_⟩
  · rw [hstep, mode_enter]
  · rw [hstep, rest_enter, rest_read, rest_flush, hrest]
    rfl
  · rw [hstep, pending_enter, pending_read, pending_flush, rest_flush, hrest]
    rfl
  · rw [hstep, blocks_enter, blocks_read, flush_embed, blocks_embed]
    rfl

/-- The literal that opens if the delimiter is seen ends in front of the line feed. -/
theorem openedBlocks_prefix (nf : lang.NewlineFree) (hsees : lang.seesDelimiter tail = true) :
    s.openedBlocks delimiter <+: scan lang true (text ++ ['\n'] ++ tail) := by
  obtain ⟨u, hu, hend, hscan⟩ := exists_visited_end lang (text ++ ['\n'] ++ tail)
  obtain ⟨t, ht, hm, hrest, hpending, hblocks⟩ := h.exists_opened nf hsees
  obtain ⟨v, hv, hvrest, hvblocks⟩ := ht.literal_backslash hm hrest
  have hbreak : lineEnd? v.rest = some ['\n'] := by
    rw [hvrest]
    rfl
  have hlast := hv.breakLine_prefix nf hbreak hu hend
  rw [hvblocks, hblocks, hpending, hm, List.append_assoc] at hlast
  rw [hscan]
  exact hlast

/-- If there is nothing behind the line feed, the literal does not open. -/
theorem openedBlocks_ne (hlook : lang.charLookahead = true) :
    s.openedBlocks delimiter ≠ scan lang true (text ++ ['\n']) := by
  intro hopened
  obtain ⟨u, hu, -, hscan⟩ := exists_visited_end lang (text ++ ['\n'])
  have horigin := hu.tracked.origins_flush _ _ _ (hscan.symm.trans hopened.symm)
  obtain ⟨after, t, ht, -, hcloses⟩ := horigin.exists_char rfl hlook h.mark
  obtain ⟨-, htext⟩ := h.visited.before_eq rfl
  rw [ht.text_eq, h.rest] at htext
  obtain rfl : after = ['\\', '\n'] := List.cons.inj (List.append_cancel_left htext) |>.2
  cases hcloses

/-- The blocks up to the line feed, whatever is behind it. -/
theorem blocks_above (nf : lang.NewlineFree) (tail : Text) :
    let past := if lang.seesDelimiter tail = true then s.openedBlocks delimiter
      else scan lang true (text ++ ['\n'])
    past.Closed ∧ past.concat = text ++ ['\n'] ∧ past <+: scan lang true (text ++ ['\n'] ++ tail) := by
  intro past
  by_cases hsees : lang.seesDelimiter tail = true
  · have hpast : past = s.openedBlocks delimiter := if_pos hsees
    rw [hpast]
    exact ⟨s.closed_openedBlocks delimiter, h.concat_openedBlocks, h.openedBlocks_prefix nf hsees⟩
  · have hpast : past = scan lang true (text ++ ['\n']) := if_neg hsees
    rw [hpast]
    exact ⟨closed_scan_lf nf text, concat_scan .., scan_lf_prefix nf fun hs => absurd hs hsees⟩

end AtEdge

end Cursor

/-- The last line of the text ends with a mark of character literals and a backslash where
a literal could open: the mark looks for a delimiter behind the line feed. -/
def Language.LooksPast (lang : Language) (text : Text) : Prop :=
  ∃ delimiter s, Cursor.AtEdge lang text delimiter s

/-- In a language that looks ahead, the blocks up to a line feed are the same whatever follows,
unless the line in front of it looks past it and what follows shows a delimiter in one text and not
in the other. -/
theorem lines_above_iff {lang : Language} (nf : lang.NewlineFree)
    (hlook : lang.charLookahead = true) {above below below' : Text} {limits limits' : List Nat}
    (hf : ((Scanner.start lang true (above ++ '\n' :: below)).advanceAll limits).finished = true)
    (hf' : ((Scanner.start lang true (above ++ '\n' :: below')).advanceAll limits').finished = true) :
    let pass := (Scanner.start lang true (above ++ '\n' :: below)).advanceAll limits
    let pass' := (Scanner.start lang true (above ++ '\n' :: below')).advanceAll limits'
    ∃ past past' : Blocks,
      (past.Closed ∧ past.concat = above ++ ['\n'] ∧ past <+: pass.blocks) ∧
      (past'.Closed ∧ past'.concat = above ++ ['\n'] ∧ past' <+: pass'.blocks) ∧
      (past = past' ↔
        (lang.LooksPast above → lang.seesDelimiter below = lang.seesDelimiter below')) := by
  intro pass pass'
  have hblocks : pass.blocks = scan lang true (above ++ ['\n'] ++ below) := by
    rw [← List.append_cons]
    exact Scanner.blocks_advanceAll_of_finished hf
  have hblocks' : pass'.blocks = scan lang true (above ++ ['\n'] ++ below') := by
    rw [← List.append_cons]
    exact Scanner.blocks_advanceAll_of_finished hf'
  rw [hblocks, hblocks']
  by_cases hpast : lang.LooksPast above
  · obtain ⟨d, s, hs⟩ := hpast
    refine ⟨_, _, hs.blocks_above nf below, hs.blocks_above nf below', ?_⟩
    have hlooks : lang.LooksPast above := ⟨d, s, hs⟩
    have hne := hs.openedBlocks_ne hlook
    cases lang.seesDelimiter below <;> cases lang.seesDelimiter below' <;>
      simp [hlooks, hne, hne.symm]
  · have hedge : ∀ d s, ¬ Cursor.AtEdge lang above d s := fun d s hs => hpast ⟨d, s, hs⟩
    have hclosed := closed_scan_lf nf above
    have hconcat := concat_scan lang true (above ++ ['\n'])
    refine ⟨_, _, ⟨hclosed, hconcat, scan_lf_prefix nf fun _ => hedge⟩,
      ⟨hclosed, hconcat, scan_lf_prefix nf fun _ => hedge⟩, ?_⟩
    simp [hpast]

/-- Two next lines that both show a delimiter leave the blocks above them the same. -/
theorem lines_above_iff_rust :
    let above : Text := "&'a\n'\\".toList
    let pass := (Scanner.start Language.rust true (above ++ '\n' :: "x'".toList)).advanceAll [1, 9]
    let pass' := (Scanner.start Language.rust true (above ++ '\n' :: "'".toList)).advanceAll [9]
    Language.rust.NewlineFree ∧ pass.finished = true ∧ pass'.finished = true ∧
      ∃ past : Blocks, past.Closed ∧ past.concat = above ++ ['\n'] ∧ past <+: pass.blocks ∧
        past <+: pass'.blocks := by
  intro above pass pass'
  have nf : Language.rust.NewlineFree := by decide
  have hf : pass.finished = true := by decide +kernel
  have hf' : pass'.finished = true := by decide +kernel
  obtain ⟨past, past', ⟨hclosed, hconcat, hpast⟩, ⟨-, -, hpast'⟩, hiff⟩ :=
    @lines_above_iff Language.rust nf rfl above "x'".toList "'".toList [1, 9] [9] hf hf'
  obtain rfl : past = past' := hiff.2 fun _ => by decide
  exact ⟨nf, hf, hf', past, hclosed, hconcat, hpast, hpast'⟩

/-- The blocks of a line may depend on the next line. -/
theorem lines_above_recolored :
    ¬ ∀ (lang : Language) (above below below' : Text) (limits limits' : List Nat),
      lang.NewlineFree → lang.charLookahead = true →
      ((Scanner.start lang true (above ++ '\n' :: below)).advanceAll limits).finished = true →
      ((Scanner.start lang true (above ++ '\n' :: below')).advanceAll limits').finished = true →
      ∃ past : Blocks, past.Closed ∧ past.concat = above ++ ['\n'] ∧
        past <+: ((Scanner.start lang true (above ++ '\n' :: below)).advanceAll limits).blocks ∧
        past <+: ((Scanner.start lang true (above ++ '\n' :: below')).advanceAll limits').blocks := by
  intro h
  have hf : ((Scanner.start Language.rust true "'\\\nx'".toList).advanceAll [9]).finished = true := by
    decide +kernel
  have hf' : ((Scanner.start Language.rust true "'\\\n".toList).advanceAll [9]).finished = true := by
    decide +kernel
  obtain ⟨past, -, hconcat, hpast, hpast'⟩ :=
    h Language.rust "'\\".toList "x'".toList [] [9] [9] (by decide) rfl hf hf'
  have hblocks : ((Scanner.start Language.rust true "'\\\nx'".toList).advanceAll [9]).blocks =
      [⟨.char, "'\\".toList⟩, ⟨.lineBreak, ['\n']⟩, ⟨.default, "x'".toList⟩] := by decide +kernel
  have hblocks' : ((Scanner.start Language.rust true "'\\\n".toList).advanceAll [9]).blocks =
      [⟨.default, "'\\".toList⟩, ⟨.lineBreak, ['\n']⟩] := by decide +kernel
  cases past with
  | nil => cases hconcat
  | cons b past =>
    have hchar : b = _ := (List.cons_prefix_cons.1 (hblocks ▸ hpast)).1
    have hdefault : b = _ := (List.cons_prefix_cons.1 (hblocks' ▸ hpast')).1
    rw [hchar] at hdefault
    cases hdefault

end Highlighter
