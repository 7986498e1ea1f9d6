import Highlighter.Proofs.Scanner.OneLine
import Highlighter.Proofs.Text.FinalBreak

/-!
# Block comments

A block comment is read line by line: each line end leaves the scanner inside of it, and the
first closer behind the opener leads out. Its blocks are those of the lines of its text,
`Blocks.byLines`.
-/

namespace Highlighter

/-- The token is found at the character, as the questions of a language find theirs. -/
def Text.Occurs (token t : Text) (k : Nat) : Prop := Language.token? token (t.drop k) = some token

instance (token t : Text) (k : Nat) : Decidable (Text.Occurs token t k) :=
  inferInstanceAs (Decidable (_ = _))

theorem Text.occurs_iff {token t : Text} {k : Nat} :
    Occurs token t k ↔ token ≠ [] ∧ token <+: t.drop k := by
  constructor
  · intro h
    exact (Language.token?_cases h).2
  · rintro ⟨hne, hpre⟩
    simp [Occurs, Language.token?, hne, hpre]

namespace Language
variable {lang : Language} {opener closer t : Text}

theorem commentCloser?_of_occurs (hb : lang.blockComment = some (opener, closer)) {k : Nat}
    (h : Text.Occurs closer t k) : lang.commentCloser? (t.drop k) = some closer := by
  rw [commentCloser?, hb]
  exact h

theorem commentCloser?_of_not_occurs (hb : lang.blockComment = some (opener, closer)) {k : Nat}
    (h : ¬ Text.Occurs closer t k) : lang.commentCloser? (t.drop k) = none := by
  rw [Option.eq_none_iff_forall_ne_some]
  intro lexeme hclose
  rw [commentCloser?, hb, Option.bind_some] at hclose
  obtain ⟨rfl, -⟩ := token?_cases hclose
  exact h hclose

end Language

/-- What a block comment takes of the text behind its opener. -/
def Language.CommentBody (closer after body : Text) : Prop :=
  (∀ k, IsLeast {k | Text.Occurs closer after k} k → body = after.take k ++ closer) ∧
    ((∀ k, ¬ Text.Occurs closer after k) → body = after)

namespace Blocks

/-- A block, unless the text is empty. -/
def piece (kind : Kind) (t : Text) : Blocks := if t = [] then [] else [⟨kind, t⟩]

/-- A block for each line of the text that is not empty, and one for each line end. -/
def byLines (kind : Kind) (t : Text) : Blocks :=
  t.segments.flatMap fun s => piece kind s.content ++ piece .lineBreak s.ending

variable (kind : Kind)

theorem byLines_of_hasBreak_eq_false {t : Text} (ht : t.hasBreak = false) :
    byLines kind t = piece kind t := by
  simp [byLines, Text.segments_of_hasBreak_eq_false ht, piece]

theorem byLines_line {content ending rest : Text} (hcon : content.hasBreak = false)
    (hend : lineEnd? (ending ++ rest) = some ending) :
    byLines kind (content ++ (ending ++ rest)) =
      piece kind content ++ ⟨.lineBreak, ending⟩ :: byLines kind rest := by
  have hne := (lineEnd?_eq_some hend).1
  simp [byLines, Text.segments_line hcon hend, piece, hne]

end Blocks

namespace Cursor
variable {lang : Language} {text : Text} {s u : Cursor}

theorem blocks_flush_eq_piece (s : Cursor) :
    s.flush.blocks = s.blocks ++ Blocks.piece s.mode.kind s.pending.reverse := by
  rw [flush, blocks_flushAs, Blocks.piece]
  simp

theorem step_of_commentCloser? (hm : s.mode = .blockComment) {closer : Text}
    (hclose : lang.commentCloser? s.rest = some closer) :
    s.step lang = (s.read closer.length).flush.enter .idle := by
  have hstands := Language.stands_commentCloser? hclose
  obtain ⟨c, rest, hrest⟩ := List.exists_cons_of_ne_nil (hstands.pre.ne_nil hstands.ne_nil)
  rw [step_blockComment lang hrest hm, stepBlockComment, hclose]

theorem step_of_comment_lineEnd (nf : lang.NewlineFree) (hm : s.mode = .blockComment)
    {ending : Text} (hline : lineEnd? s.rest = some ending) :
    s.step lang = s.breakLine ending := by
  obtain ⟨c, rest, hrest, -⟩ := isBreak_head_of_lineEnd? hline
  rw [step_blockComment lang hrest hm, stepBlockComment,
    Language.commentCloser?_of_lineEnd? nf _ hline, hline]

theorem Visited.comment_line (h : Visited lang text s) (hm : s.mode = .blockComment) {t after : Text}
    (hrest : s.rest = t ++ after) (ht : t.hasBreak = false)
    (hopen : ∀ j < t.length, lang.commentCloser? (s.rest.drop j) = none) :
    Visited lang text (s.read t.length) := by
  have hbreak : Text.hasBreak (s.rest.take t.length) = false := by
    rw [hrest, List.take_left, ht]
  have hle : t.length ≤ s.rest.length := by
    rw [hrest, List.length_append]
    omega
  refine h.read_ahead fun j hj => ?_
  obtain ⟨c, rest, hdrop, hc⟩ := Text.exists_drop_of_take hbreak hj (by omega)
  rw [step_blockComment lang (s := s.read j) hdrop hm, stepBlockComment, rest_read, hopen j hj,
    hdrop, (lineEnd?_eq_none_iff c rest).2 hc]

theorem Visited.comment_lineEnd (nf : lang.NewlineFree) (h : Visited lang text s)
    (hm : s.mode = .blockComment) {t ending more : Text} (hrest : s.rest = t ++ (ending ++ more))
    (ht : t.hasBreak = false) (hline : lineEnd? (ending ++ more) = some ending)
    (hopen : ∀ j < t.length, lang.commentCloser? (s.rest.drop j) = none) :
    ∃ v, Visited lang text v ∧ v.mode = .blockComment ∧ v.pending = [] ∧ v.rest = more ∧
      v.blocks = s.blocks ++
        (Blocks.piece .commentBlock (s.pending.reverse ++ t) ++ [⟨.lineBreak, ending⟩]) := by
  have hread := h.comment_line hm hrest ht hopen
  have hr : (s.read t.length).rest = ending ++ more := by
    rw [rest_read, hrest, List.drop_left]
  rw [← hr] at hline
  have hv := hread.step
  rw [step_of_comment_lineEnd (s := s.read t.length) nf hm hline] at hv
  refine ⟨_, hv, ?_, pending_breakLine .., ?_, ?_⟩
  · rw [mode_breakLine, mode_read, hm]
  · rw [rest_breakLine, hr, List.drop_left]
  · rw [blocks_breakLine, blocks_flush_eq_piece, hr, List.take_left]
    simp [hrest, hm, Mode.kind]

/-- A stretch of the comment without a closer, line by line. What stands behind it does not
close a CRLF, and `tail` is what of it belongs to the same line. -/
theorem Visited.comment_ahead (nf : lang.NewlineFree) {tail more : Text}
    (htail : tail.hasBreak = false) (hmore : (tail ++ more).head? ≠ some '\n') (t : Text)
    (h : Visited lang text s) (hm : s.mode = .blockComment) (hp : s.pending.hasBreak = false)
    (hrest : s.rest = t ++ (tail ++ more))
    (hopen : ∀ j < t.length, lang.commentCloser? (s.rest.drop j) = none) :
    ∃ u, Visited lang text u ∧ u.mode = .blockComment ∧ u.rest = tail ++ more ∧
      s.blocks ++ Blocks.byLines .commentBlock (s.pending.reverse ++ (t ++ tail)) =
        u.blocks ++ Blocks.piece .commentBlock (u.pending.reverse ++ tail) := by
  induction t using Text.segments_induction generalizing s with
  | last t ht =>
    refine ⟨s.read t.length, h.comment_line hm hrest ht hopen, hm, ?_, ?_⟩
    · rw [rest_read, hrest, List.drop_left]
    · rw [Blocks.byLines_of_hasBreak_eq_false _ (by simp [hp, ht, htail])]
      simp [hrest]
  | line content ending rest hcon hend ih =>
    -- What stands behind the stretch leaves its line ends as they are.
    have hline : lineEnd? (ending ++ (rest ++ (tail ++ more))) = some ending := by
      rw [lineEnd?_append_iff] at hend ⊢
      refine ⟨hend.1, fun hcr => ?_⟩
      cases rest with
      | nil => exact hmore
      | cons c rest => exact hend.2 hcr
    have hline' : lineEnd? (ending ++ (rest ++ tail)) = some ending :=
      lineEnd?_of_prefix hline ⟨more, by simp⟩
    rw [List.append_assoc, List.append_assoc] at hrest
    obtain ⟨v, hv, hvm, hvp, hvr, hvblocks⟩ := h.comment_lineEnd nf hm hrest hcon hline
      fun j hj => hopen j (by simp; omega)
    have hopen' : ∀ j < rest.length, lang.commentCloser? (v.rest.drop j) = none := by
      intro j hj
      have hshift := hopen (content.length + ending.length + j) (by simp; omega)
      rwa [hrest, ← List.append_assoc, ← List.drop_drop, ← List.length_append, List.drop_left,
        ← hvr] at hshift
    obtain ⟨u, hu, hum, hur, hblocks⟩ := ih hv hvm (by simp [hvp]) hvr hopen'
    have hfirst : Text.hasBreak (s.pending.reverse ++ content) = false := by
      simp [hp, hcon]
    have hlines := Blocks.byLines_line .commentBlock hfirst hline'
    rw [hvblocks, hvp] at hblocks
    refine ⟨u, hu, hum, hur, ?_⟩
    simp only [List.append_assoc] at hlines hblocks ⊢
    rw [hlines, ← hblocks]
    rfl

theorem Visited.closed_comment (nf : lang.NewlineFree) (h : Visited lang text s)
    (hm : s.mode = .blockComment) (hp : s.pending.hasBreak = false) {opener closer : Text}
    (hb : lang.blockComment = some (opener, closer)) {k : Nat}
    (hk : IsLeast {k | Text.Occurs closer s.rest k} k) :
    ∃ v, Visited lang text v ∧ v.mode = .idle ∧ v.pending = [] ∧
      v.blocks = s.blocks ++
        Blocks.byLines .commentBlock (s.pending.reverse ++ (s.rest.take k ++ closer)) := by
  obtain ⟨hne, more, hmore⟩ := Text.occurs_iff.1 hk.1
  obtain ⟨-, hclosed⟩ := nf.blockComment hb
  have hrest : s.rest = s.rest.take k ++ (closer ++ more) := by
    rw [hmore, List.take_append_drop]
  have hhead : (closer ++ more).head? ≠ some '\n' := by
    obtain ⟨c, token, rfl⟩ := List.exists_cons_of_ne_nil hne
    rintro hc
    cases hc
    cases hclosed
  have hopen : ∀ j < (s.rest.take k).length, lang.commentCloser? (s.rest.drop j) = none := by
    intro j hj
    rw [List.length_take] at hj
    exact Language.commentCloser?_of_not_occurs hb fun hat => absurd (hk.2 hat) (by omega)
  obtain ⟨u, hu, hum, hur, hblocks⟩ := h.comment_ahead nf hclosed hhead _ hm hp hrest hopen
  have hat : lang.commentCloser? u.rest = some closer := by
    rw [hur, hmore]
    exact Language.commentCloser?_of_occurs hb hk.1
  have hv := hu.step
  rw [step_of_commentCloser? hum hat] at hv
  refine ⟨_, hv, mode_enter .., by simp, ?_⟩
  rw [hblocks, blocks_enter, blocks_flush_eq_piece]
  simp [hur, hum, Mode.kind]

theorem Visited.unclosed_comment (nf : lang.NewlineFree) (h : Visited lang text s)
    (hm : s.mode = .blockComment) (hp : s.pending.hasBreak = false) {opener closer : Text}
    (hb : lang.blockComment = some (opener, closer))
    (hopen : ∀ k, ¬ Text.Occurs closer s.rest k) (hu : Visited lang text u) (hr : u.rest = []) :
    s.blocks ++ Blocks.byLines .commentBlock (s.pending.reverse ++ s.rest) = u.flush.blocks := by
  have hrest : s.rest = s.rest ++ ([] ++ []) := by simp
  have hend : ([] ++ [] : Text).head? ≠ some '\n' := by simp
  obtain ⟨v, hv, hvm, hvr, hblocks⟩ := h.comment_ahead nf Text.hasBreak_nil hend s.rest hm hp hrest
    fun j _ => Language.commentCloser?_of_not_occurs hb (hopen j)
  rw [← hv.eq_of_rest_eq_nil hvr hu hr, blocks_flush_eq_piece, hvm]
  simpa [Mode.kind] using hblocks

theorem Visited.comment_blocks (nf : lang.NewlineFree) (h : Visited lang text s)
    (hm : s.mode = .blockComment) (hp : s.pending.hasBreak = false) {opener closer : Text}
    (hb : lang.blockComment = some (opener, closer)) (hu : Visited lang text u) (hr : u.rest = []) :
    ∃ body, Language.CommentBody closer s.rest body ∧
      let lines := Blocks.byLines .commentBlock (s.pending.reverse ++ body)
      s.blocks ++ lines <+: u.flush.blocks ∧ ((∃ k, Text.Occurs closer s.rest k) →
        ∃ v, Visited lang text v ∧ v.mode = .idle ∧ v.pending = [] ∧
          v.blocks = s.blocks ++ lines) := by
  classical
  by_cases hclosed : ∃ k, Text.Occurs closer s.rest k
  · have hk := Nat.isLeast_find hclosed
    obtain ⟨v, hv, hvm, hvp, hblocks⟩ := h.closed_comment nf hm hp hb hk
    refine ⟨_, ⟨fun j hj => ?_, fun hopen => ?_⟩, ?_, fun _ => ⟨v, hv, hvm, hvp, hblocks⟩⟩
    · rw [hj.unique hk]
    · exact absurd hclosed.choose_spec (hopen _)
    · rw [← hblocks]
      exact hv.blocks_prefix hu hr
  · have hopen : ∀ k, ¬ Text.Occurs closer s.rest k := fun k hk => hclosed ⟨k, hk⟩
    refine ⟨s.rest, ⟨fun k hk => absurd hk.1 (hopen k), fun _ => rfl⟩, ?_, fun h => absurd h hclosed⟩
    rw [h.unclosed_comment nf hm hp hb hopen hu hr]

end Cursor

end Highlighter
