import Highlighter.Proofs.Scanner.LineReader

/-!
# Where blocks begin

The states of a pass are those that steps lead to from the start of the text. Every block of
it was begun by one of them: where a line ends, where the idle state finds an opener, a word
or a digit, where it finds nothing and the text is plain, or at the start of a line inside of
a block comment. `origin_of_finished` gives each block of a finished pass its `Origin`.
-/

namespace Highlighter

/-- Between constructs nothing ends or begins at the place. -/
structure Language.Plain (lang : Language) (before rest : Text) : Prop where
  lineEnd : lineEnd? rest = none
  opening : lang.opening? before rest = none
  word : atWordStart before = true → lang.word? rest = none
  digit : atWordStart before = true → rest.head?.any Char.isDigit = false

namespace Cursor

/-! ### Steps between constructs -/

inductive IdleStep (lang : Language) (s : Cursor) : Cursor → Prop where
  | lineEnd {ending : Text} (hline : lineEnd? s.rest = some ending) :
      IdleStep lang s (s.breakLine ending)
  | opening {mode : Mode} {lexeme : Text} (hline : lineEnd? s.rest = none)
      (hopen : lang.opening? s.before s.rest = some (mode, lexeme)) :
      IdleStep lang s ((s.flush.read lexeme.length).enter mode)
  | word {kind : Kind} {word : Text} (hline : lineEnd? s.rest = none)
      (hopen : lang.opening? s.before s.rest = none) (hstart : atWordStart s.before = true)
      (hword : lang.word? s.rest = some (kind, word)) :
      IdleStep lang s ((s.flush.read word.length).flushAs kind)
  | number (hline : lineEnd? s.rest = none) (hopen : lang.opening? s.before s.rest = none)
      (hstart : atWordStart s.before = true) (hword : lang.word? s.rest = none)
      (hdigit : s.rest.head?.any Char.isDigit = true) :
      IdleStep lang s (s.flush.enter (.number .start))
  | plain (hplain : lang.Plain s.before s.rest) : IdleStep lang s (s.read 1)

theorem idleStep (lang : Language) {s : Cursor} (hr : s.rest ≠ []) (hm : s.mode = .idle) :
    IdleStep lang s (s.step lang) := by
  obtain ⟨c, rest, hrest⟩ := List.exists_cons_of_ne_nil hr
  rw [step_idle lang hrest hm, stepIdle]
  split
  · exact .lineEnd ‹_›
  rename_i hline
  split
  · exact .opening hline ‹_›
  rename_i hopen
  split
  · rename_i hstart
    have hinner : atWordStart s.before = false := by simpa using hstart
    refine .plain ⟨hline, hopen, ?_, ?_⟩
    · simp [hinner]
    · simp [hinner]
  rename_i hstart
  have hstart : atWordStart s.before = true := by simpa using hstart
  split
  · exact .word hline hopen hstart ‹_›
  rename_i hword
  split
  · rename_i hdigit
    exact .number hline hopen hstart hword (by simpa [hrest] using hdigit)
  · rename_i hdigit
    exact .plain ⟨hline, hopen, fun _ => hword, fun _ => by simpa [hrest] using hdigit⟩

/-! ### States of a pass -/

inductive Visited (lang : Language) (text : Text) : Cursor → Prop where
  | start : Visited lang text (Cursor.start true text)
  | step {s : Cursor} : Visited lang text s → Visited lang text (s.step lang)

theorem step_of_rest_eq_nil {lang : Language} {s : Cursor} (hr : s.rest = []) : s.step lang = s := by
  simp [Cursor.step, hr]

namespace Visited
variable {lang : Language} {text : Text} {s : Cursor}

theorem sound (h : Visited lang text s) : s.Sound text := by
  induction h with
  | start => exact .start true text
  | step _ ih => exact ih.step lang

theorem mode_ne_raw (h : Visited lang text s) : s.mode ≠ .raw := by
  induction h with
  | start => simp [Cursor.start]
  | step _ ih => exact mode_ne_raw_step ih

theorem run (h : Visited lang text s) (limit : Nat) : Visited lang text (s.run lang limit) :=
  run_induction lang (fun _ hu => hu.step) limit h

theorem breaks_le_step (lang : Language) (s : Cursor) : s.breaks ≤ (s.step lang).breaks := by
  refine step_induction (P := fun u => s.breaks ≤ u.breaks) lang ?_ ?_ ?_ ?_ (Nat.le_refl _)
  · intro m u _ _ h
    simpa using h
  · intro n u _ h
    simpa using h
  · intro k u _ h
    simpa using h
  · intro e u _ h
    rw [breaks_breakLine]
    omega

/-- As long as a run has not come to its limit, it goes on from the state as from the start. -/
theorem run_eq (h : Visited lang text s) {limit : Nat} (hlimit : s.breaks < limit) :
    (Cursor.start true text).run lang limit = s.run lang limit := by
  induction h with
  | start => rfl
  | @step s _ ih =>
    have hle := breaks_le_step lang s
    have hbreaks : s.breaks < limit := by omega
    rw [ih hbreaks]
    by_cases hr : s.rest = []
    · rw [step_of_rest_eq_nil hr]
    · exact run_step hr hbreaks

/-- The text at the end of the blocks, the open one among them. -/
theorem before_eq (h : Visited lang text s) {past : Blocks} (hpast : s.flush.blocks = past) :
    s.before = past.concat.reverse ∧ text = past.concat ++ s.rest := by
  have hcov := h.sound.flush.covered
  rw [before_flush, pending_flush, List.reverse_nil, List.append_nil, hpast] at hcov
  constructor
  · rw [← hcov, List.reverse_reverse]
  · rw [← hcov, h.sound.text]

theorem rest_unique (h : Visited lang text s) {t : Cursor} (ht : Visited lang text t)
    (hst : s.flush.blocks = t.flush.blocks) : s.rest = t.rest := by
  obtain ⟨-, hs⟩ := h.before_eq hst
  obtain ⟨-, ht⟩ := ht.before_eq rfl
  exact List.append_cancel_left (hs.symm.trans ht)

end Visited

end Cursor

theorem exists_visited_end (lang : Language) (text : Text) :
    ∃ u, Cursor.Visited lang text u ∧ u.rest = [] ∧ scan lang true text = u.flush.blocks := by
  have hstart : Cursor.Visited lang text (Cursor.start true text) := .start
  exact ⟨_, hstart.run (text.length + 1), hstart.sound.rest_run lang (Nat.lt_succ_self _),
    scan_eq lang true text⟩

/-- The blocks of a finished pass are those of its last state. -/
theorem exists_visited_of_finished {lang : Language} {text : Text} {limits : List Nat}
    (hf : ((Scanner.start lang true text).advanceAll limits).finished = true) :
    ∃ s, Cursor.Visited lang text s ∧ s.rest = [] ∧
      ((Scanner.start lang true text).advanceAll limits).blocks = s.flush.blocks := by
  rw [Scanner.blocks_advanceAll_of_finished hf]
  exact exists_visited_end lang text

namespace Cursor

/-! ### Origins -/

/-- Between constructs nothing has been found at any character of the stretch. -/
def PlainRun (lang : Language) (text : Text) (past : Blocks) (content : Text) : Prop :=
  ∀ front back after : Text, content = front ++ back → back ≠ [] →
    text = past.concat ++ (content ++ after) →
      lang.Plain (front.reverse ++ past.concat.reverse) (back ++ after)

/-- The block goes on with a block comment of an earlier line. -/
def ContinuesComment (lang : Language) (text : Text) (past : Blocks) (b : Block) : Prop :=
  b.kind = .commentBlock ∧ (∃ ending, past.getLast? = some ⟨.lineBreak, ending⟩) ∧
    insideComment lang text past.breaks = true

/-- The state of the pass that a block behind others was begun by, and what it found there. -/
inductive Origin (lang : Language) (text : Text) (past : Blocks) (b : Block) : Prop where
  | lineBreak {s : Cursor} (hs : Visited lang text s) (hpast : s.flush.blocks = past)
      (hkind : b.kind = .lineBreak) (hline : lineEnd? s.rest = some b.content)
  | opening {s : Cursor} {mode : Mode} {lexeme : Text} (hs : Visited lang text s)
      (hpast : s.flush.blocks = past) (hidle : s.mode = .idle) (hkind : b.kind = mode.kind)
      (hline : lineEnd? s.rest = none) (hopen : lang.opening? s.before s.rest = some (mode, lexeme))
  | word {s : Cursor} (hs : Visited lang text s) (hpast : s.flush.blocks = past)
      (hidle : s.mode = .idle) (hline : lineEnd? s.rest = none)
      (hopen : lang.opening? s.before s.rest = none) (hstart : atWordStart s.before = true)
      (hword : lang.word? s.rest = some (b.kind, b.content))
  | number {s : Cursor} (hs : Visited lang text s) (hpast : s.flush.blocks = past)
      (hidle : s.mode = .idle) (hkind : b.kind = .number) (hline : lineEnd? s.rest = none)
      (hopen : lang.opening? s.before s.rest = none) (hstart : atWordStart s.before = true)
      (hword : lang.word? s.rest = none) (hdigit : s.rest.head?.any Char.isDigit = true)
  | plain (hkind : b.kind = .default) (hplain : PlainRun lang text past b.content)
      (hlast : ∀ d, past.getLast? = some d → d.kind ≠ .default)
  | comment (hcomment : ContinuesComment lang text past b)

theorem Origin.of_number {lang : Language} {text : Text} {past : Blocks} {b : Block}
    (h : Origin lang text past b) (hb : b.kind = .number) :
    ∃ s, Visited lang text s ∧ s.flush.blocks = past ∧ s.mode = .idle ∧ lineEnd? s.rest = none ∧
      lang.opening? s.before s.rest = none ∧ atWordStart s.before = true ∧
      lang.word? s.rest = none ∧ s.rest.head?.any Char.isDigit = true := by
  cases h with
  | @number s hs hpast hidle _ hline hopen hstart hword hdigit =>
    exact ⟨s, hs, hpast, hidle, hline, hopen, hstart, hword, hdigit⟩
  | @opening s mode lexeme _ _ _ hkind _ hopen =>
    rw [hb] at hkind
    rcases Language.mode_of_opening? hopen with rfl | rfl | ⟨quote, rfl⟩ | rfl
    · cases hkind
    · cases hkind
    · cases quote <;> cases hkind
    · cases hkind
  | word _ _ _ _ _ _ hword =>
    rw [hb] at hword
    rcases Language.kind_of_word? hword with h | h <;> cases h
  | lineBreak _ _ hkind _ | plain hkind _ _ | comment hkind =>
    simp [ContinuesComment, hb] at hkind

def Origins (lang : Language) (text : Text) (bs : Blocks) : Prop :=
  ∀ past b future, bs = past ++ b :: future → Origin lang text past b

section Tracked
variable {lang : Language} {text : Text}

theorem origins_nil : Origins lang text [] := by
  intro past b future h
  cases past <;> cases h

theorem Origins.concat {bs : Blocks} {b : Block} (h : Origins lang text bs)
    (hb : Origin lang text bs b) : Origins lang text (bs ++ [b]) := by
  intro past d future heq
  rcases List.eq_nil_or_concat future with rfl | ⟨future, e, rfl⟩
  · obtain ⟨rfl, hd⟩ := List.append_inj' heq rfl
    rwa [← List.singleton_inj.1 hd]
  · rw [List.concat_eq_append, ← List.cons_append, ← List.append_assoc] at heq
    obtain ⟨hbs, -⟩ := List.append_inj' heq rfl
    exact h past d future hbs

/-- Every block emitted has its origin, and so has the one that is open. -/
structure Tracked (lang : Language) (text : Text) (s : Cursor) : Prop where
  visited : Visited lang text s
  origins : Origins lang text s.blocks
  inside : s.mode ≠ .idle → ∀ content, Origin lang text s.blocks ⟨s.mode.kind, content⟩
  plain : s.mode = .idle → PlainRun lang text s.blocks s.pending.reverse
  apart : s.mode = .idle → ∀ d, s.blocks.getLast? = some d → d.kind ≠ .default

theorem plainRun_nil (past : Blocks) : PlainRun lang text past [] := by
  intro front back after hnil hback _
  exact absurd (List.nil_eq_append_iff.1 hnil).2 hback

/-- The stretch that is open grows by a character at which nothing has been found. -/
theorem PlainRun.concat {s : Cursor} (h : PlainRun lang text s.blocks s.pending.reverse)
    (hs : s.Sound text) {c : Char}
    (hplain : lang.Plain s.before s.rest) :
    PlainRun lang text s.blocks (s.pending.reverse ++ [c]) := by
  intro front back after hcut hback htext
  have hbefore : s.before = s.pending ++ s.blocks.concat.reverse := by
    have hcov := congrArg List.reverse hs.covered
    simpa using hcov
  have hafter : s.rest = [c] ++ after := by
    have hsplit := hs.text
    rw [hs.covered, htext, List.append_assoc, List.append_assoc] at hsplit
    exact List.append_cancel_left (List.append_cancel_left hsplit)
  rcases List.eq_nil_or_concat back with rfl | ⟨back, d, rfl⟩
  · exact absurd rfl hback
  · rw [List.concat_eq_append, ← List.append_assoc] at hcut
    obtain ⟨hfront, hd⟩ := List.append_inj' hcut rfl
    rw [List.concat_eq_append, ← hd, List.append_assoc]
    by_cases hne : back = []
    · have hpending : front.reverse = s.pending := by
        rw [hne, List.append_nil] at hfront
        rw [← hfront, List.reverse_reverse]
      rw [hne, List.nil_append, hpending, ← hbefore, ← hafter]
      exact hplain
    · refine h front back ([c] ++ after) hfront hne ?_
      rw [htext, List.append_assoc]

theorem kind_ne_default {m : Mode} (hm : m ≠ .idle) : m.kind ≠ .default := by
  rcases m with _ | _ | _ | _ | ⟨_ | _, _⟩ | _ | _ <;> simp_all [Mode.kind]

namespace Tracked
variable {s u : Cursor}

theorem of_idle (hv : Visited lang text u) (ho : Origins lang text u.blocks) (hm : u.mode = .idle)
    (hp : u.pending = []) (hlast : ∀ d, u.blocks.getLast? = some d → d.kind ≠ .default) :
    Tracked lang text u where
  visited := hv
  origins := ho
  inside hne := absurd hm hne
  plain _ := by
    rw [hp]
    exact plainRun_nil _
  apart _ := hlast

theorem of_inside (hv : Visited lang text u) (ho : Origins lang text u.blocks) (hm : u.mode ≠ .idle)
    (hin : ∀ content, Origin lang text u.blocks ⟨u.mode.kind, content⟩) : Tracked lang text u where
  visited := hv
  origins := ho
  inside _ := hin
  plain hidle := absurd hidle hm
  apart hidle := absurd hidle hm

theorem origins_flush (h : Tracked lang text s) : Origins lang text s.flush.blocks := by
  rw [flush, blocks_flushAs]
  split
  · rw [List.append_nil]
    exact h.origins
  · apply h.origins.concat
    by_cases hm : s.mode = .idle
    · have hkind : s.mode.kind = .default := congrArg Mode.kind hm
      exact .plain hkind (h.plain hm) (h.apart hm)
    · exact h.inside hm _

theorem origins_breakLine (h : Tracked lang text s) {ending : Text}
    (hline : lineEnd? s.rest = some ending) : Origins lang text (s.breakLine ending).blocks := by
  obtain ⟨-, rest, hrest⟩ := lineEnd?_eq_some hline
  have htake : s.rest.take ending.length = ending := by rw [hrest, List.take_left]
  rw [blocks_breakLine, htake]
  exact h.origins_flush.concat (.lineBreak h.visited rfl rfl hline)

/-- A line end leads back to the idle state. -/
theorem of_breakLine (h : Tracked lang text s) {ending : Text} (hv : Visited lang text u)
    (hline : lineEnd? s.rest = some ending) (hu : u = (s.breakLine ending).enter .idle) :
    Tracked lang text u := by
  subst hu
  refine of_idle hv (h.origins_breakLine hline) rfl (pending_breakLine ending s) fun d hd => ?_
  rw [blocks_enter, blocks_breakLine, List.getLast?_concat] at hd
  cases hd
  simp

/-- The end of a construct, with something read of it, leads back to the idle state. -/
theorem of_close (h : Tracked lang text s) (hv : Visited lang text u) (hm : s.mode ≠ .idle)
    {r : Cursor} (hblocks : r.blocks = s.blocks) (hmode : r.mode = s.mode) (hp : r.pending ≠ [])
    (hu : u = r.flush.enter .idle) : Tracked lang text u := by
  have hlast : u.blocks = s.blocks ++ [⟨s.mode.kind, r.pending.reverse⟩] := by
    rw [hu, blocks_enter, blocks_flush_of_pending hp, hblocks, hmode]
  refine of_idle hv ?_ ?_ ?_ fun d hd => ?_
  · rw [hlast]
    exact h.origins.concat (h.inside hm _)
  · rw [hu, mode_enter]
  · rw [hu, pending_enter, pending_flush]
  · rw [hlast, List.getLast?_concat] at hd
    cases hd
    exact kind_ne_default hm

/-- More of a construct leaves its origin. -/
theorem of_read (h : Tracked lang text s) (hv : Visited lang text u) (hm : s.mode ≠ .idle)
    {m : Mode} (hkind : m.kind = s.mode.kind) (hne : m ≠ .idle) {n : Nat}
    (hu : u = (s.read n).enter m) : Tracked lang text u := by
  subst hu
  refine of_inside hv h.origins hne fun content => ?_
  have hin := h.inside hm content
  rwa [← hkind] at hin

theorem step_idle (h : Tracked lang text s) (hr : s.rest ≠ []) (hm : s.mode = .idle) :
    Tracked lang text (s.step lang) := by
  have hv := h.visited.step
  have hstep := idleStep lang hr hm
  generalize s.step lang = u at hv hstep ⊢
  cases hstep with
  | lineEnd hline =>
    refine h.of_breakLine hv hline ?_
    exact breakLine_enter_self hm _
  | @opening mode lexeme hline hopen =>
    obtain ⟨-, hidle, -⟩ := Language.stands_opening? hopen
    exact of_inside hv h.origins_flush hidle fun _ =>
      .opening h.visited rfl hm rfl hline hopen
  | @word kind word hline hopen hstart hword =>
    obtain ⟨-, hstands, -⟩ := Language.word?_cases hword
    have hpending : (s.flush.read word.length).pending = word.reverse := by
      rw [pending_read, rest_flush, hstands.take_length, pending_flush, List.append_nil]
    have hne : word.reverse ≠ [] := by simpa using hstands.ne_nil
    have hblocks : ((s.flush.read word.length).flushAs kind).blocks =
        s.flush.blocks ++ [⟨kind, word⟩] := by
      rw [blocks_flushAs, hpending, if_neg hne, List.reverse_reverse, blocks_read]
    refine of_idle hv ?_ ?_ (pending_flushAs ..) fun d hd => ?_
    · rw [hblocks]
      exact h.origins_flush.concat (.word h.visited rfl hm hline hopen hstart hword)
    · simpa using hm
    · rw [hblocks, List.getLast?_concat] at hd
      cases hd
      rcases Language.kind_of_word? hword with rfl | rfl <;> simp
  | number hline hopen hstart hword hdigit =>
    exact of_inside hv h.origins_flush (by simp) fun _ =>
      .number h.visited rfl hm rfl hline hopen hstart hword hdigit
  | plain hplain =>
    obtain ⟨c, rest, hrest⟩ := List.exists_cons_of_ne_nil hr
    have hpending : (s.read 1).pending.reverse = s.pending.reverse ++ [c] := by
      simp [hrest]
    refine ⟨hv, h.origins, fun hne => absurd hm hne, fun _ => ?_, fun _ => h.apart hm⟩
    rw [hpending]
    exact (h.plain hm).concat h.visited.sound hplain

theorem step_blockComment (h : Tracked lang text s) (hr : s.rest ≠ []) (hm : s.mode = .blockComment) :
    Tracked lang text (s.step lang) := by
  obtain ⟨c, rest, hrest⟩ := List.exists_cons_of_ne_nil hr
  have hidle : s.mode ≠ .idle := by simp [hm]
  have hv := h.visited.step
  have hstep := Cursor.step_blockComment lang hrest hm
  rw [stepBlockComment] at hstep
  split at hstep
  · rename_i closer hclose
    have hstands := Language.stands_commentCloser? hclose
    refine h.of_close hv hidle (blocks_read ..) (mode_read ..) ?_ hstep
    simp [hstands.take_length, hstands.ne_nil]
  split at hstep
  · rename_i ending hline
    -- The comment goes on in the next line, where the pass stops for its line break.
    have hmode : (s.step lang).mode = .blockComment := by
      rw [hstep, mode_breakLine, hm]
    have hbreaks : (s.step lang).breaks = s.breaks + 1 := by
      rw [hstep, breaks_breakLine]
    have horigins : Origins lang text (s.step lang).blocks := by
      rw [hstep]
      exact h.origins_breakLine hline
    refine of_inside hv horigins (by simp [hmode]) fun content => ?_
    rw [hmode]
    refine .comment ⟨rfl, ⟨s.rest.take ending.length, ?_⟩, ?_⟩
    · rw [hstep, blocks_breakLine, List.getLast?_concat]
    · have hrun := h.visited.run_eq (Nat.lt_succ_self s.breaks)
      rw [insideComment, ← hv.sound.breaks, hbreaks, hrun, run_step hr (Nat.lt_succ_self _),
        run_of_done (.inr (Nat.le_of_eq hbreaks.symm)), hmode]
      rfl
  · exact h.of_read hv hidle rfl hidle hstep

theorem step_toLineEnd (h : Tracked lang text s) (hr : s.rest ≠ [])
    (hm : s.mode = .lineComment ∨ s.mode = .directive) : Tracked lang text (s.step lang) := by
  obtain ⟨c, rest, hrest⟩ := List.exists_cons_of_ne_nil hr
  have hidle : s.mode ≠ .idle := by
    rcases hm with hm | hm <;> simp [hm]
  have hv := h.visited.step
  have hstep := Cursor.step_toLineEnd lang hrest hm
  rw [stepToLineEnd] at hstep
  split at hstep
  · exact h.of_breakLine hv ‹_› hstep
  · exact h.of_read hv hidle rfl hidle hstep

theorem step_quoted (h : Tracked lang text s) (hr : s.rest ≠ []) {quote : Quote} {escaped : Bool}
    (hm : s.mode = .quoted quote escaped) : Tracked lang text (s.step lang) := by
  obtain ⟨c, rest, hrest⟩ := List.exists_cons_of_ne_nil hr
  have hidle : s.mode ≠ .idle := by simp [hm]
  have hkind : ∀ e, (Mode.quoted quote e).kind = s.mode.kind := by
    intro e
    rw [hm, Mode.kind_quoted, Mode.kind_quoted quote escaped]
  have hv := h.visited.step
  have hstep := Cursor.step_quoted lang hrest hm
  rw [stepQuoted] at hstep
  split at hstep
  · refine h.of_close hv hidle (blocks_read ..) (mode_read ..) ?_ hstep
    simp [hrest]
  split at hstep
  · exact h.of_read hv hidle (hkind true) (by simp) hstep
  split at hstep
  · exact h.of_breakLine hv ‹_› hstep
  · exact h.of_read hv hidle (hkind false) (by simp) hstep

theorem step_number (h : Tracked lang text s) (hr : s.rest ≠ []) {shape : Numeral}
    (hm : s.mode = .number shape) : Tracked lang text (s.step lang) := by
  obtain ⟨c, rest, hrest⟩ := List.exists_cons_of_ne_nil hr
  have hidle : s.mode ≠ .idle := by simp [hm]
  have hv := h.visited.step
  have hstep := Cursor.step_number lang hrest hm
  rw [stepNumber] at hstep
  split at hstep
  · refine h.of_read hv hidle ?_ (by simp) hstep
    rw [hm]
    rfl
  · rename_i hnext
    -- The digit that the number was begun by has been read.
    have hp : s.pending ≠ [] := by
      intro hp
      have hflush : s.flush.blocks = s.blocks := by
        rw [flush, blocks_flushAs, if_pos hp, List.append_nil]
      have hin := h.inside hidle []
      rw [hm] at hin
      obtain ⟨t, ht, hpast, -, -, -, -, -, hdigit⟩ := hin.of_number rfl
      have hrest' : t.rest = s.rest := ht.rest_unique h.visited (hpast.trans hflush.symm)
      have hc : c.isDigit = true := by simpa [hrest', hrest] using hdigit
      obtain ⟨next, hsome⟩ := Option.isSome_iff_exists.1 (Numeral.next?_of_isDigit shape hc)
      rw [hnext] at hsome
      cases hsome
    exact h.of_close hv hidle rfl rfl hp hstep

theorem step (h : Tracked lang text s) : Tracked lang text (s.step lang) := by
  by_cases hr : s.rest = []
  · rwa [step_of_rest_eq_nil hr]
  · cases hm : s.mode with
    | idle => exact h.step_idle hr hm
    | blockComment => exact h.step_blockComment hr hm
    | lineComment => exact h.step_toLineEnd hr (.inl hm)
    | directive => exact h.step_toLineEnd hr (.inr hm)
    | quoted quote escaped => exact h.step_quoted hr hm
    | number shape => exact h.step_number hr hm
    | raw => exact absurd hm h.visited.mode_ne_raw

end Tracked

theorem Visited.tracked {s : Cursor} (h : Visited lang text s) : Tracked lang text s := by
  induction h with
  | start =>
    refine .of_idle .start ?_ rfl rfl fun d hd => ?_
    · exact origins_nil
    · cases hd
  | step _ ih => exact ih.step

end Tracked

end Cursor

theorem origin_of_finished {lang : Language} {text : Text} {limits : List Nat}
    (hf : ((Scanner.start lang true text).advanceAll limits).finished = true)
    {past future : Blocks} {b : Block}
    (hb : ((Scanner.start lang true text).advanceAll limits).blocks = past ++ b :: future) :
    Cursor.Origin lang text past b := by
  obtain ⟨s, hs, -, hblocks⟩ := exists_visited_of_finished hf
  exact hs.tracked.origins_flush past b future (hblocks.symm.trans hb)

end Highlighter
