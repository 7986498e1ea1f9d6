import Highlighter.Proofs.Scanner.Origin
import Mathlib.Order.Bounds.Basic
import Mathlib.Order.Nat

/-!
# Constructs of one line

Literals, line comments and directives end with their line at the latest. The flag that a
literal is read with tells whether an odd number of backslashes stands right in front, so that
the delimiter that closes it is told from the text alone: `Language.LiteralBody`.
-/

namespace Highlighter

/-! ### Reading ahead -/

namespace Cursor

theorem read_read (m n : Nat) (s : Cursor) : (s.read m).read n = s.read (m + n) := by
  simp [read, List.take_add]

theorem enter_read_zero {m : Mode} {s : Cursor} (hm : s.mode = m) : (s.read 0).enter m = s := by
  rw [← hm]
  rfl

variable {lang : Language} {text : Text} {s u : Cursor}

/-- Characters that are read one by one without a turn are read at once. -/
theorem Visited.read_ahead (h : Visited lang text s) {n : Nat}
    (hstep : ∀ j < n, (s.read j).step lang = (s.read j).read 1) : Visited lang text (s.read n) := by
  induction n with
  | zero => exact h
  | succ n ih =>
    have hn := ih fun j hj => hstep j (by omega)
    rw [← read_read, ← hstep n (Nat.lt_succ_self n)]
    exact hn.step

theorem Visited.eq_of_rest_eq_nil (h : Visited lang text s) (hr : s.rest = [])
    (hu : Visited lang text u) (hur : u.rest = []) : s = u := by
  have hs := h.sound.breaks_add_length_le
  have hu' := hu.sound.breaks_add_length_le
  have hrun : (Cursor.start true text).run lang (text.length + 1) = s := by
    rw [h.run_eq (by omega), run_of_done (.inl hr)]
  rw [← hrun, hu.run_eq (by omega), run_of_done (.inl hur)]

theorem Visited.blocks_prefix (h : Visited lang text s) (hu : Visited lang text u)
    (hr : u.rest = []) : s.blocks <+: u.flush.blocks := by
  have hs := h.sound.breaks_add_length_le
  have hend := h.sound.rest_run lang (Nat.lt_succ_self text.length)
  have hrun := (h.run (text.length + 1)).eq_of_rest_eq_nil hend hu hr
  rw [← hrun]
  exact (blocks_prefix_run lang _ s).trans (blocks_prefix_flushAs _ _)

theorem Visited.breakLine_prefix (nf : lang.NewlineFree) (h : Visited lang text s) {ending : Text}
    (hline : lineEnd? s.rest = some ending) (hu : Visited lang text u) (hr : u.rest = []) :
    s.flush.blocks ++ [⟨.lineBreak, ending⟩] <+: u.flush.blocks := by
  have hlimit := h.sound.breaks_add_length_le
  have hrun : s.run lang (text.length + 1) = _ := run_lineEnd nf hline h.mode_ne_raw (by omega)
  have hdone := h.sound.rest_run lang (Nat.lt_succ_self text.length)
  have hsame := (h.run (text.length + 1)).eq_of_rest_eq_nil hdone hu hr
  have htake : s.rest.take ending.length = ending := by
    obtain ⟨-, rest, hrest⟩ := lineEnd?_eq_some hline
    rw [hrest, List.take_left]
  have hprefix := blocks_prefix_run lang (text.length + 1)
    ((s.breakLine ending).enter (if s.mode = .blockComment then .blockComment else .idle))
  rw [← hrun, hsame, blocks_enter, blocks_breakLine, htake] at hprefix
  exact hprefix.trans (blocks_prefix_flushAs _ _)

/-- Where the line or the text ends, the open block is one of the pass. -/
theorem Visited.flush_prefix (nf : lang.NewlineFree) (h : Visited lang text s)
    (hend : s.rest = [] ∨ ∃ ending, lineEnd? s.rest = some ending) (hu : Visited lang text u)
    (hr : u.rest = []) : s.flush.blocks <+: u.flush.blocks := by
  rcases hend with hend | ⟨ending, hline⟩
  · obtain rfl := h.eq_of_rest_eq_nil hend hu hr
    exact List.prefix_rfl
  · exact (List.prefix_append ..).trans (h.breakLine_prefix nf hline hu hr)

end Cursor

/-! ### Lines and backslashes -/

namespace Text

/-- The text up to its first line end. -/
def firstLine (t : Text) : Text := t.takeWhile fun c => !isBreak c

theorem firstLine_prefix (t : Text) : t.firstLine <+: t := List.takeWhile_prefix _

theorem take_firstLine (t : Text) : t.take t.firstLine.length = t.firstLine := by
  obtain ⟨rest, hrest⟩ := t.firstLine_prefix
  exact (congrArg (List.take t.firstLine.length) hrest.symm).trans List.take_left

theorem hasBreak_take_firstLine (t : Text) : hasBreak (t.take t.firstLine.length) = false := by
  rw [take_firstLine, hasBreak_eq_false_iff]
  intro c hc
  simpa using List.mem_takeWhile_imp hc

theorem hasBreak_take {t : Text} {m n : Nat} (h : hasBreak (t.take n) = false) (hm : m ≤ n) :
    hasBreak (t.take m) = false := by
  rw [hasBreak_eq_false_iff] at h ⊢
  intro c hc
  have htake : t.take m = (t.take n).take m := by rw [List.take_take, Nat.min_eq_left hm]
  rw [htake] at hc
  exact h c (List.mem_of_mem_take hc)

theorem exists_drop_of_take {t : Text} {j n : Nat} (h : hasBreak (t.take n) = false) (hj : j < n)
    (hlt : j < t.length) : ∃ c rest, t.drop j = c :: rest ∧ isBreak c = false := by
  refine ⟨t[j], t.drop (j + 1), List.drop_eq_getElem_cons hlt, ?_⟩
  rw [hasBreak_eq_false_iff] at h
  exact h t[j] (List.mem_take_iff_getElem.2 ⟨j, by omega, rfl⟩)

theorem drop_firstLine (t : Text) :
    t.drop t.firstLine.length = [] ∨ ∃ e, lineEnd? (t.drop t.firstLine.length) = some e := by
  induction t with
  | nil => exact .inl rfl
  | cons c t ih =>
    cases hc : isBreak c with
    | false => simpa [firstLine, hc] using ih
    | true =>
      right
      have hsome : lineEnd? (c :: t) ≠ none := by simp [lineEnd?_eq_none_iff, hc]
      obtain ⟨e, he⟩ := Option.ne_none_iff_exists'.1 hsome
      exact ⟨e, by simpa [firstLine, hc] using he⟩

/-- The backslashes that the text ends with. -/
def backslashes (t : Text) : Nat := (t.reverse.takeWhile fun c => c == '\\').length

theorem backslashes_concat (t : Text) (c : Char) :
    backslashes (t ++ [c]) = if c = '\\' then backslashes t + 1 else 0 := by
  by_cases hc : c = '\\' <;> simp [backslashes, hc]

/-- Whether the text ends with a backslash that is not escaped itself. -/
def escapesNext (t : Text) : Bool := backslashes t % 2 == 1

theorem escapesNext_concat (t : Text) (c : Char) :
    escapesNext (t ++ [c]) = (c == '\\' && !escapesNext t) := by
  rw [escapesNext, backslashes_concat]
  by_cases hc : c = '\\'
  · rw [if_pos hc, hc, escapesNext, Bool.eq_iff_iff]
    simp only [beq_self_eq_true, Bool.true_and, Bool.not_eq_true', beq_eq_false_iff_ne, beq_iff_eq]
    omega
  · simp [hc]

end Text

/-! ### Literals -/

/-- Whether the delimiter of the literal stands at the character and is not escaped: the run of
backslashes in front of it has an even length. -/
def Language.ClosesAt (lang : Language) (quote : Quote) (after : Text) (k : Nat) : Prop :=
  (∃ c, after[k]? = some c ∧ lang.closes quote c = true) ∧
    Text.backslashes (after.take k) % 2 = 0

/-- What a literal takes of the text behind its opener. -/
def Language.LiteralBody (lang : Language) (quote : Quote) (after body : Text) : Prop :=
  (∀ k, IsLeast {k | lang.ClosesAt quote after k} k → Text.hasBreak (after.take k) = false →
    body = after.take (k + 1)) ∧
  ((∀ k, IsLeast {k | lang.ClosesAt quote after k} k → Text.hasBreak (after.take k) = true) →
    body = after.firstLine)

namespace Cursor
variable {lang : Language} {text : Text} {s u : Cursor} {quote : Quote}

theorem step_quoted_inside {escaped : Bool} {c : Char} {rest : Text} (hr : s.rest = c :: rest)
    (hm : s.mode = .quoted quote escaped) (hc : isBreak c = false)
    (hclose : (lang.closes quote c && !escaped) = false) :
    s.step lang = (s.read 1).enter (.quoted quote (c == '\\' && !escaped)) := by
  have hline : lineEnd? s.rest = none := by
    rw [hr, lineEnd?_eq_none_iff, hc]
  rw [step_quoted lang hr hm, stepQuoted, hclose, if_neg Bool.false_ne_true, hline]
  cases hslash : c == '\\' && !escaped <;> rfl

/-- Inside of a literal the flag says whether the next character is escaped. -/
theorem Visited.literal_ahead (h : Visited lang text s) (hm : s.mode = .quoted quote false) {n : Nat}
    (hn : n ≤ s.rest.length) (hbreak : Text.hasBreak (s.rest.take n) = false)
    (hopen : ∀ j < n, ¬ lang.ClosesAt quote s.rest j) :
    Visited lang text
      ((s.read n).enter (.quoted quote (Text.escapesNext (s.rest.take n)))) := by
  induction n with
  | zero =>
    rwa [List.take_zero, show Text.escapesNext [] = false from rfl, enter_read_zero hm]
  | succ n ih =>
    have hlt : n < s.rest.length := by omega
    have htake : s.rest.take (n + 1) = s.rest.take n ++ [s.rest[n]] :=
      List.take_succ_eq_append_getElem hlt
    rw [htake, Text.hasBreak_append, Bool.or_eq_false_iff] at hbreak
    obtain ⟨hfront, hlast⟩ := hbreak
    have hv := ih (by omega) hfront fun j hj => hopen j (by omega)
    have hnot := hopen n (Nat.lt_succ_self n)
    rw [htake, Text.escapesNext_concat]
    -- A delimiter at this place is one that the flag says is escaped.
    have hclose : (lang.closes quote s.rest[n] && !Text.escapesNext (s.rest.take n)) = false := by
      rw [← Bool.not_eq_true, Bool.and_eq_true, Bool.not_eq_true']
      rintro ⟨hdelimiter, heven⟩
      refine hnot ⟨⟨s.rest[n], List.getElem?_eq_getElem hlt, hdelimiter⟩, ?_⟩
      rw [Text.escapesNext, beq_eq_false_iff_ne] at heven
      omega
    have hrest := List.drop_eq_getElem_cons hlt
    have hc : isBreak s.rest[n] = false := by simpa using hlast
    have hstep := step_quoted_inside (s := (s.read n).enter (.quoted quote _)) hrest
      (mode_enter ..) hc hclose
    have hnext := hv.step
    rw [hstep] at hnext
    rw [← read_read]
    exact hnext

theorem Visited.closed_literal (h : Visited lang text s) (hm : s.mode = .quoted quote false)
    (hp : s.pending ≠ []) {k : Nat} (hk : IsLeast {k | lang.ClosesAt quote s.rest k} k)
    (hbreak : Text.hasBreak (s.rest.take k) = false) :
    ∃ u, Visited lang text u ∧
      u.blocks = s.blocks ++ [⟨s.mode.kind, s.pending.reverse ++ s.rest.take (k + 1)⟩] := by
  obtain ⟨⟨c, hc, hdelimiter⟩, heven⟩ := hk.1
  obtain ⟨hlt, hget⟩ := List.getElem?_eq_some_iff.1 hc
  have hbefore : ∀ j < k, ¬ lang.ClosesAt quote s.rest j := fun j hj hclose =>
    absurd (hk.2 hclose) (by omega)
  have hescaped : Text.escapesNext (s.rest.take k) = false := by
    rw [Text.escapesNext, heven]
    rfl
  have hv := h.literal_ahead hm (by omega) hbreak hbefore
  rw [hescaped, ← hm] at hv
  have hself : (s.read k).enter s.mode = s.read k := rfl
  rw [hself] at hv
  have hrest : (s.read k).rest = c :: s.rest.drop (k + 1) := by
    rw [rest_read, List.drop_eq_getElem_cons hlt, hget]
  have hstep : (s.read k).step lang = ((s.read k).read 1).flush.enter .idle := by
    rw [step_quoted lang hrest ((mode_read k s).trans hm), stepQuoted, hdelimiter]
    rfl
  have hread := hv.step
  rw [hstep, read_read] at hread
  refine ⟨_, hread, ?_⟩
  rw [blocks_enter, blocks_flush_of_pending (by simp [hp])]
  simp

theorem Visited.unclosed_literal (h : Visited lang text s) (hm : s.mode = .quoted quote false)
    (hopen : ∀ k, IsLeast {k | lang.ClosesAt quote s.rest k} k →
      Text.hasBreak (s.rest.take k) = true) :
    Visited lang text ((s.read s.rest.firstLine.length).enter
      (.quoted quote (Text.escapesNext s.rest.firstLine))) := by
  have hle := (Text.firstLine_prefix s.rest).length_le
  have hbreak := Text.hasBreak_take_firstLine s.rest
  have hahead := h.literal_ahead hm hle hbreak fun j hj hclose => ?_
  · rwa [Text.take_firstLine] at hahead
  · -- The first delimiter that closes would be on the line.
    classical
    have hleast := Nat.isLeast_find ⟨j, hclose⟩
    have hfirst : Nat.find ⟨j, hclose⟩ ≤ j := hleast.2 hclose
    have hshort := Text.hasBreak_take hbreak (hfirst.trans hj.le)
    rw [hopen _ hleast] at hshort
    cases hshort

/-- A literal gives way to a line end that is no delimiter of it. -/
theorem Visited.literal_flush_prefix (hquote : ∀ c, lang.closes quote c = true → isBreak c = false)
    (h : Visited lang text s) {escaped : Bool} (hm : s.mode = .quoted quote escaped)
    (hend : s.rest = [] ∨ ∃ ending, lineEnd? s.rest = some ending) (hu : Visited lang text u)
    (hr : u.rest = []) : s.flush.blocks <+: u.flush.blocks := by
  rcases hend with hend | ⟨ending, hline⟩
  · obtain rfl := h.eq_of_rest_eq_nil hend hu hr
    exact List.prefix_rfl
  · obtain ⟨c, rest, hrest, hc⟩ := isBreak_head_of_lineEnd? hline
    have hclose : (lang.closes quote c && !escaped) = false := by
      cases hq : lang.closes quote c with
      | false => rfl
      | true =>
        rw [hquote c hq] at hc
        cases hc
    have hslash : (c == '\\' && !escaped) = false := by
      rcases eq_of_isBreak hc with rfl | rfl <;> rfl
    have hstep : s.step lang = (s.breakLine ending).enter .idle := by
      rw [step_quoted lang hrest hm, stepQuoted, hclose, hslash, hline]
      rfl
    have hprefix := h.step.blocks_prefix hu hr
    rw [hstep, blocks_enter, blocks_breakLine] at hprefix
    exact (List.prefix_append ..).trans hprefix

theorem Visited.literal_block (hquote : ∀ c, lang.closes quote c = true → isBreak c = false)
    (h : Visited lang text s) (hm : s.mode = .quoted quote false) (hp : s.pending ≠ [])
    (hu : Visited lang text u) (hr : u.rest = []) : ∃ body, lang.LiteralBody quote s.rest body ∧
      s.blocks ++ [⟨s.mode.kind, s.pending.reverse ++ body⟩] <+: u.flush.blocks := by
  by_cases hclosed : ∃ k, IsLeast {k | lang.ClosesAt quote s.rest k} k ∧
      Text.hasBreak (s.rest.take k) = false
  · obtain ⟨k, hk, hbreak⟩ := hclosed
    obtain ⟨v, hv, hblocks⟩ := h.closed_literal hm hp hk hbreak
    refine ⟨s.rest.take (k + 1), ⟨fun j hj _ => ?_, fun hall => ?_⟩, ?_⟩
    · rw [hj.unique hk]
    · rw [hall k hk] at hbreak
      cases hbreak
    · rw [← hblocks]
      exact hv.blocks_prefix hu hr
  · have hopen : ∀ k, IsLeast {k | lang.ClosesAt quote s.rest k} k →
        Text.hasBreak (s.rest.take k) = true := fun k hk => by
      by_contra hbreak
      exact hclosed ⟨k, hk, by simpa using hbreak⟩
    refine ⟨s.rest.firstLine, ⟨fun k hk hbreak => ?_, fun _ => rfl⟩, ?_⟩
    · rw [hopen k hk] at hbreak
      cases hbreak
    · have hv := h.unclosed_literal hm hopen
      have hprefix := hv.literal_flush_prefix hquote (mode_enter ..) (Text.drop_firstLine s.rest) hu hr
      rw [blocks_flush_of_pending (by simp [hp]), mode_enter, Mode.kind_quoted, ← hm] at hprefix
      simpa [Text.take_firstLine] using hprefix

/-! ### Line comments and directives -/

theorem Visited.line_block (nf : lang.NewlineFree) (h : Visited lang text s)
    (hm : s.mode = .lineComment ∨ s.mode = .directive) (hp : s.pending ≠ [])
    (hu : Visited lang text u) (hr : u.rest = []) :
    s.blocks ++ [⟨s.mode.kind, s.pending.reverse ++ s.rest.firstLine⟩] <+: u.flush.blocks := by
  have hle := (Text.firstLine_prefix s.rest).length_le
  have hbreak := Text.hasBreak_take_firstLine s.rest
  have hv : Visited lang text (s.read s.rest.firstLine.length) := by
    refine h.read_ahead fun j hj => ?_
    obtain ⟨c, rest, hrest, hc⟩ := Text.exists_drop_of_take hbreak hj (by omega)
    rw [step_toLineEnd lang (s := s.read j) hrest hm, stepToLineEnd, rest_read, hrest,
      (lineEnd?_eq_none_iff c rest).2 hc]
  have hprefix := hv.flush_prefix nf (Text.drop_firstLine s.rest) hu hr
  rw [blocks_flush_of_pending (by simp [hp]), mode_read, blocks_read, pending_read,
    Text.take_firstLine] at hprefix
  simpa using hprefix

end Cursor

end Highlighter
