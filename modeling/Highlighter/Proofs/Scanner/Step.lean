import Highlighter.Proofs.Block.Lines
import Highlighter.Proofs.Language.Lexeme

/-!
# What a step can do

A step enters a mode, reads ahead, emits the open block or breaks the line, and it does
nothing else: `step_induction`. A property that these four moves keep holds after every
step, and with it after every run. The first such property is `Sound`: the blocks and
the open block are the text read so far.
-/

namespace Highlighter

theorem Mode.kind_ne_lineBreak (m : Mode) : m.kind ≠ .lineBreak := by
  rcases m with _ | _ | _ | _ | ⟨_ | _, _⟩ | _ | _ <;> simp [Mode.kind]

theorem Mode.kind_quoted (quote : Quote) (escaped : Bool) :
    (Mode.quoted quote escaped).kind = (Mode.quoted quote false).kind := by
  cases quote <;> rfl

namespace Cursor

/-- The step may read `n` characters: they are there, and they have no line end if the
marks of the language have none, or if highlighting is off. -/
def CanRead (lang : Language) (n : Nat) (s : Cursor) : Prop :=
  n ≤ s.rest.length ∧ (lang.NewlineFree ∨ s.mode = .raw → Text.hasBreak (s.rest.take n) = false)

theorem canRead_of_stands {lang : Language} {lexeme : Text} {s : Cursor}
    (h : lang.Stands s.rest lexeme) (hm : s.mode ≠ .raw) : s.CanRead lang lexeme.length := by
  refine ⟨h.length_le, fun hf => ?_⟩
  rw [h.take_length]
  exact h.hasBreak (hf.resolve_right hm)

theorem canRead_one {lang : Language} {c : Char} {rest : Text} {s : Cursor}
    (hr : s.rest = c :: rest) (h : lang.NewlineFree ∨ s.mode = .raw → isBreak c = false) :
    s.CanRead lang 1 := by
  refine ⟨by simp [hr], fun hf => ?_⟩
  simpa [hr] using h hf

/-! ### Fields after a move -/

@[simp] theorem before_enter (m : Mode) (s : Cursor) : (s.enter m).before = s.before := rfl

@[simp] theorem pending_enter (m : Mode) (s : Cursor) : (s.enter m).pending = s.pending := rfl

@[simp] theorem emitted_enter (m : Mode) (s : Cursor) : (s.enter m).emitted = s.emitted := rfl

@[simp] theorem breaks_enter (m : Mode) (s : Cursor) : (s.enter m).breaks = s.breaks := rfl

@[simp] theorem before_read (n : Nat) (s : Cursor) :
    (s.read n).before = (s.rest.take n).reverse ++ s.before := rfl

@[simp] theorem pending_read (n : Nat) (s : Cursor) :
    (s.read n).pending = (s.rest.take n).reverse ++ s.pending := rfl

@[simp] theorem emitted_read (n : Nat) (s : Cursor) : (s.read n).emitted = s.emitted := rfl

@[simp] theorem breaks_read (n : Nat) (s : Cursor) : (s.read n).breaks = s.breaks := rfl

@[simp] theorem before_flushAs (k : Kind) (s : Cursor) : (s.flushAs k).before = s.before := by
  unfold flushAs; split <;> rfl

@[simp] theorem pending_flushAs (k : Kind) (s : Cursor) : (s.flushAs k).pending = [] := by
  unfold flushAs
  split
  · rename_i h
    simpa using h
  · rfl

@[simp] theorem breaks_flushAs (k : Kind) (s : Cursor) : (s.flushAs k).breaks = s.breaks := by
  unfold flushAs; split <;> rfl

theorem emitted_flushAs (k : Kind) (s : Cursor) :
    (s.flushAs k).emitted =
      (if s.pending = [] then [] else [⟨k, s.pending.reverse⟩]) ++ s.emitted := by
  unfold flushAs
  by_cases h : s.pending = [] <;> simp [h]

@[simp] theorem before_flush (s : Cursor) : s.flush.before = s.before := before_flushAs ..

@[simp] theorem pending_flush (s : Cursor) : s.flush.pending = [] := pending_flushAs ..

@[simp] theorem breaks_flush (s : Cursor) : s.flush.breaks = s.breaks := breaks_flushAs ..

@[simp] theorem before_breakLine (e : Text) (s : Cursor) :
    (s.breakLine e).before = (s.rest.take e.length).reverse ++ s.before := by
  simp [breakLine]

@[simp] theorem pending_breakLine (e : Text) (s : Cursor) : (s.breakLine e).pending = [] := by
  simp [breakLine]

@[simp] theorem emitted_breakLine (e : Text) (s : Cursor) :
    (s.breakLine e).emitted = ⟨.lineBreak, s.rest.take e.length⟩ :: s.flush.emitted := by
  simp [breakLine]

@[simp] theorem breaks_breakLine (e : Text) (s : Cursor) :
    (s.breakLine e).breaks = s.breaks + 1 := by
  simp [breakLine]

/-! ### The step of each mode -/

section Modes
variable (lang : Language) {s : Cursor} {c : Char} {rest : Text} (hr : s.rest = c :: rest)
include hr

theorem step_idle (hm : s.mode = .idle) : s.step lang = s.stepIdle lang c := by
  simp [step, hr, hm]

theorem step_blockComment (hm : s.mode = .blockComment) :
    s.step lang = s.stepBlockComment lang := by
  simp [step, hr, hm]

theorem step_toLineEnd (hm : s.mode = .lineComment ∨ s.mode = .directive) :
    s.step lang = s.stepToLineEnd := by
  rcases hm with hm | hm <;> simp [step, hr, hm]

theorem step_quoted {quote : Quote} {escaped : Bool} (hm : s.mode = .quoted quote escaped) :
    s.step lang = s.stepQuoted lang quote escaped c := by
  simp [step, hr, hm]

theorem step_number {shape : Numeral} (hm : s.mode = .number shape) :
    s.step lang = s.stepNumber shape c := by
  simp [step, hr, hm]

theorem step_raw (hm : s.mode = .raw) : s.step lang = s.stepRaw := by
  simp [step, hr, hm]

end Modes

/-! ### Induction over a step -/

/-- What the four moves keep, every step keeps. -/
theorem step_induction {P : Cursor → Prop} (lang : Language)
    (enter : ∀ m s, s.mode ≠ .raw → m ≠ .raw → P s → P (s.enter m))
    (read : ∀ n s, s.CanRead lang n → P s → P (s.read n))
    (flush : ∀ k s, k ≠ .lineBreak → P s → P (s.flushAs k))
    (breakLine : ∀ e s, lineEnd? s.rest = some e → P s → P (s.breakLine e))
    {s : Cursor} (hs : P s) : P (s.step lang) := by
  have flushed : ∀ s, P s → P s.flush := fun s h => flush _ s (Mode.kind_ne_lineBreak _) h
  unfold step
  split
  · exact hs
  rename_i c rest hr
  have one : lineEnd? s.rest = none → s.CanRead lang 1 := by
    intro h
    rw [hr, lineEnd?_eq_none_iff] at h
    exact canRead_one hr fun _ => h
  split
  case h_1 hm =>
    have hraw : s.mode ≠ .raw := by simp [hm]
    unfold stepIdle
    split
    · exact breakLine _ s ‹_› hs
    rename_i hnone
    split
    · rename_i mode lexeme h
      obtain ⟨hst, -, hmode, -⟩ := Language.stands_opening? h
      have hcan : s.flush.CanRead lang lexeme.length :=
        canRead_of_stands (by simpa using hst) (by simpa using hraw)
      exact enter mode _ (by simpa using hraw) hmode (read _ _ hcan (flushed s hs))
    split
    · exact read 1 s (one hnone) hs
    split
    · rename_i kind word h
      obtain ⟨-, hst, hkind⟩ := Language.word?_cases h
      have hcan : s.flush.CanRead lang word.length :=
        canRead_of_stands (by simpa using hst) (by simpa using hraw)
      exact flush kind _ hkind (read _ _ hcan (flushed s hs))
    split
    · exact enter _ _ (by simpa using hraw) (by simp) (flushed s hs)
    · exact read 1 s (one hnone) hs
  case h_2 hm =>
    have hraw : s.mode ≠ .raw := by simp [hm]
    unfold stepBlockComment
    split
    · rename_i closer h
      have hcan := canRead_of_stands (Language.stands_commentCloser? h) hraw
      exact enter _ _ (by simpa using hraw) (by simp) (flushed _ (read _ s hcan hs))
    split
    · exact breakLine _ s ‹_› hs
    · exact read 1 s (one ‹_›) hs
  case h_3 hm | h_4 hm =>
    have hraw : s.mode ≠ .raw := by simp [hm]
    unfold stepToLineEnd
    split
    · exact enter _ _ (by simpa using hraw) (by simp) (breakLine _ s ‹_› hs)
    · exact read 1 s (one ‹_›) hs
  case h_5 quote escaped hm =>
    have hraw : s.mode ≠ .raw := by simp [hm]
    unfold stepQuoted
    split
    · rename_i hc
      rw [Bool.and_eq_true] at hc
      have hcan : s.CanRead lang 1 := canRead_one hr fun hf =>
        Language.isBreak_of_closes (hf.resolve_right hraw) hc.1
      exact enter _ _ (by simpa using hraw) (by simp) (flushed _ (read 1 s hcan hs))
    split
    · rename_i hc
      rw [Bool.and_eq_true, beq_iff_eq] at hc
      have hcan : s.CanRead lang 1 := canRead_one hr fun _ => by rw [hc.1]; rfl
      exact enter _ _ (by simpa using hraw) (by simp) (read 1 s hcan hs)
    split
    · exact enter _ _ (by simpa using hraw) (by simp) (breakLine _ s ‹_› hs)
    · exact enter _ _ (by simpa using hraw) (by simp) (read 1 s (one ‹_›) hs)
  case h_6 shape hm =>
    have hraw : s.mode ≠ .raw := by simp [hm]
    unfold stepNumber
    split
    · rename_i h
      have hcan : s.CanRead lang 1 := canRead_one hr fun _ => Numeral.isBreak_of_next? h
      exact enter _ _ (by simpa using hraw) (by simp) (read 1 s hcan hs)
    · exact enter _ _ (by simpa using hraw) (by simp) (flushed s hs)
  case h_7 =>
    unfold stepRaw
    split
    · exact breakLine _ s ‹_› hs
    · exact read 1 s (one ‹_›) hs

theorem run_induction {P : Cursor → Prop} (lang : Language)
    (step : ∀ s : Cursor, P s → P (s.step lang)) (limit : Nat) {s : Cursor} (hs : P s) :
    P (s.run lang limit) := by
  fun_induction run lang limit s with
  | case1 s h => exact hs
  | case2 s h hlt ih => exact ih (step s hs)

/-! ### The text behind the cursor -/

theorem blocks_flushAs (k : Kind) (s : Cursor) :
    (s.flushAs k).blocks =
      s.blocks ++ if s.pending = [] then [] else [⟨k, s.pending.reverse⟩] := by
  simp only [blocks, emitted_flushAs, List.reverse_append]
  split <;> rfl

theorem blocks_flush_of_pending {s : Cursor} (hp : s.pending ≠ []) :
    s.flush.blocks = s.blocks ++ [⟨s.mode.kind, s.pending.reverse⟩] := by
  rw [flush, blocks_flushAs, if_neg hp]

@[simp] theorem blocks_read (n : Nat) (s : Cursor) : (s.read n).blocks = s.blocks := rfl

@[simp] theorem blocks_enter (m : Mode) (s : Cursor) : (s.enter m).blocks = s.blocks := rfl

theorem blocks_breakLine (e : Text) (s : Cursor) :
    (s.breakLine e).blocks = s.flush.blocks ++ [⟨.lineBreak, s.rest.take e.length⟩] := by
  simp [blocks]

theorem concat_blocks_flushAs (k : Kind) (s : Cursor) :
    (s.flushAs k).blocks.concat = s.blocks.concat ++ s.pending.reverse := by
  rw [blocks_flushAs, Blocks.concat_append]
  split
  · rename_i h
    simp [h]
  · simp

theorem breaks_blocks_flushAs {k : Kind} (hk : k ≠ .lineBreak) (s : Cursor) :
    (s.flushAs k).blocks.breaks = s.blocks.breaks := by
  rw [blocks_flushAs, Blocks.breaks_append]
  split <;> simp [Blocks.breaks, Block.isLineBreak, hk]

/-- The blocks and the open block are the text that has been read, no block is empty, and
the count of line breaks is theirs. -/
structure Sound (t : Text) (s : Cursor) : Prop where
  text : s.before.reverse ++ s.rest = t
  covered : s.before.reverse = s.blocks.concat ++ s.pending.reverse
  nonempty : ∀ b ∈ s.blocks, b.content ≠ []
  breaks : s.breaks = s.blocks.breaks

namespace Sound
variable {t : Text} {s : Cursor}

theorem start (highlight : Bool) (t : Text) : (Cursor.start highlight t).Sound t where
  text := rfl
  covered := rfl
  nonempty := by simp [Cursor.start, blocks]
  breaks := rfl

theorem enter (h : s.Sound t) (m : Mode) : (s.enter m).Sound t := ⟨h.1, h.2, h.3, h.4⟩

theorem read (h : s.Sound t) (n : Nat) : (s.read n).Sound t where
  text := by
    have htake : s.rest.take n ++ s.rest.drop n = s.rest := List.take_append_drop n s.rest
    rw [before_read, rest_read, List.reverse_append, List.reverse_reverse, List.append_assoc, htake]
    exact h.text
  covered := by simp [h.covered]
  nonempty := h.nonempty
  breaks := h.breaks

theorem flushAs (h : s.Sound t) {k : Kind} (hk : k ≠ .lineBreak) : (s.flushAs k).Sound t where
  text := by simpa using h.text
  covered := by
    rw [before_flushAs, concat_blocks_flushAs, pending_flushAs]
    simpa using h.covered
  nonempty := by
    intro b hb
    rw [blocks_flushAs, List.mem_append] at hb
    rcases hb with hb | hb
    · exact h.nonempty b hb
    · split at hb
      · cases hb
      · rename_i hp
        rw [List.mem_singleton] at hb
        simpa [hb] using hp
  breaks := by rw [breaks_flushAs, breaks_blocks_flushAs hk, h.breaks]

theorem flush (h : s.Sound t) : s.flush.Sound t := h.flushAs (Mode.kind_ne_lineBreak _)

theorem breakLine (h : s.Sound t) {e : Text} (he : lineEnd? s.rest = some e) :
    (s.breakLine e).Sound t := by
  obtain ⟨hne, rest, hrest⟩ := lineEnd?_eq_some he
  have hf := h.flush
  have htake : s.rest.take e.length = e := by rw [hrest, List.take_left]
  refine ⟨?_, ?_, ?_, ?_⟩
  · have hcut : s.rest.take e.length ++ s.rest.drop e.length = s.rest := List.take_append_drop ..
    rw [before_breakLine, rest_breakLine, List.reverse_append, List.reverse_reverse,
      List.append_assoc, hcut]
    exact h.text
  · have hcov := hf.covered
    rw [before_flush, pending_flush, List.reverse_nil, List.append_nil] at hcov
    rw [before_breakLine, blocks_breakLine, pending_breakLine, List.reverse_append,
      List.reverse_reverse, hcov]
    simp
  · intro b hb
    rw [blocks_breakLine, List.mem_append, List.mem_singleton] at hb
    rcases hb with hb | rfl
    · exact hf.nonempty b hb
    · simpa [htake] using hne
  · have hb := hf.breaks
    rw [breaks_flush] at hb
    rw [breaks_breakLine, blocks_breakLine, Blocks.breaks_append, hb]
    rfl

theorem step (h : s.Sound t) (lang : Language) : (s.step lang).Sound t :=
  step_induction lang (fun m _ _ _ h => h.enter m) (fun n _ _ h => h.read n)
    (fun _ _ hk h => h.flushAs hk) (fun _ _ he h => h.breakLine he) h

theorem run (h : s.Sound t) (lang : Language) (limit : Nat) : (s.run lang limit).Sound t :=
  run_induction lang (fun _ h => h.step lang) limit h

end Sound

/-! ### Blocks stay -/

theorem blocks_prefix_flushAs (k : Kind) (s : Cursor) : s.blocks <+: (s.flushAs k).blocks := by
  rw [blocks_flushAs]
  exact List.prefix_append ..

theorem blocks_prefix_step (lang : Language) (s : Cursor) : s.blocks <+: (s.step lang).blocks := by
  refine step_induction (P := fun u => s.blocks <+: u.blocks) lang ?_ ?_ ?_ ?_ List.prefix_rfl
  · intro m u _ _ h
    exact h
  · intro n u _ h
    exact h
  · intro k u _ h
    exact h.trans (blocks_prefix_flushAs k u)
  · intro e u _ h
    rw [blocks_breakLine]
    exact h.trans ((blocks_prefix_flushAs _ u).trans (List.prefix_append ..))

theorem blocks_prefix_run (lang : Language) (limit : Nat) (s : Cursor) :
    s.blocks <+: (s.run lang limit).blocks :=
  run_induction (P := fun u => s.blocks <+: u.blocks) lang
    (fun u h => h.trans (blocks_prefix_step lang u)) limit List.prefix_rfl

end Cursor

end Highlighter
