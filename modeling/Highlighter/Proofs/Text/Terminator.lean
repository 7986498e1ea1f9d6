import Highlighter.Proofs.Text.FinalBreak

/-!
# Terminators of a text

A text is its lines with something between them. Where that is one terminator throughout,
joining the lines gives the text back, the terminator is the one that is detected, and the
last line end is the terminator too.
-/

namespace Highlighter

/-! ### Joined lines -/

theorem insertIdx_eq_take_append_cons_drop {ls : List Text} {index : Nat} (h : index ≤ ls.length)
    (l : Text) : ls.insertIdx index l = ls.take index ++ l :: ls.drop index := by
  induction ls generalizing index with
  | nil =>
    have hzero : index = 0 := by simpa using h
    rw [hzero]
    rfl
  | cons k ls ih =>
    cases index with
    | zero => rfl
    | succ index => exact congrArg (List.cons k) (ih (Nat.le_of_succ_le_succ h))

namespace Terminator
variable (terminator : Terminator)

theorem joinLines_cons (l : Text) {ls : List Text} (hne : ls ≠ []) :
    terminator.joinLines (l :: ls) = l ++ (terminator.text ++ terminator.joinLines ls) := by
  obtain ⟨m, ms, rfl⟩ := List.exists_cons_of_ne_nil hne
  exact joinLines_cons_cons terminator l m ms

theorem mem_joinLines {terminator : Terminator} {ls : List Text} {c : Char}
    (h : c ∈ terminator.joinLines ls) : c ∈ terminator.text ∨ ∃ l ∈ ls, c ∈ l := by
  induction ls with
  | nil => cases h
  | cons l ls ih =>
    cases ls with
    | nil =>
      rw [joinLines_singleton] at h
      exact .inr ⟨l, List.mem_singleton_self l, h⟩
    | cons m ms =>
      rw [joinLines_cons_cons, List.mem_append, List.mem_append] at h
      rcases h with h | h | h
      · exact .inr ⟨l, List.mem_cons_self .., h⟩
      · exact .inl h
      · rcases ih h with h | ⟨k, hk, hc⟩
        · exact .inl h
        · exact .inr ⟨k, List.mem_cons_of_mem _ hk, hc⟩

theorem joinLines_append (ls : List Text) {ms : List Text} (hne : ms ≠ []) :
    terminator.joinLines (ls ++ ms) =
      ls.flatMap (fun l => l ++ terminator.text) ++ terminator.joinLines ms := by
  induction ls with
  | nil => rfl
  | cons l ls ih =>
    have hrest : ls ++ ms ≠ [] := List.append_ne_nil_of_right_ne_nil ls hne
    rw [List.cons_append, joinLines_cons _ l hrest, ih, List.flatMap_cons]
    simp only [List.append_assoc]

theorem joinLines_concat {ls : List Text} (hne : ls ≠ []) (l : Text) :
    terminator.joinLines (ls ++ [l]) = terminator.joinLines ls ++ (terminator.text ++ l) := by
  rcases List.eq_nil_or_concat ls with rfl | ⟨ms, m, rfl⟩
  · exact absurd rfl hne
  · have htwo : [m] ++ [l] ≠ [] := by simp
    have hone : [m] ≠ [] := by simp
    rw [List.concat_eq_append, List.append_assoc, joinLines_append _ ms htwo,
      joinLines_append _ ms hone, List.singleton_append, joinLines_cons_cons, joinLines_singleton,
      joinLines_singleton]
    simp only [List.append_assoc]

/-- An empty last line is a terminator at the end. -/
theorem joinLines_concat_nil {ls : List Text} (hne : ls ≠ []) :
    terminator.joinLines (ls ++ [[]]) = terminator.joinLines ls ++ terminator.text := by
  rw [joinLines_concat _ hne, List.append_nil]

end Terminator

namespace Text

/-- The text with the terminator in the place of each of its line ends. -/
def withTerminator (terminator : Terminator) (t : Text) : Text :=
  t.segments.flatMap fun s => s.content ++ if s.ending = [] then [] else terminator.text

theorem withTerminator_eq (terminator : Terminator) (t : Text) :
    t.withTerminator terminator = terminator.joinLines t.lines := by
  induction t using segments_induction with
  | last t ht =>
    rw [withTerminator, segments_of_hasBreak_eq_false ht, lines_of_hasBreak_eq_false ht,
      Terminator.joinLines_singleton]
    simp
  | line content ending rest hcon hend ih =>
    have hne : ending ≠ [] := (lineEnd?_eq_some hend).1
    rw [withTerminator] at ih ⊢
    rw [segments_line hcon hend, lines_line hcon hend,
      Terminator.joinLines_cons _ _ (lines_ne_nil rest), ← ih, List.flatMap_cons, if_neg hne,
      List.append_assoc]

/-- Every line end of the text is the terminator. -/
def OnlyEnds (terminator : Terminator) (t : Text) : Prop :=
  ∀ s ∈ t.segments, s.ending = [] ∨ s.ending = terminator.text

instance (terminator : Terminator) (t : Text) : Decidable (t.OnlyEnds terminator) :=
  inferInstanceAs (Decidable (∀ s ∈ t.segments, s.ending = [] ∨ s.ending = terminator.text))

/-- Joining undoes cutting, where the terminator is the only line end. -/
theorem joinLines_lines {terminator : Terminator} {t : Text} (h : t.OnlyEnds terminator) :
    terminator.joinLines t.lines = t := by
  induction t using segments_induction with
  | last t ht => rw [lines_of_hasBreak_eq_false ht, Terminator.joinLines_singleton]
  | line content ending rest hcon hend ih =>
    have hsegs := segments_line hcon hend
    have hrest : rest.OnlyEnds terminator := by
      intro s hs
      exact h s (hsegs ▸ List.mem_cons_of_mem _ hs)
    have hending : ending = terminator.text := by
      have hfirst := h ⟨content, ending⟩ (hsegs ▸ List.mem_cons_self ..)
      exact hfirst.resolve_left (lineEnd?_eq_some hend).1
    rw [lines_line hcon hend, Terminator.joinLines_cons _ _ (lines_ne_nil rest), ih hrest, hending]

def endsWith (t : Text) (terminator : Terminator) : Bool := terminator.text.isSuffixOf t

/-- The text without the terminator at its end, if it ends with it. -/
def dropTerminator (t : Text) (terminator : Terminator) : Text :=
  if t.endsWith terminator then t.take (t.length - terminator.text.length) else t

theorem endsWith_iff {t : Text} {terminator : Terminator} :
    t.endsWith terminator = true ↔ ∃ u, u ++ terminator.text = t :=
  List.isSuffixOf_iff_suffix

theorem endsWith_append (t : Text) (terminator : Terminator) :
    (t ++ terminator.text).endsWith terminator = true :=
  endsWith_iff.2 ⟨t, rfl⟩

theorem dropTerminator_append (t : Text) (terminator : Terminator) :
    (t ++ terminator.text).dropTerminator terminator = t := by
  rw [dropTerminator, if_pos (endsWith_append t terminator), List.length_append,
    Nat.add_sub_cancel, List.take_left]

theorem dropFinalBreak_append_text {t : Text} {terminator : Terminator}
    (h : terminator = .lf → t.getLast? ≠ some '\r') :
    dropFinalBreak (t ++ terminator.text) = (t, true) := by
  cases terminator with
  | crlf => exact dropFinalBreak_crlf t
  | lf => exact dropFinalBreak_concat fun _ => h rfl

theorem dropFinalBreak_snd_of_endsWith {t : Text} {terminator : Terminator}
    (h : t.endsWith terminator = true) : (dropFinalBreak t).2 = true := by
  obtain ⟨u, rfl⟩ := endsWith_iff.1 h
  cases terminator with
  | lf => exact dropFinalBreak_snd_of_isBreak u rfl
  | crlf => rw [Terminator.text, dropFinalBreak_crlf]

theorem dropFinalBreak_of_onlyEnds {t : Text} {terminator : Terminator}
    (h : t.OnlyEnds terminator) :
    dropFinalBreak t = (t.dropTerminator terminator, t.endsWith terminator) := by
  have hlines := lines_dropFinalBreak t
  cases hf : (dropFinalBreak t).2 with
  | false =>
    have hends : t.endsWith terminator = false := by
      rw [← Bool.not_eq_true]
      intro hends
      rw [dropFinalBreak_snd_of_endsWith hends] at hf
      cases hf
    rw [dropTerminator, hends, if_neg Bool.false_ne_true]
    exact Prod.ext (dropFinalBreak_fst_of_snd_eq_false hf) hf
  | true =>
    rw [hf, if_pos rfl] at hlines
    have ht := joinLines_lines h
    rw [hlines, Terminator.joinLines_concat_nil _ (lines_ne_nil _)] at ht
    have hlast : terminator = .lf →
        (terminator.joinLines (dropFinalBreak t).1.lines).getLast? ≠ some '\r' := by
      rintro rfl hr
      rcases Terminator.mem_joinLines (List.mem_of_getLast? hr) with hm | ⟨l, hl, hm⟩
      · simp [Terminator.text] at hm
      · have hbreak := hasBreak_eq_false_iff.1 (hasBreak_of_mem_lines hl) _ hm
        cases hbreak
    rw [← ht, dropFinalBreak_append_text hlast, dropTerminator_append, endsWith_append]

theorem joinLines_dropTerminator {t : Text} {terminator : Terminator}
    (h : t.OnlyEnds terminator) :
    (terminator.joinLines (t.dropTerminator terminator).lines ++
      if t.endsWith terminator then terminator.text else []) = t := by
  have hlines := lines_dropFinalBreak t
  rw [dropFinalBreak_of_onlyEnds h] at hlines
  have hjoin := joinLines_lines h
  rw [hlines] at hjoin
  cases he : t.endsWith terminator with
  | false =>
    rw [he, if_neg Bool.false_ne_true, List.append_nil] at hjoin
    rw [if_neg Bool.false_ne_true, List.append_nil, hjoin]
  | true =>
    rw [he, if_pos rfl, Terminator.joinLines_concat_nil _ (lines_ne_nil _)] at hjoin
    rw [if_pos rfl, hjoin]

end Text

/-! ### Detection -/

namespace Terminator

/-- CRLF if the text has one, else LF if it has one, else the other terminator. -/
def shownBy (t : Text) (other : Terminator) : Terminator :=
  if ['\r', '\n'] <:+: t then .crlf else if '\n' ∈ t then .lf else other

theorem detect?_getD (t : Text) (other : Terminator) :
    (detect? t).getD other = shownBy t other := by
  fun_induction detect? t generalizing other with
  | case1 => rfl
  | case2 t =>
    have hcrlf : ['\r', '\n'] <:+: '\r' :: '\n' :: t := (List.prefix_append ['\r', '\n'] t).isInfix
    rw [shownBy, if_pos hcrlf]
    rfl
  | case3 t _ ih =>
    have hinfix : ['\r', '\n'] <:+: '\n' :: t ↔ ['\r', '\n'] <:+: t := by
      simp [List.infix_cons_iff]
    rw [Option.getD_some, ih, shownBy, shownBy, if_congr hinfix rfl rfl]
    simp
  | case4 c t hcr hc ih =>
    have hinfix : ['\r', '\n'] <:+: c :: t ↔ ['\r', '\n'] <:+: t := by
      rw [List.infix_cons_iff, or_iff_right]
      rintro ⟨r, hr⟩
      rw [List.cons_append, List.cons_append, List.nil_append, List.cons.injEq] at hr
      exact hcr r hr.1.symm hr.2.symm
    have hmem : '\n' ∈ c :: t ↔ '\n' ∈ t := by
      simp [Ne.symm hc]
    rw [ih, shownBy, shownBy, if_congr hinfix rfl (if_congr hmem rfl rfl)]

theorem detect?_append {t : Text} (ht : t.hasBreak = false) (u : Text) :
    detect? (t ++ u) = detect? u := by
  induction t with
  | nil => rfl
  | cons c t ih =>
    rw [Text.hasBreak_cons, Bool.or_eq_false_iff] at ht
    have hcr : c ≠ '\r' := by
      rintro rfl
      cases ht.1
    have hlf : c ≠ '\n' := by
      rintro rfl
      cases ht.1
    rw [List.cons_append, detect?, if_neg hlf, ih ht.2]
    intro _ hc
    exact absurd hc hcr

theorem detect?_joinLines (terminator : Terminator) {ls : List Text}
    (hls : ∀ l ∈ ls, l.hasBreak = false) :
    detect? (terminator.joinLines ls) = if 2 ≤ ls.length then some terminator else none := by
  induction ls with
  | nil => rfl
  | cons l ls ih =>
    have hl : l.hasBreak = false := hls l (List.mem_cons_self ..)
    have hrest := ih fun x hx => hls x (List.mem_cons_of_mem _ hx)
    cases ls with
    | nil =>
      have hdet := detect?_append hl []
      rw [List.append_nil] at hdet
      rw [joinLines_singleton, hdet]
      rfl
    | cons m ms =>
      have htwo : 2 ≤ (l :: m :: ms).length := by simp
      rw [joinLines_cons_cons, detect?_append hl, if_pos htwo]
      cases terminator with
      | crlf => rfl
      | lf =>
        show some ((detect? (lf.joinLines (m :: ms))).getD lf) = some lf
        rw [hrest]
        split <;> rfl

/-- The terminator that is detected joins the lines as they were joined. Where none is, there is
one line, and nothing to join. -/
theorem joinLines_shownBy (terminator other : Terminator) {ls : List Text} (hne : ls ≠ [])
    (hls : ∀ l ∈ ls, l.hasBreak = false) :
    (shownBy (terminator.joinLines ls) other).joinLines ls = terminator.joinLines ls := by
  rw [← detect?_getD, detect?_joinLines terminator hls]
  split
  · rfl
  · rename_i hlen
    have hpos : 0 < ls.length := List.length_pos_iff.2 hne
    have hone : ls.length = 1 := by omega
    obtain ⟨l, rfl⟩ := List.length_eq_one_iff.1 hone
    rw [joinLines_singleton, joinLines_singleton]

theorem shownBy_of_onlyEnds {t : Text} {terminator other : Terminator}
    (h : t.OnlyEnds terminator) (hother : t.hasBreak = false → terminator = other) :
    shownBy t other = terminator := by
  have hb : ∀ l ∈ t.lines, l.hasBreak = false := fun _ hl => Text.hasBreak_of_mem_lines hl
  have hjoin := Text.joinLines_lines h
  have hdet := detect?_joinLines terminator hb
  rw [hjoin] at hdet
  rw [← detect?_getD, hdet]
  split
  · rfl
  · rename_i hlen
    -- A single line has no line end.
    have hpos : 0 < t.lines.length := List.length_pos_iff.2 (Text.lines_ne_nil t)
    have hone : t.lines.length = 1 := by omega
    obtain ⟨l, hl⟩ := List.length_eq_one_iff.1 hone
    rw [hl, joinLines_singleton] at hjoin
    rw [hl, hjoin] at hb
    exact (hother (hb t (List.mem_singleton_self t))).symm

end Terminator

end Highlighter
