import Mathlib.Data.List.Infix
import Highlighter.Proofs.Text.Lines

/-!
# The last line end

A last line end closes an empty line at the end of the text, and dropping it drops that line.
It is the last line end of whatever rest of the text holds it, as long as no CRLF is cut.
-/

namespace Highlighter

theorem lineEnd?_of_prefix {ending rest rest' : Text} (h : lineEnd? (ending ++ rest) = some ending)
    (hp : rest' <+: rest) : lineEnd? (ending ++ rest') = some ending := by
  rw [lineEnd?_append_iff] at h ⊢
  refine ⟨h.1, fun hcr => ?_⟩
  obtain ⟨more, rfl⟩ := hp
  cases rest' with
  | nil => simp
  | cons c rest' => exact h.2 hcr

namespace Text

/-! ### The last line end -/

theorem dropFinalBreak_crlf (t : Text) : dropFinalBreak (t ++ ['\r', '\n']) = (t, true) := by
  simp [dropFinalBreak]

theorem dropFinalBreak_concat {t : Text} {c : Char} (h : c = '\n' → t.getLast? ≠ some '\r') :
    dropFinalBreak (t ++ [c]) = if isBreak c then (t, true) else (t ++ [c], false) := by
  rcases List.eq_nil_or_concat t with rfl | ⟨u, d, rfl⟩
  · simp [dropFinalBreak]
  · have hcd : c = '\n' → d ≠ '\r' := by simpa using h
    rw [dropFinalBreak]
    split
    · rename_i r hr
      simp only [List.concat_eq_append, List.reverse_append, List.reverse_cons, List.reverse_nil,
        List.nil_append, List.cons_append, List.cons.injEq] at hr
      exact absurd hr.2.1 (hcd hr.1)
    · rename_i e r _ hr
      simp only [List.reverse_append, List.reverse_cons, List.reverse_nil, List.nil_append,
        List.singleton_append, List.cons.injEq] at hr
      obtain ⟨rfl, rfl⟩ := hr
      rw [List.reverse_reverse]
    · rename_i hr
      simp at hr

/-- A text is empty, or it ends in CRLF or in a character that is not of one. -/
theorem end_cases (t : Text) : t = [] ∨ (∃ u, t = u ++ ['\r', '\n']) ∨
    ∃ u c, t = u ++ [c] ∧ (c = '\n' → u.getLast? ≠ some '\r') := by
  rcases List.eq_nil_or_concat t with rfl | ⟨u, c, rfl⟩
  · exact .inl rfl
  · rw [List.concat_eq_append]
    by_cases hcrlf : c = '\n' ∧ u.getLast? = some '\r'
    · obtain ⟨rfl, hu⟩ := hcrlf
      obtain ⟨v, rfl⟩ := List.getLast?_eq_some_iff.1 hu
      exact .inr (.inl ⟨v, by simp⟩)
    · exact .inr (.inr ⟨u, c, rfl, fun hc hu => hcrlf ⟨hc, hu⟩⟩)

theorem dropFinalBreak_of_hasBreak_eq_false {t : Text} (h : t.hasBreak = false) :
    dropFinalBreak t = (t, false) := by
  rcases List.eq_nil_or_concat t with rfl | ⟨u, c, rfl⟩
  · rfl
  · have hc : isBreak c = false := by
      rw [hasBreak_eq_false_iff] at h
      exact h c (by simp)
    have hcn : c = '\n' → u.getLast? ≠ some '\r' := by
      rintro rfl
      cases hc
    rw [List.concat_eq_append, dropFinalBreak_concat hcn, hc]
    rfl

theorem dropFinalBreak_line {content ending : Text} (hcon : content.hasBreak = false)
    (he : lineEnd? ending = some ending) : dropFinalBreak (content ++ ending) = (content, true) := by
  have hcr : content.getLast? ≠ some '\r' := by
    intro hlast
    have hb := hasBreak_eq_false_iff.1 hcon _ (List.mem_of_getLast? hlast)
    cases hb
  obtain ⟨rfl | rfl | rfl, -⟩ := lineEnd?_cases he
  · exact dropFinalBreak_concat fun _ => hcr
  · exact dropFinalBreak_crlf content
  · have hne : '\r' ≠ '\n' := by decide
    exact dropFinalBreak_concat fun h => absurd h hne

/-- The last line end is that of the rest of the text, if there is a rest and no CRLF is cut. -/
theorem dropFinalBreak_append {t rest : Text} (hne : rest ≠ [])
    (h : rest.head? = some '\n' → t.getLast? ≠ some '\r') :
    dropFinalBreak (t ++ rest) = (t ++ (dropFinalBreak rest).1, (dropFinalBreak rest).2) := by
  rcases end_cases rest with rfl | ⟨u, rfl⟩ | ⟨u, c, rfl, hu⟩
  · exact absurd rfl hne
  · rw [← List.append_assoc, dropFinalBreak_crlf, dropFinalBreak_crlf]
  · have htu : c = '\n' → (t ++ u).getLast? ≠ some '\r' := by
      intro hc
      cases u with
      | nil =>
        rw [List.append_nil]
        exact h (by rw [hc]; rfl)
      | cons d u =>
        rw [List.getLast?_append_of_ne_nil t (List.cons_ne_nil d u)]
        exact hu hc
    rw [← List.append_assoc, dropFinalBreak_concat htu, dropFinalBreak_concat hu]
    split
    · rfl
    · rw [List.append_assoc]

theorem isPrefix_dropFinalBreak (t : Text) : (dropFinalBreak t).1 <+: t := by
  rcases end_cases t with rfl | ⟨u, rfl⟩ | ⟨u, c, rfl, hu⟩
  · exact List.prefix_refl []
  · rw [dropFinalBreak_crlf]
    exact List.prefix_append u _
  · rw [dropFinalBreak_concat hu]
    split
    · exact List.prefix_append u _
    · exact List.prefix_refl _

theorem dropFinalBreak_snd_of_isBreak (t : Text) {c : Char} (hc : isBreak c = true) :
    (dropFinalBreak (t ++ [c])).2 = true := by
  rcases end_cases (t ++ [c]) with h | ⟨u, h⟩ | ⟨u, d, h, hu⟩
  · simp at h
  · rw [h, dropFinalBreak_crlf]
  · have hcd : c = d := by
      have hlast := congrArg List.getLast? h
      simpa using hlast
    rw [h, dropFinalBreak_concat hu, ← hcd, if_pos hc]

theorem dropFinalBreak_fst_of_snd_eq_false {t : Text} (h : (dropFinalBreak t).2 = false) :
    (dropFinalBreak t).1 = t := by
  rcases end_cases t with rfl | ⟨u, rfl⟩ | ⟨u, c, rfl, hu⟩
  · rfl
  · rw [dropFinalBreak_crlf] at h
    cases h
  · rw [dropFinalBreak_concat hu] at h ⊢
    split at h
    · cases h
    · rename_i hc
      rw [if_neg hc]

theorem getLast?_ending {content ending rest : Text}
    (hend : lineEnd? (ending ++ rest) = some ending) (hn : rest.head? = some '\n') :
    (content ++ ending).getLast? ≠ some '\r' := by
  obtain ⟨rfl | rfl | rfl, hr⟩ := lineEnd?_append_iff.1 hend
  · simp
  · simp
  · exact absurd hn (hr rfl)

/-- The lines of the text are those of the rest, and an empty one behind the last line end. -/
theorem lines_dropFinalBreak (t : Text) :
    t.lines = (dropFinalBreak t).1.lines ++ if (dropFinalBreak t).2 then [[]] else [] := by
  induction t using segments_induction with
  | last t ht =>
    rw [dropFinalBreak_of_hasBreak_eq_false ht, if_neg (by simp), List.append_nil]
  | line content ending rest hcon hend ih =>
    rw [lines_line hcon hend]
    cases rest with
    | nil =>
      rw [List.append_nil] at hend ⊢
      rw [dropFinalBreak_line hcon hend, lines_of_hasBreak_eq_false hcon]
      rfl
    | cons c rest =>
      have hdrop := dropFinalBreak_append (t := content ++ ending) (List.cons_ne_nil c rest)
        (getLast?_ending hend)
      have hend' := lineEnd?_of_prefix hend (isPrefix_dropFinalBreak (c :: rest))
      rw [← List.append_assoc, hdrop, List.append_assoc, lines_line hcon hend', List.cons_append,
        ← ih]

theorem dropFinalBreak_snd_iff (t : Text) :
    (dropFinalBreak t).2 = true ↔ 2 ≤ t.lines.length ∧ t.lines.getLast? = some [] := by
  induction t using segments_induction with
  | last t ht =>
    rw [dropFinalBreak_of_hasBreak_eq_false ht, lines_of_hasBreak_eq_false ht]
    simp
  | line content ending rest hcon hend ih =>
    rw [lines_line hcon hend]
    cases rest with
    | nil =>
      rw [List.append_nil] at hend ⊢
      rw [dropFinalBreak_line hcon hend]
      simp [lines, segments]
    | cons c rest =>
      have hdrop := dropFinalBreak_append (t := content ++ ending) (List.cons_ne_nil c rest)
        (getLast?_ending hend)
      have hne : lines (c :: rest) ≠ [] := lines_ne_nil _
      have hlast : (content :: lines (c :: rest)).getLast? = (lines (c :: rest)).getLast? :=
        List.getLast?_append_of_ne_nil [content] hne
      have hlen : 1 ≤ (lines (c :: rest)).length := List.length_pos_iff.2 hne
      rw [← List.append_assoc, hdrop, ih, hlast, List.length_cons]
      refine ⟨fun h => ⟨by omega, h.2⟩, fun h => ⟨?_, h.2⟩⟩
      -- A single empty line would leave no rest.
      by_contra hshort
      have hone : (lines (c :: rest)).length = 1 := by omega
      obtain ⟨l, hl⟩ := List.length_eq_one_iff.1 hone
      have hnil : lines (c :: rest) = [[]] := by
        rw [hl] at h ⊢
        simpa using h.2
      exact absurd ((lines_eq_nil_line_iff _).1 hnil) (List.cons_ne_nil c rest)

end Text

end Highlighter
