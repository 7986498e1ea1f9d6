import Highlighter.Text.LineEnd

/-!
# Lines of a text

Cutting into lines is read off from the front of the text: a character that breaks no
line goes in front of the first line, and a line end closes an empty one. From these
two equations follow the lines of a joined list, `lines_joinLines`.
-/

namespace Highlighter

/-! ### Line ends -/

theorem lineEnd?_eq_none_iff (c : Char) (t : Text) :
    lineEnd? (c :: t) = none ↔ isBreak c = false := by
  unfold lineEnd?
  split <;> simp_all [isBreak]

/-- A line end is taken whole: what follows a bare CR is no LF. -/
theorem lineEnd?_cases {t e : Text} (h : lineEnd? t = some e) :
    (e = ['\n'] ∨ e = ['\r', '\n'] ∨ e = ['\r']) ∧ ∃ rest, t = e ++ rest ∧
      (e = ['\r'] → rest.head? ≠ some '\n') := by
  unfold lineEnd? at h
  split at h <;> simp only [Option.some.injEq, reduceCtorEq] at h <;> subst h
  · simp
  · simp
  · rename_i rest hr
    refine ⟨.inr (.inr rfl), rest, rfl, fun _ hh => ?_⟩
    cases rest with
    | nil => cases hh
    | cons d rest =>
      have hd : d = '\n' := Option.some.inj hh
      exact hr rest (by rw [hd])

/-- A line end is read back as itself in front of all but one thing: an LF behind a bare CR. -/
theorem lineEnd?_append_iff {ending rest : Text} :
    lineEnd? (ending ++ rest) = some ending ↔
      (ending = ['\n'] ∨ ending = ['\r', '\n'] ∨ ending = ['\r']) ∧
        (ending = ['\r'] → rest.head? ≠ some '\n') := by
  constructor
  · intro h
    obtain ⟨he, rest', heq, hr⟩ := lineEnd?_cases h
    have hrest : rest = rest' := List.append_cancel_left heq
    subst hrest
    exact ⟨he, hr⟩
  · rintro ⟨rfl | rfl | rfl, hr⟩
    · rfl
    · rfl
    · have hr := hr rfl
      cases rest with
      | nil => rfl
      | cons c rest =>
        have hc : c ≠ '\n' := by simpa using hr
        simp [lineEnd?, hc]

theorem isBreak_head_of_lineEnd? {t e : Text} (h : lineEnd? t = some e) :
    ∃ b rest, t = b :: rest ∧ isBreak b = true := by
  obtain ⟨he, rest, rfl, -⟩ := lineEnd?_cases h
  rcases he with rfl | rfl | rfl <;> exact ⟨_, _, rfl, rfl⟩

namespace Text

@[simp] theorem hasBreak_nil : hasBreak [] = false := rfl

@[simp] theorem hasBreak_cons (c : Char) (t : Text) :
    hasBreak (c :: t) = (isBreak c || hasBreak t) := rfl

@[simp] theorem hasBreak_append (t u : Text) : hasBreak (t ++ u) = (hasBreak t || hasBreak u) := by
  simp [hasBreak]

@[simp] theorem hasBreak_reverse (t : Text) : hasBreak t.reverse = hasBreak t := by
  simp [hasBreak]

theorem hasBreak_eq_false_iff {t : Text} : hasBreak t = false ↔ ∀ c ∈ t, isBreak c = false := by
  simp [hasBreak]

/-! ### Cutting from the front -/

def openWith (t : Text) (segs : List Segment) : List Segment := t.foldr Segment.consFirst segs

@[simp] theorem openWith_nil (segs : List Segment) : openWith [] segs = segs := rfl

theorem openWith_append (t u : Text) (segs : List Segment) :
    openWith (t ++ u) segs = openWith t (openWith u segs) := by
  simp [openWith]

theorem openWith_cons (t : Text) (s : Segment) (segs : List Segment) :
    openWith t (s :: segs) = { s with content := t ++ s.content } :: segs := by
  induction t with
  | nil => rfl
  | cons c t ih =>
    rw [show c :: t = [c] ++ t from rfl, openWith_append, ih]
    rfl

theorem segments_cons {c : Char} (hc : isBreak c = false) (t : Text) :
    segments (c :: t) = Segment.consFirst c (segments t) := by
  have hr : c ≠ '\r' := by
    rintro rfl
    cases hc
  rw [segments]
  · rw [if_neg (by simp [hc])]
  · rintro t' rfl -
    exact hr rfl

theorem segments_append {t : Text} (ht : hasBreak t = false) (u : Text) :
    segments (t ++ u) = openWith t (segments u) := by
  induction t with
  | nil => rfl
  | cons c t ih =>
    simp only [hasBreak_cons, Bool.or_eq_false_iff] at ht
    rw [List.cons_append, segments_cons ht.1, ih ht.2]
    rfl

theorem segments_lineEnd {t e : Text} (h : lineEnd? t = some e) :
    segments t = ⟨[], e⟩ :: segments (t.drop e.length) := by
  obtain ⟨he, rest, rfl, hr⟩ := lineEnd?_cases h
  rw [List.drop_left]
  rcases he with rfl | rfl | rfl
  · rw [List.cons_append, List.nil_append, segments]
    · rfl
    · rintro _ ⟨⟩
  · rfl
  · have hr' : ∀ rest', rest = '\n' :: rest' → False := by
      rintro rest' rfl
      exact hr rfl rfl
    rw [List.cons_append, List.nil_append, segments]
    · rfl
    · rintro t' - rfl
      exact hr' t' rfl

theorem segments_of_hasBreak_eq_false {t : Text} (ht : hasBreak t = false) :
    segments t = [⟨t, []⟩] := by
  have h := segments_append ht []
  rw [List.append_nil] at h
  rw [h, segments, openWith_cons, List.append_nil]

/-- The first line of a text is all of it, or it ends where the first line end is. -/
theorem segments_cases (t : Text) :
    (hasBreak t = false ∧ segments t = [⟨t, []⟩]) ∨
    ∃ content ending rest, t = content ++ (ending ++ rest) ∧ hasBreak content = false ∧
      lineEnd? (ending ++ rest) = some ending ∧
      segments t = ⟨content, ending⟩ :: segments rest := by
  induction t with
  | nil => exact .inl ⟨rfl, rfl⟩
  | cons c t ih =>
    by_cases hc : isBreak c = true
    · cases he : lineEnd? (c :: t) with
      | none =>
        rw [lineEnd?_eq_none_iff] at he
        rw [he] at hc
        cases hc
      | some e =>
        obtain ⟨-, rest, hrest⟩ := lineEnd?_eq_some he
        refine .inr ⟨[], e, rest, hrest, rfl, hrest ▸ he, ?_⟩
        rw [segments_lineEnd he, hrest, List.drop_left]
    · have hc : isBreak c = false := by simpa using hc
      rcases ih with ⟨ht, hs⟩ | ⟨content, ending, rest, rfl, hcon, hend, hs⟩
      · refine .inl ⟨by simp [hc, ht], ?_⟩
        rw [segments_cons hc, hs]
        rfl
      · refine .inr ⟨c :: content, ending, rest, rfl, by simp [hc, hcon], hend, ?_⟩
        rw [segments_cons hc, hs]
        rfl

/-- Induction over a text line by line. -/
theorem segments_induction {P : Text → Prop} (last : ∀ t, hasBreak t = false → P t)
    (line : ∀ content ending rest, hasBreak content = false →
      lineEnd? (ending ++ rest) = some ending → P rest → P (content ++ (ending ++ rest)))
    (t : Text) : P t := by
  have key : ∀ n (t : Text), t.length = n → P t := by
    intro n
    refine Nat.strongRecOn n (fun n ih => ?_)
    intro t hn
    rcases segments_cases t with ⟨ht, -⟩ | ⟨content, ending, rest, rfl, hcon, hend, -⟩
    · exact last t ht
    · have he : 0 < ending.length := List.length_pos_iff.2 (lineEnd?_eq_some hend).1
      have hlt : rest.length < n := by
        simp only [List.length_append] at hn
        omega
      exact line content ending rest hcon hend (ih rest.length hlt rest rfl)
  exact key t.length t rfl

theorem segments_line {content ending rest : Text} (hcon : hasBreak content = false)
    (hend : lineEnd? (ending ++ rest) = some ending) :
    segments (content ++ (ending ++ rest)) = ⟨content, ending⟩ :: segments rest := by
  rw [segments_append hcon, segments_lineEnd hend, List.drop_left, openWith_cons, List.append_nil]

/-! ### Lines -/

theorem lines_line {content ending rest : Text} (hcon : hasBreak content = false)
    (hend : lineEnd? (ending ++ rest) = some ending) :
    lines (content ++ (ending ++ rest)) = content :: lines rest := by
  simp [lines, segments_line hcon hend]

theorem lines_of_hasBreak_eq_false {t : Text} (ht : hasBreak t = false) : lines t = [t] := by
  simp [lines, segments_of_hasBreak_eq_false ht]

theorem lines_eq_nil_line_iff (t : Text) : t.lines = [[]] ↔ t = [] := by
  constructor
  · intro h
    induction t using segments_induction with
    | last t ht =>
      rw [lines_of_hasBreak_eq_false ht] at h
      exact List.singleton_inj.1 h
    | line content ending rest hcon hend ih =>
      rw [lines_line hcon hend] at h
      exact absurd (List.cons.inj h).2 (lines_ne_nil rest)
  · rintro rfl
    rfl

theorem hasBreak_of_mem_lines {t l : Text} (h : l ∈ lines t) : hasBreak l = false := by
  induction t using segments_induction with
  | last t ht =>
    rw [lines_of_hasBreak_eq_false ht, List.mem_singleton] at h
    rw [h, ht]
  | line content ending rest hcon hend ih =>
    rw [lines_line hcon hend] at h
    rcases List.mem_cons.1 h with rfl | h
    · exact hcon
    · exact ih h

end Text

namespace Terminator

theorem lineEnd?_text_append (terminator : Terminator) (t : Text) :
    lineEnd? (terminator.text ++ t) = some terminator.text := by
  cases terminator <;> rfl

theorem joinLines_singleton (terminator : Terminator) (l : Text) : terminator.joinLines [l] = l := by
  simp [joinLines]

theorem joinLines_cons_cons (terminator : Terminator) (l m : Text) (ls : List Text) :
    terminator.joinLines (l :: m :: ls) =
      l ++ (terminator.text ++ terminator.joinLines (m :: ls)) := by
  simp [joinLines, List.intercalate]

/-- Splitting undoes joining, whatever the terminator. -/
theorem lines_joinLines (terminator : Terminator) {ls : List Text} (hne : ls ≠ [])
    (hls : ∀ l ∈ ls, l.hasBreak = false) : (terminator.joinLines ls).lines = ls := by
  induction ls with
  | nil => exact absurd rfl hne
  | cons l ls ih =>
    have hl : l.hasBreak = false := hls l (List.mem_cons_self ..)
    cases ls with
    | nil => rw [joinLines_singleton, Text.lines_of_hasBreak_eq_false hl]
    | cons m ls =>
      have htail := ih (List.cons_ne_nil _ _) fun x hx => hls x (List.mem_cons_of_mem _ hx)
      rw [joinLines_cons_cons, Text.lines_line hl (lineEnd?_text_append ..), htail]

end Terminator

end Highlighter
