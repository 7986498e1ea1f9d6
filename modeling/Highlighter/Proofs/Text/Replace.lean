import Mathlib.Data.List.Basic
import Highlighter.Proofs.Text.Lines

/-!
# A line in the place of another

Lines with their ends are the lines of a text exactly if they are `Regular`: no line holds a
line end, each but the last is closed by one, and no end runs into what follows it. Putting
a line in the place of another keeps that, except where the new line is empty, stands behind a
bare CR and is closed by an LF: there the two ends become one CRLF.
-/

namespace Highlighter

namespace Text

/-! ### Lists of lines that are those of a text -/

theorem eq_of_lines_of_ends {segs segs' : List Segment}
    (hlines : segs.map Segment.content = segs'.map Segment.content)
    (hends : segs.map Segment.ending = segs'.map Segment.ending) : segs = segs' := by
  induction segs generalizing segs' with
  | nil => exact (List.map_eq_nil_iff.1 hlines.symm).symm
  | cons s segs ih =>
    cases segs' with
    | nil => cases hlines
    | cons s' segs' =>
      obtain ⟨hcon, hlines⟩ := List.cons.inj hlines
      obtain ⟨hend, hends⟩ := List.cons.inj hends
      have hs : s = s' := by
        cases s
        cases s'
        simp_all
      rw [hs, ih hlines hends]

theorem join_cons (s : Segment) (segs : List Segment) :
    join (s :: segs) = s.content ++ (s.ending ++ join segs) := by
  simp [join, Segment.text]

theorem join_append (segs segs' : List Segment) : join (segs ++ segs') = join segs ++ join segs' := by
  simp [join]

def Regular : List Segment → Prop
  | [] => False
  | [s] => s.content.hasBreak = false ∧ s.ending = []
  | s :: t :: segs => s.content.hasBreak = false ∧
      lineEnd? (s.ending ++ join (t :: segs)) = some s.ending ∧ Regular (t :: segs)

theorem Regular.ne_nil {segs : List Segment} (h : Regular segs) : segs ≠ [] := by
  rintro rfl
  exact h

theorem regular_cons {s : Segment} {segs : List Segment} (hne : segs ≠ []) :
    Regular (s :: segs) ↔ s.content.hasBreak = false ∧
      lineEnd? (s.ending ++ join segs) = some s.ending ∧ Regular segs := by
  cases segs with
  | nil => exact absurd rfl hne
  | cons t segs => rfl

theorem Regular.tail {s : Segment} {segs : List Segment} (h : Regular (s :: segs))
    (hne : segs ≠ []) : Regular segs := ((regular_cons hne).1 h).2.2

theorem regular_segments (t : Text) : Regular t.segments := by
  induction t using segments_induction with
  | last t ht =>
    rw [segments_of_hasBreak_eq_false ht]
    exact ⟨ht, rfl⟩
  | line content ending rest hcon hend ih =>
    rw [segments_line hcon hend, regular_cons (segments_ne_nil rest), join_segments]
    exact ⟨hcon, hend, ih⟩

theorem segments_join {segs : List Segment} (h : Regular segs) : segments (join segs) = segs := by
  induction segs with
  | nil => exact absurd rfl h.ne_nil
  | cons s segs ih =>
    rw [join_cons]
    cases segs with
    | nil =>
      obtain ⟨hcon, hend⟩ := h
      have hs : s = ⟨s.content, []⟩ := by rw [← hend]
      rw [hend, hs]
      simpa [join] using segments_of_hasBreak_eq_false hcon
    | cons t segs =>
      obtain ⟨hcon, hend, h⟩ := h
      rw [segments_line hcon hend, ih h]

/-! ### Other lines behind the same ones -/

theorem Regular.of_append {past segs : List Segment} (h : Regular (past ++ segs))
    (hne : segs ≠ []) : Regular segs := by
  induction past with
  | nil => exact h
  | cons s past ih =>
    exact ih (h.tail (List.append_ne_nil_of_right_ne_nil past hne))

/-- Only the last of the lines in front can run into what stands behind them. -/
theorem Regular.replace {past segs segs' : List Segment} (h : Regular (past ++ segs))
    (hne : segs ≠ []) (h' : Regular segs')
    (hlast : ∀ s, past.getLast? = some s → s.ending = ['\r'] → (join segs').head? ≠ some '\n') :
    Regular (past ++ segs') := by
  induction past with
  | nil => exact h'
  | cons s past ih =>
    have hne' : past ++ segs ≠ [] := List.append_ne_nil_of_right_ne_nil past hne
    have hne'' : past ++ segs' ≠ [] := List.append_ne_nil_of_right_ne_nil past h'.ne_nil
    rw [List.cons_append, regular_cons hne', lineEnd?_append_iff] at h
    rw [List.cons_append, regular_cons hne'', lineEnd?_append_iff]
    obtain ⟨hcon, ⟨hend, hhead⟩, h⟩ := h
    refine ⟨hcon, ⟨hend, ?_⟩, ?_⟩
    · intro hcr
      cases past with
      | nil => exact hlast s rfl hcr
      | cons t past =>
        -- A line with its end is not empty, so what follows it is not seen.
        have ht : t.text ≠ [] := by
          rw [List.cons_append, regular_cons (List.append_ne_nil_of_right_ne_nil past hne)] at h
          have hpos := (lineEnd?_eq_some h.2.1).1
          simp [Segment.text, hpos]
        have hsame : ∀ segs, (join (t :: past ++ segs)).head? = t.text.head? := by
          intro segs
          show (t.text ++ join (past ++ segs)).head? = _
          exact List.head?_append_of_ne_nil _ ht
        rw [hsame] at hhead ⊢
        exact hhead hcr
    · refine ih h fun t ht => hlast t ?_
      rw [List.getLast?_cons, ht]
      rfl

theorem Regular.head?_eq_lf {s : Segment} {segs : List Segment} (h : Regular (s :: segs))
    (hhead : (join (s :: segs)).head? = some '\n') : s.content = [] ∧ s.ending = ['\n'] := by
  have hcon : s.content.hasBreak = false := by
    cases segs with
    | nil => exact h.1
    | cons t segs => exact h.1
  rw [join_cons] at hhead
  cases hc : s.content with
  | cons c content =>
    rw [hc, List.cons_append, List.head?_cons, Option.some.injEq] at hhead
    rw [hc, hhead] at hcon
    cases hcon
  | nil =>
    rw [hc, List.nil_append] at hhead
    cases segs with
    | nil => simp [h.2, join] at hhead
    | cons t segs =>
      refine ⟨rfl, ?_⟩
      obtain ⟨he | he | he, -⟩ := lineEnd?_append_iff.1 h.2.1
      · exact he
      · simp [he] at hhead
      · simp [he] at hhead

/-! ### Replacing a line -/

theorem exists_of_lt_lines {t : Text} {index : Nat} (h : index < t.lines.length) :
    ∃ past s future, t.segments = past ++ s :: future ∧ past.length = index := by
  have hlen : index < t.segments.length := by simpa [lines] using h
  refine ⟨t.segments.take index, t.segments[index], t.segments.drop (index + 1), ?_, ?_⟩
  · rw [← List.drop_eq_getElem_cons hlen, List.take_append_drop]
  · rw [List.length_take]
    omega

theorem lineSpans_of_segments {t : Text} {past future : List Segment} {s : Segment}
    (h : t.segments = past ++ s :: future) :
    t.lineSpans[past.length]? =
      some ((join past).byteSize, (join past).byteSize + s.content.byteSize) := by
  have key : ∀ start, (lineSpans.go start (past ++ s :: future))[past.length]? =
      some (start + (join past).byteSize, start + (join past).byteSize + s.content.byteSize) := by
    induction past generalizing t with
    | nil => simp [lineSpans.go, join]
    | cons s' past ih =>
      intro start
      have hpast := ih (t := join (past ++ s :: future)) ?_ (start + s'.text.byteSize)
      · simpa [lineSpans.go, join, Nat.add_assoc] using hpast
      · have hreg := regular_segments t
        rw [h] at hreg
        exact segments_join (hreg.tail (List.append_ne_nil_of_right_ne_nil past (by simp)))
  have hstart := key 0
  rw [lineSpans, h]
  simpa using hstart

theorem replaceLine_of_segments {t : Text} {past future : List Segment} {s : Segment}
    (h : t.segments = past ++ s :: future) (value : Text) :
    t.replaceLine past.length value = join (past ++ { s with content := value } :: future) := by
  rw [replaceLine, h, List.modify_eq_take_drop, List.take_left, List.drop_left]
  rfl

/-- The new line stands where the bytes of the old one were cut out. -/
theorem exists_cut {t : Text} {index : Nat} (h : index < t.lines.length) (value : Text) :
    ∃ behind line ahead, t = behind ++ (line ++ ahead) ∧ t.lines[index]? = some line ∧
      t.lineSpans[index]? = some (behind.byteSize, behind.byteSize + line.byteSize) ∧
      t.replaceLine index value = behind ++ (value ++ ahead) := by
  obtain ⟨past, s, future, hsegs, rfl⟩ := exists_of_lt_lines h
  refine ⟨join past, s.content, s.ending ++ join future, ?_, ?_, lineSpans_of_segments hsegs, ?_⟩
  · have ht := join_segments t
    rw [hsegs, join_append, join_cons] at ht
    exact ht.symm
  · simp [lines, hsegs]
  · rw [replaceLine_of_segments hsegs, join_append, join_cons]

/-- The ends that close the lines; the last line has none. -/
def lineEnds (t : Text) : List Text := t.segments.map Segment.ending

/-- Whether an empty line in the place of line `index` would leave an LF behind a bare CR. -/
def FusesAt (t : Text) (index : Nat) (value : Text) : Prop :=
  value = [] ∧ ∃ past before after future,
    t.segments = past ++ ⟨before, ['\r']⟩ :: ⟨after, ['\n']⟩ :: future ∧ index = past.length + 1

theorem regular_replace {t : Text} {past future : List Segment} {s : Segment}
    (h : t.segments = past ++ s :: future) {value : Text} (hv : value.hasBreak = false)
    (hf : ¬ t.FusesAt past.length value) :
    Regular (past ++ { s with content := value } :: future) := by
  have hreg := regular_segments t
  rw [h] at hreg
  have hline := hreg.of_append (List.cons_ne_nil s future)
  have hline' : Regular ({ s with content := value } :: future) := by
    cases future with
    | nil => exact ⟨hv, hline.2⟩
    | cons next future => exact ⟨hv, hline.2⟩
  refine hreg.replace (List.cons_ne_nil s future) hline' fun before hbefore hcr hhead => hf ?_
  obtain ⟨hnil, hlf⟩ := hline'.head?_eq_lf hhead
  obtain ⟨past, rfl⟩ := List.getLast?_eq_some_iff.1 hbefore
  have hlast : past ++ [before] ++ s :: future =
      past ++ ⟨before.content, ['\r']⟩ :: ⟨s.content, ['\n']⟩ :: future := by
    simp [← hcr, ← hlf]
  exact ⟨hnil, past, before.content, s.content, future, h.trans hlast, by simp⟩

theorem lines_replaceLine {t : Text} {index : Nat} {value : Text} (hi : index < t.lines.length)
    (hv : value.hasBreak = false) (hf : ¬ t.FusesAt index value) :
    (t.replaceLine index value).lines = t.lines.set index value ∧
      (t.replaceLine index value).lineEnds = t.lineEnds := by
  obtain ⟨past, s, future, h, rfl⟩ := exists_of_lt_lines hi
  rw [replaceLine_of_segments h, lines, lineEnds, segments_join (regular_replace h hv hf), lines,
    lineEnds, h]
  simp

theorem segments_replaceLine_of_fuses {t : Text} {past future : List Segment}
    {before after : Text} (h : t.segments = past ++ ⟨before, ['\r']⟩ :: ⟨after, ['\n']⟩ :: future) :
    (t.replaceLine (past.length + 1) []).segments = past ++ ⟨before, ['\r', '\n']⟩ :: future := by
  have hreg := regular_segments t
  rw [h] at hreg
  have hpair := hreg.of_append (List.cons_ne_nil _ _)
  have hafter := hpair.tail (List.cons_ne_nil _ _)
  have hne : future ≠ [] := by
    rintro rfl
    cases hafter.2
  have hfuture := hafter.tail hne
  have hone : Regular (⟨before, ['\r', '\n']⟩ :: future) := by
    rw [regular_cons hne]
    exact ⟨hpair.1, rfl, hfuture⟩
  have hall : Regular (past ++ ⟨before, ['\r', '\n']⟩ :: future) := by
    refine hreg.replace (List.cons_ne_nil _ _) hone fun _ _ _ hhead => ?_
    cases (hone.head?_eq_lf hhead).2
  have hsplit : t.segments = (past ++ [⟨before, ['\r']⟩]) ++ ⟨after, ['\n']⟩ :: future := by
    simp [h]
  have hset := replaceLine_of_segments hsplit []
  have hjoin : join (past ++ [⟨before, ['\r']⟩] ++ ⟨[], ['\n']⟩ :: future) =
      join (past ++ ⟨before, ['\r', '\n']⟩ :: future) := by
    simp [join, Segment.text]
  rw [List.length_append, List.length_singleton] at hset
  rw [hset, hjoin, segments_join hall]

theorem lines_replaceLine_of_fusesAt {t : Text} {index : Nat} {value : Text}
    (h : t.FusesAt index value) :
    (t.replaceLine index value).lines = t.lines.eraseIdx index ∧
      (t.replaceLine index value).lineEnds =
        (t.lineEnds.set (index - 1) ['\r', '\n']).eraseIdx index := by
  obtain ⟨rfl, past, before, after, future, hsegs, rfl⟩ := h
  rw [lines, lineEnds, segments_replaceLine_of_fuses hsegs, lines, lineEnds, hsegs]
  simp [List.eraseIdx_append_of_length_le]

/-- No text has the lines and the ends that a line replaced at such a place should leave. -/
theorem lines_ne_set_of_fusesAt {t : Text} {index : Nat} {value : Text}
    (h : t.FusesAt index value) (u : Text) :
    ¬ (u.lines = t.lines.set index value ∧ u.lineEnds = t.lineEnds) := by
  obtain ⟨rfl, past, before, after, future, hsegs, rfl⟩ := h
  rintro ⟨hlines, hends⟩
  have hu : u.segments = past ++ ⟨before, ['\r']⟩ :: ⟨[], ['\n']⟩ :: future := by
    apply eq_of_lines_of_ends
    · simpa [lines, hsegs] using hlines
    · simpa [lineEnds, hsegs] using hends
  have hreg := regular_segments u
  rw [hu] at hreg
  have hpair := hreg.of_append (List.cons_ne_nil _ _)
  cases hpair.2.1

end Text

end Highlighter
