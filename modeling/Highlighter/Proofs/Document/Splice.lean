import Highlighter.Proofs.Document.Edit
import Highlighter.Proofs.Text.Terminator

/-!
# Edits in a text

An edit of a list of lines is a splice of the text that they make with a terminator between
them: a line is put in, taken out or both, with at most one terminator next to it, and all of
the text before and behind it stays as it is.
-/

namespace Highlighter

namespace Terminator
variable (terminator : Terminator)

/-- A line by itself or with a terminator at one of its sides, or nothing of it. -/
def around (l : Text) : List Text := [[], l, l ++ terminator.text, terminator.text ++ l]

/-- Between the same texts one stretch takes the place of another. -/
def Spliced (old new : Text) (t t' : Text) : Prop :=
  ∃ before cut put after, t = before ++ (cut ++ after) ∧ t' = before ++ (put ++ after) ∧
    cut ∈ terminator.around old ∧ put ∈ terminator.around new

@[simp] theorem mem_around_iff (l t : Text) : t ∈ terminator.around l ↔
    t = [] ∨ t = l ∨ t = l ++ terminator.text ∨ t = terminator.text ++ l := by
  simp [around]

variable {terminator}

theorem Spliced.append {old new t t' : Text} (h : terminator.Spliced old new t t') (u : Text) :
    terminator.Spliced old new (t ++ u) (t' ++ u) := by
  obtain ⟨before, cut, put, after, rfl, rfl, hcut, hput⟩ := h
  refine ⟨before, cut, put, after ++ u, ?_, ?_, hcut, hput⟩
  · simp only [List.append_assoc]
  · simp only [List.append_assoc]

variable (terminator)

/-! ### One line among others -/

theorem spliced_set (ls : List Text) (l v : Text) (ms : List Text) :
    terminator.Spliced l v (terminator.joinLines (ls ++ l :: ms))
      (terminator.joinLines (ls ++ v :: ms)) := by
  rw [joinLines_append _ ls (List.cons_ne_nil l ms), joinLines_append _ ls (List.cons_ne_nil v ms)]
  cases ms with
  | nil =>
    rw [joinLines_singleton, joinLines_singleton]
    refine ⟨ls.flatMap fun l => l ++ terminator.text, l, v, [], ?_, ?_, by simp, by simp⟩
    · rw [List.append_nil]
    · rw [List.append_nil]
  | cons m ms =>
    rw [joinLines_cons_cons, joinLines_cons_cons]
    exact ⟨ls.flatMap fun l => l ++ terminator.text, l, v,
      terminator.text ++ terminator.joinLines (m :: ms), rfl, rfl, by simp, by simp⟩

/-- A new line comes with the terminator behind it, or before it at the end. -/
theorem spliced_insert (old v : Text) {ls ms : List Text} (hne : ls ++ ms ≠ []) :
    terminator.Spliced old v (terminator.joinLines (ls ++ ms))
      (terminator.joinLines (ls ++ v :: ms)) := by
  cases ms with
  | nil =>
    rw [List.append_nil] at hne ⊢
    refine ⟨terminator.joinLines ls, [], terminator.text ++ v, [], ?_, ?_, by simp, by simp⟩
    · rw [List.append_nil, List.append_nil]
    · rw [joinLines_concat _ hne, List.append_nil]
  | cons m ms =>
    rw [joinLines_append _ ls (List.cons_ne_nil m ms), joinLines_append _ ls (List.cons_ne_nil v _),
      joinLines_cons_cons]
    refine ⟨ls.flatMap fun l => l ++ terminator.text, [], v ++ terminator.text,
      terminator.joinLines (m :: ms), rfl, ?_, by simp, by simp⟩
    rw [List.append_assoc]

/-- A line goes with the terminator behind it, or with the one before it if it is the last. -/
theorem spliced_delete (ls : List Text) (l : Text) (ms : List Text) :
    terminator.Spliced l [] (terminator.joinLines (ls ++ l :: ms))
      (terminator.joinLines (ls ++ ms)) := by
  cases ms with
  | nil =>
    rw [List.append_nil]
    by_cases hne : ls = []
    · subst hne
      rw [List.nil_append, joinLines_singleton]
      exact ⟨[], l, [], [], (List.append_nil l).symm, rfl, by simp, by simp⟩
    · refine ⟨terminator.joinLines ls, terminator.text ++ l, [], [], ?_, ?_, by simp, by simp⟩
      · rw [joinLines_concat _ hne, List.append_nil]
      · rw [List.append_nil, List.append_nil]
  | cons m ms =>
    rw [joinLines_append _ ls (List.cons_ne_nil l _), joinLines_append _ ls (List.cons_ne_nil m ms),
      joinLines_cons_cons]
    refine ⟨ls.flatMap fun l => l ++ terminator.text, l ++ terminator.text, [],
      terminator.joinLines (m :: ms), ?_, rfl, by simp, by simp⟩
    rw [List.append_assoc]

end Terminator

namespace Document.Edit

theorem exists_append_of_lt {ls : List Text} {index : Nat} (h : index < ls.length) :
    ∃ as l bs, ls = as ++ l :: bs ∧ as.length = index ∧ ls.getD index [] = l := by
  refine ⟨ls.take index, ls[index], ls.drop (index + 1), ?_, List.length_take_of_le h.le, ?_⟩
  · rw [← List.drop_eq_getElem_cons h, List.take_append_drop]
  · rw [List.getD_eq_getElem?_getD, List.getElem?_eq_getElem h, Option.getD_some]

theorem spliced_insertIdx (terminator : Terminator) (old v : Text) {ls : List Text} (hne : ls ≠ [])
    {index : Nat} (h : index ≤ ls.length) :
    terminator.Spliced old v (terminator.joinLines ls)
      (terminator.joinLines (ls.insertIdx index v)) := by
  have hsplit := List.take_append_drop index ls
  rw [insertIdx_eq_take_append_cons_drop h]
  rw [← hsplit] at hne
  have hspliced := terminator.spliced_insert old v hne
  rwa [hsplit] at hspliced

theorem joinLines_withoutLine (terminator : Terminator) (ls : List Text) (index : Nat) :
    terminator.joinLines (Cache.withoutLine ls index) =
      terminator.joinLines (ls.eraseIdx index) := by
  rw [Cache.withoutLine]
  cases ls.eraseIdx index with
  | nil => rfl
  | cons l ls => rfl

/-- Of the text of the lines, an edit changes its line and a terminator next to it. -/
theorem spliced_applyTo (terminator : Terminator) {ls : List Text} (hne : ls ≠ []) (e : Edit)
    (he : e.InRange ls.length) :
    terminator.Spliced (ls.getD e.index []) e.value (terminator.joinLines ls)
      (terminator.joinLines (e.applyTo ls)) := by
  cases e with
  | setLine index value =>
    obtain ⟨as, l, bs, rfl, rfl, hl⟩ := exists_append_of_lt he
    have hset : (as ++ l :: bs).set as.length value = as ++ value :: bs := by
      rw [List.set_append_right _ _ (Nat.le_refl _), Nat.sub_self, List.set_cons_zero]
    show terminator.Spliced ((as ++ l :: bs).getD as.length []) value _
      (terminator.joinLines ((as ++ l :: bs).set as.length value))
    rw [hl, hset]
    exact terminator.spliced_set as l value bs
  | insertAbove index value => exact spliced_insertIdx terminator _ value hne he
  | insertBelow index value => exact spliced_insertIdx terminator _ value hne he
  | deleteLine index =>
    obtain ⟨as, l, bs, rfl, rfl, hl⟩ := exists_append_of_lt he
    have herase : (as ++ l :: bs).eraseIdx as.length = as ++ bs := by
      rw [List.eraseIdx_append_of_length_le (Nat.le_refl _), Nat.sub_self, List.eraseIdx_cons_zero]
    show terminator.Spliced ((as ++ l :: bs).getD as.length []) [] _
      (terminator.joinLines (Cache.withoutLine (as ++ l :: bs) as.length))
    rw [joinLines_withoutLine, hl, herase]
    exact terminator.spliced_delete as l bs

end Document.Edit

end Highlighter
