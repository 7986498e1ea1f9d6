import Highlighter.Language.Builtin
import Highlighter.Proofs.Document.Edit

/-!
# Edits in the middle of a build

An edit that sets, inserts above or deletes takes an unfinished build to its end before it
looks at the index. One that inserts below does not: it looks at the lines built so far, and
only then goes on as one that inserts above the line after. So it refuses the lines to come,
which the others accept, and agrees with them exactly where no line is to come.
-/

namespace Highlighter

/-! ### The lines of an unfinished build -/

namespace Cache

/-- A line that stands in for an unfinished build is the only one. -/
def StandsAlone (c : Cache) : Prop :=
  c.complete = false → c.standIn = true → c.lines = [Line.empty]

theorem standsAlone_of_complete {c : Cache} (hc : c.complete = true) : c.StandsAlone := by
  intro h
  rw [hc] at h
  cases h

theorem StandsAlone.buildNext {c : Cache} (h : c.StandsAlone) (count : Nat) :
    (c.buildNext count).StandsAlone := by
  cases hc : c.complete with
  | true => rwa [buildNext_of_complete hc]
  | false =>
    intro _ hs
    rw [standIn_buildNext hc] at hs
    rw [lines_buildNext hc, if_pos hs]

theorem StandsAlone.perform {c : Cache} (h : c.StandsAlone) (hs : c.Sound) (op : Operation) :
    (c.perform op).1.StandsAlone := by
  cases hop : op.finishes with
  | true => exact standsAlone_of_complete (complete_perform hs hop)
  | false =>
    cases op with
    | «begin» text => exact fun _ _ => lines_begin c text
    | buildNext count => exact h.buildNext count
    | setTerminator terminator | setTabWidth tabWidth => exact h
    | _ => cases hop

theorem Reachable.standsAlone {c : Cache} (h : c.Reachable) : c.StandsAlone := by
  induction h with
  | new language markup => exact standsAlone_of_complete rfl
  | perform op hc ih => exact ih.perform hc.sound op

theorem StandsAlone.length_le_buildNext {c : Cache} (h : c.StandsAlone) (count : Nat) :
    c.lines.length ≤ (c.buildNext count).lines.length := by
  cases hc : c.complete with
  | true => rw [buildNext_of_complete hc]
  | false =>
    cases hs : c.standIn with
    | false => exact (lines_prefix_buildNext hs count).length_le
    | true =>
      rw [h hc hs, lines_buildNext hc]
      split
      · exact Nat.le_refl 1
      · rename_i hne
        exact List.length_pos_iff.2 (by simpa using hne)

theorem StandsAlone.length_le_finish {c : Cache} (h : c.StandsAlone) :
    c.lines.length ≤ c.finish.lines.length := h.length_le_buildNext _

end Cache

/-! ### Where edits are accepted -/

namespace Document
variable (d : Document) (index : Nat) (value : Text)

theorem edit_snd (r : Edited Cache) : (d.edit r).2 = r.2 := by
  obtain ⟨c, error⟩ := r
  cases error with
  | none | some e => rfl

/-- The error of an edit by the lines that are counted, if the index is not one of them. -/
def refusal (index count : Nat) : Option Error :=
  if index < count then none else some (.outOfRange index count)

theorem refusal_eq_none_iff {index count : Nat} : refusal index count = none ↔ index < count := by
  rw [refusal]
  split <;> simp [*]

theorem setLine_snd : (d.setLine index value).2 = refusal index d.cache.finish.lines.length := by
  rw [setLine, edit_snd, Cache.setLine_eq, refusal]
  split <;> rfl

theorem deleteLine_snd : (d.deleteLine index).2 = refusal index d.cache.finish.lines.length := by
  rw [deleteLine, edit_snd, Cache.removeAt_eq, refusal]
  split <;> rfl

theorem insertAbove_snd_succ :
    (d.insertAbove (index + 1) value).2 = none ↔ index < d.cache.finish.lines.length := by
  rw [insertAbove, edit_snd, Cache.insertAt_eq]
  by_cases h : index < d.cache.finish.lines.length
  · rw [if_pos (Nat.succ_le_of_lt h)]
    exact iff_of_true rfl h
  · rw [if_neg (by omega)]
    exact iff_of_false (fun hn => nomatch hn) h

theorem insertBelow_eq :
    d.insertBelow index value =
      if index < d.cache.lines.length then d.insertAbove (index + 1) value
      else (d, some (.outOfRange index d.cache.lines.length)) := by
  rw [insertBelow]
  by_cases h : index < d.cache.lines.length
  · rw [if_pos h, if_neg (Nat.not_le.2 h)]
    rfl
  · rw [if_neg h, if_pos (Nat.not_lt.1 h)]

theorem insertBelow_snd (h : d.cache.lines.length ≤ d.cache.finish.lines.length) :
    (d.insertBelow index value).2 = refusal index d.cache.lines.length := by
  rw [insertBelow_eq, refusal]
  by_cases hlt : index < d.cache.lines.length
  · rw [if_pos hlt, if_pos hlt]
    exact (insertAbove_snd_succ d index value).2 (Nat.lt_of_lt_of_le hlt h)
  · rw [if_neg hlt, if_neg hlt]

/-- Below a line a text goes in exactly if that line has been built, and then as above the line
after. The other edits count the lines of the whole document, and so they accept the same
indices exactly if no line is to come. -/
theorem insertBelow_counts_built_lines {d : Document} (h : d.cache.Reachable) :
    let built := d.cache.lines.length
    let count := d.cache.finish.lines.length
    built ≤ count ∧ (d.cache.complete = true → built = count) ∧
      (∀ index value, d.insertBelow index value =
        if index < built then d.insertAbove (index + 1) value
        else (d, some (.outOfRange index built))) ∧
      (∀ index value, (d.insertBelow index value).2 = refusal index built ∧
        (d.setLine index value).2 = refusal index count ∧
        (d.deleteLine index).2 = refusal index count) ∧
      ((∀ index value, (d.insertBelow index value).2 = none ↔ (d.setLine index value).2 = none) ↔
        built = count) := by
  intro built count
  have hle : built ≤ count := h.standsAlone.length_le_finish
  refine ⟨hle, ?_, ?_, ?_, ?_⟩
  · intro hc
    show d.cache.lines.length = d.cache.finish.lines.length
    rw [Cache.finish_of_complete hc]
  · exact insertBelow_eq d
  · intro index value
    exact ⟨insertBelow_snd d index value hle, setLine_snd d index value, deleteLine_snd d index⟩
  · simp only [insertBelow_snd d _ _ hle, setLine_snd, refusal_eq_none_iff]
    constructor
    · intro hagree
      -- The first line to come, if there is one, tells the two apart.
      have hnot : ¬ built < count := fun hlt => Nat.lt_irrefl built ((hagree built []).2 hlt)
      exact Nat.le_antisymm hle (Nat.not_lt.1 hnot)
    · intro heq index _
      show index < built ↔ index < count
      rw [heq]

/-- Two of three lines are built: below the second a text goes in, below the third it does not. -/
theorem insertBelow_counts_built_lines_two :
    let cache := ((Cache.new Language.c .plain).begin "a /*\nb\nc".toList).buildNext 2
    let d := scratch cache
    cache.Reachable ∧ cache.complete = false ∧
      d.insertBelow 1 "*/".toList = d.insertAbove 2 "*/".toList ∧
      d.insertBelow 2 "*/".toList = (d, some (.outOfRange 2 2)) ∧
      (d.setLine 2 "*/".toList).2 = none ∧ (d.deleteLine 3).2 = some (.outOfRange 3 3) := by
  intro cache d
  have hr : cache.Reachable := .perform (.buildNext 2) (.perform (.begin _) (.new _ _))
  obtain ⟨hc, hbuilt, hcount⟩ : cache.complete = false ∧ d.cache.lines.length = 2 ∧
      d.cache.finish.lines.length = 3 := by
    decide +kernel
  obtain ⟨-, -, hbelow, hrefusal, -⟩ := insertBelow_counts_built_lines (d := d) hr
  rw [hbuilt] at hbelow
  rw [hcount] at hrefusal
  exact ⟨hr, hc, hbelow 1 _, hbelow 2 _, (hrefusal 2 _).2.1, (hrefusal 3 []).2.2⟩

/-- One of three lines is built: the second cannot be inserted below, though it can be set and
deleted, and a text can go in above the third. -/
theorem insertBelow_refuses_lines_to_come :
    let cache := ((Cache.new Language.c .plain).begin "a\nb\nc".toList).buildNext 1
    let d := scratch cache
    cache.Reachable ∧ Language.c.NewlineFree ∧ d.cache.finish.lines.length = 3 ∧
      d.insertBelow 1 "x".toList = (d, some (.outOfRange 1 1)) ∧
      (d.insertAbove 2 "x".toList).2 = none ∧ (d.setLine 1 "x".toList).2 = none ∧
      (d.deleteLine 1).2 = none ∧
      ¬ ((d.insertBelow 1 "x".toList).2 = none ↔ 1 < d.cache.finish.lines.length) := by
  intro cache d
  have hr : cache.Reachable := .perform (.buildNext 1) (.perform (.begin _) (.new _ _))
  obtain ⟨hbuilt, hcount⟩ : d.cache.lines.length = 1 ∧ d.cache.finish.lines.length = 3 := by
    decide +kernel
  have hbelow : d.insertBelow 1 "x".toList = (d, some (.outOfRange 1 1)) := by
    rw [insertBelow_eq, hbuilt]
    rfl
  have habove : (d.insertAbove 2 "x".toList).2 = none := by
    rw [insertAbove_snd_succ, hcount]
    decide
  have hset : (d.setLine 1 "x".toList).2 = none := by
    rw [setLine_snd, hcount]
    rfl
  have hdelete : (d.deleteLine 1).2 = none := by
    rw [deleteLine_snd, hcount]
    rfl
  refine ⟨hr, by decide, hcount, hbelow, habove, hset, hdelete, ?_⟩
  rw [hbelow, hcount]
  decide

end Document

end Highlighter
