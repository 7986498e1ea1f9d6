import Mathlib.Data.List.TakeWhile
import Highlighter.Scanner.Cursor
import Highlighter.Proofs.Text.Lines

/-!
# Lexemes

What the questions about a place answer, one statement for each: the lexeme stands at
the place, and in a language whose marks are free of line ends so is the lexeme.
-/

namespace Highlighter

theorem eq_of_isBreak {c : Char} (h : isBreak c = true) : c = '\n' ∨ c = '\r' := by
  simpa [isBreak] using h

theorem isBreak_of_isIdent {c : Char} (h : isIdent c = true) : isBreak c = false := by
  by_contra hb
  rcases eq_of_isBreak (by simpa using hb) with rfl | rfl <;> revert h <;> decide

theorem hasBreak_identAt (rest : Text) : (identAt rest).hasBreak = false := by
  rw [Text.hasBreak_eq_false_iff]
  intro c hc
  exact isBreak_of_isIdent (List.mem_takeWhile_imp hc)

theorem identAt_prefix (rest : Text) : identAt rest <+: rest := List.takeWhile_prefix _

namespace Language

def marks (lang : Language) : List Text :=
  (lang.blockComment.elim [] fun (opener, closer) => [opener, closer]) ++
    lang.lineComment.toList ++
    ([lang.stringDelimiter, lang.charDelimiter, lang.verbatimMark, lang.preprocessor].filterMap
      id).map fun c => [c]

def NewlineFree (lang : Language) : Prop := ∀ m ∈ lang.marks, m.hasBreak = false

instance (lang : Language) : Decidable lang.NewlineFree :=
  inferInstanceAs (Decidable (∀ m ∈ lang.marks, m.hasBreak = false))

namespace NewlineFree
variable {lang : Language} (h : lang.NewlineFree)
include h

theorem blockComment {opener closer : Text} (hb : lang.blockComment = some (opener, closer)) :
    opener.hasBreak = false ∧ closer.hasBreak = false :=
  ⟨h opener (by simp [marks, hb]), h closer (by simp [marks, hb])⟩

theorem lineComment {opener : Text} (ho : lang.lineComment = some opener) :
    opener.hasBreak = false :=
  h opener (by simp [marks, ho])

theorem char {c : Char} (hc : some c ∈ [lang.stringDelimiter, lang.charDelimiter,
    lang.verbatimMark, lang.preprocessor]) : isBreak c = false := by
  have hm : [c] ∈ lang.marks := by
    simp only [marks, List.mem_append, List.mem_map, List.mem_filterMap, id_eq]
    exact .inr ⟨c, ⟨some c, hc, rfl⟩, rfl⟩
  have hb := h [c] hm
  simpa using hb

theorem startsWith {mark : Option Char} (hm : mark ∈ [lang.stringDelimiter, lang.charDelimiter,
    lang.verbatimMark, lang.preprocessor]) {rest : Text} (hs : startsWith mark rest = true) :
    Text.hasBreak (rest.take 1) = false := by
  obtain ⟨c, rest, rfl, rfl, -⟩ := exists_of_startsWith hs
  have hb := h.char hm
  simpa using hb

end NewlineFree

/-! ### Tokens -/

theorem token?_cases {token rest lexeme : Text} (h : token? token rest = some lexeme) :
    lexeme = token ∧ token ≠ [] ∧ token <+: rest := by
  unfold token? at h
  split at h
  · rename_i hc
    simp only [Bool.and_eq_true, Bool.not_eq_true', List.isEmpty_eq_false_iff] at hc
    exact ⟨(Option.some.inj h).symm, hc.1, List.isPrefixOf_iff_prefix.1 hc.2⟩
  · cases h

/-- What every answer about a place has in common: it stands there, it is not empty, and
the language decides whether it has line ends. -/
structure Stands (lang : Language) (rest lexeme : Text) : Prop where
  pre : lexeme <+: rest
  ne_nil : lexeme ≠ []
  hasBreak : lang.NewlineFree → lexeme.hasBreak = false

namespace Stands
variable {lang : Language} {rest lexeme : Text}

theorem take_length (h : lang.Stands rest lexeme) : rest.take lexeme.length = lexeme := by
  obtain ⟨after, rfl⟩ := h.pre
  exact List.take_left

theorem length_le (h : lang.Stands rest lexeme) : lexeme.length ≤ rest.length := h.pre.length_le

end Stands

variable {lang : Language} {rest lexeme : Text}

theorem stands_commentOpener? (h : lang.commentOpener? rest = some lexeme) :
    lang.Stands rest lexeme := by
  obtain ⟨⟨opener, closer⟩, hb, ht⟩ := Option.bind_eq_some_iff.1 h
  obtain ⟨rfl, hne, hpre⟩ := token?_cases ht
  exact ⟨hpre, hne, fun hf => (hf.blockComment hb).1⟩

theorem stands_commentCloser? (h : lang.commentCloser? rest = some lexeme) :
    lang.Stands rest lexeme := by
  obtain ⟨⟨opener, closer⟩, hb, ht⟩ := Option.bind_eq_some_iff.1 h
  obtain ⟨rfl, hne, hpre⟩ := token?_cases ht
  exact ⟨hpre, hne, fun hf => (hf.blockComment hb).2⟩

theorem stands_lineComment? (h : lang.lineComment? rest = some lexeme) :
    lang.Stands rest lexeme := by
  obtain ⟨opener, hb, ht⟩ := Option.bind_eq_some_iff.1 h
  obtain ⟨rfl, hne, hpre⟩ := token?_cases ht
  exact ⟨hpre, hne, fun hf => hf.lineComment hb⟩

theorem stands_take_one {mark : Option Char} (hm : mark ∈ [lang.stringDelimiter,
    lang.charDelimiter, lang.verbatimMark, lang.preprocessor])
    (hs : startsWith mark rest = true) : lang.Stands rest (rest.take 1) := by
  refine ⟨List.take_prefix 1 rest, ?_, fun hf => hf.startsWith hm hs⟩
  obtain ⟨c, rest, rfl, -⟩ := exists_of_startsWith hs
  simp

theorem stands_stringOpener? (h : lang.stringOpener? rest = some lexeme) :
    lang.Stands rest lexeme := by
  unfold stringOpener? at h
  split at h
  · rename_i hv
    rw [Bool.and_eq_true] at hv
    cases h
    have hmark : lang.Stands rest (rest.take 1) := stands_take_one (by simp) hv.1
    obtain ⟨c, rest, rfl, -⟩ := exists_of_startsWith hv.1
    refine ⟨List.take_prefix 2 _, by simp, fun hf => ?_⟩
    have hquote : Text.hasBreak (rest.take 1) = false := hf.startsWith (by simp) hv.2
    have hfirst := hmark.hasBreak hf
    rw [List.take_succ_cons, List.take_zero] at hfirst
    rw [List.take_succ_cons, Text.hasBreak_cons, hquote]
    simpa using hfirst
  · split at h
    · rename_i hs
      cases h
      exact stands_take_one (by simp) hs
    · cases h

theorem stands_charOpener? (h : lang.charOpener? rest = some lexeme) :
    lang.Stands rest lexeme := by
  unfold charOpener? at h
  split at h
  · cases h
  · split at h
    · rename_i c after hs
      rw [Bool.and_eq_true] at hs
      cases h
      exact stands_take_one (by simp) hs.1
    · cases h

theorem stands_directive {before : Text} (h : lang.directiveAt before rest = true) :
    lang.Stands rest (rest.take 1) := by
  rw [directiveAt, Bool.and_eq_true] at h
  exact stands_take_one (by simp) h.1

/-- An opener stands at its place, and what it opens is a construct of its own. -/
theorem stands_opening? {before : Text} {mode : Mode}
    (h : lang.opening? before rest = some (mode, lexeme)) :
    lang.Stands rest lexeme ∧ mode ≠ .idle ∧ mode ≠ .raw ∧ ∀ n, mode ≠ .number n := by
  unfold opening? at h
  simp only [Option.orElse_eq_orElse, Option.orElse_eq_or, Option.or_eq_some_iff,
    Option.map_eq_some_iff, Prod.mk.injEq] at h
  rcases h with ⟨_, h, rfl, rfl⟩ | ⟨-, h⟩
  · exact ⟨stands_commentOpener? h, by simp⟩
  rcases h with ⟨_, h, rfl, rfl⟩ | ⟨-, h⟩
  · exact ⟨stands_lineComment? h, by simp⟩
  rcases h with ⟨_, h, rfl, rfl⟩ | ⟨-, h⟩
  · exact ⟨stands_stringOpener? h, by simp⟩
  rcases h with ⟨_, h, rfl, rfl⟩ | ⟨-, h⟩
  · exact ⟨stands_charOpener? h, by simp⟩
  · split at h
    · rename_i hd
      cases h
      exact ⟨stands_directive hd, by simp⟩
    · cases h

theorem mode_of_opening? {before : Text} {mode : Mode}
    (h : lang.opening? before rest = some (mode, lexeme)) :
    mode = .blockComment ∨ mode = .lineComment ∨ (∃ quote, mode = .quoted quote false) ∨
      mode = .directive := by
  unfold opening? at h
  simp only [Option.orElse_eq_orElse, Option.orElse_eq_or, Option.or_eq_some_iff,
    Option.map_eq_some_iff, Prod.mk.injEq] at h
  rcases h with ⟨_, -, rfl, -⟩ | ⟨-, ⟨_, -, rfl, -⟩ | ⟨-, ⟨_, -, rfl, -⟩ | ⟨-, ⟨_, -, rfl, -⟩ | ⟨-, h⟩⟩⟩⟩
  · exact .inl rfl
  · exact .inr (.inl rfl)
  · exact .inr (.inr (.inl ⟨_, rfl⟩))
  · exact .inr (.inr (.inl ⟨_, rfl⟩))
  · split at h
    · cases h
      exact .inr (.inr (.inr rfl))
    · cases h

theorem word?_cases {kind : Kind} {word : Text} (h : lang.word? rest = some (kind, word)) :
    word = identAt rest ∧ lang.Stands rest word ∧ kind ≠ .lineBreak := by
  have key : ∀ (table : List Text) (w : Text),
      (if !(identAt rest).isEmpty && table.contains (identAt rest) then some (identAt rest)
        else none) = some w → w = identAt rest ∧ lang.Stands rest w := by
    intro table w hw
    split at hw
    · rename_i hc
      rw [Bool.and_eq_true, Bool.not_eq_true', List.isEmpty_eq_false_iff] at hc
      cases hw
      exact ⟨rfl, identAt_prefix rest, hc.1, fun _ => hasBreak_identAt rest⟩
    · cases hw
  unfold word? at h
  simp only [Option.orElse_eq_orElse, Option.orElse_eq_or, Option.or_eq_some_iff,
    Option.map_eq_some_iff, Prod.mk.injEq] at h
  rcases h with ⟨_, h, rfl, rfl⟩ | ⟨-, _, h, rfl, rfl⟩
  · obtain ⟨hw, hst⟩ := key lang.keywords _ h
    exact ⟨hw, hst, by simp⟩
  · obtain ⟨hw, hst⟩ := key lang.types _ h
    exact ⟨hw, hst, by simp⟩

theorem kind_of_word? {word : Text} {kind : Kind}
    (h : lang.word? rest = some (kind, word)) : kind = .keyword ∨ kind = .type := by
  unfold word? at h
  simp only [Option.orElse_eq_orElse, Option.orElse_eq_or, Option.or_eq_some_iff,
    Option.map_eq_some_iff, Prod.mk.injEq] at h
  rcases h with ⟨_, -, rfl, -⟩ | ⟨-, _, -, rfl, -⟩
  · exact .inl rfl
  · exact .inr rfl

theorem isBreak_of_closes (hf : lang.NewlineFree) {quote : Quote} {c : Char}
    (h : lang.closes quote c = true) : isBreak c = false := by
  have key : Text.hasBreak [c] = false := by
    cases quote with
    | string =>
      rw [closes, closesString] at h
      exact hf.startsWith (by simp) h
    | char =>
      rw [closes, closesChar] at h
      exact hf.startsWith (by simp) h
  simpa using key

end Language

theorem Numeral.isBreak_of_next? {n m : Numeral} {c : Char} (h : n.next? c = some m) :
    isBreak c = false := by
  by_contra hb
  rcases eq_of_isBreak (by simpa using hb) with rfl | rfl <;> cases n <;> revert h <;> decide +revert

end Highlighter
