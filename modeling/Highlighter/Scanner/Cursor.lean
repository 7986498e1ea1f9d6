import Highlighter.Block.Basic
import Highlighter.Language.Basic
import Highlighter.Scanner.Numeral

/-!
# The scanning machine

A cursor walks over a text and emits blocks. It knows the text behind it and
before it, the block being read, and what it is inside of. One step reads a
character, a lexeme or a line end, or turns between the idle state and a number
without reading. Every step brings the end of the text nearer: `work_step_lt`.

Malformed text is never an error. A string that is not closed ends with its
line, and a block comment with the text.
-/

namespace Highlighter

/-- Strings and character literals end in the same way. -/
inductive Quote where
  | string
  | char
  deriving DecidableEq, Repr

inductive Mode where
  /-- Between constructs. -/
  | idle
  | blockComment
  | lineComment
  | directive
  /-- A string or a character literal; `escaped` after a backslash that counts. -/
  | quoted (quote : Quote) (escaped : Bool)
  | number (shape : Numeral)
  /-- Highlighting is off, and only line ends part the text. -/
  | raw
  deriving DecidableEq, Repr

namespace Mode

def kind : Mode → Kind
  | .idle => .default
  | .blockComment => .commentBlock
  | .lineComment => .commentLine
  | .directive => .directive
  | .quoted .string _ => .string
  | .quoted .char _ => .char
  | .number _ => .number
  | .raw => .unformatted

end Mode

namespace Language

/-- The construct that opens at the place and the lexeme that opens it. Where several
could, the first of this list does. -/
def opening? (lang : Language) (before rest : Text) : Option (Mode × Text) :=
  ((lang.commentOpener? rest).map fun lexeme => (.blockComment, lexeme)) <|>
  ((lang.lineComment? rest).map fun lexeme => (.lineComment, lexeme)) <|>
  ((lang.stringOpener? rest).map fun lexeme => (.quoted .string false, lexeme)) <|>
  ((lang.charOpener? rest).map fun lexeme => (.quoted .char false, lexeme)) <|>
  (if lang.directiveAt before rest then some (.directive, rest.take 1) else none)

def word? (lang : Language) (rest : Text) : Option (Kind × Text) :=
  ((lang.keyword? rest).map fun word => (.keyword, word)) <|>
  ((lang.type? rest).map fun word => (.type, word))

def closes (lang : Language) : Quote → Char → Bool
  | .string => lang.closesString
  | .char => lang.closesChar

end Language

structure Cursor where
  /-- What has been read, nearest first. -/
  before : Text := []
  rest : Text
  mode : Mode
  /-- The characters of the block being read, last first. -/
  pending : Text := []
  /-- The blocks emitted, last first. -/
  emitted : Blocks := []
  breaks : Nat := 0
  deriving DecidableEq, Repr

namespace Cursor

def start (highlight : Bool) (text : Text) : Cursor where
  rest := text
  mode := if highlight then .idle else .raw

def blocks (s : Cursor) : Blocks := s.emitted.reverse

/-! ### Moves -/

def enter (mode : Mode) (s : Cursor) : Cursor := { s with mode }

/-- Reads the next `n` characters into the open block. -/
def read (n : Nat) (s : Cursor) : Cursor :=
  { s with
    before := (s.rest.take n).reverse ++ s.before
    pending := (s.rest.take n).reverse ++ s.pending
    rest := s.rest.drop n }

def flushAs (kind : Kind) (s : Cursor) : Cursor :=
  if s.pending.isEmpty then s
  else { s with pending := [], emitted := ⟨kind, s.pending.reverse⟩ :: s.emitted }

/-- Emits the open block as one of the current mode. -/
def flush (s : Cursor) : Cursor := s.flushAs s.mode.kind

/-- Ends the open block and emits the line end that comes next. -/
def breakLine (ending : Text) (s : Cursor) : Cursor :=
  let s := s.flush
  { s with
    before := (s.rest.take ending.length).reverse ++ s.before
    rest := s.rest.drop ending.length
    emitted := ⟨.lineBreak, s.rest.take ending.length⟩ :: s.emitted
    breaks := s.breaks + 1 }

/-! ### Steps -/

/-- A step between constructs: a line end, an opener, a word or a digit, in this order.
Words and numbers start only where an identifier could. -/
def stepIdle (lang : Language) (c : Char) (s : Cursor) : Cursor :=
  match lineEnd? s.rest with
  | some ending => s.breakLine ending
  | none =>
    match lang.opening? s.before s.rest with
    | some (mode, lexeme) => (s.flush.read lexeme.length).enter mode
    | none =>
      if !atWordStart s.before then s.read 1
      else match lang.word? s.rest with
        | some (kind, word) => (s.flush.read word.length).flushAs kind
        | none => if c.isDigit then s.flush.enter (.number .start) else s.read 1

/-- A step inside a block comment, which goes on after a line end. -/
def stepBlockComment (lang : Language) (s : Cursor) : Cursor :=
  match lang.commentCloser? s.rest with
  | some closer => (s.read closer.length).flush.enter .idle
  | none =>
    match lineEnd? s.rest with
    | some ending => s.breakLine ending
    | none => s.read 1

/-- A step inside a construct that ends with its line. -/
def stepToLineEnd (s : Cursor) : Cursor :=
  match lineEnd? s.rest with
  | some ending => (s.breakLine ending).enter .idle
  | none => s.read 1

/-- A step inside a literal. The delimiter closes it and a backslash escapes what
follows, unless they are escaped themselves; a line end closes it in any case. -/
def stepQuoted (lang : Language) (quote : Quote) (escaped : Bool) (c : Char) (s : Cursor) : Cursor :=
  if lang.closes quote c && !escaped then (s.read 1).flush.enter .idle
  else if c == '\\' && !escaped then (s.read 1).enter (.quoted quote true)
  else match lineEnd? s.rest with
    | some ending => (s.breakLine ending).enter .idle
    | none => (s.read 1).enter (.quoted quote false)

/-- A step inside a number. The character after the number is left to the idle state. -/
def stepNumber (shape : Numeral) (c : Char) (s : Cursor) : Cursor :=
  match shape.next? c with
  | some shape => (s.read 1).enter (.number shape)
  | none => s.flush.enter .idle

def stepRaw (s : Cursor) : Cursor :=
  match lineEnd? s.rest with
  | some ending => s.breakLine ending
  | none => s.read 1

/-- One step. At the end of the text there is none to take. -/
def step (lang : Language) (s : Cursor) : Cursor :=
  match s.rest with
  | [] => s
  | c :: _ =>
    match s.mode with
    | .idle => s.stepIdle lang c
    | .blockComment => s.stepBlockComment lang
    | .lineComment | .directive => s.stepToLineEnd
    | .quoted quote escaped => s.stepQuoted lang quote escaped c
    | .number shape => s.stepNumber shape c
    | .raw => s.stepRaw

/-! ### Progress -/

@[simp] theorem rest_enter (m : Mode) (s : Cursor) : (s.enter m).rest = s.rest := rfl

@[simp] theorem mode_enter (m : Mode) (s : Cursor) : (s.enter m).mode = m := rfl

@[simp] theorem rest_read (n : Nat) (s : Cursor) : (s.read n).rest = s.rest.drop n := rfl

@[simp] theorem mode_read (n : Nat) (s : Cursor) : (s.read n).mode = s.mode := rfl

@[simp] theorem rest_flushAs (k : Kind) (s : Cursor) : (s.flushAs k).rest = s.rest := by
  unfold flushAs; split <;> rfl

@[simp] theorem mode_flushAs (k : Kind) (s : Cursor) : (s.flushAs k).mode = s.mode := by
  unfold flushAs; split <;> rfl

@[simp] theorem rest_flush (s : Cursor) : s.flush.rest = s.rest := rest_flushAs ..

@[simp] theorem mode_flush (s : Cursor) : s.flush.mode = s.mode := mode_flushAs ..

@[simp] theorem rest_breakLine (e : Text) (s : Cursor) :
    (s.breakLine e).rest = s.rest.drop e.length := by
  simp [breakLine]

@[simp] theorem mode_breakLine (e : Text) (s : Cursor) : (s.breakLine e).mode = s.mode := by
  simp [breakLine]

/-- The steps a cursor can still take, at most: three for every character, of which a
turn between the idle state and a number may use up one each. -/
def work (s : Cursor) : Nat :=
  3 * s.rest.length +
    match s.mode, s.rest with
    | .idle, _ => 1
    | .number _, c :: _ => if c.isDigit then 0 else 2
    | _, _ => 0

theorem work_le (s : Cursor) : s.work ≤ 3 * s.rest.length + 2 := by
  unfold work
  split
  · omega
  · split <;> omega
  · omega

theorem le_work (s : Cursor) : 3 * s.rest.length ≤ s.work := by
  unfold work; omega

/-- The second cursor is further on in the text. -/
def Advances (s t : Cursor) : Prop := ∃ n, 0 < n ∧ t.rest = s.rest.drop n

/-- Reading at least one character leaves less to do, whatever comes next. -/
theorem Advances.work_lt {s t : Cursor} (h : s.Advances t) (hs : s.rest ≠ []) :
    t.work < s.work := by
  obtain ⟨n, hn, hrest⟩ := h
  have ht := work_le t
  have hs' := le_work s
  have hl : 0 < s.rest.length := List.length_pos_iff.2 hs
  rw [hrest, List.length_drop] at ht
  omega

theorem Advances.read_one (s : Cursor) : s.Advances (s.read 1) := ⟨1, Nat.one_pos, rest_read 1 s⟩

theorem opening?_ne_nil {lang : Language} {before rest : Text} {mode : Mode} {lexeme : Text}
    (hr : rest ≠ []) (h : lang.opening? before rest = some (mode, lexeme)) : lexeme ≠ [] := by
  unfold Language.opening? at h
  simp only [Option.orElse_eq_orElse, Option.orElse_eq_or, Option.or_eq_some_iff,
    Option.map_eq_some_iff, Prod.mk.injEq] at h
  rcases h with ⟨_, h, -, rfl⟩ | ⟨-, h⟩
  · obtain ⟨_, -, h⟩ := Option.bind_eq_some_iff.1 h
    exact (Language.token?_eq_some h).1
  rcases h with ⟨_, h, -, rfl⟩ | ⟨-, h⟩
  · obtain ⟨_, -, h⟩ := Option.bind_eq_some_iff.1 h
    exact (Language.token?_eq_some h).1
  rcases h with ⟨_, h, -, rfl⟩ | ⟨-, h⟩
  · unfold Language.stringOpener? at h
    split at h
    · cases h; simpa using hr
    · split at h
      · cases h; simpa using hr
      · cases h
  rcases h with ⟨_, h, -, rfl⟩ | ⟨-, h⟩
  · unfold Language.charOpener? at h
    split at h
    · cases h
    · split at h <;> cases h
      simp
  · split at h <;> cases h
    simpa using hr

theorem word?_ne_nil {lang : Language} {rest : Text} {kind : Kind} {word : Text}
    (h : lang.word? rest = some (kind, word)) : word ≠ [] := by
  unfold Language.word? at h
  simp only [Option.orElse_eq_orElse, Option.orElse_eq_or, Option.or_eq_some_iff,
    Option.map_eq_some_iff, Prod.mk.injEq] at h
  rcases h with ⟨_, h, -, rfl⟩ | ⟨-, _, h, -, rfl⟩
  · unfold Language.keyword? at h
    simp only [Option.ite_none_right_eq_some, Bool.and_eq_true] at h
    obtain ⟨⟨hw, -⟩, h⟩ := h
    cases h
    simpa using hw
  · unfold Language.type? at h
    simp only [Option.ite_none_right_eq_some, Bool.and_eq_true] at h
    obtain ⟨⟨hw, -⟩, h⟩ := h
    cases h
    simpa using hw

theorem length_lineEnd?_pos {t e : Text} (h : lineEnd? t = some e) : 0 < e.length :=
  List.length_pos_iff.2 (lineEnd?_eq_some h).1

theorem Advances.breakLine {e : Text} {s : Cursor} (h : lineEnd? s.rest = some e) :
    s.Advances (s.breakLine e) :=
  ⟨e.length, length_lineEnd?_pos h, rest_breakLine e s⟩

/-! Every step reads on, but for the two turns between the idle state and a number, which
the next character decides. -/

section Handlers
variable (lang : Language) (c : Char) (s : Cursor)

theorem stepIdle_cases (hs : s.rest ≠ []) :
    s.Advances (s.stepIdle lang c) ∨
      c.isDigit = true ∧ s.stepIdle lang c = s.flush.enter (.number .start) := by
  unfold stepIdle
  split
  · exact .inl (.breakLine ‹_›)
  split
  · rename_i h
    refine .inl ⟨_, List.length_pos_iff.2 (opening?_ne_nil hs h), ?_⟩
    rw [rest_enter, rest_read, rest_flush]
  split
  · exact .inl (.read_one s)
  split
  · rename_i h
    refine .inl ⟨_, List.length_pos_iff.2 (word?_ne_nil h), ?_⟩
    rw [rest_flushAs, rest_read, rest_flush]
  split
  · rename_i hd
    exact .inr ⟨hd, rfl⟩
  · exact .inl (.read_one s)

theorem advances_stepBlockComment : s.Advances (s.stepBlockComment lang) := by
  unfold stepBlockComment
  split
  · rename_i h
    obtain ⟨_, -, h⟩ := Option.bind_eq_some_iff.1 h
    refine ⟨_, List.length_pos_iff.2 (Language.token?_eq_some h).1, ?_⟩
    rw [rest_enter, rest_flush, rest_read]
  split
  · exact .breakLine ‹_›
  · exact .read_one s

theorem advances_stepToLineEnd : s.Advances s.stepToLineEnd := by
  unfold stepToLineEnd
  split
  · exact .breakLine ‹_›
  · exact .read_one s

theorem advances_stepQuoted (quote : Quote) (escaped : Bool) :
    s.Advances (s.stepQuoted lang quote escaped c) := by
  unfold stepQuoted
  split
  · exact ⟨1, Nat.one_pos, by rw [rest_enter, rest_flush, rest_read]⟩
  split
  · exact .read_one s
  split
  · exact .breakLine ‹_›
  · exact .read_one s

theorem stepNumber_cases (shape : Numeral) :
    s.Advances (s.stepNumber shape c) ∨
      c.isDigit = false ∧ s.stepNumber shape c = s.flush.enter .idle := by
  unfold stepNumber
  split
  · exact .inl (.read_one s)
  · rename_i hn
    refine .inr ⟨?_, rfl⟩
    cases hd : c.isDigit with
    | false => rfl
    | true => simpa [hn] using Numeral.next?_of_isDigit shape hd

theorem advances_stepRaw : s.Advances s.stepRaw := by
  unfold stepRaw
  split
  · exact .breakLine ‹_›
  · exact .read_one s

variable {c s}

theorem step_cases {rest : Text} (hr : s.rest = c :: rest) :
    s.Advances (s.step lang) ∨
      s.mode = .idle ∧ c.isDigit = true ∧ s.step lang = s.flush.enter (.number .start) ∨
      (∃ shape, s.mode = .number shape) ∧ c.isDigit = false ∧ s.step lang = s.flush.enter .idle := by
  have hs : s.rest ≠ [] := by simp [hr]
  unfold step
  rw [hr]
  dsimp only
  cases hm : s.mode with
  | idle =>
    rcases stepIdle_cases lang c s hs with h | ⟨hd, h⟩
    · exact .inl h
    · exact .inr (.inl ⟨rfl, hd, h⟩)
  | blockComment => exact .inl (advances_stepBlockComment lang s)
  | lineComment | directive => exact .inl (advances_stepToLineEnd s)
  | quoted quote escaped => exact .inl (advances_stepQuoted lang c s quote escaped)
  | number shape =>
    rcases stepNumber_cases c s shape with h | ⟨hd, h⟩
    · exact .inl h
    · exact .inr (.inr ⟨⟨shape, rfl⟩, hd, h⟩)
  | raw => exact .inl (advances_stepRaw s)

end Handlers

theorem work_step_lt (lang : Language) (s : Cursor) (hs : s.rest ≠ []) :
    (s.step lang).work < s.work := by
  obtain ⟨c, rest, hr⟩ := List.exists_cons_of_ne_nil hs
  rcases step_cases lang hr with h | ⟨hm, hd, h⟩ | ⟨⟨shape, hm⟩, hd, h⟩
  · exact h.work_lt hs
  · rw [h]
    simp [work, hr, hm, hd]
  · rw [h]
    simp [work, hr, hm, hd]

/-! ### Passes -/

/-- Steps until the end of the text, or until `limit` line breaks have been emitted. -/
def run (lang : Language) (limit : Nat) (s : Cursor) : Cursor :=
  if h : s.rest = [] ∨ limit ≤ s.breaks then s
  else
    have : (s.step lang).work < s.work := work_step_lt lang s fun hr => h (.inl hr)
    run lang limit (s.step lang)
termination_by s.work

end Cursor

end Highlighter
