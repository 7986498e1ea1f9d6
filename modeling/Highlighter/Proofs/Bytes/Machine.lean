import Highlighter.Proofs.Bytes.Rules

/-!
# The machine on bytes

The scanning machine as it moves over bytes: an index, the start of the open block, the
kind of that block and the spans emitted so far. A byte that nothing is decided at is
passed over, and a token or a word is jumped over whole. Of any two steps at least one
moves the index, `work_step_lt`.
-/

namespace Highlighter

structure Span where
  start : Nat
  stop : Nat
  kind : Kind
  deriving DecidableEq, Repr

@[ext]
structure ByteCursor where
  index : Nat := 0
  /-- Where the open block starts. -/
  blockStart : Nat := 0
  kind : Kind
  /-- The byte before was a backslash of a literal that counts. -/
  escape : Bool := false
  breaks : Nat := 0
  /-- The spans emitted, last first. -/
  emitted : List Span := []
  deriving DecidableEq, Repr

namespace Language
variable (lang : Language) (bs : Bytes) (i : Nat)

def openingLen? : Option (Nat × Kind) :=
  ((lang.commentOpenerLen? bs i).map fun n => (n, .commentBlock)) <|>
  ((lang.lineCommentLen? bs i).map fun n => (n, .commentLine)) <|>
  ((lang.stringOpenerLen? bs i).map fun n => (n, .string)) <|>
  ((lang.charOpenerLen? bs i).map fun n => (n, .char)) <|>
  (if lang.directiveAtByte bs i then some (1, .directive) else none)

def wordLen? : Option (Nat × Kind) :=
  ((lang.keywordLen? bs i).map fun n => (n, .keyword)) <|>
  ((lang.typeLen? bs i).map fun n => (n, .type))

end Language

namespace ByteCursor

def spans (s : ByteCursor) : List Span := s.emitted.reverse

/-- Ends the open block at an offset, which the end of the text bounds. An empty block is
dropped. -/
def endBlockAt (stop : Nat) (kind : Kind) (len : Nat) (s : ByteCursor) : ByteCursor :=
  let stop := min stop len
  { s with
    emitted := if s.blockStart < stop then ⟨s.blockStart, stop, kind⟩ :: s.emitted else s.emitted
    blockStart := max stop s.blockStart }

/-- Emits a line break of `n` bytes and goes on behind it. -/
def lineBreak (offset n : Nat) (s : ByteCursor) : ByteCursor :=
  { s with
    emitted := ⟨offset, offset + n, .lineBreak⟩ :: s.emitted
    blockStart := offset + n
    index := offset + n
    breaks := s.breaks + 1 }

def moveTo (index : Nat) (s : ByteCursor) : ByteCursor := { s with index }

def setKind (kind : Kind) (s : ByteCursor) : ByteCursor := { s with kind }

def setEscape (escape : Bool) (s : ByteCursor) : ByteCursor := { s with escape }

variable (lang : Language) (bs : Bytes)

def stepDefault (b : UInt8) (s : ByteCursor) : ByteCursor :=
  let i := s.index
  match bs.lineEnd? i with
  | some n => ((s.endBlockAt i .default bs.length).lineBreak i n).setKind .default
  | none =>
    match lang.openingLen? bs i with
    | some (n, kind) =>
      (((s.endBlockAt i .default bs.length).setKind kind).setEscape false).moveTo (i + n)
    | none =>
      if !bs.atWordStart i then (s.setKind .default).moveTo (i + 1)
      else match lang.wordLen? bs i with
        | some (n, kind) =>
          (((s.endBlockAt i .default bs.length).endBlockAt (i + n) kind bs.length).setKind
            .default).moveTo (i + n)
        | none =>
          -- The number takes the digit itself.
          if Bytes.isDigitByte b then (s.endBlockAt i .default bs.length).setKind .number
          else (s.setKind .default).moveTo (i + 1)

def stepCommentBlock (s : ByteCursor) : ByteCursor :=
  let i := s.index
  match lang.commentCloserLen? bs i with
  | some n => ((s.endBlockAt (i + n) .commentBlock bs.length).setKind .default).moveTo (i + n)
  | none =>
    match bs.lineEnd? i with
    | some n => (s.endBlockAt i .commentBlock bs.length).lineBreak i n
    | none => s.moveTo (i + 1)

def stepToLineEnd (s : ByteCursor) : ByteCursor :=
  let i := s.index
  match bs.lineEnd? i with
  | some n => ((s.endBlockAt i s.kind bs.length).lineBreak i n).setKind .default
  | none => s.moveTo (i + 1)

def stepQuoted (quote : Quote) (b : UInt8) (s : ByteCursor) : ByteCursor :=
  let i := s.index
  if lang.closesByte quote b && !s.escape then
    (((s.endBlockAt (i + 1) s.kind bs.length).setKind .default).setEscape false).moveTo (i + 1)
  else if b == asciiByte '\\' && !s.escape then (s.setEscape true).moveTo (i + 1)
  else match bs.lineEnd? i with
    | some n =>
      (((s.endBlockAt i s.kind bs.length).lineBreak i n).setKind .default).setEscape false
    | none => (s.setEscape false).moveTo (i + 1)

def soFar (s : ByteCursor) : Bytes := (bs.take s.index).drop s.blockStart

def stepNumber (b : UInt8) (s : ByteCursor) : ByteCursor :=
  if Bytes.acceptsNumberByte (s.soFar bs) b then s.moveTo (s.index + 1)
  else (s.endBlockAt s.index .number bs.length).setKind .default

def stepUnformatted (s : ByteCursor) : ByteCursor :=
  let i := s.index
  match bs.lineEnd? i with
  | some n => (s.endBlockAt i .unformatted bs.length).lineBreak i n
  | none => s.moveTo (i + 1)

/-- One step. At the end of the bytes there is none to take. -/
def step (s : ByteCursor) : ByteCursor :=
  match bs[s.index]? with
  | none => s
  | some b =>
    match s.kind with
    | .commentBlock => s.stepCommentBlock lang bs
    | .commentLine | .directive => s.stepToLineEnd bs
    | .string => s.stepQuoted lang bs .string b
    | .char => s.stepQuoted lang bs .char b
    | .number => s.stepNumber bs b
    | .unformatted => s.stepUnformatted bs
    | .default | .keyword | .type | .lineBreak => s.stepDefault lang bs b

/-! ### Progress -/

section Fields
variable (s : ByteCursor)

@[simp] theorem index_endBlockAt (stop : Nat) (k : Kind) (len : Nat) :
    (s.endBlockAt stop k len).index = s.index := rfl

@[simp] theorem index_lineBreak (offset n : Nat) : (s.lineBreak offset n).index = offset + n := rfl

@[simp] theorem index_moveTo (i : Nat) : (s.moveTo i).index = i := rfl

@[simp] theorem index_setKind (k : Kind) : (s.setKind k).index = s.index := rfl

@[simp] theorem index_setEscape (e : Bool) : (s.setEscape e).index = s.index := rfl

end Fields

/-- The steps that are left, at most: three for every byte, of which a turn between the
idle state and a number may use up one each. -/
def work (s : ByteCursor) : Nat :=
  3 * (bs.length - s.index) +
    match s.kind, bs[s.index]? with
    | .default, _ | .keyword, _ | .type, _ | .lineBreak, _ => 1
    | .number, some b => if Bytes.isDigitByte b then 0 else 2
    | _, _ => 0

theorem work_le (s : ByteCursor) : s.work bs ≤ 3 * (bs.length - s.index) + 2 := by
  unfold work
  split <;> try omega
  split <;> omega

theorem le_work (s : ByteCursor) : 3 * (bs.length - s.index) ≤ s.work bs := by
  unfold work
  omega

variable {lang bs}

/-- The second cursor is further on in the bytes. -/
def Advances (bs : Bytes) (s t : ByteCursor) : Prop := s.index < t.index ∧ t.index ≤ bs.length

theorem Advances.work_lt {s t : ByteCursor} (h : s.Advances bs t) : t.work bs < s.work bs := by
  have ht := work_le bs t
  have hs := le_work bs s
  obtain ⟨hlt, hle⟩ := h
  omega

/-! What the questions find is not empty and stands in the bytes. -/

theorem lt_length_of_byteIs {i : Nat} {mark : Option Char} (h : bs.byteIs i mark = true) :
    i < bs.length := by
  unfold Bytes.byteIs at h
  split at h
  · rename_i hget
    exact (List.getElem?_eq_some_iff.1 hget).1
  · cases h

theorem lineEnd?_bounds {i n : Nat} (h : bs.lineEnd? i = some n) : 0 < n ∧ i + n ≤ bs.length := by
  unfold Bytes.lineEnd? at h
  split at h
  · cases h
  rename_i hget
  have hi : i < bs.length := (List.getElem?_eq_some_iff.1 hget).1
  split at h
  · cases h
    omega
  split at h
  · split at h
    · rename_i hnext
      have hi' : i + 1 < bs.length := (List.getElem?_eq_some_iff.1 hnext).1
      cases h
      omega
    · cases h
      omega
  · cases h

theorem token?_bounds {i n : Nat} {token : Text} (h : bs.token? i token = some n) :
    0 < n ∧ i + n ≤ bs.length := by
  unfold Bytes.token? at h
  split at h
  · rename_i hc
    simp only [Bool.and_eq_true, Bool.not_eq_true', List.isEmpty_eq_false_iff, decide_eq_true_eq]
      at hc
    obtain ⟨⟨hne, hi⟩, hprefix⟩ := hc
    have hle := (List.isPrefixOf_iff_prefix.1 hprefix).length_le
    rw [List.length_drop] at hle
    cases h
    refine ⟨?_, by omega⟩
    cases token with
    | nil => exact absurd rfl hne
    | cons c token =>
      have hpos := c.utf8Size_pos
      rw [Text.length_utf8, Text.byteSize_cons]
      omega
  · cases h

theorem openingLen?_bounds {i n : Nat} {k : Kind} (h : lang.openingLen? bs i = some (n, k)) :
    0 < n ∧ i + n ≤ bs.length := by
  unfold Language.openingLen? at h
  simp only [Option.orElse_eq_orElse, Option.orElse_eq_or, Option.or_eq_some_iff,
    Option.map_eq_some_iff, Prod.mk.injEq] at h
  rcases h with ⟨_, h, rfl, -⟩ | ⟨-, h⟩
  · obtain ⟨_, -, h⟩ := Option.bind_eq_some_iff.1 h
    exact token?_bounds h
  rcases h with ⟨_, h, rfl, -⟩ | ⟨-, h⟩
  · obtain ⟨_, -, h⟩ := Option.bind_eq_some_iff.1 h
    exact token?_bounds h
  rcases h with ⟨_, h, rfl, -⟩ | ⟨-, h⟩
  · unfold Language.stringOpenerLen? at h
    split at h
    · rename_i hmarks
      rw [Bool.and_eq_true] at hmarks
      have hi := lt_length_of_byteIs hmarks.2
      cases h
      omega
    · split at h <;> cases h
      rename_i hmark
      have hi := lt_length_of_byteIs hmark
      omega
  rcases h with ⟨_, h, rfl, -⟩ | ⟨-, h⟩
  · unfold Language.charOpenerLen? at h
    split at h
    · cases h
    · split at h <;> cases h
      rename_i hmark
      rw [Bool.and_eq_true] at hmark
      have hi := lt_length_of_byteIs hmark.1
      omega
  · split at h <;> cases h
    rename_i hmark
    rw [Language.directiveAtByte, Bool.and_eq_true] at hmark
    have hi := lt_length_of_byteIs hmark.1
    omega

theorem word?_bounds {i : Nat} {w : Bytes} (h : bs.word? i = some w) :
    0 < w.length ∧ i + w.length ≤ bs.length := by
  unfold Bytes.word? at h
  split at h
  · cases h
  dsimp only at h
  split at h
  · cases h
  rename_i hlt hne
  unfold Bytes.slice? at h
  split at h
  · rename_i hs
    cases h
    rw [List.length_take, List.length_drop]
    omega
  · cases h

theorem wordLen?_bounds {i n : Nat} {k : Kind} (h : lang.wordLen? bs i = some (n, k)) :
    0 < n ∧ i + n ≤ bs.length := by
  have key : ∀ {p : Bytes → Bool} {m : Nat},
      ((bs.word? i).filter p).map List.length = some m → 0 < m ∧ i + m ≤ bs.length := by
    intro p m hm
    obtain ⟨w, hw, rfl⟩ := Option.map_eq_some_iff.1 hm
    exact word?_bounds (Option.filter_eq_some_iff.1 hw).1
  unfold Language.wordLen? at h
  simp only [Option.orElse_eq_orElse, Option.orElse_eq_or, Option.or_eq_some_iff,
    Option.map_eq_some_iff, Prod.mk.injEq] at h
  rcases h with ⟨m, h, rfl, -⟩ | ⟨-, m, h, rfl, -⟩
  · exact key h
  · exact key h

theorem acceptsNumberByte_of_isDigitByte (soFar : Bytes) {b : UInt8}
    (h : Bytes.isDigitByte b = true) : Bytes.acceptsNumberByte soFar b = true := by
  simp [Bytes.acceptsNumberByte, Bytes.continuesNumber, h]

/-! Every handler moves the index, but for the two turns between the idle state and a
number. None moves it beyond the bytes. -/

theorem advances_of_index {s t : ByteCursor} {n : Nat} (ht : t.index = s.index + n)
    (h : 0 < n ∧ s.index + n ≤ bs.length) : s.Advances bs t := by
  unfold Advances
  omega

section Handlers
variable (s : ByteCursor) (hs : s.index < bs.length)
include hs

theorem advances_stepCommentBlock : s.Advances bs (s.stepCommentBlock lang bs) := by
  unfold stepCommentBlock
  dsimp only
  split
  · rename_i h
    obtain ⟨_, -, h⟩ := Option.bind_eq_some_iff.1 h
    exact advances_of_index rfl (token?_bounds h)
  · split
    · exact advances_of_index rfl (lineEnd?_bounds ‹_›)
    · exact advances_of_index rfl ⟨Nat.one_pos, hs⟩

theorem advances_stepToLineEnd : s.Advances bs (s.stepToLineEnd bs) := by
  unfold stepToLineEnd
  dsimp only
  split
  · exact advances_of_index rfl (lineEnd?_bounds ‹_›)
  · exact advances_of_index rfl ⟨Nat.one_pos, hs⟩

theorem advances_stepQuoted (quote : Quote) (b : UInt8) :
    s.Advances bs (s.stepQuoted lang bs quote b) := by
  unfold stepQuoted
  dsimp only
  split
  · exact advances_of_index rfl ⟨Nat.one_pos, hs⟩
  split
  · exact advances_of_index rfl ⟨Nat.one_pos, hs⟩
  split
  · exact advances_of_index rfl (lineEnd?_bounds ‹_›)
  · exact advances_of_index rfl ⟨Nat.one_pos, hs⟩

theorem advances_stepUnformatted : s.Advances bs (s.stepUnformatted bs) := by
  unfold stepUnformatted
  dsimp only
  split
  · exact advances_of_index rfl (lineEnd?_bounds ‹_›)
  · exact advances_of_index rfl ⟨Nat.one_pos, hs⟩

theorem stepDefault_cases (b : UInt8) :
    s.Advances bs (s.stepDefault lang bs b) ∨ Bytes.isDigitByte b = true ∧
      s.stepDefault lang bs b = (s.endBlockAt s.index .default bs.length).setKind .number := by
  unfold stepDefault
  dsimp only
  split
  · exact .inl (advances_of_index rfl (lineEnd?_bounds ‹_›))
  split
  · exact .inl (advances_of_index rfl (openingLen?_bounds ‹_›))
  split
  · exact .inl (advances_of_index rfl ⟨Nat.one_pos, hs⟩)
  split
  · exact .inl (advances_of_index rfl (wordLen?_bounds ‹_›))
  split
  · rename_i hd
    exact .inr ⟨hd, rfl⟩
  · exact .inl (advances_of_index rfl ⟨Nat.one_pos, hs⟩)

theorem stepNumber_cases (b : UInt8) :
    s.Advances bs (s.stepNumber bs b) ∨ Bytes.isDigitByte b = false ∧
      s.stepNumber bs b = (s.endBlockAt s.index .number bs.length).setKind .default := by
  unfold stepNumber
  split
  · exact .inl (advances_of_index rfl ⟨Nat.one_pos, hs⟩)
  · rename_i hreject
    refine .inr ⟨?_, rfl⟩
    cases hd : Bytes.isDigitByte b with
    | false => rfl
    | true => exact absurd (acceptsNumberByte_of_isDigitByte _ hd) hreject

theorem step_cases :
    s.Advances bs (s.step lang bs) ∨
      (s.kind = .default ∨ s.kind = .keyword ∨ s.kind = .type ∨ s.kind = .lineBreak) ∧
        Bytes.isDigitByte bs[s.index] = true ∧
        s.step lang bs = (s.endBlockAt s.index .default bs.length).setKind .number ∨
      s.kind = .number ∧ Bytes.isDigitByte bs[s.index] = false ∧
        s.step lang bs = (s.endBlockAt s.index .number bs.length).setKind .default := by
  have hget : bs[s.index]? = some bs[s.index] := List.getElem?_eq_getElem hs
  unfold step
  rw [hget]
  dsimp only
  cases hk : s.kind with
  | commentBlock => exact .inl (advances_stepCommentBlock s hs)
  | commentLine | directive => exact .inl (advances_stepToLineEnd s hs)
  | string | char => exact .inl (advances_stepQuoted s hs _ _)
  | unformatted => exact .inl (advances_stepUnformatted s hs)
  | number =>
    rcases stepNumber_cases s hs bs[s.index] with h | ⟨hd, h⟩
    · exact .inl h
    · exact .inr (.inr ⟨rfl, hd, h⟩)
  | default | keyword | type | lineBreak =>
    rcases stepDefault_cases s hs bs[s.index] with h | ⟨hd, h⟩
    · exact .inl h
    · exact .inr (.inl ⟨by simp, hd, h⟩)

end Handlers

theorem work_step_lt (s : ByteCursor) (hs : s.index < bs.length) :
    (s.step lang bs).work bs < s.work bs := by
  have hget : bs[s.index]? = some bs[s.index] := List.getElem?_eq_getElem hs
  rcases @step_cases lang bs s hs with h | ⟨hk, hd, h⟩ | ⟨hk, hd, h⟩
  · exact h.work_lt
  · have hkind : ((s.endBlockAt s.index .default bs.length).setKind .number).kind = .number := rfl
    rw [h]
    rcases hk with hk | hk | hk | hk <;>
      simp only [work, hkind, hk, index_setKind, index_endBlockAt, hget, hd, if_true] <;> omega
  · have hkind : ((s.endBlockAt s.index .number bs.length).setKind .default).kind = .default := rfl
    rw [h]
    simp only [work, hkind, hk, index_setKind, index_endBlockAt, hget, hd, Bool.false_eq_true,
      if_false]
    omega

/-! ### Passes -/

variable (lang bs)

def run (limit : Nat) (s : ByteCursor) : ByteCursor :=
  if h : bs.length ≤ s.index ∨ limit ≤ s.breaks then s
  else
    have : (s.step lang bs).work bs < s.work bs := work_step_lt s (by omega)
    run limit (s.step lang bs)
termination_by s.work bs

def start (highlight : Bool) : ByteCursor where
  kind := if highlight then .default else .unformatted

end ByteCursor

structure ByteScanner where
  language : Language
  bytes : Bytes
  cursor : ByteCursor
  finished : Bool := false

namespace ByteScanner

def start (language : Language) (highlight : Bool) (bytes : Bytes) : ByteScanner where
  language
  bytes
  cursor := ByteCursor.start highlight

def spans (s : ByteScanner) : List Span := s.cursor.spans

/-- Goes on until `limit` line breaks have been emitted in this pass, or to the end of the
bytes, where the open block is emitted too. -/
def advance (limit : Nat) (s : ByteScanner) : ByteScanner :=
  if s.finished then s
  else
    let cursor := s.cursor.run s.language s.bytes limit
    if s.bytes.length ≤ cursor.index then
      { s with
        cursor := cursor.endBlockAt s.bytes.length cursor.kind s.bytes.length
        finished := true }
    else { s with cursor }

def advanceAll (limits : List Nat) (s : ByteScanner) : ByteScanner :=
  limits.foldl (fun s limit => s.advance limit) s

end ByteScanner

end Highlighter
