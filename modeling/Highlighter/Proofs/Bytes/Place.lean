import Highlighter.Proofs.Bytes.Rules
import Highlighter.Proofs.Language.Lexeme

/-!
# Places between characters

A place is an offset with the characters before it and after it. The byte at a place is
the first byte of the next character, which tells all that is asked of a single byte.
-/

namespace Highlighter

namespace Text

theorem byteSize_reverse (t : Text) : byteSize t.reverse = byteSize t := by
  induction t with
  | nil => rfl
  | cons c t ih =>
    rw [List.reverse_cons, byteSize_append, ih, byteSize_cons, byteSize_cons, byteSize_nil]
    omega

theorem byteSize_eq_zero_iff (t : Text) : byteSize t = 0 ↔ t = [] := by
  cases t with
  | nil => simp
  | cons c t =>
    have hpos := c.utf8Size_pos
    simp only [byteSize_cons, reduceCtorEq, iff_false]
    omega

theorem length_le_byteSize (t : Text) : t.length ≤ byteSize t := by
  induction t with
  | nil => exact Nat.le_refl 0
  | cons c t ih =>
    have hpos := c.utf8Size_pos
    rw [List.length_cons, byteSize_cons]
    omega

end Text

/-! ### ASCII -/

theorem toNat_asciiByte {c : Char} (hc : isAscii c = true) : (asciiByte c).toNat = c.toNat := by
  have hlt := (isAscii_iff c).1 hc
  have hmod : c.toNat % 256 = c.toNat := Nat.mod_eq_of_lt (by omega)
  simp [asciiByte, hmod]

theorem asciiByte_inj {c d : Char} (hc : isAscii c = true) (hd : isAscii d = true) :
    asciiByte c = asciiByte d ↔ c = d := by
  constructor
  · intro h
    have hn := congrArg UInt8.toNat h
    rw [toNat_asciiByte hc, toNat_asciiByte hd] at hn
    exact Char.toNat_inj.1 hn
  · rintro rfl
    rfl

/-- What holds of the 128 ASCII bytes one by one holds of the ASCII characters. -/
theorem asciiByte_cases {p : UInt8 → Bool} {q : Char → Bool}
    (h : ∀ n < 128, p (UInt8.ofNat n) = q (Char.ofNat n)) {c : Char} (hc : isAscii c = true) :
    p (asciiByte c) = q c := by
  have hn := h c.toNat ((isAscii_iff c).1 hc)
  rw [Char.ofNat_toNat] at hn
  exact hn

namespace Bytes

theorem isTail_iff (b : UInt8) : isTail b = true ↔ 128 ≤ b.toNat ∧ b.toNat < 192 := by
  simp [isTail, UInt8.le_iff_toNat_le, UInt8.lt_iff_toNat_lt]

theorem ne_asciiByte {b : UInt8} (hb : 128 ≤ b.toNat) {d : Char} (hd : isAscii d = true) :
    b ≠ asciiByte d := by
  rintro rfl
  have hlt := (isAscii_iff d).1 hd
  rw [toNat_asciiByte hd] at hb
  omega

theorem isIdentByte_of_beyond {b : UInt8} (hb : 128 ≤ b.toNat) : isIdentByte b = true := by
  have hle : (0x80 : UInt8) ≤ b := by
    rw [UInt8.le_iff_toNat_le]
    exact hb
  simp [isIdentByte, hle]

theorem isBreakByte_of_beyond {b : UInt8} (hb : 128 ≤ b.toNat) : isBreakByte b = false := by
  have hn := ne_asciiByte hb (d := '\n') rfl
  have hr := ne_asciiByte hb (d := '\r') rfl
  simp [isBreakByte, hn, hr]

theorem isIdentByte_asciiByte {c : Char} (hc : isAscii c = true) :
    isIdentByte (asciiByte c) = isIdent c :=
  asciiByte_cases (by decide +kernel) hc

theorem isBreakByte_asciiByte {c : Char} (hc : isAscii c = true) :
    isBreakByte (asciiByte c) = isBreak c :=
  asciiByte_cases (by decide +kernel) hc

theorem isDigitByte_asciiByte {c : Char} (hc : isAscii c = true) :
    isDigitByte (asciiByte c) = c.isDigit :=
  asciiByte_cases (by decide +kernel) hc

end Bytes

theorem isIdent_of_beyond {c : Char} (hc : isAscii c = false) : isIdent c = true := by
  simp [isIdent, hc]

theorem isBreak_of_beyond {c : Char} (hc : isAscii c = false) : isBreak c = false := by
  by_contra h
  rcases eq_of_isBreak (by simpa using h) with rfl | rfl <;> cases hc

theorem isDigit_of_beyond {c : Char} (hc : isAscii c = false) : c.isDigit = false := by
  by_contra h
  have hd : c.isDigit = true := by simpa using h
  have hlt : c.toNat < 128 := by
    simp only [Char.isDigit, Bool.and_eq_true, decide_eq_true_eq] at hd
    have hle : c.val.toNat ≤ 57 := UInt32.le_iff_toNat_le.1 hd.2
    have hval : c.val.toNat = c.toNat := rfl
    omega
  rw [(isAscii_iff c).2 hlt] at hc
  cases hc

namespace Encodes
variable {c : Char} {lead : UInt8} {tail : Bytes} (h : Encodes c lead tail)
include h

theorem lead_eq_iff {d : Char} (hd : isAscii d = true) : lead = asciiByte d ↔ c = d := by
  cases hc : isAscii c with
  | true =>
    rw [(h.ascii hc).1]
    exact asciiByte_inj hc hd
  | false =>
    have hlead := (h.beyond hc).1
    constructor
    · intro hl
      exact absurd hl (Bytes.ne_asciiByte (by omega) hd)
    · rintro rfl
      rw [hd] at hc
      cases hc

theorem lead_beq {d : Char} (hd : isAscii d = true) : (lead == asciiByte d) = (c == d) := by
  rw [Bool.eq_iff_iff, beq_iff_eq, beq_iff_eq]
  exact h.lead_eq_iff hd

theorem tail_beyond {b : UInt8} (hb : b ∈ tail) : 128 ≤ b.toNat :=
  ((Bytes.isTail_iff b).1 (h.tail_isTail b hb)).1

/-- A question about one character, asked of its leading byte. -/
theorem lead_cases {p : UInt8 → Bool} {q : Char → Bool}
    (hascii : ∀ {c : Char}, isAscii c = true → p (asciiByte c) = q c)
    (hbyte : ∀ {b : UInt8}, 128 ≤ b.toNat → p b = false)
    (hchar : ∀ {c : Char}, isAscii c = false → q c = false) : p lead = q c := by
  cases hc : isAscii c with
  | true =>
    rw [(h.ascii hc).1]
    exact hascii hc
  | false =>
    have hlead := (h.beyond hc).1
    rw [hbyte (by omega), hchar hc]

theorem isBreakByte_lead : Bytes.isBreakByte lead = isBreak c :=
  h.lead_cases Bytes.isBreakByte_asciiByte Bytes.isBreakByte_of_beyond isBreak_of_beyond

theorem isDigitByte_lead : Bytes.isDigitByte lead = c.isDigit := by
  refine h.lead_cases Bytes.isDigitByte_asciiByte ?_ isDigit_of_beyond
  intro b hb
  have hgt : ¬ b ≤ asciiByte '9' := by
    rw [UInt8.le_iff_toNat_le, toNat_asciiByte rfl]
    have h9 : '9'.toNat = 57 := rfl
    omega
  simp [Bytes.isDigitByte, hgt]

end Encodes

/-! ### Places -/

namespace Bytes

/-- The offset of the place between two texts. -/
structure At (bs : Bytes) (i : Nat) (before rest : Text) : Prop where
  bytes : bs = Text.utf8 (before.reverse ++ rest)
  index : i = before.byteSize

namespace At
variable {bs : Bytes} {i : Nat} {before rest : Text} (h : At bs i before rest)
include h

theorem take_eq : bs.take i = Text.utf8 before.reverse := by
  rw [h.bytes, Text.utf8_append, List.take_left']
  rw [Text.length_utf8, Text.byteSize_reverse, h.index]

theorem drop_eq : bs.drop i = rest.utf8 := by
  rw [h.bytes, Text.utf8_append, List.drop_left']
  rw [Text.length_utf8, Text.byteSize_reverse, h.index]

theorem length_eq : bs.length = i + rest.byteSize := by
  rw [h.bytes, Text.length_utf8, Text.byteSize_append, Text.byteSize_reverse, h.index]

theorem getElem? (k : Nat) : bs[i + k]? = rest.utf8[k]? := by
  rw [← h.drop_eq, List.getElem?_drop]

theorem isBoundary : bs.isBoundary i = true := by
  have hb := Text.isBoundary_append before.reverse rest
  rwa [← h.bytes, Text.byteSize_reverse, ← h.index] at hb

theorem read {lexeme after : Text} (hr : rest = lexeme ++ after) :
    At bs (i + lexeme.byteSize) (lexeme.reverse ++ before) after := by
  refine ⟨?_, ?_⟩
  · rw [h.bytes, hr, List.reverse_append, List.reverse_reverse, List.append_assoc]
  · rw [h.index, Text.byteSize_append, Text.byteSize_reverse, Nat.add_comm]

theorem next {c : Char} {after : Text} (hr : rest = c :: after) :
    At bs (i + c.utf8Size) (c :: before) after := by
  have hcons : rest = [c] ++ after := hr
  have hread := h.read hcons
  rwa [Text.byteSize_cons, Text.byteSize_nil] at hread

theorem getElem?_cons {c : Char} {after : Text} (hr : rest = c :: after) {lead : UInt8} {tail : Bytes}
    (hc : Encodes c lead tail) : bs[i]? = some lead := by
  have hget := h.getElem? 0
  rw [hr, hc.utf8_cons] at hget
  exact hget

theorem getElem?_nil (hr : rest = []) : bs[i]? = none := by
  have hget := h.getElem? 0
  rw [hr] at hget
  exact hget

end At

end Bytes

end Highlighter
