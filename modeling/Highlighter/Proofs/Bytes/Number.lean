import Highlighter.Proofs.Bytes.Place
import Highlighter.Proofs.Scanner.Pass

/-!
# Number literals in bytes

The machine on bytes looks back over the whole literal where the machine on characters
remembers its shape. The shape says all of the literal that the next byte depends on.
-/

namespace Highlighter

theorem beq_of_beyond {c d : Char} (hc : isAscii c = false) (hd : isAscii d = true) :
    (c == d) = false := by
  rw [beq_eq_false_iff_ne]
  rintro rfl
  rw [hc] at hd
  cases hd

namespace Bytes

theorem any_asciiByte_of_beyond {b : UInt8} (hb : 128 ≤ b.toNat) {cs : List Char}
    (hcs : cs.all isAscii = true) : (cs.any fun c => b == asciiByte c) = false := by
  rw [List.all_eq_true] at hcs
  rw [List.any_eq_false]
  intro c hc
  simpa using ne_asciiByte hb (hcs c hc)

theorem continuesNumber_of_beyond (zero hex : Bool) {b : UInt8} (hb : 128 ≤ b.toNat) :
    continuesNumber zero hex b = false := by
  have hdigit : isDigitByte b = false := by
    have hgt : ¬ b ≤ asciiByte '9' := by
      rw [UInt8.le_iff_toNat_le, toNat_asciiByte rfl]
      have h9 : '9'.toNat = 57 := rfl
      omega
    simp [isDigitByte, hgt]
  have hnone : ∀ cs : List Char, cs.all isAscii = true →
      (cs.any fun c => b == asciiByte c) = false := fun cs hcs => any_asciiByte_of_beyond hb hcs
  unfold continuesNumber
  simp only [hdigit, hnone ['_'] rfl, hnone ['x', 'X'] rfl, hnone ['b', 'B'] rfl,
    hnone ['a', 'c', 'A', 'C'] rfl, hnone ['e', 'E', 'd', 'D', 'f', 'F'] rfl, hnone ['m', 'M'] rfl,
    Bool.or_self, Bool.false_eq_true, if_false]

end Bytes

namespace Numeral

/-- The shape of a literal as the machine on bytes sees it, once it has a digit. -/
def zeroHex : Numeral → Bool × Bool
  | .start | .decimal => (false, false)
  | .zero => (true, false)
  | .hex => (false, true)

theorem next?_of_beyond (shape : Numeral) {c : Char} (hc : isAscii c = false) :
    shape.next? c = none := by
  have hdigit := isDigit_of_beyond hc
  have hzero : c ≠ '0' := by
    rintro rfl
    cases hc
  have hne : ∀ d, isAscii d = true → (c == d) = false := fun d hd => beq_of_beyond hc hd
  cases shape <;>
    simp [next?, isHexMark, isBinaryMark, isDigitOrSeparator, isExponentOrSuffix, isMoneySuffix,
      isOtherHexDigit, hdigit, hzero, hne _ (rfl : isAscii 'x' = true), hne 'X' rfl,
      hne '_' rfl, hne 'e' rfl, hne 'E' rfl, hne 'd' rfl, hne 'D' rfl, hne 'f' rfl, hne 'F' rfl,
      hne 'b' rfl, hne 'B' rfl, hne 'm' rfl, hne 'M' rfl, hne 'a' rfl, hne 'A' rfl, hne 'c' rfl,
      hne 'C' rfl]

/-- The next byte goes on with the literal when the next character does. -/
theorem continuesNumber_lead {c : Char} {lead : UInt8} {tail : Bytes} (hc : Encodes c lead tail)
    (shape : Numeral) (hstart : shape = .start → c.isDigit = true) :
    Bytes.continuesNumber shape.zeroHex.1 shape.zeroHex.2 lead = (shape.next? c).isSome := by
  have key : ∀ shape : Numeral, shape ≠ .start →
      Bytes.continuesNumber shape.zeroHex.1 shape.zeroHex.2 lead = (shape.next? c).isSome := by
    intro shape hne
    refine hc.lead_cases (p := Bytes.continuesNumber shape.zeroHex.1 shape.zeroHex.2)
      (q := fun c => (shape.next? c).isSome) ?_ ?_ ?_
    · intro c hascii
      refine asciiByte_cases (p := Bytes.continuesNumber shape.zeroHex.1 shape.zeroHex.2)
        (q := fun c => (shape.next? c).isSome) ?_ hascii
      cases shape with
      | start => exact absurd rfl hne
      | zero => decide +kernel
      | hex => decide +kernel
      | decimal => decide +kernel
    · intro b hb
      exact Bytes.continuesNumber_of_beyond _ _ hb
    · intro c hascii
      rw [next?_of_beyond shape hascii]
      rfl
  by_cases hs : shape = .start
  · subst hs
    have hdigit := hstart rfl
    have hdec := key .decimal (by decide)
    rw [next?_of_isDigit .decimal hdigit] at hdec
    rw [next?_of_isDigit .start hdigit]
    exact hdec
  · exact key shape hs

theorem next?_cases {shape shape' : Numeral} {c : Char} (h : shape.next? c = some shape') :
    (shape = .start ∧ shape' = if c = '0' then .zero else .decimal) ∨
      (shape = .zero ∧ shape' = if isHexMark c then .hex else .decimal) ∨
      (shape = .hex ∧ shape' = .hex) ∨ (shape = .decimal ∧ shape' = .decimal) := by
  cases shape with
  | start =>
    by_cases hc : c = '0'
    · simp only [next?, if_pos hc, Option.some.injEq] at h
      simp [hc, h]
    · simp only [next?, if_neg hc, Option.ite_none_right_eq_some, Option.some.injEq] at h
      simp [hc, h.2]
  | zero =>
    by_cases hc : isHexMark c
    · simp only [next?, if_pos hc, Option.some.injEq] at h
      simp [hc, h]
    · simp only [next?, if_neg hc, Option.ite_none_right_eq_some, Option.some.injEq] at h
      simp [hc, h.2]
  | hex =>
    simp only [next?, Option.ite_none_right_eq_some, Option.some.injEq] at h
    simp [h.2]
  | decimal =>
    simp only [next?, Option.ite_none_right_eq_some, Option.some.injEq] at h
    simp [h.2]

/-- The literal read so far has the shape. -/
structure Fits (shape : Numeral) (read : Text) : Prop where
  empty : read.utf8 = [] ↔ shape = .start
  zero : (read.utf8 == [asciiByte '0']) = shape.zeroHex.1
  hex : Bytes.isHex read.utf8 = shape.zeroHex.2

theorem fits_start : Fits .start [] := ⟨by simp, by decide, by decide⟩

theorem isHex_concat (x : Bytes) (b : UInt8) :
    Bytes.isHex (x ++ [b]) =
      (Bytes.isHex x || x == [asciiByte '0'] && (b == asciiByte 'x' || b == asciiByte 'X')) := by
  rcases x with _ | ⟨a, _ | ⟨a', x⟩⟩
  · rfl
  · simp [Bytes.isHex]
  · simp [Bytes.isHex]

theorem concat_beq_zero (x : Bytes) (b : UInt8) :
    (x ++ [b] == [asciiByte '0']) = (x.isEmpty && b == asciiByte '0') := by
  rcases x with _ | ⟨a, _ | ⟨a', x⟩⟩
  · simp
  · simp
  · simp

theorem acceptsNumberByte_eq {shape : Numeral} {read : Text} (h : shape.Fits read) {c : Char}
    {lead : UInt8} {tail : Bytes} (hc : Encodes c lead tail)
    (hstart : shape = .start → c.isDigit = true) :
    Bytes.acceptsNumberByte read.utf8 lead = (shape.next? c).isSome := by
  rw [Bytes.acceptsNumberByte, h.zero, h.hex]
  exact continuesNumber_lead hc shape hstart

theorem Fits.next {shape shape' : Numeral} {read : Text} (h : shape.Fits read) {c : Char}
    (hc : shape.next? c = some shape') : shape'.Fits (read ++ [c]) := by
  have hascii : isAscii c = true := by
    by_contra hn
    rw [next?_of_beyond shape (by simpa using hn)] at hc
    cases hc
  have hcode : Text.utf8 (read ++ [c]) = read.utf8 ++ [asciiByte c] := by
    rw [Text.utf8_append, (encodes_ascii ((isAscii_iff c).1 hascii)).utf8_cons]
    rfl
  have hempty : read.utf8.isEmpty = decide (shape = .start) := by
    rw [Bool.eq_iff_iff, List.isEmpty_iff, decide_eq_true_eq]
    exact h.empty
  have hbeq : ∀ d, isAscii d = true → (asciiByte c == asciiByte d) = (c == d) := by
    intro d hd
    rw [Bool.eq_iff_iff, beq_iff_eq, beq_iff_eq]
    exact asciiByte_inj hascii hd
  have hzero := concat_beq_zero read.utf8 (asciiByte c)
  have hhex := isHex_concat read.utf8 (asciiByte c)
  rw [hempty, hbeq '0' rfl] at hzero
  rw [h.hex, h.zero, hbeq 'x' rfl, hbeq 'X' rfl] at hhex
  have hmark : isHexMark c = (c == 'x' || c == 'X') := rfl
  rw [← hmark] at hhex
  rw [← hcode] at hzero hhex
  refine ⟨?_, ?_, ?_⟩
  · have hne : shape' ≠ .start := by
      rintro rfl
      rcases next?_cases hc with ⟨-, h⟩ | ⟨-, h⟩ | ⟨-, h⟩ | ⟨-, h⟩
      · split at h <;> cases h
      · split at h <;> cases h
      · cases h
      · cases h
    rw [hcode]
    simp [hne]
  · rw [hzero]
    rcases next?_cases hc with ⟨rfl, rfl⟩ | ⟨rfl, rfl⟩ | ⟨rfl, rfl⟩ | ⟨rfl, rfl⟩
    · by_cases h0 : c = '0' <;> simp [h0, zeroHex]
    · by_cases hm : isHexMark c <;> simp [hm, zeroHex]
    · rfl
    · rfl
  · rw [hhex]
    rcases next?_cases hc with ⟨rfl, rfl⟩ | ⟨rfl, rfl⟩ | ⟨rfl, rfl⟩ | ⟨rfl, rfl⟩
    · by_cases h0 : c = '0' <;> simp [h0, zeroHex]
    · by_cases hm : isHexMark c <;> simp [hm, zeroHex]
    · rfl
    · rfl

end Numeral

end Highlighter
