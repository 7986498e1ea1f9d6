import Highlighter.Text.LineEnd
import Mathlib.Data.List.TakeWhile

/-!
# Texts as bytes

The UTF-8 bytes of a text. A character is a leading byte and up to three bytes that go on
with it, and the leading byte tells how many. So no code is the start of another,
`utf8_prefix_iff`, texts are ordered alike by their bytes and by their characters,
`utf8_lt_utf8`, and the offsets that fall between characters can be told from the bytes
alone, `isBoundary_append`.
-/

namespace Highlighter

/-- A text as a machine sees it. -/
abbrev Bytes := List UInt8

namespace Bytes

/-- A byte that goes on with a character. -/
def isTail (b : UInt8) : Bool := 0x80 ≤ b && b < 0xC0

def leadWidth (b : UInt8) : Nat :=
  if b < 0x80 then 1 else if b < 0xE0 then 2 else if b < 0xF0 then 3 else 4

/-- Whether the offset is not inside a character: at either end of the text, or at a byte
that starts one. -/
def isBoundary (bs : Bytes) (i : Nat) : Bool :=
  i == 0 || match bs[i]? with
    | some b => !isTail b
    | none => i == bs.length

/-- The bytes between two offsets. There are none if the offsets are out of order, out of
range or inside of a character. -/
def slice? (bs : Bytes) (start stop : Nat) : Option Bytes :=
  if start ≤ stop ∧ stop ≤ bs.length ∧ bs.isBoundary start = true ∧ bs.isBoundary stop = true then
    some ((bs.drop start).take (stop - start))
  else none

end Bytes

namespace Text

def utf8 (t : Text) : Bytes := t.flatMap String.utf8EncodeChar

@[simp] theorem utf8_nil : utf8 [] = [] := rfl

@[simp] theorem utf8_cons (c : Char) (t : Text) : utf8 (c :: t) = String.utf8EncodeChar c ++ utf8 t :=
  rfl

@[simp] theorem utf8_append (t u : Text) : utf8 (t ++ u) = utf8 t ++ utf8 u := by
  simp [utf8]

@[simp] theorem length_utf8 (t : Text) : (utf8 t).length = t.byteSize := by
  induction t with
  | nil => rfl
  | cons c t ih => rw [utf8_cons, List.length_append, String.length_utf8EncodeChar, ih, byteSize_cons]

end Text

/-! ### One character -/

namespace Bytes

theorem isTail_ofNat {n : Nat} (h : n < 256) :
    isTail (UInt8.ofNat n) = true ↔ 128 ≤ n ∧ n < 192 := by
  simp [isTail, UInt8.le_iff_toNat_le, UInt8.lt_iff_toNat_lt, Nat.mod_eq_of_lt h]

theorem isTail_ofNat_eq_false {n : Nat} (h : n < 256) :
    isTail (UInt8.ofNat n) = false ↔ n < 128 ∨ 192 ≤ n := by
  have hiff := isTail_ofNat h
  cases ht : isTail (UInt8.ofNat n) with
  | false =>
    rw [ht] at hiff
    simp only [Bool.false_eq_true, false_iff] at hiff
    simp only [true_iff]
    omega
  | true =>
    have hn := hiff.1 ht
    simp only [Bool.true_eq_false, false_iff]
    omega

theorem leadWidth_ofNat {n : Nat} (h : n < 256) :
    leadWidth (UInt8.ofNat n) =
      if n < 128 then 1 else if n < 224 then 2 else if n < 240 then 3 else 4 := by
  simp [leadWidth, UInt8.lt_iff_toNat_lt, Nat.mod_eq_of_lt h]

end Bytes

/-- The code of a character. -/
structure Encodes (c : Char) (lead : UInt8) (tail : Bytes) : Prop where
  code : String.utf8EncodeChar c = lead :: tail
  lead_isTail : Bytes.isTail lead = false
  tail_isTail : ∀ b ∈ tail, Bytes.isTail b = true
  width : Bytes.leadWidth lead = tail.length + 1
  ascii : isAscii c = true → lead = c.toNat.toUInt8 ∧ tail = []
  beyond : isAscii c = false → 0xC0 ≤ lead.toNat ∧ tail ≠ []

theorem isAscii_iff (c : Char) : isAscii c = true ↔ c.toNat < 128 := by
  simp [isAscii]

theorem toNat_lt (c : Char) : c.toNat < 0x110000 := by
  rcases c.valid with h | h
  · have hv : c.toNat < 0xd800 := h
    omega
  · exact h.2

theorem encodes_ascii {c : Char} (hc : c.toNat < 128) : Encodes c c.toNat.toUInt8 [] := by
  have hascii := (isAscii_iff c).2 hc
  have hval : c.val.toNat = c.toNat := rfl
  refine ⟨?_, ?_, ?_, ?_, ?_, ?_⟩
  · unfold String.utf8EncodeChar
    rw [hval, if_pos (by omega)]
  · exact (Bytes.isTail_ofNat_eq_false (by omega)).2 (.inl hc)
  · intro b hb
    cases hb
  · have hw := Bytes.leadWidth_ofNat (n := c.toNat) (by omega)
    rw [if_pos hc] at hw
    exact hw
  · exact fun _ => ⟨rfl, rfl⟩
  · intro h
    rw [hascii] at h
    cases h

/-- A code of more than one byte, given by the numbers of its bytes. -/
theorem encodes_beyond {c : Char} (n : Nat) (ms : List Nat) (hc : 128 ≤ c.toNat)
    (hcode : String.utf8EncodeChar c = UInt8.ofNat n :: ms.map UInt8.ofNat)
    (hn : 192 ≤ n ∧ n < 256) (hms : ∀ m ∈ ms, 128 ≤ m ∧ m < 192)
    (hw : (if n < 224 then 2 else if n < 240 then 3 else 4) = ms.length + 1) :
    Encodes c (UInt8.ofNat n) (ms.map UInt8.ofNat) := by
  have hascii : isAscii c ≠ true := by
    rw [Ne, isAscii_iff]
    omega
  refine ⟨hcode, ?_, ?_, ?_, ?_, ?_⟩
  · exact (Bytes.isTail_ofNat_eq_false hn.2).2 (.inr hn.1)
  · intro b hb
    obtain ⟨m, hm, rfl⟩ := List.mem_map.1 hb
    have hm := hms m hm
    exact (Bytes.isTail_ofNat (by omega)).2 hm
  · rw [Bytes.leadWidth_ofNat hn.2, if_neg (by omega), hw, List.length_map]
  · intro h
    exact absurd h hascii
  · intro _
    refine ⟨?_, ?_⟩
    · have hmod : n % 256 = n := Nat.mod_eq_of_lt hn.2
      have hto : (UInt8.ofNat n).toNat = n := by simp [hmod]
      have hc0 : (0xC0 : UInt8).toNat = 192 := rfl
      omega
    · intro hnil
      have hlen := congrArg List.length hnil
      simp only [List.length_map, List.length_nil] at hlen
      split at hw
      · omega
      · split at hw <;> omega

theorem encodes (c : Char) : ∃ lead tail, Encodes c lead tail := by
  have hmax := toNat_lt c
  have hval : c.val.toNat = c.toNat := rfl
  by_cases h1 : c.toNat < 128
  · exact ⟨_, _, encodes_ascii h1⟩
  by_cases h2 : c.toNat < 0x800
  · refine ⟨_, _, encodes_beyond (c.toNat / 64 % 32 + 192) [c.toNat % 64 + 128]
      (by omega) ?_ (by omega) (by simp; omega) ?_⟩
    · unfold String.utf8EncodeChar
      rw [hval, if_neg (by omega), if_pos (by omega)]
      rfl
    · rw [if_pos (by omega)]
      rfl
  by_cases h3 : c.toNat < 0x10000
  · refine ⟨_, _, encodes_beyond (c.toNat / 4096 % 16 + 224)
      [c.toNat / 64 % 64 + 128, c.toNat % 64 + 128]
      (by omega) ?_ (by omega) (by simp; omega) ?_⟩
    · unfold String.utf8EncodeChar
      rw [hval, if_neg (by omega), if_neg (by omega), if_pos (by omega)]
      rfl
    · rw [if_neg (by omega), if_pos (by omega)]
      rfl
  · refine ⟨_, _, encodes_beyond (c.toNat / 262144 % 8 + 240)
      [c.toNat / 4096 % 64 + 128, c.toNat / 64 % 64 + 128, c.toNat % 64 + 128]
      (by omega) ?_ (by omega) (by simp; omega) ?_⟩
    · unfold String.utf8EncodeChar
      rw [hval, if_neg (by omega), if_neg (by omega), if_neg (by omega)]
      rfl
    · rw [if_neg (by omega), if_neg (by omega)]
      rfl

namespace Encodes
variable {c : Char} {lead : UInt8} {tail : Bytes} (h : Encodes c lead tail)
include h

theorem utf8Size_eq : c.utf8Size = tail.length + 1 := by
  rw [← String.length_utf8EncodeChar, h.code, List.length_cons]

theorem utf8_cons (t : Text) : Text.utf8 (c :: t) = lead :: (tail ++ Text.utf8 t) := by
  rw [Text.utf8_cons, h.code, List.cons_append]

end Encodes

/-! ### Codes do not overlap -/

theorem utf8EncodeChar_injective {c d : Char}
    (h : String.utf8EncodeChar c = String.utf8EncodeChar d) : c = d := by
  have hc := ByteArray.utf8DecodeChar?_utf8EncodeChar_append (b := ByteArray.empty) (c := c)
  have hd := ByteArray.utf8DecodeChar?_utf8EncodeChar_append (b := ByteArray.empty) (c := d)
  rw [h, hd] at hc
  exact (Option.some.inj hc).symm

theorem utf8EncodeChar_append_inj {c d : Char} {x y : Bytes}
    (h : String.utf8EncodeChar c ++ x = String.utf8EncodeChar d ++ y) : c = d ∧ x = y := by
  obtain ⟨b, bs, hc⟩ := encodes c
  obtain ⟨b', bs', hd⟩ := encodes d
  have hlead : b = b' := by
    rw [hc.code, hd.code, List.cons_append, List.cons_append, List.cons.injEq] at h
    exact h.1
  have hlen : (String.utf8EncodeChar c).length = (String.utf8EncodeChar d).length := by
    have hwc := hc.width
    have hwd := hd.width
    rw [← hlead, hwc] at hwd
    rw [hc.code, hd.code, List.length_cons, List.length_cons, hwd]
  obtain ⟨hcode, hrest⟩ := List.append_inj h hlen
  exact ⟨utf8EncodeChar_injective hcode, hrest⟩

namespace Text

theorem utf8_prefix_iff (t u : Text) : t.utf8 <+: u.utf8 ↔ t <+: u := by
  constructor
  · intro h
    induction t generalizing u with
    | nil => exact List.nil_prefix
    | cons c t ih =>
      obtain ⟨after, hafter⟩ := h
      cases u with
      | nil =>
        have hlen := congrArg List.length hafter
        have hpos := c.utf8Size_pos
        simp at hlen
        omega
      | cons d u =>
        rw [utf8_cons, utf8_cons, List.append_assoc] at hafter
        obtain ⟨rfl, hrest⟩ := utf8EncodeChar_append_inj hafter
        exact (List.prefix_cons_inj c).2 (ih u ⟨after, hrest⟩)
  · rintro ⟨after, rfl⟩
    rw [utf8_append]
    exact List.prefix_append ..

theorem utf8_injective {t u : Text} (h : t.utf8 = u.utf8) : t = u := by
  have htu : t <+: u := (utf8_prefix_iff t u).1 (h ▸ List.prefix_rfl)
  have hut : u <+: t := (utf8_prefix_iff u t).1 (h ▸ List.prefix_rfl)
  exact htu.eq_of_length (Nat.le_antisymm htu.length_le hut.length_le)

/-! ### The order of bytes -/

theorem ofNat_cons_lt {m n : Nat} (hm : m < 256) (hn : n < 256) (bs cs : Bytes) :
    UInt8.ofNat m :: bs < UInt8.ofNat n :: cs ↔ m < n ∨ m = n ∧ bs < cs := by
  rw [List.cons_lt_cons_iff, UInt8.lt_iff_toNat_lt, ← UInt8.toNat_inj, UInt8.toNat_ofNat_of_lt' hm,
    UInt8.toNat_ofNat_of_lt' hn]

theorem utf8EncodeChar_append_lt {c d : Char} (h : c.toNat < d.toNat) (bs cs : Bytes) :
    String.utf8EncodeChar c ++ bs < String.utf8EncodeChar d ++ cs := by
  have hmax := toNat_lt d
  have hc : c.val.toNat = c.toNat := rfl
  have hd : d.val.toNat = d.toNat := rfl
  have h12 : ∀ n : Nat, n / 4096 = n / 64 / 64 := by omega
  have h18 : ∀ n : Nat, n / 262144 = n / 64 / 64 / 64 := by omega
  unfold String.utf8EncodeChar
  simp only [hc, hd, h12, h18]
  -- A longer code has the greater lead; codes of one length are numbers written in sixty-fours.
  repeat' split
  all_goals
    simp only [List.cons_append, List.nil_append]
    repeat rw [ofNat_cons_lt (by omega) (by omega)]
    omega

/-- Texts in the order of their characters are in the order of their bytes. -/
theorem utf8_lt_utf8 {t u : Text} (h : t < u) : t.utf8 < u.utf8 := by
  induction t generalizing u with
  | nil =>
    cases u with
    | nil => exact absurd h (List.lt_irrefl [])
    | cons d u =>
      obtain ⟨lead, tail, hd⟩ := encodes d
      rw [hd.utf8_cons]
      exact List.nil_lt_cons lead (tail ++ utf8 u)
  | cons c t ih =>
    cases u with
    | nil => exact absurd h (List.not_lt_nil (c :: t))
    | cons d u =>
      rw [utf8_cons, utf8_cons]
      rcases List.cons_lt_cons_iff.1 h with hlt | ⟨rfl, hrest⟩
      · exact utf8EncodeChar_append_lt hlt (utf8 t) (utf8 u)
      · exact List.append_left_lt (ih hrest)

/-! ### Boundaries -/

theorem isBoundary_append (t u : Text) : (t ++ u).utf8.isBoundary t.byteSize = true := by
  unfold Bytes.isBoundary
  rw [Bool.or_eq_true]
  right
  have hget : (t ++ u).utf8[t.byteSize]? = u.utf8[0]? := by
    rw [utf8_append, List.getElem?_append_right (by rw [length_utf8]), length_utf8, Nat.sub_self]
  rw [hget]
  cases u with
  | nil => simp
  | cons c u =>
    obtain ⟨lead, tail, hc⟩ := encodes c
    rw [hc.utf8_cons]
    simp [hc.lead_isTail]

/-- The bytes of a part of the text can be cut out. -/
theorem slice?_utf8 (t u v : Text) :
    (t ++ u ++ v).utf8.slice? t.byteSize (t.byteSize + u.byteSize) = some u.utf8 := by
  have hstart : (t ++ u ++ v).utf8.isBoundary t.byteSize = true := by
    rw [List.append_assoc]
    exact isBoundary_append t (u ++ v)
  have hstop : (t ++ u ++ v).utf8.isBoundary (t.byteSize + u.byteSize) = true := by
    rw [← byteSize_append]
    exact isBoundary_append (t ++ u) v
  rw [Bytes.slice?, if_pos ⟨by omega, by simp, hstart, hstop⟩, utf8_append, utf8_append,
    List.append_assoc, List.drop_left' (by simp), Nat.add_sub_cancel_left,
    List.take_left' (by simp)]

end Text

end Highlighter
