import Highlighter.Proofs.Bytes.Machine
import Highlighter.Proofs.Bytes.Place

/-!
# Inside of a character

Nothing that the machine on bytes looks for is found at the bytes that go on with a
character. Unless a number is open it passes over them, and nothing else changes.
-/

namespace Highlighter

namespace Bytes

/-- The offset is inside of a character. -/
structure Inside (bs : Bytes) (i : Nat) : Prop where
  byte : ∃ b, bs[i]? = some b ∧ isTail b = true
  pos : 0 < i
  prev : ∃ b, bs[i - 1]? = some b ∧ 128 ≤ b.toNat

namespace Inside
variable {bs : Bytes} {i : Nat} (h : Inside bs i)
include h

theorem lineEnd?_eq_none : bs.lineEnd? i = none := by
  obtain ⟨b, hb, htail⟩ := h.byte
  have hbeyond := ((isTail_iff b).1 htail).1
  unfold lineEnd?
  rw [hb]
  dsimp only
  rw [if_neg (ne_asciiByte hbeyond rfl), if_neg (ne_asciiByte hbeyond rfl)]

theorem byteIs_eq_false (mark : Option Char) : bs.byteIs i mark = false := by
  obtain ⟨b, hb, htail⟩ := h.byte
  have hbeyond := ((isTail_iff b).1 htail).1
  unfold byteIs
  rw [hb]
  cases mark with
  | none => rfl
  | some c =>
    cases hc : isAscii c with
    | false => simp [hc]
    | true =>
      have hne := ne_asciiByte hbeyond hc
      simp [hc, hne]

theorem token?_eq_none (token : Text) : bs.token? i token = none := by
  obtain ⟨b, hb, htail⟩ := h.byte
  rw [token?, if_neg]
  intro hc
  simp only [Bool.and_eq_true, Bool.not_eq_true', List.isEmpty_eq_false_iff] at hc
  obtain ⟨c, token, rfl⟩ := List.exists_cons_of_ne_nil hc.1.1
  obtain ⟨lead, tail, hcode⟩ := encodes c
  obtain ⟨after, hafter⟩ := List.isPrefixOf_iff_prefix.1 hc.2
  rw [hcode.utf8_cons, List.cons_append] at hafter
  have hhead : (bs.drop i)[0]? = some lead := by
    rw [← hafter]
    rfl
  rw [List.getElem?_drop, Nat.add_zero, hb, Option.some.injEq] at hhead
  rw [hhead, hcode.lead_isTail] at htail
  cases htail

theorem commentOpenerLen?_eq_none (lang : Language) : lang.commentOpenerLen? bs i = none := by
  unfold Language.commentOpenerLen?
  cases lang.blockComment with
  | none => rfl
  | some pair => exact h.token?_eq_none pair.1

theorem lineCommentLen?_eq_none (lang : Language) : lang.lineCommentLen? bs i = none := by
  unfold Language.lineCommentLen?
  cases lang.lineComment with
  | none => rfl
  | some opener => exact h.token?_eq_none opener

theorem stringOpenerLen?_eq_none (lang : Language) : lang.stringOpenerLen? bs i = none := by
  rw [Language.stringOpenerLen?, h.byteIs_eq_false, h.byteIs_eq_false]
  rfl

theorem charOpenerLen?_eq_none (lang : Language) : lang.charOpenerLen? bs i = none := by
  unfold Language.charOpenerLen?
  cases lang.charDelimiter with
  | none => rfl
  | some delimiter =>
    dsimp only
    rw [h.byteIs_eq_false]
    rfl

theorem directiveAtByte_eq_false (lang : Language) : lang.directiveAtByte bs i = false := by
  rw [Language.directiveAtByte, h.byteIs_eq_false]
  rfl

theorem openingLen?_eq_none (lang : Language) : lang.openingLen? bs i = none := by
  rw [Language.openingLen?, h.commentOpenerLen?_eq_none, h.lineCommentLen?_eq_none,
    h.stringOpenerLen?_eq_none, h.charOpenerLen?_eq_none, h.directiveAtByte_eq_false]
  rfl

theorem closerLen?_eq_none (lang : Language) : lang.commentCloserLen? bs i = none := by
  unfold Language.commentCloserLen?
  cases lang.blockComment with
  | none => rfl
  | some pair => exact h.token?_eq_none pair.2

theorem atWordStart_eq_false : bs.atWordStart i = false := by
  obtain ⟨b, hb, hbeyond⟩ := h.prev
  have hi : (i == 0) = false := by
    rw [beq_eq_false_iff_ne]
    exact Nat.ne_of_gt h.pos
  rw [atWordStart, hi, hb]
  simp [isIdentByte_of_beyond hbeyond]

end Inside

theorem closesByte_of_beyond (lang : Language) (quote : Quote) {b : UInt8} (hb : 128 ≤ b.toNat) :
    lang.closesByte quote b = false := by
  have key : ∀ mark : Option Char, (mark.any fun d => isAscii d && b == asciiByte d) = false := by
    intro mark
    cases mark with
    | none => rfl
    | some d =>
      cases hd : isAscii d with
      | false => simp [hd]
      | true =>
        have hne := ne_asciiByte hb hd
        simp [hd, hne]
  cases quote with
  | string => exact key lang.stringDelimiter
  | char => exact key lang.charDelimiter

theorem At.inside {bs : Bytes} {i : Nat} {before rest after : Text} {c : Char} {lead : UInt8}
    {tail : Bytes} (h : At bs i before rest) (hr : rest = c :: after) (hc : Encodes c lead tail)
    {k : Nat} (hk : k < tail.length) : Inside bs (i + 1 + k) := by
  have hascii : isAscii c = false := by
    by_contra hn
    rw [(hc.ascii (by simpa using hn)).2] at hk
    cases hk
  have hlead := (hc.beyond hascii).1
  have hget : ∀ j, bs[i + j]? = (lead :: (tail ++ Text.utf8 after))[j]? := by
    intro j
    rw [h.getElem? j, hr, hc.utf8_cons]
  have htail : ∀ j, j < tail.length → bs[i + (j + 1)]? = tail[j]? := by
    intro j hj
    rw [hget, List.getElem?_cons_succ, List.getElem?_append_left hj]
  refine ⟨?_, by omega, ?_⟩
  · have hb := htail k hk
    rw [List.getElem?_eq_getElem hk] at hb
    have hoff : i + 1 + k = i + (k + 1) := by omega
    rw [hoff]
    exact ⟨_, hb, hc.tail_isTail _ (List.getElem_mem hk)⟩
  · have hoff : i + 1 + k - 1 = i + k := by omega
    rw [hoff]
    cases k with
    | zero => exact ⟨lead, hget 0, by omega⟩
    | succ j =>
      have hj : j < tail.length := by omega
      have hb := htail j hj
      rw [List.getElem?_eq_getElem hj] at hb
      exact ⟨_, hb, hc.tail_beyond (List.getElem_mem hj)⟩

end Bytes

/-! ### Steps inside of a character -/

namespace ByteCursor
variable {lang : Language} {bs : Bytes}

theorem run_of_done {limit : Nat} {s : ByteCursor} (h : bs.length ≤ s.index ∨ limit ≤ s.breaks) :
    s.run lang bs limit = s := by
  rw [run, dif_pos h]

theorem run_step {limit : Nat} {s : ByteCursor} (hs : s.index < bs.length) (hb : s.breaks < limit) :
    s.run lang bs limit = (s.step lang bs).run lang bs limit := by
  rw [run, dif_neg]
  omega

theorem setKind_self {s : ByteCursor} {k : Kind} (h : s.kind = k) : s.setKind k = s := by
  rw [← h]
  rfl

theorem setEscape_self {s : ByteCursor} {e : Bool} (h : s.escape = e) : s.setEscape e = s := by
  rw [← h]
  rfl

theorem step_inside {v : ByteCursor} (hin : bs.Inside v.index) {m : Mode} (hk : v.kind = m.kind)
    (hm : ∀ shape, m ≠ .number shape) (he : v.escape = false) :
    v.step lang bs = v.moveTo (v.index + 1) := by
  obtain ⟨b, hb, htail⟩ := hin.byte
  have hbeyond := ((Bytes.isTail_iff b).1 htail).1
  have hline := hin.lineEnd?_eq_none
  unfold step
  rw [hb]
  dsimp only
  cases m with
  | idle =>
    have hk : v.kind = .default := hk
    rw [hk]
    dsimp only
    rw [stepDefault, hline, hin.openingLen?_eq_none, hin.atWordStart_eq_false]
    dsimp only
    rw [setKind_self hk]
    rfl
  | blockComment =>
    have hk : v.kind = .commentBlock := hk
    rw [hk]
    dsimp only
    rw [stepCommentBlock, hin.closerLen?_eq_none, hline]
  | lineComment =>
    have hk : v.kind = .commentLine := hk
    rw [hk]
    dsimp only
    rw [stepToLineEnd, hline]
  | directive =>
    have hk : v.kind = .directive := hk
    rw [hk]
    dsimp only
    rw [stepToLineEnd, hline]
  | quoted quote escaped =>
    have hcloses := Bytes.closesByte_of_beyond lang quote hbeyond
    have hback : (b == asciiByte '\\') = false := by
      rw [beq_eq_false_iff_ne]
      exact Bytes.ne_asciiByte hbeyond rfl
    have hstep : v.stepQuoted lang bs quote b = v.moveTo (v.index + 1) := by
      rw [stepQuoted, hcloses, hback, hline]
      dsimp only
      rw [setEscape_self he]
      rfl
    cases quote with
    | string =>
      have hk : v.kind = .string := hk
      rw [hk]
      exact hstep
    | char =>
      have hk : v.kind = .char := hk
      rw [hk]
      exact hstep
  | number shape => exact absurd rfl (hm shape)
  | raw =>
    have hk : v.kind = .unformatted := hk
    rw [hk]
    dsimp only
    rw [stepUnformatted, hline]

/-- The bytes that go on with a character are passed over. -/
theorem run_inside {limit : Nat} (n : Nat) {v : ByteCursor}
    (hin : ∀ k < n, bs.Inside (v.index + k)) {m : Mode} (hk : v.kind = m.kind)
    (hm : ∀ shape, m ≠ .number shape) (he : v.escape = false) (hb : v.breaks < limit) :
    v.run lang bs limit = (v.moveTo (v.index + n)).run lang bs limit := by
  induction n generalizing v with
  | zero => rfl
  | succ n ih =>
    have hfirst : bs.Inside v.index := hin 0 (by omega)
    obtain ⟨b, hget, -⟩ := hfirst.byte
    have hlt : v.index < bs.length := (List.getElem?_eq_some_iff.1 hget).1
    have hnext : ∀ k < n, bs.Inside ((v.moveTo (v.index + 1)).index + k) := by
      intro k hkn
      have h := hin (k + 1) (by omega)
      have hoff : v.index + (k + 1) = (v.moveTo (v.index + 1)).index + k := by
        rw [index_moveTo]
        omega
      rwa [hoff] at h
    rw [run_step hlt hb, step_inside hfirst hk hm he, ih hnext hk he hb, index_moveTo]
    have hoff : v.index + 1 + n = v.index + (n + 1) := by omega
    rw [hoff]
    rfl

end ByteCursor

end Highlighter
