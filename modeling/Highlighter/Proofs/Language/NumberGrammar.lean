import Mathlib.Computability.RegularExpressions
import Highlighter.Proofs.Bytes.Number

/-!
# The grammar of number literals

Number literals are those of a regular expression. A literal is read character by character,
and the shape decides about the next one. What is read in this way is the longest front of the
text that the expression matches, on characters and on bytes: `longestMatch_reach`.
-/

namespace Highlighter

/-- The second list is the longest at the front of the first that the expression matches. -/
def LongestMatch {α : Type} (e : RegularExpression α) (t w : List α) : Prop :=
  (w <+: t ∧ w ∈ e.matches') ∧ ∀ v, v <+: t → v ∈ e.matches' → v.length ≤ w.length

/-! ### One of several characters -/

def anyOf {α : Type} (cs : List α) : RegularExpression α := (cs.map .char).sum

theorem mem_anyOf {α : Type} {cs w : List α} : w ∈ (anyOf cs).matches' ↔ ∃ c ∈ cs, w = [c] := by
  induction cs with
  | nil =>
    constructor
    · rintro ⟨⟩
    · rintro ⟨c, hc, -⟩
      cases hc
  | cons d cs ih =>
    have hsum : anyOf (d :: cs) = .char d + anyOf cs := rfl
    have hchar : w ∈ (RegularExpression.char d).matches' ↔ w = [d] := Iff.rfl
    rw [hsum, RegularExpression.matches'_add, Language.mem_add, ih, hchar]
    simp

theorem mem_anyOf_star {α : Type} {cs w : List α} :
    w ∈ (anyOf cs).star.matches' ↔ ∀ c ∈ w, c ∈ cs := by
  rw [RegularExpression.matches'_star, Language.mem_kstar]
  constructor
  · rintro ⟨pieces, rfl, hpieces⟩ c hc
    obtain ⟨piece, hmem, hc⟩ := List.mem_flatten.1 hc
    obtain ⟨d, hd, rfl⟩ := mem_anyOf.1 (hpieces piece hmem)
    rwa [List.mem_singleton.1 hc]
  · intro hw
    refine ⟨w.map fun c => [c], (List.flatMap_singleton' w).symm, fun piece hpiece => ?_⟩
    obtain ⟨c, hc, rfl⟩ := List.mem_map.1 hpiece
    exact mem_anyOf.2 ⟨c, hw c hc, rfl⟩

theorem mem_mul_iff {α : Type} {e f : RegularExpression α} {w : List α} :
    w ∈ (e * f).matches' ↔ ∃ u ∈ e.matches', ∃ v ∈ f.matches', u ++ v = w := by
  rw [RegularExpression.matches'_mul, Language.mem_mul]

namespace Numeral

/-! ### The expression -/

def digits : List Char := "0123456789".toList

def hexMarks : List Char := ['x', 'X']

def binaryMarks : List Char := ['b', 'B']

/-- What goes on with a hexadecimal literal. -/
def hexTail : List Char := "0123456789abcdefABCDEF_".toList

/-- What goes on with any other literal. -/
def plainTail : List Char := "0123456789_eEdDfFmM".toList

def grammar : RegularExpression Char :=
  anyOf ['0'] * (anyOf hexMarks * (anyOf hexTail).star) +
    anyOf ['0'] * (anyOf binaryMarks * (anyOf plainTail).star) +
    anyOf digits * (anyOf plainTail).star

theorem mem_anyOf_mul_star {cs ds w : List Char} :
    w ∈ (anyOf cs * (anyOf ds).star).matches' ↔ ∃ c ∈ cs, ∃ v, w = c :: v ∧ ∀ d ∈ v, d ∈ ds := by
  rw [mem_mul_iff]
  constructor
  · rintro ⟨u, hu, v, hv, rfl⟩
    obtain ⟨c, hc, rfl⟩ := mem_anyOf.1 hu
    exact ⟨c, hc, v, rfl, mem_anyOf_star.1 hv⟩
  · rintro ⟨c, hc, v, rfl, hv⟩
    exact ⟨[c], mem_anyOf.2 ⟨c, hc, rfl⟩, v, mem_anyOf_star.2 hv, rfl⟩

theorem mem_zero_mul {e : RegularExpression Char} {w : Text} :
    w ∈ (anyOf ['0'] * e).matches' ↔ ∃ v ∈ e.matches', w = '0' :: v := by
  rw [mem_mul_iff]
  constructor
  · rintro ⟨u, hu, v, hv, rfl⟩
    obtain ⟨c, hc, rfl⟩ := mem_anyOf.1 hu
    obtain rfl := List.mem_singleton.1 hc
    exact ⟨v, hv, rfl⟩
  · rintro ⟨v, hv, rfl⟩
    exact ⟨['0'], mem_anyOf.2 ⟨'0', List.mem_singleton.2 rfl, rfl⟩, v, hv, rfl⟩

theorem mem_grammar_iff {w : Text} : w ∈ grammar.matches' ↔
    (∃ c ∈ hexMarks, ∃ v, w = '0' :: c :: v ∧ ∀ d ∈ v, d ∈ hexTail) ∨
      (∃ c ∈ binaryMarks, ∃ v, w = '0' :: c :: v ∧ ∀ d ∈ v, d ∈ plainTail) ∨
      ∃ c ∈ digits, ∃ v, w = c :: v ∧ ∀ d ∈ v, d ∈ plainTail := by
  rw [grammar, RegularExpression.matches'_add, RegularExpression.matches'_add, Language.mem_add,
    Language.mem_add, mem_zero_mul, mem_zero_mul, mem_anyOf_mul_star, or_assoc]
  simp only [mem_anyOf_mul_star]
  grind

/-! ### The next character -/

/-- Characters are those of ASCII, one by one, and those beyond. -/
theorem char_cases {P : Char → Prop} (hascii : ∀ n < 128, P (Char.ofNat n))
    (hbeyond : ∀ c, isAscii c = false → P c) (c : Char) : P c := by
  cases hc : isAscii c with
  | false => exact hbeyond c hc
  | true =>
    have hn := hascii c.toNat ((isAscii_iff c).1 hc)
    rwa [Char.ofNat_toNat] at hn

theorem not_mem_of_beyond (cs : List Char) (hcs : cs.all isAscii = true) {c : Char}
    (hc : isAscii c = false) : c ∉ cs := by
  intro hmem
  rw [List.all_eq_true.1 hcs c hmem] at hc
  cases hc

theorem next?_start (c : Char) :
    start.next? c = if c = '0' then some zero else if c ∈ digits then some decimal else none := by
  induction c using char_cases with
  | hascii n hn =>
    revert n
    decide +kernel
  | hbeyond c hc =>
    rw [next?_of_beyond start hc, if_neg (not_mem_of_beyond digits rfl hc), if_neg]
    rintro rfl
    cases hc

theorem next?_zero (c : Char) : zero.next? c =
    if c ∈ hexMarks then some hex
    else if c ∈ binaryMarks ∨ c ∈ plainTail then some decimal else none := by
  induction c using char_cases with
  | hascii n hn =>
    revert n
    decide +kernel
  | hbeyond c hc =>
    have hbinary : c ∉ binaryMarks := not_mem_of_beyond _ rfl hc
    have hplain : c ∉ plainTail := not_mem_of_beyond _ rfl hc
    rw [next?_of_beyond zero hc, if_neg (not_mem_of_beyond hexMarks rfl hc), if_neg]
    simp [hbinary, hplain]

theorem next?_hex (c : Char) : hex.next? c = if c ∈ hexTail then some hex else none := by
  induction c using char_cases with
  | hascii n hn =>
    revert n
    decide +kernel
  | hbeyond c hc =>
    rw [next?_of_beyond hex hc, if_neg (not_mem_of_beyond hexTail rfl hc)]

theorem next?_decimal (c : Char) :
    decimal.next? c = if c ∈ plainTail then some decimal else none := by
  induction c using char_cases with
  | hascii n hn =>
    revert n
    decide +kernel
  | hbeyond c hc =>
    rw [next?_of_beyond decimal hc, if_neg (not_mem_of_beyond plainTail rfl hc)]

theorem isIdent_of_next? {n m : Numeral} {c : Char} (h : n.next? c = some m) :
    isIdent c = true := by
  have hascii : isAscii c = true := by
    by_contra hbeyond
    rw [next?_of_beyond n (by simpa using hbeyond)] at h
    cases h
  have key : ∀ k < 128, (n.next? (Char.ofNat k)).isSome = true → isIdent (Char.ofNat k) = true := by
    cases n <;> decide +kernel
  have hc := key c.toNat ((isAscii_iff c).1 hascii)
  rw [Char.ofNat_toNat, h] at hc
  exact hc rfl

/-! ### Reading a literal -/

/-- The shape after all characters of a text, if they all belong to the literal. -/
def after? (n : Numeral) (w : Text) : Option Numeral := w.foldlM next? n

theorem after?_cons (n : Numeral) (c : Char) (w : Text) :
    n.after? (c :: w) = (n.next? c).bind fun m => m.after? w := by
  rw [after?, List.foldlM_cons]
  rfl

theorem isSome_after?_of_loop {n : Numeral} {cs : List Char}
    (hn : ∀ c, n.next? c = if c ∈ cs then some n else none) (w : Text) :
    (n.after? w).isSome = true ↔ ∀ c ∈ w, c ∈ cs := by
  induction w with
  | nil => simp [after?]
  | cons c w ih =>
    rw [after?_cons, hn, List.forall_mem_cons]
    by_cases hc : c ∈ cs
    · rw [if_pos hc, Option.bind_some, ih]
      simp [hc]
    · simp [hc]

theorem isSome_after?_zero (w : Text) : (zero.after? w).isSome = true ↔
    w = [] ∨ (∃ c ∈ hexMarks, ∃ v, w = c :: v ∧ ∀ d ∈ v, d ∈ hexTail) ∨
      ∃ c, (c ∈ binaryMarks ∨ c ∈ plainTail) ∧ ∃ v, w = c :: v ∧ ∀ d ∈ v, d ∈ plainTail := by
  cases w with
  | nil => simp [after?]
  | cons c w =>
    -- No mark of a hexadecimal literal goes on with another one.
    have hmarks : (hexMarks.all fun c => c ∉ binaryMarks ∧ c ∉ plainTail) = true := rfl
    rw [after?_cons, next?_zero]
    by_cases hhex : c ∈ hexMarks
    · obtain ⟨hbinary, hplain⟩ := of_decide_eq_true (List.all_eq_true.1 hmarks c hhex)
      rw [if_pos hhex, Option.bind_some, isSome_after?_of_loop next?_hex]
      simp [hhex, hbinary, hplain]
    · rw [if_neg hhex]
      by_cases hplain : c ∈ binaryMarks ∨ c ∈ plainTail
      · rw [if_pos hplain, Option.bind_some, isSome_after?_of_loop next?_decimal]
        simp [hhex, hplain]
      · simp [hhex, hplain]

/-- The expression matches what the shapes read, except nothing. -/
theorem mem_grammar_iff_after? {w : Text} :
    w ∈ grammar.matches' ↔ w ≠ [] ∧ (start.after? w).isSome = true := by
  rw [mem_grammar_iff]
  cases w with
  | nil => simp
  | cons c w =>
    rw [after?_cons, next?_start]
    by_cases hzero : c = '0'
    · have hdigit : '0' ∈ digits := by decide
      have hplain : (∀ d ∈ w, d ∈ plainTail) ↔
          w = [] ∨ ∃ c ∈ plainTail, ∃ v, w = c :: v ∧ ∀ d ∈ v, d ∈ plainTail := by
        cases w <;> simp
      rw [if_pos hzero, Option.bind_some, isSome_after?_zero, hzero]
      simp only [List.cons.injEq, true_and]
      grind
    · rw [if_neg hzero]
      by_cases hdigit : c ∈ digits
      · rw [if_pos hdigit, Option.bind_some, isSome_after?_of_loop next?_decimal]
        simp [hzero, hdigit]
      · simp [hzero, hdigit]

/-- The characters at the front of the text that belong to a literal of the shape. -/
def reach : Numeral → Text → Text
  | _, [] => []
  | n, c :: rest =>
    match n.next? c with
    | some m => c :: reach m rest
    | none => []

theorem reach_cons_some {n m : Numeral} {c : Char} (h : n.next? c = some m) (rest : Text) :
    n.reach (c :: rest) = c :: m.reach rest := by
  rw [reach, h]

theorem reach_cons_none {n : Numeral} {c : Char} (h : n.next? c = none) (rest : Text) :
    n.reach (c :: rest) = [] := by
  rw [reach, h]

theorem reach_prefix (n : Numeral) (t : Text) : n.reach t <+: t := by
  induction t generalizing n with
  | nil => exact List.prefix_rfl
  | cons c rest ih =>
    cases hc : n.next? c with
    | none =>
      rw [reach_cons_none hc]
      exact List.nil_prefix
    | some m =>
      rw [reach_cons_some hc]
      exact (List.prefix_cons_inj c).2 (ih m)

theorem isSome_after?_reach (n : Numeral) (t : Text) : (n.after? (n.reach t)).isSome = true := by
  induction t generalizing n with
  | nil => rfl
  | cons c rest ih =>
    cases hc : n.next? c with
    | none =>
      rw [reach_cons_none hc]
      rfl
    | some m =>
      rw [reach_cons_some hc, after?_cons, hc]
      exact ih m

theorem prefix_reach {n : Numeral} {t v : Text} (hv : v <+: t) (h : (n.after? v).isSome = true) :
    v <+: n.reach t := by
  induction t generalizing n v with
  | nil =>
    rw [List.prefix_nil.1 hv]
    exact List.nil_prefix
  | cons c rest ih =>
    cases v with
    | nil => exact List.nil_prefix
    | cons d v =>
      obtain ⟨rfl, htail⟩ := List.cons_prefix_cons.1 hv
      rw [after?_cons] at h
      cases hd : n.next? d with
      | none =>
        rw [hd] at h
        cases h
      | some m =>
        rw [hd] at h
        rw [reach_cons_some hd]
        exact (List.prefix_cons_inj d).2 (ih htail h)

theorem reach_ne_nil (n : Numeral) {t : Text} (h : t.head?.any Char.isDigit = true) :
    n.reach t ≠ [] := by
  cases t with
  | nil => cases h
  | cons c rest =>
    obtain ⟨m, hm⟩ := Option.isSome_iff_exists.1 (next?_of_isDigit n h)
    rw [reach_cons_some hm]
    exact List.cons_ne_nil _ _

theorem longestMatch_reach_text {t : Text} (h : t.head?.any Char.isDigit = true) :
    LongestMatch grammar t (start.reach t) := by
  have hmatch := mem_grammar_iff_after?.2 ⟨start.reach_ne_nil h, isSome_after?_reach start t⟩
  refine ⟨⟨start.reach_prefix t, hmatch⟩, fun v hv hmem => ?_⟩
  exact (prefix_reach hv (mem_grammar_iff_after?.1 hmem).2).length_le

/-! ### Bytes -/

theorem isAscii_of_mem_grammar {w : Text} (h : w ∈ grammar.matches') {c : Char} (hc : c ∈ w) :
    isAscii c = true := by
  have hmarks := List.all_eq_true.1
    (rfl : (hexMarks ++ binaryMarks ++ digits).all isAscii = true)
  have hhex := List.all_eq_true.1 (rfl : hexTail.all isAscii = true)
  have hplain := List.all_eq_true.1 (rfl : plainTail.all isAscii = true)
  have hzero : isAscii '0' = true := rfl
  rcases mem_grammar_iff.1 h with ⟨d, hd, v, rfl, hv⟩ | ⟨d, hd, v, rfl, hv⟩ | ⟨d, hd, v, rfl, hv⟩
  · grind
  · grind
  · grind

theorem utf8_eq_map_asciiByte {w : Text} (h : ∀ c ∈ w, isAscii c = true) :
    w.utf8 = w.map asciiByte := by
  induction w with
  | nil => rfl
  | cons c w ih =>
    have hc := (isAscii_iff c).1 (h c (List.mem_cons_self ..))
    rw [(encodes_ascii hc).utf8_cons, ih fun d hd => h d (List.mem_cons_of_mem _ hd)]
    rfl

/-- The same expression over bytes. -/
def byteGrammar : RegularExpression UInt8 := grammar.map asciiByte

theorem mem_byteGrammar_iff {v : Bytes} :
    v ∈ byteGrammar.matches' ↔ ∃ w ∈ grammar.matches', Text.utf8 w = v := by
  rw [byteGrammar, RegularExpression.matches'_map]
  constructor
  · rintro ⟨w, hw, rfl⟩
    exact ⟨w, hw, utf8_eq_map_asciiByte fun c hc => isAscii_of_mem_grammar hw hc⟩
  · rintro ⟨w, hw, rfl⟩
    exact ⟨w, hw, (utf8_eq_map_asciiByte fun c hc => isAscii_of_mem_grammar hw hc).symm⟩

theorem longestMatch_reach {t : Text} (h : t.head?.any Char.isDigit = true) :
    LongestMatch byteGrammar t.utf8 (start.reach t).utf8 := by
  obtain ⟨⟨hfront, hmem⟩, hlongest⟩ := longestMatch_reach_text h
  refine ⟨⟨(Text.utf8_prefix_iff _ _).2 hfront, mem_byteGrammar_iff.2 ⟨_, hmem, rfl⟩⟩, ?_⟩
  intro v hv hmatch
  obtain ⟨w, hw, rfl⟩ := mem_byteGrammar_iff.1 hmatch
  have hle := hlongest w ((Text.utf8_prefix_iff _ _).1 hv) hw
  rw [utf8_eq_map_asciiByte fun c hc => isAscii_of_mem_grammar hw hc,
    utf8_eq_map_asciiByte fun c hc => isAscii_of_mem_grammar hmem hc, List.length_map,
    List.length_map]
  exact hle

end Numeral

end Highlighter
