import Highlighter.Proofs.Bytes.Place

/-!
# Answers at a place

At an offset between two characters, the questions asked of bytes have the answers that
the characters before and after the place give.
-/

namespace Highlighter

/-! ### Line ends, marks and tokens -/

namespace Bytes

namespace At
variable {bs : Bytes} {i : Nat} {before rest : Text} (h : At bs i before rest)
include h

theorem lineEnd?_eq : bs.lineEnd? i = (Highlighter.lineEnd? rest).map Text.byteSize := by
  cases hr : rest with
  | nil =>
    rw [Bytes.lineEnd?, h.getElem?_nil hr]
    rfl
  | cons c after =>
    obtain ⟨lead, tail, hc⟩ := encodes c
    rw [Bytes.lineEnd?, h.getElem?_cons hr hc]
    dsimp only
    by_cases hn : c = '\n'
    · subst hn
      rw [if_pos ((hc.lead_eq_iff rfl).2 rfl)]
      rfl
    rw [if_neg (fun hl => hn ((hc.lead_eq_iff rfl).1 hl))]
    by_cases hcr : c = '\r'
    · subst hcr
      rw [if_pos ((hc.lead_eq_iff rfl).2 rfl)]
      have hnext := h.next hr
      have hsize : ('\r' : Char).utf8Size = 1 := rfl
      rw [hsize] at hnext
      cases hr' : after with
      | nil =>
        rw [hnext.getElem?_nil hr']
        rfl
      | cons d after =>
        obtain ⟨lead', tail', hd⟩ := encodes d
        rw [hnext.getElem?_cons hr' hd]
        by_cases hdn : d = '\n'
        · subst hdn
          rw [if_pos (by rw [(hd.lead_eq_iff rfl).2 rfl])]
          rfl
        · rw [if_neg (fun hl => hdn ((hd.lead_eq_iff rfl).1 (Option.some.inj hl)))]
          have hne : Highlighter.lineEnd? ('\r' :: d :: after) = some ['\r'] := by
            unfold Highlighter.lineEnd?
            split <;> simp_all
          rw [hne]
          rfl
    · rw [if_neg (fun hl => hcr ((hc.lead_eq_iff rfl).1 hl))]
      have hnone : Highlighter.lineEnd? (c :: after) = none := by
        rw [lineEnd?_eq_none_iff]
        simp [isBreak, hn, hcr]
      rw [hnone]
      rfl

theorem byteIs_eq (mark : Option Char) : bs.byteIs i mark = startsWith mark rest := by
  cases hr : rest with
  | nil =>
    unfold byteIs
    rw [h.getElem?_nil hr]
    cases mark <;> rfl
  | cons c after =>
    obtain ⟨lead, tail, hc⟩ := encodes c
    unfold byteIs
    rw [h.getElem?_cons hr hc]
    cases mark with
    | none => simp [startsWith]
    | some m =>
      cases hm : isAscii m with
      | true =>
        have hlead := hc.lead_beq hm
        simp only [startsWith, hm, hlead, Bool.true_and]
        by_cases hcm : c = m
        · subst hcm
          simp [hm]
        · have hne : (some m == some c) = false := by
            simp [Ne.symm hcm]
          simp [hcm, hne]
      | false =>
        simp only [startsWith, hm, Bool.false_and]
        by_cases hcm : c = m
        · subst hcm
          simp [hm]
        · simp [Ne.symm hcm]

theorem token?_eq (token : Text) :
    bs.token? i token = (Language.token? token rest).map Text.byteSize := by
  have hprefix : token.utf8.isPrefixOf (bs.drop i) = token.isPrefixOf rest := by
    rw [h.drop_eq, Bool.eq_iff_iff, List.isPrefixOf_iff_prefix, List.isPrefixOf_iff_prefix]
    exact Text.utf8_prefix_iff token rest
  rw [Bytes.token?, Language.token?, hprefix]
  by_cases ht : !token.isEmpty && token.isPrefixOf rest
  · have hlt : i < bs.length := by
      simp only [Bool.and_eq_true, Bool.not_eq_true', List.isEmpty_eq_false_iff] at ht
      obtain ⟨after, rfl⟩ := List.isPrefixOf_iff_prefix.1 ht.2
      have hpos : token.byteSize ≠ 0 := fun hz => ht.1 ((Text.byteSize_eq_zero_iff token).1 hz)
      rw [h.length_eq, Text.byteSize_append]
      omega
    rw [if_pos ht, if_pos]
    · simp
    · simp only [Bool.and_eq_true] at ht ⊢
      exact ⟨⟨ht.1, by simpa using hlt⟩, ht.2⟩
  · rw [if_neg ht, if_neg]
    · rfl
    · intro hb
      simp only [Bool.and_eq_true] at hb ht
      exact ht ⟨hb.1.1, hb.2⟩

/-- The mark after an ASCII character. -/
theorem byteIs_next {mark : Option Char} (hm : startsWith mark rest = true) (mark' : Option Char) :
    bs.byteIs (i + 1) mark' = startsWith mark' rest.tail := by
  obtain ⟨c, after, hr, -, hc⟩ := exists_of_startsWith hm
  have hsize : c.utf8Size = 1 := by
    rw [(encodes_ascii ((isAscii_iff c).1 hc)).utf8Size_eq]
    rfl
  have hnext := (h.next hr).byteIs_eq mark'
  rw [hsize] at hnext
  rw [hr]
  exact hnext

end At

end Bytes

/-! ### The bytes of words and of what stands before a place -/

namespace Text

theorem takeWhile_isIdentByte (t : Text) :
    t.utf8.takeWhile Bytes.isIdentByte = Text.utf8 (identAt t) := by
  induction t with
  | nil => rfl
  | cons c t ih =>
    obtain ⟨lead, tail, hc⟩ := encodes c
    cases hascii : isAscii c with
    | true =>
      obtain ⟨rfl, rfl⟩ := hc.ascii hascii
      have hident : Bytes.isIdentByte c.toNat.toUInt8 = isIdent c :=
        Bytes.isIdentByte_asciiByte hascii
      rw [hc.utf8_cons, List.nil_append, List.takeWhile_cons, identAt, List.takeWhile_cons, hident]
      cases isIdent c with
      | false => rfl
      | true =>
        rw [if_pos rfl, if_pos rfl, hc.utf8_cons, ih]
        rfl
    | false =>
      have hident := isIdent_of_beyond hascii
      have hcode : ∀ b ∈ lead :: tail, Bytes.isIdentByte b = true := by
        intro b hb
        refine Bytes.isIdentByte_of_beyond ?_
        rcases List.mem_cons.1 hb with rfl | hb
        · have hlead := (hc.beyond hascii).1
          omega
        · exact hc.tail_beyond hb
      have hword : identAt (c :: t) = c :: identAt t := by
        rw [identAt, List.takeWhile_cons, if_pos hident]
        rfl
      rw [hc.utf8_cons, ← List.cons_append, List.takeWhile_append_of_pos hcode, ih, hword,
        hc.utf8_cons]
      rfl

theorem indentOnly_bytes (before : Text) :
    ((Text.utf8 before.reverse).reverse.takeWhile fun b => !Bytes.isBreakByte b).all
      (fun b => b == asciiByte ' ' || b == asciiByte '\t') = Language.indentOnly before := by
  induction before with
  | nil => rfl
  | cons c before ih =>
    obtain ⟨lead, tail, hc⟩ := encodes c
    have hcode : (Text.utf8 (c :: before).reverse).reverse =
        tail.reverse ++ lead :: (Text.utf8 before.reverse).reverse := by
      rw [List.reverse_cons, utf8_append, hc.utf8_cons, utf8_nil]
      simp
    rw [hcode, Language.indentOnly, List.takeWhile_cons]
    cases hascii : isAscii c with
    | true =>
      obtain ⟨-, htail⟩ := hc.ascii hascii
      have hsp : (lead == asciiByte ' ') = (c == ' ') := hc.lead_beq rfl
      have htab : (lead == asciiByte '\t') = (c == '\t') := hc.lead_beq rfl
      rw [htail, List.reverse_nil, List.nil_append, List.takeWhile_cons, hc.isBreakByte_lead]
      cases isBreak c with
      | true => rfl
      | false =>
        simp only [Bool.not_false, if_true, List.all_cons, hsp, htab, ih]
        rfl
    | false =>
      -- A character beyond ASCII is neither a line end nor a blank.
      obtain ⟨hlead, hne⟩ := hc.beyond hascii
      have hbreak := isBreak_of_beyond hascii
      have hblank : (c == ' ' || c == '\t') = false := by
        rw [Bool.or_eq_false_iff, beq_eq_false_iff_ne, beq_eq_false_iff_ne]
        constructor <;> rintro rfl <;> cases hascii
      obtain ⟨init, b, hb⟩ := List.eq_nil_or_concat tail |>.resolve_left hne
      have hbeyond : 128 ≤ b.toNat := hc.tail_beyond (by simp [hb])
      have hsp := Bytes.ne_asciiByte hbeyond (d := ' ') rfl
      have htab := Bytes.ne_asciiByte hbeyond (d := '\t') rfl
      rw [hb, List.concat_eq_append, List.reverse_append, List.reverse_singleton,
        List.singleton_append, List.cons_append, List.takeWhile_cons,
        Bytes.isBreakByte_of_beyond hbeyond, hbreak]
      simp [hblank, hsp, htab]

end Text

namespace Bytes.At
variable {bs : Bytes} {i : Nat} {before rest : Text} (h : At bs i before rest)
include h

theorem word?_eq :
    bs.word? i = if identAt rest = [] then none else some (Text.utf8 (identAt rest)) := by
  have hident : (bs.drop i).takeWhile isIdentByte = Text.utf8 (identAt rest) := by
    rw [h.drop_eq]
    exact Text.takeWhile_isIdentByte rest
  obtain ⟨after, hafter⟩ : identAt rest <+: rest := List.takeWhile_prefix _
  have hlen := h.length_eq
  unfold word?
  rw [hident, h.isBoundary, Text.length_utf8]
  by_cases hnil : identAt rest = []
  · rw [if_pos hnil, hnil]
    split <;> simp
  · have hpos : (identAt rest).byteSize ≠ 0 := fun hz => hnil ((Text.byteSize_eq_zero_iff _).1 hz)
    have hsize := congrArg Text.byteSize hafter
    rw [Text.byteSize_append] at hsize
    have hslice := Text.slice?_utf8 before.reverse (identAt rest) after
    rw [List.append_assoc, hafter, ← h.bytes, Text.byteSize_reverse, ← h.index] at hslice
    rw [if_neg hnil, if_neg (by simp; omega)]
    dsimp only
    rw [if_neg (by omega), hslice]

theorem atWordStart_eq : bs.atWordStart i = Highlighter.atWordStart before := by
  cases hb : before with
  | nil =>
    have hi : i = 0 := by
      rw [h.index, hb]
      rfl
    rw [hi]
    rfl
  | cons c outer =>
    obtain ⟨lead, tail, hc⟩ := encodes c
    have hsize := hc.utf8Size_eq
    have hindex : i = Text.byteSize outer + c.utf8Size := by
      rw [h.index, hb, Text.byteSize_cons, Nat.add_comm]
    -- The byte before the place is the last one of the character before it.
    have hget : bs[i - 1]? = (lead :: tail)[tail.length]? := by
      have hbytes : bs = Text.utf8 outer.reverse ++ (lead :: tail ++ Text.utf8 rest) := by
        rw [h.bytes, hb, List.reverse_cons, List.append_assoc, List.singleton_append,
          Text.utf8_append, hc.utf8_cons]
        rfl
      rw [hbytes, List.getElem?_append_right (by rw [Text.length_utf8, Text.byteSize_reverse]; omega),
        Text.length_utf8, Text.byteSize_reverse]
      have hoff : i - 1 - Text.byteSize outer = tail.length := by omega
      rw [hoff, List.getElem?_append_left (by simp)]
    have hi : (i == 0) = false := by
      rw [beq_eq_false_iff_ne]
      omega
    rw [Bytes.atWordStart, hi, hget, Bool.false_or, Highlighter.atWordStart]
    cases hascii : isAscii c with
    | true =>
      obtain ⟨rfl, rfl⟩ := hc.ascii hascii
      have hident : isIdentByte c.toNat.toUInt8 = isIdent c := isIdentByte_asciiByte hascii
      simp [hident]
    | false =>
      have hne := (hc.beyond hascii).2
      have hmem : (lead :: tail)[tail.length]? = some (tail.getLast hne) := by
        rw [List.getLast_eq_getElem]
        have hpos : 0 < tail.length := List.length_pos_iff.2 hne
        rw [List.getElem?_cons, if_neg (by omega), List.getElem?_eq_getElem (by omega)]
      have hbeyond := hc.tail_beyond (List.getLast_mem hne)
      rw [hmem, isIdent_of_beyond hascii]
      simp [isIdentByte_of_beyond hbeyond]

end Bytes.At

/-! ### Openers and words -/

theorem byteSize_take_one {mark : Option Char} {rest : Text} (h : startsWith mark rest = true) :
    Text.byteSize (rest.take 1) = 1 := by
  obtain ⟨c, after, rfl, -, hc⟩ := exists_of_startsWith h
  have hsize := (encodes_ascii ((isAscii_iff c).1 hc)).utf8Size_eq
  rw [List.take_succ_cons, List.take_zero, Text.byteSize_cons, hsize]
  rfl

theorem firstChar?_cons (c : Char) (t : Text) : Bytes.firstChar? (Text.utf8 (c :: t)) = some c := by
  rw [Bytes.firstChar?, Text.utf8_cons, List.toByteArray_append,
    ByteArray.utf8DecodeChar?_utf8EncodeChar_append]

theorem firstChar?_nil : Bytes.firstChar? [] = none := by decide

/-- In a window of bytes those that go on with a character are passed over. -/
theorem window_append {delimiter : Char} (hd : isAscii delimiter = true) {tail : Bytes}
    (ht : ∀ b ∈ tail, 128 ≤ b.toNat) (x : Bytes) (n : Nat) :
    (((tail ++ x).take n).takeWhile fun b => !Bytes.isBreakByte b).any
        (fun b => b == asciiByte delimiter) =
      ((x.take (n - tail.length)).takeWhile fun b => !Bytes.isBreakByte b).any
        fun b => b == asciiByte delimiter := by
  have hpass : ∀ b ∈ tail.take n, (!Bytes.isBreakByte b) = true := by
    intro b hb
    rw [Bytes.isBreakByte_of_beyond (ht b (List.mem_of_mem_take hb))]
    rfl
  have hnone : (tail.take n).any (fun b => b == asciiByte delimiter) = false := by
    rw [List.any_eq_false]
    intro b hb
    have hne := Bytes.ne_asciiByte (ht b (List.mem_of_mem_take hb)) hd
    simpa using hne
  rw [List.take_append, List.takeWhile_append_of_pos hpass, List.any_append, hnone, Bool.false_or]

theorem window_utf8 {delimiter : Char} (hd : isAscii delimiter = true) (t : Text) (budget : Nat) :
    (((Text.utf8 t).take budget).takeWhile fun b => !Bytes.isBreakByte b).any
      (fun b => b == asciiByte delimiter) = Language.delimiterWithin delimiter budget t := by
  induction t generalizing budget with
  | nil =>
    rw [Text.utf8_nil, List.take_nil]
    rfl
  | cons c t ih =>
    obtain ⟨lead, tail, hc⟩ := encodes c
    have hsize := hc.utf8Size_eq
    rw [Language.delimiterWithin]
    by_cases hb : budget = 0
    · rw [hb, if_pos rfl]
      rfl
    rw [if_neg hb]
    obtain ⟨n, rfl⟩ := Nat.exists_eq_succ_of_ne_zero hb
    rw [hc.utf8_cons, List.take_succ_cons, List.takeWhile_cons, hc.isBreakByte_lead]
    cases hbreak : isBreak c with
    | true => rfl
    | false =>
      have hbudget : n + 1 - c.utf8Size = n - tail.length := by omega
      have htail : ∀ b ∈ tail, 128 ≤ b.toNat := fun b hb => hc.tail_beyond hb
      simp only [Bool.not_false, if_true, List.any_cons, hc.lead_beq hd,
        window_append hd htail, hbudget, ih]
      rfl

theorem charCloses_cons_cons {delimiter c : Char} (hc : c ≠ '\\') (d : Char) (t : Text) :
    Language.charCloses delimiter (c :: d :: t) =
      (!isBreak c && c != delimiter && d == delimiter) := by
  unfold Language.charCloses
  split <;> simp_all

theorem toNat_beq_asciiByte {d : Char} (hd : isAscii d = true) (c : Char) :
    (c.toNat == (asciiByte d).toNat) = (c == d) := by
  rw [toNat_asciiByte hd, Bool.eq_iff_iff, beq_iff_eq, beq_iff_eq]
  exact Char.toNat_inj

namespace Language
variable (lang : Language) {bs : Bytes} {i : Nat} {before rest : Text} (h : bs.At i before rest)
include h

theorem commentOpenerLen?_eq :
    lang.commentOpenerLen? bs i = (lang.commentOpener? rest).map Text.byteSize := by
  unfold commentOpenerLen? commentOpener?
  cases lang.blockComment with
  | none => rfl
  | some pair => exact h.token?_eq pair.1

theorem commentCloserLen?_eq :
    lang.commentCloserLen? bs i = (lang.commentCloser? rest).map Text.byteSize := by
  unfold commentCloserLen? commentCloser?
  cases lang.blockComment with
  | none => rfl
  | some pair => exact h.token?_eq pair.2

theorem lineCommentLen?_eq :
    lang.lineCommentLen? bs i = (lang.lineComment? rest).map Text.byteSize := by
  unfold lineCommentLen? lineComment?
  cases lang.lineComment with
  | none => rfl
  | some opener => exact h.token?_eq opener

theorem directiveAtByte_eq : lang.directiveAtByte bs i = lang.directiveAt before rest := by
  rw [directiveAtByte, directiveAt, h.byteIs_eq, h.take_eq, Text.indentOnly_bytes]

theorem stringOpenerLen?_eq :
    lang.stringOpenerLen? bs i = (lang.stringOpener? rest).map Text.byteSize := by
  rw [stringOpenerLen?, stringOpener?, h.byteIs_eq, h.byteIs_eq]
  cases hv : startsWith lang.verbatimMark rest with
  | false =>
    cases hs : startsWith lang.stringDelimiter rest with
    | false => rfl
    | true =>
      have hone := byteSize_take_one hs
      simp [hone]
  | true =>
    rw [h.byteIs_next hv]
    cases hq : startsWith lang.stringDelimiter rest.tail with
    | true =>
      have hfirst := byteSize_take_one hv
      have hsecond := byteSize_take_one hq
      obtain ⟨c, after, rfl, -, -⟩ := exists_of_startsWith hv
      rw [List.take_succ_cons, List.take_zero] at hfirst
      have htwo : Text.byteSize ((c :: after).take 2) = 2 := by
        rw [List.take_succ_cons, ← List.singleton_append, Text.byteSize_append, hfirst]
        rw [List.tail_cons] at hsecond
        omega
      simp only [Bool.and_self, if_true, Option.map_some, htwo]
    | false =>
      cases hs : startsWith lang.stringDelimiter rest with
      | false => rfl
      | true =>
        have hone := byteSize_take_one hs
        simp [hone]

theorem charClosesByte_eq {delimiter c : Char} {after : Text} (hr : rest = c :: after)
    (hc : isAscii c = true) (hd : isAscii delimiter = true) :
    charClosesByte bs i (asciiByte delimiter) = charCloses delimiter after := by
  have hsize : c.utf8Size = 1 := (encodes_ascii ((isAscii_iff c).1 hc)).utf8Size_eq
  have hnext := h.next hr
  rw [hsize] at hnext
  rw [charClosesByte, hnext.isBoundary, hnext.drop_eq, Bool.true_and]
  dsimp only
  cases after with
  | nil => rfl
  | cons d after =>
    rw [firstChar?_cons]
    dsimp only
    by_cases hesc : d = '\\'
    · subst hesc
      rw [if_pos rfl]
      cases after with
      | nil => rfl
      | cons e after =>
        obtain ⟨lead, tail, he⟩ := encodes e
        have hwidth := he.utf8Size_eq
        have hdrop : (Text.utf8 ('\\' :: e :: after)).drop 2 = tail ++ Text.utf8 after := by
          rw [(encodes_ascii (c := '\\') (by decide)).utf8_cons, he.utf8_cons]
          rfl
        have hbudget : escapeWindow + 1 - e.utf8Size = escapeWindow - tail.length := by omega
        have htail : ∀ b ∈ tail, 128 ≤ b.toNat := fun b hb => he.tail_beyond hb
        rw [hdrop, window_append hd htail, window_utf8 hd, charCloses, hbudget]
    · have hrest : (Text.utf8 (d :: after)).drop d.utf8Size = Text.utf8 after := by
        rw [Text.utf8_cons, List.drop_left' (String.length_utf8EncodeChar d)]
      rw [if_neg hesc, hrest, bne, toNat_beq_asciiByte hd]
      cases after with
      | nil =>
        have hlast : charCloses delimiter [d] = false := by
          unfold charCloses
          split <;> simp_all
        rw [Text.utf8_nil, firstChar?_nil, hlast]
        simp
      | cons e after =>
        rw [firstChar?_cons, Option.any_some, toNat_beq_asciiByte hd, charCloses_cons_cons hesc]
        rfl

theorem charOpenerLen?_eq :
    lang.charOpenerLen? bs i = (lang.charOpener? rest).map Text.byteSize := by
  rw [charOpenerLen?]
  cases hm : lang.charDelimiter with
  | none =>
    cases hr : rest with
    | nil => rfl
    | cons c after =>
      rw [charOpener?, hm]
      simp [startsWith]
  | some delimiter =>
    dsimp only
    rw [h.byteIs_eq]
    cases hs : startsWith (some delimiter) rest with
    | false =>
      cases hr : rest with
      | nil => rfl
      | cons c after =>
        rw [hr] at hs
        rw [charOpener?, hm, hs]
        rfl
    | true =>
      obtain ⟨c, after, hr, hc, hascii⟩ := exists_of_startsWith hs
      have hdc : delimiter = c := Option.some.inj hc
      have hsize : c.utf8Size = 1 := (encodes_ascii ((isAscii_iff c).1 hascii)).utf8Size_eq
      have hone : Text.byteSize [c] = 1 := by
        rw [Text.byteSize_cons, hsize]
        rfl
      rw [hdc, charClosesByte_eq h hr hascii hascii, hr, charOpener?, hm, hdc, ← hr, ← hdc, hs, hdc]
      cases !lang.charLookahead || charCloses c after with
      | false => rfl
      | true => simp [hone]

omit h in
theorem closesByte_lead {c : Char} {lead : UInt8} {tail : Bytes} (hc : Encodes c lead tail)
    (quote : Quote) : lang.closesByte quote lead = lang.closes quote c := by
  have key : ∀ mark : Option Char,
      (mark.any fun d => isAscii d && lead == asciiByte d) = startsWith mark [c] := by
    intro mark
    cases mark with
    | none => simp [startsWith]
    | some d =>
      cases hd : isAscii d with
      | true =>
        rw [Option.any_some, hd, hc.lead_beq hd, Bool.true_and, startsWith]
        by_cases hcd : c = d
        · subst hcd
          simp [hd]
        · have hne : (c == d) = false := beq_eq_false_iff_ne.2 hcd
          have hne' : (d == c) = false := beq_eq_false_iff_ne.2 (Ne.symm hcd)
          simp [hne, hne']
      | false =>
        rw [Option.any_some, hd, Bool.false_and, startsWith]
        by_cases hcd : c = d
        · subst hcd
          simp [hd]
        · simp [Ne.symm hcd]
  cases quote with
  | string => exact key lang.stringDelimiter
  | char => exact key lang.charDelimiter

omit h in
theorem any_utf8_beq (table : List Text) (word : Text) :
    (table.any fun k => k.utf8 == word.utf8) = table.contains word := by
  rw [Bool.eq_iff_iff, List.any_eq_true, List.contains_iff_mem]
  constructor
  · rintro ⟨k, hk, heq⟩
    rw [beq_iff_eq] at heq
    rwa [← Text.utf8_injective heq]
  · intro hw
    exact ⟨word, hw, by simp⟩

theorem tableLen?_eq (table : List Text) :
    ((bs.word? i).filter fun w => table.any fun k => k.utf8 == w).map List.length =
      (if !(identAt rest).isEmpty && table.contains (identAt rest) then some (identAt rest)
        else none).map Text.byteSize := by
  rw [h.word?_eq]
  by_cases hnil : identAt rest = []
  · simp [hnil]
  · have hempty : (identAt rest).isEmpty = false := by simpa using hnil
    rw [if_neg hnil, hempty, Option.filter_some, any_utf8_beq]
    cases table.contains (identAt rest) with
    | false => rfl
    | true => simp

theorem keywordLen?_eq : lang.keywordLen? bs i = (lang.keyword? rest).map Text.byteSize :=
  tableLen?_eq h lang.keywords

theorem typeLen?_eq : lang.typeLen? bs i = (lang.type? rest).map Text.byteSize :=
  tableLen?_eq h lang.types

end Language

end Highlighter
