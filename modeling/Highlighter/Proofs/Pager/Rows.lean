import Highlighter.Proofs.Bytes.Place
import Highlighter.Proofs.Pager.Screen

/-!
# The width of rows

Raw text is cut by columns: a row holds the longest start of its line that fits beside the line
number. The mode line is cut by columns too, but it is filled up by bytes, so that each byte
of a name beyond one for a column is a column that stays empty, `rows_fit_screen`. How wide a
character is the terminal decides; of the table of widths that a pager has nothing is used but
what it says of ASCII and of control characters.
-/

namespace Highlighter

/-! ### Tables of widths -/

namespace CharWidth

def isPrintable (c : Char) : Bool := 0x20 ≤ c.toNat && c.toNat < 0x7F

theorem isPrintable_iff {c : Char} : isPrintable c = true ↔ 0x20 ≤ c.toNat ∧ c.toNat < 0x7F := by
  simp [isPrintable]

/-- What is known of a table of widths: the printable characters of ASCII take one column each,
and no control character has a width, but for the null character in some tables. -/
structure Ordinary (charWidth? : Char → Option Nat) : Prop where
  printable : ∀ c, isPrintable c = true → charWidth? c = some 1
  control : ∀ c, isControl c = true → c ≠ '\x00' → charWidth? c = none

theorem ordinary_columns? : Ordinary columns? where
  printable c hc := by
    rw [isPrintable_iff] at hc
    have hprinted : isControl c = false := by
      simp [isControl]
      omega
    rw [columns?, hprinted, if_neg Bool.false_ne_true, if_pos hc.2]
  control c hc _ := by rw [columns?, if_pos hc]

end CharWidth

/-! ### Texts and columns -/

namespace Text

theorem byteSize_eq_length_iff (t : Text) : byteSize t = t.length ↔ t.all isAscii = true := by
  induction t with
  | nil => simp
  | cons c t ih =>
    have hpos := c.utf8Size_pos
    have hle := length_le_byteSize t
    have hone : c.utf8Size = 1 ↔ isAscii c = true := by
      rw [isAscii_iff, Char.utf8Size_eq_one_iff, UInt32.le_iff_toNat_le]
      exact Nat.lt_succ_iff.symm
    rw [List.all_cons, Bool.and_eq_true, ← hone, ← ih, byteSize_cons, List.length_cons]
    omega

theorem all_isPrintable_ofNat (n : Nat) : (ofNat n).all CharWidth.isPrintable = true := by
  rw [List.all_eq_true]
  intro c hc
  have hdigit : 48 ≤ c.toNat ∧ c.toNat ≤ 57 :=
    Char.isDigit_iff_toNat.1 (isDigit_of_mem_ofNat hc)
  rw [CharWidth.isPrintable_iff]
  omega

theorem all_isAscii_of_isPrintable {t : Text} (h : t.all CharWidth.isPrintable = true) :
    t.all isAscii = true := by
  rw [List.all_eq_true] at h ⊢
  intro c hc
  have hprinted := CharWidth.isPrintable_iff.1 (h c hc)
  rw [isAscii_iff]
  omega

theorem toList_toString (n : Nat) : (toString n).toList = ofNat n := by
  rw [Nat.toString_eq_ofList_toDigits, String.toList_ofList]
  rfl

theorem length_ofNat_le {m n : Nat} (h : m ≤ n) : (ofNat m).length ≤ (ofNat n).length := by
  have hpos := length_ofNat_pos n
  have hn : n < 10 ^ (ofNat n).length :=
    (Nat.length_toDigits_le_iff (by decide) hpos).1 (Nat.le_refl _)
  exact (Nat.length_toDigits_le_iff (by decide) hpos).2 (Nat.lt_of_le_of_lt h hn)

end Text

namespace Ruler

theorem columns_eq_length (ruler : Ruler) {t : Text} (h : ∀ c ∈ t, ruler.width c = 1) :
    ruler.columns t = t.length := by
  induction t with
  | nil => rfl
  | cons c t ih =>
    obtain ⟨hc, ht⟩ := List.forall_mem_cons.1 h
    rw [columns_cons, hc, ih ht, List.length_cons, Nat.add_comm]

/-- The longest start of the text that takes no more than the columns. -/
structure Longest (ruler : Ruler) (columns : Nat) (t start : Text) : Prop where
  starts : start <+: t
  fits : ruler.columns start ≤ columns
  longest : ∀ other, other <+: t → ruler.columns other ≤ columns → other <+: start

theorem longest_cut (ruler : Ruler) (columns : Nat) (t : Text) :
    ruler.Longest columns t (ruler.cut columns t) := by
  refine ⟨?_, ruler.columns_cut_le columns t, ?_⟩
  · induction t generalizing columns with
    | nil => exact List.prefix_rfl
    | cons c t ih =>
      rw [cut]
      split
      · exact List.cons_prefix_cons.2 ⟨rfl, ih _⟩
      · exact List.nil_prefix
  · intro other hother hfits
    -- A start that fits leaves room for its first character, so the cut goes along with it.
    induction other generalizing columns t with
    | nil => exact List.nil_prefix
    | cons d other ih =>
      cases t with
      | nil => cases List.prefix_nil.1 hother
      | cons c t =>
        obtain ⟨rfl, htail⟩ := List.cons_prefix_cons.1 hother
        rw [columns_cons] at hfits
        rw [cut, if_pos (by omega)]
        exact List.cons_prefix_cons.2 ⟨rfl, ih _ _ htail (by omega)⟩

theorem Longest.unique {ruler : Ruler} {columns : Nat} {t start start' : Text}
    (h : ruler.Longest columns t start) (h' : ruler.Longest columns t start') : start = start' :=
  (h'.longest start h.starts h.fits).eq_of_length_le
    (h.longest start' h'.starts h'.fits).length_le

theorem longest_take (ruler : Ruler) (columns : Nat) {t : Text} (h : ∀ c ∈ t, ruler.width c = 1) :
    ruler.Longest columns t (t.take columns) := by
  have hlength : ∀ start, start <+: t → ruler.columns start = start.length := fun start hstart =>
    ruler.columns_eq_length fun c hc => h c (hstart.subset hc)
  have hstarts := List.take_prefix columns t
  refine ⟨hstarts, ?_, ?_⟩
  · rw [hlength _ hstarts]
    exact List.length_take_le ..
  · intro other hother hfits
    rw [hlength other hother] at hfits
    rw [List.prefix_take_iff]
    exact ⟨hother, hfits⟩

theorem columns_cut_eq_min (ruler : Ruler) (columns : Nat) {t : Text}
    (h : ∀ c ∈ t, ruler.width c = 1) :
    ruler.columns (ruler.cut columns t) = min t.length columns := by
  have hcut := (ruler.longest_cut columns t).unique (ruler.longest_take columns h)
  rw [hcut, ruler.columns_eq_length fun c hc => h c (List.mem_of_mem_take hc), List.length_take,
    Nat.min_comm]

end Ruler

namespace Row

/-- The columns that a row takes. -/
def columns (ruler : Ruler) (row : Row) : Nat := ruler.columns (row.flatMap Run.text)

theorem flatMap_ofRuns (runs : List Run) :
    (ofRuns runs).flatMap Run.text = runs.flatMap Run.text := by
  induction runs with
  | nil => rfl
  | cons run runs ih =>
    rw [ofRuns] at ih
    rw [ofRuns, List.filter_cons, List.flatMap_cons]
    split
    · rw [List.flatMap_cons, ih]
    · rename_i hempty
      have hnil : run.text = [] := by simpa using hempty
      rw [hnil, ih, List.nil_append]

end Row

namespace Pager

section Widths
variable {p : Pager} (hordinary : CharWidth.Ordinary p.charWidth?)

theorem width_ruler (p : Pager) (c : Char) : p.ruler.width c = (p.charWidth? c).getD 1 := by
  rw [Ruler.width]
  split
  · rename_i htab
    rw [htab]
    rfl
  · rfl

include hordinary

theorem width_of_control {c : Char} (h : CharWidth.isControl c = true)
    (hnull : c = '\x00' → p.charWidth? c = none) : p.ruler.width c = 1 := by
  have hnone : p.charWidth? c = none := by
    by_cases hc : c = '\x00'
    · exact hnull hc
    · exact hordinary.control c h hc
  rw [width_ruler, hnone, Option.getD_none]

theorem width_of_printable {c : Char} (h : CharWidth.isPrintable c = true) :
    p.ruler.width c = 1 := by
  rw [width_ruler, hordinary.printable c h, Option.getD_some]

theorem columns_of_printable {t : Text} (h : t.all CharWidth.isPrintable = true) :
    p.ruler.columns t = t.length :=
  p.ruler.columns_eq_length fun c hc => width_of_printable hordinary (List.all_eq_true.1 h c hc)

end Widths

/-! ### Line numbers -/

theorem columns_gutter {p : Pager} (hordinary : CharWidth.Ordinary p.charWidth?) {index : Nat}
    (h : index < p.cache.lines.length) :
    p.ruler.columns (p.gutter index).text = p.gutterWidth := by
  by_cases hnumbers : p.lineNumbers = true
  · have htext : (p.gutter index).text =
        (Text.ofNat (index + 1)).padLeft (p.gutterWidth - 1) ++ [' '] := by
      rw [gutter, if_pos hnumbers]
    have hprinted : (p.gutter index).text.all CharWidth.isPrintable = true := by
      rw [htext, Text.padLeft, List.all_append, List.all_append, Text.all_isPrintable_ofNat]
      simp [CharWidth.isPrintable]
    have hdigits : (Text.ofNat (index + 1)).length ≤ (Text.ofNat p.cache.lines.length).length :=
      Text.length_ofNat_le h
    rw [columns_of_printable hordinary hprinted, htext, gutterWidth, if_pos hnumbers, Text.padLeft]
    simp only [List.length_append, List.length_replicate, List.length_singleton]
    omega
  · rw [gutter, gutterWidth, if_neg hnumbers, if_neg hnumbers]
    rfl

/-! ### The mode line -/

/-- The names in the mode line. -/
def names (p : Pager) : Text := p.document.name.toList ++ p.cache.language.name.toList

theorem all_isPrintable_position (p : Pager) :
    p.position.toList.all CharWidth.isPrintable = true := by
  rw [position]
  split
  · rfl
  · split
    · rfl
    · split
      · rfl
      · rw [String.toList_append, List.all_append, Text.toList_toString,
          Text.all_isPrintable_ofNat]
        rfl

/-- All but the names is printable ASCII. -/
theorem exists_modeText_eq (p : Pager) : ∃ opening between closing : Text,
    p.modeText = opening ++ p.document.name.toList ++ between ++ p.cache.language.name.toList ++
      closing ∧
    (opening ++ between ++ closing).all CharWidth.isPrintable = true := by
  let mode := if p.raw then "raw" else "fmt"
  let status := if p.cache.complete then "" else " [building]"
  have hmode : mode.toList.all CharWidth.isPrintable = true := by
    dsimp only [mode]
    split <;> rfl
  have hstatus : status.toList.all CharWidth.isPrintable = true := by
    dsimp only [status]
    split <;> rfl
  refine ⟨"-- ".toList, " (".toList, (") " ++ mode ++ " L" ++ toString (p.top + 1) ++ "/" ++
    toString p.cache.lines.length ++ " " ++ p.position ++ status ++ " ").toList, ?_, ?_⟩
  · simp only [modeText, mode, status, String.toList_append, List.append_assoc]
  · simp only [String.toList_append, List.all_append, Text.toList_toString,
      Text.all_isPrintable_ofNat, all_isPrintable_position, hmode, hstatus, Bool.and_true]
    rfl

theorem byteSize_modeText (p : Pager) :
    p.modeText.byteSize = p.modeText.length + (p.names.byteSize - p.names.length) := by
  obtain ⟨opening, between, closing, htext, hprinted⟩ := p.exists_modeText_eq
  have hsame := (Text.byteSize_eq_length_iff _).2 (Text.all_isAscii_of_isPrintable hprinted)
  have hname := Text.length_le_byteSize p.document.name.toList
  have hlanguage := Text.length_le_byteSize p.cache.language.name.toList
  simp only [htext, names, Text.byteSize_append, List.length_append] at hsame ⊢
  omega

section ModeLine
variable {p : Pager} (hordinary : CharWidth.Ordinary p.charWidth?)
  (hnames : ∀ c ∈ p.names, p.ruler.width c = 1)
include hordinary hnames

theorem width_of_mem_modeText {c : Char} (hc : c ∈ p.modeText) : p.ruler.width c = 1 := by
  obtain ⟨opening, between, closing, htext, hprinted⟩ := p.exists_modeText_eq
  have hrest : c ∈ opening ++ between ++ closing → p.ruler.width c = 1 := fun hmem =>
    width_of_printable hordinary (List.all_eq_true.1 hprinted c hmem)
  rw [htext] at hc
  simp only [names, List.mem_append] at hnames hrest hc
  rcases hc with (((hc | hc) | hc) | hc) | hc
  · exact hrest (.inl (.inl hc))
  · exact hnames c (.inl hc)
  · exact hrest (.inl (.inr hc))
  · exact hnames c (.inr hc)
  · exact hrest (.inr hc)

/-- The mode line is filled up to the columns less the bytes that are no columns. -/
theorem columns_modeLine : p.modeLine.columns p.ruler =
    if p.modeText.byteSize < p.screen.columns then
      p.screen.columns - (p.names.byteSize - p.names.length)
    else min p.modeText.length p.screen.columns := by
  have hone : ∀ c ∈ p.modeText, p.ruler.width c = 1 := fun c hc =>
    width_of_mem_modeText hordinary hnames hc
  have hdashes (n : Nat) : p.ruler.columns (List.replicate n '-') = n := by
    rw [columns_of_printable hordinary (by simp [CharWidth.isPrintable]), List.length_replicate]
  rw [modeLine, Row.columns, Row.flatMap_ofRuns]
  simp only [List.flatMap_cons, List.flatMap_nil, List.append_nil]
  split
  · rename_i hroom
    have hbytes := p.byteSize_modeText
    -- The dashes make up the bytes, so the columns stay short by what the bytes are more.
    rw [Ruler.columns_append, p.ruler.columns_eq_length hone, hdashes]
    omega
  · exact p.ruler.columns_cut_eq_min _ hone

end ModeLine

/-- In raw mode the row of a line is its number and the longest start of the line that fits beside
it. The mode line takes all the columns if it is cut or its names are ASCII; else it is short of
the screen by the bytes of the names that are no columns, or not filled up at all. -/
theorem rows_fit_screen (p : Pager) (hordinary : CharWidth.Ordinary p.charWidth?) :
    let columns := p.screen.columns
    let used := p.modeText.length
    let extra := p.names.byteSize - p.names.length
    (p.frame.getLast? = some p.modeLine ∧
      ((∀ c ∈ p.names, p.ruler.width c = 1) →
        p.modeLine.columns p.ruler =
          (if used + extra < columns then columns - extra else min used columns) ∧
        (p.modeLine.columns p.ruler = columns ↔
          columns ≤ used ∨ p.names.all isAscii = true))) ∧
    (∀ c, CharWidth.isControl c = true → (c = '\x00' → p.charWidth? c = none) →
      p.ruler.width c = 1) ∧
    (p.raw = true → ∀ n < p.screen.height, ∀ line, p.cache.lines[p.top + n]? = some line →
      ∃ text, p.frame[n]? = some (Row.ofRuns [p.gutter (p.top + n), ⟨.normal, text⟩]) ∧
        p.ruler.columns (p.gutter (p.top + n)).text = p.gutterWidth ∧
        p.ruler.Longest (columns - p.gutterWidth) line.raw text) := by
  intro columns used extra
  refine ⟨⟨List.getLast?_concat .., ?_⟩, fun c => width_of_control hordinary, ?_⟩
  · intro hnames
    have hwidth := columns_modeLine hordinary hnames
    rw [p.byteSize_modeText] at hwidth
    refine ⟨hwidth, ?_⟩
    have hextra : p.names.all isAscii = true ↔ extra = 0 := by
      have hle := Text.length_le_byteSize p.names
      rw [← Text.byteSize_eq_length_iff]
      dsimp only [extra]
      omega
    rw [hextra, hwidth]
    show (if used + extra < columns then columns - extra else min used columns) = columns ↔ _
    split <;> omega
  · intro hraw n hn line hline
    refine ⟨p.ruler.cut (columns - p.gutterWidth) line.raw, ?_, ?_, p.ruler.longest_cut _ _⟩
    · rw [getElem?_frame p hn, row, hline]
      simp only [hraw, if_true]
      rfl
    · exact columns_gutter hordinary (List.getElem?_eq_some_iff.1 hline).1

theorem forall_width_of_all {ruler : Ruler} {t : Text} (h : t.all (ruler.width · == 1) = true) :
    ∀ c ∈ t, ruler.width c = 1 := by
  intro c hc
  exact eq_of_beq (List.all_eq_true.1 h c hc)

theorem ordinary_advance_start (settings : Settings) (screen : Screen) (d : Document)
    (body : Text) : CharWidth.Ordinary (start settings screen d body).advance.charWidth? := by
  have hkept (p : Pager) : p.advance.charWidth? = p.charWidth? := by
    rw [advance]
    split
    · dsimp only
      split <;> rfl
    · split <;> rfl
  rw [hkept]
  exact CharWidth.ordinary_columns?

/-- A wide character at the edge of the screen is left out. -/
theorem rows_fit_screen_wide :
    let loaded := Document.ofText {} Language.plain "é.txt" "日本".toList
    let p := { (start {} ⟨7, 2⟩ loaded.1 loaded.2).advance with raw := true, lineNumbers := true }
    CharWidth.Ordinary p.charWidth? ∧ (∀ c ∈ p.names, p.ruler.width c = 1) ∧
      p.modeLine.columns p.ruler = 7 ∧ p.raw = true ∧
      ∃ text, p.frame[0]? = some (Row.ofRuns [p.gutter p.top, ⟨.normal, text⟩]) ∧
        p.ruler.columns (p.gutter p.top).text = 4 ∧
        p.ruler.Longest 3 "日本".toList text := by
  intro loaded p
  obtain ⟨hnames, hcolumns, hused, hheight, hgutter, hraw⟩ :
      p.names.all (p.ruler.width · == 1) = true ∧ p.screen.columns = 7 ∧
      7 ≤ p.modeText.length ∧ 0 < p.screen.height ∧ p.gutterWidth = 4 ∧
      p.cache.lines[p.top + 0]?.map Line.raw = some "日本".toList := by
    decide +kernel
  have hordinary : CharWidth.Ordinary p.charWidth? := ordinary_advance_start ..
  have hnames := forall_width_of_all hnames
  obtain ⟨line, hline, hraw⟩ := Option.map_eq_some_iff.1 hraw
  obtain ⟨⟨-, hmode⟩, -, hrows⟩ := rows_fit_screen p hordinary
  rw [hcolumns] at hmode hrows
  obtain ⟨text, hrow, hnumber, hlongest⟩ := hrows rfl 0 hheight line hline
  rw [hgutter] at hnumber hlongest
  rw [hraw] at hlongest
  exact ⟨hordinary, hnames, (hmode hnames).2.2 (.inl hused), rfl, text, hrow, hnumber, hlongest⟩

/-- One character of two bytes in the name, and the mode line is a column short. -/
theorem modeLine_falls_short :
    let loaded := Document.ofText {} Language.plain "é.txt" []
    let p := (start {} ⟨40, 2⟩ loaded.1 loaded.2).advance
    CharWidth.Ordinary p.charWidth? ∧ (∀ c ∈ p.names, p.ruler.width c = 1) ∧
      p.draw.1 = some p.frame ∧ p.frame.getLast? = some p.modeLine ∧ p.screen.columns = 40 ∧
      p.modeLine.columns p.ruler = 39 :=
  ⟨ordinary_advance_start .., forall_width_of_all (by decide +kernel), by decide +kernel⟩

end Pager

end Highlighter
