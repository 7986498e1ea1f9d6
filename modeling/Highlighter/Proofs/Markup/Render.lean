import Highlighter.Proofs.Markup.Strip
import Highlighter.Store.Path

/-!
# What a renderer shows

A renderer reads written text from left to right: a tag sets the colour or clears it, an escape
shows the character it stands for, and any other character shows itself. Of written blocks it
reads the tags of each block around the characters of its content, and nothing else: no content
is read as a tag, wherever it stands and whatever is next to it.
-/

namespace Highlighter

/-- What a renderer reads in one go. -/
inductive Sign where
  | setColor (color : Color)
  | clearColor
  /-- A character by its escape. -/
  | escaped (c : Char)
  /-- A character that stands for itself. -/
  | plain (c : Char)
  deriving DecidableEq, Repr

namespace Sign

/-- The characters that are shown, each with the colour that is set by then, and the colour that
is set at the end. -/
def paint (color? : Option Color) : List Sign → List (Char × Option Color) × Option Color
  | [] => ([], color?)
  | .setColor color :: rest => paint (some color) rest
  | .clearColor :: rest => paint none rest
  | .escaped c :: rest | .plain c :: rest =>
    let (shown, last) := paint color? rest
    ((c, color?) :: shown, last)

theorem paint_append (color? : Option Color) (signs rest : List Sign) :
    paint color? (signs ++ rest) =
      ((paint color? signs).1 ++ (paint (paint color? signs).2 rest).1,
        (paint (paint color? signs).2 rest).2) := by
  induction signs generalizing color? with
  | nil => rfl
  | cons sign signs ih =>
    cases sign with
    | setColor color => exact ih (some color)
    | clearColor => exact ih none
    | escaped c | plain c =>
      show ((c, color?) :: (paint color? (signs ++ rest)).1, (paint color? (signs ++ rest)).2) = _
      rw [ih]
      rfl

end Sign

namespace Markup

/-! ### Reading -/

/-- A sign of rich text at the start of the text, and how many characters it has besides its
first. -/
def richSign? (t : Text) : Option (Sign × Nat) :=
  if shownLess.isPrefixOf t then some (.escaped '<', shownLess.length - 1)
  else if "</color>".toList.isPrefixOf t then some (.clearColor, 7)
  else
    match t.after? "<color=#".toList with
    | some (r :: r' :: g :: g' :: b :: b' :: '>' :: _) => do
      return (.setColor ⟨← Color.channel? r r', ← Color.channel? g g', ← Color.channel? b b'⟩, 14)
    | _ => none

/-- A channel of a colour in decimal digits. -/
def decimalChannel? (digits : Text) : Option UInt8 :=
  let n := Nat.ofDigitChars 10 digits 0
  if !digits.isEmpty && digits.all Char.isDigit && n < 256 then some (UInt8.ofNat n) else none

def ansiSign? (t : Text) : Option (Sign × Nat) :=
  if (esc :: "[0m".toList).isPrefixOf t then some (.clearColor, 3)
  else if [escPicture, wordJoiner].isPrefixOf t then some (.escaped esc, 1)
  else if [escPicture, escPicture].isPrefixOf t then some (.escaped escPicture, 1)
  else
    match t.after? (esc :: "[38;2;".toList) with
    | none => none
    | some rest =>
      let parameters := rest.takeWhile (· != 'm')
      match rest.drop parameters.length, Text.splitOn ';' parameters with
      | 'm' :: _, [red, green, blue] => do
        return (.setColor ⟨← decimalChannel? red, ← decimalChannel? green, ← decimalChannel? blue⟩,
          parameters.length + 7)
      | _, _ => none

/-- The tag or escape at the start of the text. -/
def sign? : Markup → Text → Option (Sign × Nat)
  | .plain, _ | .custom .., _ => none
  | .richText _, t => richSign? t
  | .ansi _, t => ansiSign? t

/-- What a renderer reads from left to right. -/
def signs (markup : Markup) : Text → List Sign
  | [] => []
  | c :: rest =>
    match markup.sign? (c :: rest) with
    | some (sign, more) => sign :: signs markup (rest.drop more)
    | none => .plain c :: signs markup rest
termination_by t => t.length
decreasing_by all_goals simp only [List.length_drop, List.length_cons]; omega

@[simp] theorem signs_nil (markup : Markup) : markup.signs [] = [] := by
  rw [signs]

/-- Wherever the written form stands, these signs are read, and reading goes on behind it. -/
def Reads (markup : Markup) (written : Text) (signs : List Sign) : Prop :=
  ∀ rest, markup.signs (written ++ rest) = signs ++ markup.signs rest

namespace Reads
variable {markup : Markup} {written written' : Text} {signs signs' : List Sign}

theorem nil : markup.Reads [] [] := fun _ => rfl

theorem append (h : markup.Reads written signs) (h' : markup.Reads written' signs') :
    markup.Reads (written ++ written') (signs ++ signs') := by
  intro rest
  rw [List.append_assoc, h, h', List.append_assoc]

theorem signs_eq (h : markup.Reads written signs) : markup.signs written = signs := by
  have hend := h []
  rwa [List.append_nil, signs_nil, List.append_nil] at hend

/-- A sign that is recognized before any text. -/
theorem of_sign {c : Char} {sign : Sign}
    (h : ∀ rest, markup.sign? (c :: (written ++ rest)) = some (sign, written.length)) :
    markup.Reads (c :: written) [sign] := by
  intro rest
  rw [List.cons_append, Markup.signs, h rest]
  dsimp only
  rw [List.drop_left]
  rfl

theorem of_no_sign {c : Char} (h : ∀ rest, markup.sign? (c :: rest) = none) :
    markup.Reads [c] [.plain c] := by
  intro rest
  rw [List.cons_append, List.nil_append, Markup.signs, h rest]
  rfl

end Reads

/-! ### Colours -/

theorem hexValue?_hexDigit {n : Nat} (h : n < 16) : hexValue? (hexDigit n) = some n := by
  have hall : ∀ k : Fin 16, hexValue? (hexDigit k.val) = some k.val := by decide
  exact hall ⟨n, h⟩

theorem channel?_hexDigit (n : UInt8) :
    Color.channel? (hexDigit (n.toNat / 16)) (hexDigit (n.toNat % 16)) = some n := by
  have hn : n.toNat < 256 := n.toNat_lt
  have hhigh := hexValue?_hexDigit (n := n.toNat / 16) (by omega)
  have hlow := hexValue?_hexDigit (n := n.toNat % 16) (by omega)
  have hsum : 16 * (n.toNat / 16) + n.toNat % 16 = n.toNat := Nat.div_add_mod ..
  simp only [Color.channel?, hhigh, hlow, Option.bind_eq_bind, Option.bind_some, hsum,
    UInt8.ofNat_toNat]
  rfl

theorem decimalChannel?_ofNat (n : UInt8) : decimalChannel? (Text.ofNat n.toNat) = some n := by
  have hvalue : Nat.ofDigitChars 10 (Text.ofNat n.toNat) 0 = n.toNat :=
    Nat.ofDigitChars_toDigits (by decide) (by decide)
  have hne : (Text.ofNat n.toNat).isEmpty = false := by
    rw [List.isEmpty_eq_false_iff, ← List.length_pos_iff]
    exact Text.length_ofNat_pos _
  have hdigits : (Text.ofNat n.toNat).all Char.isDigit = true := by
    rw [List.all_eq_true]
    intro d hd
    exact Text.isDigit_of_mem_ofNat hd
  have hn : n.toNat < 256 := n.toNat_lt
  rw [decimalChannel?, hvalue, hne, hdigits]
  simp [hn]

/-! ### Rich text -/

theorem richSign?_of_ne {c : Char} (h : c ≠ '<') (rest : Text) : richSign? (c :: rest) = none := by
  have hless : shownLess.isPrefixOf (c :: rest) = false :=
    isPrefixOf_cons_of_ne h "noparse><</noparse>".toList rest
  have hclose : "</color>".toList.isPrefixOf (c :: rest) = false :=
    isPrefixOf_cons_of_ne h "/color>".toList rest
  have hcolor : "<color=#".toList.isPrefixOf (c :: rest) = false :=
    isPrefixOf_cons_of_ne h "color=#".toList rest
  rw [richSign?, hless, hclose, Text.after?, hcolor]
  rfl

theorem richSign?_color (color : Color) (rest : Text) :
    richSign? ("<color=".toList ++ color.text ++ ['>'] ++ rest) = some (.setColor color, 14) := by
  have hless : shownLess.isPrefixOf ("<color=".toList ++ color.text ++ ['>'] ++ rest) = false := rfl
  have hclose : "</color>".toList.isPrefixOf
      ("<color=".toList ++ color.text ++ ['>'] ++ rest) = false := rfl
  have hcolor : Text.after? ("<color=".toList ++ color.text ++ ['>'] ++ rest) "<color=#".toList =
      some (Color.channelText color.red ++ Color.channelText color.green ++
        Color.channelText color.blue ++ '>' :: rest) := rfl
  rw [richSign?, hless, hclose, hcolor]
  simp only [Color.channelText, List.cons_append, List.nil_append, channel?_hexDigit,
    Option.bind_eq_bind, Option.bind_some]
  rfl

theorem reads_richText_color (theme : Theme) (slot : Slot) :
    (richText theme).Reads ((richText theme).colorTag slot) [.setColor (theme.get slot)] := by
  have htag : (richText theme).colorTag slot =
      '<' :: ("color=".toList ++ (theme.get slot).text ++ ['>']) := rfl
  rw [htag]
  refine Reads.of_sign fun rest => ?_
  exact richSign?_color (theme.get slot) rest

/-! ### Escape sequences -/

theorem splitOn_of_not_mem {c : Char} {t : Text} (h : c ∉ t) : Text.splitOn c t = [t] := by
  induction t with
  | nil => rfl
  | cons d t ih =>
    rw [List.mem_cons, not_or] at h
    rw [Text.splitOn, if_neg (Ne.symm h.1), ih h.2]

theorem splitOn_append {c : Char} {t : Text} (h : c ∉ t) (u : Text) :
    Text.splitOn c (t ++ c :: u) = t :: Text.splitOn c u := by
  induction t with
  | nil => rw [List.nil_append, Text.splitOn, if_pos rfl]
  | cons d t ih =>
    rw [List.mem_cons, not_or] at h
    rw [List.cons_append, Text.splitOn, if_neg (Ne.symm h.1), ih h.2]

theorem not_mem_ofNat {c : Char} (hc : c.isDigit = false) (n : Nat) : c ∉ Text.ofNat n := by
  intro hmem
  rw [Text.isDigit_of_mem_ofNat hmem] at hc
  cases hc

/-- The parameters of a tag that sets a colour, after its constant ones. -/
def channelParameters (color : Color) : Text :=
  Text.ofNat color.red.toNat ++ ';' :: (Text.ofNat color.green.toNat ++
    ';' :: Text.ofNat color.blue.toNat)

theorem splitOn_channelParameters (color : Color) : Text.splitOn ';' (channelParameters color) =
    [Text.ofNat color.red.toNat, Text.ofNat color.green.toNat, Text.ofNat color.blue.toNat] := by
  have hsemi : ∀ n, ';' ∉ Text.ofNat n := not_mem_ofNat (by decide)
  rw [channelParameters, splitOn_append (hsemi _), splitOn_append (hsemi _),
    splitOn_of_not_mem (hsemi _)]

theorem takeWhile_channelParameters (color : Color) (rest : Text) :
    (channelParameters color ++ 'm' :: rest).takeWhile (· != 'm') = channelParameters color := by
  have hm : ∀ n, 'm' ∉ Text.ofNat n := not_mem_ofNat (by decide)
  have hall : ∀ d ∈ channelParameters color, (d != 'm') = true := by
    intro d hd
    rw [bne_iff_ne]
    rintro rfl
    simp [channelParameters, hm] at hd
  rw [List.takeWhile_append_of_pos hall, List.takeWhile_cons_of_neg (by simp), List.append_nil]

theorem ansiSign?_color (color : Color) (rest : Text) :
    ansiSign? (esc :: "[38;2;".toList ++ (channelParameters color ++ 'm' :: rest)) =
      some (.setColor color, (channelParameters color).length + 7) := by
  have hclear : (esc :: "[0m".toList).isPrefixOf
      (esc :: "[38;2;".toList ++ (channelParameters color ++ 'm' :: rest)) = false := rfl
  have hesc : [escPicture, wordJoiner].isPrefixOf
      (esc :: "[38;2;".toList ++ (channelParameters color ++ 'm' :: rest)) = false := rfl
  have hpicture : [escPicture, escPicture].isPrefixOf
      (esc :: "[38;2;".toList ++ (channelParameters color ++ 'm' :: rest)) = false := rfl
  have hafter : Text.after? (esc :: "[38;2;".toList ++ (channelParameters color ++ 'm' :: rest))
      (esc :: "[38;2;".toList) = some (channelParameters color ++ 'm' :: rest) :=
    Text.after?_eq_some_iff.2 rfl
  rw [ansiSign?, hclear, hesc, hpicture, hafter]
  simp only [takeWhile_channelParameters, List.drop_left, splitOn_channelParameters,
    decimalChannel?_ofNat, Option.bind_eq_bind, Option.bind_some]
  rfl

theorem ansiSign?_of_ne {c : Char} (hesc : c ≠ esc) (hpicture : c ≠ escPicture) (rest : Text) :
    ansiSign? (c :: rest) = none := by
  have h : ∀ token : Text, (esc :: token).isPrefixOf (c :: rest) = false := fun token =>
    isPrefixOf_cons_of_ne hesc token rest
  have h' : ∀ token : Text, (escPicture :: token).isPrefixOf (c :: rest) = false := fun token =>
    isPrefixOf_cons_of_ne hpicture token rest
  rw [ansiSign?, h, h', h', Text.after?, h]
  rfl

theorem reads_ansi_color (theme : Theme) (slot : Slot) :
    (ansi theme).Reads ((ansi theme).colorTag slot) [.setColor (theme.get slot)] := by
  have htag : (ansi theme).colorTag slot = esc :: "[38;2;".toList ++
      Text.ofNat (theme.get slot).red.toNat ++ [';'] ++ Text.ofNat (theme.get slot).green.toNat ++
      [';'] ++ Text.ofNat (theme.get slot).blue.toNat ++ ['m'] := rfl
  have hparameters : (ansi theme).colorTag slot =
      esc :: ("[38;2;".toList ++ (channelParameters (theme.get slot) ++ ['m'])) := by
    rw [htag, channelParameters]
    simp only [List.append_assoc, List.cons_append, List.nil_append]
  rw [hparameters]
  refine Reads.of_sign fun rest => ?_
  have hsign := ansiSign?_color (theme.get slot) rest
  rw [List.cons_append] at hsign
  rw [List.append_assoc, List.append_assoc, List.singleton_append, sign?, hsign,
    List.length_append, List.length_append, List.length_singleton]
  congr 2
  have hlead : "[38;2;".toList.length = 6 := rfl
  omega

/-! ### Characters and tags -/

/-- How a character of content is read. -/
def signOf (markup : Markup) (c : Char) : Sign :=
  if markup.escapeChar c = [c] then .plain c else .escaped c

theorem reads_richText_escapeChar (theme : Theme) (c : Char) :
    (richText theme).Reads ((richText theme).escapeChar c) [(richText theme).signOf c] := by
  by_cases hc : c = '<'
  · subst hc
    show (richText theme).Reads ('<' :: "noparse><</noparse>".toList) [.escaped '<']
    exact Reads.of_sign fun _ => rfl
  · have hself : (richText theme).escapeChar c = [c] := if_neg hc
    rw [signOf, hself, if_pos rfl]
    exact Reads.of_no_sign fun rest => richSign?_of_ne hc rest

theorem reads_ansi_escapeChar (theme : Theme) (c : Char) :
    (ansi theme).Reads ((ansi theme).escapeChar c) [(ansi theme).signOf c] := by
  by_cases hesc : c = esc
  · subst hesc
    show (ansi theme).Reads (escPicture :: [wordJoiner]) [.escaped esc]
    exact Reads.of_sign fun _ => rfl
  by_cases hpicture : c = escPicture
  · subst hpicture
    show (ansi theme).Reads (escPicture :: [escPicture]) [.escaped escPicture]
    exact Reads.of_sign fun _ => rfl
  · have hself : (ansi theme).escapeChar c = [c] := by
      rw [escapeChar, if_neg hesc, if_neg hpicture]
    rw [signOf, hself, if_pos rfl]
    exact Reads.of_no_sign fun rest => ansiSign?_of_ne hesc hpicture rest

/-- The theme of markup that writes colours. -/
def theme? : Markup → Option Theme
  | .richText theme | .ansi theme => some theme
  | .plain | .custom .. => none

/-- The character that every tag starts with. -/
def tagStart? : Markup → Option Char
  | .richText _ => some '<'
  | .ansi _ => some esc
  | .plain | .custom .. => none

/-- How a block is read: the characters of its content, in the colour of its slot if it has one. -/
def signsOf (markup : Markup) (theme : Theme) (b : Block) : List Sign :=
  match b.kind.slot? with
  | none => b.content.map markup.signOf
  | some slot =>
    if b.content.isEmpty then []
    else .setColor (theme.get slot) :: b.content.map markup.signOf ++ [.clearColor]

section
variable {markup : Markup} {theme : Theme} (hm : markup.theme? = some theme)
include hm

theorem reads_escapeChar (c : Char) : markup.Reads (markup.escapeChar c) [markup.signOf c] := by
  cases markup with
  | plain | custom written stripped => cases hm
  | richText theme => exact reads_richText_escapeChar theme c
  | ansi theme => exact reads_ansi_escapeChar theme c

theorem reads_colorTag (slot : Slot) :
    markup.Reads (markup.colorTag slot) [.setColor (theme.get slot)] := by
  cases markup with
  | plain | custom written stripped => cases hm
  | richText theme =>
    cases hm
    exact reads_richText_color theme slot
  | ansi theme =>
    cases hm
    exact reads_ansi_color theme slot

theorem reads_closeTag : markup.Reads markup.closeTag [.clearColor] := by
  cases markup with
  | plain | custom written stripped => cases hm
  | richText theme =>
    show (richText theme).Reads ('<' :: "/color>".toList) [.clearColor]
    exact Reads.of_sign fun _ => rfl
  | ansi theme =>
    show (ansi theme).Reads (esc :: "[0m".toList) [.clearColor]
    exact Reads.of_sign fun _ => rfl

theorem openTag?_eq (kind : Kind) : markup.openTag? kind = kind.slot?.map markup.colorTag := by
  cases markup with
  | plain | custom written stripped => cases hm
  | richText theme | ansi theme => rfl

/-- No content has the start of a tag written as it is. -/
theorem escapeChar_tagStart {c : Char} (hc : markup.tagStart? = some c) :
    markup.escapeChar c ≠ [c] := by
  cases markup with
  | plain | custom written stripped => cases hm
  | richText theme =>
    cases hc
    show shownLess ≠ ['<']
    decide
  | ansi theme =>
    cases hc
    show [escPicture, wordJoiner] ≠ [esc]
    decide

theorem plain_signOf {c d : Char} (h : markup.signOf c = .plain d) : markup.tagStart? ≠ some d := by
  intro hd
  rw [signOf] at h
  split at h
  · rename_i hself
    cases h
    exact escapeChar_tagStart hm hd hself
  · cases h

/-! ### Blocks -/

theorem reads_escape (content : Text) :
    markup.Reads (markup.escape content) (content.map markup.signOf) := by
  induction content with
  | nil => exact Reads.nil
  | cons c content ih => exact (reads_escapeChar hm c).append ih

theorem reads_write (b : Block) : markup.Reads (markup.write b) (markup.signsOf theme b) := by
  have hwrite : markup.write b = markup.writeTagged b := by
    cases markup with
    | plain | custom written stripped => cases hm
    | richText theme | ansi theme => rfl
  have hescape := reads_escape hm b.content
  rw [hwrite, writeTagged, openTag?_eq hm, signsOf]
  cases b.kind.slot? with
  | none => exact hescape
  | some slot =>
    dsimp only [Option.map_some]
    split
    · exact Reads.nil
    · exact ((reads_colorTag hm slot).append hescape).append (reads_closeTag hm)

theorem reads_writeAll (bs : Blocks) :
    markup.Reads (markup.writeAll bs) (bs.flatMap (markup.signsOf theme)) := by
  induction bs with
  | nil => exact Reads.nil
  | cons b bs ih => exact (reads_write hm b).append ih

theorem not_plain_mem_signsOf {b : Block} {c : Char} (h : .plain c ∈ markup.signsOf theme b) :
    markup.tagStart? ≠ some c := by
  have hmem : .plain c ∈ b.content.map markup.signOf := by
    rw [signsOf] at h
    split at h
    · exact h
    · split at h
      · cases h
      · simpa using h
  obtain ⟨d, -, hd⟩ := List.mem_map.1 hmem
  exact plain_signOf hm hd

end

theorem paint_map_signOf (markup : Markup) (color? : Option Color) (content : Text) :
    Sign.paint color? (content.map markup.signOf) =
      (content.map fun c => (c, color?), color?) := by
  induction content with
  | nil => rfl
  | cons c content ih =>
    rw [List.map_cons, signOf]
    split
    · rw [Sign.paint, ih]
      rfl
    · rw [Sign.paint, ih]
      rfl

/-- A block leaves no colour set. -/
theorem paint_signsOf (markup : Markup) (theme : Theme) (b : Block) :
    Sign.paint none (markup.signsOf theme b) =
      (b.content.map fun c => (c, b.kind.slot?.map theme.get), none) := by
  rw [signsOf]
  cases b.kind.slot? with
  | none => exact paint_map_signOf markup none b.content
  | some slot =>
    dsimp only [Option.map_some]
    split
    · rename_i hempty
      rw [List.isEmpty_iff.1 hempty]
      rfl
    · rw [List.cons_append, Sign.paint, Sign.paint_append, paint_map_signOf]
      simp [Sign.paint]

theorem paint_flatMap_signsOf (markup : Markup) (theme : Theme) (bs : Blocks) :
    Sign.paint none (bs.flatMap (markup.signsOf theme)) =
      (bs.flatMap fun b => b.content.map fun c => (c, b.kind.slot?.map theme.get), none) := by
  induction bs with
  | nil => rfl
  | cons b bs ih =>
    rw [List.flatMap_cons, Sign.paint_append, paint_signsOf, ih, List.flatMap_cons]

/-- Of written blocks a renderer reads the tags of each coloured block and the characters between
them, and no other tag. So it shows the contents, each character in the colour of its own block,
and has no colour set at the end. Every start of a tag that it meets is one of a tag or of an
escape. -/
theorem source_shown_in_block_colors {markup : Markup} {theme : Theme}
    (hm : markup.theme? = some theme) (bs : Blocks) :
    let signs := markup.signs (markup.writeAll bs)
    signs = bs.flatMap (markup.signsOf theme) ∧
      Sign.paint none signs =
        (bs.flatMap fun b => b.content.map fun c => (c, b.kind.slot?.map theme.get), none) ∧
      ∀ c, .plain c ∈ signs → markup.tagStart? ≠ some c := by
  intro signs
  have hsigns : signs = bs.flatMap (markup.signsOf theme) := (reads_writeAll hm bs).signs_eq
  refine ⟨hsigns, ?_, ?_⟩
  · rw [hsigns]
    exact paint_flatMap_signsOf markup theme bs
  · intro c hc
    rw [hsigns, List.mem_flatMap] at hc
    obtain ⟨b, -, hc⟩ := hc
    exact not_plain_mem_signsOf hm hc

/-- Contents that look like tags, like halves of them and like escapes, side by side. -/
theorem source_shown_in_block_colors_lookalikes :
    let theme : Theme := {}
    let bs : Blocks := [⟨.string, "<color=#".toList⟩, ⟨.default, "000000></color>\x1b".toList⟩,
      ⟨.number, "[0m\u241b".toList⟩, ⟨.keyword, []⟩, ⟨.unformatted, "\u2060".toList⟩]
    (richText theme).theme? = some theme ∧ (ansi theme).theme? = some theme ∧
      ((Sign.paint none ((richText theme).signs ((richText theme).writeAll bs))).1.map Prod.fst) =
        bs.concat ∧
      Sign.paint none ((ansi theme).signs ((ansi theme).writeAll bs)) =
        ("<color=#".toList.map (·, some ⟨0xD6, 0x9D, 0x85⟩) ++
          "000000></color>\x1b".toList.map (·, none) ++
          "[0m\u241b".toList.map (·, some ⟨0xB5, 0xCE, 0xA8⟩) ++ [('\u2060', none)], none) ∧
      .plain '<' ∉ (richText theme).signs ((richText theme).writeAll bs) ∧
      .plain esc ∉ (ansi theme).signs ((ansi theme).writeAll bs) := by
  intro theme bs
  have hrich : (richText theme).theme? = some theme := rfl
  have hansi : (ansi theme).theme? = some theme := rfl
  obtain ⟨-, hrichShown, hrichPlain⟩ := source_shown_in_block_colors hrich bs
  obtain ⟨-, hansiShown, hansiPlain⟩ := source_shown_in_block_colors hansi bs
  refine ⟨hrich, hansi, ?_, ?_, ?_, ?_⟩
  · rw [hrichShown]
    decide
  · rw [hansiShown]
    decide
  · exact fun h => hrichPlain '<' h rfl
  · exact fun h => hansiPlain esc h rfl

/-- Text that was not escaped is taken for a tag. -/
example : (ansi {}).signs "\x1b[38;2;255;0;7ma\x1b[0m\x1b".toList =
    [.setColor ⟨255, 0, 7⟩, .plain 'a', .clearColor, .plain esc] := by
  decide +kernel

end Markup

end Highlighter
