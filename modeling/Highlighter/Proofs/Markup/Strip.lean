import Highlighter.Markup.Strip

/-!
# Markup comes off again

What is written for a character, and every tag, is a unit: where it stands, taking markup
off reads all of it and goes on right behind it, whatever comes next. Units side by side
keep apart, so the written form of any blocks gives back their contents, also where the
contents look like tags or like escapes.
-/

namespace Highlighter

namespace Markup

/-- Markup that the library defines, and not the caller. -/
def isBuiltin : Markup → Bool
  | .custom .. => false
  | _ => true

/-- Wherever the written form stands, it shows the text, and the scan goes on behind it. -/
def Shows (markup : Markup) (written shown : Text) : Prop :=
  ∀ rest, markup.stripItems (written ++ rest) = shown ++ markup.stripItems rest

namespace Shows
variable {markup : Markup} {written shown written' shown' : Text}

theorem nil : markup.Shows [] [] := fun _ => rfl

theorem append (h : markup.Shows written shown) (h' : markup.Shows written' shown') :
    markup.Shows (written ++ written') (shown ++ shown') := by
  intro rest
  rw [List.append_assoc, h, h', List.append_assoc]

theorem stripItems_eq (h : markup.Shows written shown) : markup.stripItems written = shown := by
  have hend := h []
  rwa [List.append_nil, stripItems_nil, List.append_nil] at hend

/-- An item that is recognized before any text shows what it stands for. -/
theorem of_item {c : Char}
    (h : ∀ rest, markup.item? (c :: (written ++ rest)) = some (shown, written.length)) :
    markup.Shows (c :: written) shown := by
  intro rest
  rw [List.cons_append, stripItems, h rest]
  dsimp only
  rw [List.drop_left]

/-- A character that starts no item shows itself. -/
theorem of_no_item {c : Char} (h : ∀ rest, markup.item? (c :: rest) = none) :
    markup.Shows [c] [c] := by
  intro rest
  rw [List.cons_append, List.nil_append, stripItems, h rest]
  rfl

end Shows

/-! ### Rich text -/

theorem isPrefixOf_cons_of_ne {c d : Char} (h : c ≠ d) (token rest : Text) :
    (d :: token).isPrefixOf (c :: rest) = false := by
  have hbeq : (d == c) = false := by
    rw [beq_eq_false_iff_ne]
    exact h.symm
  rw [List.isPrefixOf, hbeq, Bool.false_and]

/-- Every item of rich text starts with the same character. -/
theorem richItem?_of_ne {c : Char} (h : c ≠ '<') (rest : Text) : richItem? (c :: rest) = none := by
  have hless : shownLess.isPrefixOf (c :: rest) = false :=
    isPrefixOf_cons_of_ne h "noparse><</noparse>".toList rest
  have hcolor : "<color=#".toList.isPrefixOf (c :: rest) = false :=
    isPrefixOf_cons_of_ne h "color=#".toList rest
  have hclose : "</color>".toList.isPrefixOf (c :: rest) = false :=
    isPrefixOf_cons_of_ne h "/color>".toList rest
  rw [richItem?, hless, hcolor, hclose]
  rfl

theorem isHexDigit_hexDigit {n : Nat} (h : n < 16) : isHexDigit (hexDigit n) = true := by
  have hall : ∀ k : Fin 16, isHexDigit (hexDigit k.val) = true := by decide
  exact hall ⟨n, h⟩

theorem all_isHexDigit_channelText (n : UInt8) : (Color.channelText n).all isHexDigit = true := by
  have hn : n.toNat < 256 := n.toNat_lt
  have hhigh : isHexDigit (hexDigit (n.toNat / 16)) = true := isHexDigit_hexDigit (by omega)
  have hlow : isHexDigit (hexDigit (n.toNat % 16)) = true := isHexDigit_hexDigit (by omega)
  simp [Color.channelText, hhigh, hlow]

theorem richItem?_color (color : Color) (rest : Text) :
    richItem? ("<color=".toList ++ color.text ++ ['>'] ++ rest) = some ([], 14) := by
  have hdigits : (Color.channelText color.red ++ Color.channelText color.green ++
      Color.channelText color.blue).all isHexDigit = true := by
    rw [List.all_append, List.all_append, all_isHexDigit_channelText, all_isHexDigit_channelText,
      all_isHexDigit_channelText]
    rfl
  have hless : shownLess.isPrefixOf ("<color=".toList ++ color.text ++ ['>'] ++ rest) = false := rfl
  have hcolor : "<color=#".toList.isPrefixOf
      ("<color=".toList ++ color.text ++ ['>'] ++ rest) = true := rfl
  have hall : ((("<color=".toList ++ color.text ++ ['>'] ++ rest).drop 8).take 6).all isHexDigit =
      true := hdigits
  have hend : (("<color=".toList ++ color.text ++ ['>'] ++ rest).drop 14).head? == some '>' := rfl
  rw [richItem?, hless, hcolor, hall, hend]
  rfl

theorem shows_richText_color (theme : Theme) (slot : Slot) :
    (richText theme).Shows ((richText theme).colorTag slot) [] := by
  have htag : (richText theme).colorTag slot =
      '<' :: ("color=".toList ++ (theme.get slot).text ++ ['>']) := rfl
  rw [htag]
  refine Shows.of_item fun rest => ?_
  exact richItem?_color (theme.get slot) rest

theorem shows_richText_close (theme : Theme) :
    (richText theme).Shows (richText theme).closeTag [] := by
  have htag : (richText theme).closeTag = '<' :: "/color>".toList := rfl
  rw [htag]
  exact Shows.of_item fun _ => rfl

theorem shows_richText_escapeChar (theme : Theme) (c : Char) :
    (richText theme).Shows ((richText theme).escapeChar c) [c] := by
  by_cases hc : c = '<'
  · subst hc
    have hless : (richText theme).escapeChar '<' = '<' :: "noparse><</noparse>".toList := rfl
    rw [hless]
    exact Shows.of_item fun _ => rfl
  · have hself : (richText theme).escapeChar c = [c] := if_neg hc
    rw [hself]
    exact Shows.of_no_item fun rest => richItem?_of_ne hc rest

/-! ### Escape sequences -/

/-- The characters of the parameters of a sequence. -/
def isParameter (d : Char) : Bool := d.isDigit || d == ';'

/-- A sequence that sets colours ends at its `m`, the first character that is no parameter. -/
theorem ansiItem?_color {parameters : Text} (h : parameters.all isParameter = true) (rest : Text) :
    ansiItem? (esc :: '[' :: (parameters ++ 'm' :: rest)) = some ([], parameters.length + 2) := by
  have hstop : ('m' :: rest).takeWhile isParameter = [] := by
    rw [List.takeWhile_cons_of_neg]
    decide
  have htake : (parameters ++ 'm' :: rest).takeWhile isParameter = parameters := by
    rw [List.takeWhile_append_of_pos (List.all_eq_true.1 h), hstop, List.append_nil]
  rw [ansiItem?.eq_def]
  dsimp only
  rw [if_pos rfl]
  show (if ((parameters ++ 'm' :: rest).drop
      ((parameters ++ 'm' :: rest).takeWhile isParameter).length).head? == some 'm' then
    some (([] : Text), ((parameters ++ 'm' :: rest).takeWhile isParameter).length + 2)
    else none) = some ([], parameters.length + 2)
  rw [htake, List.drop_left, List.head?_cons, if_pos (beq_self_eq_true _)]

theorem ansiItem?_of_ne {c : Char} (hesc : c ≠ esc) (hpicture : c ≠ escPicture) (rest : Text) :
    ansiItem? (c :: rest) = none := by
  rw [ansiItem?.eq_def]
  dsimp only
  rw [if_neg hesc, if_neg hpicture]

/-- What stands between the bracket and the `m` of an opening tag. -/
def colorParameters (red green blue : Text) : Text :=
  "38;2;".toList ++ red ++ [';'] ++ green ++ [';'] ++ blue

theorem all_colorParameters {red green blue : Text} (hr : red.all isParameter = true)
    (hg : green.all isParameter = true) (hb : blue.all isParameter = true) :
    (colorParameters red green blue).all isParameter = true := by
  have happend : ∀ {t u : Text}, t.all isParameter = true → u.all isParameter = true →
      (t ++ u).all isParameter = true := by
    intro t u ht hu
    rw [List.all_append, ht, hu]
    rfl
  have hlead : "38;2;".toList.all isParameter = true := by decide
  have hseparator : [';'].all isParameter = true := by decide
  exact happend (happend (happend (happend (happend hlead hr) hseparator) hg) hseparator) hb

theorem all_ofNat (n : Nat) : (Text.ofNat n).all isParameter = true := by
  rw [List.all_eq_true]
  intro d hd
  rw [isParameter, Text.isDigit_of_mem_ofNat hd, Bool.true_or]

theorem shows_ansi_color (theme : Theme) (slot : Slot) :
    (ansi theme).Shows ((ansi theme).colorTag slot) [] := by
  have htag : (ansi theme).colorTag slot =
      esc :: '[' :: (colorParameters (Text.ofNat (theme.get slot).red.toNat)
        (Text.ofNat (theme.get slot).green.toNat) (Text.ofNat (theme.get slot).blue.toNat) ++
        ['m']) := rfl
  rw [htag]
  have hall := all_colorParameters (all_ofNat (theme.get slot).red.toNat)
    (all_ofNat (theme.get slot).green.toNat) (all_ofNat (theme.get slot).blue.toNat)
  refine Shows.of_item fun rest => ?_
  rw [List.cons_append, List.append_assoc, List.singleton_append, item?, ansiItem?_color hall rest,
    List.length_cons, List.length_append, List.length_singleton]

theorem shows_ansi_close (theme : Theme) : (ansi theme).Shows (ansi theme).closeTag [] := by
  have htag : (ansi theme).closeTag = esc :: "[0m".toList := rfl
  rw [htag]
  exact Shows.of_item fun _ => rfl

theorem shows_ansi_escapeChar (theme : Theme) (c : Char) :
    (ansi theme).Shows ((ansi theme).escapeChar c) [c] := by
  by_cases hesc : c = esc
  · subst hesc
    show (ansi theme).Shows (escPicture :: [wordJoiner]) [esc]
    exact Shows.of_item fun _ => rfl
  by_cases hpicture : c = escPicture
  · subst hpicture
    show (ansi theme).Shows (escPicture :: [escPicture]) [escPicture]
    exact Shows.of_item fun _ => rfl
  · have hself : (ansi theme).escapeChar c = [c] := by
      rw [escapeChar, if_neg hesc, if_neg hpicture]
    rw [hself]
    exact Shows.of_no_item fun rest => ansiItem?_of_ne hesc hpicture rest

/-! ### Blocks -/

section
variable {markup : Markup} (hm : markup.isBuiltin = true)
include hm

theorem shows_escapeChar (c : Char) : markup.Shows (markup.escapeChar c) [c] := by
  cases markup with
  | plain => exact Shows.of_no_item fun _ => rfl
  | richText theme => exact shows_richText_escapeChar theme c
  | ansi theme => exact shows_ansi_escapeChar theme c
  | custom written stripped => cases hm

theorem shows_openTag? {kind : Kind} {tag : Text} (h : markup.openTag? kind = some tag) :
    markup.Shows tag [] := by
  cases markup with
  | plain => cases h
  | richText theme =>
    obtain ⟨slot, -, rfl⟩ := Option.map_eq_some_iff.1 h
    exact shows_richText_color theme slot
  | ansi theme =>
    obtain ⟨slot, -, rfl⟩ := Option.map_eq_some_iff.1 h
    exact shows_ansi_color theme slot
  | custom written stripped => cases hm

theorem shows_closeTag : markup.Shows markup.closeTag [] := by
  cases markup with
  | plain => exact Shows.nil
  | richText theme => exact shows_richText_close theme
  | ansi theme => exact shows_ansi_close theme
  | custom written stripped => cases hm

theorem shows_escape (content : Text) : markup.Shows (markup.escape content) content := by
  induction content with
  | nil => exact Shows.nil
  | cons c content ih => exact (shows_escapeChar hm c).append ih

theorem shows_write (b : Block) : markup.Shows (markup.write b) b.content := by
  have hwrite : markup.write b = markup.writeTagged b := by
    cases markup with
    | custom written stripped => cases hm
    | plain | richText theme | ansi theme => rfl
  have hescape := shows_escape hm b.content
  rw [hwrite, writeTagged]
  split
  · exact hescape
  · rename_i tag htag
    split
    · rename_i hempty
      rw [List.isEmpty_iff.1 hempty]
      exact Shows.nil
    · have hblock := ((shows_openTag? hm htag).append hescape).append (shows_closeTag hm)
      rwa [List.nil_append, List.append_nil] at hblock

theorem shows_writeAll (bs : Blocks) : markup.Shows (markup.writeAll bs) bs.concat := by
  induction bs with
  | nil => exact Shows.nil
  | cons b bs ih => exact (shows_write hm b).append ih

theorem strip_writeAll (bs : Blocks) : markup.strip (markup.writeAll bs) = bs.concat := by
  have hstrip : ∀ t, markup.strip t = markup.stripItems t := by
    cases markup with
    | custom written stripped => cases hm
    | plain | richText theme | ansi theme => exact fun _ => rfl
  rw [hstrip, (shows_writeAll hm bs).stripItems_eq]

end

end Markup

end Highlighter
