import Highlighter.Markup.Basic

/-!
# Taking markup off

Reading from left to right, a tag shows nothing, an escape shows the character
it stands for, and any other character shows itself.
-/

namespace Highlighter

namespace Markup

/-- A rich-text item at the start of the text: what it shows, and how many characters
it has besides its first. -/
def richItem? (t : Text) : Option (Text × Nat) :=
  if shownLess.isPrefixOf t then some (['<'], shownLess.length - 1)
  else if "<color=#".toList.isPrefixOf t && ((t.drop 8).take 6).all isHexDigit &&
      (t.drop 14).head? == some '>' then
    some ([], 14)
  else if "</color>".toList.isPrefixOf t then some ([], 7)
  else none

def ansiItem? : Text → Option (Text × Nat)
  | [] => none
  | c :: rest =>
    if c = esc then
      match rest with
      | '[' :: rest =>
        let parameters := rest.takeWhile fun d => d.isDigit || d == ';'
        if (rest.drop parameters.length).head? == some 'm' then some ([], parameters.length + 2)
        else none
      | _ => none
    else if c = escPicture then
      match rest with
      | d :: _ =>
        if d = wordJoiner then some ([esc], 1)
        else if d = escPicture then some ([escPicture], 1)
        else none
      | [] => none
    else none

/-- The tag or escape at the start of the text. -/
def item? : Markup → Text → Option (Text × Nat)
  | .plain, _ | .custom .., _ => none
  | .richText _, t => richItem? t
  | .ansi _, t => ansiItem? t

def stripItems (markup : Markup) : Text → Text
  | [] => []
  | c :: rest =>
    match markup.item? (c :: rest) with
    | some (shown, more) => shown ++ stripItems markup (rest.drop more)
    | none => c :: stripItems markup rest
termination_by t => t.length
decreasing_by all_goals simp only [List.length_drop, List.length_cons]; omega

@[simp] theorem stripItems_nil (markup : Markup) : markup.stripItems [] = [] := by
  rw [stripItems]

def strip (markup : Markup) (t : Text) : Text :=
  match markup with
  | .custom _ stripped => stripped t
  | _ => markup.stripItems t

end Markup

end Highlighter
