import Highlighter.Block.Basic
import Highlighter.Theme

/-!
# Markup

Markup puts the content of a coloured block between an opening tag and a closing
tag. Content is escaped, so that none of it can be read as a tag.
-/

namespace Highlighter

inductive Markup where
  | plain
  /-- Tags in angle brackets. -/
  | richText (theme : Theme)
  /-- Escape sequences of a terminal. -/
  | ansi (theme : Theme)
  /-- Markup of the caller's own: what it writes for a block, and how it comes off again. -/
  | custom (written : Block → Text) (stripped : Text → Text)

namespace Markup

/-- A less-than sign of the content in rich text. -/
def shownLess : Text := "<noparse><</noparse>".toList

def esc : Char := '\x1b'

/-- The picture of the escape character. -/
def escPicture : Char := '\u241B'

/-- Tells a picture that stands for the escape character from one of the content. -/
def wordJoiner : Char := '\u2060'

def colorTag (markup : Markup) (slot : Slot) : Text :=
  match markup with
  | .plain | .custom .. => []
  | .richText theme => "<color=".toList ++ (theme.get slot).text ++ ['>']
  | .ansi theme =>
    let color := theme.get slot
    let channel (n : UInt8) : Text := Text.ofNat n.toNat
    esc :: "[38;2;".toList ++ channel color.red ++ [';'] ++ channel color.green ++ [';'] ++
      channel color.blue ++ ['m']

/-- The opening tag of a kind, if the kind is coloured. -/
def openTag? (markup : Markup) (kind : Kind) : Option Text :=
  match markup with
  | .plain | .custom .. => none
  | _ => kind.slot?.map markup.colorTag

def closeTag : Markup → Text
  | .plain | .custom .. => []
  | .richText _ => "</color>".toList
  | .ansi _ => esc :: "[0m".toList

/-- The written form of one character of content. -/
def escapeChar (markup : Markup) (c : Char) : Text :=
  match markup with
  | .plain | .custom .. => [c]
  | .richText _ => if c = '<' then shownLess else [c]
  | .ansi _ =>
    if c = esc then [escPicture, wordJoiner]
    else if c = escPicture then [escPicture, escPicture]
    else [c]

def escape (markup : Markup) (content : Text) : Text := content.flatMap markup.escapeChar

@[simp] theorem escape_nil (markup : Markup) : markup.escape [] = [] := rfl

@[simp] theorem escape_cons (markup : Markup) (c : Char) (content : Text) :
    markup.escape (c :: content) = markup.escapeChar c ++ markup.escape content := rfl

/-- The content of a block between the tags of its kind. An empty block gets no tags. -/
def writeTagged (markup : Markup) (b : Block) : Text :=
  match markup.openTag? b.kind with
  | none => markup.escape b.content
  | some tag =>
    if b.content.isEmpty then [] else tag ++ markup.escape b.content ++ markup.closeTag

/-- The written form of a block. -/
def write (markup : Markup) (b : Block) : Text :=
  match markup with
  | .custom written _ => written b
  | _ => markup.writeTagged b

def writeAll (markup : Markup) (bs : Blocks) : Text := bs.flatMap markup.write

end Markup

end Highlighter
