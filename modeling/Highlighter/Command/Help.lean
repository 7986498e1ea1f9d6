import Highlighter.Command.Verb

/-!
# Help

How the program and its commands are used. The short help has a line for each thing; the
full help has a paragraph, and says more of values to choose from.
-/

namespace Highlighter

inductive Topic where
  | program
  | command (verb : Verb)
  | help
  deriving DecidableEq, Repr

namespace Help

structure Item where
  term : String
  about : String
  choices : List (String × String) := []

/-- The item in the short help, its text behind the longest term. -/
def Item.line (width : Nat) (i : Item) : Text :=
  let values :=
    if i.choices.isEmpty then ""
    else " [possible values: " ++ ", ".intercalate (i.choices.map (·.1)) ++ "]"
  "  ".toList ++ Text.padRight width i.term.toList ++ "  ".toList ++ i.about.toList ++ values.toList

/-- The item in the full help, its text indented below the term. -/
def Item.paragraph (i : Item) : Text :=
  let indent := "\n          ".toList
  let width := (i.choices.map fun (value, _) => value.length).foldl max 0
  let choice (value about : String) : Text :=
    indent ++ "- ".toList ++ Text.padRight (width + 2) (value ++ ":").toList ++ about.toList
  "  ".toList ++ i.term.toList ++ indent ++ i.about.toList ++
    if i.choices.isEmpty then []
    else '\n' :: indent ++ "Possible values:".toList ++
      i.choices.flatMap fun (value, about) => choice value about

/-- A list of things under a heading; none if there are none. -/
def list (heading : String) (full : Bool) (items : List Item) : Option Text :=
  let width := (items.map fun i => i.term.length).foldl max 0
  let lines := if full then items.map Item.paragraph else items.map (Item.line width)
  let gap := if full then ['\n', '\n'] else ['\n']
  if items.isEmpty then none else some (heading.toList ++ '\n' :: gap.intercalate lines)

def ofFlag (full : Bool) (flag : Flag) : Item where
  term :=
    (match flag.short? with
      | some c => "-" ++ String.singleton c ++ ", "
      | none => "    ") ++ "--" ++ flag.long ++
    (match flag.valueName? with
      | some name => " <" ++ name ++ ">"
      | none => "")
  about := flag.about ++
    if flag = .help then
      if full then " (see a summary with '-h')" else " (see more with '--help')"
    else ""
  choices := flag.choices

def ofOperand (o : Operand) : Item := { term := "<" ++ o.name ++ ">", about := "" }

def aboutHelp : String := "Print this message or the help of the given subcommand(s)"

/-- The commands. They are listed in short in any help. -/
def commands : Option Text :=
  list "Commands:" false
    (Verb.all.map (fun v => { term := v.name, about := v.about }) ++ [⟨"help", aboutHelp, []⟩])

/-- A page: what it is about, the usage, and lists. -/
def page (about usage : String) (lists : List (Option Text)) : Text :=
  Text.outputLine (['\n', '\n'].intercalate
    (about.toList :: ("Usage: codelines " ++ usage).toList :: lists.filterMap id))

end Help

open Help in
def Topic.text (full : Bool) : Topic → Text
  | .program =>
    page "Incremental line-oriented syntax highlighter and line cache for text viewers"
      "[OPTIONS] <COMMAND>"
      [commands, list "Options:" full ((Flag.common ++ [Flag.version]).map (ofFlag full))]
  | .command verb =>
    let operands := verb.operands.map ofOperand
    page verb.about (" ".intercalate (verb.name :: "[OPTIONS]" :: operands.map Item.term))
      [list "Arguments:" full operands, list "Options:" full (verb.flags.map (ofFlag full))]
  | .help =>
    page aboutHelp "help [COMMAND]..."
      [list "Arguments:" false [⟨"[COMMAND]...", "Print help for the subcommand(s)", []⟩]]

end Highlighter
