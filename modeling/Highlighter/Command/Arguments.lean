import Highlighter.Command.Basic
import Highlighter.Command.Help
import Highlighter.Table

/-!
# Command-line arguments

The name of a command stands between the options that go before it and its own. Options
that go with any command may stand on both sides; then those of the command count. On
each side an option may be given once. Arguments are read from left to right, and the
first thing that is wrong, or the first call for help, decides.
-/

namespace Highlighter

inductive Refusal where
  | malformed
  | help (topic : Topic) (full : Bool)
  | version
  deriving DecidableEq, Repr

inductive Argument where
  /-- Two dashes: no option follows. -/
  | rest
  /-- A name behind two dashes, and what stands behind an equals sign. -/
  | long (name : Text) (value? : Option Text)
  /-- Letters behind one dash. -/
  | short (letters : Text)
  | operand

namespace Argument

def ofText : Text → Argument
  | ['-', '-'] => .rest
  | '-' :: '-' :: t =>
    let name := t.takeWhile (· != '=')
    .long name (if name.length < t.length then some (t.drop (name.length + 1)) else none)
  | '-' :: c :: t => .short (c :: t)
  | _ => .operand

def isOperand (t : Text) : Bool :=
  match ofText t with
  | .operand => true
  | _ => false

end Argument

/-- The arguments on one side of the command name. -/
structure Side where
  given : Table Flag Text := {}
  /-- An option and the argument that is its value, not looked at before more is read. -/
  waiting? : Option (Flag × Text) := none
  operands : List Text := []

namespace Side

/-- The options before the name of a command, and those of the command. -/
def flags : Option Verb → List Flag
  | none => .version :: Flag.common
  | some verb => verb.flags

/-- Takes an option in, unless it was given before or may not have the value. -/
def take (s : Side) (flag : Flag) (value : Text) : Except Refusal Side :=
  if s.given.has flag || !flag.accepts value then .error .malformed
  else .ok { s with given := s.given.insert flag value }

def settle (s : Side) : Except Refusal Side :=
  match s.waiting? with
  | none => .ok s
  | some (flag, value) => { s with waiting? := none }.take flag value

/-- Takes in an option that has its value in the same argument, or needs none. -/
def give (verb? : Option Verb) (full : Bool) (flag : Flag) (value : Text) (s : Side) :
    Except Refusal Side := do
  let s ← s.settle
  match flag with
  | .help => .error (.help ((verb?.map Topic.command).getD .program) full)
  | .version => .error .version
  | _ => s.take flag value

/-- Takes letters in. The value of an option is what follows its letter; if nothing does,
the option is left, to have the next argument. -/
def giveLetters (verb? : Option Verb) : Text → Side → Except Refusal (Side × Option Flag)
  | [], s => .ok (s, none)
  | c :: rest, s =>
    match (flags verb?).find? fun f => f.short? = some c with
    | none => .error .malformed
    | some flag =>
      if flag.takesValue then
        match rest with
        | [] => .ok (s, some flag)
        | '=' :: value => return (← s.give verb? false flag value, none)
        | value => return (← s.give verb? false flag value, none)
      else do giveLetters verb? rest (← s.give verb? false flag [])

/-- Takes a named option in. Without a value of its own it has the next argument. -/
def giveLong (verb? : Option Verb) (name : Text) (value? : Option Text) (s : Side) :
    Except Refusal (Side × Option Flag) :=
  match (flags verb?).find? fun f => f.long.toList = name with
  | none => .error .malformed
  | some flag =>
    match flag.takesValue, value? with
    | true, none => .ok (s, some flag)
    | true, some value => do return (← s.give verb? true flag value, none)
    | false, none => do return (← s.give verb? true flag [], none)
    | false, some _ => .error .malformed

/-- Takes an operand in, if the command has one more and that may have the value. -/
def giveOperand (verb : Verb) (value : Text) (s : Side) : Except Refusal Side := do
  let s ← s.settle
  match verb.operands[s.operands.length]? with
  | none => .error .malformed
  | some operand =>
    if operand.accepts value then .ok { s with operands := s.operands ++ [value] }
    else .error .malformed

/-- Reads the arguments before the name of a command, up to the name, or those behind it. -/
def read (verb? : Option Verb) : List Text → Side → Except Refusal (Side × List Text)
  | [], s => .ok (s, [])
  | arg :: rest, s =>
    let follow (step : Except Refusal (Side × Option Flag)) : Except Refusal (Side × List Text) :=
      match step with
      | .error e => .error e
      | .ok (s, none) => read verb? rest s
      | .ok (s, some flag) =>
        match rest with
        | [] => .error .malformed
        | value :: rest =>
          if Argument.isOperand value then
            match s.settle with
            | .ok s => read verb? rest { s with waiting? := some (flag, value) }
            | .error e => .error e
          else .error .malformed
    match Argument.ofText arg with
    | .long name value? => follow (s.giveLong verb? name value?)
    | .short letters => follow (giveLetters verb? letters s)
    | .rest =>
      match verb? with
      | none => .error .malformed
      | some verb => do return (← rest.foldlM (fun s value => s.giveOperand verb value) s, [])
    | .operand =>
      match verb? with
      | none => .ok (s, arg :: rest)
      | some verb =>
        match s.giveOperand verb arg with
        | .ok s => read verb? rest s
        | .error e => .error e

end Side

/-! ### From arguments to requests -/

def Verb.command? (verb : Verb) (s : Side) : Option Command :=
  let has (flag : Flag) := s.given.has flag
  match verb, s.operands with
  | .view, [file] => return .view (← Command.file? file) (has .raw) (has .numbers)
  | .stats, [file] => return .stats (← Command.file? file)
  | .tokens, [file] => return .tokens (← Command.file? file)
  | .set, [file, line, text] =>
    return .set (← Command.file? file) (← Command.lineNumber? line) text
  | .insert, [file, line, text] =>
    return .insert (← Command.file? file) (← Command.lineNumber? line) text (has .below)
  | .delete, [file, line] => return .delete (← Command.file? file) (← Command.lineNumber? line)
  | .page, [file] => return .page (← Command.file? file)
  | .languages, [] => return .languages
  | _, _ => none

def Options.ofSides (outer inner : Side) : Options :=
  let value? (flag : Flag) : Option Text := (inner.given.get? flag).or (outer.given.get? flag)
  { language? := (value? .language).map String.ofList
    surface? := (value? .markup).bind fun name =>
      (Settings.surfaces.find? fun (key, _) => key.toList = name).map (·.2)
    noHighlight := (value? .noHighlight).isSome
    settingsPath? := (value? .settings).map String.ofList
    logPath? := (value? .log).map String.ofList }

/-- What a call of the command that prints help asks for: one name at most, that of a command. -/
def Refusal.ofHelp : List Text → Refusal
  | [] => .help .program true
  | [name] =>
    if name = "help".toList then .help .help true
    else
      match Verb.ofName? name with
      | some verb => .help (.command verb) true
      | none => .malformed
  | _ => .malformed

/-- The request of a command line. What waits before the name of the command is looked at
after what stands behind it. -/
def Request.ofArguments (args : List Text) : Except Refusal Request := do
  let (outer, rest) ← Side.read none args {}
  match rest with
  | [] => .error .malformed
  | name :: rest =>
    if name = "help".toList then .error (.ofHelp rest)
    else
      match Verb.ofName? name with
      | none => .error .malformed
      | some verb =>
        let (inner, _) ← Side.read (some verb) rest {}
        let inner ← inner.settle
        match verb.command? inner with
        | none => .error .malformed
        | some command => return { options := .ofSides (← outer.settle) inner, command }

end Highlighter
