import Highlighter.Settings.File

/-!
# Options

The options of the command line: how they are written, the values they take, and what the
help says of them.
-/

namespace Highlighter

inductive Flag where
  | language
  | markup
  | noHighlight
  | settings
  | log
  | raw
  | numbers
  | below
  | help
  | version
  deriving DecidableEq, Repr

namespace Flag

def long : Flag → String
  | .language => "language"
  | .markup => "markup"
  | .noHighlight => "no-highlight"
  | .settings => "config"
  | .log => "log-file"
  | .raw => "raw"
  | .numbers => "numbers"
  | .below => "below"
  | .help => "help"
  | .version => "version"

def short? : Flag → Option Char
  | .language => some 'l'
  | .markup => some 'm'
  | .numbers => some 'n'
  | .help => some 'h'
  | .version => some 'V'
  | _ => none

def valueName? : Flag → Option String
  | .language => some "LANGUAGE"
  | .markup => some "MARKUP"
  | .settings | .log => some "PATH"
  | _ => none

def takesValue (flag : Flag) : Bool := flag.valueName?.isSome

def accepts (flag : Flag) (value : Text) : Bool :=
  match flag with
  | .markup => Settings.surfaces.any fun (name, _) => name.toList == value
  | .settings | .log => !value.isEmpty
  | _ => true

def about : Flag → String
  | .language => "Language to use instead of detecting it from the file extension"
  | .markup => "Markup for formatted output"
  | .noHighlight => "Disable highlighting"
  | .settings => "Config file (default ~/.codelines.toml)"
  | .log => "Write logs to this file instead of stderr"
  | .raw => "Print unformatted text"
  | .numbers => "Prefix lines with their number"
  | .below => ""
  | .help => "Print help"
  | .version => "Print version"

/-- The values to choose from, with what the full help says of them. -/
def choices : Flag → List (String × String)
  | .markup => [("ansi", "ANSI truecolor escapes"), ("rich-text", "`<color=#RRGGBB>` tags")]
  | _ => []

def common : List Flag := [.language, .markup, .noHighlight, .settings, .log, .help]

end Flag

end Highlighter
