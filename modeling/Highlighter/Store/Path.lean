import Highlighter.Text.Basic

/-!
# Paths

A slash-separated path says step by step how to get to a place. Single dots are steps
that lead nowhere; the parts of a path are its other steps.
-/

namespace Highlighter

namespace Text

/-- The stretches between the separators. -/
def splitOn (separator : Char) : Text → List Text
  | [] => [[]]
  | c :: t =>
    if c = separator then [] :: splitOn separator t
    else match splitOn separator t with
      | [] => [[c]]
      | first :: rest => (c :: first) :: rest

end Text

abbrev Path := String

namespace Path

/-- What stands between the slashes, where anything does. -/
def steps (p : Path) : List String :=
  ((Text.splitOn '/' p.toList).filter fun step => !step.isEmpty).map String.ofList

/-- The steps that lead somewhere. -/
def parts (p : Path) : List String := p.steps.filter (· != ".")

def isAbsolute (p : Path) : Bool := p.toList.head? == some '/'

/-- A path that ends in a slash can only be that of a directory. -/
def endsInSlash (p : Path) : Bool := p.toList.getLast? == some '/'

/-- Drops what leads nowhere at the end of a path, which is read from its end: slashes, and
single dots behind a slash. The slash of the root stays. -/
def dropIdle : Text → Text
  | '/' :: c :: t => dropIdle (c :: t)
  | '.' :: '/' :: t => dropIdle ('/' :: t)
  | t => t

def parent (p : Path) : Path :=
  String.ofList (dropIdle ((dropIdle p.toList.reverse).dropWhile (· != '/'))).reverse

def fileName? (p : Path) : Option String :=
  p.parts.getLast?.filter fun part => part != ".."

/-- The path of a name in the directory of a path; no path is that of the working directory. -/
def child (p : Path) (name : String) : Path := if p.isEmpty then name else p ++ "/" ++ name

/-- What follows the last dot of the file name, unless that dot is its first character. -/
def extension? (p : Path) : Option String :=
  p.fileName?.bind fun name =>
    match (Text.splitOn '.' name.toList).reverse with
    | extension :: stem :: more =>
      if more.isEmpty && stem.isEmpty then none else some (String.ofList extension)
    | _ => none

end Path

/-- The place of a file: the names that lead to it from the root. -/
abbrev Place := List String

/-- The place one step further. Above the root there is only the root. -/
def Place.follow (here : Place) (step : String) : Place :=
  if step == "." then here else if step == ".." then here.dropLast else here ++ [step]

end Highlighter
