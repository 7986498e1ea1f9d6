/-!
# Errors

What can go wrong, by cause, and how it is reported. Source text is never wrong:
only the caller, the files and the settings are.
-/

namespace Highlighter

inductive FileError where
  | nullInPath
  | nameTooLong
  | notFound
  | isDirectory
  | notDirectory
  | notText
  | alreadyExists
  | denied
  deriving DecidableEq, Repr

def FileError.message : FileError → String
  | .nullInPath => "file name contained an unexpected NUL byte"
  | .nameTooLong => "File name too long (os error 36)"
  | .notFound => "No such file or directory (os error 2)"
  | .isDirectory => "Is a directory (os error 21)"
  | .notDirectory => "Not a directory (os error 20)"
  | .notText => "stream did not contain valid UTF-8"
  | .alreadyExists => "File exists (os error 17)"
  | .denied => "Permission denied (os error 13)"

inductive Error where
  /-- The document has `len` lines and none of this index. -/
  | outOfRange (index len : Nat)
  | file (cause : FileError)
  | settings
  | unknownLanguage (name : String)
  | noFileName
  /-- Line numbers of the command line start at one. -/
  | lineZero
  | invalidLogFile (path : String)
  deriving DecidableEq, Repr

namespace Error

def message : Error → String
  | .outOfRange index len =>
    "line index " ++ toString index ++ " out of range (document has " ++ toString len ++ " lines)"
  | .file cause => "I/O error: " ++ cause.message
  | .settings => "invalid config"
  | .unknownLanguage name => "unknown language: " ++ name
  | .noFileName => "no file name set"
  | .lineZero => "line numbers start at 1"
  | .invalidLogFile path => "invalid log file: " ++ path

def isOutOfRange : Error → Bool
  | .outOfRange .. => true
  | _ => false

end Error

end Highlighter
