import Highlighter.Language.Basic

/-!
# Built-in languages

Descriptions of the languages known without a configuration, and the plain
language, which has no words and no delimiters at all.
-/

namespace Highlighter

namespace Language

def words (ws : List String) : List Text := ws.map String.toList

/-- C#: directives and verbatim strings. -/
def csharp : Language where
  name := "CSharp"
  extensions := ["cs"]
  keywords := words [
    "abstract", "as", "base", "break", "case", "catch", "checked", "class", "const", "continue",
    "default", "delegate", "do", "else", "enum", "event", "explicit", "extern", "false",
    "finally", "fixed", "for", "foreach", "get", "goto", "if", "implicit", "in", "interface",
    "internal", "is", "lock", "namespace", "new", "null", "operator", "out", "override", "params",
    "partial", "private", "protected", "public", "readonly", "ref", "return", "sealed", "set",
    "sizeof", "stackalloc", "static", "struct", "switch", "this", "throw", "true", "try",
    "typeof", "unchecked", "unsafe", "using", "value", "var", "virtual", "void", "volatile",
    "where", "while", "yield", "async", "await"]
  types := words [
    "bool", "byte", "char", "decimal", "double", "float", "int", "long", "object", "sbyte",
    "short", "string", "uint", "ulong", "ushort", "Boolean", "Byte", "Char", "DateTime",
    "Decimal", "Dictionary", "Double", "Exception", "Func", "Action", "HashSet", "IEnumerable",
    "IEnumerator", "Int32", "Int64", "List", "Object", "Single", "String", "StringBuilder",
    "Task", "Type"]
  blockComment := some ("/*".toList, "*/".toList)
  lineComment := some "//".toList
  charDelimiter := some '\''
  preprocessor := some '#'
  verbatimMark := some '@'

def c : Language where
  name := "C"
  extensions := ["c", "h", "cpp", "hpp", "cc", "cxx"]
  keywords := words [
    "auto", "break", "case", "const", "continue", "default", "do", "else", "enum", "extern",
    "for", "goto", "if", "inline", "register", "restrict", "return", "sizeof", "static", "struct",
    "switch", "typedef", "union", "volatile", "while", "catch", "class", "constexpr", "delete",
    "explicit", "false", "friend", "mutable", "namespace", "new", "noexcept", "nullptr",
    "operator", "private", "protected", "public", "template", "this", "throw", "true", "try",
    "typename", "using", "virtual"]
  types := words [
    "bool", "char", "double", "float", "int", "long", "short", "signed", "unsigned", "void",
    "size_t", "ptrdiff_t", "intptr_t", "uintptr_t", "int8_t", "int16_t", "int32_t", "int64_t",
    "uint8_t", "uint16_t", "uint32_t", "uint64_t", "FILE"]
  blockComment := some ("/*".toList, "*/".toList)
  lineComment := some "//".toList
  charDelimiter := some '\''
  preprocessor := some '#'

/-- Rust: a quote may also mark a lifetime, so a character literal needs its closing quote. -/
def rust : Language where
  name := "Rust"
  extensions := ["rs"]
  keywords := words [
    "as", "async", "await", "break", "const", "continue", "crate", "dyn", "else", "enum",
    "extern", "false", "fn", "for", "if", "impl", "in", "let", "loop", "match", "mod", "move",
    "mut", "pub", "ref", "return", "self", "Self", "static", "struct", "super", "trait", "true",
    "type", "unsafe", "use", "where", "while"]
  types := words [
    "bool", "char", "f32", "f64", "i8", "i16", "i32", "i64", "i128", "isize", "str", "u8", "u16",
    "u32", "u64", "u128", "usize", "Box", "HashMap", "HashSet", "Option", "Result", "Rc", "Arc",
    "String", "Vec"]
  blockComment := some ("/*".toList, "*/".toList)
  lineComment := some "//".toList
  charDelimiter := some '\''
  charLookahead := true

/-- The name of the language for files of no known language. -/
def plainName : String := "Plain"

/-- Text without words, comments, literals or directives. -/
def plain : Language where
  name := plainName
  extensions := ["txt"]
  stringDelimiter := none

/-- The built-in languages, in the order they are registered. -/
def builtin : List Language := [csharp, c, rust, plain]

end Language

end Highlighter
