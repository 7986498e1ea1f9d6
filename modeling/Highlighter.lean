import Highlighter.Text.Basic
import Highlighter.Text.LineEnd
import Highlighter.Text.Blank
import Highlighter.Text.CodeRange
import Highlighter.Text.Width
import Highlighter.Text.LowerCase
import Highlighter.Text.Quoted
import Highlighter.Table
import Highlighter.Error
import Highlighter.Store.Path
import Highlighter.Store.Basic
import Highlighter.Block.Kind
import Highlighter.Block.Basic
import Highlighter.Language.Basic
import Highlighter.Language.Builtin
import Highlighter.Language.Registry
import Highlighter.Scanner.Numeral
import Highlighter.Scanner.Cursor
import Highlighter.Scanner.Basic
import Highlighter.Theme
import Highlighter.Markup.Basic
import Highlighter.Markup.Strip
import Highlighter.Line.Basic
import Highlighter.Line.Assembler
import Highlighter.Cache.Basic
import Highlighter.Cache.Edit
import Highlighter.Builder
import Highlighter.Toml.Basic
import Highlighter.Toml.Reader
import Highlighter.Toml.Quoted
import Highlighter.Toml.Number
import Highlighter.Toml.File
import Highlighter.Settings.Basic
import Highlighter.Settings.File
import Highlighter.Document
import Highlighter.Report
import Highlighter.Pager.Basic
import Highlighter.Pager.Frame
import Highlighter.Command.Basic
import Highlighter.Command.Flag
import Highlighter.Command.Verb
import Highlighter.Command.Help
import Highlighter.Command.Arguments
import Highlighter.Command.Run
import Highlighter.Main
import Highlighter.Proofs.Text.Lines
import Highlighter.Proofs.Language.Lexeme
import Highlighter.Proofs.Scanner.Step
import Highlighter.Proofs.Scanner.Pass
import Highlighter.Proofs.Scanner.LineBreaks
import Highlighter.Proofs.Scanner.Locality
import Highlighter.Proofs.Markup.Strip
import Highlighter.Proofs.Cache.Build
import Highlighter.Proofs.Cache.Operation
import Highlighter.Proofs.Cache.LineList
import Highlighter.Proofs.Cache.Rebuild
import Highlighter.Proofs.Cache.Written
import Highlighter.Proofs.Bytes.Utf8
import Highlighter.Proofs.Bytes.Place
import Highlighter.Proofs.Bytes.Machine
import Highlighter.Proofs.Bytes.Number
import Highlighter.Proofs.Bytes.Simulation
import Highlighter.Proofs.Bytes.Spans
import Highlighter.Proofs.Scanner.Pause
import Highlighter.Proofs.Cache.Progress
import Highlighter.Proofs.Scanner.Unformatted
import Highlighter.Proofs.Cache.LineEdit
import Highlighter.Proofs.Cache.Unfinished
import Highlighter.Proofs.Cache.LineEnds
import Highlighter.Proofs.Text.FinalBreak
import Highlighter.Proofs.Text.Terminator
import Highlighter.Proofs.Document.Edit
import Highlighter.Proofs.Document.Reopen
import Highlighter.Proofs.Store.Frame
import Highlighter.Proofs.Document.Splice
import Highlighter.Proofs.Command.LineEdit
import Highlighter.Proofs.Builder.Handoff
import Highlighter.Proofs.Markup.Render
import Highlighter.Proofs.Document.Saving
import Highlighter.Proofs.Document.Unfinished
import Highlighter.Proofs.Pager.Session
import Highlighter.Proofs.Scanner.LineReplacement
import Highlighter.Proofs.Text.Replace
import Highlighter.Proofs.Cache.Splice
import Highlighter.Proofs.Scanner.Origin
import Highlighter.Proofs.Scanner.Priority
import Highlighter.Proofs.Scanner.Extent
import Highlighter.Proofs.Cache.LineNumbers
import Highlighter.Proofs.Language.NumberGrammar
import Highlighter.Proofs.Scanner.Lookahead
import Highlighter.Proofs.Scanner.Numbers
import Highlighter.Proofs.Scanner.Continuation
import Highlighter.Proofs.Line.Pieces
import Highlighter.Proofs.Scanner.Calls
import Highlighter.Proofs.Bytes.Steps
import Highlighter.Proofs.Cache.Width
import Highlighter.Proofs.Language.Registration
import Highlighter.Proofs.Pager.Screen
import Highlighter.Proofs.Pager.Rows
