import Highlighter.Command.Arguments
import Highlighter.Report

/-!
# Running commands

A command works on a store. It ends with what it prints and with the store it leaves, or
it starts to page. Edits are saved at once; a command that fails has changed no document. What
is logged meanwhile goes to the log file, whichever file that is, or to the error output.
-/

namespace Highlighter

inductive Outcome where
  | finished (exit : Nat) (output errors : Text) (store : Store)
  | paging (settings : Settings) (document : Document) (body : Text)

namespace Request

/-- The index of a line that is counted from one. -/
def lineIndex : Nat → Except Error Nat
  | 0 => .error .lineZero
  | n + 1 => .ok n

/-- The file that the log goes to: a name in the directory of the path. -/
def logFile? (o : Options) : Option Path := do
  let p ← o.logPath?
  return p.parent.child (← p.fileName?)

/-- Makes sure that the log file is there, with the directory it is in. Lines are put at its
end later, by `State.log`. -/
def openLog (store : Store) : Option Path → Except Error Store
  | none => .ok store
  | some p =>
    match p.fileName? with
    | none => .error (.invalidLogFile p)
    | some name =>
      ((store.makeDirectory p.parent).bind (·.touch (p.parent.child name))).mapError Error.file

/-- The files and the error output in the course of a run. -/
structure State where
  store : Store
  errors : Text := []

def State.log (o : Options) (t : Text) (state : State) : State :=
  match logFile? o with
  | some p => { state with store := state.store.append p t }
  | none => { state with errors := state.errors ++ t }

/-- The settings of the file, with those of the command line in their place. -/
def settings (store : Store) (home : Option Path) (o : Options) : Except Error Settings := do
  let s ← match o.settingsPath? with
    | some p => Settings.loadFrom store p
    | none => Settings.load store home
  return { s with
    surface := o.surface?.getD s.surface
    highlight := s.highlight && !o.noHighlight }

def load (store : Store) (s : Settings) (o : Options) (file : Path) : Except Error Document :=
  Document.load store s.registry s o.language? file

def show? (state : State) (s : Settings) (o : Options) (log : Log) (file : Path)
    (view : Document → Text) : Except Error Outcome := do
  let d ← load state.store s o file
  let state := state.log o log.beforeWriting
  return .finished 0 (view d) state.errors state.store

def edit (state : State) (s : Settings) (o : Options) (log : Log) (file : Path)
    (change : Document → Except Error Document) : Except Error Outcome := do
  let d ← change (← load state.store s o file)
  let state := state.log o log.beforeWriting
  let (d, store) ← (d.save state.store).toExcept
  let state := ({ state with store } : State).log o log.afterWriting
  return .finished 0 (d.savedNote file) state.errors state.store

def perform (state : State) (s : Settings) (o : Options) (log : Log) :
    Command → Except Error Outcome
  | .view file raw numbers => show? state s o log file fun d => d.listing raw numbers
  | .stats file => show? state s o log file fun d => d.statistics file
  | .tokens file => show? state s o log file Document.blockListing
  | .set file line text => edit state s o log file fun d => do
    (d.setLine (← lineIndex line) text).toExcept
  | .insert file line text below => edit state s o log file fun d => do
    let index ← lineIndex line
    (if below then d.insertBelow index text else d.insertAbove index text).toExcept
  | .delete file line => edit state s o log file fun d => do
    (d.deleteLine (← lineIndex line)).toExcept
  | .page file => do
    let s := { s with surface := .terminal }
    let (d, body) ← Document.loadDeferred state.store s.registry s o.language? file
    return .paging s d body
  | .languages =>
    let names := s.registry.names.flatMap fun name => Text.outputLine name.toList
    return .finished 0 names state.errors state.store

def report (state : State) (e : Error) : Outcome :=
  .finished 1 [] (state.errors ++ Text.outputLine ("Error: " ++ e.message).toList) state.store

/-- Opens the log, reads the settings and does what the command says. -/
def run (store : Store) (home : Option Path) (log : Log) (r : Request) : Outcome :=
  match openLog store r.options.logPath? with
  | .error e => report { store } e
  | .ok store =>
    match settings store home r.options with
    | .error e => report { store } e
    | .ok s =>
      let state := ({ store } : State).log r.options log.beforeReading
      match perform state s r.options log r.command with
      | .ok outcome => outcome
      | .error e => report (state.log r.options log.beforeWriting) e

end Request

def versionLine : Text := "codelines 0.1.0\n".toList

/-- What is printed when a command line asks for nothing that can be done. -/
def malformedNote : Text :=
  ("error: cannot read the command line\n\nUsage: codelines [OPTIONS] <COMMAND>\n\n" ++
    "For more information, try '--help'.\n").toList

/-- Runs a command line, with a logger that is silent. -/
def runArguments (store : Store) (home : Option Path) (args : List Text) : Outcome :=
  match Request.ofArguments args with
  | .ok r => r.run store home {}
  | .error (.help topic full) => .finished 0 (topic.text full) [] store
  | .error .version => .finished 0 versionLine [] store
  | .error .malformed => .finished 2 [] malformedNote store

end Highlighter
