import Highlighter.Command.Run
import Highlighter.Pager.Frame

/-!
# The program

Looks up the files that a command line names, runs it on them and writes back what has
changed. A document is paged by the lines that are typed.
-/

open Highlighter

namespace Highlighter.Program

/-- The system's number for a directory in the place of a file. -/
def directoryCode : UInt32 := 21

/-- What is found under a path. What cannot be read is not found. -/
def lookUp (p : Path) : IO (Option Entry) := do
  try
    let bytes ← IO.FS.readBinFile p
    match String.fromUTF8? bytes with
    | some s => return some (.text s.toList)
    | none => return some (.binary bytes.toList)
  catch
    | .inappropriateType _ code _ => return if code = directoryCode then some .directory else none
    | _ => return none

def pathOf (place : Place) : Path := "/" ++ "/".intercalate place

/-- The path, after those that its walk passes. -/
def stations (p : Path) : List Path :=
  let root := if p.isAbsolute then "/" else ""
  (List.range p.steps.length).map fun n => root ++ "/".intercalate (p.steps.take (n + 1))

/-- The paths that a command line may name. An argument that is no path is looked up in vain. -/
def mentioned (home : Option Path) (args : List String) : List Path :=
  let values := args.flatMap fun a => [a, (a.dropWhile (· != '=')).drop 1 |>.toString]
  (values ++ (home.map Settings.homePath).toList).flatMap stations

def gather (workingDirectory : Place) (paths : List Path) : IO Store :=
  paths.foldlM (fun store p => do
    match ← lookUp p with
    | some entry => return { store with files := store.files.insert (store.place p) entry }
    | none => return store) { workingDirectory }

/-- Writes what is new in a store. -/
def writeBack (before after : Store) : IO Unit :=
  for (place, entry) in after.files.entries do
    if before.files.get? place != some entry then
      match entry with
      | .text t => IO.FS.writeFile (pathOf place) (String.ofList t)
      | .binary bytes => IO.FS.writeBinFile (pathOf place) ⟨bytes.toArray⟩
      | .directory => IO.FS.createDirAll (pathOf place)

def style : Style → Text
  | .normal => []
  | .dim => "\x1b[2m".toList
  | .reversed => "\x1b[7m".toList

def painted (f : Frame) : Text :=
  "\x1b[2J\x1b[H".toList ++ f.flatMap fun row =>
    Text.outputLine (row.flatMap fun run => style run.style ++ run.text ++ "\x1b[0m".toList)

/-- The inputs of a typed line: its characters, or the enter key if it is empty. -/
def inputs (line : String) : List Input :=
  match line.toList.filter fun c => !isBreak c with
  | [] => [.key .enter]
  | cs => cs.map fun c => .key (.char c false)

partial def page (input output : IO.FS.Stream) (p : Pager) : IO Unit := do
  let (frame?, p) := p.deliver.advance.draw
  if let some frame := frame? then
    output.putStr (String.ofList (painted frame))
    output.flush
  let line ← input.getLine
  if line.isEmpty then return
  match (inputs line).foldlM Pager.handle? p with
  | some p => page input output p
  | none => return

end Highlighter.Program

open Highlighter.Program

def main (args : List String) : IO UInt32 := do
  let home ← IO.getEnv "HOME"
  let here := Path.parts (← IO.currentDir).toString
  let store ← gather here (mentioned home args)
  match runArguments store home (args.map String.toList) with
  | .finished exit output errors after =>
    writeBack store after
    (← IO.getStdout).putStr (String.ofList output)
    (← IO.getStderr).putStr (String.ofList errors)
    return exit.toUInt32
  | .paging settings document body =>
    let screen : Screen := { columns := 80, rows := 24 }
    page (← IO.getStdin) (← IO.getStdout) (Pager.start settings screen document body)
    return 0
