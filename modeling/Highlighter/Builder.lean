import Highlighter.Cache.Basic

/-!
# Background builds

A worker builds a document aside while its first lines are already shown. Every start
and every invalidation opens a new generation. Workers go on until they send their cache
or are lost, but only the one of the last start is listened to, and only until the next
start or invalidation.
-/

namespace Highlighter

inductive Worker.State where
  | working
  /-- The cache is on its channel. -/
  | sent (cache : Cache)
  /-- It ended without a result. -/
  | lost

/-- A build aside. -/
structure Worker where
  generation : Nat
  /-- An empty cache with the settings of the build. -/
  template : Cache
  text : Text
  state : Worker.State := .working

namespace Worker

/-- The worker at its end: a worker sends or is lost only once. -/
def endWith (state : Worker → Worker.State) (w : Worker) : Worker :=
  match w.state with
  | .working => { w with state := state w }
  | _ => w

def result (w : Worker) : Cache := w.template.build w.text

end Worker

structure Builder where
  /-- The number of starts and invalidations. -/
  generation : Nat := 0
  /-- The workers that were ever started, the last one first. -/
  workers : List Worker := []
  /-- The generation of the worker that is listened to. -/
  pending? : Option Nat := none

namespace Builder

def isPending (b : Builder) : Bool := b.pending?.isSome

/-- Sends a worker to build the text with the settings of the template. -/
def start (b : Builder) (template : Cache) (text : Text) : Builder :=
  let generation := b.generation + 1
  { generation
    workers := { generation, template := template.emptyLike, text } :: b.workers
    pending? := some generation }

def invalidate (b : Builder) : Builder :=
  { b with generation := b.generation + 1, pending? := none }

/-! ### Workers -/

def endWorker (b : Builder) (generation : Nat) (state : Worker → Worker.State) : Builder :=
  { b with workers := b.workers.map fun w =>
      if w.generation = generation then w.endWith state else w }

/-- The worker of a generation sends its cache. -/
def deliver (b : Builder) (generation : Nat) : Builder :=
  b.endWorker generation fun w => .sent w.result

def lose (b : Builder) (generation : Nat) : Builder := b.endWorker generation fun _ => .lost

def worker? (b : Builder) : Option Worker :=
  b.pending?.bind fun generation => b.workers.find? fun w => w.generation = generation

/-! ### Results -/

/-- The result of a worker, unless it is stale. -/
def accept (b : Builder) (generation : Nat) (cache : Cache) : Option Cache :=
  if generation = b.generation then some cache else none

def settled (b : Builder) : Builder := { b with pending? := none }

def poll (b : Builder) : Builder × Option Cache :=
  match b.worker? with
  | none => (b, none)
  | some w =>
    match w.state with
    | .working => (b, none)
    | .lost => (b.settled, none)
    | .sent cache => (b.settled, b.accept w.generation cache)

/-- Takes the result once the worker has ended; one that is still at work will send it. -/
def wait (b : Builder) : Builder × Option Cache :=
  match b.pending? with
  | none => (b, none)
  | some generation => (b.deliver generation).poll

end Builder

end Highlighter
