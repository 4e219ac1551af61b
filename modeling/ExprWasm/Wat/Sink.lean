import ExprWasm.Wat.Instructions

/-! Where the lines of a module are written to.

A sink can be bounded; one that is full refuses every further write. Lines are written one by one,
each with a line feed, so what was written before a failure stays written. -/

set_option autoImplicit false

namespace ExprWasm.Wat

open ExprWasm.Tree (Node)

/-- The texts written in order, and how many of them the sink has room for, if there is a bound. -/
structure Sink where
  writes : Array String := #[]
  capacity : Option Nat := none

namespace Sink

def text (sink : Sink) : String :=
  String.join sink.writes.toList

def isFull (sink : Sink) : Bool :=
  match sink.capacity with
  | none => false
  | some capacity => capacity ≤ sink.writes.size

def write (sink : Sink) (text : String) : Except Failure Unit × Sink :=
  if sink.isFull then (.error (.system (.ofText "sink full")), sink)
  else (.ok (), { sink with writes := sink.writes.push text })

def writeLines (sink : Sink) : List String → Except Failure Unit × Sink
  | [] => (.ok (), sink)
  | line :: rest =>
      match sink.write (line ++ "\n") with
      | (.ok (), sink) => sink.writeLines rest
      | (.error failure, sink) => (.error failure, sink)

/-- Writes the lines of a tree. Those before a node that has no instructions are written too. -/
def writeTree (sink : Sink) (node : Node) : Except Failure Unit × Sink :=
  let emitted := lines node
  match sink.writeLines emitted.texts, emitted.failure with
  | (.ok (), sink), some failure => (.error failure, sink)
  | result, _ => result

end Sink

def render (node : Node) : Except Failure String :=
  match Sink.writeTree {} node with
  | (.ok (), sink) => .ok sink.text
  | (.error failure, _) => .error failure

structure Generator where
  sink : Option Sink := none

namespace Generator

def run (generator : Generator) (node : Node) : Except Failure Unit × Generator :=
  let (outcome, sink) := (generator.sink.getD {}).writeTree node
  (outcome, { generator with sink := some sink })

def text (generator : Generator) : String :=
  (generator.sink.map Sink.text).getD ""

/-- The text of a tree, written by another generator to a sink of its own. -/
def generate (generator : Generator) (node : Node) : Except Failure String × Generator :=
  match run { sink := some {} } node with
  | (.ok (), other) => (.ok other.text, generator)
  | (.error failure, _) => (.error failure, generator)

end Generator

end ExprWasm.Wat
