/-! Syntax errors with their lines, and the report on a list of them. -/

set_option autoImplicit false

namespace ExprWasm

structure Diagnostic where
  line : Int
  message : String
  deriving DecidableEq

namespace Diagnostic

def text (diagnostic : Diagnostic) : String :=
  diagnostic.message ++ ", line " ++ toString diagnostic.line

def summary (count : Nat) : String :=
  toString count ++ if count = 1 then " error" else " errors"

def report (diagnostics : List Diagnostic) : String :=
  "\n".intercalate (diagnostics.map text ++ [summary diagnostics.length])

/-- The diagnostic at a position, where a negative position counts from the end. -/
def at? (diagnostics : List Diagnostic) (position : Int) : Option Diagnostic :=
  if position < 0 then
    let fromStart := position + diagnostics.length
    if fromStart < 0 then none else diagnostics[fromStart.toNat]?
  else diagnostics[position.toNat]?

inductive PositionFault where
  /-- The list ends before the position. -/
  | outOfRange
  /-- The position does not fit into a signed word of 64 bits. -/
  | tooWide
  deriving DecidableEq

namespace PositionFault

def message : PositionFault → String
  | outOfRange => "list index out of range"
  | tooWide => "cannot fit 'int' into an index-sized integer"

end PositionFault

def lookup (diagnostics : List Diagnostic) (position : Int) : Except PositionFault Diagnostic :=
  if position < Int64.minValue.toInt || Int64.maxValue.toInt < position then .error .tooWide
  else
    match at? diagnostics position with
    | some diagnostic => .ok diagnostic
    | none => .error .outOfRange

end Diagnostic

end ExprWasm
