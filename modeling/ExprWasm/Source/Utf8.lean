/-! UTF-8 decoding, one byte at a time.

`judge` gives the verdict on the bytes of a single sequence as far as they are known, and `scan`
feeds bytes to it. Bytes that have begun a sequence stay pending, so that a text can be decoded in
pieces: the result of a scan does not depend on where the pieces are cut. -/

set_option autoImplicit false

namespace ExprWasm.Source.Utf8

inductive Defect where
  | invalidStart
  | invalidContinuation
  | unexpectedEnd
  deriving DecidableEq

namespace Defect

def reason : Defect → String
  | invalidStart => "invalid start byte"
  | invalidContinuation => "invalid continuation byte"
  | unexpectedEnd => "unexpected end of data"

end Defect

inductive Verdict where
  | complete (c : Char)
  | incomplete
  | defective (defect : Defect)
  deriving DecidableEq

def isContinuation (byte : UInt8) : Bool :=
  0x80 ≤ byte.toNat && byte.toNat ≤ 0xBF

/-- The second byte is one that the first allows: it rules out forms that are too long, surrogates
and values beyond the last code point. -/
def allowsSecond (first second : UInt8) : Bool :=
  let low := if first = 0xE0 then 0xA0 else if first = 0xF0 then 0x90 else 0x80
  let high := if first = 0xED then 0x9F else if first = 0xF4 then 0x8F else 0xBF
  low ≤ second.toNat && second.toNat ≤ high

def beginsSurrogate (first second : UInt8) : Bool :=
  first = 0xED && 0xA0 ≤ second.toNat && second.toNat ≤ 0xBF

def payload (byte : UInt8) : Nat :=
  byte.toNat % 64

/-- The verdict on the bytes of one sequence. The beginning of a surrogate passes for incomplete: it
is found out with the byte after it, or at the end. -/
def judge : List UInt8 → Verdict
  | [a] =>
      if a.toNat < 0x80 then .complete (Char.ofNat a.toNat)
      else if 0xC2 ≤ a.toNat && a.toNat ≤ 0xF4 then .incomplete
      else .defective .invalidStart
  | [a, b] =>
      if allowsSecond a b then
        if a.toNat < 0xE0 then .complete (Char.ofNat (a.toNat % 32 * 64 + payload b))
        else .incomplete
      else if beginsSurrogate a b then .incomplete
      else .defective .invalidContinuation
  | [a, b, c] =>
      if !beginsSurrogate a b && isContinuation c then
        if a.toNat < 0xF0 then
          .complete (Char.ofNat ((a.toNat % 16 * 64 + payload b) * 64 + payload c))
        else .incomplete
      else .defective .invalidContinuation
  | [a, b, c, d] =>
      if isContinuation d then
        .complete
          (Char.ofNat (((a.toNat % 8 * 64 + payload b) * 64 + payload c) * 64 + payload d))
      else .defective .invalidContinuation
  | _ => .incomplete

def defectAtEnd? : List UInt8 → Option Defect
  | [] => none
  | [a, b] => some (if beginsSurrogate a b then .invalidContinuation else .unexpectedEnd)
  | _ => some .unexpectedEnd

/-- A place in a sequence of bytes: the offset of the first byte that is not decoded, and the bytes
from there on that have been seen. -/
structure Position where
  start : Nat
  pending : List UInt8
  deriving DecidableEq

structure Malformed where
  offset : Nat
  defect : Defect
  deriving DecidableEq

/-- Decodes bytes from a position on. The characters found before are in `decoded`, the last one
first. -/
def scan : Position → List Char → List UInt8 → Except Malformed (List Char × Position)
  | position, decoded, [] => .ok (decoded.reverse, position)
  | position, decoded, byte :: rest =>
      let sequence := position.pending ++ [byte]
      match judge sequence with
      | .complete c => scan ⟨position.start + sequence.length, []⟩ (c :: decoded) rest
      | .incomplete => scan ⟨position.start, sequence⟩ decoded rest
      | .defective defect => .error ⟨position.start, defect⟩

def encode (text : List Char) : List UInt8 :=
  text.flatMap String.utf8EncodeChar

end ExprWasm.Source.Utf8
