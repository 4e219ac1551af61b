import ExprWasm.Source.Reading
import ExprWasm.Source.Utf8

/-! Sources as streams of chunks, and the characters that reading them delivers.

A source is given as text, as bytes or as a stream. A text that holds surrogates cannot be made
bytes of, and is refused as a whole.

A chunk is decoded as a whole. One with a defect delivers no character but a failure; the bytes that
were pending before it stay pending and its own bytes are lost. An empty chunk is the end of the
stream, and so is every read after the last chunk: it is final, unless bytes are pending, when each
such read fails anew. -/

set_option autoImplicit false

namespace ExprWasm.Source

inductive Chunk where
  | bytes (bytes : List UInt8)
  | noData
  | failure (text : String)
  deriving DecidableEq

def standardChunkSize : Nat := 4096

/-- Bytes cut into chunks of a given size, of which the last can be smaller. A size of zero gives an
empty stream. -/
def cut (size : Nat) : List UInt8 → List Chunk
  | [] => []
  | byte :: bytes =>
      if size = 0 then []
      else .bytes ((byte :: bytes).take size) :: cut size ((byte :: bytes).drop size)
termination_by bytes => bytes.length
decreasing_by
  simp only [List.length_drop, List.length_cons]
  omega

def ofText (size : Nat) (text : String) : List Chunk :=
  cut size (Utf8.encode text.toList)

inductive Origin where
  | text (codes : List CodePoint)
  | bytes (content : List UInt8)
  | stream (chunks : List Chunk)

/-- The failure of a text that holds surrogates. It is about the first of them and those that follow
it immediately. -/
def unencodable? (codes : List CodePoint) : Option Failure :=
  match codes.dropWhile fun code => !isSurrogate code with
  | [] => none
  | first :: rest =>
      let start := (codes.takeWhile fun code => !isSurrogate code).length
      some (.unencodable start first.val ((rest.takeWhile isSurrogate).length + 1))

/-- A source as a stream, in chunks of a given size unless it is one. A text that cannot be encoded
fails before anything is read. -/
def Origin.chunks (size : Nat) : Origin → Except Failure (List Chunk)
  | text codes =>
      match unencodable? codes with
      | some failure => .error failure
      | none => .ok (cut size (Utf8.encode (codes.map fun code => Char.ofNat code.val)))
  | bytes content => .ok (cut size content)
  | stream chunks => .ok chunks

/-- What one call for a character gives. -/
abbrev Delivery := Except Failure (Reading Char)

def undecodable (malformed : Utf8.Malformed) : Failure :=
  .undecodable malformed.offset malformed.defect.reason

def failureAtEnd? (position : Utf8.Position) : Option Failure :=
  (Utf8.defectAtEnd? position.pending).map fun defect => undecodable ⟨position.start, defect⟩

/-- A source that is being read: the deliveries still to come, and after them the end of the input
or the same failure on every call. -/
structure Reader where
  ahead : List Delivery
  lastFailure : Option Failure

namespace Reader

def deliver (delivery : Delivery) (reader : Reader) : Reader :=
  { reader with ahead := delivery :: reader.ahead }

def deliverAll (characters : List Char) (reader : Reader) : Reader :=
  { reader with ahead := characters.map (fun c => .ok (.item c)) ++ reader.ahead }

def ofChunks (position : Utf8.Position) : List Chunk → Reader
  | [] => ⟨[], failureAtEnd? position⟩
  | .noData :: rest => deliver (.ok .noData) (ofChunks position rest)
  | .failure text :: rest =>
      deliver (.error (.system (.ofText text))) (ofChunks position rest)
  | .bytes [] :: rest =>
      match failureAtEnd? position with
      | none => ⟨[], none⟩
      | some failure => deliver (.error failure) (ofChunks position rest)
  | .bytes (byte :: bytes) :: rest =>
      match Utf8.scan position [] (byte :: bytes) with
      | .ok (characters, next) => deliverAll characters (ofChunks next rest)
      | .error malformed => deliver (.error (undecodable malformed)) (ofChunks position rest)

def ofSource (chunks : List Chunk) : Reader :=
  ofChunks ⟨0, []⟩ chunks

def next (reader : Reader) : Delivery × Reader :=
  match reader.ahead with
  | delivery :: rest => (delivery, { reader with ahead := rest })
  | [] =>
      match reader.lastFailure with
      | none => (.ok .endOfInput, reader)
      | some failure => (.error failure, reader)

def take (reader : Reader) : (calls : Nat) → List Delivery
  | 0 => []
  | calls + 1 =>
      let (delivery, rest) := reader.next
      delivery :: rest.take calls

end Reader

end ExprWasm.Source
