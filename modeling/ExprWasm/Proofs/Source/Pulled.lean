import ExprWasm.Proofs.Source.Decoding

/-! A reader that asks its stream for a chunk when it has run out of characters.

The decoder buffers the bytes of an unfinished sequence, and tells the place of a defect counted
from the first of them. The reader counts the bytes that it has handed to the decoder. Main
statement: whatever the stream, this reader delivers what the reader of the whole stream does, so
that the place in the stream is the number of bytes handed over, less those buffered, plus the place
that the decoder tells. -/

set_option autoImplicit false

namespace ExprWasm.Source

namespace Utf8

/-- What the decoder makes of a chunk after the bytes it has buffered: characters and the bytes to
be buffered, or a defect with its place from the first buffered byte on. -/
def decode (buffered chunk : List UInt8) (final : Bool) :
    Except Malformed (List Char × List UInt8) :=
  match scan ⟨0, buffered⟩ [] chunk with
  | .error malformed => .error malformed
  | .ok (characters, last) =>
      match final, defectAtEnd? last.pending with
      | true, some defect => .error ⟨last.start, defect⟩
      | _, _ => .ok (characters, last.pending)

def Position.moved (position : Position) (offset : Nat) : Position :=
  { position with start := offset + position.start }

def Malformed.moved (malformed : Malformed) (offset : Nat) : Malformed :=
  { malformed with offset := offset + malformed.offset }

/-- A scan depends on where it starts only in the places that it tells. -/
theorem scan_moved
    (offset : Nat) (position : Position) (decoded : List Char) (bytes : List UInt8) :
    scan (position.moved offset) decoded bytes =
      ((scan position decoded bytes).mapError fun malformed => malformed.moved offset).map
        fun found => (found.1, found.2.moved offset) := by
  induction bytes generalizing position decoded with
  | nil => rfl
  | cons byte rest inductionHypothesis =>
      rw [scan, scan, Position.moved]
      cases judge (position.pending ++ [byte]) with
      | complete c =>
          simp only [Nat.add_assoc]
          exact inductionHypothesis ⟨position.start + (position.pending ++ [byte]).length, []⟩ _
      | incomplete => exact inductionHypothesis ⟨position.start, position.pending ++ [byte]⟩ _
      | defective defect => rfl

/-- Every byte that a scan was given is decoded or pending. -/
theorem scan_accounts
    {position last : Position} {decoded characters : List Char} {bytes : List UInt8}
    (scanned : scan position decoded bytes = .ok (characters, last)) :
    last.start + last.pending.length = position.start + position.pending.length + bytes.length := by
  induction bytes generalizing position decoded with
  | nil =>
      rw [scan] at scanned
      cases scanned
      rfl
  | cons byte rest inductionHypothesis =>
      rw [scan] at scanned
      cases judged : judge (position.pending ++ [byte]) with
      | complete c =>
          rw [judged] at scanned
          rw [inductionHypothesis scanned]
          simp only [List.length_append, List.length_cons, List.length_nil]
          omega
      | incomplete =>
          rw [judged] at scanned
          rw [inductionHypothesis scanned]
          simp only [List.length_append, List.length_cons, List.length_nil]
          omega
      | defective defect =>
          rw [judged] at scanned
          cases scanned

end Utf8

/-- What a reader has taken in of its stream: the bytes that the decoder has buffered, the
characters to be delivered before the next chunk is asked for, and the number of bytes handed to the
decoder. -/
structure Buffer where
  buffered : List UInt8 := []
  characters : List Char := []
  handed : Nat := 0
  finished : Bool := false

structure Puller where
  stream : List Chunk
  buffer : Buffer := {}

namespace Buffer

def ready? (buffer : Buffer) : Option (Delivery × Buffer) :=
  match buffer.characters with
  | c :: rest => some (.ok (.item c), { buffer with characters := rest })
  | [] => if buffer.finished then some (.ok .endOfInput, buffer) else none

def receive (buffer : Buffer) : Chunk → Option Delivery × Buffer
  | .noData => (some (.ok .noData), buffer)
  | .failure text => (some (.error (.system (.ofText text))), buffer)
  | .bytes bytes =>
      match Utf8.decode buffer.buffered bytes bytes.isEmpty with
      | .error malformed =>
          let offset := (buffer.handed : Int) - buffer.buffered.length + malformed.offset
          (some (.error (.undecodable offset malformed.defect.reason)), buffer)
      | .ok (characters, buffered) =>
          (none, ⟨buffered, characters, buffer.handed + bytes.length, bytes.isEmpty⟩)

/-- Asks for chunks until there is something to deliver. After the last chunk of the stream every
further one is empty. -/
def pull (buffer : Buffer) : (stream : List Chunk) → Delivery × Puller
  | [] =>
      match buffer.ready? with
      | some (delivery, after) => (delivery, ⟨[], after⟩)
      | none =>
          match buffer.receive (.bytes []) with
          | (some delivery, after) => (delivery, ⟨[], after⟩)
          | (none, after) => (.ok .endOfInput, ⟨[], after⟩)
  | chunk :: rest =>
      match buffer.ready? with
      | some (delivery, after) => (delivery, ⟨chunk :: rest, after⟩)
      | none =>
          match buffer.receive chunk with
          | (some delivery, after) => (delivery, ⟨rest, after⟩)
          | (none, after) => after.pull rest

def Sound (buffer : Buffer) : Prop :=
  buffer.buffered.length ≤ buffer.handed

def position (buffer : Buffer) : Utf8.Position :=
  ⟨buffer.handed - buffer.buffered.length, buffer.buffered⟩

def reader (buffer : Buffer) (stream : List Chunk) : Reader :=
  Reader.deliverAll buffer.characters
    (if buffer.finished then ⟨[], none⟩ else Reader.ofChunks buffer.position stream)

def Pulls (reader : Reader) (result : Delivery × Puller) : Prop :=
  reader.next = (result.1, result.2.buffer.reader result.2.stream) ∧ result.2.buffer.Sound

section Step

variable {buffer : Buffer}

theorem ready?_pulls
    {delivery : Delivery} {after : Buffer} (ready : buffer.ready? = some (delivery, after))
    (sound : buffer.Sound) (stream : List Chunk) :
    Pulls (buffer.reader stream) (delivery, ⟨stream, after⟩) := by
  unfold ready? at ready
  split at ready
  · rename_i c rest waiting
    cases ready
    refine ⟨?_, sound⟩
    rw [reader, waiting]
    rfl
  · rename_i empty
    split at ready
    · rename_i done
      cases ready
      refine ⟨?_, sound⟩
      rw [reader, empty, if_pos done]
      rfl
    · cases ready

theorem ready?_eq_none (unready : buffer.ready? = none) :
    buffer.characters = [] ∧ buffer.finished = false := by
  unfold ready? at unready
  split at unready
  · cases unready
  · rename_i empty
    split at unready
    · cases unready
    · rename_i unfinished
      exact ⟨empty, (Bool.not_eq_true _).mp unfinished⟩

theorem reader_of_unready (unready : buffer.ready? = none) (stream : List Chunk) :
    buffer.reader stream = Reader.ofChunks buffer.position stream := by
  obtain ⟨empty, unfinished⟩ := ready?_eq_none unready
  rw [reader, empty, unfinished]
  rfl

/-- The place that the reader tells is the place in the stream. -/
theorem receive_of_error
    (sound : buffer.Sound) {bytes : List UInt8} {malformed : Utf8.Malformed}
    (found : Utf8.decode buffer.buffered bytes bytes.isEmpty = .error malformed) :
    buffer.receive (.bytes bytes) =
      (some (.error (undecodable (malformed.moved buffer.position.start))), buffer) := by
  have place : ((buffer.position.start + malformed.offset : Nat) : Int) =
      (buffer.handed : Int) - buffer.buffered.length + malformed.offset := by
    unfold Sound at sound
    simp only [position]
    omega
  rw [receive, found, undecodable, Utf8.Malformed.moved, place]

end Step

inductive Received (buffer : Buffer) (chunk : Chunk) (rest : List Chunk) :
    Option Delivery × Buffer → Prop where
  | delivered {delivery : Delivery}
      (same : buffer.reader (chunk :: rest) = .deliver delivery (buffer.reader rest)) :
      Received buffer chunk rest (some delivery, buffer)
  | decoded {after : Buffer} (sound : after.Sound)
      (same : buffer.reader (chunk :: rest) = after.reader rest) :
      Received buffer chunk rest (none, after)

section Receive

variable {buffer : Buffer} (sound : buffer.Sound) (unready : buffer.ready? = none)

include sound unready

theorem receive_end (rest : List Chunk) :
    Received buffer (.bytes []) rest (buffer.receive (.bytes [])) := by
  have unread := reader_of_unready unready
  cases atEnd : Utf8.defectAtEnd? buffer.buffered with
  | some defect =>
      have failure : failureAtEnd? buffer.position =
          some (undecodable (Utf8.Malformed.moved ⟨0, defect⟩ buffer.position.start)) := by
        rw [failureAtEnd?, position, atEnd]
        rfl
      have decoded : Utf8.decode buffer.buffered [] true = .error ⟨0, defect⟩ := by
        simp only [Utf8.decode, Utf8.scan, atEnd]
      rw [receive_of_error sound decoded]
      apply Received.delivered
      rw [unread, unread, Reader.ofChunks, failure]
  | none =>
      have failure : failureAtEnd? buffer.position = none := by
        rw [failureAtEnd?, position, atEnd]
        rfl
      have decoded : Utf8.decode buffer.buffered [] true = .ok ([], buffer.buffered) := by
        simp only [Utf8.decode, Utf8.scan, atEnd, List.reverse_nil]
      rw [receive, List.isEmpty_nil, decoded]
      refine Received.decoded sound ?_
      rw [unread, Reader.ofChunks, failure]
      rfl

theorem receive_bytes (byte : UInt8) (bytes : List UInt8) (rest : List Chunk) :
    Received buffer (.bytes (byte :: bytes)) rest (buffer.receive (.bytes (byte :: bytes))) := by
  have unread := reader_of_unready unready
  have scanned : Utf8.scan buffer.position [] (byte :: bytes) = _ :=
    Utf8.scan_moved buffer.position.start ⟨0, buffer.buffered⟩ [] (byte :: bytes)
  cases found : Utf8.scan ⟨0, buffer.buffered⟩ [] (byte :: bytes) with
  | error malformed =>
      have decoded : Utf8.decode buffer.buffered (byte :: bytes) false = .error malformed := by
        simp only [Utf8.decode, found]
      rw [receive_of_error sound decoded]
      apply Received.delivered
      rw [unread, unread, Reader.ofChunks, scanned, found]
      rfl
  | ok result =>
      obtain ⟨characters, last⟩ := result
      have decoded : Utf8.decode buffer.buffered (byte :: bytes) false =
          .ok (characters, last.pending) := by
        simp only [Utf8.decode, found]
      have counted := Utf8.scan_accounts found
      simp only [Nat.zero_add] at counted
      unfold Sound at sound
      have place : buffer.position.start + last.start =
          buffer.handed + (byte :: bytes).length - last.pending.length := by
        simp only [position]
        omega
      rw [receive, List.isEmpty_cons, decoded]
      apply Received.decoded
      · unfold Sound
        simp only
        omega
      · have settled : last.moved buffer.position.start =
            position ⟨last.pending, characters, buffer.handed + (byte :: bytes).length, false⟩ := by
          rw [Utf8.Position.moved, place]
          rfl
        rw [found] at scanned
        change _ = Except.ok (characters, last.moved buffer.position.start) at scanned
        rw [unread, Reader.ofChunks, scanned, settled]
        rfl

theorem receive_received (chunk : Chunk) (rest : List Chunk) :
    Received buffer chunk rest (buffer.receive chunk) := by
  have unread := reader_of_unready unready
  cases chunk with
  | noData =>
      apply Received.delivered
      rw [unread, unread, Reader.ofChunks]
  | failure text =>
      apply Received.delivered
      rw [unread, unread, Reader.ofChunks]
  | bytes bytes =>
      cases bytes with
      | nil => exact receive_end sound unready rest
      | cons byte bytes => exact receive_bytes sound unready byte bytes rest

end Receive

/-- Nothing follows the end of a stream. -/
theorem receive_nil
    {buffer after : Buffer} (received : buffer.receive (.bytes []) = (none, after)) :
    after.characters = [] ∧ after.finished = true := by
  rw [receive, Utf8.decode, Utf8.scan] at received
  split at received
  · cases received
  · rename_i characters buffered decoded
    cases received
    refine ⟨?_, rfl⟩
    simp only at decoded
    split at decoded
    · cases decoded
    · cases decoded
      rfl

/-- A read after the last chunk is one of an empty chunk. -/
theorem next_after_last (position : Utf8.Position) :
    (Reader.ofChunks position []).next = (Reader.ofChunks position [.bytes []]).next := by
  rw [Reader.ofChunks, Reader.ofChunks]
  cases atEnd : failureAtEnd? position with
  | none => rfl
  | some failure =>
      rw [Reader.ofChunks, atEnd]
      rfl

theorem pull_of_ready
    {buffer after : Buffer} {delivery : Delivery} (ready : buffer.ready? = some (delivery, after))
    (stream : List Chunk) : buffer.pull stream = (delivery, ⟨stream, after⟩) := by
  cases stream with
  | nil => rw [pull, ready]
  | cons chunk rest => rw [pull, ready]

theorem pull_pulls (buffer : Buffer) (sound : buffer.Sound) (stream : List Chunk) :
    Pulls (buffer.reader stream) (buffer.pull stream) := by
  induction stream generalizing buffer with
  | nil =>
      cases ready : buffer.ready? with
      | some result =>
          rw [pull_of_ready ready]
          exact ready?_pulls ready sound []
      | none =>
          have received := receive_received sound ready (.bytes []) []
          rw [pull, ready, Pulls, reader_of_unready ready, next_after_last,
            ← reader_of_unready ready]
          generalize result : buffer.receive (.bytes []) = after at received
          cases received with
          | delivered same =>
              rw [same]
              exact ⟨rfl, sound⟩
          | decoded soundAfter same =>
              obtain ⟨empty, done⟩ := receive_nil result
              rw [same]
              refine ⟨?_, soundAfter⟩
              rw [reader, empty, if_pos done]
              rfl
  | cons chunk rest inductionHypothesis =>
      cases ready : buffer.ready? with
      | some result =>
          rw [pull_of_ready ready]
          exact ready?_pulls ready sound (chunk :: rest)
      | none =>
          have received := receive_received sound ready chunk rest
          rw [pull, ready]
          generalize buffer.receive chunk = result at received
          cases received with
          | delivered same =>
              rw [same]
              exact ⟨rfl, sound⟩
          | decoded soundAfter same =>
              rw [same]
              exact inductionHypothesis _ soundAfter

end Buffer

namespace Puller

def next (puller : Puller) : Delivery × Puller :=
  puller.buffer.pull puller.stream

def take (puller : Puller) : (calls : Nat) → List Delivery
  | 0 => []
  | calls + 1 => puller.next.1 :: puller.next.2.take calls

theorem take_reader (puller : Puller) (sound : puller.buffer.Sound) (calls : Nat) :
    puller.take calls = (puller.buffer.reader puller.stream).take calls := by
  induction calls generalizing puller with
  | zero => rfl
  | succ calls inductionHypothesis =>
      obtain ⟨same, soundAfter⟩ := puller.buffer.pull_pulls sound puller.stream
      rw [take, Reader.take, same, next, inductionHypothesis _ soundAfter]

/-- Whatever the stream, reading it on demand delivers what its reader does. -/
theorem take_eq (source : List Chunk) (calls : Nat) :
    (⟨source, {}⟩ : Puller).take calls = (Reader.ofSource source).take calls :=
  take_reader ⟨source, {}⟩ (Nat.le_refl 0) calls

end Puller

end ExprWasm.Source
