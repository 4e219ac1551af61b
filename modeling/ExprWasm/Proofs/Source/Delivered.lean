import ExprWasm.Proofs.Source.Pulled
import ExprWasm.Proofs.Source.Undecodable

/-! Reading undoes encoding.

The calls for the characters of an encoded text give the text and then the end of the input,
wherever the bytes are cut. Bytes of which the calls come to the end of the input without a failure
are the encoding of what was delivered, so that no other form of a character passes. -/

set_option autoImplicit false

namespace ExprWasm.Source

def items (text : List Char) : List Delivery :=
  text.map fun c => .ok (.item c)

def character? : Delivery → Option Char
  | .ok (.item c) => some c
  | _ => none

theorem filterMap_items (text : List Char) : (items text).filterMap character? = text := by
  rw [items, List.filterMap_map]
  exact List.filterMap_some

theorem item_of_mem {text : List Char} {delivery : Delivery} (member : delivery ∈ items text) :
    ∃ c, delivery = .ok (.item c) := by
  rcases List.mem_map.mp member with ⟨c, _, same⟩
  exact ⟨c, same.symm⟩

namespace Reader

/-! ### Repeated calls -/

theorem take_items (reader : Reader) (text : List Char) (calls : Nat) :
    (reader.deliverAll text).take (text.length + calls) = items text ++ reader.take calls := by
  induction text with
  | nil =>
      rw [List.length_nil, Nat.zero_add]
      rfl
  | cons c text inductionHypothesis =>
      rw [List.length_cons, Nat.add_right_comm]
      exact congrArg (List.cons _) inductionHypothesis

theorem take_ended (calls : Nat) :
    (⟨[], none⟩ : Reader).take calls = List.replicate calls (.ok .endOfInput) := by
  induction calls with
  | zero => rfl
  | succ calls inductionHypothesis =>
      rw [take, List.replicate_succ, ← inductionHypothesis]
      rfl

theorem take_isPrefix (reader : Reader) {calls more : Nat} (fewer : calls ≤ more) :
    reader.take calls <+: reader.take more := by
  induction more generalizing reader calls with
  | zero =>
      cases Nat.le_zero.mp fewer
      exact List.prefix_refl _
  | succ more inductionHypothesis =>
      cases calls with
      | zero => exact List.nil_prefix
      | succ calls =>
          rw [take, take, List.cons_prefix_cons]
          exact ⟨rfl, inductionHypothesis _ (Nat.le_of_succ_le_succ fewer)⟩

theorem length_lt_of_ends
    {text : List Char} {reader : Reader} {calls : Nat}
    (ends : .ok .endOfInput ∈ (reader.deliverAll text).take calls) : text.length < calls := by
  apply Nat.lt_of_not_le
  intro fewer
  have within := (take_isPrefix (reader.deliverAll text) fewer).subset ends
  have all : (reader.deliverAll text).take text.length = items text :=
    (take_items reader text 0).trans (List.append_nil _)
  rw [all] at within
  rcases item_of_mem within with ⟨c, same⟩
  cases same

section Pieces

variable {pieces : List (List UInt8)} (nonempty : ∀ piece ∈ pieces, piece ≠ [])

include nonempty

theorem ofSource_pieces_encoding {text : List Char} (encodes : Utf8.encode text = pieces.flatten) :
    ofSource (pieces.map Chunk.bytes) = deliverAll text ⟨[], none⟩ := by
  have scanned := Utf8.scan_encode 0 text
  rw [encodes] at scanned
  rw [ofSource, ofChunks_pieces nonempty scanned, deliverAll, List.append_nil]
  rfl

/-- The first failure of malformed bytes comes after the characters of some first part of them. -/
theorem ofSource_pieces_malformed
    {malformed : Utf8.Malformed} (found : Utf8.malformed? pieces.flatten = some malformed) :
    ∃ before after text last reader, pieces.flatten = before ++ after ∧
      Utf8.scan ⟨0, []⟩ [] before = .ok (text, last) ∧
      ofSource (pieces.map Chunk.bytes) = deliverAll text reader ∧
      reader.next.1 = .error (undecodable malformed) := by
  unfold Utf8.malformed? at found
  split at found
  · rename_i other scanned
    cases found
    rcases ofChunks_delivers nonempty scanned with
      ⟨before, after, text, last, rest, split, decoded, ahead⟩
    refine ⟨before, after, text, last,
      ⟨.error (undecodable malformed) :: rest, (ofSource (pieces.map Chunk.bytes)).lastFailure⟩,
      split, decoded, ?_, rfl⟩
    rw [deliverAll, ← ahead]
    rfl
  · rename_i text last scanned
    rcases Option.map_eq_some_iff.mp found with ⟨defect, isDefect, rfl⟩
    refine ⟨pieces.flatten, [], text, last, ⟨[], failureAtEnd? last⟩, (List.append_nil _).symm,
      scanned, ?_, ?_⟩
    · rw [ofSource, ofChunks_pieces nonempty scanned, deliverAll, List.append_nil]
    · rw [failureAtEnd?, isDefect]
      rfl

theorem encoding_of_ends
    {calls : Nat} (ends : .ok .endOfInput ∈ (ofSource (pieces.map Chunk.bytes)).take calls)
    (unfailed : ∀ failure, .error failure ∉ (ofSource (pieces.map Chunk.bytes)).take calls) :
    ∃ text more, Utf8.encode text = pieces.flatten ∧ calls = text.length + more := by
  cases found : Utf8.malformed? pieces.flatten with
  | none =>
      rcases (Utf8.malformed?_eq_none_iff _).mp found with ⟨text, encodes⟩
      rw [ofSource_pieces_encoding nonempty encodes] at ends
      have further := length_lt_of_ends ends
      exact ⟨text.toList, calls - text.toList.length, encodes,
        (Nat.add_sub_of_le (Nat.le_of_lt further)).symm⟩
  | some malformed =>
      rcases ofSource_pieces_malformed nonempty found with
        ⟨before, after, text, last, reader, _, _, whole, failing⟩
      rw [whole] at ends unfailed
      have further := length_lt_of_ends ends
      have reached : .error (undecodable malformed) ∈ (reader.deliverAll text).take calls := by
        apply (take_isPrefix (reader.deliverAll text) further).subset
        rw [Nat.succ_eq_add_one, take_items, ← failing]
        exact List.mem_append_right _ (List.mem_cons_self ..)
      exact absurd reached (unfailed _)

end Pieces

end Reader

/-- Whatever the non-empty pieces that bytes come in, the reader delivers a text and then the end of
the input if they are the encoding of the text; and where it gets to the end of the input without a
failure, they are the encoding of what it has delivered. A reader that asks for its pieces when it
needs them delivers the same. -/
theorem reading_inverts_encoding
    (pieces : List (List UInt8)) (nonempty : ∀ piece ∈ pieces, piece ≠ []) :
    (∀ text, Utf8.encode text = pieces.flatten → ∀ calls,
      (Reader.ofSource (pieces.map Chunk.bytes)).take (text.length + calls) =
        items text ++ List.replicate calls (.ok .endOfInput)) ∧
    (∀ calls, .ok .endOfInput ∈ (Reader.ofSource (pieces.map Chunk.bytes)).take calls →
      (∀ failure, .error failure ∉ (Reader.ofSource (pieces.map Chunk.bytes)).take calls) →
      Utf8.encode (((Reader.ofSource (pieces.map Chunk.bytes)).take calls).filterMap character?) =
        pieces.flatten) ∧
    ∀ calls, (⟨pieces.map Chunk.bytes, {}⟩ : Puller).take calls =
      (Reader.ofSource (pieces.map Chunk.bytes)).take calls := by
  refine ⟨?_, ?_, Puller.take_eq _⟩
  · intro text encodes calls
    rw [Reader.ofSource_pieces_encoding nonempty encodes, Reader.take_items, Reader.take_ended]
  · intro calls ends unfailed
    rcases Reader.encoding_of_ends nonempty ends unfailed with ⟨text, more, encodes, rfl⟩
    rw [Reader.ofSource_pieces_encoding nonempty encodes, Reader.take_items, Reader.take_ended,
      List.filterMap_append, filterMap_items, List.filterMap_replicate_of_none rfl, List.append_nil,
      encodes]

/-- A letter, and a character of four bytes that come one by one. -/
def cutCharacter : List (List UInt8) :=
  [[0x61], [0xF0], [0x9F], [0x98], [0x80]]

theorem cutCharacter_delivered :
    (∀ piece ∈ cutCharacter, piece ≠ []) ∧ Utf8.encode ['a', '😀'] = cutCharacter.flatten ∧
      (Reader.ofSource (cutCharacter.map Chunk.bytes)).take 4 =
        items ['a', '😀'] ++ List.replicate 2 (.ok .endOfInput) ∧
      .ok .endOfInput ∈ (Reader.ofSource (cutCharacter.map Chunk.bytes)).take 4 ∧
      (∀ failure, .error failure ∉ (Reader.ofSource (cutCharacter.map Chunk.bytes)).take 4) ∧
      Utf8.encode (((Reader.ofSource (cutCharacter.map Chunk.bytes)).take 4).filterMap character?) =
        cutCharacter.flatten := by
  have nonempty : ∀ piece ∈ cutCharacter, piece ≠ [] := by decide
  have encodes : Utf8.encode ['a', '😀'] = cutCharacter.flatten := by decide
  have taken : (Reader.ofSource (cutCharacter.map Chunk.bytes)).take 4 =
      items ['a', '😀'] ++ List.replicate 2 (.ok .endOfInput) :=
    (reading_inverts_encoding cutCharacter nonempty).1 _ encodes 2
  have ends : .ok .endOfInput ∈ (Reader.ofSource (cutCharacter.map Chunk.bytes)).take 4 := by
    rw [taken]
    exact List.mem_append_right _ (List.mem_cons_self ..)
  have unfailed : ∀ failure,
      .error failure ∉ (Reader.ofSource (cutCharacter.map Chunk.bytes)).take 4 := by
    intro failure failed
    rw [taken] at failed
    simp [items] at failed
  exact ⟨nonempty, encodes, taken, ends, unfailed,
    (reading_inverts_encoding cutCharacter nonempty).2.1 4 ends unfailed⟩

end ExprWasm.Source
