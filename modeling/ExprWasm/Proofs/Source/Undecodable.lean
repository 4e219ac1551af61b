import ExprWasm.Proofs.Source.Decoding

/-! The bytes that are no text, and what a reader of them delivers.

Whatever is decoded without a defect is the encoding of the characters found. So bytes are an
encoding or they have a first defect, and a stream of them delivers characters up to a failure that
tells where the defect is and what it is, however the bytes are cut. -/

set_option autoImplicit false

namespace ExprWasm.Source

namespace Utf8

/-! ### Sequences that were begun -/

inductive Begun : List UInt8 → Prop where
  | nil : Begun []
  | snoc {pending : List UInt8} {byte : UInt8} (earlier : Begun pending)
      (going : judge (pending ++ [byte]) = .incomplete) : Begun (pending ++ [byte])

theorem allowsSecond_iff (first second : UInt8) :
    allowsSecond first second = true ↔
      (if first.toNat = 0xE0 then 0xA0 else if first.toNat = 0xF0 then 0x90 else 0x80) ≤
          second.toNat ∧
        second.toNat ≤
          if first.toNat = 0xED then 0x9F else if first.toNat = 0xF4 then 0x8F else 0xBF := by
  simp only [allowsSecond, ← UInt8.toNat_inj, UInt8.reduceToNat, Bool.and_eq_true,
    decide_eq_true_eq]

theorem beginsSurrogate_iff (first second : UInt8) :
    beginsSurrogate first second = true ↔
      first.toNat = 0xED ∧ 0xA0 ≤ second.toNat ∧ second.toNat ≤ 0xBF := by
  simp only [beginsSurrogate, ← UInt8.toNat_inj, UInt8.reduceToNat, Bool.and_eq_true,
    decide_eq_true_eq, and_assoc]

theorem isContinuation_iff (byte : UInt8) :
    isContinuation byte = true ↔ 0x80 ≤ byte.toNat ∧ byte.toNat ≤ 0xBF := by
  simp only [isContinuation, Bool.and_eq_true, decide_eq_true_eq]

theorem Begun.forms {pending : List UInt8} (begun : Begun pending) :
    pending = [] ∨
      (∃ a, pending = [a] ∧ 0xC2 ≤ a.toNat ∧ a.toNat ≤ 0xF4) ∨
      (∃ a b, pending = [a, b] ∧ 0xE0 ≤ a.toNat ∧ a.toNat ≤ 0xF4 ∧
        (allowsSecond a b = true ∨ beginsSurrogate a b = true)) ∨
      ∃ a b c, pending = [a, b, c] ∧ 0xF0 ≤ a.toNat ∧ a.toNat ≤ 0xF4 ∧
        allowsSecond a b = true ∧ isContinuation c = true := by
  induction begun with
  | nil => exact Or.inl rfl
  | @snoc pending byte earlier going inductionHypothesis =>
      right
      rcases inductionHypothesis with
        rfl | ⟨a, rfl, low, high⟩ | ⟨a, b, rfl, low, high, second⟩ |
        ⟨a, b, c, rfl, low, high, second, third⟩
      · left
        refine ⟨byte, rfl, ?_⟩
        simp only [List.nil_append, judge] at going
        grind
      · right
        left
        refine ⟨a, byte, rfl, ?_⟩
        simp only [List.cons_append, List.nil_append, judge] at going
        have surrogate := beginsSurrogate_iff a byte
        grind
      · right
        right
        refine ⟨a, b, byte, rfl, ?_⟩
        simp only [List.cons_append, List.nil_append, judge] at going
        grind
      · simp only [List.cons_append, List.nil_append, judge] at going
        grind

theorem val_ofNat {value : Nat} (valid : value.isValidChar) :
    (Char.ofNat value).val.toNat = value := by
  rw [Char.ofNat, dif_pos valid]
  rfl

theorem encode_one {a : UInt8} (low : a.toNat < 0x80) :
    String.utf8EncodeChar (Char.ofNat a.toNat) = [a] := by
  unfold String.utf8EncodeChar
  rw [val_ofNat (Or.inl (by omega))]
  simp only [if_pos (show a.toNat ≤ 127 by omega), UInt8.ofNat_toNat]

theorem encode_two
    {a b : UInt8} (lowFirst : 0xC2 ≤ a.toNat) (highFirst : a.toNat < 0xE0)
    (second : allowsSecond a b = true) :
    String.utf8EncodeChar (Char.ofNat (a.toNat % 32 * 64 + payload b)) = [a, b] := by
  rw [allowsSecond_iff] at second
  have bounds : 0x80 ≤ b.toNat ∧ b.toNat ≤ 0xBF := by grind
  unfold payload String.utf8EncodeChar
  rw [val_ofNat (Or.inl (by omega))]
  simp only
  rw [if_neg (by omega), if_pos (by omega)]
  have first : (a.toNat % 32 * 64 + b.toNat % 64) / 64 % 32 + 192 = a.toNat := by omega
  have last : (a.toNat % 32 * 64 + b.toNat % 64) % 64 + 128 = b.toNat := by omega
  rw [first, last, UInt8.ofNat_toNat, UInt8.ofNat_toNat]

theorem encode_three
    {a b c : UInt8} (lowFirst : 0xE0 ≤ a.toNat) (highFirst : a.toNat < 0xF0)
    (second : allowsSecond a b = true ∨ beginsSurrogate a b = true)
    (scalar : beginsSurrogate a b = false) (third : isContinuation c = true) :
    String.utf8EncodeChar
        (Char.ofNat ((a.toNat % 16 * 64 + payload b) * 64 + payload c)) = [a, b, c] := by
  have allowed : allowsSecond a b = true := by grind
  rw [allowsSecond_iff] at allowed
  rw [isContinuation_iff] at third
  have bounds : 0x80 ≤ b.toNat ∧ b.toNat ≤ 0xBF := by grind
  -- Neither is the form too long for its value, nor is the value that of a surrogate.
  have long : a.toNat = 0xE0 → 0xA0 ≤ b.toNat := by grind
  have inside : a.toNat = 0xED → b.toNat ≤ 0x9F := by grind
  have valid : ((a.toNat % 16 * 64 + b.toNat % 64) * 64 + c.toNat % 64).isValidChar := by
    unfold Nat.isValidChar
    omega
  unfold payload String.utf8EncodeChar
  rw [val_ofNat valid]
  simp only
  rw [if_neg (by omega), if_neg (by omega), if_pos (by omega)]
  generalize wholeIs : (a.toNat % 16 * 64 + b.toNat % 64) * 64 + c.toNat % 64 = whole
  have first : whole / 4096 % 16 + 224 = a.toNat := by omega
  have middle : whole / 64 % 64 + 128 = b.toNat := by omega
  have last : whole % 64 + 128 = c.toNat := by omega
  rw [first, middle, last, UInt8.ofNat_toNat, UInt8.ofNat_toNat, UInt8.ofNat_toNat]

theorem encode_four
    {a b c d : UInt8} (lowFirst : 0xF0 ≤ a.toNat) (highFirst : a.toNat ≤ 0xF4)
    (second : allowsSecond a b = true) (third : isContinuation c = true)
    (fourth : isContinuation d = true) :
    String.utf8EncodeChar
        (Char.ofNat (((a.toNat % 8 * 64 + payload b) * 64 + payload c) * 64 + payload d)) =
      [a, b, c, d] := by
  rw [allowsSecond_iff] at second
  rw [isContinuation_iff] at third fourth
  have bounds : 0x80 ≤ b.toNat ∧ b.toNat ≤ 0xBF := by grind
  have long : a.toNat = 0xF0 → 0x90 ≤ b.toNat := by grind
  have inside : a.toNat = 0xF4 → b.toNat ≤ 0x8F := by grind
  have valid :
      (((a.toNat % 8 * 64 + b.toNat % 64) * 64 + c.toNat % 64) * 64 + d.toNat % 64).isValidChar := by
    unfold Nat.isValidChar
    omega
  unfold payload String.utf8EncodeChar
  rw [val_ofNat valid]
  simp only
  rw [if_neg (by omega), if_neg (by omega), if_neg (by omega)]
  generalize wholeIs :
    ((a.toNat % 8 * 64 + b.toNat % 64) * 64 + c.toNat % 64) * 64 + d.toNat % 64 = whole
  have first : whole / 262144 % 8 + 240 = a.toNat := by omega
  have middle : whole / 4096 % 64 + 128 = b.toNat := by omega
  have later : whole / 64 % 64 + 128 = c.toNat := by omega
  have last : whole % 64 + 128 = d.toNat := by omega
  rw [first, middle, later, last, UInt8.ofNat_toNat, UInt8.ofNat_toNat, UInt8.ofNat_toNat,
    UInt8.ofNat_toNat]

/-- The bytes of a sequence that becomes complete are those of its character. -/
theorem Begun.encode_of_complete
    {pending : List UInt8} {byte : UInt8} {c : Char} (begun : Begun pending)
    (complete : judge (pending ++ [byte]) = .complete c) :
    String.utf8EncodeChar c = pending ++ [byte] := by
  rcases begun.forms with
    rfl | ⟨a, rfl, low, high⟩ | ⟨a, b, rfl, low, high, second⟩ |
    ⟨a, b, third, rfl, low, high, second, continues⟩
  · simp only [List.nil_append, judge] at complete
    split at complete
    · rename_i small
      cases complete
      exact encode_one small
    · split at complete <;> cases complete
  · simp only [List.cons_append, List.nil_append, judge] at complete
    split at complete
    · rename_i allowed
      split at complete
      · rename_i short
        cases complete
        exact encode_two low short allowed
      · cases complete
    · split at complete <;> cases complete
  · simp only [List.cons_append, List.nil_append, judge] at complete
    split at complete
    · rename_i fits
      simp only [Bool.and_eq_true, Bool.not_eq_true'] at fits
      split at complete
      · rename_i short
        cases complete
        exact encode_three low short second fits.1 fits.2
      · cases complete
    · cases complete
  · simp only [List.cons_append, List.nil_append, judge] at complete
    split at complete
    · rename_i fits
      cases complete
      exact encode_four low high second continues fits
    · cases complete

/-! ### Decoded bytes -/

/-- What a scan without a defect has found and has pending are the bytes it was given. -/
theorem encode_of_scan
    {position last : Position} {bytes : List UInt8} {characters : List Char}
    (begun : Begun position.pending)
    (scanned : scan position [] bytes = .ok (characters, last)) :
    encode characters ++ last.pending = position.pending ++ bytes := by
  induction bytes generalizing position characters with
  | nil =>
      rw [scan] at scanned
      cases scanned
      exact (List.append_nil _).symm
  | cons byte rest inductionHypothesis =>
      rw [scan] at scanned
      cases judged : judge (position.pending ++ [byte]) with
      | complete c =>
          simp only [judged] at scanned
          rw [scan_decoded] at scanned
          cases others : scan ⟨position.start + (position.pending ++ [byte]).length, []⟩ [] rest with
          | error malformed =>
              rw [others] at scanned
              cases scanned
          | ok found =>
              rw [others] at scanned
              cases scanned
              have later := inductionHypothesis Begun.nil others
              have first := begun.encode_of_complete judged
              rw [List.reverse_singleton, List.singleton_append, encode, List.flatMap_cons, first,
                List.append_assoc]
              simp only [encode, List.nil_append] at later
              rw [later, List.append_assoc, List.singleton_append]
      | incomplete =>
          simp only [judged] at scanned
          have later := inductionHypothesis (Begun.snoc begun judged) scanned
          rw [later, List.append_assoc, List.singleton_append]
      | defective defect =>
          simp only [judged] at scanned
          cases scanned

def malformed? (bytes : List UInt8) : Option Malformed :=
  match scan ⟨0, []⟩ [] bytes with
  | .error malformed => some malformed
  | .ok (_, last) => (defectAtEnd? last.pending).map fun defect => ⟨last.start, defect⟩

theorem defectAtEnd?_eq_none {pending : List UInt8} (none : defectAtEnd? pending = none) :
    pending = [] := by
  unfold defectAtEnd? at none
  split at none
  · rfl
  · cases none
  · cases none

theorem malformed?_eq_none_iff (bytes : List UInt8) :
    malformed? bytes = none ↔ ∃ text : String, encode text.toList = bytes := by
  constructor
  · intro none
    unfold malformed? at none
    split at none
    · cases none
    · rename_i characters last scanned
      have nothing := defectAtEnd?_eq_none (Option.map_eq_none_iff.mp none)
      have whole := encode_of_scan Begun.nil scanned
      rw [nothing, List.append_nil, List.nil_append] at whole
      exact ⟨String.ofList characters, by rw [String.toList_ofList]; exact whole⟩
  · rintro ⟨text, rfl⟩
    unfold malformed?
    rw [scan_encode]
    rfl

end Utf8

/-! ### Streams of pieces -/

inductive Breaks (failure : Failure) (lastFailure : Option Failure) : List Delivery → Prop where
  | fails (rest : List Delivery) : Breaks failure lastFailure (.error failure :: rest)
  | ends (last : lastFailure = some failure) : Breaks failure lastFailure []
  | item (c : Char) {rest : List Delivery} (later : Breaks failure lastFailure rest) :
      Breaks failure lastFailure (.ok (.item c) :: rest)

theorem Breaks.deliverAll
    {failure : Failure} {reader : Reader} (breaks : Breaks failure reader.lastFailure reader.ahead)
    (characters : List Char) :
    Breaks failure (reader.deliverAll characters).lastFailure
      (reader.deliverAll characters).ahead := by
  induction characters with
  | nil => exact breaks
  | cons c characters inductionHypothesis => exact Breaks.item c inductionHypothesis

/-- However malformed bytes are cut, the characters of some first part of them are delivered, and
then the failure. -/
theorem Reader.ofChunks_delivers
    {pieces : List (List UInt8)} (nonempty : ∀ piece ∈ pieces, piece ≠ [])
    {position : Utf8.Position} {malformed : Utf8.Malformed}
    (scanned : Utf8.scan position [] pieces.flatten = .error malformed) :
    ∃ before after characters last rest, pieces.flatten = before ++ after ∧
      Utf8.scan position [] before = .ok (characters, last) ∧
      (ofChunks position (pieces.map Chunk.bytes)).ahead =
        characters.map (fun c => .ok (.item c)) ++ .error (undecodable malformed) :: rest := by
  induction pieces generalizing position with
  | nil => cases scanned
  | cons piece pieces inductionHypothesis =>
      cases piece with
      | nil => exact absurd rfl (nonempty [] (List.mem_cons_self ..))
      | cons byte bytes =>
          rw [List.flatten_cons, Utf8.scan_append] at scanned
          rw [List.flatten_cons, List.map_cons, ofChunks]
          cases first : Utf8.scan position [] (byte :: bytes) with
          | error found =>
              rw [first] at scanned
              cases scanned
              exact ⟨[], _, [], position, _, rfl, rfl, rfl⟩
          | ok found =>
              rw [first] at scanned
              cases second : Utf8.scan found.2 [] pieces.flatten with
              | ok later =>
                  simp only [Except.bind, second] at scanned
                  cases scanned
              | error other =>
                  simp only [Except.bind, second] at scanned
                  cases scanned
                  have nonemptyRest : ∀ piece ∈ pieces, piece ≠ [] :=
                    fun piece member => nonempty piece (List.mem_cons_of_mem _ member)
                  obtain ⟨before, after, characters, last, rest, split, decoded, ahead⟩ :=
                    inductionHypothesis nonemptyRest second
                  refine ⟨(byte :: bytes) ++ before, after, found.1 ++ characters, last, rest, ?_, ?_, ?_⟩
                  · rw [split, List.append_assoc]
                  · rw [Utf8.scan_append, first]
                    simp only [Except.bind, decoded, Except.map]
                  · simp only [deliverAll, ahead, List.map_append, List.append_assoc]

/-- However malformed bytes are cut, their stream breaks with their first defect. -/
theorem Reader.ofChunks_breaks
    {pieces : List (List UInt8)} (nonempty : ∀ piece ∈ pieces, piece ≠ [])
    {position : Utf8.Position} {malformed : Utf8.Malformed}
    (scanned : Utf8.scan position [] pieces.flatten = .error malformed) :
    Breaks (undecodable malformed) (ofChunks position (pieces.map Chunk.bytes)).lastFailure
      (ofChunks position (pieces.map Chunk.bytes)).ahead := by
  obtain ⟨_, _, characters, _, rest, _, _, ahead⟩ := ofChunks_delivers nonempty scanned
  generalize ofChunks position (pieces.map Chunk.bytes) = reader at ahead
  rw [ahead]
  exact @Breaks.deliverAll _ ⟨.error (undecodable malformed) :: rest, reader.lastFailure⟩
    (Breaks.fails rest) characters

theorem Reader.ofSource_breaks
    {pieces : List (List UInt8)} (nonempty : ∀ piece ∈ pieces, piece ≠ [])
    {malformed : Utf8.Malformed} (found : Utf8.malformed? pieces.flatten = some malformed) :
    Breaks (undecodable malformed) (ofSource (pieces.map Chunk.bytes)).lastFailure
      (ofSource (pieces.map Chunk.bytes)).ahead := by
  unfold Utf8.malformed? at found
  split at found
  · rename_i other scanned
    cases found
    exact ofChunks_breaks nonempty scanned
  · rename_i characters last scanned
    rw [ofSource, ofChunks_pieces nonempty scanned]
    have atEnd : failureAtEnd? last = some (undecodable malformed) := by
      rw [failureAtEnd?]
      obtain ⟨defect, isDefect, rfl⟩ := Option.map_eq_some_iff.mp found
      rw [isDefect]
      rfl
    have broken := @Breaks.deliverAll _ ⟨[], failureAtEnd? last⟩ (Breaks.ends atEnd) characters
    rw [deliverAll, List.append_nil] at broken
    exact broken

theorem Reader.ofSource_encoding
    {pieces : List (List UInt8)} (nonempty : ∀ piece ∈ pieces, piece ≠ []) {text : String}
    (encodes : Utf8.encode text.toList = pieces.flatten) :
    ofSource (pieces.map Chunk.bytes) = ofSource (ofText standardChunkSize text) := by
  have scanned := Utf8.scan_encode 0 text.toList
  rw [encodes] at scanned
  rw [ofSource_ofText, ofSource, ofChunks_pieces nonempty scanned]
  rfl

end ExprWasm.Source
