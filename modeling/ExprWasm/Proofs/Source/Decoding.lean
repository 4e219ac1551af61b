import ExprWasm.Source.Reader

/-! Texts come back from their bytes, however the bytes are cut.

A scan of bytes in pieces goes on where the one before it stopped. So the reader of a stream of
pieces delivers what a scan of all the bytes gives, and the reader of an encoded text delivers the
text. -/

set_option autoImplicit false

namespace ExprWasm.Source

namespace Utf8

/-! ### Scans of pieces -/

theorem scan_decoded (position : Position) (decoded : List Char) (bytes : List UInt8) :
    scan position decoded bytes =
      (scan position [] bytes).map fun found => (decoded.reverse ++ found.1, found.2) := by
  induction bytes generalizing position decoded with
  | nil => simp [scan, Except.map]
  | cons byte rest inductionHypothesis =>
      rw [scan, scan]
      cases judge (position.pending ++ [byte]) with
      | complete c =>
          simp only []
          rw [inductionHypothesis _ (c :: decoded), inductionHypothesis _ [c]]
          cases scan ⟨position.start + (position.pending ++ [byte]).length, []⟩ [] rest with
          | ok found => simp [Except.map]
          | error malformed => rfl
      | incomplete => exact inductionHypothesis _ decoded
      | defective defect => rfl

/-- A scan goes on where the one before it stopped. -/
theorem scan_append
    (position : Position) (decoded : List Char) (first second : List UInt8) :
    scan position decoded (first ++ second) =
      (scan position decoded first).bind fun found =>
        (scan found.2 [] second).map fun later => (found.1 ++ later.1, later.2) := by
  induction first generalizing position decoded with
  | nil => exact scan_decoded position decoded second
  | cons byte rest inductionHypothesis =>
      rw [List.cons_append, scan, scan]
      cases judge (position.pending ++ [byte]) with
      | complete c => exact inductionHypothesis _ _
      | incomplete => exact inductionHypothesis _ _
      | defective defect => rfl

/-! ### Encoded characters -/

theorem toNat_ofNat_of_lt (value : Nat) (bound : value < 256) :
    (UInt8.ofNat value).toNat = value := by
  rw [UInt8.toNat_ofNat']
  exact Nat.mod_eq_of_lt bound

theorem judge_one {value : Nat} (high : value ≤ 0x7F) :
    judge [UInt8.ofNat value] = .complete (Char.ofNat value) := by
  rw [judge, toNat_ofNat_of_lt value (by omega), if_pos (by omega)]

theorem judge_first (value : Nat) (low : 0xC2 ≤ value) (high : value ≤ 0xF4) :
    judge [UInt8.ofNat value] = .incomplete := by
  rw [judge, toNat_ofNat_of_lt value (by omega), if_neg (by omega), if_pos (by simp; omega)]

theorem judge_two {value : Nat} (low : 0x7F < value) (high : value ≤ 0x7FF) :
    judge [UInt8.ofNat (value / 64 % 32 + 192), UInt8.ofNat (value % 64 + 128)] =
      .complete (Char.ofNat value) := by
  have first := toNat_ofNat_of_lt (value / 64 % 32 + 192) (by omega)
  have second := toNat_ofNat_of_lt (value % 64 + 128) (by omega)
  have joined : (value / 64 % 32 + 192) % 32 * 64 + (value % 64 + 128) % 64 = value := by omega
  simp only [judge, allowsSecond, payload, ← UInt8.toNat_inj, UInt8.reduceToNat, first, second,
    joined]
  grind

theorem judge_three
    {value : Nat} (low : 0x7FF < value) (high : value ≤ 0xFFFF)
    (scalar : value < 0xD800 ∨ 0xDFFF < value) :
    judge [UInt8.ofNat (value / 4096 % 16 + 224), UInt8.ofNat (value / 64 % 64 + 128)] =
        .incomplete ∧
      judge [UInt8.ofNat (value / 4096 % 16 + 224), UInt8.ofNat (value / 64 % 64 + 128),
          UInt8.ofNat (value % 64 + 128)] = .complete (Char.ofNat value) := by
  have first := toNat_ofNat_of_lt (value / 4096 % 16 + 224) (by omega)
  have second := toNat_ofNat_of_lt (value / 64 % 64 + 128) (by omega)
  have third := toNat_ofNat_of_lt (value % 64 + 128) (by omega)
  have joined :
      ((value / 4096 % 16 + 224) % 16 * 64 + (value / 64 % 64 + 128) % 64) * 64 +
        (value % 64 + 128) % 64 = value := by omega
  constructor
  · simp only [judge, allowsSecond, ← UInt8.toNat_inj, UInt8.reduceToNat, first, second]
    grind
  · -- The second byte does not begin a surrogate, since the value is a scalar.
    simp only [judge, beginsSurrogate, isContinuation, payload, ← UInt8.toNat_inj,
      UInt8.reduceToNat, first, second, third, joined]
    grind

theorem judge_four {value : Nat} (low : 0xFFFF < value) (high : value < 0x110000) :
    judge [UInt8.ofNat (value / 262144 % 8 + 240), UInt8.ofNat (value / 4096 % 64 + 128)] =
        .incomplete ∧
      judge [UInt8.ofNat (value / 262144 % 8 + 240), UInt8.ofNat (value / 4096 % 64 + 128),
          UInt8.ofNat (value / 64 % 64 + 128)] = .incomplete ∧
      judge [UInt8.ofNat (value / 262144 % 8 + 240), UInt8.ofNat (value / 4096 % 64 + 128),
          UInt8.ofNat (value / 64 % 64 + 128), UInt8.ofNat (value % 64 + 128)] =
        .complete (Char.ofNat value) := by
  have first := toNat_ofNat_of_lt (value / 262144 % 8 + 240) (by omega)
  have second := toNat_ofNat_of_lt (value / 4096 % 64 + 128) (by omega)
  have third := toNat_ofNat_of_lt (value / 64 % 64 + 128) (by omega)
  have fourth := toNat_ofNat_of_lt (value % 64 + 128) (by omega)
  have joined :
      (((value / 262144 % 8 + 240) % 8 * 64 + (value / 4096 % 64 + 128) % 64) * 64 +
        (value / 64 % 64 + 128) % 64) * 64 + (value % 64 + 128) % 64 = value := by omega
  refine ⟨?_, ?_, ?_⟩
  · simp only [judge, allowsSecond, ← UInt8.toNat_inj, UInt8.reduceToNat, first, second]
    grind
  · simp only [judge, beginsSurrogate, isContinuation, ← UInt8.toNat_inj, UInt8.reduceToNat, first,
      second, third]
    grind
  · simp only [judge, isContinuation, payload, first, second, third, fourth, joined]
    grind

theorem scan_utf8EncodeChar (start : Nat) (c : Char) :
    scan ⟨start, []⟩ [] (String.utf8EncodeChar c) =
      .ok ([c], ⟨start + (String.utf8EncodeChar c).length, []⟩) := by
  have scalar : c.val.toNat < 0xD800 ∨ 0xDFFF < c.val.toNat ∧ c.val.toNat < 0x110000 := c.valid
  have same : Char.ofNat c.val.toNat = c := Char.ofNat_toNat c
  unfold String.utf8EncodeChar
  generalize c.val.toNat = value at scalar same
  by_cases one : value ≤ 0x7F
  · simp only [if_pos one, scan, List.nil_append, judge_one one, same]
    rfl
  · by_cases two : value ≤ 0x7FF
    · simp only [if_neg one, if_pos two, scan, List.nil_append, List.cons_append,
        judge_first (value / 64 % 32 + 192) (by omega) (by omega),
        judge_two (Nat.lt_of_not_le one) two, same]
      rfl
    · by_cases three : value ≤ 0xFFFF
      · obtain ⟨begun, done⟩ := judge_three (Nat.lt_of_not_le two) three (by omega)
        simp only [if_neg one, if_neg two, if_pos three, scan, List.nil_append, List.cons_append,
          judge_first (value / 4096 % 16 + 224) (by omega) (by omega), begun, done, same]
        rfl
      · obtain ⟨begun, nearly, done⟩ := judge_four (Nat.lt_of_not_le three) (by omega)
        simp only [if_neg one, if_neg two, if_neg three, scan, List.nil_append, List.cons_append,
          judge_first (value / 262144 % 8 + 240) (by omega) (by omega), begun, nearly,
          done, same]
        rfl

theorem scan_encode (start : Nat) (text : List Char) :
    scan ⟨start, []⟩ [] (encode text) = .ok (text, ⟨start + (encode text).length, []⟩) := by
  induction text generalizing start with
  | nil => rfl
  | cons c text inductionHypothesis =>
      have split : encode (c :: text) = String.utf8EncodeChar c ++ encode text :=
        List.flatMap_cons
      rw [split, scan_append, scan_utf8EncodeChar, List.length_append, ← Nat.add_assoc]
      simp only [Except.bind, inductionHypothesis, Except.map, List.singleton_append]

end Utf8

/-! ### Streams of pieces -/

namespace Reader

/-- The reader of a stream of pieces delivers what a scan of all their bytes gives. -/
theorem ofChunks_pieces
    {pieces : List (List UInt8)} (nonempty : ∀ piece ∈ pieces, piece ≠ [])
    {position last : Utf8.Position} {characters : List Char}
    (scanned : Utf8.scan position [] pieces.flatten = .ok (characters, last)) :
    ofChunks position (pieces.map Chunk.bytes) =
      ⟨characters.map (fun c => .ok (.item c)), failureAtEnd? last⟩ := by
  induction pieces generalizing position characters with
  | nil =>
      rw [List.flatten_nil, Utf8.scan] at scanned
      cases scanned
      rfl
  | cons piece pieces inductionHypothesis =>
      cases piece with
      | nil => exact absurd rfl (nonempty [] (List.mem_cons_self ..))
      | cons byte bytes =>
          rw [List.flatten_cons, Utf8.scan_append] at scanned
          cases first : Utf8.scan position [] (byte :: bytes) with
          | error malformed =>
              rw [first] at scanned
              cases scanned
          | ok found =>
              rw [first] at scanned
              cases second : Utf8.scan found.2 [] pieces.flatten with
              | error malformed =>
                  simp only [Except.bind, second] at scanned
                  cases scanned
              | ok later =>
                  simp only [Except.bind, second] at scanned
                  cases scanned
                  have rest := inductionHypothesis
                    (fun piece member => nonempty piece (List.mem_cons_of_mem _ member)) second
                  rw [List.map_cons, ofChunks, first]
                  simp only [rest, deliverAll, List.map_append]

end Reader

theorem cut_eq_pieces (size : Nat) (positive : 0 < size) (bytes : List UInt8) :
    ∃ pieces : List (List UInt8), cut size bytes = pieces.map Chunk.bytes ∧
      pieces.flatten = bytes ∧ ∀ piece ∈ pieces, piece ≠ [] := by
  fun_induction cut size bytes with
  | case1 => exact ⟨[], rfl, rfl, fun piece member => nomatch member⟩
  | case2 byte bytes empty => exact absurd empty (Nat.ne_of_gt positive)
  | case3 byte bytes nonzero inductionHypothesis =>
      obtain ⟨pieces, cuts, joined, nonempty⟩ := inductionHypothesis
      refine ⟨(byte :: bytes).take size :: pieces, ?_, ?_, ?_⟩
      · rw [cuts, List.map_cons]
      · rw [List.flatten_cons, joined, List.take_append_drop]
      · intro piece member
        rcases List.mem_cons.mp member with first | later
        · rw [first]
          exact fun empty => absurd (List.take_eq_nil_iff.mp empty) (by simp; omega)
        · exact nonempty piece later

/-- The reader of a text delivers the text and then the end of the input. -/
theorem ofSource_ofText (text : String) :
    Reader.ofSource (ofText standardChunkSize text) =
      ⟨text.toList.map (fun c => .ok (.item c)), none⟩ := by
  obtain ⟨pieces, cuts, joined, nonempty⟩ :=
    cut_eq_pieces standardChunkSize (by decide) (Utf8.encode text.toList)
  have scanned := Utf8.scan_encode 0 text.toList
  rw [← joined] at scanned
  rw [Reader.ofSource, ofText, cuts, Reader.ofChunks_pieces nonempty scanned]
  rfl

end ExprWasm.Source
