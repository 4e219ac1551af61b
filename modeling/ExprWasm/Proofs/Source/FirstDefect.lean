import ExprWasm.Proofs.Source.Delivered

/-! Where bytes cease to be a text, and why.

The first failure of a reader is placed at the end of the longest first part of the bytes that
encodes a text. Its reason says how the rest relates to the sequences of single characters: it
begins none of them, it ends within one, or it departs from all of them. -/

set_option autoImplicit false

namespace ExprWasm.Source

namespace Utf8

structure LongestText (bytes : List UInt8) (text : List Char) (rest : List UInt8) : Prop where
  split : encode text ++ rest = bytes
  longest : ∀ other remaining, encode other ++ remaining = bytes →
    (encode other).length ≤ (encode text).length

def Starts (byte : UInt8) : Prop :=
  ∃ c later, String.utf8EncodeChar c = byte :: later

/-- The bytes are the first of the sequence of some character, and not all of it. -/
def Unfinished (bytes : List UInt8) : Prop :=
  ∃ c missing, missing ≠ [] ∧ String.utf8EncodeChar c = bytes ++ missing

inductive Reason : List UInt8 → String → Prop where
  | start {byte : UInt8} {later : List UInt8} (starts : ¬ Starts byte) :
      Reason (byte :: later) "invalid start byte"
  | ending {byte : UInt8} {later : List UInt8} (unfinished : Unfinished (byte :: later)) :
      Reason (byte :: later) "unexpected end of data"
  | continuation {byte : UInt8} {later : List UInt8} (starts : Starts byte)
      (departs : ¬ Unfinished (byte :: later)) :
      Reason (byte :: later) "invalid continuation byte"

/-! ### Scans of a sequence that was begun -/

theorem Begun.scan_append
    {pending : List UInt8} (begun : Begun pending) (start : Nat) (bytes : List UInt8) :
    scan ⟨start, []⟩ [] (pending ++ bytes) = scan ⟨start, pending⟩ [] bytes := by
  induction begun generalizing bytes with
  | nil => rfl
  | @snoc pending byte earlier going inductionHypothesis =>
      rw [List.append_assoc, List.singleton_append, inductionHypothesis, scan]
      simp only [going]

theorem Begun.scan_defective
    {pending : List UInt8} {byte : UInt8} {defect : Defect} (begun : Begun pending)
    (refused : judge (pending ++ [byte]) = .defective defect) (start : Nat) (later : List UInt8) :
    scan ⟨start, []⟩ [] (pending ++ byte :: later) = .error ⟨start, defect⟩ := by
  rw [begun.scan_append, scan]
  simp only [refused]

theorem scan_begun
    {position last : Position} {bytes : List UInt8} {decoded text : List Char}
    (begun : Begun position.pending) (scanned : scan position decoded bytes = .ok (text, last)) :
    Begun last.pending := by
  induction bytes generalizing position decoded with
  | nil =>
      rw [scan] at scanned
      cases scanned
      exact begun
  | cons byte rest inductionHypothesis =>
      rw [scan] at scanned
      cases judged : judge (position.pending ++ [byte]) with
      | complete c =>
          rw [judged] at scanned
          exact inductionHypothesis Begun.nil scanned
      | incomplete =>
          rw [judged] at scanned
          exact inductionHypothesis (Begun.snoc begun judged) scanned
      | defective defect =>
          rw [judged] at scanned
          cases scanned

theorem scan_start
    {start : Nat} {last : Position} {bytes : List UInt8} {text : List Char}
    (scanned : scan ⟨start, []⟩ [] bytes = .ok (text, last)) :
    last.start = start + (encode text).length := by
  have counted := scan_accounts scanned
  have whole := congrArg List.length (encode_of_scan Begun.nil scanned)
  rw [List.length_append, List.nil_append] at whole
  simp only [List.length_nil, Nat.add_zero] at counted
  omega

/-- A scan fails at the first byte that no character allows after those that are pending. -/
theorem scan_error
    {position : Position} {decoded : List Char} {bytes : List UInt8} {malformed : Malformed}
    (failed : scan position decoded bytes = .error malformed) :
    ∃ before byte after text last, bytes = before ++ byte :: after ∧
      scan position decoded before = .ok (text, last) ∧ malformed.offset = last.start ∧
      judge (last.pending ++ [byte]) = .defective malformed.defect := by
  induction bytes generalizing position decoded with
  | nil => cases failed
  | cons byte rest inductionHypothesis =>
      rw [scan] at failed
      -- A byte that is accepted comes before those that the rest of the scan accepts.
      have further (next : Position) (found : List Char)
          (steps : ∀ bytes, scan position decoded (byte :: bytes) = scan next found bytes)
          (later : scan next found rest = .error malformed) :
          ∃ before refused after text last, byte :: rest = before ++ refused :: after ∧
            scan position decoded before = .ok (text, last) ∧ malformed.offset = last.start ∧
            judge (last.pending ++ [refused]) = .defective malformed.defect := by
        rcases inductionHypothesis later with
          ⟨before, refused, after, text, last, split, scanned, offset, defect⟩
        refine ⟨byte :: before, refused, after, text, last, ?_, ?_, offset, defect⟩
        · rw [split, List.cons_append]
        · rw [steps, scanned]
      cases judged : judge (position.pending ++ [byte]) with
      | complete c =>
          rw [judged] at failed
          refine further _ _ ?_ failed
          intro bytes
          rw [scan, judged]
      | incomplete =>
          rw [judged] at failed
          refine further _ _ ?_ failed
          intro bytes
          rw [scan, judged]
      | defective defect =>
          rw [judged] at failed
          cases failed
          exact ⟨[], byte, rest, decoded.reverse, position, rfl, rfl, rfl, judged⟩

/-! ### The rest after the longest text -/

inductive Stops : List UInt8 → Defect → Prop where
  | byte {pending : List UInt8} {byte : UInt8} {defect : Defect} (begun : Begun pending)
      (refused : judge (pending ++ [byte]) = .defective defect) (later : List UInt8) :
      Stops (pending ++ byte :: later) defect
  | ending {pending : List UInt8} {defect : Defect} (begun : Begun pending)
      (left : defectAtEnd? pending = some defect) : Stops pending defect

theorem malformed?_eq_some
    {bytes : List UInt8} {malformed : Malformed} (found : malformed? bytes = some malformed) :
    ∃ text rest, encode text ++ rest = bytes ∧ malformed.offset = (encode text).length ∧
      Stops rest malformed.defect := by
  unfold malformed? at found
  split at found
  · rename_i other failed
    cases found
    rcases scan_error failed with ⟨before, byte, after, text, last, split, scanned, offset, refused⟩
    refine ⟨text, last.pending ++ byte :: after, ?_, ?_,
      Stops.byte (scan_begun Begun.nil scanned) refused after⟩
    · rw [← List.append_assoc, encode_of_scan Begun.nil scanned, split, List.nil_append]
    · rw [offset, scan_start scanned, Nat.zero_add]
  · rename_i text last scanned
    rcases Option.map_eq_some_iff.mp found with ⟨defect, isDefect, rfl⟩
    refine ⟨text, last.pending, ?_, ?_, Stops.ending (scan_begun Begun.nil scanned) isDefect⟩
    · exact encode_of_scan Begun.nil scanned
    · rw [scan_start scanned, Nat.zero_add]

theorem Stops.ne_character
    {rest : List UInt8} {defect : Defect} (stops : Stops rest defect) (c : Char)
    (later : List UInt8) :
    String.utf8EncodeChar c ++ later ≠ rest := by
  intro same
  have scanned : scan ⟨0, []⟩ [] rest =
      (scan ⟨(String.utf8EncodeChar c).length, []⟩ [] later).map
        fun found => (c :: found.1, found.2) := by
    rw [← same, Utf8.scan_append, scan_utf8EncodeChar, Nat.zero_add]
    rfl
  cases stops with
  | byte begun refused after =>
      rw [begun.scan_defective refused] at scanned
      cases others : scan ⟨(String.utf8EncodeChar c).length, []⟩ [] later with
      | ok found =>
          rw [others] at scanned
          cases scanned
      | error malformed =>
          rw [others] at scanned
          cases scanned
          rcases scan_error others with ⟨_, _, _, text, last, _, before, offset, _⟩
          have positive : 0 < (String.utf8EncodeChar c).length := by
            rw [String.length_utf8EncodeChar]
            exact c.utf8Size_pos
          rw [scan_start before] at offset
          simp only at offset
          omega
  | ending begun left =>
      have none := begun.scan_append 0 []
      rw [List.append_nil, scanned] at none
      cases others : scan ⟨(String.utf8EncodeChar c).length, []⟩ [] later with
      | ok found =>
          rw [others] at none
          cases none
      | error malformed =>
          rw [others] at none
          cases none

theorem encode_cons (c : Char) (text : List Char) :
    encode (c :: text) = String.utf8EncodeChar c ++ encode text :=
  List.flatMap_cons

/-- No sequence of a character begins with the sequence of another one. -/
theorem eq_of_isPrefix
    {c other : Char} (within : String.utf8EncodeChar c <+: String.utf8EncodeChar other) :
    c = other := by
  rcases within with ⟨later, joined⟩
  have whole := scan_utf8EncodeChar 0 other
  rw [← joined, Utf8.scan_append, scan_utf8EncodeChar] at whole
  cases others : scan ⟨0 + (String.utf8EncodeChar c).length, []⟩ [] later with
  | ok found =>
      simp only [Except.bind, others, Except.map] at whole
      injection whole with same
      injection same with characters
      exact (List.cons.inj characters).1
  | error malformed =>
      simp only [Except.bind, others, Except.map] at whole
      cases whole

/-- A text that is followed by nothing like a character extends every other one in the same bytes.
-/
theorem isPrefix_of_encode_append
    {text other : List Char} {rest remaining : List UInt8}
    (stuck : ∀ c later, String.utf8EncodeChar c ++ later ≠ rest)
    (same : encode other ++ remaining = encode text ++ rest) : other <+: text := by
  induction other generalizing text with
  | nil => exact List.nil_prefix
  | cons c other inductionHypothesis =>
      rw [encode_cons, List.append_assoc] at same
      cases text with
      | nil => exact absurd same (stuck c _)
      | cons d text =>
          rw [encode_cons, List.append_assoc] at same
          have here : c = d := by
            rcases List.prefix_or_prefix_of_prefix (List.prefix_append _ _)
              ⟨_, same.symm⟩ with within | within
            · exact eq_of_isPrefix within
            · exact (eq_of_isPrefix within).symm
          subst here
          have tails := List.append_cancel_left same
          exact List.cons_prefix_cons.mpr ⟨rfl, inductionHypothesis tails⟩

theorem encode_length_le {other text : List Char} (within : other <+: text) :
    (encode other).length ≤ (encode text).length := by
  rcases within with ⟨later, rfl⟩
  rw [encode, encode, List.flatMap_append, List.length_append]
  exact Nat.le_add_right _ _

/-! ### Sequences that can be finished -/

theorem Begun.unfinished_of_complete
    {pending : List UInt8} {byte : UInt8} {c : Char} (begun : Begun pending)
    (complete : judge (pending ++ [byte]) = .complete c) : Unfinished pending :=
  ⟨c, [byte], List.cons_ne_nil _ _, begun.encode_of_complete complete⟩

theorem unfinished_of_append
    {pending more : List UInt8} (unfinished : Unfinished (pending ++ more)) :
    Unfinished pending := by
  rcases unfinished with ⟨c, missing, some, encoded⟩
  refine ⟨c, more ++ missing, ?_, ?_⟩
  · exact List.append_ne_nil_of_right_ne_nil _ some
  · rw [encoded, List.append_assoc]

theorem unfinished_three
    {a b c : UInt8} (begun : Begun [a, b, c]) : Unfinished [a, b, c] :=
  @Begun.unfinished_of_complete _ 0x80 _ begun rfl

theorem unfinished_two
    {a b : UInt8} (begun : Begun [a, b]) (regular : beginsSurrogate a b = false) :
    Unfinished [a, b] := by
  have judged : judge ([a, b] ++ [0x80]) =
      if a.toNat < 0xF0 then
        .complete (Char.ofNat ((a.toNat % 16 * 64 + payload b) * 64 + payload 0x80))
      else .incomplete := by
    simp only [List.cons_append, List.nil_append, judge, regular]
    rfl
  by_cases short : a.toNat < 0xF0
  · rw [if_pos short] at judged
    exact begun.unfinished_of_complete judged
  · rw [if_neg short] at judged
    exact unfinished_of_append (unfinished_three (begun.snoc judged))

def leastSecond (first : UInt8) : UInt8 :=
  if first = 0xE0 then 0xA0 else if first = 0xF0 then 0x90 else 0x80

theorem allowsSecond_least (first : UInt8) : allowsSecond first (leastSecond first) = true := by
  rw [leastSecond]
  by_cases three : first = 0xE0
  · subst three
    decide
  · by_cases four : first = 0xF0
    · subst four
      decide
    · rw [if_neg three, if_neg four, allowsSecond, if_neg three, if_neg four]
      split
      · decide
      · split <;> decide

theorem beginsSurrogate_least (first : UInt8) :
    beginsSurrogate first (leastSecond first) = false := by
  by_cases here : first = 0xED
  · subst here
    decide
  · rw [beginsSurrogate, decide_eq_false here]
    rfl

theorem unfinished_one {a : UInt8} (begun : Begun [a]) : Unfinished [a] := by
  have judged : judge ([a] ++ [leastSecond a]) =
      if a.toNat < 0xE0 then .complete (Char.ofNat (a.toNat % 32 * 64 + payload (leastSecond a)))
      else .incomplete := by
    rw [List.singleton_append, judge, if_pos (allowsSecond_least a)]
  by_cases short : a.toNat < 0xE0
  · rw [if_pos short] at judged
    exact begun.unfinished_of_complete judged
  · rw [if_neg short] at judged
    exact unfinished_of_append (unfinished_two (begun.snoc judged) (beginsSurrogate_least a))

theorem Begun.starts {byte : UInt8} {later : List UInt8} (begun : Begun (byte :: later)) :
    Starts byte := by
  have lead : 0xC2 ≤ byte.toNat ∧ byte.toNat ≤ 0xF4 := by
    rcases begun.forms with
      none | ⟨a, same, low, high⟩ | ⟨a, b, same, low, high, _⟩ | ⟨a, b, c, same, low, high, _⟩
    · cases none
    · cases same
      exact ⟨low, high⟩
    · cases same
      exact ⟨Nat.le_trans (by decide) low, high⟩
    · cases same
      exact ⟨Nat.le_trans (by decide) low, high⟩
  have alone : judge [byte] = .incomplete := by
    have judged := judge_first byte.toNat lead.1 lead.2
    rw [UInt8.ofNat_toNat] at judged
    exact judged
  rcases unfinished_one (@Begun.snoc [] byte Begun.nil alone) with ⟨c, missing, _, encoded⟩
  exact ⟨c, missing, encoded⟩

/-- The sequence of a character goes on, after bytes that have begun it, as they allow. -/
theorem Begun.allowed
    {pending later : List UInt8} {byte : UInt8} {c : Char} {defect : Defect} (begun : Begun pending)
    (encoded : String.utf8EncodeChar c = pending ++ byte :: later) :
    judge (pending ++ [byte]) ≠ .defective defect := by
  intro refused
  have scanned := scan_utf8EncodeChar 0 c
  rw [encoded, begun.scan_defective refused] at scanned
  cases scanned

theorem Begun.departs_of_surrogate
    {a b : UInt8} (begun : Begun [a, b]) (surrogate : beginsSurrogate a b = true) :
    ¬ Unfinished [a, b] := by
  rintro ⟨c, missing, some, encoded⟩
  cases missing with
  | nil => exact some rfl
  | cons byte later =>
      have refused : judge ([a, b] ++ [byte]) = .defective .invalidContinuation := by
        simp only [List.cons_append, List.nil_append, judge, surrogate]
        rfl
      exact begun.allowed encoded refused

/-- After a first byte, the only defect of a byte is that it does not go on with the sequence. -/
theorem Begun.defect_of_refused
    {first byte : UInt8} {later : List UInt8} {defect : Defect} (begun : Begun (first :: later))
    (refused : judge (first :: later ++ [byte]) = .defective defect) :
    defect = .invalidContinuation := by
  rcases begun.forms with
    none | ⟨a, same, _⟩ | ⟨a, b, same, _⟩ | ⟨a, b, c, same, _⟩
  · cases none
  all_goals
    rw [same] at refused
    simp only [List.cons_append, List.nil_append, judge] at refused
    grind

theorem Stops.reason {rest : List UInt8} {defect : Defect} (stops : Stops rest defect) :
    Reason rest defect.reason := by
  cases stops with
  | @byte pending byte _ begun refused later =>
      cases pending with
      | nil =>
          have starts : ¬ Starts byte := by
            rintro ⟨c, following, encoded⟩
            exact begun.allowed encoded refused
          have alone : defect = .invalidStart := by
            simp only [List.nil_append, judge] at refused
            grind
          rw [alone]
          exact Reason.start starts
      | cons first more =>
          rw [begun.defect_of_refused refused]
          refine Reason.continuation begun.starts ?_
          rintro ⟨c, missing, _, encoded⟩
          exact begun.allowed (encoded.trans (List.append_assoc (first :: more) _ _)) refused
  | ending begun left =>
      rcases begun.forms with
        rfl | ⟨a, rfl, _⟩ | ⟨a, b, rfl, _⟩ | ⟨a, b, c, rfl, _⟩
      · cases left
      · cases left
        exact Reason.ending (unfinished_one begun)
      · cases surrogate : beginsSurrogate a b with
        | false =>
            rw [defectAtEnd?, surrogate] at left
            cases left
            exact Reason.ending (unfinished_two begun surrogate)
        | true =>
            rw [defectAtEnd?, surrogate] at left
            cases left
            exact Reason.continuation begun.starts (begun.departs_of_surrogate surrogate)
      · cases left
        exact Reason.ending (unfinished_three begun)

theorem LongestText.of_stops
    {text : List Char} {rest : List UInt8} {defect : Defect} (stops : Stops rest defect) :
    LongestText (encode text ++ rest) text rest := by
  constructor
  · rfl
  · intro other remaining same
    exact encode_length_le (isPrefix_of_encode_append stops.ne_character same)

end Utf8

/-- Bytes that encode no text, in whatever non-empty pieces they come: the first failure tells where
their longest text ends and what is wrong there, and the characters delivered before are the first
of that text. A reader that asks for its pieces when it needs them delivers the same. -/
theorem first_failure_ends_longest_text
    (pieces : List (List UInt8)) (nonempty : ∀ piece ∈ pieces, piece ≠ [])
    (textless : ∀ text, Utf8.encode text ≠ pieces.flatten) :
    ∃ text rest reason delivered,
      Utf8.LongestText pieces.flatten text rest ∧ Utf8.Reason rest reason ∧ delivered <+: text ∧
      (Reader.ofSource (pieces.map Chunk.bytes)).take (delivered.length + 1) =
        items delivered ++ [.error (.undecodable (Utf8.encode text).length reason)] ∧
      ∀ calls, (⟨pieces.map Chunk.bytes, {}⟩ : Puller).take calls =
        (Reader.ofSource (pieces.map Chunk.bytes)).take calls := by
  cases found : Utf8.malformed? pieces.flatten with
  | none =>
      rcases (Utf8.malformed?_eq_none_iff _).mp found with ⟨text, encodes⟩
      exact absurd encodes (textless _)
  | some malformed =>
      rcases Utf8.malformed?_eq_some found with ⟨text, rest, split, offset, stops⟩
      rcases Reader.ofSource_pieces_malformed nonempty found with
        ⟨before, after, delivered, last, reader, parts, scanned, whole, failing⟩
      refine ⟨text, rest, malformed.defect.reason, delivered, ?_, stops.reason, ?_, ?_,
        Puller.take_eq _⟩
      · rw [← split]
        exact Utf8.LongestText.of_stops stops
      · have begins := Utf8.encode_of_scan Utf8.Begun.nil scanned
        have joined : Utf8.encode delivered ++ (last.pending ++ after) = Utf8.encode text ++ rest := by
          rw [split, parts, ← List.append_assoc, begins, List.nil_append]
        exact Utf8.isPrefix_of_encode_append stops.ne_character joined
      · have next : reader.take 1 = [reader.next.1] := rfl
        rw [whole, Reader.take_items, next, failing, undecodable, offset]

/-- A letter, and a surrogate that is found out at the end of the bytes only. -/
def cutSurrogate : List (List UInt8) :=
  [[0x61], [0xED], [0xA0]]

theorem cutSurrogate_located :
    (∀ piece ∈ cutSurrogate, piece ≠ []) ∧
    (∀ text, Utf8.encode text ≠ cutSurrogate.flatten) ∧
    ∃ text rest reason delivered,
      Utf8.LongestText cutSurrogate.flatten text rest ∧ Utf8.Reason rest reason ∧
      delivered <+: text ∧
      (Reader.ofSource (cutSurrogate.map Chunk.bytes)).take (delivered.length + 1) =
        items delivered ++ [.error (.undecodable (Utf8.encode text).length reason)] ∧
      ∀ calls, (⟨cutSurrogate.map Chunk.bytes, {}⟩ : Puller).take calls =
        (Reader.ofSource (cutSurrogate.map Chunk.bytes)).take calls := by
  have nonempty : ∀ piece ∈ cutSurrogate, piece ≠ [] := by decide
  have textless : ∀ text, Utf8.encode text ≠ cutSurrogate.flatten := by
    intro text encodes
    have found : Utf8.malformed? cutSurrogate.flatten = some ⟨1, .invalidContinuation⟩ := by decide
    rw [← encodes, Utf8.malformed?, Utf8.scan_encode] at found
    cases found
  exact ⟨nonempty, textless, first_failure_ends_longest_text cutSurrogate nonempty textless⟩

end ExprWasm.Source
