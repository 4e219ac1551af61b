import ExprWasm.Proofs.Compile.PrintedBack
import ExprWasm.Proofs.Number.NumberText
import ExprWasm.Proofs.Token.Supply

/-! Numbers in programs and modules.

The words of a program that are numbers are the numerals, and the parser makes of each the number
that is nearest to what it denotes. The other way round, the text of a finite number denotes a value
that is rounded to this number, and a text without a sign is one word. -/

set_option autoImplicit false

namespace ExprWasm.Compile

open Token (Kind Lexed Lexer Word Written)
open Phrase (Bodied Factored)
open Number (Binary64 Decimal Numeral)
open Number.Binary64 (RoundsTo)
open ExprWasm.Tree (Node)

/-! ### Numerals in a program -/

theorem numeral_word (numeral : Numeral) : Word .number numeral.text := by
  obtain ⟨whole, fraction, nonempty, digits, furtherDigits⟩ := numeral
  cases fraction with
  | none => exact Word.whole nonempty digits
  | some further => exact Word.fraction nonempty digits furtherDigits

theorem word_number_iff (characters : List Char) :
    Word .number characters ↔ ∃ numeral : Numeral, numeral.text = characters := by
  constructor
  · intro isWord
    rcases isWord.digits with ⟨whole, nonempty, all, same | ⟨further, others, same⟩⟩
    · exact ⟨⟨whole, none, nonempty, all, nofun⟩, same.symm⟩
    · exact ⟨⟨whole, some further, nonempty, all, others⟩, same.symm⟩
  · rintro ⟨numeral, rfl⟩
    exact numeral_word numeral

structure ReadAsNearest (numeral : Numeral) : Prop where
  taken : ∀ line rest,
    Phrase.numeral ⟨.number, String.ofList numeral.text, line⟩ rest =
      .accepted (.number numeral.literal) rest
  parsed :
    (parse (Source.ofText Source.standardChunkSize
      ("def f() " ++ String.ofList numeral.text ++ ";"))).outcome =
        .ok ⟨[⟨⟨"f", []⟩, .number numeral.literal⟩], []⟩
  rounds : RoundsTo numeral.value numeral.literal
  unsigned : numeral.literal.isNegative = false
  infinite : numeral.literal.isInfinite = true ↔ 2 ^ 1024 - 2 ^ 970 ≤ numeral.value
  monotone : ∀ other : Numeral, numeral.value ≤ other.value → other.literal.isFinite = true →
    numeral.literal.isFinite = true ∧ numeral.literal.value ≤ other.literal.value
  determined : ∀ other : Numeral, other.value = numeral.value → other.literal = numeral.literal
  zeros : ∀ leading trailing, (numeral.padded leading trailing).literal = numeral.literal
  emitted : ∀ whole : Nat, whole ≤ 2 ^ 53 → numeral.value = whole →
    Wat.lines (.number numeral.literal) = ⟨["f32.const " ++ toString whole], none⟩

theorem read?_numeral (numeral : Numeral) :
    Decimal.read? (String.ofList numeral.text).toList = some numeral.decimal := by
  rw [String.toList_ofList, numeral.read?_text]

theorem parse_numeral (numeral : Numeral) :
    (parse (Source.ofText Source.standardChunkSize
      ("def f() " ++ String.ofList numeral.text ++ ";"))).outcome =
        .ok ⟨[⟨⟨"f", []⟩, .number numeral.literal⟩], []⟩ := by
  have written : Written 1 (String.ofList numeral.text).toList
      [⟨.number, String.ofList numeral.text, 1⟩] := by
    rw [String.toList_ofList]
    exact Written.word (numeral_word numeral)
  have factored : Factored [⟨.number, String.ofList numeral.text, 1⟩] (.number numeral.literal) :=
    Factored.number rfl (read?_numeral numeral)
  exact parse_bodied written (List.cons_ne_nil _ _) factored.bodied

theorem lines_number (number : Binary64) :
    Wat.lines (.number number) = ⟨["f32.const " ++ number.text], none⟩ := by
  have pieces : Wat.instructions.pieces (.number number) =
      .ok [.text ("f32.const " ++ number.text)] := rfl
  rw [Wat.lines, Wat.instructions.flatten_of_pieces pieces, Wat.instructions.flattenAll_text,
    Wat.instructions.flattenAll_nil]
  rfl

/-- Every word that is a number is read as the number nearest to the value it denotes. -/
theorem number_words_read_as_nearest :
    (∀ characters, Word .number characters ↔ ∃ numeral : Numeral, numeral.text = characters) ∧
      ∀ numeral : Numeral, ReadAsNearest numeral := by
  refine ⟨word_number_iff, fun numeral => ?_⟩
  constructor
  case taken =>
    intro line rest
    simp only [Phrase.numeral, read?_numeral]
    rfl
  case parsed => exact parse_numeral numeral
  case rounds => exact numeral.literal_roundsTo
  case unsigned => exact numeral.literal_isNegative
  case infinite => exact numeral.literal_isInfinite_iff
  case monotone => exact fun other order => Numeral.literal_value_le order
  case determined => exact fun other same => Numeral.literal_of_value_eq same
  case zeros =>
    intro leading trailing
    exact Numeral.literal_of_value_eq (numeral.padded_value leading trailing)
  case emitted =>
    intro whole small denotes
    rw [lines_number, Numeral.literal_text_of_whole small denotes]

/-! ### The text of a number -/

/-- A numeral is what a number is written as, with a sign in front of it if the number is negative.
The numbers that the text is rounded to are the number itself and, for a zero, the other one. -/
structure WrittenAs (number : Binary64) (numeral : Numeral) : Prop where
  text : number.text.toList = (if number.value < 0 then ['-'] else []) ++ numeral.text
  pointed : numeral.fraction ≠ some []
  rounds : ∀ other : Binary64,
    RoundsTo (if number.value < 0 then -numeral.value else numeral.value) other ↔
      other.sameValue number = true
  integral : ∀ whole : ℤ, number.value = whole →
    numeral.fraction = none ∧
      (if number.value < 0 then -numeral.value else numeral.value) = number.value
  word : 0 ≤ number.value →
    let listing := (Lexer.ofSource (Source.ofText Source.standardChunkSize number.text)).listing
    listing.tokens = [⟨.number, number.text, 1⟩, ⟨.endOfInput, "", 1⟩] ∧ listing.failure = none

theorem listing_numeral {text : String} {numeral : Numeral} (same : text.toList = numeral.text) :
    let listing := (Lexer.ofSource (Source.ofText Source.standardChunkSize text)).listing
    listing.tokens = [⟨.number, text, 1⟩, ⟨.endOfInput, "", 1⟩] ∧ listing.failure = none := by
  have written : Written 1 text.toList [⟨.number, text, 1⟩] := by
    have word : Written 1 numeral.text _ := Written.word (numeral_word numeral)
    rw [← same, String.ofList_toList] at word
    exact word
  obtain ⟨last, reads, ends⟩ := written.finishes_alone
  rw [Lexer.listing_of_reads reads ends]
  exact ⟨rfl, rfl⟩

/-- Every finite number is written as a numeral that is read as the number again. -/
theorem finite_number_written_out {number : Binary64} (finite : number.isFinite = true) :
    ∃ numeral, WrittenAs number numeral := by
  have rounded := Binary64.signed_roundsTo finite
  have spelled := Binary64.text_eq_signed finite
  refine ⟨number.shortestDecimal.numeral, ?_⟩
  constructor
  case text => exact spelled
  case pointed => exact Decimal.numeral_fraction_ne _
  case rounds =>
    obtain ⟨below, nearest⟩ := rounded.of_finite finite
    exact fun other => nearest.roundsTo_iff below
  case integral =>
    intro whole same
    obtain ⟨pointless, value⟩ := Binary64.numeral_of_whole finite same
    refine ⟨pointless, ?_⟩
    rw [value]
    split
    · rename_i negative
      rw [abs_of_neg negative, neg_neg]
    · rename_i notNegative
      exact abs_of_nonneg (not_lt.mp notNegative)
  case word =>
    intro notNegative
    rw [if_neg (not_lt.mpr notNegative), List.nil_append] at spelled
    exact listing_numeral spelled

/-- The negative number next to zero, which is written with 324 places. -/
theorem leastNegative_written_out :
    (⟨0x8000000000000001⟩ : Binary64).isFinite = true ∧
      ∃ numeral, WrittenAs ⟨0x8000000000000001⟩ numeral :=
  ⟨by decide, finite_number_written_out (by decide)⟩

end ExprWasm.Compile
