import ExprWasm.Proofs.Phrase.Rounds
import ExprWasm.Proofs.Source.Undecodable
import ExprWasm.Proofs.Token.Reads

/-! Lexers whose source breaks.

A source that delivers characters up to a failure never comes to its end. Its lexer finds tokens,
none of them the end of the input, and then meets the failure; so its listing has this failure. -/

set_option autoImplicit false

namespace ExprWasm.Token

open Source (Delivery Breaks)
open Number (Decimal)

variable {failure : Failure}

section Breaking

variable {lastFailure : Option Failure} {stop : List Delivery}

theorem exists_text_of_breaks {ahead : List Delivery} (breaks : Breaks failure lastFailure ahead) :
    ∃ text stop, ahead = plain text ++ stop ∧ EndsText stop ∧ Breaks failure lastFailure stop := by
  induction breaks with
  | fails rest => exact ⟨[], _, rfl, (fun _ _ same => nomatch same), .fails rest⟩
  | ends last => exact ⟨[], [], rfl, (fun _ _ same => nomatch same), .ends last⟩
  | item c _ inductionHypothesis =>
      obtain ⟨text, stop, split, ends, breaks⟩ := inductionHypothesis
      exact ⟨c :: text, stop, by rw [split]; rfl, ends, breaks⟩

theorem breaks_after_text (breaks : Breaks failure lastFailure stop) (text : List Char) :
    Breaks failure lastFailure (plain text ++ stop) := by
  induction text with
  | nil => exact breaks
  | cons c text inductionHypothesis => exact .item c inductionHypothesis

theorem moved_of_breaks
    (breaks : Breaks failure lastFailure stop) (ends : EndsText stop) (current : Char) :
    (Halt.moved lastFailure current stop).failure = some failure := by
  cases breaks with
  | fails rest => rfl
  | ends last =>
      subst last
      rfl
  | item c => exact absurd rfl (ends c _)

end Breaking

namespace Lexer

def Broken (failure : Failure) (lexer : Lexer) : Prop :=
  ∃ c, lexer.lookahead = .item c ∧ Breaks failure lexer.reader.lastFailure lexer.reader.ahead

def Meets (failure : Failure) (result : Except Failure Kind × Lexer) : Prop :=
  result.1 = .error failure ∨
    ∃ kind, result.1 = .ok kind ∧ kind ≠ .endOfInput ∧ result.2.Broken failure ∧
      (kind = .number → (Decimal.read? result.2.lexeme.toList).isSome = true)

theorem afterSpelling_meets
    {lexer : Lexer} {stop : List Delivery} {spelling : Spelling} (ends : EndsText stop)
    (breaks : Breaks failure lexer.reader.lastFailure stop) (inside : spelling.kind ≠ .endOfInput)
    (readable : spelling.kind = .number → (Decimal.read? spelling.characters).isSome = true) :
    Meets failure (lexer.afterSpelling stop spelling) := by
  obtain ⟨kind, characters, rest⟩ := spelling
  cases rest with
  | nil =>
      left
      simp only [afterSpelling, Halt.within, finish, moved_of_breaks breaks ends]
  | cons next rest =>
      refine Or.inr ⟨kind, rfl, inside, ⟨next, rfl, breaks_after_text breaks rest⟩, ?_⟩
      intro isNumber
      simp only [afterSpelling, Halt.within, finish, settle, List.reverse_reverse,
        String.toList_ofList]
      exact readable isNumber

theorem next_meets {lexer : Lexer} (broken : lexer.Broken failure) : Meets failure lexer.next := by
  obtain ⟨current, atItem, breaks⟩ := broken
  obtain ⟨text, stop, split, ends, breaks⟩ := exists_text_of_breaks breaks
  rw [next_text ends atItem split]
  cases skip ⟨false, lexer.line⟩ (current :: text) with
  | mk line rest =>
      cases rest with
      | nil =>
          left
          simp only [finish, moved_of_breaks breaks ends]
      | cons c rest =>
          exact @afterSpelling_meets _ { lexer with line := line } _ _ ends breaks
            (spell_kind_ne_endOfInput c rest) spell_readable

/-- The listing of a lexer whose source breaks has the failure, and tokens before it. -/
theorem listingAfter_broken
    {lexer : Lexer} (broken : lexer.Broken failure) (found : List Lexed) :
    (lexer.listingAfter found).failure = some failure ∧
      ∃ tokens, (lexer.listingAfter found).tokens = found.reverse ++ tokens ∧
        Phrase.Unended tokens ∧ Phrase.Readable tokens := by
  generalize size : lexer.remaining = count
  induction count using Nat.strongRecOn generalizing lexer found with
  | _ count inductionHypothesis =>
      have meets := next_meets broken
      rw [listingAfter]
      split
      · rename_i other after read
        rw [read] at meets
        rcases meets with same | ⟨kind, same, _⟩
        · cases same
          refine ⟨rfl, [], (List.append_nil _).symm, ?_, ?_⟩
          · exact fun token member => nomatch member
          · exact fun token member => nomatch member
        · cases same
      · rename_i kind after read
        rw [read] at meets
        rcases meets with same | ⟨_, same, inside, brokenAfter, readable⟩
        · cases same
        · cases same
          have fewer := remaining_lt_of_next read inside
          rw [size] at fewer
          rw [dif_neg inside]
          obtain ⟨failed, tokens, listed, unended, readableRest⟩ :=
            inductionHypothesis _ fewer brokenAfter (after.lexed kind :: found) rfl
          refine ⟨failed, after.lexed kind :: tokens, ?_, ?_, ?_⟩
          · rw [listed, List.reverse_cons, List.append_assoc, List.singleton_append]
          · exact List.forall_mem_cons.mpr ⟨inside, unended⟩
          · exact List.forall_mem_cons.mpr ⟨readable, readableRest⟩

theorem listing_broken {lexer : Lexer} (broken : lexer.Broken failure) :
    lexer.listing.failure = some failure ∧ Phrase.Unended lexer.listing.tokens ∧
      Phrase.Readable lexer.listing.tokens := by
  obtain ⟨failed, tokens, listed, unended, readable⟩ := listingAfter_broken broken []
  rw [List.reverse_nil, List.nil_append] at listed
  rw [← listed] at unended readable
  exact ⟨failed, unended, readable⟩

end Lexer

end ExprWasm.Token
