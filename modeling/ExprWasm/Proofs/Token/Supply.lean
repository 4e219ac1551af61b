import ExprWasm.Proofs.Token.Interrupted
import ExprWasm.Proofs.Token.Lexicon

/-! Lexers of every source, also of one that fails or has no data.

Whatever a source delivers, the tokens found in it are words of their kinds, and a read that fails
does so with a failure of the source. What a lexer supplies to a reader of its tokens is its
listing: one token for each call, up to the end of the input or to the first failure. -/

set_option autoImplicit false

namespace ExprWasm.Source

def Reader.Holds (reader : Reader) (failure : Failure) : Prop :=
  .error failure ∈ reader.ahead ∨ reader.lastFailure = some failure

/-- The failures of a source: bytes that are not UTF-8, and reads that its stream refused. -/
def Raises (source : List Chunk) (failure : Failure) : Prop :=
  (∃ offset reason, failure = .undecodable offset reason) ∨
    ∃ text, .failure text ∈ source ∧ failure = .system (.ofText text)

theorem Raises.cons
    {source : List Chunk} {failure : Failure} (raises : Raises source failure) (chunk : Chunk) :
    Raises (chunk :: source) failure := by
  rcases raises with broken | ⟨text, member, same⟩
  · exact Or.inl broken
  · exact Or.inr ⟨text, List.mem_cons_of_mem _ member, same⟩

namespace Reader

theorem holds_deliver
    {delivery : Delivery} {reader : Reader} {failure : Failure}
    (holds : (deliver delivery reader).Holds failure) :
    delivery = .error failure ∨ reader.Holds failure := by
  rcases holds with ahead | last
  · rcases List.mem_cons.mp ahead with here | later
    · exact Or.inl here.symm
    · exact Or.inr (Or.inl later)
  · exact Or.inr (Or.inr last)

theorem holds_deliverAll
    {characters : List Char} {reader : Reader} {failure : Failure}
    (holds : (deliverAll characters reader).Holds failure) : reader.Holds failure := by
  rcases holds with ahead | last
  · rcases List.mem_append.mp ahead with character | later
    · obtain ⟨c, _, same⟩ := List.mem_map.mp character
      cases same
    · exact Or.inl later
  · exact Or.inr last

theorem undecodable_of_failureAtEnd?
    {position : Utf8.Position} {failure : Failure} (atEnd : failureAtEnd? position = some failure)
    (source : List Chunk) : Raises source failure := by
  obtain ⟨defect, _, rfl⟩ := Option.map_eq_some_iff.mp atEnd
  exact Or.inl ⟨_, _, rfl⟩

theorem raises_of_ofChunks
    {position : Utf8.Position} {source : List Chunk} {failure : Failure}
    (holds : (ofChunks position source).Holds failure) : Raises source failure := by
  fun_induction ofChunks position source with
  | case1 position =>
      rcases holds with ahead | last
      · cases ahead
      · exact undecodable_of_failureAtEnd? last _
  | case2 position rest inductionHypothesis =>
      rcases holds_deliver holds with here | later
      · cases here
      · exact (inductionHypothesis later).cons _
  | case3 position text rest inductionHypothesis =>
      rcases holds_deliver holds with here | later
      · cases here
        exact Or.inr ⟨text, List.mem_cons_self .., rfl⟩
      · exact (inductionHypothesis later).cons _
  | case4 position rest whole =>
      rcases holds with ahead | last
      · cases ahead
      · cases last
  | case5 position rest found atEnd inductionHypothesis =>
      rcases holds_deliver holds with here | later
      · cases here
        exact undecodable_of_failureAtEnd? atEnd _
      · exact (inductionHypothesis later).cons _
  | case6 position byte bytes rest characters next scanned inductionHypothesis =>
      exact (inductionHypothesis (holds_deliverAll holds)).cons _
  | case7 position byte bytes rest malformed scanned inductionHypothesis =>
      rcases holds_deliver holds with here | later
      · cases here
        exact Or.inl ⟨_, _, rfl⟩
      · exact (inductionHypothesis later).cons _

end Reader

end ExprWasm.Source

namespace ExprWasm.Token

open Source (Delivery Reader)
open Number (Decimal)

/-! ### One token -/

structure Halt.From (lastFailure : Option Failure) (ahead : List Delivery) (halt : Halt) : Prop where
  suffix : halt.ahead <:+ ahead
  failure : ∀ failure, halt.failure = some failure →
    .error failure ∈ ahead ∨ lastFailure = some failure

namespace Halt.From

variable {lastFailure : Option Failure} {ahead rest : List Delivery} {halt : Halt}

theorem of_suffix (back : halt.From lastFailure rest) (suffix : rest <:+ ahead) :
    halt.From lastFailure ahead := by
  refine ⟨back.suffix.trans suffix, ?_⟩
  intro failure failed
  rcases back.failure failure failed with inside | last
  · exact Or.inl (suffix.subset inside)
  · exact Or.inr last

theorem moved (lastFailure : Option Failure) (current : Char) (stop : List Delivery) :
    (Halt.moved lastFailure current stop).From lastFailure stop := by
  cases stop with
  | nil =>
      cases lastFailure with
      | none => exact ⟨List.nil_suffix, fun _ failed => nomatch failed⟩
      | some last => exact ⟨List.nil_suffix, fun _ failed => Or.inr failed⟩
  | cons delivery rest =>
      refine ⟨?_, ?_⟩
      · cases delivery with
        | error failure => exact List.suffix_cons _ _
        | ok reading => exact List.suffix_cons _ _
      · intro failure failed
        cases delivery with
        | ok reading => cases failed
        | error other =>
            cases failed
            exact Or.inl (List.mem_cons_self ..)

theorem within
    (lastFailure : Option Failure) (stop : List Delivery) (last : Char) {text rest : List Char}
    (suffix : rest <:+ text) :
    (Halt.within lastFailure stop last rest).From lastFailure (plain text ++ stop) := by
  cases rest with
  | nil => exact (moved lastFailure last stop).of_suffix (List.suffix_append _ _)
  | cons c rest =>
      obtain ⟨front, split⟩ := suffix
      refine ⟨⟨plain (front ++ [c]), ?_⟩, fun _ failed => nomatch failed⟩
      rw [← split]
      simp [Halt.within, plain]

end Halt.From

/-- A number is digits, or digits with a point and further digits after it. -/
theorem Word.digits {text : List Char} (word : Word .number text) :
    ∃ digits, digits ≠ [] ∧ (∀ c ∈ digits, Decimal.isDigit c = true) ∧
      (text = digits ∨
        ∃ further, (∀ c ∈ further, Decimal.isDigit c = true) ∧ text = digits ++ '.' :: further) := by
  generalize isNumber : Kind.number = kind at word
  cases word with
  | whole nonempty all => exact ⟨_, nonempty, all, Or.inl rfl⟩
  | fraction nonempty all allFurther => exact ⟨_, nonempty, all, Or.inr ⟨_, allFurther, rfl⟩⟩
  | keyword reserved =>
      subst isNumber
      simp [keywords] at reserved
  | symbol listed =>
      subst isNumber
      simp [symbols] at listed
  | name => cases isNumber
  | notEqual => cases isNumber
  | equal => cases isNumber
  | unknown => cases isNumber

namespace Lexer

/-- What a call for a token comes to: it moves on in the deliveries ahead, fails only with one of
their failures, and finds nothing that is no word of its kind. -/
structure Grounded (lexer : Lexer) (result : Except Failure Kind × Lexer) : Prop where
  lastFailure : result.2.reader.lastFailure = lexer.reader.lastFailure
  suffix : result.2.reader.ahead <:+ lexer.reader.ahead
  failure : ∀ failure, result.1 = .error failure → lexer.reader.Holds failure
  word : ∀ kind, result.1 = .ok kind → kind ≠ .endOfInput → Word kind result.2.lexeme.toList

theorem finish_grounded
    {lexer : Lexer} {halt : Halt} (back : halt.From lexer.reader.lastFailure lexer.reader.ahead)
    (line : Int) {kind : Kind} {taken : List Char}
    (spelled : kind ≠ .endOfInput → Word kind taken.reverse) :
    lexer.Grounded (finish { lexer with line := line } kind taken halt) := by
  unfold finish
  split
  · rename_i failure failed
    refine ⟨rfl, back.suffix, ?_, by rintro _ ⟨⟩⟩
    intro other same
    cases same
    exact back.failure failure failed
  · refine ⟨rfl, back.suffix, by rintro _ ⟨⟩, ?_⟩
    intro other found inside
    cases found
    rw [settle, String.toList_ofList]
    exact spelled inside

theorem next_grounded (lexer : Lexer) : lexer.Grounded lexer.next := by
  cases atItem : lexer.lookahead with
  | endOfInput | noData =>
      unfold next
      rw [atItem]
      exact ⟨rfl, List.suffix_refl _, (fun _ failed => nomatch failed),
        fun _ found inside => absurd (Except.ok.inj found).symm inside⟩
  | item current =>
      obtain ⟨text, stop, split, ends⟩ := exists_plain_append lexer.reader.ahead
      obtain ⟨gap, rejoined, _⟩ := skip_maximalGap lexer.line (current :: text)
      have begins := skip_stops ⟨false, lexer.line⟩ (current :: text)
      rw [next_text ends atItem split]
      cases skipped : skip ⟨false, lexer.line⟩ (current :: text) with
      | mk line rest =>
          rw [skipped] at rejoined begins
          cases rest with
          | nil =>
              refine finish_grounded ?_ line fun inside => absurd rfl inside
              rw [split]
              exact (Halt.From.moved _ _ _).of_suffix (List.suffix_append _ _)
          | cons c rest =>
              obtain ⟨noBlank, noComment⟩ := begins c rfl
              have isWord := (spell_longest noBlank noComment rest).isWord
              refine finish_grounded ?_ line fun _ => ?_
              · rw [split]
                apply Halt.From.within
                have whole : gap ++ (spell c rest).characters ++ (spell c rest).rest =
                    current :: text := by
                  rw [List.append_assoc, spell_split, rejoined]
                cases front : gap ++ (spell c rest).characters with
                | nil => exact absurd (List.append_eq_nil_iff.mp front).2 isWord.ne_nil
                | cons first front =>
                    rw [front] at whole
                    exact ⟨_, (List.cons.inj whole).2⟩
              · rw [List.reverse_reverse]
                exact isWord

/-- A failure that can still be met after a call could be met before it. -/
theorem holds_of_next
    {lexer : Lexer} {failure : Failure} (holds : lexer.next.2.reader.Holds failure) :
    lexer.reader.Holds failure := by
  have grounded := next_grounded lexer
  rcases holds with ahead | last
  · exact Or.inl (grounded.suffix.subset ahead)
  · exact Or.inr (grounded.lastFailure.symm.trans last)

inductive Reached (source : List Source.Chunk) : Lexer → Prop where
  | start : Reached source (ofSource source)
  | call {lexer : Lexer} (earlier : Reached source lexer) : Reached source lexer.next.2

namespace Reached

variable {source : List Source.Chunk} {lexer : Lexer} {failure : Failure}

theorem raises_of_holds
    (reached : Reached source lexer) (holds : lexer.reader.Holds failure) :
    Source.Raises source failure := by
  induction reached with
  | start => exact Source.Reader.raises_of_ofChunks holds
  | call _ inductionHypothesis => exact inductionHypothesis (holds_of_next holds)

/-- A call fails with a failure of the source or not at all. -/
theorem raises (reached : Reached source lexer) (failed : lexer.next.1 = .error failure) :
    Source.Raises source failure :=
  reached.raises_of_holds ((next_grounded lexer).failure failure failed)

end Reached

/-! ### All tokens -/

/-- After a token of the given kind a lexer supplies the tokens of a list, one for each call. Either
the end of the input was the last of them, or the call after them fails. -/
inductive Supplies (failure : Option Failure) (last : Lexer) : Kind → Lexer → List Lexed → Prop where
  | ended (complete : failure = none) : Supplies failure last .endOfInput last []
  | fails {kind : Kind} {lexer : Lexer} {met : Failure} (inside : kind ≠ .endOfInput)
      (read : lexer.next = (.error met, last)) (incomplete : failure = some met) :
      Supplies failure last kind lexer []
  | more {kind next : Kind} {lexer after : Lexer} {rest : List Lexed} (inside : kind ≠ .endOfInput)
      (read : lexer.next = (.ok next, after)) (later : Supplies failure last next after rest) :
      Supplies failure last kind lexer (after.lexed next :: rest)

theorem listingAfter_supplies
    (lexer : Lexer) (found : List Lexed) {kind : Kind} (inside : kind ≠ .endOfInput) :
    ∃ tokens, (lexer.listingAfter found).tokens = found.reverse ++ tokens ∧
      Supplies (lexer.listingAfter found).failure (lexer.listingAfter found).lexer kind lexer
        tokens := by
  fun_induction listingAfter found lexer generalizing kind with
  | case1 found lexer failure after read =>
      exact ⟨[], (List.append_nil _).symm, Supplies.fails inside read rfl⟩
  | case2 found lexer after read =>
      exact ⟨[after.lexed .endOfInput], List.reverse_cons,
        Supplies.more inside read (Supplies.ended rfl)⟩
  | case3 found lexer next after read insideNext inductionHypothesis =>
      obtain ⟨tokens, listed, supplies⟩ := inductionHypothesis insideNext
      refine ⟨after.lexed next :: tokens, ?_, Supplies.more inside read supplies⟩
      rw [listed, List.reverse_cons, List.append_assoc, List.singleton_append]

/-- What a lexer supplies is its listing. -/
theorem listing_supplies (lexer : Lexer) {kind : Kind} (inside : kind ≠ .endOfInput) :
    Supplies lexer.listing.failure lexer.listing.lexer kind lexer lexer.listing.tokens := by
  obtain ⟨tokens, listed, supplies⟩ := listingAfter_supplies lexer [] inside
  rw [List.reverse_nil, List.nil_append] at listed
  rw [← listed] at supplies
  exact supplies

section Supplied

variable {failure : Option Failure} {last lexer : Lexer} {kind : Kind} {tokens : List Lexed}

theorem Supplies.length_le (supplies : Supplies failure last kind lexer tokens) :
    tokens.length ≤ lexer.remaining + 1 := by
  induction supplies with
  | ended => exact Nat.zero_le _
  | fails => exact Nat.zero_le _
  | @more kind next lexer after rest inside read later inductionHypothesis =>
      rw [List.length_cons]
      by_cases isEnding : next = .endOfInput
      · subst isEnding
        cases later with
        | ended => exact Nat.le_add_left _ _
        | fails inside => exact absurd rfl inside
        | more inside => exact absurd rfl inside
      · have fewer := remaining_lt_of_next read isEnding
        omega

theorem Supplies.numbers (supplies : Supplies failure last kind lexer tokens) :
    ∀ token ∈ tokens, token.kind = .number → Word .number token.lexeme.toList := by
  induction supplies with
  | ended => exact List.forall_mem_nil _
  | fails => exact List.forall_mem_nil _
  | @more kind next lexer after rest inside read later inductionHypothesis =>
      have grounded := next_grounded lexer
      rw [read] at grounded
      refine List.forall_mem_cons.mpr ⟨?_, inductionHypothesis⟩
      intro isNumber
      exact grounded.word _ (congrArg Except.ok isNumber) (by decide)

/-- Without a failure the end of the input is the last token and no other. -/
theorem Supplies.eq_append_ending
    (supplies : Supplies failure last kind lexer tokens) (complete : failure = none)
    (inside : kind ≠ .endOfInput) :
    ∃ body ending, tokens = body ++ [ending] ∧ ending.kind = .endOfInput ∧
      Phrase.Unended body := by
  induction supplies with
  | ended => exact absurd rfl inside
  | fails _ _ incomplete =>
      rw [complete] at incomplete
      cases incomplete
  | @more kind next lexer after rest _ read later inductionHypothesis =>
      by_cases isEnding : next = .endOfInput
      · subst isEnding
        cases later with
        | ended => exact ⟨[], _, rfl, rfl, List.forall_mem_nil _⟩
        | fails insideNext => exact absurd rfl insideNext
        | more insideNext => exact absurd rfl insideNext
      · obtain ⟨body, ending, split, ends, unended⟩ := inductionHypothesis isEnding
        refine ⟨after.lexed next :: body, ending, by rw [split]; rfl, ends, ?_⟩
        exact List.forall_mem_cons.mpr ⟨isEnding, unended⟩

/-- With a failure the end of the input is not among the tokens, and the failure was ahead. -/
theorem Supplies.unended
    (supplies : Supplies failure last kind lexer tokens) {met : Failure}
    (incomplete : failure = some met) :
    Phrase.Unended tokens ∧ lexer.reader.Holds met := by
  induction supplies with
  | ended complete =>
      rw [incomplete] at complete
      cases complete
  | @fails kind lexer other _ read same =>
      rw [incomplete] at same
      cases same
      have grounded := next_grounded lexer
      rw [read] at grounded
      exact ⟨List.forall_mem_nil _, grounded.failure met rfl⟩
  | @more kind next lexer after rest _ read later inductionHypothesis =>
      obtain ⟨unended, holds⟩ := inductionHypothesis
      have insideNext : next ≠ .endOfInput := by
        rintro rfl
        cases later with
        | ended complete =>
            rw [incomplete] at complete
            cases complete
        | fails insideNext => exact insideNext rfl
        | more insideNext => exact insideNext rfl
      refine ⟨List.forall_mem_cons.mpr ⟨insideNext, unended⟩, holds_of_next ?_⟩
      rw [read]
      exact holds

theorem Supplies.readable (supplies : Supplies failure last kind lexer tokens) :
    Phrase.Readable tokens := by
  intro token member isNumber
  obtain ⟨digits, nonempty, all, spelled | ⟨further, allFurther, spelled⟩⟩ :=
    (supplies.numbers token member isNumber).digits
  · have readable := read?_isSome all nonempty (Or.inl rfl)
    rw [List.append_nil] at readable
    rw [spelled]
    exact readable
  · rw [spelled]
    exact read?_isSome all nonempty (Or.inr ⟨_, rfl, List.all_eq_true.mpr allFurther⟩)

end Supplied

end Lexer

end ExprWasm.Token
