import ExprWasm.Proofs.Token.Joined
import ExprWasm.Proofs.Token.Lexicon

/-! Words and pieces of a text in other surroundings.

A word is read as itself in front of every character that continues no word. So the piece of a text
that some tokens were read from gives the same tokens when it stands alone in front of such a
character. -/

set_option autoImplicit false

namespace ExprWasm.Token

open Source (isNameStart isNamePart isBlank isLineBreak)
open Number (Decimal)

/-! ### Words in front of a separator -/

def separates (c : Char) : Bool :=
  !isNamePart c && c ≠ '.' && c ≠ '>' && c ≠ '='

def Parted (text : List Char) : Prop :=
  ∀ c ∈ text.head?, separates c = true

theorem Parted.cons {c : Char} (isSeparator : separates c = true) (text : List Char) :
    Parted (c :: text) := by
  intro first member
  cases member
  exact isSeparator

theorem namePart_of_nameStart {c : Char} (starts : isNameStart c = true) :
    isNamePart c = true := by
  simp only [isNameStart, Source.CharacterClass.holds] at starts
  simp only [isNamePart, Source.CharacterClass.holds, starts, Bool.true_or]

theorem not_separates_of_namePart {c : Char} (part : isNamePart c = true) :
    separates c = false := by
  simp only [separates, part, Bool.not_true, Bool.false_and]

theorem not_namePart_of_isBlank {c : Char} (isWhite : isBlank c = true) :
    isNamePart c = false := by
  have table : ∀ range ∈ Text.blankRanges,
      ∀ code ∈ List.range' range.first (range.last + 1 - range.first),
        (Text.isAlphabetic code || Text.isNumeric code) = false := by
    decide +kernel
  obtain ⟨range, listed, low, high⟩ := Text.CodeRange.exists_range_of_covers isWhite
  exact table range listed c.toNat (List.mem_range'_1.mpr ⟨low, by omega⟩)

theorem Word.not_separates
    {kind : Kind} {first : Char} {rest : List Char} (word : Word kind (first :: rest)) :
    ∀ c ∈ rest, separates c = false := by
  intro c member
  cases noName : isNameStart first with
  | true => exact not_separates_of_namePart ((word.of_nameStart noName).1 c member)
  | false =>
      cases noDigit : Decimal.isDigit first with
      | true =>
          have digits {c : Char} (digit : Decimal.isDigit c = true) : separates c = false :=
            not_separates_of_namePart (namePart_of_digit digit)
          rcases (word.of_digit noDigit).2 with all | ⟨before, further, rfl, all, allFurther⟩
          · exact digits (all c member)
          · rcases List.mem_append.mp member with inBefore | later
            · exact digits (all c inBefore)
            · rcases List.mem_cons.mp later with rfl | inFurther
              · rfl
              · exact digits (allFurther c inFurther)
      | false =>
          rcases word.of_other noName noDigit with ⟨rfl, _⟩ | ⟨_, rfl, _⟩ | ⟨_, rfl, _⟩
          · cases member
          · rw [List.mem_singleton.mp member]
            rfl
          · rw [List.mem_singleton.mp member]
            rfl

theorem Word.begins_no_gap
    {kind : Kind} {first : Char} {rest : List Char} (word : Word kind (first :: rest)) :
    isBlank first = false ∧ first ≠ '#' := by
  have parts {c : Char} (part : isNamePart c = true) : isBlank c = false ∧ c ≠ '#' := by
    constructor
    · cases white : isBlank c with
      | false => rfl
      | true =>
          rw [not_namePart_of_isBlank white] at part
          cases part
    · rintro rfl
      cases part
  generalize same : first :: rest = characters at word
  cases word with
  | keyword reserved =>
      obtain ⟨_, _, spelled, starts, _⟩ := keywords_spelled _ reserved
      have parted := same.trans spelled
      cases parted
      exact parts (namePart_of_nameStart starts)
  | name starts _ _ =>
      cases same
      exact parts (namePart_of_nameStart starts)
  | whole _ all => exact parts (namePart_of_digit (all first (same ▸ List.mem_cons_self ..)))
  | @fraction digits _ nonempty all _ =>
      cases digits with
      | nil => exact absurd rfl nonempty
      | cons _ digits =>
          cases same
          exact parts (namePart_of_digit (all _ (List.mem_cons_self ..)))
  | notEqual => cases same; exact ⟨rfl, by decide⟩
  | equal => cases same; exact ⟨rfl, by decide⟩
  | symbol listed =>
      cases same
      exact (symbols_apart _ listed).2.2
  | unknown isUnknown =>
      cases same
      exact ⟨isUnknown.noBlank, isUnknown.noComment⟩

theorem spell_of_word
    {kind : Kind} {first : Char} {rest after : List Char} (word : Word kind (first :: rest))
    (parted : Parted after) : spell first (rest ++ after) = ⟨kind, first :: rest, after⟩ := by
  obtain ⟨noBlank, noComment⟩ := word.begins_no_gap
  obtain ⟨isWord, begins, longest⟩ := spell_longest noBlank noComment (rest ++ after)
  have split := spell_split first (rest ++ after)
  generalize spell first (rest ++ after) = spelling at isWord begins longest split
  obtain ⟨found, characters, remaining⟩ := spelling
  simp only at isWord begins longest split
  have wordBegins : first :: rest <+: first :: (rest ++ after) := List.prefix_append _ after
  obtain ⟨short, sameKind⟩ := longest kind (first :: rest) word wordBegins
  -- Were the word found a longer one, the separator would be inside of it.
  have same : characters = first :: rest := by
    obtain ⟨more, extended⟩ := List.prefix_of_prefix_length_le wordBegins begins short
    cases more with
    | nil => rw [← extended, List.append_nil]
    | cons c more =>
        rw [← extended] at split isWord
        have followed : c :: (more ++ remaining) = after := by
          simpa using split
        have separated := parted c (by rw [← followed]; rfl)
        rw [isWord.not_separates c (by simp)] at separated
        cases separated
  subst same
  have remains : remaining = after := by simpa using split
  rw [remains, sameKind rfl]

theorem skip_of_begins
    {first : Char} (noBlank : isBlank first = false) (noComment : first ≠ '#') (line : Int)
    (text : List Char) : skip ⟨false, line⟩ (first :: text) = (line, first :: text) := by
  have begins : Layout.pass? ⟨false, line⟩ first = none := by
    simp only [Layout.pass?, Bool.false_and, Bool.false_eq_true, if_false, noBlank,
      if_neg noComment]
  rw [skip, begins]

theorem Lexer.next_of_word
    {kind : Kind} {word after : List Char} (isWord : Word kind word) (parted : Parted after)
    (lexeme : String) (line : Int) :
    (facing (word ++ after) lexeme line).next =
      (.ok kind, facing after (String.ofList word) line) := by
  cases word with
  | nil => exact absurd rfl isWord.ne_nil
  | cons first rest =>
      obtain ⟨noBlank, noComment⟩ := isWord.begins_no_gap
      rw [List.cons_append, next_of_skip (skip_of_begins noBlank noComment line _),
        spell_of_word isWord parted]

/-! ### Pieces of a text -/

theorem spell_cases
    {current : Char} (noBlank : isBlank current = false) (noComment : current ≠ '#')
    (text : List Char) :
    ∃ kind characters rest, spell current text = ⟨kind, current :: characters, rest⟩ ∧
      text = characters ++ rest ∧ Word kind (current :: characters) := by
  have isWord := (spell_longest noBlank noComment text).isWord
  have parts := spell_split current text
  generalize spell current text = spelling at isWord parts
  obtain ⟨kind, word, rest⟩ := spelling
  cases word with
  | nil => exact absurd rfl isWord.ne_nil
  | cons first characters =>
      obtain ⟨rfl, split⟩ := List.cons.inj parts
      exact ⟨kind, characters, rest, rfl, split.symm, isWord⟩

/-- The character after a word decides where it ends, and what follows that does not matter. -/
theorem spell_of_next
    {current next : Char} {rest after : List Char} {kind : Kind}
    (noBlank : isBlank current = false) (noComment : current ≠ '#')
    (spelled : spell current (rest ++ next :: after) = ⟨kind, current :: rest, next :: after⟩)
    (other : List Char) :
    spell current (rest ++ next :: other) = ⟨kind, current :: rest, next :: other⟩ := by
  have longest := (spell_longest noBlank noComment (rest ++ next :: after)).longest
  have isWord := (spell_longest noBlank noComment (rest ++ [next])).isWord
  have parts := spell_split current (rest ++ [next])
  have again (going : (spell current (rest ++ [next])).rest ≠ []) := spell_append going
  generalize spell current (rest ++ [next]) = short at isWord parts again
  obtain ⟨shortKind, characters, remains⟩ := short
  rw [spelled] at longest
  have going : remains ≠ [] := by
    intro ended
    simp only [ended, List.append_nil] at parts
    rw [parts] at isWord
    have begins : current :: (rest ++ [next]) <+: current :: (rest ++ next :: after) :=
      ⟨after, by simp⟩
    have short := (longest _ _ isWord begins).1
    simp only [List.length_cons, List.length_append, List.length_nil] at short
    omega
  have seen := again going after
  rw [List.append_assoc, List.singleton_append, spelled] at seen
  obtain ⟨rfl, rfl, follows⟩ := Spelling.mk.inj seen
  have single : remains = [next] := by
    rw [← List.singleton_append] at follows
    exact (List.append_cancel_right follows).symm
  have unseen := again going other
  rw [List.append_assoc, single] at unseen
  exact unseen

theorem skip_length_le (layout : Layout) (text : List Char) :
    (skip layout text).2.length ≤ text.length := by
  induction text generalizing layout with
  | nil => exact Nat.le_refl _
  | cons c text inductionHypothesis =>
      rw [skip]
      cases layout.pass? c with
      | none => exact Nat.le_refl _
      | some passed => exact Nat.le_succ_of_le (inductionHypothesis passed)

/-- A gap is skipped up to the word after it, whatever follows the first character of the word. -/
theorem skip_of_next
    {layout : Layout} {gap after : List Char} {next : Char} {line : Int}
    (skipped : skip layout (gap ++ next :: after) = (line, next :: after)) (other : List Char) :
    skip layout (gap ++ next :: other) = (line, next :: other) := by
  induction gap generalizing layout with
  | nil =>
      rw [List.nil_append, skip] at skipped ⊢
      cases passes : layout.pass? next with
      | none =>
          simp only [passes] at skipped
          rw [(Prod.mk.inj skipped).1]
      | some passed =>
          simp only [passes] at skipped
          have short := skip_length_le passed after
          rw [skipped] at short
          exact absurd short (Nat.not_succ_le_self _)
  | cons c gap inductionHypothesis =>
      rw [List.cons_append, skip] at skipped ⊢
      cases passes : layout.pass? c with
      | none =>
          simp only [passes] at skipped
          have long := congrArg (fun result => result.2.length) skipped
          simp at long
          omega
      | some passed =>
          simp only [passes] at skipped
          exact inductionHypothesis skipped

namespace Lexer

theorem Reads.of_next_eq
    {first second last : Lexer} (same : first.next = second.next) {tokens : List Lexed}
    (reads : first.Reads tokens last) (nonempty : tokens ≠ []) : second.Reads tokens last := by
  cases reads with
  | none lexer => exact absurd rfl nonempty
  | more read inside others => exact Reads.more (same ▸ read) inside others

theorem next_after_gap
    {gap after : List Char} {first : Char} {start line : Int}
    (skipped : skip ⟨false, start⟩ (gap ++ first :: after) = (line, first :: after))
    (other : List Char) (lexeme : String) :
    (facing (first :: other) lexeme line).next =
      (facing (gap ++ first :: other) lexeme start).next := by
  have stops := skip_stops ⟨false, start⟩ (gap ++ first :: after)
  rw [skipped] at stops
  rcases stops first rfl with ⟨noBlank, noComment⟩
  rw [next_facing, next_facing, skip_of_next skipped, skip_of_begins noBlank noComment]

/-- The piece of a text that tokens were read from, without the gap before it, gives the same tokens
in front of every separator. -/
theorem Reads.piece
    {text : List Char} {lexeme : String} {line : Int} {tokens : List Lexed} {last : Lexer}
    (reads : (facing text lexeme line).Reads tokens last) (nonempty : tokens ≠ []) :
    ∃ gap first piece rest final ending start,
      skip ⟨false, line⟩ text = (start, first :: (piece ++ rest)) ∧
      text = gap ++ first :: (piece ++ rest) ∧ last = facing rest final ending ∧
      ∀ after, Parted after → ∀ other,
        (facing (first :: (piece ++ after)) other start).Reads tokens
          (facing after final ending) := by
  generalize begins : facing text lexeme line = lexer at reads
  induction reads generalizing text lexeme line with
  | none lexer => exact absurd rfl nonempty
  | @more lexer after last kind tokens read inside others inductionHypothesis =>
      subst begins
      obtain ⟨start, c, rest, skipped, spelled, reached⟩ := next_facing_cases read inside
      obtain ⟨gap, split, _⟩ := skip_maximalGap line text
      have stops := skip_stops ⟨false, line⟩ text
      rw [skipped] at split stops
      obtain ⟨noBlank, noComment⟩ := stops c rfl
      have skippedAgain := skip_of_begins noBlank noComment start
      obtain ⟨wordKind, characters, after', spells, rfl, isWord⟩ := spell_cases noBlank noComment rest
      rw [spells] at spelled reached
      subst spelled reached
      by_cases alone : tokens = []
      · subst alone
        cases others with
        | none =>
            refine ⟨gap, c, characters, after', _, start, start, skipped, split, rfl, ?_⟩
            intro after parted other
            have single := Reads.more (next_of_word isWord parted other start) inside (Reads.none _)
            exact single
      · obtain ⟨between, first, piece, remaining, final, ending, begins, skippedNext, rfl, same,
          later⟩ := inductionHypothesis alone rfl
        refine ⟨gap, c, characters ++ between ++ first :: piece, remaining, final, ending, start,
          by simpa using skipped, by simpa using split, same, ?_⟩
        intro after parted other
        have others := later after parted (String.ofList (c :: characters))
        -- Between the two words stands the gap, or the second follows the first directly.
        have word : spell c (characters ++ (between ++ first :: (piece ++ after))) =
            ⟨kind, c :: characters, between ++ first :: (piece ++ after)⟩ := by
          cases between with
          | nil => exact spell_of_next noBlank noComment spells _
          | cons next between => exact spell_of_next noBlank noComment spells _
        have read := next_of_skip
          (skippedAgain (characters ++ (between ++ first :: (piece ++ after)))) other
        rw [word] at read
        have same := next_after_gap skippedNext (piece ++ after) (String.ofList (c :: characters))
        have both := Reads.more read inside (others.of_next_eq same alone)
        rw [List.append_assoc, List.append_assoc, List.cons_append]
        exact both

theorem Reads.split
    {lexer last : Lexer} {before after : List Lexed} (reads : lexer.Reads (before ++ after) last) :
    ∃ middle, lexer.Reads before middle ∧ middle.Reads after last := by
  induction before generalizing lexer with
  | nil => exact ⟨lexer, Reads.none lexer, reads⟩
  | cons first before inductionHypothesis =>
      cases reads with
      | more read inside others =>
          obtain ⟨middle, earlier, later⟩ := inductionHypothesis others
          exact ⟨middle, Reads.more read inside earlier, later⟩

theorem Reads.isSuffix
    {text : List Char} {lexeme : String} {line : Int} {tokens : List Lexed} {last : Lexer}
    (reads : (facing text lexeme line).Reads tokens last) :
    ∃ rest final ending, last = facing rest final ending ∧ rest <:+ text := by
  by_cases empty : tokens = []
  · subst empty
    cases reads with
    | none => exact ⟨text, lexeme, line, rfl, List.suffix_refl text⟩
  · obtain ⟨gap, first, piece, rest, final, ending, _, _, split, same, _⟩ := reads.piece empty
    exact ⟨rest, final, ending, same, gap ++ first :: piece, by rw [split]; simp⟩

/-- A semicolon after a text that ends there. -/
theorem Finishes.semicolon (lexeme : String) (line : Int) :
    (facing [';'] lexeme line).Finishes [⟨.semicolon, ";", line⟩] line := by
  have read : (facing [';'] lexeme line).next = (.ok .semicolon, facing [] ";" line) := by
    rw [next_facing]
    rfl
  exact ⟨facing [] ";" line, Reads.more read nofun (Reads.none _), rfl⟩

/-- Consecutive tokens of a text are, but for their lines, the tokens of a piece of it. -/
theorem Finishes.piece
    {text : String} {before tokens after : List Lexed} {ending : Int}
    (finishes : (ofSource (Source.ofText Source.standardChunkSize text)).Finishes
      (before ++ (tokens ++ after)) ending)
    (nonempty : tokens ≠ []) :
    ∃ left piece right lines final, text = left ++ piece ++ right ∧
      (ofSource (Source.ofText Source.standardChunkSize (piece ++ ";"))).Finishes
        ((tokens.map (Lexed.moved lines)) ++ [⟨.semicolon, ";", final⟩]) final := by
  rw [ofSource_ofText] at finishes
  obtain ⟨last, reads, _⟩ := Finishes.of_next_eq (next_facing_blank text.toList "" "" 1) finishes
  obtain ⟨middle, earlier, others⟩ := reads.split
  obtain ⟨inner, within, _⟩ := others.split
  obtain ⟨rest, lexeme, line, rfl, left, split⟩ := earlier.isSuffix
  obtain ⟨gap, first, piece, right, final, reached, start, _, rfl, _, again⟩ := within.piece nonempty
  have alone := Finishes.after (again [';'] (Parted.cons rfl []) "") (Finishes.semicolon final reached)
  have moved := alone.moved (1 - start)
  rw [show start + (1 - start) = 1 by omega, List.map_append] at moved
  refine ⟨String.ofList (left ++ gap), String.ofList (first :: piece), String.ofList right, 1 - start,
    reached + (1 - start), ?_, ?_⟩
  · rw [← String.ofList_append, ← String.ofList_append, ← String.ofList_toList (s := text), ← split]
    simp
  · rw [ofSource_ofText, String.toList_append, String.toList_ofList]
    exact Finishes.of_next_eq (next_facing_blank _ _ _ _).symm moved

end Lexer

end ExprWasm.Token
