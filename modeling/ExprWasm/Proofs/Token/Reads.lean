import ExprWasm.Proofs.Token.PlainText

/-! Runs of a lexer: the tokens it reads before the end of the input.

Main statements: the listing of a lexer is what its runs read (`Lexer.listing_of_reads`), every text
is read to its end (`Lexer.exists_finishes`), and a line is counted for every line break that is
passed. -/

set_option autoImplicit false

namespace ExprWasm.Token

open Source (Reading Delivery isNameStart isNamePart isBlank isLineBreak)
open Number (Decimal)

namespace Lexer

inductive Reads : Lexer → List Lexed → Lexer → Prop where
  | none (lexer : Lexer) : Reads lexer [] lexer
  | more {lexer after last : Lexer} {kind : Kind} {tokens : List Lexed}
      (read : lexer.next = (.ok kind, after)) (inside : kind ≠ .endOfInput)
      (others : Reads after tokens last) : Reads lexer (after.lexed kind :: tokens) last

theorem Reads.trans
    {first second third : Lexer} {before after : List Lexed}
    (reads : first.Reads before second) (later : second.Reads after third) :
    first.Reads (before ++ after) third := by
  induction reads with
  | none lexer => exact later
  | more read inside _ inductionHypothesis => exact more read inside (inductionHypothesis later)

theorem Reads.last
    {lexer after : Lexer} {before : List Lexed} {token : Lexed}
    (reads : lexer.Reads (before ++ [token]) after) :
    ∃ middle, lexer.Reads before middle ∧ middle.next = (.ok token.kind, after) ∧
      token.kind ≠ .endOfInput ∧ token = after.lexed token.kind := by
  induction before generalizing lexer with
  | nil =>
      cases reads with
      | more read inside others =>
          cases others with
          | none => exact ⟨lexer, none lexer, read, inside, rfl⟩
  | cons first before inductionHypothesis =>
      cases reads with
      | more read inside others =>
          obtain ⟨middle, earlier, last⟩ := inductionHypothesis others
          exact ⟨middle, more read inside earlier, last⟩

theorem listingAfter_of_reads
    {lexer last ending : Lexer} {tokens : List Lexed} (reads : lexer.Reads tokens last)
    (ends : last.next = (.ok .endOfInput, ending)) (found : List Lexed) :
    lexer.listingAfter found =
      ⟨found.reverse ++ tokens ++ [ending.lexed .endOfInput], Option.none, ending⟩ := by
  induction reads generalizing found with
  | none lexer =>
      rw [listingAfter]
      split
      · rename_i failure after failed
        rw [ends] at failed
        cases failed
      · rename_i kind after read
        rw [ends] at read
        cases read
        rw [dif_pos rfl, List.reverse_cons, List.append_nil]
  | @more lexer middle last kind tokens read inside _ inductionHypothesis =>
      rw [listingAfter]
      split
      · rename_i failure after failed
        rw [read] at failed
        cases failed
      · rename_i other after again
        rw [read] at again
        cases again
        rw [dif_neg inside, inductionHypothesis ends, List.reverse_cons]
        simp only [List.append_assoc, List.cons_append, List.nil_append]

theorem listing_of_reads
    {lexer last ending : Lexer} {tokens : List Lexed} (reads : lexer.Reads tokens last)
    (ends : last.next = (.ok .endOfInput, ending)) :
    lexer.listing = ⟨tokens ++ [ending.lexed .endOfInput], Option.none, ending⟩ := by
  rw [listing, listingAfter_of_reads reads ends, List.reverse_nil, List.nil_append]

end Lexer

/-! ### Spellings -/

theorem eq_of_isLineBreak {c : Char} (breaks : isLineBreak c = true) : c = '\r' ∨ c = '\n' := by
  simp only [isLineBreak, Source.CharacterClass.holds, Bool.or_eq_true, decide_eq_true_eq] at breaks
  rcases breaks with carriage | feed
  · left
    exact Char.toNat_inj.mp carriage
  · right
    exact Char.toNat_inj.mp feed

theorem spell_split (current : Char) (text : List Char) :
    (spell current text).characters ++ (spell current text).rest = current :: text := by
  have pairs (second : Char) (pair single : Kind) :
      (spellPair current text second pair single).characters ++
        (spellPair current text second pair single).rest = current :: text := by
    unfold spellPair
    cases text with
    | nil => rfl
    | cons next rest =>
        by_cases matching : next = second
        · simp only [if_pos matching, List.cons_append, List.nil_append]
        · simp only [if_neg matching, List.cons_append, List.nil_append]
  unfold spell
  split
  · simp only [List.cons_append, List.takeWhile_append_dropWhile]
  · split
    · have digits := List.takeWhile_append_dropWhile (p := Decimal.isDigit) (l := text)
      unfold spellNumber
      split
      · rename_i rest after
        rw [after] at digits
        simp only [List.cons_append, List.append_assoc, List.takeWhile_append_dropWhile, digits]
      · simp only [List.cons_append, digits]
    · split
      · exact pairs _ _ _
      · split
        · exact pairs _ _ _
        · rfl

theorem spell_kind_ne_endOfInput (current : Char) (text : List Char) :
    (spell current text).kind ≠ .endOfInput := by
  unfold spell spellNumber spellPair Kind.ofWord Kind.ofKeyword? Kind.ofSymbol?
  grind

theorem eq_semicolon_of_spell
    {current : Char} {text : List Char} (found : (spell current text).kind = .semicolon) :
    current = ';' := by
  unfold spell spellNumber spellPair Kind.ofWord Kind.ofKeyword? Kind.ofSymbol? at found
  grind

theorem read?_isSome
    {whole tail : List Char} (digits : ∀ c ∈ whole, Decimal.isDigit c = true)
    (nonempty : whole ≠ [])
    (ends : tail = [] ∨ ∃ fraction, tail = '.' :: fraction ∧ fraction.all Decimal.isDigit = true) :
    (Decimal.read? (whole ++ tail)).isSome = true := by
  have filled : ¬ whole.isEmpty = true := by
    rw [List.isEmpty_iff]
    exact nonempty
  unfold Decimal.read?
  rw [List.takeWhile_append_of_pos digits, List.dropWhile_append_of_pos digits]
  rcases ends with empty | ⟨fraction, pointed, further⟩
  · subst empty
    simp only [List.takeWhile_nil, List.append_nil, List.dropWhile_nil, if_neg filled,
      Option.isSome_some]
  · subst pointed
    rw [List.takeWhile_cons_of_neg (by decide), List.dropWhile_cons_of_neg (by decide),
      List.append_nil, if_neg filled]
    simp only [further, decide_true, Bool.and_self, if_true, Option.isSome_some]

theorem spell_readable
    {current : Char} {text : List Char} (found : (spell current text).kind = .number) :
    (Decimal.read? (spell current text).characters).isSome = true := by
  have isNumber : Decimal.isDigit current = true ∧ spell current text = spellNumber current text := by
    unfold spell spellPair Kind.ofWord Kind.ofKeyword? Kind.ofSymbol? at *
    grind
  obtain ⟨digit, spells⟩ := isNumber
  have digits : ∀ c ∈ current :: text.takeWhile Decimal.isDigit, Decimal.isDigit c = true := by
    intro c member
    rcases List.mem_cons.mp member with first | later
    · rw [first]
      exact digit
    · exact List.all_eq_true.mp List.all_takeWhile c later
  rw [spells, spellNumber]
  split
  · exact read?_isSome digits (List.cons_ne_nil _ _) (Or.inr ⟨_, rfl, List.all_takeWhile⟩)
  · have whole := read?_isSome digits (List.cons_ne_nil _ _) (Or.inl rfl)
    rw [List.append_nil] at whole
    exact whole

theorem dropWhile_append_of_stop
    {accepts : Char → Bool} {text : List Char} (stops : text.dropWhile accepts ≠ [])
    (more : List Char) :
    (text ++ more).takeWhile accepts = text.takeWhile accepts ∧
      (text ++ more).dropWhile accepts = text.dropWhile accepts ++ more := by
  induction text with
  | nil => exact absurd rfl stops
  | cons c text inductionHypothesis =>
      by_cases accepted : accepts c = true
      · rw [List.dropWhile_cons_of_pos accepted] at stops
        obtain ⟨taken, dropped⟩ := inductionHypothesis stops
        rw [List.cons_append, List.takeWhile_cons_of_pos accepted,
          List.takeWhile_cons_of_pos accepted, List.dropWhile_cons_of_pos accepted,
          List.dropWhile_cons_of_pos accepted, taken, dropped]
        exact ⟨rfl, rfl⟩
      · rw [List.cons_append, List.takeWhile_cons_of_neg accepted,
          List.takeWhile_cons_of_neg accepted, List.dropWhile_cons_of_neg accepted,
          List.dropWhile_cons_of_neg accepted]
        exact ⟨rfl, rfl⟩

theorem spellPair_append
    {current : Char} {text : List Char} {second : Char} {pair single : Kind}
    (going : (spellPair current text second pair single).rest ≠ []) (more : List Char) :
    spellPair current (text ++ more) second pair single =
      ⟨(spellPair current text second pair single).kind,
        (spellPair current text second pair single).characters,
        (spellPair current text second pair single).rest ++ more⟩ := by
  cases text with
  | nil => exact absurd rfl going
  | cons next rest =>
      simp only [List.cons_append, spellPair]
      by_cases matching : next = second
      · simp only [if_pos matching]
      · simp only [if_neg matching, List.cons_append]

theorem spellNumber_append
    {current : Char} {text : List Char} (going : (spellNumber current text).rest ≠ [])
    (more : List Char) :
    spellNumber current (text ++ more) =
      ⟨(spellNumber current text).kind, (spellNumber current text).characters,
        (spellNumber current text).rest ++ more⟩ := by
  have stops : text.dropWhile Decimal.isDigit ≠ [] := by
    intro empty
    rw [spellNumber, empty] at going
    exact going rfl
  obtain ⟨taken, dropped⟩ := dropWhile_append_of_stop stops more
  unfold spellNumber at going ⊢
  rw [taken, dropped]
  cases after : text.dropWhile Decimal.isDigit with
  | nil => exact absurd after stops
  | cons next rest =>
      rw [after] at going
      by_cases point : next = '.'
      · subst point
        obtain ⟨takenAgain, droppedAgain⟩ := dropWhile_append_of_stop going more
        simp only [List.cons_append, takenAgain, droppedAgain]
      · simp [point]

theorem spell_append
    {current : Char} {text : List Char} (going : (spell current text).rest ≠ [])
    (more : List Char) :
    spell current (text ++ more) =
      ⟨(spell current text).kind, (spell current text).characters,
        (spell current text).rest ++ more⟩ := by
  unfold spell at going ⊢
  split at going
  · rename_i name
    obtain ⟨taken, dropped⟩ := dropWhile_append_of_stop going more
    simp only [if_pos name, taken, dropped]
  · rename_i notName
    split at going
    · rename_i digit
      simp only [if_neg notName, if_pos digit]
      exact spellNumber_append going more
    · rename_i notDigit
      simp only [if_neg notName, if_neg notDigit]
      split at going
      · rename_i less
        simp only [if_pos less]
        exact spellPair_append going more
      · rename_i notLess
        simp only [if_neg notLess]
        split at going
        · rename_i equal
          simp only [if_pos equal]
          exact spellPair_append going more
        · rename_i notEqual
          simp only [if_neg notEqual]

theorem skip_append
    {layout : Layout} {text rest : List Char} {line : Int} {current : Char}
    (skipped : skip layout text = (line, current :: rest)) (more : List Char) :
    skip layout (text ++ more) = (line, current :: (rest ++ more)) := by
  induction text generalizing layout with
  | nil => cases skipped
  | cons c text inductionHypothesis =>
      rw [skip] at skipped
      rw [List.cons_append, skip]
      cases passes : layout.pass? c with
      | none =>
          rw [passes] at skipped
          cases skipped
          rfl
      | some passed =>
          rw [passes] at skipped
          exact inductionHypothesis skipped

/-! ### Lines -/

/-- A line break is white space and no part of a token. -/
theorem apart_of_isLineBreak {c : Char} (breaks : isLineBreak c = true) :
    isBlank c = true ∧ isNamePart c = false ∧ Decimal.isDigit c = false := by
  rcases eq_of_isLineBreak breaks with carriage | feed
  · rw [carriage]
    exact ⟨rfl, rfl, rfl⟩
  · rw [feed]
    exact ⟨rfl, rfl, rfl⟩

theorem Layout.line_of_pass?
    {layout passed : Layout} {c : Char} (passes : layout.pass? c = some passed) :
    passed.line = layout.line + if isLineBreak c then 1 else 0 := by
  unfold pass? at passes
  cases breaks : isLineBreak c with
  | true =>
      rw [breaks, (apart_of_isLineBreak breaks).1] at passes
      simp only [Bool.not_true, Bool.and_false, Bool.false_eq_true, if_false, if_true] at passes
      cases passes
      rfl
  | false =>
      rw [breaks] at passes
      grind

theorem Layout.not_isLineBreak_of_pass?
    {layout : Layout} {c : Char} (begins : layout.pass? c = none) : isLineBreak c = false := by
  unfold pass? at begins
  cases breaks : isLineBreak c with
  | false => rfl
  | true =>
      rw [breaks, (apart_of_isLineBreak breaks).1] at begins
      simp at begins

/-- A line is counted for every line break that is skipped. -/
theorem skip_lines (layout : Layout) (text : List Char) :
    (skip layout text).1 + ((skip layout text).2.countP isLineBreak : Int) =
      layout.line + (text.countP isLineBreak : Int) := by
  induction text generalizing layout with
  | nil => rfl
  | cons c text inductionHypothesis =>
      rw [skip]
      cases passes : layout.pass? c with
      | none => rfl
      | some passed =>
          have counted := Layout.line_of_pass? passes
          have others := inductionHypothesis passed
          rw [List.countP_cons]
          simp only
          grind

theorem not_isLineBreak_of_skip
    {layout : Layout} {text rest : List Char} {line : Int} {current : Char}
    (skipped : skip layout text = (line, current :: rest)) : isLineBreak current = false := by
  induction text generalizing layout with
  | nil => cases skipped
  | cons c text inductionHypothesis =>
      rw [skip] at skipped
      cases passes : layout.pass? c with
      | none =>
          rw [passes] at skipped
          cases skipped
          exact Layout.not_isLineBreak_of_pass? passes
      | some passed =>
          rw [passes] at skipped
          exact inductionHypothesis skipped

/-- No token contains a line break. -/
theorem spell_lines
    {current : Char} (unbroken : isLineBreak current = false) (text : List Char) :
    (spell current text).rest.countP isLineBreak = (current :: text).countP isLineBreak := by
  have none : ∀ c ∈ (spell current text).characters, isLineBreak c = false := by
    have names {c : Char} (member : c ∈ text.takeWhile isNamePart) : isLineBreak c = false := by
      have part := List.all_eq_true.mp List.all_takeWhile c member
      grind [→ apart_of_isLineBreak]
    have digits {text : List Char} {c : Char} (member : c ∈ text.takeWhile Decimal.isDigit) :
        isLineBreak c = false := by
      have digit := List.all_eq_true.mp List.all_takeWhile c member
      grind [→ apart_of_isLineBreak]
    have point : isLineBreak '.' = false := rfl
    have greater : isLineBreak '>' = false := rfl
    have equal : isLineBreak '=' = false := rfl
    unfold spell spellNumber spellPair
    grind
  have counted : (spell current text).characters.countP isLineBreak = 0 := by
    rw [List.countP_eq_zero]
    intro c member
    rw [none c member]
    exact Bool.false_ne_true
  rw [← spell_split current text, List.countP_append, counted, Nat.zero_add]

/-! ### Runs over a text -/

namespace Lexer

theorem next_of_skip
    {text rest : List Char} {line start : Int} {c : Char}
    (skipped : skip ⟨false, line⟩ text = (start, c :: rest)) (lexeme : String) :
    (facing text lexeme line).next =
      (.ok (spell c rest).kind,
        facing (spell c rest).rest (String.ofList (spell c rest).characters) start) := by
  rw [next_facing, skipped]

theorem next_facing_blank (text : List Char) (lexeme other : String) (line : Int) :
    (facing (' ' :: text) lexeme line).next = (facing text other line).next := by
  rw [next_facing, next_facing]
  rfl

/-- One token of a text: what was skipped before it and how it is spelled. -/
theorem next_facing_cases
    {text : List Char} {lexeme : String} {line : Int} {kind : Kind} {after : Lexer}
    (read : (facing text lexeme line).next = (.ok kind, after)) (inside : kind ≠ .endOfInput) :
    ∃ start c rest, skip ⟨false, line⟩ text = (start, c :: rest) ∧
      kind = (spell c rest).kind ∧
      after = facing (spell c rest).rest (String.ofList (spell c rest).characters) start := by
  rw [next_facing] at read
  cases skipped : skip ⟨false, line⟩ text with
  | mk start rest =>
      rw [skipped] at read
      cases rest with
      | nil =>
          cases read
          exact absurd rfl inside
      | cons c rest =>
          cases read
          exact ⟨start, c, rest, rfl, rfl, rfl⟩

/-- Where a run over a text ends, and what its tokens are like. -/
theorem Reads.facing_text
    {text : List Char} {lexeme : String} {line : Int} {tokens : List Lexed} {last : Lexer}
    (reads : (facing text lexeme line).Reads tokens last) :
    (∃ rest final ending, last = facing rest final ending ∧
      ending + (rest.countP isLineBreak : Int) = line + (text.countP isLineBreak : Int)) ∧
    (∀ token ∈ tokens, token.kind ≠ .endOfInput) ∧
    ∀ token ∈ tokens, token.kind = .number →
      (Decimal.read? token.lexeme.toList).isSome = true := by
  generalize begins : facing text lexeme line = lexer at reads
  induction reads generalizing text lexeme line with
  | none lexer =>
      refine ⟨⟨text, lexeme, line, begins.symm, rfl⟩, ?_, ?_⟩
      · intro token member
        cases member
      · intro token member
        cases member
  | @more lexer after last kind tokens read inside _ inductionHypothesis =>
      subst begins
      obtain ⟨start, c, rest, skipped, spelled, reached⟩ := next_facing_cases read inside
      obtain ⟨⟨remaining, final, ending, same, counted⟩, absent, readable⟩ :=
        inductionHypothesis reached.symm
      have skippedLines := skip_lines ⟨false, line⟩ text
      rw [skipped] at skippedLines
      have spelledLines := spell_lines (not_isLineBreak_of_skip skipped) rest
      refine ⟨⟨remaining, final, ending, same, ?_⟩, ?_, ?_⟩
      · rw [counted, spelledLines]
        exact skippedLines
      · intro token member
        rcases List.mem_cons.mp member with first | later
        · rw [first]
          exact inside
        · exact absent token later
      · intro token member isNumber
        rcases List.mem_cons.mp member with first | later
        · subst first
          rw [reached]
          change (Decimal.read? (String.ofList _).toList).isSome = true
          rw [String.toList_ofList]
          exact spell_readable (spelled.symm.trans isNumber)
        · exact readable token later isNumber

/-- A lexer reads tokens up to the end of the input, which it finds on the given line. -/
def Finishes (lexer : Lexer) (tokens : List Lexed) (line : Int) : Prop :=
  ∃ last, lexer.Reads tokens last ∧ last.next = (.ok .endOfInput, facing [] "" line)

namespace Finishes

theorem listing
    {lexer : Lexer} {tokens : List Lexed} {line : Int} (finishes : lexer.Finishes tokens line) :
    lexer.listing.tokens = tokens ++ [⟨.endOfInput, "", line⟩] := by
  obtain ⟨last, reads, ends⟩ := finishes
  rw [listing_of_reads reads ends]
  rfl

theorem after
    {lexer middle : Lexer} {before tokens : List Lexed} {line : Int}
    (reads : lexer.Reads before middle) (finishes : middle.Finishes tokens line) :
    lexer.Finishes (before ++ tokens) line := by
  obtain ⟨last, others, ends⟩ := finishes
  exact ⟨last, reads.trans others, ends⟩

/-- The text of the token before does not matter. -/
theorem of_next_eq
    {first second : Lexer} (same : first.next = second.next) {tokens : List Lexed} {line : Int}
    (finishes : first.Finishes tokens line) : second.Finishes tokens line := by
  obtain ⟨last, reads, ends⟩ := finishes
  cases reads with
  | none lexer => exact ⟨second, Reads.none second, same ▸ ends⟩
  | more read inside others => exact ⟨last, Reads.more (same ▸ read) inside others, ends⟩

end Finishes

theorem exists_finishes (text : List Char) (lexeme : String) (line : Int) :
    ∃ tokens ending, (facing text lexeme line).Finishes tokens ending := by
  generalize size : (facing text lexeme line).remaining = count
  induction count using Nat.strongRecOn generalizing text lexeme line with
  | _ count inductionHypothesis =>
      cases skipped : skip ⟨false, line⟩ text with
      | mk start rest =>
          cases rest with
          | nil =>
              refine ⟨[], start, facing text lexeme line, Reads.none _, ?_⟩
              rw [next_facing, skipped]
          | cons c rest =>
              have read := next_of_skip skipped lexeme
              have inside := spell_kind_ne_endOfInput c rest
              have fewer := remaining_lt_of_next read inside
              rw [size] at fewer
              obtain ⟨tokens, ending, last, reads, ends⟩ :=
                inductionHypothesis _ fewer _ _ _ rfl
              exact ⟨_, ending, last, Reads.more read inside reads, ends⟩

/-- The lexer of a text begins on the first line, with a blank in front of the text. -/
theorem ofSource_ofText (text : String) :
    ofSource (Source.ofText Source.standardChunkSize text) = facing (' ' :: text.toList) "" 1 := by
  rw [ofSource, Source.ofSource_ofText]
  rfl

theorem exists_finishes_ofText (text : String) :
    ∃ tokens ending,
      (ofSource (Source.ofText Source.standardChunkSize text)).Finishes tokens ending := by
  rw [ofSource_ofText]
  exact exists_finishes (' ' :: text.toList) "" 1

theorem Finishes.tokens_ofText
    {text : String} {tokens : List Lexed} {ending : Int}
    (finishes : (ofSource (Source.ofText Source.standardChunkSize text)).Finishes tokens ending) :
    (∀ token ∈ tokens, token.kind ≠ .endOfInput) ∧
      ∀ token ∈ tokens, token.kind = .number →
        (Decimal.read? token.lexeme.toList).isSome = true := by
  obtain ⟨last, reads, _⟩ := finishes
  rw [ofSource_ofText] at reads
  exact reads.facing_text.2

end Lexer

end ExprWasm.Token
