import ExprWasm.Proofs.Token.Written

/-! The words of a text in another layout.

Words that stand apart from each other are read as themselves. So the words of any text can be laid
out anew, with white space and closed comments before, between and after them, and are found again.
-/

set_option autoImplicit false

namespace ExprWasm.Token

open Source (isBlank isLineBreak)

/-! ### Fillers -/

inductive Filler : List Char → Prop where
  | none : Filler []
  | blank {c : Char} {rest : List Char} (isWhite : isBlank c = true) (others : Filler rest) :
      Filler (c :: rest)
  | comment {body rest : List Char} {c : Char} (unbroken : ∀ c ∈ body, isLineBreak c = false)
      (breaks : isLineBreak c = true) (others : Filler rest) :
      Filler ('#' :: (body ++ c :: rest))

theorem separates_of_isBlank {c : Char} (isWhite : isBlank c = true) : separates c = true := by
  have different {other : Char} (dark : isBlank other = false) : c ≠ other := by
    rintro rfl
    rw [isWhite] at dark
    cases dark
  simp only [separates, not_namePart_of_isBlank isWhite, Bool.not_false, Bool.true_and,
    Bool.and_eq_true, decide_eq_true_eq]
  exact ⟨⟨different rfl, different rfl⟩, different rfl⟩

theorem Filler.parted
    {filler : List Char} (fills : Filler filler) (nonempty : filler ≠ []) (rest : List Char) :
    Parted (filler ++ rest) := by
  cases fills with
  | none => exact absurd rfl nonempty
  | blank isWhite _ => exact Parted.cons (separates_of_isBlank isWhite) _
  | comment _ _ _ => exact Parted.cons rfl _

/-- From inside a comment the rest of its line is skipped. -/
theorem skip_line
    {body : List Char} {c : Char} (unbroken : ∀ c ∈ body, isLineBreak c = false)
    (breaks : isLineBreak c = true) (line : Int) (rest : List Char) :
    ∃ further, skip ⟨true, line⟩ (body ++ c :: rest) = skip ⟨false, further⟩ rest := by
  induction body with
  | nil =>
      have passes : Layout.pass? ⟨true, line⟩ c = some ⟨false, line + 1⟩ := by
        simp only [Layout.pass?, breaks, (apart_of_isLineBreak breaks).1, Bool.not_true,
          Bool.and_false, Bool.false_eq_true, if_false, if_true]
      refine ⟨line + 1, ?_⟩
      rw [List.nil_append, skip, passes]
  | cons first body inductionHypothesis =>
      obtain ⟨unbrokenFirst, unbrokenBody⟩ := List.forall_mem_cons.mp unbroken
      have passes : Layout.pass? ⟨true, line⟩ first = some ⟨true, line⟩ := by
        simp only [Layout.pass?, unbrokenFirst, Bool.not_false, Bool.and_self, if_true]
      rw [List.cons_append, skip, passes]
      exact inductionHypothesis unbrokenBody

theorem skip_filler
    {filler : List Char} (fills : Filler filler) (line : Int) (rest : List Char) :
    ∃ further, skip ⟨false, line⟩ (filler ++ rest) = skip ⟨false, further⟩ rest := by
  induction fills generalizing line with
  | none => exact ⟨line, rfl⟩
  | @blank c filler isWhite _ inductionHypothesis =>
      have passes : Layout.pass? ⟨false, line⟩ c =
          some ⟨false, if isLineBreak c then line + 1 else line⟩ := by
        simp only [Layout.pass?, isWhite, Bool.false_and, Bool.false_eq_true, if_false, if_true]
      rw [List.cons_append, skip, passes]
      exact inductionHypothesis _
  | comment unbroken breaks _ inductionHypothesis =>
      obtain ⟨next, afterLine⟩ := skip_line unbroken breaks line _
      obtain ⟨further, afterFiller⟩ := inductionHypothesis next
      refine ⟨further, ?_⟩
      rw [List.cons_append, List.append_assoc, List.cons_append, ← afterFiller, ← afterLine]
      rfl

theorem Lexer.next_filler
    {filler : List Char} (fills : Filler filler) (rest : List Char) (lexeme : String) (line : Int) :
    ∃ further, (facing (filler ++ rest) lexeme line).next = (facing rest lexeme further).next := by
  obtain ⟨further, skipped⟩ := skip_filler fills line rest
  refine ⟨further, ?_⟩
  rw [next_facing, next_facing, skipped]

/-! ### Words apart -/

/-- The text holds the words of the tokens in their order, with fillers before, between and after
them. The filler between two words is not empty; `started` says that there is a word before. -/
inductive Respaced : (started : Bool) → List Lexed → List Char → Prop where
  | last {started : Bool} {filler : List Char} (fills : Filler filler) : Respaced started [] filler
  | word {started : Bool} {filler rest : List Char} {token : Lexed} {tokens : List Lexed}
      (fills : Filler filler) (apart : started = true → filler ≠ [])
      (others : Respaced true tokens rest) :
      Respaced started (token :: tokens) (filler ++ (token.lexeme.toList ++ rest))

theorem Respaced.parted
    {tokens : List Lexed} {text : List Char} (respaced : Respaced true tokens text) :
    Parted text := by
  cases respaced with
  | last fills =>
      by_cases empty : text = []
      · rw [empty]
        exact nofun
      · have parted := fills.parted empty []
        rw [List.append_nil] at parted
        exact parted
  | word fills apart _ => exact fills.parted (apart rfl) _

def Lexed.word (token : Lexed) : Kind × String :=
  (token.kind, token.lexeme)

/-- Words that stand apart are found in every layout. -/
theorem Respaced.finishes
    {started : Bool} {tokens : List Lexed} {text : List Char}
    (respaced : Respaced started tokens text)
    (words : ∀ token ∈ tokens, Word token.kind token.lexeme.toList) (lexeme : String) (line : Int) :
    ∃ others ending, (Lexer.facing text lexeme line).Finishes others ending ∧
      others.map Lexed.word = tokens.map Lexed.word := by
  induction respaced generalizing lexeme line with
  | @last _ filler fills =>
      obtain ⟨further, same⟩ := Lexer.next_filler fills [] lexeme line
      rw [List.append_nil] at same
      exact ⟨[], further, ⟨_, .none _, same⟩, rfl⟩
  | @word _ filler rest token tokens fills _ respacedRest inductionHypothesis =>
      obtain ⟨isWord, wordsRest⟩ := List.forall_mem_cons.mp words
      obtain ⟨further, same⟩ := Lexer.next_filler fills (token.lexeme.toList ++ rest) lexeme line
      have read := Lexer.next_of_word isWord respacedRest.parted lexeme further
      rw [← same, String.ofList_toList] at read
      obtain ⟨others, ending, finishes, sameWords⟩ :=
        inductionHypothesis wordsRest token.lexeme further
      have single := Lexer.Reads.more read isWord.kind_ne_endOfInput (.none _)
      refine ⟨_, ending, finishes.after single, ?_⟩
      rw [List.singleton_append, List.map_cons, List.map_cons, sameWords]
      rfl

end ExprWasm.Token
