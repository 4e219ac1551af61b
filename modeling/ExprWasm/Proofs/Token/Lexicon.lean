import ExprWasm.Proofs.Token.Reads

/-! The lexical grammar, and that the lexer follows it.

A text is made of words with gaps between them. A gap is white space and comments, and it is as long
as it can be; then follows the longest word that begins there. The lexer finds exactly this
division, and nothing of the text is lost in it. -/

set_option autoImplicit false

namespace ExprWasm.Token

open Source (isNameStart isNamePart isBlank isLineBreak)
open Number (Decimal)

/-! ### Words -/

def keywords : List (String × Kind) :=
  [("def", .define), ("if", .ifWord), ("then", .thenWord), ("else", .elseWord)]

def symbols : List (Char × Kind) :=
  [('(', .leftParenthesis), (')', .rightParenthesis), (',', .comma), (';', .semicolon),
    ('+', .plus), ('-', .minus), ('*', .star), ('/', .slash), ('|', .bar), ('&', .ampersand),
    ('<', .less), ('>', .greater), ('=', .noToken)]

structure Unknown (c : Char) : Prop where
  noName : isNameStart c = false
  noDigit : Decimal.isDigit c = false
  noBlank : isBlank c = false
  noComment : c ≠ '#'
  noSymbol : ∀ kind, (c, kind) ∉ symbols

inductive Word : Kind → List Char → Prop where
  | keyword {text : String} {kind : Kind} (reserved : (text, kind) ∈ keywords) :
      Word kind text.toList
  | name {first : Char} {rest : List Char} (starts : isNameStart first = true)
      (parts : ∀ c ∈ rest, isNamePart c = true)
      (free : ∀ kind, (String.ofList (first :: rest), kind) ∉ keywords) :
      Word .identifier (first :: rest)
  | whole {digits : List Char} (nonempty : digits ≠ [])
      (all : ∀ c ∈ digits, Decimal.isDigit c = true) : Word .number digits
  | fraction {digits further : List Char} (nonempty : digits ≠ [])
      (all : ∀ c ∈ digits, Decimal.isDigit c = true)
      (allFurther : ∀ c ∈ further, Decimal.isDigit c = true) :
      Word .number (digits ++ '.' :: further)
  | notEqual : Word .notEqual ['<', '>']
  | equal : Word .equal ['=', '=']
  | symbol {c : Char} {kind : Kind} (listed : (c, kind) ∈ symbols) : Word kind [c]
  | unknown {c : Char} (unknown : Unknown c) : Word .invalid [c]

theorem Word.kind_ne_endOfInput {kind : Kind} {word : List Char} (isWord : Word kind word) :
    kind ≠ .endOfInput := by
  have noKeyword : ∀ entry ∈ keywords, entry.2 ≠ .endOfInput := by decide
  have noSymbol : ∀ entry ∈ symbols, entry.2 ≠ .endOfInput := by decide
  cases isWord with
  | keyword reserved => exact noKeyword _ reserved
  | symbol listed => exact noSymbol _ listed
  | name | whole | fraction | notEqual | equal | unknown => exact Kind.noConfusion

structure Longest (kind : Kind) (word text : List Char) : Prop where
  isWord : Word kind word
  begins : word <+: text
  longest : ∀ other characters, Word other characters → characters <+: text →
    characters.length ≤ word.length ∧ (characters.length = word.length → other = kind)

/-! ### Classes of characters -/

theorem digit_bounds {c : Char} (digit : Decimal.isDigit c = true) :
    48 ≤ c.toNat ∧ c.toNat ≤ 57 := by
  simp only [Decimal.isDigit, Bool.and_eq_true, decide_eq_true_eq] at digit
  exact digit

theorem namePart_of_digit {c : Char} (digit : Decimal.isDigit c = true) : isNamePart c = true := by
  obtain ⟨low, high⟩ := digit_bounds digit
  have listed : Text.isNumeric c.toNat = true := by
    rw [Text.isNumeric, Text.numericRanges, Text.CodeRange.covers, if_neg (by simp only; omega),
      if_pos (by simp only; omega)]
  simp only [isNamePart, Source.CharacterClass.holds, listed, Bool.or_true]

theorem not_nameStart_of_digit {c : Char} (digit : Decimal.isDigit c = true) :
    isNameStart c = false := by
  obtain ⟨_, high⟩ := digit_bounds digit
  simp only [isNameStart, Source.CharacterClass.holds, Text.isAlphabetic]
  rw [Text.alphabeticRanges, Text.CodeRange.covers, if_pos (by simp only; omega)]

theorem symbols_apart :
    ∀ entry ∈ symbols, isNameStart entry.1 = false ∧ Decimal.isDigit entry.1 = false ∧
      isBlank entry.1 = false ∧ entry.1 ≠ '#' := by
  decide

theorem keywords_spelled :
    ∀ entry ∈ keywords, ∃ first rest, entry.1.toList = first :: rest ∧
      isNameStart first = true ∧ (∀ c ∈ rest, isNamePart c = true) ∧
      Kind.ofKeyword? entry.1 = some entry.2 := by
  intro entry member
  simp only [keywords, List.mem_cons, List.not_mem_nil, or_false] at member
  rcases member with rfl | rfl | rfl | rfl
  · exact ⟨'d', ['e', 'f'], rfl, rfl, List.all_eq_true.mp rfl, rfl⟩
  · exact ⟨'i', ['f'], rfl, rfl, List.all_eq_true.mp rfl, rfl⟩
  · exact ⟨'t', ['h', 'e', 'n'], rfl, rfl, List.all_eq_true.mp rfl, rfl⟩
  · exact ⟨'e', ['l', 's', 'e'], rfl, rfl, List.all_eq_true.mp rfl, rfl⟩

/-- The table of reserved words is what the lexer looks a word up in. -/
theorem ofWord_of_mem {text : String} {kind : Kind} (reserved : (text, kind) ∈ keywords) :
    Kind.ofWord text = kind := by
  obtain ⟨_, _, _, _, _, found⟩ := keywords_spelled _ reserved
  rw [Kind.ofWord, found, Option.getD_some]

theorem ofWord_of_free {text : String} (free : ∀ kind, (text, kind) ∉ keywords) :
    Kind.ofWord text = .identifier := by
  have different : ∀ entry ∈ keywords, text ≠ entry.1 := by
    intro entry member same
    exact free entry.2 (same ▸ member)
  simp only [keywords, List.forall_mem_cons] at different
  obtain ⟨notDef, notIf, notThen, notElse, _⟩ := different
  simp only [Kind.ofWord, Kind.ofKeyword?, if_neg notDef, if_neg notIf, if_neg notThen,
    if_neg notElse, Option.getD_none]

/-! ### Words by their first character -/

theorem Word.of_nameStart
    {kind : Kind} {first : Char} {rest : List Char} (word : Word kind (first :: rest))
    (starts : isNameStart first = true) :
    (∀ c ∈ rest, isNamePart c = true) ∧ kind = .ofWord (String.ofList (first :: rest)) := by
  generalize same : first :: rest = characters at word
  cases word with
  | keyword reserved =>
      obtain ⟨_, _, spelled, _, parts, _⟩ := keywords_spelled _ reserved
      have parted := same.trans spelled
      cases parted
      exact ⟨parts, by rw [String.ofList_toList, ofWord_of_mem reserved]⟩
  | name _ parts free =>
      cases same
      exact ⟨parts, (ofWord_of_free free).symm⟩
  | whole _ all =>
      have digit := all first (same ▸ List.mem_cons_self ..)
      rw [not_nameStart_of_digit digit] at starts
      cases starts
  | @fraction digits further nonempty all _ =>
      have digit : Decimal.isDigit first = true := by
        cases digits with
        | nil => exact absurd rfl nonempty
        | cons digit digits =>
            cases same
            exact all _ (List.mem_cons_self ..)
      rw [not_nameStart_of_digit digit] at starts
      cases starts
  | notEqual => cases same; cases starts
  | equal => cases same; cases starts
  | symbol listed =>
      cases same
      rw [(symbols_apart _ listed).1] at starts
      cases starts
  | unknown isUnknown =>
      cases same
      rw [isUnknown.noName] at starts
      cases starts

theorem Word.of_digit
    {kind : Kind} {first : Char} {rest : List Char} (word : Word kind (first :: rest))
    (digit : Decimal.isDigit first = true) :
    kind = .number ∧ ((∀ c ∈ rest, Decimal.isDigit c = true) ∨
      ∃ digits further, rest = digits ++ '.' :: further ∧
        (∀ c ∈ digits, Decimal.isDigit c = true) ∧ ∀ c ∈ further, Decimal.isDigit c = true) := by
  generalize same : first :: rest = characters at word
  cases word with
  | keyword reserved =>
      obtain ⟨_, _, spelled, starts, _, _⟩ := keywords_spelled _ reserved
      have parted := same.trans spelled
      cases parted
      rw [not_nameStart_of_digit digit] at starts
      cases starts
  | name starts _ _ =>
      cases same
      rw [not_nameStart_of_digit digit] at starts
      cases starts
  | whole _ all =>
      cases same
      exact ⟨rfl, Or.inl fun c member => all c (List.mem_cons_of_mem _ member)⟩
  | @fraction digits further nonempty all allFurther =>
      cases digits with
      | nil => exact absurd rfl nonempty
      | cons _ digits =>
          cases same
          exact ⟨rfl, Or.inr ⟨digits, further, rfl,
            fun c member => all c (List.mem_cons_of_mem _ member), allFurther⟩⟩
  | notEqual => cases same; cases digit
  | equal => cases same; cases digit
  | symbol listed =>
      cases same
      rw [(symbols_apart _ listed).2.1] at digit
      cases digit
  | unknown isUnknown =>
      cases same
      rw [isUnknown.noDigit] at digit
      cases digit

def Single (c : Char) (kind : Kind) : Prop :=
  (c, kind) ∈ symbols ∨ kind = .invalid ∧ ∀ other, (c, other) ∉ symbols

theorem Word.of_other
    {kind : Kind} {first : Char} {rest : List Char} (word : Word kind (first :: rest))
    (noName : isNameStart first = false) (noDigit : Decimal.isDigit first = false) :
    rest = [] ∧ Single first kind ∨
      first = '<' ∧ rest = ['>'] ∧ kind = .notEqual ∨
      first = '=' ∧ rest = ['='] ∧ kind = .equal := by
  generalize same : first :: rest = characters at word
  cases word with
  | keyword reserved =>
      obtain ⟨_, _, spelled, starts, _, _⟩ := keywords_spelled _ reserved
      have parted := same.trans spelled
      cases parted
      rw [noName] at starts
      cases starts
  | name starts _ _ =>
      cases same
      rw [noName] at starts
      cases starts
  | whole _ all =>
      have digit := all first (same ▸ List.mem_cons_self ..)
      rw [noDigit] at digit
      cases digit
  | @fraction digits further nonempty all _ =>
      cases digits with
      | nil => exact absurd rfl nonempty
      | cons _ digits =>
          cases same
          have digit := all _ (List.mem_cons_self ..)
          rw [noDigit] at digit
          cases digit
  | notEqual =>
      cases same
      exact Or.inr (Or.inl ⟨rfl, rfl, rfl⟩)
  | equal =>
      cases same
      exact Or.inr (Or.inr ⟨rfl, rfl, rfl⟩)
  | symbol listed =>
      cases same
      exact Or.inl ⟨rfl, Or.inl listed⟩
  | unknown isUnknown =>
      cases same
      exact Or.inl ⟨rfl, Or.inr ⟨rfl, isUnknown.noSymbol⟩⟩

theorem Word.ne_nil {kind : Kind} {characters : List Char} (word : Word kind characters) :
    characters ≠ [] := by
  cases word with
  | keyword reserved =>
      obtain ⟨_, _, spelled, _⟩ := keywords_spelled _ reserved
      exact fun empty => absurd (spelled.symm.trans empty) (List.cons_ne_nil _ _)
  | whole nonempty _ => exact nonempty
  | fraction => exact List.append_ne_nil_of_right_ne_nil _ (List.cons_ne_nil _ _)
  | name | notEqual | equal | symbol | unknown => exact List.cons_ne_nil _ _

theorem Single.unique
    {c : Char} {kind other : Kind} (single : Single c kind) (again : Single c other) :
    kind = other := by
  have functional : ∀ entry ∈ symbols, ∀ another ∈ symbols,
      entry.1 = another.1 → entry.2 = another.2 := by decide
  rcases single with listed | ⟨isInvalid, unlisted⟩
  · rcases again with listedAgain | ⟨_, unlistedAgain⟩
    · exact functional _ listed _ listedAgain rfl
    · exact absurd listed (unlistedAgain kind)
  · rcases again with listedAgain | ⟨isInvalidAgain, _⟩
    · exact absurd listedAgain (unlisted other)
    · rw [isInvalid, isInvalidAgain]

/-- The characters of a word decide its kind. -/
theorem Word.unique
    {kind other : Kind} {characters : List Char} (word : Word kind characters)
    (again : Word other characters) : kind = other := by
  cases characters with
  | nil => exact absurd rfl word.ne_nil
  | cons first rest =>
      cases noName : isNameStart first with
      | true => rw [(word.of_nameStart noName).2, (again.of_nameStart noName).2]
      | false =>
          cases noDigit : Decimal.isDigit first with
          | true => rw [(word.of_digit noDigit).1, (again.of_digit noDigit).1]
          | false =>
              have first := word.of_other noName noDigit
              have second := again.of_other noName noDigit
              grind [Single.unique]

theorem Longest.of_length_le
    {kind : Kind} {word text : List Char} (isWord : Word kind word) (begins : word <+: text)
    (longest : ∀ other characters, Word other characters → characters <+: text →
      characters.length ≤ word.length) : Longest kind word text := by
  refine ⟨isWord, begins, ?_⟩
  intro other characters otherWord otherBegins
  refine ⟨longest other characters otherWord otherBegins, ?_⟩
  intro sameLength
  have same : characters = word :=
    (List.prefix_of_prefix_length_le otherBegins begins (Nat.le_of_eq sameLength)).eq_of_length
      sameLength
  subst same
  exact otherWord.unique isWord

/-! ### The lexer takes the longest word -/

theorem length_le_takeWhile
    {accepts : Char → Bool} {taken text : List Char} (all : ∀ c ∈ taken, accepts c = true)
    (begins : taken <+: text) : taken.length ≤ (text.takeWhile accepts).length := by
  obtain ⟨rest, split⟩ := begins
  rw [← split, List.takeWhile_append_of_pos all, List.length_append]
  exact Nat.le_add_right _ _

theorem mem_takeWhile {accepts : Char → Bool} {text : List Char} :
    ∀ c ∈ text.takeWhile accepts, accepts c = true :=
  List.all_eq_true.mp List.all_takeWhile

theorem spell_begins (current : Char) (text : List Char) :
    (spell current text).characters <+: current :: text :=
  ⟨_, spell_split current text⟩

theorem spell_nameStart
    {current : Char} (starts : isNameStart current = true) (text : List Char) :
    Longest (spell current text).kind (spell current text).characters (current :: text) := by
  have spelled : spell current text =
      ⟨.ofWord (String.ofList (current :: text.takeWhile isNamePart)),
        current :: text.takeWhile isNamePart, text.dropWhile isNamePart⟩ := if_pos starts
  apply Longest.of_length_le _ (spell_begins current text)
  · intro other characters word begins
    rw [spelled]
    cases characters with
    | nil => exact Nat.zero_le _
    | cons first rest =>
        obtain ⟨rfl, within⟩ := List.cons_prefix_cons.mp begins
        exact Nat.succ_le_succ (length_le_takeWhile (word.of_nameStart starts).1 within)
  · rw [spelled]
    by_cases reserved :
        ∃ kind, (String.ofList (current :: text.takeWhile isNamePart), kind) ∈ keywords
    · obtain ⟨kind, member⟩ := reserved
      have word := Word.keyword member
      rw [String.toList_ofList] at word
      simp only [ofWord_of_mem member]
      exact word
    · have free := not_exists.mp reserved
      simp only [ofWord_of_free free]
      exact Word.name starts mem_takeWhile free

theorem spell_digit {current : Char} (digit : Decimal.isDigit current = true) (text : List Char) :
    Longest (spell current text).kind (spell current text).characters (current :: text) := by
  have spelled : spell current text = spellNumber current text := by
    rw [spell, if_neg (by rw [not_nameStart_of_digit digit]; exact Bool.false_ne_true),
      if_pos digit]
  have digits : ∀ c ∈ current :: text.takeWhile Decimal.isDigit, Decimal.isDigit c = true :=
    List.forall_mem_cons.mpr ⟨digit, mem_takeWhile⟩
  apply Longest.of_length_le _ (spell_begins current text)
  · intro other characters word begins
    rw [spelled]
    cases characters with
    | nil => exact Nat.zero_le _
    | cons first rest =>
        obtain ⟨rfl, within⟩ := List.cons_prefix_cons.mp begins
        rcases (word.of_digit digit).2 with all | ⟨before, further, split, all, allFurther⟩
        · have short := length_le_takeWhile all within
          unfold spellNumber
          split
          · simp only [List.cons_append, List.length_cons, List.length_append]
            omega
          · exact Nat.succ_le_succ short
        · -- The point is where the digits end, and the other word has no more digits after it.
          obtain ⟨after, rfl⟩ := within
          have stops : (before ++ '.' :: (further ++ after)).dropWhile Decimal.isDigit =
              '.' :: (further ++ after) := by
            rw [List.dropWhile_append_of_pos all, List.dropWhile_cons_of_neg (by decide)]
          have taken : (before ++ '.' :: (further ++ after)).takeWhile Decimal.isDigit =
              before := by
            rw [List.takeWhile_append_of_pos all, List.takeWhile_cons_of_neg (by decide),
              List.append_nil]
          have short := length_le_takeWhile allFurther (List.prefix_append further after)
          rw [split, List.append_assoc, List.cons_append]
          simp only [spellNumber, stops, taken, List.cons_append, List.length_cons,
            List.length_append]
          omega
  · rw [spelled]
    unfold spellNumber
    split
    · exact Word.fraction (List.cons_ne_nil _ _) digits mem_takeWhile
    · exact Word.whole (List.cons_ne_nil _ _) digits

theorem ofSymbol?_eq_some_iff {c : Char} {kind : Kind} (notLess : c ≠ '<') (notEqual : c ≠ '=') :
    Kind.ofSymbol? c = some kind ↔ (c, kind) ∈ symbols := by
  simp only [symbols, List.mem_cons, List.not_mem_nil, or_false, Prod.mk.injEq, notLess, notEqual,
    false_and, false_or]
  unfold Kind.ofSymbol?
  split <;> simp_all [eq_comm]

theorem spellPair_word
    {current second : Char} {pair single : Kind} (both : Word pair [current, second])
    (alone : Word single [current]) (text : List Char) :
    Word (spellPair current text second pair single).kind
      (spellPair current text second pair single).characters := by
  unfold spellPair
  cases text with
  | nil => exact alone
  | cons next rest =>
      by_cases matching : next = second
      · simp only [if_pos matching]
        rw [matching]
        exact both
      · simp only [if_neg matching]
        exact alone

theorem spell_other
    {current : Char} (noName : isNameStart current = false)
    (noDigit : Decimal.isDigit current = false) (noBlank : isBlank current = false)
    (noComment : current ≠ '#') (text : List Char) :
    Longest (spell current text).kind (spell current text).characters (current :: text) := by
  have notName : ¬ isNameStart current = true := by rw [noName]; exact Bool.false_ne_true
  have notDigit : ¬ Decimal.isDigit current = true := by rw [noDigit]; exact Bool.false_ne_true
  apply Longest.of_length_le _ (spell_begins current text)
  · intro other characters word begins
    cases characters with
    | nil => exact Nat.zero_le _
    | cons first rest =>
        obtain ⟨rfl, after, rfl⟩ := List.cons_prefix_cons.mp begins
        rw [spell, if_neg notName, if_neg notDigit]
        rcases word.of_other noName noDigit with
          ⟨rfl, _⟩ | ⟨rfl, rfl, _⟩ | ⟨rfl, rfl, _⟩
        · have shortest (second : Char) (pair single : Kind) :
              1 ≤ (spellPair first ([] ++ after) second pair single).characters.length := by
            unfold spellPair
            grind
          split
          · exact shortest _ _ _
          · split
            · exact shortest _ _ _
            · exact Nat.le_refl _
        · exact Nat.le_refl _
        · exact Nat.le_refl _
  · rw [spell, if_neg notName, if_neg notDigit]
    by_cases less : current = '<'
    · rw [if_pos less, less]
      exact spellPair_word Word.notEqual (Word.symbol (by decide)) text
    · rw [if_neg less]
      by_cases equal : current = '='
      · rw [if_pos equal, equal]
        exact spellPair_word Word.equal (Word.symbol (by decide)) text
      · rw [if_neg equal]
        have table (kind : Kind) : Kind.ofSymbol? current = some kind ↔ (current, kind) ∈ symbols :=
          ofSymbol?_eq_some_iff less equal
        cases found : Kind.ofSymbol? current with
        | some kind => exact Word.symbol ((table kind).mp found)
        | none =>
            refine Word.unknown ⟨noName, noDigit, noBlank, noComment, ?_⟩
            intro kind listed
            rw [(table kind).mpr listed] at found
            cases found

theorem spell_longest
    {current : Char} (noBlank : isBlank current = false) (noComment : current ≠ '#')
    (text : List Char) :
    Longest (spell current text).kind (spell current text).characters (current :: text) := by
  cases noName : isNameStart current with
  | true => exact spell_nameStart noName text
  | false =>
      cases noDigit : Decimal.isDigit current with
      | true => exact spell_digit noDigit text
      | false => exact spell_other noName noDigit noBlank noComment text

/-! ### Gaps -/

/-- White space and comments before the rest of a text. A comment goes on up to the next line break
or the end of the text. -/
inductive Gap : List Char → List Char → Prop where
  | none (rest : List Char) : Gap [] rest
  | blank {c : Char} {gap rest : List Char} (isWhite : isBlank c = true) (others : Gap gap rest) :
      Gap (c :: gap) rest
  | comment {body gap rest : List Char} (unbroken : ∀ c ∈ body, isLineBreak c = false)
      (ends : ∀ c ∈ (gap ++ rest).head?, isLineBreak c = true) (others : Gap gap rest) :
      Gap ('#' :: (body ++ gap)) rest

structure MaximalGap (gap rest : List Char) : Prop where
  isGap : Gap gap rest
  maximal : ∀ longer others, Gap longer others → longer ++ others = gap ++ rest →
    longer.length ≤ gap.length

/-- Two lines that end at the same place of a text are the same. -/
theorem line_unique
    {body other after others : List Char} (unbroken : ∀ c ∈ body, isLineBreak c = false)
    (ends : ∀ c ∈ after.head?, isLineBreak c = true)
    (unbrokenOther : ∀ c ∈ other, isLineBreak c = false)
    (endsOther : ∀ c ∈ others.head?, isLineBreak c = true)
    (same : body ++ after = other ++ others) : body = other ∧ after = others := by
  have line {body after : List Char} (unbroken : ∀ c ∈ body, isLineBreak c = false)
      (ends : ∀ c ∈ after.head?, isLineBreak c = true) :
      (body ++ after).takeWhile (fun c => !isLineBreak c) = body := by
    rw [List.takeWhile_append_of_pos (fun c member => by rw [unbroken c member]; rfl)]
    cases after with
    | nil => exact List.append_nil body
    | cons c after =>
        rw [List.takeWhile_cons_of_neg (by rw [ends c rfl]; exact Bool.false_ne_true),
          List.append_nil]
  have sameBody : body = other := by
    rw [← line unbroken ends, same, line unbrokenOther endsOther]
  subst sameBody
  exact ⟨rfl, List.append_cancel_left same⟩

/-- A gap is maximal if what follows begins neither white space nor a comment. -/
theorem Gap.maximal
    {gap rest : List Char} (isGap : Gap gap rest)
    (stops : ∀ c ∈ rest.head?, isBlank c = false ∧ c ≠ '#') : MaximalGap gap rest := by
  refine ⟨isGap, ?_⟩
  have noBlank : isBlank '#' = false := rfl
  induction isGap with
  | none rest =>
      intro longer others another same
      cases another with
      | none => exact Nat.le_refl _
      | blank isWhite _ =>
          subst same
          rw [(stops _ rfl).1] at isWhite
          cases isWhite
      | comment _ _ _ =>
          subst same
          exact absurd rfl (stops _ rfl).2
  | blank isWhite _ inductionHypothesis =>
      intro longer others another same
      cases another with
      | none => exact Nat.zero_le _
      | blank _ later =>
          obtain ⟨_, sameRest⟩ := List.cons.inj same
          exact Nat.succ_le_succ (inductionHypothesis stops _ _ later sameRest)
      | comment _ _ _ =>
          obtain ⟨isComment, _⟩ := List.cons.inj same
          rw [← isComment, noBlank] at isWhite
          cases isWhite
  | @comment body gap rest unbroken ends _ inductionHypothesis =>
      intro longer others another same
      cases another with
      | none => exact Nat.zero_le _
      | blank isWhite _ =>
          obtain ⟨isComment, _⟩ := List.cons.inj same
          rw [isComment, noBlank] at isWhite
          cases isWhite
      | @comment other later _ unbrokenOther endsOther laterGap =>
          rw [List.cons_append, List.cons_append, List.append_assoc, List.append_assoc] at same
          obtain ⟨_, sameLine⟩ := List.cons.inj same
          obtain ⟨sameBody, sameRest⟩ :=
            line_unique unbrokenOther endsOther unbroken ends sameLine
          have short := inductionHypothesis stops _ _ laterGap sameRest
          simp only [List.length_cons, List.length_append, sameBody]
          omega

/-- What can become of a character between words. -/
theorem Layout.pass?_cases (layout : Layout) (c : Char) :
    layout.inComment = true ∧ isLineBreak c = false ∧ layout.pass? c = some layout ∨
      layout.inComment = true ∧ isLineBreak c = true ∧
        (∃ line, layout.pass? c = some ⟨false, line⟩) ∨
      layout.inComment = false ∧ isBlank c = true ∧
        (∃ line, layout.pass? c = some ⟨false, line⟩) ∨
      layout.inComment = false ∧ c = '#' ∧ layout.pass? c = some ⟨true, layout.line⟩ ∨
      layout.inComment = false ∧ isBlank c = false ∧ c ≠ '#' ∧ layout.pass? c = none := by
  have white := @apart_of_isLineBreak c
  unfold pass?
  grind

inductive Skipped : Bool → List Char → List Char → Prop where
  | gap {gap rest : List Char} (isGap : Gap gap rest) : Skipped false (gap ++ rest) rest
  | line {body gap rest : List Char} (unbroken : ∀ c ∈ body, isLineBreak c = false)
      (ends : ∀ c ∈ (gap ++ rest).head?, isLineBreak c = true) (isGap : Gap gap rest) :
      Skipped true (body ++ (gap ++ rest)) rest

namespace Skipped

theorem blank
    {c : Char} {text rest : List Char} (isWhite : isBlank c = true)
    (skipped : Skipped false text rest) : Skipped false (c :: text) rest := by
  cases skipped with
  | gap isGap => exact gap (Gap.blank isWhite isGap)

theorem comment {text rest : List Char} (skipped : Skipped true text rest) :
    Skipped false ('#' :: text) rest := by
  cases skipped with
  | line unbroken ends isGap =>
      rw [← List.append_assoc, ← List.cons_append]
      exact gap (Gap.comment unbroken ends isGap)

theorem insideLine
    {c : Char} {text rest : List Char} (unbroken : isLineBreak c = false)
    (skipped : Skipped true text rest) : Skipped true (c :: text) rest := by
  cases skipped with
  | line unbrokenRest ends isGap =>
      rw [← List.cons_append]
      exact line (List.forall_mem_cons.mpr ⟨unbroken, unbrokenRest⟩) ends isGap

theorem endOfLine
    {c : Char} {text rest : List Char} (breaks : isLineBreak c = true)
    (skipped : Skipped false text rest) : Skipped true (c :: text) rest := by
  cases skipped with
  | @gap gap _ isGap =>
      have ends : ∀ first ∈ (c :: gap ++ rest).head?, isLineBreak first = true := by
        intro first member
        cases member
        exact breaks
      have isWhite := (apart_of_isLineBreak breaks).1
      exact @line [] (c :: gap) rest (List.forall_mem_nil _) ends (Gap.blank isWhite isGap)

end Skipped

theorem skip_skipped (layout : Layout) (text : List Char) :
    Skipped layout.inComment text (skip layout text).2 := by
  induction text generalizing layout with
  | nil =>
      cases layout.inComment with
      | false => exact Skipped.gap (Gap.none [])
      | true => exact @Skipped.line [] [] [] (List.forall_mem_nil _) nofun (Gap.none [])
  | cons c text inductionHypothesis =>
      rw [skip]
      rcases layout.pass?_cases c with
        ⟨inside, unbroken, passes⟩ | ⟨inside, breaks, line, passes⟩ |
        ⟨outside, isWhite, line, passes⟩ | ⟨outside, rfl, passes⟩ |
        ⟨outside, noBlank, noComment, passes⟩
      · have others := inductionHypothesis layout
        rw [inside] at others
        rw [inside, passes]
        exact others.insideLine unbroken
      · rw [inside, passes]
        exact (inductionHypothesis ⟨false, line⟩).endOfLine breaks
      · rw [outside, passes]
        exact (inductionHypothesis ⟨false, line⟩).blank isWhite
      · rw [outside, passes]
        exact (inductionHypothesis ⟨true, layout.line⟩).comment
      · rw [outside, passes]
        exact @Skipped.gap [] (c :: text) (Gap.none _)

/-- Where the skipping stops a word begins, or the text ends. -/
theorem skip_stops (layout : Layout) (text : List Char) :
    ∀ c ∈ (skip layout text).2.head?, isBlank c = false ∧ c ≠ '#' := by
  induction text generalizing layout with
  | nil => exact nofun
  | cons c text inductionHypothesis =>
      rw [skip]
      rcases layout.pass?_cases c with
        ⟨_, _, passes⟩ | ⟨_, _, _, passes⟩ | ⟨_, _, _, passes⟩ | ⟨_, _, passes⟩ |
        ⟨_, noBlank, noComment, passes⟩
      · rw [passes]
        exact inductionHypothesis _
      · rw [passes]
        exact inductionHypothesis _
      · rw [passes]
        exact inductionHypothesis _
      · rw [passes]
        exact inductionHypothesis _
      · rw [passes]
        intro first member
        cases member
        exact ⟨noBlank, noComment⟩

theorem skip_maximalGap (line : Int) (text : List Char) :
    ∃ gap, text = gap ++ (skip ⟨false, line⟩ text).2 ∧
      MaximalGap gap (skip ⟨false, line⟩ text).2 := by
  have stops := skip_stops ⟨false, line⟩ text
  have skipped := skip_skipped ⟨false, line⟩ text
  generalize (skip ⟨false, line⟩ text).2 = rest at skipped stops
  cases skipped with
  | gap isGap => exact ⟨_, rfl, isGap.maximal stops⟩

/-! ### Texts -/

/-- A text is made of words with gaps before, between and after them. The gaps are as long as they
can be, and each word is the longest at its place. -/
inductive LaidOut : List Char → List Lexed → Prop where
  | last {gap : List Char} (isGap : MaximalGap gap []) : LaidOut gap []
  | word {gap rest : List Char} {token : Lexed} {tokens : List Lexed}
      (isGap : MaximalGap gap (token.lexeme.toList ++ rest))
      (isWord : Longest token.kind token.lexeme.toList (token.lexeme.toList ++ rest))
      (others : LaidOut rest tokens) :
      LaidOut (gap ++ (token.lexeme.toList ++ rest)) (token :: tokens)

theorem LaidOut.words {text : List Char} {tokens : List Lexed} (laidOut : LaidOut text tokens) :
    ∀ token ∈ tokens, Word token.kind token.lexeme.toList := by
  induction laidOut with
  | last isGap => exact List.forall_mem_nil _
  | word _ isWord _ inductionHypothesis =>
      exact List.forall_mem_cons.mpr ⟨isWord.isWord, inductionHypothesis⟩

namespace Lexer

theorem Finishes.laidOut
    {text : List Char} {lexeme : String} {line ending : Int} {tokens : List Lexed}
    (finishes : (facing text lexeme line).Finishes tokens ending) : LaidOut text tokens := by
  obtain ⟨last, reads, ends⟩ := finishes
  generalize begins : facing text lexeme line = lexer at reads
  induction reads generalizing text lexeme line with
  | none lexer =>
      subst begins
      rw [next_facing] at ends
      obtain ⟨gap, split, isGap⟩ := skip_maximalGap line text
      cases skipped : skip ⟨false, line⟩ text with
      | mk start rest =>
          rw [skipped] at ends split isGap
          cases rest with
          | nil =>
              rw [split, List.append_nil]
              exact LaidOut.last isGap
          | cons c rest =>
              have found := congrArg Prod.fst ends
              exact absurd (Except.ok.inj found) (spell_kind_ne_endOfInput c rest)
  | @more lexer after last kind tokens read inside _ inductionHypothesis =>
      subst begins
      obtain ⟨start, c, rest, skipped, spelled, reached⟩ := next_facing_cases read inside
      have others := inductionHypothesis ends reached.symm
      obtain ⟨gap, split, isGap⟩ := skip_maximalGap line text
      have stops := skip_stops ⟨false, line⟩ text
      rw [skipped] at split isGap stops
      obtain ⟨noBlank, noComment⟩ := stops c rfl
      have longest := spell_longest noBlank noComment rest
      have lexeme : (after.lexed kind).lexeme.toList = (spell c rest).characters := by
        rw [reached]
        exact String.toList_ofList
      rw [← spelled, ← lexeme] at longest
      have parts := spell_split c rest
      rw [← lexeme] at parts
      rw [split]
      simp only at isGap
      rw [← parts] at isGap longest ⊢
      exact LaidOut.word isGap longest others

theorem Finishes.failure
    {lexer : Lexer} {tokens : List Lexed} {line : Int} (finishes : lexer.Finishes tokens line) :
    lexer.listing.failure = none := by
  obtain ⟨last, reads, ends⟩ := finishes
  rw [listing_of_reads reads ends]

/-- The tokens of every text are found, the end of the input comes once and last, and nothing of the
text is lost: it is made of the words of the tokens and of gaps. -/
theorem listing_lays_out_text (text : String) :
    ∃ tokens line,
      (ofSource (Source.ofText Source.standardChunkSize text)).listing.tokens =
        tokens ++ [⟨.endOfInput, "", line⟩] ∧
      (ofSource (Source.ofText Source.standardChunkSize text)).listing.failure = none ∧
      (∀ token ∈ tokens, token.kind ≠ .endOfInput) ∧
      LaidOut text.toList tokens := by
  obtain ⟨tokens, line, finishes⟩ := exists_finishes_ofText text
  refine ⟨tokens, line, finishes.listing, finishes.failure, finishes.tokens_ofText.1, ?_⟩
  rw [ofSource_ofText] at finishes
  have withoutBlank := Finishes.of_next_eq (next_facing_blank text.toList "" "" 1) finishes
  exact withoutBlank.laidOut

end Lexer

end ExprWasm.Token
