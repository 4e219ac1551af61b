import ExprWasm.Proofs.Text.Lines
import ExprWasm.Text.ControlSequence
import ExprWasm.Text.Quoted

/-! Quoted texts are read back.

After a backslash the next character tells how many digits belong to it, so what stands between two
marks has one reading, whatever follows the second mark. All characters of a quoted text are
printable; hence it is on a single line and holds no control sequence. -/

set_option autoImplicit false

namespace ExprWasm.Text

/-! ### Reading -/

def digitValue (digit : Char) : Nat :=
  if digit.isDigit then digit.toNat - 48 else digit.toNat - 87

def hexValue (digits : List Char) : Nat :=
  digits.foldl (fun value digit => 16 * value + digitValue digit) 0

def escapeWidth? (letter : Char) : Option Nat :=
  if letter = 'x' then some 2
  else if letter = 'u' then some 4
  else if letter = 'U' then some 8
  else none

def plainEscape (letter : Char) : Char :=
  if letter = 't' then '\t'
  else if letter = 'n' then '\n'
  else if letter = 'r' then '\r'
  else letter

def readBefore (c : Char) (read : Option (List Char × List Char)) :
    Option (List Char × List Char) :=
  read.map fun parts => (c :: parts.1, parts.2)

def readUpTo? (mark : Char) : List Char → Option (List Char × List Char)
  | [] => none
  | first :: rest =>
      if first = mark then some ([], rest)
      else if first = '\\' then
        match rest with
        | [] => none
        | letter :: others =>
            match escapeWidth? letter with
            | some width =>
                readBefore (Char.ofNat (hexValue (others.take width)))
                  (readUpTo? mark (others.drop width))
            | none => readBefore (plainEscape letter) (readUpTo? mark others)
      else readBefore first (readUpTo? mark rest)
termination_by text => text.length
decreasing_by
  · simp only [List.length_cons, List.length_drop]
    omega
  · simp only [List.length_cons]
    omega
  · simp only [List.length_cons]
    omega

theorem readUpTo?_mark (mark : Char) (rest : List Char) :
    readUpTo? mark (mark :: rest) = some ([], rest) := by
  rw [readUpTo?.eq_def]
  exact if_pos rfl

theorem readUpTo?_literal {mark c : Char} (beside : c ≠ mark) (literal : c ≠ '\\')
    (rest : List Char) :
    readUpTo? mark (c :: rest) = readBefore c (readUpTo? mark rest) := by
  rw [readUpTo?.eq_def]
  simp only [if_neg beside, if_neg literal]

def unquote? : List Char → Option (String × List Char)
  | [] => none
  | mark :: rest => (readUpTo? mark rest).map fun parts => (String.ofList parts.1, parts.2)

/-! ### One character -/

theorem digitValue_digitChar {value : Nat} (digit : value < 16) :
    digitValue (Nat.digitChar value) = value := by
  have each : ∀ value < 16, digitValue (Nat.digitChar value) = value := by decide
  exact each value digit

theorem hexValue_hexDigits {width value : Nat} (fits : value < Nat.pow 16 width) :
    hexValue (hexDigits width value) = value := by
  induction width generalizing value with
  | zero => exact (Nat.lt_one_iff.mp fits).symm
  | succ width inductionHypothesis =>
      have higher : value / 16 < Nat.pow 16 width := by
        apply Nat.div_lt_of_lt_mul
        rw [Nat.mul_comm]
        exact fits
      have last := digitValue_digitChar (Nat.mod_lt value (by decide : 0 < 16))
      have first := inductionHypothesis higher
      rw [hexDigits, hexValue, List.foldl_append]
      rw [hexValue] at first
      rw [first, List.foldl_cons, List.foldl_nil, last]
      exact Nat.div_add_mod value 16

theorem length_hexDigits (width value : Nat) : (hexDigits width value).length = width := by
  induction width generalizing value with
  | zero => rfl
  | succ width inductionHypothesis =>
      rw [hexDigits, List.length_append, inductionHypothesis, List.length_singleton]

def IsMark (mark : Char) : Prop :=
  mark = apostrophe ∨ mark = doubleMark

theorem quotationMark_isMark (codes : List Nat) : IsMark (quotationMark codes) := by
  unfold quotationMark
  split
  · exact Or.inr rfl
  · exact Or.inl rfl

theorem hexDigits_printable (width value : Nat) :
    ∀ c ∈ hexDigits width value, isUnprintable c.toNat = false := by
  have each : ∀ digit < 16, isUnprintable (Nat.digitChar digit).toNat = false := by decide
  induction width generalizing value with
  | zero => exact List.forall_mem_nil _
  | succ width inductionHypothesis =>
      rw [hexDigits, List.forall_mem_append]
      exact ⟨inductionHypothesis _,
        List.forall_mem_singleton.mpr (each _ (Nat.mod_lt value (by decide)))⟩

inductive WrittenAs (mark c : Char) : List Char → Prop where
  | letter {sign : Char} (plain : escapeWidth? sign = none) (stands : plainEscape sign = c)
      (printable : isUnprintable sign.toNat = false) : WrittenAs mark c ['\\', sign]
  | digits {sign : Char} {width : Nat} (wide : escapeWidth? sign = some width)
      (fits : c.toNat < Nat.pow 16 width) (printable : isUnprintable sign.toNat = false) :
      WrittenAs mark c ('\\' :: sign :: hexDigits width c.toNat)
  | itself (beside : c ≠ mark) (literal : c ≠ '\\') (printable : isUnprintable c.toNat = false) :
      WrittenAs mark c [c]

theorem WrittenAs.printable {mark c : Char} {text : List Char} (written : WrittenAs mark c text) :
    ∀ shown ∈ text, isUnprintable shown.toNat = false := by
  have backslash : isUnprintable '\\'.toNat = false := rfl
  cases written with
  | letter _ _ sign =>
      exact List.forall_mem_cons.mpr ⟨backslash, List.forall_mem_singleton.mpr sign⟩
  | digits _ _ sign =>
      exact List.forall_mem_cons.mpr
        ⟨backslash, List.forall_mem_cons.mpr ⟨sign, hexDigits_printable _ _⟩⟩
  | itself _ _ printable => exact List.forall_mem_singleton.mpr printable

section Mark

variable {mark : Char} (isMark : IsMark mark)

include isMark

theorem IsMark.ne_backslash : '\\' ≠ mark := by
  rcases isMark with rfl | rfl <;> decide

theorem IsMark.stands_for_itself : escapeWidth? mark = none ∧ plainEscape mark = mark := by
  rcases isMark with rfl | rfl <;> decide

theorem IsMark.printable : isUnprintable mark.toNat = false := by
  rcases isMark with rfl | rfl <;> rfl

theorem escaped_writtenAs (c : Char) : WrittenAs mark c (escaped mark c.toNat) := by
  have letter (other sign : Char) (code : c.toNat = other.toNat) (plain : escapeWidth? sign = none)
      (stands : plainEscape sign = other) (printable : isUnprintable sign.toNat = false) :
      WrittenAs mark c ['\\', sign] := by
    have same : other = c := (Char.toNat_inj.mp code).symm
    exact WrittenAs.letter plain (stands.trans same) printable
  -- The mark is asked for first: it has its backslash only where it is the mark in use.
  unfold escaped
  by_cases atMark : c.toNat = mark.toNat
  · rw [if_pos atMark]
    exact letter mark mark atMark isMark.stands_for_itself.1 isMark.stands_for_itself.2
      isMark.printable
  rw [if_neg atMark]
  by_cases backslash : c.toNat = 0x5C
  · rw [if_pos backslash]
    exact letter '\\' '\\' backslash rfl rfl rfl
  rw [if_neg backslash]
  by_cases tabulator : c.toNat = 0x09
  · rw [if_pos tabulator]
    exact letter '\t' 't' tabulator rfl rfl rfl
  rw [if_neg tabulator]
  by_cases lineFeed : c.toNat = 0x0A
  · rw [if_pos lineFeed]
    exact letter '\n' 'n' lineFeed rfl rfl rfl
  rw [if_neg lineFeed]
  by_cases carriageReturn : c.toNat = 0x0D
  · rw [if_pos carriageReturn]
    exact letter '\r' 'r' carriageReturn rfl rfl rfl
  rw [if_neg carriageReturn]
  by_cases unprintable : isUnprintable c.toNat = true
  · rw [if_pos unprintable]
    by_cases two : c.toNat < 0x100
    · rw [if_pos two]
      exact WrittenAs.digits rfl two rfl
    rw [if_neg two]
    by_cases four : c.toNat < 0x10000
    · rw [if_pos four]
      exact WrittenAs.digits rfl four rfl
    rw [if_neg four]
    have eight : c.toNat < Nat.pow 16 8 := c.val.toNat_lt
    exact WrittenAs.digits rfl eight rfl
  · rw [if_neg unprintable, Char.ofNat_toNat]
    exact WrittenAs.itself (fun same => atMark (congrArg Char.toNat same))
      (fun same => backslash (congrArg Char.toNat same)) (Bool.eq_false_iff.mpr unprintable)

/-- In whatever way a character is written, it is read back. -/
theorem readUpTo?_of_writtenAs
    {c : Char} {text : List Char} (written : WrittenAs mark c text) (rest : List Char) :
    readUpTo? mark (text ++ rest) = readBefore c (readUpTo? mark rest) := by
  cases written with
  | letter plain stands _ =>
      rw [List.cons_append, List.singleton_append, readUpTo?, if_neg isMark.ne_backslash,
        if_pos rfl]
      simp only [plain, stands]
  | @digits sign width wide fits _ =>
      have size := length_hexDigits width c.toNat
      rw [List.cons_append, List.cons_append, readUpTo?, if_neg isMark.ne_backslash, if_pos rfl]
      simp only [wide, List.take_left' size, List.drop_left' size, hexValue_hexDigits fits,
        Char.ofNat_toNat]
  | itself beside literal _ => exact readUpTo?_literal beside literal rest

theorem readUpTo?_text (text rest : List Char) :
    readUpTo? mark ((text.map Char.toNat).flatMap (escaped mark) ++ mark :: rest) =
      some (text, rest) := by
  induction text with
  | nil => exact readUpTo?_mark mark rest
  | cons c text inductionHypothesis =>
      rw [List.map_cons, List.flatMap_cons, List.append_assoc,
        readUpTo?_of_writtenAs isMark (escaped_writtenAs isMark c), inductionHypothesis]
      rfl

end Mark

/-- A quoted text is read back, whatever follows it. -/
theorem unquote?_quoted (text : String) (rest : List Char) :
    unquote? ((quoted text).toList ++ rest) = some (text, rest) := by
  have isMark := quotationMark_isMark (text.toList.map Char.toNat)
  rw [quoted, String.toList_ofList, quotedCodes, List.cons_append, List.cons_append,
    List.append_assoc, List.singleton_append, unquote?, readUpTo?_text isMark]
  exact congrArg (fun text => some (text, rest)) String.ofList_toList

/-! ### Printable texts -/

def Printable (text : String) : Prop :=
  ∀ c ∈ text.toList, isUnprintable c.toNat = false

theorem Printable.of_all
    {text : String} (all : (text.toList.all fun c => !isUnprintable c.toNat) = true) :
    Printable text := by
  intro c member
  have shown := List.all_eq_true.mp all c member
  exact Bool.not_eq_true' _ ▸ shown

theorem Printable.append
    {first second : String} (before : Printable first) (after : Printable second) :
    Printable (first ++ second) := by
  intro c member
  rw [String.toList_append] at member
  rcases List.mem_append.mp member with inFirst | inSecond
  · exact before c inFirst
  · exact after c inSecond

theorem Printable.not_mem
    {text : String} (printable : Printable text) {c : Char}
    (unprintable : isUnprintable c.toNat = true) : c ∉ text.toList := by
  intro member
  rw [printable c member] at unprintable
  cases unprintable

theorem Printable.unbroken {text : String} (printable : Printable text) : Unbroken text :=
  printable.not_mem rfl

/-- The characters of ASCII between the two ranges of control characters are printable. -/
theorem isUnprintable_ascii {code : Nat} (low : 0x20 ≤ code) (high : code < 0x7F) :
    isUnprintable code = false := by
  unfold isUnprintable unprintableRanges
  rw [CodeRange.covers, if_neg (Nat.not_lt_zero code), if_neg (Nat.not_le.mpr low),
    CodeRange.covers, if_pos high]

theorem natural_printable (value : Nat) : Printable (toString value) := by
  intro c member
  change c ∈ (Nat.repr value).toList at member
  rw [Nat.toList_repr] at member
  have digit := Nat.isDigit_of_mem_toDigits (by decide) (by decide) member
  simp only [Char.isDigit, Bool.and_eq_true, decide_eq_true_eq] at digit
  have low : 48 ≤ c.toNat := digit.1
  have high : c.toNat ≤ 57 := digit.2
  exact isUnprintable_ascii (by omega) (by omega)

theorem integer_printable (value : Int) : Printable (toString value) := by
  cases value with
  | ofNat value => exact natural_printable value
  | negSucc value =>
      exact (Printable.of_all rfl : Printable "-").append (natural_printable (value + 1))

theorem quoted_printable (text : String) : Printable (quoted text) := by
  have isMark := quotationMark_isMark (text.toList.map Char.toNat)
  intro c member
  rw [quoted, String.toList_ofList, quotedCodes] at member
  rcases List.mem_append.mp member with before | last
  · rcases List.mem_cons.mp before with rfl | inside
    · exact isMark.printable
    · obtain ⟨code, found, shown⟩ := List.mem_flatMap.mp inside
      obtain ⟨original, _, rfl⟩ := List.mem_map.mp found
      exact (escaped_writtenAs isMark original).printable c shown
  · cases List.mem_singleton.mp last
    exact isMark.printable

theorem afterSequence?_eq_none {first : Char} (plain : first ≠ '\x1b') (rest : List Char) :
    afterSequence? (first :: rest) = none := by
  unfold afterSequence?
  split
  · rename_i body begins
    cases begins
    exact absurd rfl plain
  · rfl

theorem dropSequences_eq_self {text : List Char} (plain : '\x1b' ∉ text) :
    dropSequences text = text := by
  induction text with
  | nil => rw [dropSequences]
  | cons first rest inductionHypothesis =>
      have other : first ≠ '\x1b' := fun same => plain (same ▸ List.mem_cons_self ..)
      have later : '\x1b' ∉ rest := fun member => plain (List.mem_cons_of_mem _ member)
      rw [dropSequences]
      split
      · rename_i after found
        rw [afterSequence?_eq_none other] at found
        cases found
      · rw [inductionHypothesis later]

/-- A printable text has no control sequences to lose. -/
theorem Printable.withoutSequences {text : String} (printable : Printable text) :
    withoutSequences text = text := by
  have plain : '\x1b' ∉ text.toList := printable.not_mem rfl
  rw [Text.withoutSequences, dropSequences_eq_self plain, String.ofList_toList]

end ExprWasm.Text
