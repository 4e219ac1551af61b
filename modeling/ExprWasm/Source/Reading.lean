import ExprWasm.Failure
import ExprWasm.Number.Decimal
import ExprWasm.Text.Alphabetic
import ExprWasm.Text.Numeric

/-! What one read of a source delivers, and the classes of characters that the language tells apart.

The two sentinels, the end of the input and the lack of data, belong to no class of characters. -/

set_option autoImplicit false

namespace ExprWasm.Source

inductive Reading (α : Type) where
  | item (value : α)
  | endOfInput
  | noData
  deriving DecidableEq

/-- A Unicode code point. Surrogates are among these, though no source delivers one. -/
abbrev CodePoint := Fin 0x110000

def isSurrogate (code : CodePoint) : Bool :=
  0xD800 ≤ code.val && code.val ≤ 0xDFFF

inductive ReadingKind where
  | character
  | endOfInput
  | noData
  deriving DecidableEq

namespace ReadingKind

def name : ReadingKind → String
  | character => "CHAR"
  | endOfInput => "EOF"
  | noData => "NO_DATA"

end ReadingKind

inductive CharacterClass where
  | alphabetic
  | alphanumeric
  | digit
  | blank
  | lineBreak
  deriving DecidableEq

namespace CharacterClass

def holds (code : Nat) : CharacterClass → Bool
  | alphabetic => Text.isAlphabetic code
  | alphanumeric => Text.isAlphabetic code || Text.isNumeric code
  | digit => 0x30 ≤ code && code ≤ 0x39
  | blank => Text.isBlank code
  | lineBreak => code = 0x0D || code = 0x0A

end CharacterClass

namespace Reading

variable {α : Type}

def kind : Reading α → ReadingKind
  | item _ => .character
  | endOfInput => .endOfInput
  | noData => .noData

def isSentinel : Reading α → Bool
  | item _ => false
  | _ => true

def isIn (reading : Reading CodePoint) (characterClass : CharacterClass) : Bool :=
  match reading with
  | item code => characterClass.holds code.val
  | _ => false

/-- The character that was read; asking a sentinel for one is a fault of the caller. -/
def character : Reading α → Except Failure α
  | item value => .ok value
  | reading => .error (.internal (.noCharacter reading.kind.name))

def text : Reading CodePoint → String
  | item code => "Char(" ++ String.ofList (Text.quotedCodes [code.val]) ++ ")"
  | reading => "Char(" ++ reading.kind.name ++ ")"

def codePoint (c : Char) : CodePoint :=
  ⟨c.toNat, by
    have bound := c.valid
    simp only [Char.toNat]
    rcases bound with low | high
    · have : c.val.toNat < 0xD800 := low
      omega
    · exact high.2⟩

/-- A reading of a given kind. A character is made from a text that holds exactly one; for a
sentinel the text is ignored. -/
def ofText (kind : ReadingKind) (text : Option String) : Except Failure (Reading CodePoint) :=
  match kind with
  | .endOfInput => .ok endOfInput
  | .noData => .ok noData
  | .character =>
      match text.map String.toList with
      | some [c] => .ok (item (codePoint c))
      | _ => .error (.internal (.oneCharacterNeeded text))

end Reading

/-- A value that a reading can be compared with. A character equals the text that consists of it; a
sentinel equals no text. -/
inductive Comparand where
  | reading (reading : Reading CodePoint)
  | text (codes : List Nat)
  deriving DecidableEq

namespace Comparand

def equals : Comparand → Comparand → Bool
  | reading left, reading right => left = right
  | text left, text right => left = right
  | reading (.item code), text codes => codes = [code.val]
  | text codes, reading (.item code) => codes = [code.val]
  | _, _ => false

end Comparand

def isNameStart (c : Char) : Bool :=
  CharacterClass.alphabetic.holds c.toNat

def isNamePart (c : Char) : Bool :=
  CharacterClass.alphanumeric.holds c.toNat

def isBlank (c : Char) : Bool :=
  CharacterClass.blank.holds c.toNat

def isLineBreak (c : Char) : Bool :=
  CharacterClass.lineBreak.holds c.toNat

end ExprWasm.Source
