import ExprWasm.Text.CodeRange

/-! White space: the Unicode property White_Space, and the trimming of the end of a text. -/

set_option autoImplicit false

namespace ExprWasm.Text

/-- The code points with the property White_Space, in increasing order. -/
def blankRanges : List CodeRange :=
  [⟨0x9, 0xD⟩, ⟨0x20, 0x20⟩, ⟨0x85, 0x85⟩, ⟨0xA0, 0xA0⟩, ⟨0x1680, 0x1680⟩, ⟨0x2000, 0x200A⟩,
    ⟨0x2028, 0x2029⟩, ⟨0x202F, 0x202F⟩, ⟨0x205F, 0x205F⟩, ⟨0x3000, 0x3000⟩]

def isBlank (code : Nat) : Bool :=
  CodeRange.covers blankRanges code

/-- The four information separators, which count as white space only at the end of a message. -/
def isInformationSeparator (code : Nat) : Bool :=
  0x1C ≤ code && code ≤ 0x1F

def trimEnd (text : String) : String :=
  String.ofList
    (text.toList.reverse.dropWhile
      fun c => isBlank c.toNat || isInformationSeparator c.toNat).reverse

end ExprWasm.Text
