/-! How alike two texts are, and which of several candidates are most like a word.

The longest block of characters that two texts have in common is found first, then the blocks to the
left and to the right of it. The similarity is the share of the characters that lie in such blocks,
counted in both texts. -/

set_option autoImplicit false

namespace ExprWasm.Text

def sharedLength : List Char → List Char → Nat
  | first :: left, second :: right => if first = second then sharedLength left right + 1 else 0
  | _, _ => 0

structure Block where
  left : Nat
  right : Nat
  size : Nat
  deriving DecidableEq

/-- The longest block that two texts have in common. Among those of the same size it is the one that
begins first in the left text, and then in the right one. -/
def longestBlock (left right : List Char) : Block :=
  (List.range left.length).foldl
    (fun best i =>
      (List.range right.length).foldl
        (fun best j =>
          let size := sharedLength (left.drop i) (right.drop j)
          if best.size < size then ⟨i, j, size⟩ else best)
        best)
    ⟨0, 0, 0⟩

def commonSize (left right : List Char) : Nat :=
  let block := longestBlock left right
  if _proper : 0 < block.size ∧ block.left + block.size ≤ left.length then
    commonSize (left.take block.left) (right.take block.right) + block.size +
      commonSize (left.drop (block.left + block.size)) (right.drop (block.right + block.size))
  else 0
termination_by left.length
decreasing_by
  · have proper :
        0 < (longestBlock left right).size ∧
          (longestBlock left right).left + (longestBlock left right).size ≤ left.length := _proper
    simp only [List.length_take]
    omega
  · have proper :
        0 < (longestBlock left right).size ∧
          (longestBlock left right).left + (longestBlock left right).size ≤ left.length := _proper
    simp only [List.length_drop]
    omega

structure Likeness where
  candidate : String
  shared : Nat
  total : Nat
  deriving DecidableEq

namespace Likeness

/-- The likeness of a candidate to a word. Texts of very different length are not compared. -/
def of (word candidate : String) : Likeness :=
  let left := candidate.toList
  let right := word.toList
  let total := left.length + right.length
  ⟨candidate, if 10 * left.length < 3 * total then 0 else commonSize left right, total⟩

/-- Three fifths of the characters are shared. -/
def isClose (likeness : Likeness) : Bool :=
  3 * likeness.total ≤ 10 * likeness.shared

/-- The order by falling similarity; of equally similar candidates the later in the alphabet is
first. -/
def precedes (left right : Likeness) : Bool :=
  right.shared * left.total < left.shared * right.total ||
    (right.shared * left.total = left.shared * right.total && right.candidate ≤ left.candidate)

end Likeness

def suggestions (word : String) (candidates : List String) : List String :=
  let close := (candidates.map (Likeness.of word)).filter Likeness.isClose
  let best := (close.mergeSort Likeness.precedes).take 3
  (best.map Likeness.candidate).mergeSort fun left right => left ≤ right

end ExprWasm.Text
