/-! Control sequences of terminals, and texts without them.

A control sequence is an escape, an opening bracket, parameters, intermediate characters and one
final character. The three classes of characters are disjoint, so a sequence ends in one way only.
What begins like a sequence and has no final character is none. -/

set_option autoImplicit false

namespace ExprWasm.Text

def isParameter (c : Char) : Bool :=
  0x30 ≤ c.toNat && c.toNat ≤ 0x3F

def isIntermediate (c : Char) : Bool :=
  0x20 ≤ c.toNat && c.toNat ≤ 0x2F

def isFinal (c : Char) : Bool :=
  0x40 ≤ c.toNat && c.toNat ≤ 0x7E

def afterSequence? : List Char → Option (List Char)
  | '\x1b' :: '[' :: body =>
      match (body.dropWhile isParameter).dropWhile isIntermediate with
      | c :: rest => if isFinal c then some rest else none
      | [] => none
  | _ => none

theorem length_lt_of_afterSequence?
    {text rest : List Char} (found : afterSequence? text = some rest) :
    rest.length < text.length := by
  unfold afterSequence? at found
  split at found
  · rename_i body
    split at found
    · rename_i c after dropped
      split at found
      · have inner := (List.dropWhile_suffix isParameter (l := body)).length_le
        have outer :=
          (List.dropWhile_suffix isIntermediate (l := body.dropWhile isParameter)).length_le
        rw [dropped] at outer
        cases found
        simp only [List.length_cons] at outer ⊢
        omega
      · contradiction
    · contradiction
  · contradiction

def dropSequences : List Char → List Char
  | [] => []
  | first :: rest =>
      match _found : afterSequence? (first :: rest) with
      | some after => dropSequences after
      | none => first :: dropSequences rest
termination_by text => text.length
decreasing_by
  · exact length_lt_of_afterSequence? _found
  · simp

def withoutSequences (text : String) : String :=
  String.ofList (dropSequences text.toList)

end ExprWasm.Text
