/-! Sets of code points as increasing lists of closed ranges.

Every character class of the language is given by such a list. Membership walks the list and stops
at the first range that lies wholly above the code point, so that the common characters, which have
small code points, are decided at once. -/

set_option autoImplicit false

namespace ExprWasm.Text

structure CodeRange where
  first : Nat
  last : Nat
  deriving DecidableEq

namespace CodeRange

def covers : List CodeRange → Nat → Bool
  | [], _ => false
  | range :: higher, code =>
      if code < range.first then false
      else if code ≤ range.last then true
      else covers higher code

/-- Every covered code point lies in one of the ranges, whatever their order. -/
theorem exists_range_of_covers
    {ranges : List CodeRange} {code : Nat} (covered : covers ranges code = true) :
    ∃ range ∈ ranges, range.first ≤ code ∧ code ≤ range.last := by
  induction ranges with
  | nil => simp [covers] at covered
  | cons range higher inductionHypothesis =>
      unfold covers at covered
      split at covered
      · contradiction
      · split at covered
        · exact ⟨range, List.mem_cons_self, by omega, by omega⟩
        · obtain ⟨found, member, bounds⟩ := inductionHypothesis covered
          exact ⟨found, List.mem_cons_of_mem _ member, bounds⟩

end CodeRange

end ExprWasm.Text
