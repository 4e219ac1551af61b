/-! Texts that are written line by line, and their lines. -/

set_option autoImplicit false

namespace ExprWasm.Text

def splitLines : List Char → List (List Char)
  | [] => []
  | c :: rest =>
      if c = '\n' then [] :: splitLines rest
      else
        match splitLines rest with
        | [] => [[c]]
        | line :: others => (c :: line) :: others

def linesOf (text : String) : List String :=
  (splitLines text.toList).map String.ofList

def Unbroken (text : String) : Prop :=
  '\n' ∉ text.toList

instance (text : String) : Decidable (Unbroken text) :=
  inferInstanceAs (Decidable ('\n' ∉ text.toList))

theorem Unbroken.append
    {first second : String} (before : Unbroken first) (after : Unbroken second) :
    Unbroken (first ++ second) := by
  intro member
  rw [String.toList_append] at member
  rcases List.mem_append.mp member with inFirst | inSecond
  · exact before inFirst
  · exact after inSecond

theorem Unbroken.join {texts : List String} (each : ∀ text ∈ texts, Unbroken text) :
    Unbroken (String.join texts) := by
  induction texts with
  | nil => exact List.not_mem_nil
  | cons text texts inductionHypothesis =>
      rcases List.forall_mem_cons.mp each with ⟨first, others⟩
      rw [String.join_cons]
      exact first.append (inductionHypothesis others)

theorem splitLines_append {line : List Char} (unbroken : '\n' ∉ line) (rest : List Char) :
    splitLines (line ++ '\n' :: rest) = line :: splitLines rest := by
  induction line with
  | nil =>
      rw [List.nil_append, splitLines]
      rfl
  | cons c line inductionHypothesis =>
      have other : c ≠ '\n' := fun same => unbroken (same ▸ List.mem_cons_self ..)
      have later : '\n' ∉ line := fun member => unbroken (List.mem_cons_of_mem _ member)
      rw [List.cons_append, splitLines, if_neg other, inductionHypothesis later]

theorem linesOf_append {line : String} (unbroken : Unbroken line) (rest : String) :
    linesOf (line ++ "\n" ++ rest) = line :: linesOf rest := by
  have apart : (line ++ "\n" ++ rest).toList = line.toList ++ '\n' :: rest.toList := by
    rw [String.toList_append, String.toList_append, List.append_assoc]
    rfl
  rw [linesOf, apart, splitLines_append unbroken, List.map_cons, String.ofList_toList]
  rfl

/-- Texts that are written on lines of their own are the lines of what is written. -/
theorem linesOf_join
    {texts : List String} (unbroken : ∀ text ∈ texts, Unbroken text) (rest : String) :
    linesOf (String.join (texts.map fun text => text ++ "\n") ++ rest) = texts ++ linesOf rest := by
  induction texts with
  | nil =>
      rw [List.map_nil, List.nil_append]
      exact congrArg linesOf (String.empty_append)
  | cons text texts inductionHypothesis =>
      rcases List.forall_mem_cons.mp unbroken with ⟨first, others⟩
      rw [List.map_cons, String.join_cons, String.append_assoc, linesOf_append first,
        inductionHypothesis others, List.cons_append]

end ExprWasm.Text
