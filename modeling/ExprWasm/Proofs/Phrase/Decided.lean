import ExprWasm.Phrase.Program
import ExprWasm.Proofs.Phrase.Grammar

/-! Every expression is accepted or rejected, before any boundary and for a reason.

A list of tokens is complete when a boundary is still ahead in it and its numbers can be read. On
such a list no procedure of the recursive descent runs out of tokens or fails. What it accepts is
derivable in the grammar, and what it has taken when it rejects is the beginning of something
derivable. -/

set_option autoImplicit false

namespace ExprWasm.Phrase

open Token (Kind Lexed)
open ExprWasm.Tree (Node Operator)

structure Splits (tokens taken rest : List Lexed) : Prop where
  split : tokens = taken ++ rest
  free : ∀ token ∈ taken, isBoundary token.kind = false

namespace Splits

theorem nil (tokens : List Lexed) : Splits tokens [] tokens := by
  refine ⟨rfl, ?_⟩
  intro token member
  cases member

theorem cons
    {tokens taken rest : List Lexed} {token : Lexed} (splits : Splits tokens taken rest)
    (inside : isBoundary token.kind = false) : Splits (token :: tokens) (token :: taken) rest := by
  refine ⟨by rw [splits.split, List.cons_append], ?_⟩
  intro other member
  rcases List.mem_cons.mp member with same | later
  · rw [same]
    exact inside
  · exact splits.free other later

theorem append
    {tokens first middle second rest : List Lexed} (before : Splits tokens first middle)
    (after : Splits middle second rest) : Splits tokens (first ++ second) rest := by
  refine ⟨by rw [before.split, after.split, List.append_assoc], ?_⟩
  intro token member
  rcases List.mem_append.mp member with inFirst | inSecond
  · exact before.free token inFirst
  · exact after.free token inSecond

end Splits

def Readable (tokens : List Lexed) : Prop :=
  ∀ token ∈ tokens, token.kind = .number →
    (Number.Decimal.read? token.lexeme.toList).isSome = true

structure Complete (tokens : List Lexed) : Prop where
  boundary : ∃ token ∈ tokens, isBoundary token.kind = true
  readable : Readable tokens

namespace Complete

theorem of_splits
    {tokens taken rest : List Lexed} (complete : Complete tokens)
    (splits : Splits tokens taken rest) : Complete rest := by
  obtain ⟨split, free⟩ := splits
  subst split
  constructor
  · obtain ⟨token, member, bounds⟩ := complete.boundary
    rcases List.mem_append.mp member with inTaken | inRest
    · rw [free token inTaken] at bounds
      cases bounds
    · exact ⟨token, inRest, bounds⟩
  · intro token member
    exact complete.readable token (List.mem_append_right _ member)

theorem ne_nil {tokens : List Lexed} (complete : Complete tokens) : tokens ≠ [] := by
  intro empty
  obtain ⟨token, member, _⟩ := complete.boundary
  rw [empty] at member
  cases member

theorem tail
    {token : Lexed} {rest : List Lexed} (complete : Complete (token :: rest))
    (inside : isBoundary token.kind = false) : Complete rest :=
  complete.of_splits ((Splits.nil rest).cons inside)

end Complete

namespace Outcome

variable {α β : Type}

/-- The phrase was accepted, and the kinds of the tokens taken satisfy `holds`; or it was rejected,
and they can be continued so that they do. -/
def Decided (holds : List Kind → Prop) (tokens : List Lexed) : Outcome α → Prop
  | accepted _ rest => ∃ taken, Splits tokens taken rest ∧ holds (kinds taken)
  | rejected _ rest => ∃ taken missing, Splits tokens taken rest ∧ holds (kinds taken ++ missing)
  | interrupted => False
  | failed _ => False

theorem Decided.accepted_or_rejected
    {outcome : Outcome α} {holds : List Kind → Prop} {tokens : List Lexed}
    (decided : outcome.Decided holds tokens) :
    (∃ value rest, outcome = accepted value rest) ∨
      ∃ diagnostic rest, outcome = rejected diagnostic rest := by
  cases outcome with
  | accepted value rest => exact Or.inl ⟨value, rest, rfl⟩
  | rejected diagnostic rest => exact Or.inr ⟨diagnostic, rest, rfl⟩
  | interrupted => exact decided.elim
  | failed failure => exact decided.elim

theorem Decided.imp
    {outcome : Outcome α} {holds weaker : List Kind → Prop} {tokens : List Lexed}
    (decided : outcome.Decided holds tokens) (implied : ∀ word, holds word → weaker word) :
    outcome.Decided weaker tokens := by
  cases outcome with
  | accepted value rest =>
      obtain ⟨taken, splits, held⟩ := decided
      exact ⟨taken, splits, implied _ held⟩
  | rejected diagnostic rest =>
      obtain ⟨taken, missing, splits, held⟩ := decided
      exact ⟨taken, missing, splits, implied _ held⟩
  | interrupted => exact decided
  | failed failure => exact decided

theorem Decided.after
    {outcome : Outcome α} {holds : List Kind → Prop} {tokens before middle : List Lexed}
    (splits : Splits tokens before middle)
    (decided : outcome.Decided (fun word => holds (kinds before ++ word)) middle) :
    outcome.Decided holds tokens := by
  cases outcome with
  | accepted value rest =>
      obtain ⟨taken, splitsAgain, held⟩ := decided
      refine ⟨before ++ taken, splits.append splitsAgain, ?_⟩
      rw [kinds_append]
      exact held
  | rejected diagnostic rest =>
      obtain ⟨taken, missing, splitsAgain, held⟩ := decided
      refine ⟨before ++ taken, missing, splits.append splitsAgain, ?_⟩
      rw [kinds_append, List.append_assoc]
      exact held
  | interrupted => exact decided
  | failed failure => exact decided

theorem Decided.cons
    {outcome : Outcome α} {holds : List Kind → Prop} {tokens : List Lexed} {token : Lexed}
    (inside : isBoundary token.kind = false)
    (decided : outcome.Decided (fun word => holds (token.kind :: word)) tokens) :
    outcome.Decided holds (token :: tokens) :=
  Decided.after ((Splits.nil tokens).cons inside) decided

/-- One phrase after the other. Should the first be rejected, then `completion` is what would have
to come in place of the second. -/
theorem Decided.andThen
    {outcome : Outcome α} {next : α → List Lexed → Outcome β} {tokens : List Lexed}
    {first both : List Kind → Prop} {completion : List Kind}
    (complete : Complete tokens) (decided : outcome.Decided first tokens)
    (second : List Kind → Prop)
    (decidedNext : ∀ value rest, outcome = accepted value rest → Complete rest →
      (next value rest).Decided second rest)
    (compose : ∀ left right, first left → second right → both (left ++ right))
    (completes : second completion) :
    (outcome.andThen next).Decided both tokens := by
  cases outcome with
  | accepted value rest =>
      obtain ⟨taken, splits, held⟩ := decided
      have following := decidedNext value rest rfl (complete.of_splits splits)
      exact Decided.after splits (following.imp fun word => compose _ word held)
  | rejected diagnostic rest =>
      obtain ⟨taken, missing, splits, held⟩ := decided
      refine ⟨taken, missing ++ completion, splits, ?_⟩
      rw [← List.append_assoc]
      exact compose _ _ held completes
  | interrupted => exact decided
  | failed failure => exact decided

theorem Decided.map
    {outcome : Outcome α} {holds : List Kind → Prop} {tokens : List Lexed}
    (decided : outcome.Decided holds tokens) (change : α → β) :
    (outcome.andThen fun value rest => accepted (change value) rest).Decided holds tokens := by
  cases outcome with
  | accepted value rest => exact decided
  | rejected diagnostic rest => exact decided
  | interrupted => exact decided
  | failed failure => exact decided

theorem decided_accepted
    {holds : List Kind → Prop} (held : holds []) (value : α) (rest : List Lexed) :
    (accepted value rest).Decided holds rest :=
  ⟨[], Splits.nil rest, held⟩

theorem decided_rejected
    {holds : List Kind → Prop} {word : List Kind} (held : holds word)
    (diagnostic : Diagnostic) (rest : List Lexed) :
    (rejected diagnostic rest : Outcome α).Decided holds rest :=
  ⟨[], word, Splits.nil rest, held⟩

end Outcome

theorem expect_decided
    {tokens : List Lexed} (complete : Complete tokens) {kind : Kind} (complaint : Complaint)
    (inside : isBoundary kind = false) :
    (expect kind complaint tokens).Decided (fun word => word = [kind]) tokens := by
  cases tokens with
  | nil => exact absurd rfl complete.ne_nil
  | cons token rest =>
      rw [expect]
      by_cases fits : token.kind = kind
      · rw [if_pos fits]
        rw [← fits] at inside
        refine Outcome.Decided.cons inside (Outcome.decided_accepted ?_ token rest)
        rw [fits]
      · rw [if_neg fits]
        exact ⟨[], [kind], Splits.nil _, rfl⟩

theorem numeral_decided
    {token : Lexed} {rest : List Lexed} (complete : Complete (token :: rest))
    (isNumber : token.kind = .number) :
    (numeral token rest).Decided (Derives .factor) (token :: rest) := by
  have readable := complete.readable token (List.mem_cons_self ..) isNumber
  obtain ⟨decimal, found⟩ := Option.isSome_iff_exists.mp readable
  simp only [numeral, found]
  refine Outcome.Decided.cons (by rw [isNumber]; rfl) (Outcome.decided_accepted ?_ _ rest)
  rw [isNumber]
  exact Derives.number

theorem isBoundary_of_has {tier : Tier} {kind : Kind} (own : tier.has kind = true) :
    isBoundary kind = false := by
  revert own
  cases tier <;> cases kind <;> decide

theorem Derives.phrase_of_operand
    {tier : Tier} {word : List Kind} (derived : Derives (.operandOf tier) word) :
    Derives (.phrase tier) word := by
  have alone := Derives.phrase derived (@Derives.noMore tier)
  rw [List.append_nil] at alone
  exact alone

/-- A number can stand wherever an operand is missing. -/
theorem Derives.operandOf_number (tier : Tier) : Derives (.operandOf tier) [.number] := by
  cases tier with
  | multiplication => exact Derives.number
  | addition =>
      apply Derives.phrase_of_operand
      exact Derives.number
  | comparison =>
      apply Derives.phrase_of_operand
      apply Derives.phrase_of_operand
      exact Derives.number

theorem Derives.expression_number : Derives .expression [.number] :=
  Derives.phrase_of_operand (Derives.operandOf_number .comparison)

structure Decides (bound : Nat) : Prop where
  factor : ∀ tokens, tokens.length < bound → Complete tokens →
    (Descent.factor tokens).outcome.Decided (Derives .factor) tokens
  phrase : ∀ tier tokens, tokens.length < bound → Complete tokens →
    (Descent.phrase tier tokens).outcome.Decided (Derives (.phrase tier)) tokens
  joined : ∀ tier left tokens, tokens.length < bound → Complete tokens →
    (Descent.joined tier left tokens).outcome.Decided (Derives (.more tier)) tokens
  named : ∀ name tokens, tokens.length < bound → Complete tokens →
    (Descent.named name tokens).outcome.Decided
      (fun word => Derives .factor (.identifier :: word)) tokens
  arguments : ∀ name found tokens, tokens.length < bound → Complete tokens →
    (Descent.arguments name found tokens).outcome.Decided
      (fun word => ∃ listed, word = listed ++ [.rightParenthesis] ∧ Derives .arguments listed)
      tokens

namespace Decides

variable {bound : Nat}

theorem named_succ
    (below : Decides bound) (name : String) (tokens : List Lexed)
    (short : tokens.length < bound + 1)
    (complete : Complete tokens) :
    (Descent.named name tokens).outcome.Decided
      (fun word => Derives .factor (.identifier :: word)) tokens := by
  rw [Descent.outcome_named]
  cases tokens with
  | nil => exact absurd rfl complete.ne_nil
  | cons token rest =>
      by_cases opened : token.kind = .leftParenthesis
      · have inside : isBoundary token.kind = false := by rw [opened]; rfl
        have completeRest := complete.tail inside
        simp only [if_pos opened]
        refine Outcome.Decided.cons inside ?_
        rw [opened]
        cases rest with
        | nil => exact absurd rfl completeRest.ne_nil
        | cons first after =>
            by_cases closed : first.kind = .rightParenthesis
            · simp only [if_pos closed]
              refine Outcome.Decided.cons (by rw [closed]; rfl) ?_
              rw [closed]
              exact Outcome.decided_accepted Derives.emptyCall _ after
            · simp only [if_neg closed]
              have shorter : (first :: after).length < bound := by
                simp only [List.length_cons] at short ⊢
                omega
              refine (below.arguments name [] (first :: after) shorter completeRest).imp ?_
              rintro word ⟨listed, same, derived⟩
              rw [same]
              exact Derives.call derived
      · simp only [if_neg opened]
        exact Outcome.decided_accepted Derives.reference _ _

theorem factor_succ
    (below : Decides bound) (tokens : List Lexed) (short : tokens.length < bound + 1)
    (complete : Complete tokens) :
    (Descent.factor tokens).outcome.Decided (Derives .factor) tokens := by
  cases tokens with
  | nil => exact absurd rfl complete.ne_nil
  | cons token rest =>
      have shorter : rest.length < bound := by
        simp only [List.length_cons] at short
        omega
      rw [Descent.outcome_factor_cons]
      split
      · rename_i isName
        have inside : isBoundary token.kind = false := by rw [isName]; rfl
        refine Outcome.Decided.cons inside ?_
        rw [isName]
        exact below.named token.lexeme rest shorter (complete.tail inside)
      · rename_i isNumber
        exact numeral_decided complete isNumber
      · rename_i isMinus
        have inside : isBoundary token.kind = false := by rw [isMinus]; rfl
        have completeRest := complete.tail inside
        refine Outcome.Decided.cons inside ?_
        rw [isMinus]
        have negated := (below.phrase .comparison rest shorter completeRest).imp
          fun _ derived => Derives.negated derived
        exact negated.map _
      · rename_i isOpening
        have inside : isBoundary token.kind = false := by rw [isOpening]; rfl
        have completeRest := complete.tail inside
        refine Outcome.Decided.cons inside ?_
        refine Outcome.Decided.andThen completeRest
          (below.phrase .comparison rest shorter completeRest)
          (fun word => word = [.rightParenthesis]) ?_ ?_ rfl
        · intro node after _ completeAfter
          exact (expect_decided completeAfter .closingMissing rfl).map fun _ => node
        · intro inner closing derived same
          rw [isOpening, same]
          exact Derives.parenthesized derived
      · exact Outcome.decided_rejected Derives.number _ _

theorem operand
    (below : Decides bound) (tier : Tier) (tokens : List Lexed) (short : tokens.length < bound)
    (complete : Complete tokens) :
    (Descent.operand tier tokens).outcome.Decided (Derives (.operandOf tier)) tokens := by
  cases tier with
  | comparison =>
      rw [Descent.outcome_operand_comparison]
      exact below.phrase .addition tokens short complete
  | addition =>
      rw [Descent.outcome_operand_addition]
      exact below.phrase .multiplication tokens short complete
  | multiplication =>
      rw [Descent.outcome_operand_multiplication]
      exact below.factor tokens short complete

theorem joined_succ
    (below : Decides bound) (tier : Tier) (left : Node) (tokens : List Lexed)
    (short : tokens.length < bound + 1) (complete : Complete tokens) :
    (Descent.joined tier left tokens).outcome.Decided (Derives (.more tier)) tokens := by
  cases tokens with
  | nil => exact absurd rfl complete.ne_nil
  | cons token rest =>
      cases own : tier.has token.kind with
      | false =>
          rw [Descent.outcome_joined_of_not_has own]
          exact Outcome.decided_accepted Derives.noMore _ _
      | true =>
          have shorter : rest.length < bound := by
            simp only [List.length_cons] at short
            omega
          have inside := isBoundary_of_has own
          have completeRest := complete.tail inside
          obtain ⟨operator, meant⟩ := tier.exists_operator own
          rw [Descent.outcome_joined_of_has own meant]
          refine Outcome.Decided.cons inside ?_
          refine Outcome.Decided.andThen completeRest
            (below.operand tier rest shorter completeRest) (Derives (.more tier)) ?_ ?_
            Derives.noMore
          · intro right after accepted completeAfter
            have fewer := (Descent.operand tier rest).fewer right after accepted
            exact below.joined tier _ after (Nat.lt_trans fewer shorter) completeAfter
          · intro right others derivedRight derivedOthers
            exact Derives.more own derivedRight derivedOthers

/-- The first operand is as long as the phrase may be; what follows it is shorter. -/
theorem phrase_of_operand
    (below : Decides bound) {tier : Tier} {tokens : List Lexed} (short : tokens.length < bound + 1)
    (complete : Complete tokens)
    (decided : (Descent.operand tier tokens).outcome.Decided (Derives (.operandOf tier)) tokens) :
    (Descent.phrase tier tokens).outcome.Decided (Derives (.phrase tier)) tokens := by
  rw [Descent.outcome_phrase]
  refine Outcome.Decided.andThen complete decided (Derives (.more tier)) ?_ ?_ Derives.noMore
  · intro left rest accepted completeRest
    have fewer := (Descent.operand tier tokens).fewer left rest accepted
    exact below.joined tier left rest (by omega) completeRest
  · intro first others derivedFirst derivedOthers
    exact Derives.phrase derivedFirst derivedOthers

theorem phrase_succ
    (below : Decides bound) (tier : Tier) (tokens : List Lexed) (short : tokens.length < bound + 1)
    (complete : Complete tokens) :
    (Descent.phrase tier tokens).outcome.Decided (Derives (.phrase tier)) tokens := by
  have term : (Descent.phrase .multiplication tokens).outcome.Decided
      (Derives (.phrase .multiplication)) tokens := by
    apply below.phrase_of_operand short complete
    rw [Descent.outcome_operand_multiplication]
    exact below.factor_succ tokens short complete
  have subexpression : (Descent.phrase .addition tokens).outcome.Decided
      (Derives (.phrase .addition)) tokens := by
    apply below.phrase_of_operand short complete
    rw [Descent.outcome_operand_addition]
    exact term
  cases tier with
  | multiplication => exact term
  | addition => exact subexpression
  | comparison =>
      apply below.phrase_of_operand short complete
      rw [Descent.outcome_operand_comparison]
      exact subexpression

theorem arguments_succ
    (below : Decides bound) (name : String) (found : List Node) (tokens : List Lexed)
    (short : tokens.length < bound + 1) (complete : Complete tokens) :
    (Descent.arguments name found tokens).outcome.Decided
      (fun word => ∃ listed, word = listed ++ [.rightParenthesis] ∧ Derives .arguments listed)
      tokens := by
  rw [Descent.outcome_arguments]
  refine Outcome.Decided.andThen complete (below.phrase_succ .comparison tokens short complete)
    (fun word => word = [.rightParenthesis] ∨
      ∃ listed, word = .comma :: (listed ++ [.rightParenthesis]) ∧ Derives .arguments listed)
    ?_ ?_ (Or.inl rfl)
  · intro argument rest accepted completeRest
    have fewer := (Descent.phrase .comparison tokens).fewer argument rest accepted
    cases rest with
    | nil => exact absurd rfl completeRest.ne_nil
    | cons token after =>
        simp only [List.length_cons] at fewer
        by_cases closed : token.kind = .rightParenthesis
        · simp only [if_pos closed]
          refine Outcome.Decided.cons (by rw [closed]; rfl) (Outcome.decided_accepted ?_ _ after)
          rw [closed]
          exact Or.inl rfl
        · by_cases parted : token.kind = .comma
          · have inside : isBoundary token.kind = false := by rw [parted]; rfl
            simp only [if_neg closed, if_pos parted]
            refine Outcome.Decided.cons inside ?_
            refine (below.arguments name _ after (by omega) (completeRest.tail inside)).imp ?_
            rintro word ⟨listed, same, derived⟩
            rw [parted, same]
            exact Or.inr ⟨listed, rfl, derived⟩
          · simp only [if_neg closed, if_neg parted]
            exact Outcome.decided_rejected (Or.inl rfl) _ _
  · intro first others derivedFirst continued
    rcases continued with closing | ⟨listed, same, derivedOthers⟩
    · exact ⟨first, by rw [closing], Derives.argument derivedFirst⟩
    · refine ⟨first ++ .comma :: listed, ?_, Derives.arguments derivedFirst derivedOthers⟩
      rw [same, List.append_assoc, List.cons_append]

end Decides

theorem decides (bound : Nat) : Decides bound := by
  induction bound with
  | zero =>
      exact
        { factor := by intro tokens short; omega
          phrase := by intro tier tokens short; omega
          joined := by intro tier left tokens short; omega
          named := by intro name tokens short; omega
          arguments := by intro name found tokens short; omega }
  | succ bound below =>
      exact
        { factor := below.factor_succ
          phrase := below.phrase_succ
          joined := below.joined_succ
          named := below.named_succ
          arguments := below.arguments_succ }

theorem Descent.expression_decided {tokens : List Lexed} (complete : Complete tokens) :
    (Descent.expression tokens).Decided (Derives .expression) tokens :=
  (decides (tokens.length + 1)).phrase .comparison tokens (Nat.lt_succ_self _) complete

end ExprWasm.Phrase
