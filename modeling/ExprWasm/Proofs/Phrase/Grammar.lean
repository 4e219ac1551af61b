import ExprWasm.Proofs.Phrase.Descent

/-! The grammar of programs, over kinds of tokens.

```
program     ::= (definition ';')*
definition  ::= 'def' prototype (conditional | expression)
prototype   ::= IDENTIFIER '(' IDENTIFIER* ')'
conditional ::= 'if' expression 'then' expression 'else' expression
expression  ::= subexpression (comparison subexpression)*
subexpression ::= term (addition term)*
term        ::= factor (multiplication factor)*
factor      ::= '-' expression
              | IDENTIFIER ('(' (expression (',' expression)*)? ')')?
              | '(' expression ')'
              | NUMBER
```

A conditional is a whole body and never an operand, and no production has the kinds of a lone equals
sign or of a character that begins no token. -/

set_option autoImplicit false

namespace ExprWasm.Phrase

open Token (Kind Lexed)

/-- The nonterminals. A repetition has one of its own; `phrase` is an expression, a subexpression or
a term. -/
inductive Nonterminal where
  | program
  | definition
  | prototype
  | names
  | conditional
  | phrase (tier : Tier)
  | more (tier : Tier)
  | factor
  | arguments
  deriving DecidableEq

namespace Nonterminal

abbrev expression : Nonterminal :=
  phrase .comparison

def operandOf : Tier → Nonterminal
  | .comparison => phrase .addition
  | .addition => phrase .multiplication
  | .multiplication => factor

end Nonterminal

inductive Derives : Nonterminal → List Kind → Prop where
  | noDefinition : Derives .program []
  | definitions {first rest : List Kind} :
      Derives .definition first → Derives .program rest →
      Derives .program (first ++ .semicolon :: rest)
  | conditionalDefinition {head body : List Kind} :
      Derives .prototype head → Derives .conditional body →
      Derives .definition (.define :: (head ++ body))
  | expressionDefinition {head body : List Kind} :
      Derives .prototype head → Derives .expression body →
      Derives .definition (.define :: (head ++ body))
  | prototype {parameters : List Kind} :
      Derives .names parameters →
      Derives .prototype
        (.identifier :: .leftParenthesis :: (parameters ++ [.rightParenthesis]))
  | noName : Derives .names []
  | names {rest : List Kind} : Derives .names rest → Derives .names (.identifier :: rest)
  | conditional {condition whenTrue whenFalse : List Kind} :
      Derives .expression condition → Derives .expression whenTrue →
      Derives .expression whenFalse →
      Derives .conditional
        (.ifWord :: (condition ++ .thenWord :: (whenTrue ++ .elseWord :: whenFalse)))
  | phrase {tier : Tier} {first rest : List Kind} :
      Derives (.operandOf tier) first → Derives (.more tier) rest →
      Derives (.phrase tier) (first ++ rest)
  | noMore {tier : Tier} : Derives (.more tier) []
  | more {tier : Tier} {operator : Kind} {right rest : List Kind} :
      tier.has operator = true → Derives (.operandOf tier) right → Derives (.more tier) rest →
      Derives (.more tier) (operator :: (right ++ rest))
  | negated {operand : List Kind} :
      Derives .expression operand → Derives .factor (.minus :: operand)
  | reference : Derives .factor [.identifier]
  | emptyCall : Derives .factor [.identifier, .leftParenthesis, .rightParenthesis]
  | call {arguments : List Kind} :
      Derives .arguments arguments →
      Derives .factor
        (.identifier :: .leftParenthesis :: (arguments ++ [.rightParenthesis]))
  | parenthesized {inner : List Kind} :
      Derives .expression inner →
      Derives .factor (.leftParenthesis :: (inner ++ [.rightParenthesis]))
  | number : Derives .factor [.number]
  | argument {first : List Kind} : Derives .expression first → Derives .arguments first
  | arguments {first rest : List Kind} :
      Derives .expression first → Derives .arguments rest →
      Derives .arguments (first ++ .comma :: rest)

def kinds (tokens : List Lexed) : List Kind :=
  tokens.map Lexed.kind

@[simp]
theorem kinds_cons (token : Lexed) (rest : List Lexed) :
    kinds (token :: rest) = token.kind :: kinds rest := rfl

@[simp]
theorem kinds_append (first second : List Lexed) :
    kinds (first ++ second) = kinds first ++ kinds second :=
  List.map_append

end ExprWasm.Phrase
