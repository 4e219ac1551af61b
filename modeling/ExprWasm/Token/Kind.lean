/-! The kinds of token, with the tables that single words and characters are looked up in. -/

set_option autoImplicit false

namespace ExprWasm.Token

/-- What a token is. `noToken` is the kind before anything was read, and that of a lone equals sign;
`invalid` is that of a character that begins no token. -/
inductive Kind where
  | endOfInput
  | noToken
  | invalid
  | identifier
  | number
  | define
  | ifWord
  | thenWord
  | elseWord
  | leftParenthesis
  | rightParenthesis
  | comma
  | semicolon
  | plus
  | minus
  | star
  | slash
  | bar
  | ampersand
  | less
  | greater
  | equal
  | notEqual
  deriving DecidableEq

namespace Kind

def name : Kind → String
  | endOfInput => "EOF"
  | noToken => "NONE"
  | invalid => "INVALID_CHAR"
  | identifier => "IDENTIFIER"
  | number => "NUMBER"
  | define => "DEFINE"
  | ifWord => "IF"
  | thenWord => "THEN"
  | elseWord => "ELSE"
  | leftParenthesis => "LPAR"
  | rightParenthesis => "RPAR"
  | comma => "COMMA"
  | semicolon => "SEMICOLON"
  | plus => "PLUS"
  | minus => "MINUS"
  | star => "STAR"
  | slash => "SLASH"
  | bar => "OR"
  | ampersand => "AND"
  | less => "LESS"
  | greater => "GREATER"
  | equal => "EQUAL"
  | notEqual => "NOT_EQ"

def all : List Kind :=
  [endOfInput, noToken, invalid, identifier, number, define, ifWord, thenWord, elseWord,
    leftParenthesis, rightParenthesis, comma, semicolon, plus, minus, star, slash, bar, ampersand,
    less, greater, equal, notEqual]

def ofName? (name : String) : Option Kind :=
  all.find? fun kind => kind.name == name

def ofKeyword? (word : String) : Option Kind :=
  if word = "def" then some define
  else if word = "if" then some ifWord
  else if word = "then" then some thenWord
  else if word = "else" then some elseWord
  else none

def ofWord (word : String) : Kind :=
  (ofKeyword? word).getD identifier

/-- The kind of a character that is a token by itself, whatever follows it. -/
def ofSymbol? : Char → Option Kind
  | '(' => some leftParenthesis
  | ')' => some rightParenthesis
  | '>' => some greater
  | '*' => some star
  | '-' => some minus
  | '/' => some slash
  | ';' => some semicolon
  | ',' => some comma
  | '+' => some plus
  | '|' => some bar
  | '&' => some ampersand
  | _ => none

def isAddition (kind : Kind) : Bool :=
  kind = plus || kind = minus || kind = bar

def isMultiplication (kind : Kind) : Bool :=
  kind = star || kind = slash || kind = ampersand

def isComparison (kind : Kind) : Bool :=
  kind = less || kind = greater || kind = equal || kind = notEqual

/-- How strongly a kind binds as a binary operator; zero if it is none. -/
def precedence (kind : Kind) : Nat :=
  if kind.isMultiplication then 3
  else if kind.isAddition then 2
  else if kind.isComparison then 1
  else 0

end Kind

end ExprWasm.Token
