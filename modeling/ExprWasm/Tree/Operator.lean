import ExprWasm.Failure

/-! The operators of the expression language. -/

set_option autoImplicit false

namespace ExprWasm.Tree

inductive Operator where
  | plus
  | minus
  | times
  | divide
  | or
  | and
  | less
  | greater
  | equal
  | notEqual
  | negate
  deriving DecidableEq

namespace Operator

def name : Operator → String
  | plus => "PLUS"
  | minus => "MINUS"
  | times => "MUL"
  | divide => "DIV"
  | or => "OR"
  | and => "AND"
  | less => "LESS"
  | greater => "GREATER"
  | equal => "EQUAL"
  | notEqual => "NOT_EQ"
  | negate => "NEG"

def all : List Operator :=
  [plus, minus, times, divide, or, and, less, greater, equal, notEqual, negate]

def ofName? (name : String) : Option Operator :=
  all.find? fun operator => operator.name == name

def ofToken : Token.Kind → Except Failure Operator
  | .plus => .ok plus
  | .minus => .ok minus
  | .star => .ok times
  | .slash => .ok divide
  | .bar => .ok or
  | .ampersand => .ok and
  | .less => .ok less
  | .greater => .ok greater
  | .equal => .ok equal
  | .notEqual => .ok notEqual
  | kind => .error (.internal (.notAnOperator kind))

def mnemonic : Operator → String
  | plus => "f32.add"
  | minus => "f32.sub"
  | times => "f32.mul"
  | divide => "f32.div"
  | or => "i32.or"
  | and => "i32.and"
  | less => "f32.lt"
  | greater => "f32.gt"
  | equal => "f32.eq"
  | notEqual => "f32.ne"
  | negate => "f32.neg"

def symbol : Operator → String
  | plus => "+"
  | minus => "-"
  | times => "*"
  | divide => "/"
  | or => "|"
  | and => "&"
  | less => "<"
  | greater => ">"
  | equal => "=="
  | notEqual => "<>"
  | negate => "-"

end Operator

end ExprWasm.Tree
