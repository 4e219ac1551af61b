import ExprWasm.Token.Kind
import ExprWasm.Text.Quoted

/-! Tokens with their text and line. -/

set_option autoImplicit false

namespace ExprWasm.Token

structure Lexed where
  kind : Kind
  lexeme : String
  line : Int
  deriving DecidableEq

namespace Lexed

def row (token : Lexed) : String :=
  token.kind.name ++ " " ++ Text.quoted token.lexeme ++ " (line " ++ toString token.line ++ ")"

end Lexed

end ExprWasm.Token
