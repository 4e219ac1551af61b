import ExprWasm.Text.Unprintable

/-! Quoted texts: a text between quotation marks on a single line.

The mark is the apostrophe, unless the text holds an apostrophe and no double quotation mark. The
mark in use and the backslash are written after a backslash; a tabulator, line feed and carriage
return are written `\t`, `\n` and `\r`; every other unprintable character is written in hexadecimal
with two, four or eight digits, whichever is the first that is wide enough. All else stands for
itself. -/

set_option autoImplicit false

namespace ExprWasm.Text

def apostrophe : Char := '\x27'

def doubleMark : Char := '\x22'

def hexDigits : (width : Nat) → (value : Nat) → List Char
  | 0, _ => []
  | width + 1, value => hexDigits width (value / 16) ++ [Nat.digitChar (value % 16)]

def escaped (mark : Char) (code : Nat) : List Char :=
  if code = mark.toNat then ['\\', mark]
  else if code = 0x5C then ['\\', '\\']
  else if code = 0x09 then ['\\', 't']
  else if code = 0x0A then ['\\', 'n']
  else if code = 0x0D then ['\\', 'r']
  else if isUnprintable code then
    if code < 0x100 then '\\' :: 'x' :: hexDigits 2 code
    else if code < 0x10000 then '\\' :: 'u' :: hexDigits 4 code
    else '\\' :: 'U' :: hexDigits 8 code
  else [Char.ofNat code]

def quotationMark (codes : List Nat) : Char :=
  if codes.contains apostrophe.toNat && !codes.contains doubleMark.toNat then doubleMark
  else apostrophe

/-- A sequence of code points, surrogates among them, in quoted form. -/
def quotedCodes (codes : List Nat) : List Char :=
  let mark := quotationMark codes
  mark :: codes.flatMap (escaped mark) ++ [mark]

def quoted (text : String) : String :=
  String.ofList (quotedCodes (text.toList.map Char.toNat))

end ExprWasm.Text
