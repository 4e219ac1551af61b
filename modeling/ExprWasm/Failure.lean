import ExprWasm.Diagnostic
import ExprWasm.Text.Blank
import ExprWasm.Text.Quoted
import ExprWasm.Token.Kind

/-! Everything that can end an operation early, and the wording of it.

Syntax errors are not among these: they are collected as diagnostics. A failure is a source that is
not text, a step of the environment that did not work, an assembler that refused a module, or a
breach of an internal rule of the compiler. -/

set_option autoImplicit false

namespace ExprWasm

/-- A breach of a rule that holds inside the compiler whatever the input. -/
inductive InternalFault where
  /-- A reading was to be made from a text that is not one character long. -/
  | oneCharacterNeeded (text : Option String)
  /-- The end of the input, or missing data, was asked for its character. -/
  | noCharacter (reading : String)
  /-- A token that is no binary operator was asked for its operator. -/
  | notAnOperator (kind : Token.Kind)
  | other (message : String)
  deriving DecidableEq

namespace InternalFault

def message : InternalFault → String
  | oneCharacterNeeded none => "Char needs exactly one character, got None"
  | oneCharacterNeeded (some text) =>
      "Char needs exactly one character, got " ++ Text.quoted text
  | noCharacter reading => "unable to convert " ++ reading ++ " into a character"
  | notAnOperator kind => "Unexpected token " ++ kind.name
  | other message => message

end InternalFault

inductive SystemCause where
  | notFound
  | permission
  | notDirectory
  | isDirectory
  | other
  deriving DecidableEq

namespace SystemCause

def ofNumber (number : Int) : SystemCause :=
  if number = 2 then notFound
  else if number = 1 || number = 13 then permission
  else if number = 20 then notDirectory
  else if number = 21 then isDirectory
  else other

end SystemCause

structure SystemFailure where
  cause : SystemCause
  /-- The error number, if the environment gave one. -/
  number : Option Int
  text : String
  /-- The file or program that the operation was about. -/
  subject : Option String
  deriving DecidableEq

namespace SystemFailure

def ofText (text : String) : SystemFailure :=
  ⟨.other, none, text, none⟩

def ofNumber (number : Int) (text : String) (subject : Option String) : SystemFailure :=
  ⟨.ofNumber number, some number, text, subject⟩

def notFound (path : String) : SystemFailure :=
  ofNumber 2 "No such file or directory" (some path)

def notDirectory (path : String) : SystemFailure :=
  ofNumber 20 "Not a directory" (some path)

def isDirectory (path : String) : SystemFailure :=
  ofNumber 21 "Is a directory" (some path)

def nameTooLong (path : String) : SystemFailure :=
  ofNumber 36 "File name too long" (some path)

def permissionDenied (program : String) : SystemFailure :=
  ofNumber 13 "Permission denied" (some program)

def notExecutable (program : String) : SystemFailure :=
  ofNumber 8 "Exec format error" (some program)

def message (failure : SystemFailure) : String :=
  match failure.number with
  | none => failure.text
  | some number =>
      "[Errno " ++ toString number ++ "] " ++ failure.text ++
        match failure.subject with
        | none => ""
        | some subject => ": " ++ Text.quoted subject

end SystemFailure

structure AssemblerFailure where
  summary : String
  command : String := ""
  output : String := ""
  errorOutput : String := ""
  /-- The exit status, if the assembler ran to its end. -/
  status : Option Int := none
  deriving DecidableEq

namespace AssemblerFailure

/-- The summary, the command line if there is one, and what the assembler wrote about it without the
white space at its end. -/
def message (failure : AssemblerFailure) : String :=
  "\n".intercalate
    ([failure.summary] ++
      (if failure.command.isEmpty then [] else ["command: " ++ failure.command]) ++
      (if failure.errorOutput.isEmpty then [] else [Text.trimEnd failure.errorOutput]))

end AssemblerFailure

inductive Failure where
  /-- The bytes of a source are not UTF-8 from the given offset on. -/
  | undecodable (offset : Int) (reason : String)
  /-- A text holds surrogates from the given position on, which have no bytes. -/
  | unencodable (start : Nat) (first : Nat) (count : Nat)
  | internal (fault : InternalFault)
  /-- A module was demanded of a program with syntax errors. -/
  | rejected (report : String) (diagnostics : List Diagnostic)
  | assembler (failure : AssemblerFailure)
  /-- A failure of the compiler of no particular kind. -/
  | general (message : String)
  | system (failure : SystemFailure)
  /-- A tree holds a node of a kind that has no instructions. -/
  | unemittable (nodeKind : String)
  /-- A node of a kind that has no name was to be exported. -/
  | unnamedNode (nodeKind : String)
  /-- A path without a file name was to be given another suffix. -/
  | namelessPath (path : String)
  /-- A path holds the null character, so that no file can be asked for by it. -/
  | nullInPath
  /-- A diagnostic was asked for at a position that has none. -/
  | position (fault : Diagnostic.PositionFault)
  /-- An operand was taken from an empty stack. -/
  | emptyStack
  /-- A number was to be read from a text that denotes none. -/
  | notANumber (text : String)
  /-- A failure from outside the compiler. -/
  | unexpected (message : String)
  deriving DecidableEq

namespace Failure

def message : Failure → String
  | undecodable offset reason => "invalid UTF-8 at byte " ++ toString offset ++ ": " ++ reason
  | unencodable start first count =>
      "'utf-8' codec can't encode character" ++
        (if count = 1 then
          " " ++ String.ofList (Text.quotedCodes [first]) ++ " in position " ++ toString start
        else "s in position " ++ toString start ++ "-" ++ toString (start + count - 1)) ++
        ": surrogates not allowed"
  | internal fault => fault.message
  | rejected report _ => report
  | assembler failure => failure.message
  | general message => message
  | system failure => failure.message
  | unemittable nodeKind => "cannot emit instructions for " ++ nodeKind
  | unnamedNode nodeKind => Text.quoted nodeKind ++ " object has no attribute 'name'"
  | namelessPath path => "PosixPath(" ++ Text.quoted path ++ ") has an empty name"
  | nullInPath => "embedded null byte"
  | position fault => fault.message
  | emptyStack => "pop from empty list"
  | notANumber text => "could not convert string to float: " ++ Text.quoted text
  | unexpected message => message

/-- Failures that the compiler itself reports, as opposed to those of its environment. -/
def isOwn : Failure → Bool
  | undecodable .. | internal _ | rejected .. | assembler _ | general _ => true
  | _ => false

end Failure

end ExprWasm
