import ExprWasm.Files.FileTree
import ExprWasm.Text.Similarity

/-! The command line: its options, and the errors in using it.

Options can stand before and after the source file, short options can be joined, and a value can be
joined to its option. After two dashes everything is a file. Of the values of an option the last one
counts. The values that name files are checked against the file tree in the order in which they were
given, the source file after all options. -/

set_option autoImplicit false

namespace ExprWasm.Command

open Files (FileTree Entry Path)

inductive OptionName where
  | output
  | noAssemble
  | assembler
  | tokens
  | tree
  | verbose
  | version
  | help
  deriving DecidableEq

namespace OptionName

def all : List OptionName :=
  [output, noAssemble, assembler, tokens, tree, verbose, version, help]

def long : OptionName → String
  | output => "--output"
  | noAssemble => "--no-assemble"
  | assembler => "--assembler"
  | tokens => "--tokens"
  | tree => "--ast"
  | verbose => "--verbose"
  | version => "--version"
  | help => "--help"

def ofLong? (text : String) : Option OptionName :=
  all.find? fun option => option.long == text

def ofShort? : Char → Option OptionName
  | 'o' => some output
  | 'v' => some verbose
  | _ => none

def takesValue : OptionName → Bool
  | output | assembler => true
  | _ => false

/-- The options that are answered at once, whatever else is given. -/
def isAnswer : OptionName → Bool
  | version | help => true
  | _ => false

end OptionName

inductive UsageError where
  /-- An option that is none, with those that it could be a misspelling of. -/
  | noSuchOption (option : String) (suggestions : List String)
  | valueMissing (option : String)
  | valueRefused (option : String)
  | inputMissing
  | fileMissing (parameter file : String)
  | directoryGiven (parameter file : String)
  | extraArguments (arguments : List String)
  deriving DecidableEq

namespace UsageError

def question : List String → String
  | [] => ""
  | [suggestion] => " Did you mean " ++ Text.quoted suggestion ++ "?"
  | suggestions =>
      " (Did you mean one of: " ++ ", ".intercalate (suggestions.map Text.quoted) ++ "?)"

def message : UsageError → String
  | noSuchOption option suggestions =>
      "No such option " ++ Text.quoted option ++ "." ++ question suggestions
  | valueMissing option => "Option " ++ Text.quoted option ++ " requires an argument."
  | valueRefused option => "Option " ++ Text.quoted option ++ " does not take a value."
  | inputMissing => "Missing argument 'INPUT_FILE'."
  | fileMissing parameter file =>
      "Invalid value for " ++ parameter ++ ": File " ++ Text.quoted file ++ " does not exist."
  | directoryGiven parameter file =>
      "Invalid value for " ++ parameter ++ ": File " ++ Text.quoted file ++ " is a directory."
  | extraArguments [argument] => "Got unexpected extra argument (" ++ argument ++ ")"
  | extraArguments arguments =>
      "Got unexpected extra arguments (" ++ " ".intercalate arguments ++ ")"

/-- The errors that are reported together with the usage of the command. The others are about an
option that is known. -/
def showsUsage : UsageError → Bool
  | valueMissing _ | valueRefused _ => false
  | _ => true

end UsageError

inductive Refusal where
  | usage (error : UsageError)
  | failure (failure : Failure)
  deriving DecidableEq

structure Given where
  options : List (OptionName × String) := []
  files : List String := []
  deriving DecidableEq

namespace Given

def withOption (given : Given) (option : OptionName) (value : String) : Given :=
  { given with options := given.options ++ [(option, value)] }

def withOptions (given : Given) (settings : List (OptionName × String)) : Given :=
  { given with options := given.options ++ settings }

def withFile (given : Given) (file : String) : Given :=
  { given with files := given.files ++ [file] }

def value? (given : Given) (option : OptionName) : Option String :=
  (given.options.reverse.find? fun entry => entry.1 = option).map Prod.snd

def has (given : Given) (option : OptionName) : Bool :=
  given.options.any fun entry => entry.1 = option

def answer? (given : Given) : Option OptionName :=
  (given.options.find? fun entry => entry.1.isAnswer).map Prod.fst

end Given

/-- What a word of the command line asks for: options with their values, and perhaps one more option
whose value is the next word. -/
structure Word where
  settings : List (OptionName × String)
  pending : Option (OptionName × String)

/-- Joined short options. The characters after one that takes a value are its value. -/
def shortOptions : List Char → Except UsageError Word
  | [] => .ok ⟨[], none⟩
  | c :: rest =>
      match OptionName.ofShort? c with
      | none => .error (.noSuchOption (String.ofList ['-', c]) [])
      | some option =>
          if option.takesValue then
            if rest.isEmpty then .ok ⟨[], some (option, String.ofList ['-', c])⟩
            else .ok ⟨[(option, String.ofList rest)], none⟩
          else
            (shortOptions rest).map fun word =>
              { word with settings := (option, "") :: word.settings }

def longOption (text : List Char) : Except UsageError Word :=
  let name := String.ofList (text.takeWhile (· ≠ '='))
  let value :=
    match text.dropWhile (· ≠ '=') with
    | [] => none
    | _ :: value => some (String.ofList value)
  match OptionName.ofLong? name, value with
  | none, _ =>
      .error (.noSuchOption name (Text.suggestions name (OptionName.all.map OptionName.long)))
  | some option, none =>
      if option.takesValue then .ok ⟨[], some (option, name)⟩ else .ok ⟨[(option, "")], none⟩
  | some option, some value =>
      if option.takesValue then .ok ⟨[(option, value)], none⟩ else .error (.valueRefused name)

/-- Reads the words of a command line. A word that begins with a dash and is longer than that gives
options, unless two dashes came before it. -/
def readWords (given : Given) : List String → Except UsageError Given
  | [] => .ok given
  | word :: rest =>
      match word.toList with
      | ['-', '-'] => .ok (rest.foldl Given.withFile given)
      | '-' :: c :: letters =>
          let parsed := if c = '-' then longOption word.toList else shortOptions (c :: letters)
          match parsed with
          | .error failure => .error failure
          | .ok ⟨settings, none⟩ =>
              readWords (given.withOptions settings) rest
          | .ok ⟨settings, some (option, spelling)⟩ =>
              match rest with
              | [] => .error (.valueMissing spelling)
              | value :: rest =>
                  readWords ((given.withOptions settings).withOption option value) rest
      | _ => readWords (given.withFile word) rest

def inputParameter : String := "'INPUT_FILE'"

def outputParameter : String := "'-o' / '--output'"

def checkOutput (files : FileTree) (output : Option String) : Except Refusal Unit :=
  match output with
  | none => .ok ()
  | some file =>
      match files.status file with
      | .error failure => .error (.failure failure)
      | .ok (some .directory) => .error (.usage (.directoryGiven outputParameter file))
      | .ok _ => .ok ()

def checkInput (files : FileTree) (given : List String) : Except Refusal String :=
  match given with
  | [] => .error (.usage .inputMissing)
  | file :: _ =>
      match files.status file with
      | .error failure => .error (.failure failure)
      | .ok none => .error (.usage (.fileMissing inputParameter file))
      | .ok (some .directory) => .error (.usage (.directoryGiven inputParameter file))
      | .ok (some (.file _)) => .ok file

structure Request where
  input : Path
  output : Option Path
  assemble : Bool
  assembler : String
  tokens : Bool
  tree : Bool
  verbose : Bool
  deriving DecidableEq

def request (files : FileTree) (given : Given) : Except Refusal Request := do
  let output := given.value? .output
  checkOutput files output
  let input ← checkInput files given.files
  match given.files.drop 1 with
  | [] =>
      .ok
        { input := Path.ofText input
          output := output.map Path.ofText
          assemble := !given.has .noAssemble
          assembler := (given.value? .assembler).getD "wat2wasm"
          tokens := given.has .tokens
          tree := given.has .tree
          verbose := given.has .verbose }
  | extra => .error (.usage (.extraArguments extra))

end ExprWasm.Command
