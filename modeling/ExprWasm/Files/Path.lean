import ExprWasm.Failure

/-! Paths in normal form: without empty parts and parts that stand for the current directory. -/

set_option autoImplicit false

namespace ExprWasm.Files

/-- A path. The root is empty for a relative path, and otherwise one slash or two. -/
structure Path where
  root : String
  parts : List String
  deriving DecidableEq

namespace Path

/-- The parts of a text between slashes. The characters of the first part that were read before are
in `current`, the last one first. -/
def partsFrom (current : List Char) : List Char → List String
  | [] => [String.ofList current.reverse]
  | c :: rest =>
      if c = '/' then String.ofList current.reverse :: partsFrom [] rest
      else partsFrom (c :: current) rest

def split (text : String) : List String :=
  (partsFrom [] text.toList).filter fun part => !part.isEmpty

/-- The root of a path. Two leading slashes are kept; three or more count as one. -/
def rootOf (text : String) : String :=
  let slashes := (text.toList.takeWhile (· = '/')).length
  if slashes = 0 then ""
  else if slashes = 2 then "//"
  else "/"

def ofText (text : String) : Path :=
  ⟨rootOf text, (split text).filter (· ≠ ".")⟩

def text (path : Path) : String :=
  if path.root.isEmpty && path.parts.isEmpty then "."
  else path.root ++ "/".intercalate path.parts

def holdsNull (text : String) : Bool :=
  text.toList.contains '\x00'

def given? (text : Option String) : Option Path :=
  match text with
  | none => none
  | some text => if text.isEmpty then none else some (ofText text)

/-- A file name without its suffix. The suffix begins with the last dot, if that is neither the
first nor the last character. -/
def stem (name : List Char) : List Char :=
  match name.reverse.dropWhile (· ≠ '.') with
  | [] => name
  | _ :: front =>
      if front.isEmpty || name.getLast? = some '.' then name else front.reverse

def withSuffix (path : Path) (suffix : String) : Except Failure Path :=
  match path.parts.getLast? with
  | none => .error (.namelessPath path.text)
  | some name =>
      .ok
        { path with
          parts := path.parts.dropLast ++ [String.ofList (stem name.toList) ++ suffix] }

end Path

end ExprWasm.Files
