import ExprWasm.Files.Path

/-! A tree of files and directories, seen from a working directory.

A place in the tree is given by the names that lead to it from the working directory. What lies
outside of the working directory is reached through `..` or an absolute path; nothing but the
directories on the way is known of it. A file that is to be written can be refused, or be cut short
when it has been emptied already. -/

set_option autoImplicit false

namespace ExprWasm.Files

inductive Entry where
  | file (content : List UInt8)
  | directory
  deriving DecidableEq

/-- A place in a file tree. -/
abbrev Place := List String

inductive WriteAnswer where
  | accepted
  /-- The file is not opened, and one that was there stays. -/
  | refused (failure : SystemFailure)
  /-- The file is opened, which empties it, and takes no more than some bytes. -/
  | cutShort (taken : Nat) (failure : SystemFailure)
  deriving DecidableEq

structure FileTree where
  entries : List (Place × Entry) := []
  writeAnswer : Place → WriteAnswer := fun _ => .accepted

namespace FileTree

def isOutside : Place → Bool
  | ".." :: _ => true
  | "/" :: _ => true
  | _ => false

/-- The directories that are there in any case: the working directory, those above it, and the
root. -/
def isAncestor (place : Place) : Bool :=
  place = ["/"] || place.all (· = "..")

def entry? (tree : FileTree) (place : Place) : Option Entry :=
  if isAncestor place then some .directory
  else (tree.entries.find? fun entry => entry.1 = place).map Prod.snd

def parent (place : Place) : Place :=
  if place = ["/"] then place
  else if place.all (· = "..") then ".." :: place
  else place.dropLast

def enter (place : Place) (part : String) : Place :=
  if part = "." then place
  else if part = ".." then parent place
  else place ++ [part]

def longestName : Nat := 255

def longestPath : Nat := 4095

/-- The place that the parts of a path lead to. All places on the way have to be directories, and a
name that is too long is found in none of them. -/
def follow (tree : FileTree) (path : String) : Place → List String → Except SystemFailure Place
  | place, [] => .ok place
  | place, part :: rest =>
      match tree.entry? place with
      | none => .error (.notFound path)
      | some (.file _) => .error (.notDirectory path)
      | some .directory =>
          if longestName < part.utf8ByteSize then .error (.nameTooLong path)
          else tree.follow path (enter place part) rest

def start (root : String) : Place :=
  if root.isEmpty then [] else ["/"]

def resolve (tree : FileTree) (text root : String) (parts : List String) :
    Except SystemFailure Place :=
  if longestPath < text.utf8ByteSize then .error (.nameTooLong text)
  else tree.follow text (start root) parts

def place (tree : FileTree) (path : Path) : Except Failure Place :=
  if Path.holdsNull path.text then .error .nullInPath
  else
    match tree.resolve path.text path.root path.parts with
    | .error failure => .error (.system failure)
    | .ok place => .ok place

/-- The entry that a path leads to exactly as it is written, if any: a dot and a slash at the end
stand for a directory, and an empty text leads nowhere. -/
def status (tree : FileTree) (text : String) : Except Failure (Option Entry) :=
  if Path.holdsNull text then .error .nullInPath
  else if text.isEmpty then .ok none
  else
    let parts := Path.split text ++ if text.toList.getLast? = some '/' then ["."] else []
    match tree.resolve text (Path.rootOf text) parts with
    | .error _ => .ok none
    | .ok place => .ok (tree.entry? place)

def read (tree : FileTree) (path : Path) : Except Failure (List UInt8) :=
  match tree.place path with
  | .error failure => .error failure
  | .ok place =>
      match tree.entry? place with
      | none => .error (.system (.notFound path.text))
      | some .directory => .error (.system (.isDirectory path.text))
      | some (.file content) => .ok content

def set (tree : FileTree) (place : Place) (entry : Entry) : FileTree :=
  if tree.entries.any fun old => old.1 = place then
    { tree with
      entries := tree.entries.map fun old => if old.1 = place then (place, entry) else old }
  else { tree with entries := tree.entries ++ [(place, entry)] }

/-- Writes a file, new or in the place of another. Its directory has to be there. What was written
of a file before it was cut short stays. -/
def write (tree : FileTree) (path : Path) (content : List UInt8) : Except Failure Unit × FileTree :=
  match tree.place path with
  | .error failure => (.error failure, tree)
  | .ok place =>
      match tree.entry? place with
      | some .directory => (.error (.system (.isDirectory path.text)), tree)
      | _ =>
          match tree.writeAnswer place with
          | .accepted => (.ok (), tree.set place (.file content))
          | .refused failure => (.error (.system failure), tree)
          | .cutShort taken failure =>
              (.error (.system failure), tree.set place (.file (content.take taken)))

def addParents (tree : FileTree) (place : Place) : FileTree :=
  (List.range place.length).foldl
    (fun tree depth =>
      if (tree.entry? (place.take depth)).isSome then tree
      else tree.set (place.take depth) .directory)
    tree

def add (tree : FileTree) (path : Path) (entry : Entry) : FileTree :=
  (tree.addParents path.parts).set path.parts entry

/-- The files of a tree within the working directory that another tree does not have with the same
content. -/
def newFiles (before after : FileTree) : List (Place × List UInt8) :=
  after.entries.filterMap fun (place, entry) =>
    match entry with
    | .directory => none
    | .file content =>
        if isOutside place || before.entry? place = some entry then none else some (place, content)

end FileTree

end ExprWasm.Files
