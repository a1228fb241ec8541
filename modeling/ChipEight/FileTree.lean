/-!
# File trees and paths

A file tree holds the files and directories below a working directory. Paths are
looked up in it one name after the other, as the operating system does it, and
the first name that stops the look-up decides what is wrong with the path. What
lies outside the working directory exists as directories only.
-/

namespace ChipEight

/-- Why a file could not be read. -/
inductive ReadError where
  | notFound
  | isDirectory
  | notDirectory
  | nameTooLong
  /-- any other reason, in the words of the operating system -/
  | other (text : String)
  deriving DecidableEq, Repr

/-- What the operating system says about a failure to read. -/
def ReadError.message : ReadError → String
  | .notFound => "No such file or directory"
  | .isDirectory => "Is a directory"
  | .notDirectory => "Not a directory"
  | .nameTooLong => "File name too long"
  | .other text => text

/-- An element of a file tree. -/
inductive Entry where
  | directory
  | file (content : List UInt8)
  deriving DecidableEq, Repr

/-- The elements below a working directory, each under the list of names that
leads to it. -/
structure FileTree where
  entries : List (List String × Entry)

namespace FileTree

/-- A tree without elements. -/
def empty : FileTree := ⟨[]⟩

/-- The names of a path: its longest runs of characters that are no slash. -/
def names (path : String) : List String :=
  ((path.toList.splitBy fun a b => a ≠ '/' && b ≠ '/').filter (· ≠ ['/'])).map String.ofList

/-- Where a look-up has got to. -/
inductive Place where
  /-- a directory outside the tree -/
  | outside
  /-- the element under a list of names, the last name first -/
  | inside (names : List String)
  deriving DecidableEq, Repr

/-- The element at a place, if there is one. -/
def entry? (t : FileTree) : Place → Option Entry
  | .outside => some .directory
  | .inside [] => some .directory
  | .inside names => t.entries.lookup names.reverse

/-- The most bytes of a name. -/
def nameLimit : Nat := 255

/-- The most bytes of a path. -/
def pathLimit : Nat := 4095

/-- The place that a name leads to from a directory. -/
def enter (place : Place) (name : String) : Except ReadError Place :=
  if name = "." then .ok place
  else if name = ".." then
    match place with
    | .inside (_ :: names) => .ok (.inside names)
    | _ => .ok .outside
  else if name.utf8ByteSize > nameLimit then .error .nameTooLong
  else
    match place with
    | .inside names => .ok (.inside (name :: names))
    | .outside => .error .notFound

/-- Add a directory at a place inside the tree, unless something is there. -/
def addDirectoryAt (t : FileTree) : Place → FileTree
  | .outside => t
  | .inside names => ⟨t.entries ++ [(names.reverse, .directory)]⟩

/-- Follow names from a place and add the directories that are missing on the way. -/
def makeWay (t : FileTree) (place : Place) : List String → Except ReadError (FileTree × Place)
  | [] => .ok (t, place)
  | name :: rest => do
    let next ← enter place name
    (t.addDirectoryAt next).makeWay next rest

/-- Add a directory, and those that lead to it. A path that leads nowhere adds nothing. -/
def addDirectory (t : FileTree) (path : String) : FileTree :=
  match t.makeWay (.inside []) (names path) with
  | .ok (t, _) => t
  | .error _ => t

/-- Add a file, and the directories that lead to it. A path that leads nowhere,
or outside the tree, adds nothing. -/
def addFile (t : FileTree) (path : String) (content : List UInt8) : FileTree :=
  let names := names path
  match t.makeWay (.inside []) names.dropLast, names.getLast? with
  | .ok (t, .inside way), some name => ⟨((name :: way).reverse, .file content) :: t.entries⟩
  | _, _ => t

/-- Follow names from a place. Every name but the last has to lead to a
directory, and the last one to something. -/
def follow (t : FileTree) (place : Place) : List String → Except ReadError (Place × Entry)
  | [] =>
    match t.entry? place with
    | some entry => .ok (place, entry)
    | none => .error .notFound
  | name :: rest =>
    match t.entry? place with
    | none => .error .notFound
    | some (.file _) => .error .notDirectory
    | some .directory => do
      follow t (← enter place name) rest

/-- Read the file at a path. -/
def read (t : FileTree) (path : String) : Except ReadError (List UInt8) := do
  if path = "" then
    throw .notFound
  if path.utf8ByteSize > pathLimit then
    throw .nameTooLong
  let start := if path.toList.head? = some '/' then Place.outside else .inside []
  match ← t.follow start (names path) with
  | (_, .directory) => throw .isDirectory
  | (_, .file content) =>
    if path.toList.getLast? = some '/' then
      throw .notDirectory
    return content

example : names "/a//bc/" = ["a", "bc"] := by decide +kernel
example : ((empty.addFile "d/f" [1]).read "d/../d/./f").toOption = some [1] := by decide +kernel
example : ((empty.addFile "d/../f" [1]).read "./f").toOption = some [1] := by decide +kernel
example : ((empty.addFile "d/f" [1]).read "d/f/x").toOption = none := by decide +kernel

end FileTree

end ChipEight
