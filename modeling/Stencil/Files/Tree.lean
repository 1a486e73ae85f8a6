import Stencil.Files.Basic
import Stencil.Files.Path

/-!
# File trees — a directory held in memory

A tree lists what stands under names below a directory: files, and the directories that
lead to them. What is listed first counts. Paths are walked from the directory of the
tree, one component at a time; nothing is known to exist outside of it.
-/

namespace Stencil

/-- What can stand under a name. -/
inductive Node where
  | directory
  | file (content : ByteArray)

/-- What stands below a directory, each with the names that lead to it. -/
abbrev FileTree := List (List (List Char) × Node)

namespace FileTree

/-- Where a walk has got to: a directory of the tree, a number of directories above it,
    or a file. -/
inductive Place where
  | directory (names : List (List Char))
  | above (levels : Nat)
  | file (content : ByteArray)

/-- The part of a path that leads one directory up. -/
def isUp (part : List Char) : Bool :=
  part == ['.', '.']

/-- A part of a path has more bytes than a name may have. -/
def isTooLong (part : List Char) : Bool :=
  255 < (String.ofList part).utf8ByteSize

/-- Takes one step of a walk. -/
def step (tree : FileTree) (place : Place) (part : List Char) : Except FileFault Place :=
  match place with
  | .file _ => .error .notDirectory
  | .above levels =>
    if Path.isIdle part then .ok place
    else if isUp part then .ok (.above (levels + 1))
    else if isTooLong part then .error .nameTooLong
    else .error .notFound
  | .directory names =>
    if Path.isIdle part then .ok place
    else if isUp part then .ok (if names.isEmpty then .above 1 else .directory names.dropLast)
    else if isTooLong part then .error .nameTooLong
    else
      match tree.lookup (names ++ [part]) with
      | some .directory => .ok (.directory (names ++ [part]))
      | some (.file content) => .ok (.file content)
      | none => .error .notFound

/-- The place where a path leads. An absolute path starts above everything. -/
def find (tree : FileTree) (path : String) : Except FileFault Place :=
  if path.toList.contains '\x00' then .error .invalidName
  else if path.isEmpty then .error .notFound
  else if 4096 ≤ path.utf8ByteSize then .error .nameTooLong
  else
    let start := if Path.isAbsolute path then Place.above 1 else .directory []
    (Path.split path.toList).foldlM tree.step start

/-- What the paths of a tree hold. -/
def files (tree : FileTree) : Files := fun path =>
  match tree.find path with
  | .error fault => .error fault
  | .ok (.file content) =>
    match String.fromUTF8? content with
    | some text => .ok text
    | none => .error .notText
  | .ok _ => .error .isDirectory

/-- Writes a file in the directory that `names` lead to. The directories on its way are
    made. -/
def write (content : ByteArray) (names : List (List Char)) (tree : FileTree) :
    List (List Char) → FileTree
  | [] => tree
  | [part] => (names ++ [part], .file content) :: tree
  | part :: parts =>
    if Path.isIdle part then write content names tree parts
    else if isUp part then write content names.dropLast tree parts
    else write content (names ++ [part]) ((names ++ [part], .directory) :: tree) parts

/-- A tree from the paths and contents of its files, written one after another. -/
def ofFiles (files : List (String × ByteArray)) : FileTree :=
  files.foldl (fun tree file => write file.2 [] tree (Path.split file.1.toList)) []

end FileTree

end Stencil
