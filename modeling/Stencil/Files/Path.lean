/-!
# Paths — the directory of a path, and paths relative to it

A path is a text whose components stand between slashes. Empty components and single
dots do not count, except for a dot at the very beginning.
-/

namespace Stencil.Path

/-- The parts of a text between slashes. -/
def split : List Char → List (List Char)
  | [] => [[]]
  | c :: rest =>
    if c = '/' then [] :: split rest
    else
      match split rest with
      | part :: parts => (c :: part) :: parts
      | [] => [[c]]

/-- A path that starts at the root. -/
def isAbsolute (path : String) : Bool :=
  path.toList.head? == some '/'

/-- A part that names nothing. -/
def isIdle (part : List Char) : Bool :=
  part == [] || part == ['.']

/-- The parts of a path up to the last one that counts. A dot at the very beginning
    counts. -/
def settled : List (List Char) → List (List Char)
  | [] => []
  | first :: parts =>
    let kept := (parts.reverse.dropWhile isIdle).reverse
    if kept.isEmpty ∧ first = [] then [] else first :: kept

/-- Puts slashes between parts. -/
def join : List (List Char) → List Char
  | [] => []
  | [part] => part
  | part :: parts => part ++ '/' :: join parts

/-- The directory that a path is in, as far as the path names it. -/
def directory (path : String) : String :=
  if isAbsolute path then
    let parts := (split (path.toList.drop 1)).reverse.dropWhile isIdle
    let kept := ((parts.drop 1).dropWhile isIdle).reverse
    String.ofList ('/' :: join kept)
  else
    let parts := settled (split path.toList)
    String.ofList (join (settled parts.dropLast))

/-- A path relative to a directory; an absolute path stays as it is. -/
def within (directory path : String) : String :=
  if isAbsolute path then path
  else if directory.isEmpty || directory.toList.getLast? == some '/' then directory ++ path
  else directory ++ "/" ++ path

end Stencil.Path
