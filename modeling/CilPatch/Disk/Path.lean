/-!
# Paths

A path is a text whose parts are set apart by slashes. It starts at the root or in the working
directory. Empty parts and single dots mean nothing, and two dots lead back to the directory
above, provided that there is a directory to come back from.
-/

namespace CilPatch.Path

/-- Whether a path starts at the root. -/
def isAbsolute (path : String) : Bool := path.toList.head? == some '/'

/-- Whether a path ends in a slash, so that it can only mean a directory. -/
def endsInSlash (path : String) : Bool := path.toList.getLast? == some '/'

/-- A path below a directory; an absolute path stays as it is. -/
def join (directory path : String) : String :=
  if isAbsolute path then path
  else if directory.isEmpty || endsInSlash directory then directory ++ path
  else directory ++ "/" ++ path

/-- The parts of a path on the way to its end. -/
def steps (path : String) : List String :=
  ((path.toList.splitOn '/').filter (!·.isEmpty)).map String.ofList

/-- The parts of a path that name something; the first part of an absolute path is a slash. -/
def parts (path : String) : List String :=
  let named := (steps path).filter (· != ".")
  if isAbsolute path then "/" :: named else named

/-- Where a path starts: at the root or in the working directory. -/
def start (path : String) : String := if isAbsolute path then "/" else "."

/-- The directory above one that is given by its start and the names from there on. Nothing lies
above the start. -/
def above (names : List String) : List String :=
  match names with
  | [] | [_] => names
  | first :: rest => first :: rest.dropLast

/-- The start of a path and the names from there on that are left when every pair of dots has
led back. -/
def resolve (path : String) : List String :=
  (steps path).foldl (fun passed part =>
    if part = "." then passed else if part = ".." then above passed else passed ++ [part])
    [start path]

/-- The path that has the given parts. -/
def ofParts : List String → String
  | "/" :: named => "/" ++ "/".intercalate named
  | named => "/".intercalate named

/-- The name of the file that a path leads to, if it ends in a name. -/
def fileName? (path : String) : Option String :=
  (parts path).getLast?.filter fun part => part != "/" && part != ".."

/-- The path of another file in the same directory. -/
def sibling (path name : String) : String := ofParts ((parts path).dropLast ++ [name])

end CilPatch.Path
