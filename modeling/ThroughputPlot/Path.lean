import ThroughputPlot.Text.Cut

/-!
# Paths

A path is a text whose parts are separated by slashes.  Empty parts and parts that are
a single dot count for nothing, except a dot at the front of a relative path.  An
absolute path joined to another replaces it.
-/

namespace ThroughputPlot.Path

inductive Component where
  | root
  | current
  | parent
  | name (text : List Char)
deriving DecidableEq

/-- The parts of a path between its slashes, empty ones too. -/
def parts (path : List Char) : List (List Char) := Text.cutAt '/' path

def isAbsolute (path : String) : Bool := path.toList.head? = some '/'

/-- The step of a part that is neither empty nor a single dot. -/
def ofPart (part : List Char) : Component :=
  if part = ['.', '.'] then .parent else .name part

def components (path : String) : List Component :=
  let all := parts path.toList
  let front :=
    if isAbsolute path then [Component.root]
    else if all.head? = some ['.'] then [Component.current]
    else []
  front ++ (all.filter fun part => !part.isEmpty && part ≠ ['.']).map ofPart

/-- The text of a relative path followed after a directory. -/
def join (directory path : String) : String :=
  if isAbsolute path then path
  else if directory.isEmpty || directory.toList.getLast? = some '/' then directory ++ path
  else directory ++ "/" ++ path

/-- The last name of a path, unless the path ends in a step that is no name. -/
def fileName? (path : String) : Option (List Char) :=
  match (components path).getLast? with
  | some (.name text) => some text
  | _ => none

/-- What follows the last dot of the file name, if anything stands before that dot. -/
def extension? (path : String) : Option (List Char) :=
  (fileName? path).bind fun name =>
    let reversed := name.reverse
    match reversed.dropWhile (· ≠ '.') with
    | _ :: stem => if stem.isEmpty then none else some (reversed.takeWhile (· ≠ '.')).reverse
    | [] => none

/-- What is no step at the front of a path: a slash, or the dot of a relative path. -/
def lead (path : List Char) : List Char :=
  if path.head? = some '/' then ['/']
  else if (parts path).head? = some ['.'] then ['.']
  else []

def isSkipped (part : List Char) : Bool := part.isEmpty || part = ['.']

/--
The directories above the place of a path, from its lead and the parts behind, the last part
first.  Each is a part of the text, up to its last step.  Above a relative path lies the empty
path, which stands for the directory that the path starts from.
-/
def directories (lead : List Char) : List (List Char) → List (List Char)
  | [] => if lead = ['.'] then [[]] else []
  | part :: above =>
    if isSkipped part then directories lead above
    else
      let kept := above.dropWhile isSkipped
      (lead ++ ['/'].intercalate kept.reverse) :: directories lead above

/-- The directories above a path, the nearest first. -/
def above (path : String) : List String :=
  let text := path.toList
  let steps := parts (text.drop (lead text).length)
  (directories (lead text) steps.reverse).map String.ofList

/-- The directory of a path, unless the path is the root or has no steps. -/
def parent? (path : String) : Option String := (above path).head?

/-- A path and the directories above it. -/
def ancestors (path : String) : List String := path :: above path

end ThroughputPlot.Path
