import ThroughputPlot.Drawing.Paint
import ThroughputPlot.Drawing.Png
import ThroughputPlot.Workspace

/-!
# File trees

A file tree is a model of a file system: what lies at which place, and the place from
which relative paths start.  A place is the list of names that leads to it from the
root.  A path is followed name by name, and each name but the last must lead to a
directory.  What a drawing does to a tree is left to a renderer.
-/

namespace ThroughputPlot

inductive FileNode where
  | directory
  | file (content : Bytes)
  | image (format : ImageFormat) (drawing : Drawing) (content : Bytes)
deriving DecidableEq

/-- The names that lead from the root to a place. -/
abbrev Place := List (List Char)

structure FileTree where
  start : Place
  nodes : List (Place × FileNode)
deriving DecidableEq

def maxNameBytes : Nat := 255

def maxPathBytes : Nat := 4095

namespace FileTree

/-- What lies at a place; the root is always there. -/
def node? (tree : FileTree) (place : Place) : Option FileNode :=
  if place.isEmpty then some .directory else tree.nodes.lookup place

def isDirectory (tree : FileTree) (place : Place) : Bool :=
  tree.node? place = some .directory

def put (tree : FileTree) (place : Place) (node : FileNode) : FileTree :=
  { tree with nodes := (tree.nodes.filter (·.1 ≠ place)) ++ [(place, node)] }

def isTooLong (name : List Char) : Bool := maxNameBytes < (String.ofList name).utf8ByteSize

/-! ## Following paths -/

/-- Refuses texts that are no paths. -/
def checkPath (path : String) : Except IoFault Unit :=
  if path.toList.contains '\x00' then .error .nulInName
  else if path.isEmpty then .error .notFound
  else if maxPathBytes < path.utf8ByteSize then .error .nameTooLong
  else .ok ()

/-- The place to which names lead from another. -/
def follow (tree : FileTree) : Place → List (List Char) → Except IoFault Place
  | place, [] => .ok place
  | place, name :: rest =>
    if !tree.isDirectory place then .error .notADirectory
    else if name.isEmpty || name = ['.'] then follow tree place rest
    else if name = ['.', '.'] then follow tree place.dropLast rest
    else if isTooLong name then .error .nameTooLong
    else
      match tree.node? (place ++ [name]) with
      | none => .error .notFound
      | some _ => follow tree (place ++ [name]) rest

def origin (tree : FileTree) (path : String) : Place :=
  if Path.isAbsolute path then [] else tree.start

def find (tree : FileTree) (path : String) : Except IoFault Place := do
  checkPath path
  tree.follow (tree.origin path) (Path.parts path.toList)

def leadsToDirectory (tree : FileTree) (path : String) : Bool :=
  match tree.find path with
  | .ok place => tree.isDirectory place
  | .error _ => false

def findDirectory (tree : FileTree) (path : String) (names : List (List Char)) :
    Except IoFault Place := do
  let place ← tree.follow (tree.origin path) names
  if tree.isDirectory place then .ok place else .error .notADirectory

/-- The place for something new: a name in a directory that is there. -/
def newPlace (tree : FileTree) (path : String) (names : List (List Char)) (last : List Char) :
    Except IoFault Place := do
  let directory ← tree.findDirectory path names
  if isTooLong last then .error .nameTooLong else .ok (directory ++ [last])

/-! ## Reading and writing -/

/-- The content of a file, which may be an image. -/
def readFile (tree : FileTree) (path : String) : Except IoFault Bytes := do
  let place ← tree.find path
  match tree.node? place with
  | some (.file content) | some (.image _ _ content) => .ok content
  | some .directory => .error .isADirectory
  | none => .error .notFound

/-- Whether a part of a path is no name of its own. -/
def isStep (part : List Char) : Bool := part.isEmpty || part = ['.'] || part = ['.', '.']

def makeDirectory (tree : FileTree) (path : String) : Except IoFault FileTree := do
  checkPath path
  let parts := ((Path.parts path.toList).reverse.dropWhile List.isEmpty).reverse
  match parts.getLast? with
  | none => .error .exists
  | some last =>
    if isStep last then
      let _ ← tree.findDirectory path parts.dropLast
      .error .exists
    else
      let place ← tree.newPlace path parts.dropLast last
      match tree.node? place with
      | some _ => .error .exists
      | none => .ok (tree.put place .directory)

/--
Makes the first of the given directories, each of which lies in the next; the empty
path stands for a directory that is there.  What was made before a fault stays.
-/
def makeEach : List String → FileTree → Except IoFault Unit × FileTree
  | [], tree => (.error (.other "failed to create whole tree"), tree)
  | path :: above, tree =>
    if path.isEmpty then (.ok (), tree)
    else
      match tree.makeDirectory path with
      | .ok made => (.ok (), made)
      | .error .notFound =>
        match makeEach above tree with
        | (.error fault, left) => (.error fault, left)
        | (.ok _, left) =>
          match left.makeDirectory path with
          | .ok made => (.ok (), made)
          | .error fault => (if left.leadsToDirectory path then .ok () else .error fault, left)
      | .error fault => (if tree.leadsToDirectory path then .ok () else .error fault, tree)

/-- Makes a directory and those above it, unless they are there. -/
def makeDirectories (path : String) (tree : FileTree) : Except IoFault Unit × FileTree :=
  makeEach (Path.ancestors path) tree

/-- Puts something at a path, in place of a file that is there. -/
def write (tree : FileTree) (path : String) (node : FileNode) : Except IoFault FileTree := do
  checkPath path
  let parts := Path.parts path.toList
  match parts.getLast? with
  | none => .error .isADirectory
  | some last =>
    if isStep last then .error .isADirectory
    else
      let place ← tree.newPlace path parts.dropLast last
      if tree.isDirectory place then .error .isADirectory
      else .ok (tree.put place node)

end FileTree

/-! ## Drawing -/

/-- What a drawing at a path does to a tree, and whether it succeeds. -/
abbrev Renderer := Drawing → String → FileTree → Report Unit × FileTree

/-- How images are written: their bytes, and what is said where one cannot be. -/
structure Plotter where
  encode : ImageFormat → Drawing → Bytes
  refusal : Drawing → String → String

/-- Writes every image as a PNG file. -/
def Plotter.png : Plotter where
  encode _ drawing := (Png.encode drawing.paint).toList
  refusal _ path := "no image at " ++ path

namespace FileTree

def draw (plotter : Plotter) : Renderer := fun drawing path tree =>
  let refused := (Report.fail (.rendering (plotter.refusal drawing path)), tree)
  match drawing.format? path with
  | none => refused
  | some format =>
    match tree.write path (.image format drawing (plotter.encode format drawing)) with
    | .error _ => refused
    | .ok written => (drawing.report path, written)

/-- The workspace of file trees with the given renderer. -/
def workspaceWith (renderer : Renderer) : Workspace (StateM FileTree) where
  readFile path := fun tree => (tree.readFile path, tree)
  makeDirectories path := fun tree => makeDirectories path tree
  draw := renderer

/--
Adds a file and the directories above it, or a directory if the path ends in a slash.
What cannot be added is left out.
-/
def add (tree : FileTree) (path : String) (content : Bytes) : FileTree :=
  if path.toList.getLast? = some '/' then (makeDirectories path tree).2
  else
    let made := match Path.parent? path with
      | some directory => (makeDirectories directory tree).2
      | none => tree
    match made.write path (.file content) with
    | .ok written => written
    | .error _ => made

def ofFiles (start : String) (files : List (String × Bytes)) : FileTree :=
  let made := (makeDirectories start ⟨[], []⟩).2
  let place := (Path.parts start.toList).filter (!·.isEmpty)
  files.foldl (fun tree (path, content) => tree.add path content) { made with start := place }

/-! ## What is new -/

/-- The path of a place below another, with a slash after a directory. -/
def pathBelow (start place : Place) (node : FileNode) : String :=
  let names := place.drop start.length
  let ending := if node = .directory then ['/'] else []
  String.ofList (['/'].intercalate names ++ ending)

def insertPath (item : String × FileNode) : List (String × FileNode) → List (String × FileNode)
  | [] => [item]
  | first :: rest =>
    if item.1 < first.1 then item :: first :: rest else first :: insertPath item rest

/-- What lies below the start of a tree and did not lie there before, ordered by path. -/
def additions (before after : FileTree) : List (String × FileNode) :=
  let isNew := fun item : Place × FileNode =>
    before.start.isPrefixOf item.1 && item.1 ≠ before.start && (before.node? item.1).isNone
  (after.nodes.filter isNew).foldr
    (fun item found => insertPath (pathBelow before.start item.1 item.2, item.2) found) []

end FileTree

end ThroughputPlot
