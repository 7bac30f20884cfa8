import FieldTrace.Index.Basic

/-! # Projects in a file tree

A file tree holds files and folders at places, which are lists of names from the top. A route leads
to a place and may turn back on its way. A project is a folder; its sources are the entries below it
whose names end in `.java`, apart from those in folders that hold build products or tool data. -/

namespace FieldTrace

/-- The names that lead from the top to a file or folder. -/
abbrev Place := List String

namespace Place

/-- The place as an absolute path. -/
def text (p : Place) : String := "/" ++ Text.join "/" p

/-- The places on the way from the top, with both ends. -/
def beginnings : Place → List Place
  | [] => [[]]
  | name :: names => [] :: (beginnings names).map (fun p => name :: p)

/-- The names of a path. -/
def names (path : String) : List String := (path.toList.splitOn '/').map String.ofList

/-- Go from a place to the one that a name leads to. -/
def enter (p : Place) (name : String) : Place :=
  if name = "" || name = "." then p else if name = ".." then p.dropLast else p ++ [name]

/-- The place that a path names, seen from a working folder. -/
def resolve (working : Place) (path : String) : Place :=
  (names path).foldl enter (if (path.toList.head?) = some '/' then [] else working)

end Place

/-- The steps that lead from the top to a file or folder; the step `..` leads back to the folder
above. A place is a route without such steps. -/
abbrev Route := List String

/-- The steps of a path, seen from a working folder. -/
def Route.ofPath (working : Place) (path : String) : Route :=
  (if (path.toList.head?) = some '/' then [] else working)
    ++ (Place.names path).filter (fun name => name ≠ "" && name ≠ ".")

/-- A file with its bytes and its parse tree. -/
structure StoredFile where
  place : Place
  bytes : Array UInt8
  tree : Syntax.Tree

/-- Files, and folders that need not hold any. -/
structure FileTree where
  files : List StoredFile := []
  folders : List Place := []

namespace FileTree

variable (t : FileTree)

/-- The places of all files and folders; each leads through those of its beginnings. -/
def places : List Place :=
  distinct ((t.files.map StoredFile.place ++ t.folders).flatMap Place.beginnings)

/-- The file at a place. -/
def file? (p : Place) : Option StoredFile := t.files.find? (fun f => f.place = p)

/-- Is there a folder at the place? The top is one. -/
def isFolder (p : Place) : Bool := p = [] || (t.places.contains p && (t.file? p).isNone)

/-- The folder that a route leads to: every step on it has to lead to a folder. -/
def folderAt? (route : Route) : Option Place :=
  route.foldlM (fun p name =>
    let next := p.enter name
    if t.isFolder next then some next else none) []

/-- The most bytes that a name may have. -/
def maxNameBytes : Nat := 255

/-- The most bytes that a path may have. -/
def maxPathBytes : Nat := 4095

/-- Is a name too long, on the way from a folder as far as there are folders? -/
def hasLongName (p : Place) : List String → Bool
  | [] => false
  | name :: names =>
    maxNameBytes < name.utf8ByteSize
      || (t.isFolder (p ++ [name]) && hasLongName (p ++ [name]) names)

/-- A place that cannot be looked for: its path or a name in it is too long. -/
def isTooLong (p : Place) : Bool :=
  maxPathBytes < p.text.utf8ByteSize || t.hasLongName [] p

/-- Folders that hold no sources of the project. -/
def excludedNames : List String :=
  [".git", ".gradle", ".idea", ".mvn", "build", "target", "out", "bin", "node_modules"]

/-- Is the place that of a source below the root? -/
def isSource (root p : Place) : Bool :=
  let below := p.drop root.length
  root.isPrefixOf p && (below.getLast?).any (fun name => Text.endsWith name ".java")
    && !below.any (fun name => excludedNames.contains name)

/-- The places of the sources below the root, in the order of their names. -/
def sources (root : Place) : List Place :=
  stableSort (lexLt textLt) (t.places.filter (isSource root))

/-- The path of a place below a root, along the route to the root. -/
def pathAlong (route : Route) (root p : Place) : String :=
  Place.text (route ++ p.drop root.length)

/-- The index of the project at a root, with paths along a route to it; folders named like sources
are skipped. -/
def index (route : Route) (root : Place) : Index :=
  let sources := t.sources root
  Index.ofFiles
    (sources.filterMap (fun p => (t.file? p).map (fun f =>
      { path := pathAlong route root p, bytes := f.bytes, tree := f.tree })))
    ((sources.filter (fun p => (t.file? p).isNone)).map (pathAlong route root))

/-- There is no project folder. -/
structure MissingFolder where
  route : Route
  deriving DecidableEq, Repr

/-- What is missing. -/
def MissingFolder.message (e : MissingFolder) : String :=
  "Project directory not found: " ++ Place.text e.route

/-- The index of the project that a route leads to. -/
def project (route : Route) : Except MissingFolder Index :=
  match t.folderAt? route with
  | some root => .ok (t.index route root)
  | none => .error ⟨route⟩

end FileTree

end FieldTrace
