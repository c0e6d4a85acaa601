import FilterClause.Error

/-!
# File trees

Directories and files by the names that lead to them from the root, and a working directory from
which relative paths start. A path is followed name by name, so that every name but the last must be
that of a directory, also where `..` leads back out of it. Names and paths are limited in length,
and a path cannot hold the character NUL. Links and permissions are left out.
-/

namespace FilterClause

/-- The names that lead to a place from the root. -/
abbrev Place := List String

/-- What is at a place. -/
inductive FileNode
  | directory
  | file (bytes : ByteArray)

/-- Directories and files, and the directory that relative paths start from. -/
structure FileTree where
  nodes : List (Place × FileNode)
  workingDirectory : Place

namespace FileTree

/-! ## Paths -/

/-- The pieces of characters between slashes. -/
def splitSlashes : List Char → List (List Char)
  | [] => [[]]
  | c :: rest =>
    if c = '/' then [] :: splitSlashes rest
    else
      match splitSlashes rest with
      | [] => [[c]]
      | name :: names => (c :: name) :: names

/-- The names of a path, in order. -/
def names (path : String) : List String :=
  ((splitSlashes path.toList).filter (!·.isEmpty)).map String.ofList

/-- The greatest number of bytes of a name. -/
def maxNameSize : Nat := 255

/-- The greatest number of bytes of a path. -/
def maxPathSize : Nat := 4095

/-- Refuses a path that no file can have. -/
def checkPath (path : String) : Except IoFault Unit :=
  if '\x00' ∈ path.toList then .error .nulCharacter
  else if maxPathSize < path.utf8ByteSize then .error .nameTooLong
  else .ok ()

/-- Refuses a name that no file can have. -/
def checkName (name : String) : Except IoFault Unit :=
  if maxNameSize < name.utf8ByteSize then .error .nameTooLong else .ok ()

/-- The place from which a path starts. -/
def start (t : FileTree) (path : String) : Place :=
  if path.startsWith "/" then [] else t.workingDirectory

/-- The place that a name leads to from a directory. -/
def enter (here : Place) (name : String) : Place :=
  if name = "." then here else if name = ".." then here.dropLast else here ++ [name]

/-! ## Look-up -/

/-- What is at a place; the root is a directory. -/
def node? (t : FileTree) (place : Place) : Option FileNode :=
  if place = [] then some .directory else t.nodes.lookup place

/-- The place that names lead to, through directories. -/
def walk? (t : FileTree) : Place → List String → Except IoFault Place
  | here, [] => .ok here
  | here, name :: rest =>
    match t.node? here with
    | some .directory =>
      match checkName name with
      | .error fault => .error fault
      | .ok _ => t.walk? (enter here name) rest
    | some (.file _) => .error .notDirectory
    | none => .error .notFound

/-- The place that a path leads to. A path that ends in a slash goes into a directory. -/
def resolve? (t : FileTree) (path : String) : Except IoFault Place :=
  match checkPath path with
  | .error fault => .error fault
  | .ok _ =>
    if path = "" then .error .notFound
    else t.walk? (t.start path) (names path ++ if path.endsWith "/" then ["."] else [])

/-- The text of the file at a path. -/
def read? (t : FileTree) (path : String) : Except IoFault String := do
  match t.node? (← t.resolve? path) with
  | some .directory => .error .isDirectory
  | none => .error .notFound
  | some (.file bytes) =>
    match String.fromUTF8? bytes with
    | some text => .ok text
    | none => .error .invalidText

/-! ## Changes -/

/-- The list of nodes in which a place holds a given node. -/
def putNode (place : Place) (node : FileNode) :
    List (Place × FileNode) → List (Place × FileNode)
  | [] => [(place, node)]
  | (p, n) :: rest =>
    if p = place then (place, node) :: rest else (p, n) :: putNode place node rest

/-- The tree in which a place holds a given node. -/
def put (t : FileTree) (place : Place) (node : FileNode) : FileTree :=
  { t with nodes := putNode place node t.nodes }

/-- Makes the directories that names lead through, as far as they are missing. No name may be that
of a file, and a missing one cannot be left through `.` at the end of the path. -/
def makeAlong (t : FileTree) : Place → List String → Except IoFault Unit × FileTree
  | _, [] => (.ok (), t)
  | here, name :: rest =>
    let there := enter here name
    match checkName name, t.node? there with
    | .error fault, _ => (.error fault, t)
    | .ok _, some .directory => t.makeAlong there rest
    | .ok _, some (.file _) =>
      (.error (if rest.isEmpty then .alreadyExists else .notDirectory), t)
    | .ok _, none =>
      if !rest.isEmpty && rest.all (· = ".") then (.error .notFound, t)
      else (t.put there .directory).makeAlong there rest

/-- Makes the directories of a path, as far as they are missing. -/
def makeDirectories (t : FileTree) (path : String) : Except IoFault Unit × FileTree :=
  match checkPath path with
  | .error fault => (.error fault, t)
  | .ok _ => t.makeAlong (t.start path) (names path)

/-- The names of the directories above the file at a path. -/
def parentNames (path : String) : List String :=
  ((names path).dropLast.reverse.dropWhile (· = ".")).reverse

/-- Opens the file at a path, and makes it empty if it is missing. -/
def openFile (t : FileTree) (path : String) : Except IoFault Place × FileTree :=
  match t.resolve? path with
  | .error fault => (.error fault, t)
  | .ok place =>
    match t.node? place with
    | some .directory => (.error .isDirectory, t)
    | some (.file _) => (.ok place, t)
    | none => (.ok place, t.put place (.file .empty))

/-- Opens the file at a path, and makes it and the directories above it as far as they are
missing. -/
def openWithParents (t : FileTree) (path : String) : Except IoFault Place × FileTree :=
  match checkPath path with
  | .error fault => (.error fault, t)
  | .ok _ =>
    match t.makeAlong (t.start path) (parentNames path) with
    | (.error fault, t) => (.error fault, t)
    | (.ok _, t) => t.openFile path

/-- Appends a text to the file at a place. -/
def append (t : FileTree) (place : Place) (text : String) : FileTree :=
  match t.node? place with
  | some (.file bytes) => t.put place (.file (bytes ++ text.toUTF8))
  | some .directory => t
  | none => t

end FileTree

end FilterClause
